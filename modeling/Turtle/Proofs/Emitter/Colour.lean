import Turtle.Emitter.Standard
import Turtle.Proofs.Compile.Following
import Turtle.Proofs.Text.Ascii

/-!
# Colours

A colour is meant to be a hash and six hexadecimal digits.  The two digits of a part are read as a
number, though, and a number may begin with a plus sign.  So some texts that are not of this form
are taken for colours, with a zero for the plus sign.
-/

namespace Turtle

open Logo (Order)

namespace Text

variable {c : Char} {n : Nat}

/-- Whether a character is a hexadecimal digit, of either case. -/
def isHexDigit (c : Char) : Bool :=
  c.isDigit || decide ('a' ≤ c ∧ c ≤ 'f') || decide ('A' ≤ c ∧ c ≤ 'F')

theorem isSome_hexValue? (c : Char) : (hexValue? c).isSome = isHexDigit c := by
  rw [hexValue?, isHexDigit]
  by_cases h : c.isDigit
  · simp [h]
  · by_cases ha : 'a' ≤ c ∧ c ≤ 'f'
    · simp [h, ha]
    · by_cases hA : 'A' ≤ c ∧ c ≤ 'F' <;> simp only [h, ha, hA] <;> rfl

theorem toNat_lt_of_isHexDigit (h : isHexDigit c) : c.toNat < 128 := by
  have hdigit : c.isDigit = (decide ('0' ≤ c) && decide (c ≤ '9')) := rfl
  simp only [isHexDigit, hdigit, Bool.or_eq_true, Bool.and_eq_true, decide_eq_true_eq] at h
  rcases h with (⟨-, h⟩ | ⟨-, h⟩) | ⟨-, h⟩
  · exact toNat_lt_of_le h (by decide)
  · exact toNat_lt_of_le h (by decide)
  · exact toNat_lt_of_le h (by decide)

/-- By the table of ASCII: the number of a digit is the one that is written with it. -/
theorem hexDigit_of_hexValue? (h : hexValue? c = some n) : n < 16 ∧ hexDigit n = c.toUpper := by
  have htable : ∀ k < 128, ∀ n ∈ hexValue? (Char.ofNat k),
      n < 16 ∧ hexDigit n = (Char.ofNat k).toUpper := by
    decide +kernel
  have hdigit : isHexDigit c := by rw [← isSome_hexValue?, h]; rfl
  have hc : ∀ n ∈ hexValue? c, n < 16 ∧ hexDigit n = c.toUpper :=
    ascii_induction htable (toNat_lt_of_isHexDigit hdigit)
  exact hc n h

/-- A number below 256 in two digits of upper case. -/
def hexByte (n : Nat) : List Char := [hexDigit (n / 16), hexDigit (n % 16)]

end Text

namespace Emitter

open Text (isHexDigit hexByte)

variable {a b : Char} {n : Nat} {s : List Char}

/-- Two hexadecimal digits, or a plus sign and one. -/
def IsPart (a b : Char) : Prop := (isHexDigit a ∨ a = '+') ∧ isHexDigit b

/-- A hash and three parts. -/
inductive IsColour : List Char → Prop
  | mk {a b c d e f : Char} (red : IsPart a b) (green : IsPart c d) (blue : IsPart e f) :
    IsColour ['#', a, b, c, d, e, f]

/-- A hash and six hexadecimal digits. -/
def IsHexColour (s : List Char) : Prop :=
  ∃ digits, s = '#' :: digits ∧ digits.length = 6 ∧ ∀ c ∈ digits, isHexDigit c

/-- A character of a colour in upper case; a plus sign counts for a zero. -/
def unsigned (c : Char) : Char := if c = '+' then '0' else c.toUpper

theorem ne_plus_of_isHexDigit (h : isHexDigit a) : a ≠ '+' := by
  rintro rfl
  exact absurd h (by decide)

/-- The number of a part, written in two digits, is the part. -/
theorem exists_channel? (h : IsPart a b) :
    ∃ n < 256, channel? a b = some n ∧ hexByte n = [unsigned a, unsigned b] := by
  obtain ⟨ha, hb⟩ := h
  obtain ⟨k, hk⟩ := Option.isSome_iff_exists.1 ((Text.isSome_hexValue? b).trans hb)
  obtain ⟨hlt, hdigit⟩ := Text.hexDigit_of_hexValue? hk
  rcases ha with ha | rfl
  · obtain ⟨m, hm⟩ := Option.isSome_iff_exists.1 ((Text.isSome_hexValue? a).trans ha)
    obtain ⟨hlt', hdigit'⟩ := Text.hexDigit_of_hexValue? hm
    refine ⟨16 * m + k, by omega, ?_, ?_⟩
    · rw [channel?, if_neg (ne_plus_of_isHexDigit ha), hm, hk]
      rfl
    · have hdiv : (16 * m + k) / 16 = m := by omega
      have hmod : (16 * m + k) % 16 = k := by omega
      rw [hexByte, hdiv, hmod, hdigit, hdigit', unsigned, unsigned,
        if_neg (ne_plus_of_isHexDigit ha), if_neg (ne_plus_of_isHexDigit hb)]
  · refine ⟨k, by omega, ?_, ?_⟩
    · rw [channel?, if_pos rfl, hk]
    · rw [hexByte, Nat.div_eq_of_lt hlt, Nat.mod_eq_of_lt hlt, hdigit, unsigned, unsigned,
        if_pos rfl, if_neg (ne_plus_of_isHexDigit hb)]
      rfl

theorem isPart_of_channel? (h : channel? a b = some n) : IsPart a b := by
  have hdigit {c : Char} {k : Nat} (hc : Text.hexValue? c = some k) : isHexDigit c := by
    rw [← Text.isSome_hexValue?, hc]
    rfl
  rw [channel?] at h
  split at h
  case isTrue ha => exact ⟨.inr ha, hdigit h⟩
  case isFalse =>
    obtain ⟨m, hm, h⟩ := Option.bind_eq_some_iff.1 h
    obtain ⟨k, hk, -⟩ := Option.bind_eq_some_iff.1 h
    exact ⟨.inl (hdigit hm), hdigit hk⟩

/-- The parts of a colour, written in two digits each, are the colour. -/
theorem exists_colour? (h : IsColour s) : ∃ r < 256, ∃ g < 256, ∃ b < 256,
    colour? s = some (r, g, b) ∧ s.map unsigned = '#' :: (hexByte r ++ hexByte g ++ hexByte b) := by
  obtain ⟨red, green, blue⟩ := h
  obtain ⟨r, hr, hred, hr'⟩ := exists_channel? red
  obtain ⟨g, hg, hgreen, hg'⟩ := exists_channel? green
  obtain ⟨b, hb, hblue, hb'⟩ := exists_channel? blue
  refine ⟨r, hr, g, hg, b, hb, ?_, ?_⟩
  · simp only [colour?, hred, hgreen, hblue]
    rfl
  · rw [hr', hg', hb']
    rfl

theorem isColour_of_colour? {parts : Nat × Nat × Nat} (h : colour? s = some parts) :
    IsColour s := by
  unfold colour? at h
  split at h
  case h_1 =>
    obtain ⟨r, hr, h⟩ := Option.bind_eq_some_iff.1 h
    obtain ⟨g, hg, h⟩ := Option.bind_eq_some_iff.1 h
    obtain ⟨b, hb, -⟩ := Option.bind_eq_some_iff.1 h
    exact ⟨isPart_of_channel? hr, isPart_of_channel? hg, isPart_of_channel? hb⟩
  case h_2 => cases h

/-- The colours without plus signs are those of hexadecimal digits. -/
theorem isHexColour_iff : IsHexColour s ↔ IsColour s ∧ '+' ∉ s := by
  constructor
  · rintro ⟨digits, rfl, hlength, hdigits⟩
    constructor
    · match digits, hlength with
      | [a, b, c, d, e, f], _ =>
        simp only [List.forall_mem_cons] at hdigits
        obtain ⟨ha, hb, hc, hd, he, hf, -⟩ := hdigits
        exact ⟨⟨.inl ha, hb⟩, ⟨.inl hc, hd⟩, ⟨.inl he, hf⟩⟩
    · rw [List.mem_cons, not_or]
      exact ⟨by decide, fun hmem ↦ ne_plus_of_isHexDigit (hdigits '+' hmem) rfl⟩
  · rintro ⟨@⟨a, b, c, d, e, f, red, green, blue⟩, hplus⟩
    have hdigit (x : Char) (hx : isHexDigit x ∨ x = '+')
        (hmem : x ∈ ['#', a, b, c, d, e, f]) : isHexDigit x := by
      rcases hx with hx | rfl
      · exact hx
      · exact absurd hmem hplus
    refine ⟨[a, b, c, d, e, f], rfl, rfl, ?_⟩
    simp only [List.forall_mem_cons]
    exact ⟨hdigit a red.1 (by simp), red.2, hdigit c green.1 (by simp), green.2,
      hdigit e blue.1 (by simp), blue.2, nofun⟩

end Emitter

/-- A block of a colour is the list of its parts, which spell the colour, if it is a hash and three
parts, and otherwise it is refused.  The colours of six hexadecimal digits are those among them
without a plus sign. -/
theorem Compiler.block_colour {o : Options} {b : Block} (hkind : b.head.kind = "colour_picker")
    (henabled : b.head.enabled) (alone plugged : Bool) :
    (Emitter.IsColour (b.head.field "COLOUR").toList →
      ∃ red < 256, ∃ green < 256, ∃ blue < 256,
        (b.head.field "COLOUR").toList.map Emitter.unsigned =
          '#' :: (Text.hexByte red ++ Text.hexByte green ++ Text.hexByte blue) ∧
        ({ options := o } : Compiler).block b alone plugged =
          ({ options := o } : Compiler).finish b alone plugged
              ("[" ++ toString red ++ " " ++ toString green ++ " " ++ toString blue ++ "]") >>=
            fun code ↦ pure (.value code .atomic)) ∧
      (¬ Emitter.IsColour (b.head.field "COLOUR").toList →
        ({ options := o } : Compiler).block b alone plugged =
          throw (.invalidColour (b.head.field "COLOUR"))) ∧
      (Emitter.IsHexColour (b.head.field "COLOUR").toList ↔
        Emitter.IsColour (b.head.field "COLOUR").toList ∧
          '+' ∉ (b.head.field "COLOUR").toList) := by
  have hemitter : Emitter.standard? b.head.kind = some (.value Emitter.colour) := by
    rw [hkind]
    rfl
  have hblock := ({ options := o } : Compiler).block_written henabled hemitter alone plugged
  refine ⟨fun hcolour ↦ ?_, fun hcolour ↦ ?_, Emitter.isHexColour_iff⟩
  · obtain ⟨red, hred, green, hgreen, blue, hblue, hparts, hspelled⟩ :=
      Emitter.exists_colour? hcolour
    refine ⟨red, hred, green, hgreen, blue, hblue, hspelled, hblock.trans ?_⟩
    have hfield : Emitter.colour? ((({ options := o } : Compiler).view (.value Emitter.colour)
        b).field "COLOUR").toList = some (red, green, blue) := hparts
    rw [Emitter.colour, hfield]
    rfl
  · have hparts : Emitter.colour? ((({ options := o } : Compiler).view (.value Emitter.colour)
        b).field "COLOUR").toList = none := by
      rw [Option.eq_none_iff_forall_ne_some]
      intro parts hparts
      exact hcolour (Emitter.isColour_of_colour? hparts)
    rw [hblock, Emitter.colour, hparts]
    rfl

/-- A block of a colour, by itself. -/
def Block.picking (colour : String) : Block :=
  (ofKind "colour_picker" "c").withField "COLOUR" (.text colour)

theorem Compiler.block_colour_signed :
    ("colour_picker" = "colour_picker" ∧ (Block.picking "#+F80a0").head.enabled) ∧
    ∃ red < 256, ∃ green < 256, ∃ blue < 256,
      "#+F80a0".toList.map Emitter.unsigned =
        '#' :: (Text.hexByte red ++ Text.hexByte green ++ Text.hexByte blue) ∧
      ({} : Compiler).block (.picking "#+F80a0") false true =
        ({} : Compiler).finish (.picking "#+F80a0") false true
            ("[" ++ toString red ++ " " ++ toString green ++ " " ++ toString blue ++ "]") >>=
          fun code ↦ pure (.value code .atomic) := by
  refine ⟨⟨rfl, rfl⟩, ?_⟩
  exact (block_colour (b := .picking "#+F80a0") rfl rfl false true).1
    ⟨⟨.inr rfl, by decide⟩, ⟨.inl (by decide), by decide⟩, ⟨.inl (by decide), by decide⟩⟩

/-- A plus sign is taken for a digit. -/
theorem Compiler.takes_plus :
    ({} : Compiler).block (.picking "#+F80a0") false true = pure (.value "[15 128 160]" .atomic) ∧
      ¬ Emitter.IsHexColour "#+F80a0".toList := by
  constructor
  · rw [block_value (f := Emitter.colour) _ rfl rfl rfl]
    rfl
  · rw [Emitter.isHexColour_iff]
    exact fun h ↦ h.2 (by decide)

end Turtle
