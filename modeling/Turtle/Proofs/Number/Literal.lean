import Turtle.Number.Reader
import Turtle.Proofs.Text.Trim

/-!
# Literals and numbers

A literal is made of decimal digits, and those may be of any script.  Numbers are read from the
characters of ASCII only.  So a literal is read as a number if its digits are those of ASCII, and
otherwise it is taken for a number and is none.
-/

namespace Turtle

open Text (isBlank isDecimal trim IsAscii takeWhile_run dropWhile_run toNat_lt_of_isDigit)

namespace Number

variable {s t : List Char}

/-! ## The form of literals -/

/-- Some decimal digits, of any script. -/
structure IsDigits (s : List Char) : Prop where
  ne_nil : s ≠ []
  decimal : ∀ c ∈ s, isDecimal c

/-- Digits, and perhaps a point and more digits. -/
inductive Unsigned : List Char → Prop
  | whole {digits : List Char} (h : IsDigits digits) : Unsigned digits
  | fraction {digits places : List Char} (h : IsDigits digits) (hplaces : IsDigits places) :
    Unsigned (digits ++ '.' :: places)

/-- Digits, and perhaps a point and more digits, with or without a minus sign. -/
inductive Signed : List Char → Prop
  | positive {s : List Char} (h : Unsigned s) : Signed s
  | negative {s : List Char} (h : Unsigned s) : Signed ('-' :: s)

/-- The form of a literal: any blanks may stand around it. -/
inductive Spaced : List Char → Prop
  | mk {before t after : List Char} (hbefore : ∀ c ∈ before, isBlank c) (h : Signed t)
    (hafter : ∀ c ∈ after, isBlank c) : Spaced (before ++ t ++ after)

theorem Unsigned.exists_head (h : Unsigned s) : ∃ c ∈ s.head?, isDecimal c := by
  rcases h with h | ⟨h, -⟩ <;> obtain ⟨c, digits, rfl⟩ := List.exists_cons_of_ne_nil h.ne_nil
  · exact ⟨c, rfl, h.decimal c List.mem_cons_self⟩
  · exact ⟨c, rfl, h.decimal c List.mem_cons_self⟩

theorem Unsigned.exists_getLast (h : Unsigned s) : ∃ c ∈ s.getLast?, isDecimal c := by
  have hlast {digits : List Char} (h : IsDigits digits) : ∃ c ∈ digits.getLast?, isDecimal c := by
    obtain ⟨c, hc⟩ := Option.isSome_iff_exists.1 (List.getLast?_isSome.2 h.ne_nil)
    exact ⟨c, hc, h.decimal c (List.mem_of_mem_getLast? hc)⟩
  rcases h with h | ⟨-, hplaces⟩
  · exact hlast h
  · obtain ⟨c, hc, hdecimal⟩ := hlast hplaces
    refine ⟨c, ?_, hdecimal⟩
    rw [List.getLast?_append, List.getLast?_cons, Option.mem_def.1 hc]
    rfl

theorem isFraction_iff : isFraction s ↔ s = [] ∨ ∃ places, IsDigits places ∧ s = '.' :: places := by
  constructor
  · intro h
    unfold isFraction at h
    split at h
    · exact .inl rfl
    · rename_i places
      simp only [Bool.and_eq_true, Bool.not_eq_true', List.isEmpty_eq_false_iff] at h
      exact .inr ⟨places, ⟨h.1, List.all_eq_true.1 h.2⟩, rfl⟩
    · cases h
  · rintro (rfl | ⟨places, hplaces, rfl⟩)
    · rfl
    · simp only [isFraction, Bool.and_eq_true, Bool.not_eq_true', List.isEmpty_eq_false_iff]
      exact ⟨hplaces.ne_nil, List.all_eq_true.2 hplaces.decimal⟩

theorem isUnsignedLiteral_iff : isUnsignedLiteral s ↔ Unsigned s := by
  simp only [isUnsignedLiteral, Bool.and_eq_true, Bool.not_eq_true', List.isEmpty_eq_false_iff,
    isFraction_iff]
  constructor
  · rintro ⟨hne, hrest⟩
    have hwhole : IsDigits (s.takeWhile isDecimal) := ⟨hne, fun c hc ↦ List.mem_takeWhile_imp hc⟩
    rw [← List.takeWhile_append_dropWhile (p := isDecimal) (l := s)]
    rcases hrest with hrest | ⟨places, hplaces, hrest⟩
    · rw [hrest, List.append_nil]
      exact .whole hwhole
    · rw [hrest]
      exact .fraction hwhole hplaces
  · intro h
    cases h with
    | whole h =>
      rw [List.takeWhile_eq_self_iff.2 h.decimal, List.dropWhile_eq_nil_iff.2 h.decimal]
      exact ⟨h.ne_nil, .inl rfl⟩
    | @fraction digits places h hplaces =>
      have hpoint : ∀ c ∈ ('.' :: places).head?, isDecimal c = false := by
        rintro c ⟨rfl⟩
        decide
      rw [takeWhile_run h.decimal hpoint, dropWhile_run h.decimal hpoint]
      exact ⟨h.ne_nil, .inr ⟨places, hplaces, rfl⟩⟩

/-- A sign cannot be taken for a digit, so a literal begins with one or has none. -/
theorem isLiteral_iff_signed {s : String} : isLiteral s ↔ Signed (trim s.toList) := by
  unfold isLiteral
  split
  case h_1 t ht =>
    rw [ht, isUnsignedLiteral_iff]
    constructor
    · exact .negative
    · rintro (h | h)
      · obtain ⟨c, hc, hdecimal⟩ := h.exists_head
        cases hc
        exact absurd hdecimal (by decide)
      · exact h
  case h_2 ht =>
    rw [isUnsignedLiteral_iff]
    constructor
    · exact .positive
    · intro h
      generalize htrim : trim s.toList = t at h ht
      rcases h with h | @⟨u, h⟩
      · exact h
      · exact absurd rfl (ht u)

theorem Signed.exists_head (h : Signed s) : ∃ c ∈ s.head?, isBlank c = false := by
  rcases h with h | h
  · obtain ⟨c, hc, hdecimal⟩ := h.exists_head
    exact ⟨c, hc, Text.isBlank_of_isDecimal hdecimal⟩
  · exact ⟨'-', rfl, by decide⟩

theorem Signed.exists_getLast (h : Signed s) : ∃ c ∈ s.getLast?, isBlank c = false := by
  rcases h with h | h <;> obtain ⟨c, hc, hdecimal⟩ := h.exists_getLast
  · exact ⟨c, hc, Text.isBlank_of_isDecimal hdecimal⟩
  · refine ⟨c, ?_, Text.isBlank_of_isDecimal hdecimal⟩
    rw [List.getLast?_cons, Option.mem_def.1 hc]
    rfl

/-- What is taken for a literal has its form. -/
theorem isLiteral_iff {s : String} : isLiteral s ↔ Spaced s.toList := by
  rw [isLiteral_iff_signed]
  constructor
  · intro h
    obtain ⟨before, after, hbefore, hafter, heq⟩ := Text.exists_trim s.toList
    rw [heq]
    exact .mk hbefore h hafter
  · intro h
    generalize s.toList = u at h
    obtain ⟨hbefore, h, hafter⟩ := h
    rwa [Text.trim_append hbefore hafter h.exists_head h.exists_getLast]

end Number

/-! ## Numbers are read from ASCII -/

namespace Binary64

variable {s : List Char} {x : Binary64}

theorem isAscii_takeWhile (s : List Char) : IsAscii (s.takeWhile Char.isDigit) := fun _ hc ↦
  toNat_lt_of_isDigit (List.mem_takeWhile_imp hc)

theorem isAscii_of_splitSign (h : IsAscii (Text.splitSign s).2) : IsAscii s := by
  unfold Text.splitSign at h
  split at h
  · exact List.forall_mem_cons.2 ⟨by decide, h⟩
  · exact List.forall_mem_cons.2 ⟨by decide, h⟩
  · exact h

theorem isAscii_of_readExponent? {exponent : Int} (h : readExponent? s = some exponent) :
    IsAscii s := by
  cases s with
  | nil => exact List.forall_mem_nil _
  | cons c s =>
    rw [readExponent?] at h
    split at h
    case isTrue hc =>
      have hletter : c.toNat < 128 := by
        simp only [Bool.or_eq_true, beq_iff_eq] at hc
        rcases hc with rfl | rfl <;> decide
      refine List.forall_mem_cons.2 ⟨hletter, isAscii_of_splitSign ?_⟩
      simp only at h
      split at h
      · cases h
      · rename_i hdigits
        simp only [Bool.or_eq_true, Bool.not_eq_true', not_or, Bool.not_eq_false] at hdigits
        exact fun d hd ↦ toNat_lt_of_isDigit (List.all_eq_true.1 hdigits.2 d hd)
    case isFalse => cases h

theorem isAscii_of_readUnsigned? {negative : Bool} (h : readUnsigned? negative s = some x) :
    IsAscii s := by
  rw [← List.takeWhile_append_dropWhile (p := Char.isDigit) (l := s)]
  refine List.forall_mem_append.2 ⟨isAscii_takeWhile s, ?_⟩
  unfold readUnsigned? at h
  generalize s.dropWhile Char.isDigit = rest at h
  split at h
  rename_i fraction exponent heq
  have hexponent : IsAscii exponent := by
    simp only at h
    split at h
    · cases h
    · obtain ⟨e, he, -⟩ := Option.map_eq_some_iff.1 h
      exact isAscii_of_readExponent? he
  split at heq
  · rename_i t
    cases heq
    refine List.forall_mem_cons.2 ⟨by decide, ?_⟩
    rw [← List.takeWhile_append_dropWhile (p := Char.isDigit) (l := t)]
    exact List.forall_mem_append.2 ⟨isAscii_takeWhile t, hexponent⟩
  · cases heq
    exact hexponent

/-- Only a character of ASCII has a lower case in ASCII here. -/
theorem isAscii_of_map_toLower (h : IsAscii (s.map Char.toLower)) : IsAscii s := by
  intro c hc
  have hlower := h c.toLower (List.mem_map_of_mem hc)
  unfold Char.toLower at hlower
  split at hlower
  · rename_i hupper
    exact Nat.lt_of_le_of_lt (UInt32.le_iff_toNat_le.1 hupper.2) (by decide)
  · exact hlower

theorem isAscii_of_read? (h : read? s = some x) : IsAscii s := by
  have hname {name : String} (hname : String.ofList ((Text.splitSign s).2.map Char.toLower) = name)
      (hascii : IsAscii name.toList) : IsAscii s := by
    refine isAscii_of_splitSign (isAscii_of_map_toLower ?_)
    rwa [← hname, String.toList_ofList] at hascii
  rw [read?] at h
  simp only [beq_iff_eq, Bool.or_eq_true] at h
  split at h
  · rename_i hnan
    exact hname hnan (by decide)
  · split at h
    · rename_i hinf
      rcases hinf with hinf | hinf
      · exact hname hinf (by decide)
      · exact hname hinf (by decide)
    · exact isAscii_of_splitSign (isAscii_of_readUnsigned? h)

/-! ## Literals are numbers -/

theorem ofDecimal_ne_nan (negative : Bool) (digits : Nat) (exponent : Int) :
    ofDecimal negative digits exponent ≠ .nan := by
  have hratio (num den : Nat) : ofRatio negative num den ≠ .nan := by
    simp only [ofRatio, round]
    split <;> nofun
  unfold ofDecimal
  split
  · nofun
  · split
    · split
      · nofun
      · exact hratio _ _
    · simp only
      split
      · nofun
      · exact hratio _ _

/-! ## What is not a number -/

/-- The text is `nan` in letters of either case, with or without a sign. -/
def NamesNan (s : List Char) : Prop := (Text.splitSign s).2.map Char.toLower = ['n', 'a', 'n']

instance (s : List Char) : Decidable (NamesNan s) :=
  inferInstanceAs (Decidable ((Text.splitSign s).2.map Char.toLower = ['n', 'a', 'n']))

theorem readUnsigned?_ne_nan (negative : Bool) (s : List Char) :
    readUnsigned? negative s ≠ some .nan := by
  have hend (whole fraction rest : List Char) :
      (if whole.isEmpty && fraction.isEmpty then none
        else (readExponent? rest).map fun exponent ↦
          ofDecimal negative (Text.natOfDigits (whole ++ fraction)) (exponent - fraction.length)) ≠
        some .nan := by
    split
    · exact nofun
    · intro h
      obtain ⟨exponent, -, hnan⟩ := Option.map_eq_some_iff.1 h
      exact ofDecimal_ne_nan _ _ _ hnan
  exact hend _ _ _

/-- Only by its name a value is read that is not a number. -/
theorem read?_eq_nan_iff : read? s = some .nan ↔ NamesNan s := by
  have hname : (String.ofList ((Text.splitSign s).2.map Char.toLower) == "nan") = true ↔
      NamesNan s := by
    rw [beq_iff_eq, ← String.toList_inj, String.toList_ofList]
    exact Iff.rfl
  rw [read?]
  simp only
  split
  case isTrue h => exact iff_of_true rfl (hname.1 h)
  case isFalse h =>
    refine iff_of_false ?_ (mt hname.2 h)
    split
    · exact nofun
    · exact readUnsigned?_ne_nan _ _

end Binary64

namespace Number

variable {s : List Char} {x : Binary64}

/-- The decimal digits of a text are those of ASCII. -/
def HasPlainDigits (s : List Char) : Prop := ∀ c ∈ s, isDecimal c → c.isDigit

instance (s : List Char) : Decidable (HasPlainDigits s) :=
  List.decidableBAll (fun c : Char ↦ isDecimal c → c.isDigit) s

theorem IsDigits.isDigit (h : IsDigits s) (hplain : HasPlainDigits s) : ∀ c ∈ s, c.isDigit :=
  fun c hc ↦ hplain c hc (h.decimal c hc)

theorem readUnsigned?_whole (hdigits : ∀ c ∈ s, c.isDigit) (hne : s ≠ []) (negative : Bool) :
    Binary64.readUnsigned? negative s =
      some (Binary64.ofDecimal negative (Text.natOfDigits s) 0) := by
  rw [Binary64.readUnsigned?, List.takeWhile_eq_self_iff.2 hdigits,
    List.dropWhile_eq_nil_iff.2 hdigits]
  simp [hne, Binary64.readExponent?]

theorem readUnsigned?_fraction (hdigits : ∀ c ∈ s, c.isDigit) (hne : s ≠ []) {places : List Char}
    (hplaces : ∀ c ∈ places, c.isDigit) (negative : Bool) :
    Binary64.readUnsigned? negative (s ++ '.' :: places) =
      some (Binary64.ofDecimal negative (Text.natOfDigits (s ++ places)) (-places.length)) := by
  have hpoint : ∀ c ∈ ('.' :: places).head?, c.isDigit = false := by
    rintro c ⟨rfl⟩
    decide
  have hwhole := List.takeWhile_eq_self_iff.2 hplaces
  have hrest := List.dropWhile_eq_nil_iff.2 hplaces
  rw [Binary64.readUnsigned?, takeWhile_run hdigits hpoint, dropWhile_run hdigits hpoint]
  simp [hne, hwhole, hrest, Binary64.readExponent?]

theorem exists_readUnsigned? (h : Unsigned s) (hplain : HasPlainDigits s) (negative : Bool) :
    ∃ x, Binary64.readUnsigned? negative s = some x ∧ x ≠ .nan := by
  cases h with
  | whole h =>
    exact ⟨_, readUnsigned?_whole (h.isDigit hplain) h.ne_nil negative,
      Binary64.ofDecimal_ne_nan _ _ _⟩
  | @fraction digits places h hplaces =>
    obtain ⟨hplain, hplain'⟩ := List.forall_mem_append.1 hplain
    have hdigits := h.isDigit hplain
    have hplaces' := hplaces.isDigit (List.forall_mem_cons.1 hplain').2
    exact ⟨_, readUnsigned?_fraction hdigits h.ne_nil hplaces' negative,
      Binary64.ofDecimal_ne_nan _ _ _⟩

/-- Neither a name of a value nor a sign begins with a digit. -/
theorem read?_of_head {c : Char} (hc : c ∈ s.head?) (hdigit : c.isDigit) (sign : List Char)
    (hsign : sign = [] ∨ sign = ['-']) :
    Binary64.read? (sign ++ s) = Binary64.readUnsigned? (sign == ['-']) s := by
  obtain ⟨s, rfl⟩ := List.head?_eq_some_iff.1 (Option.mem_def.1 hc)
  have htable : ∀ n < 128, (Char.ofNat n).isDigit → Char.ofNat n ≠ '-' ∧ Char.ofNat n ≠ '+' ∧
      (Char.ofNat n).toLower ≠ 'n' ∧ (Char.ofNat n).toLower ≠ 'i' := by
    decide
  have hchar : c.isDigit → c ≠ '-' ∧ c ≠ '+' ∧ c.toLower ≠ 'n' ∧ c.toLower ≠ 'i' :=
    Text.ascii_induction htable (toNat_lt_of_isDigit hdigit)
  obtain ⟨hminus, hplus, hn, hi⟩ := hchar hdigit
  have hsplit : Text.splitSign (sign ++ c :: s) = (sign == ['-'], c :: s) := by
    rcases hsign with rfl | rfl
    · unfold Text.splitSign
      split
      · rename_i heq
        cases heq
        exact absurd rfl hminus
      · rename_i heq
        cases heq
        exact absurd rfl hplus
      · rfl
    · rfl
  have hname {name : String} (hname : name.toList.head? ≠ some c.toLower) :
      (String.ofList ((c :: s).map Char.toLower) == name) = false := by
    rw [beq_eq_false_iff_ne]
    rintro rfl
    rw [String.toList_ofList] at hname
    exact hname rfl
  rw [Binary64.read?, hsplit]
  simp only
  rw [hname (by simpa using Ne.symm hn), hname (by simpa using Ne.symm hi),
    hname (by simpa using Ne.symm hi)]
  rfl

theorem exists_read? (h : Signed s) (hplain : HasPlainDigits s) :
    ∃ x, Binary64.read? s = some x ∧ x ≠ .nan := by
  have hunsigned {t sign : List Char} (hsign : sign = [] ∨ sign = ['-']) (h : Unsigned t)
      (hplain : HasPlainDigits t) : ∃ x, Binary64.read? (sign ++ t) = some x ∧ x ≠ .nan := by
    obtain ⟨c, hc, hdecimal⟩ := h.exists_head
    rw [read?_of_head hc (hplain c (List.mem_of_mem_head? hc) hdecimal) sign hsign]
    exact exists_readUnsigned? h hplain _
  cases h with
  | positive h => exact hunsigned (.inl rfl) h hplain
  | negative h => exact hunsigned (.inr rfl) h (List.forall_mem_cons.1 hplain).2

/-- A literal is read as a number if and only if all of its digits are those of ASCII. -/
theorem isSome_read?_iff (h : Signed s) : (Binary64.read? s).isSome ↔ HasPlainDigits s := by
  constructor
  · intro hsome c hc hdecimal
    obtain ⟨x, hx⟩ := Option.isSome_iff_exists.1 hsome
    exact Text.isDigit_of_isDecimal hdecimal (Binary64.isAscii_of_read? hx c hc)
  · intro hplain
    obtain ⟨x, hx, -⟩ := exists_read? h hplain
    rw [hx]
    rfl

/-- There are no digits among the blanks around a text. -/
theorem hasPlainDigits_trim : HasPlainDigits (trim s) ↔ HasPlainDigits s := by
  obtain ⟨before, after, hbefore, hafter, heq⟩ := Text.exists_trim s
  have hblank {t : List Char} (ht : ∀ c ∈ t, isBlank c) : HasPlainDigits t := by
    intro c hc hdecimal
    have := Text.isBlank_of_isDecimal hdecimal
    rw [ht c hc] at this
    cases this
  constructor
  · intro h
    rw [heq]
    exact List.forall_mem_append.2 ⟨List.forall_mem_append.2 ⟨hblank hbefore, h⟩, hblank hafter⟩
  · intro h
    rw [heq] at h
    exact (List.forall_mem_append.1 (List.forall_mem_append.1 h).1).2

theorem read_eq {s : String} (h : isLiteral s) :
    read s = (Binary64.read? (trim s.toList)).getD .nan := by
  obtain ⟨c, hc, -⟩ := (isLiteral_iff_signed.1 h).exists_head
  rw [read]
  split
  · rename_i heq
    rw [heq] at hc
    cases hc
  · rfl

theorem read_eq_nan_iff {s : String} (h : isLiteral s) :
    read s = .nan ↔ ¬ HasPlainDigits s.toList := by
  have hsigned := isLiteral_iff_signed.1 h
  rw [read_eq h, ← hasPlainDigits_trim]
  constructor
  · intro hnan hplain
    obtain ⟨x, hx, hne⟩ := exists_read? hsigned hplain
    rw [hx] at hnan
    exact hne hnan
  · intro hplain
    rw [Option.not_isSome_iff_eq_none.1 (mt (isSome_read?_iff hsigned).1 hplain)]
    rfl

end Number

end Turtle
