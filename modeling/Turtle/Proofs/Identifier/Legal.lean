import Turtle.Identifier.Names

/-!
# Identifiers are legal

Whatever a name is made of, the word that `identifier` makes of it is an identifier of Logo, and so
is every candidate that is derived from it by a number.  Such words hold ASCII only, where lower
case is taken character by character.
-/

namespace Turtle

namespace Text

/-- Reading the digits of a number gives the number. -/
theorem natOfDigits_toDigits (n : Nat) : natOfDigits (Nat.toDigits 10 n) = n := by
  induction n using Nat.strongRecOn with
  | _ n ih =>
    have hdigit : ∀ d, d < 10 → digitValue d.digitChar = d := fun d hd ↦ by
      simp [digitValue, Nat.toNat_digitChar_of_lt_ten hd]
    rw [Nat.toDigits_eq_if (by decide)]
    split
    case isTrue h => simp [natOfDigits, hdigit n h]
    case isFalse h =>
      have hq := ih (n / 10) (by omega)
      unfold natOfDigits at hq ⊢
      rw [List.foldl_append, hq]
      simp only [List.foldl_cons, List.foldl_nil]
      rw [hdigit _ (Nat.mod_lt n (by decide))]
      exact Nat.div_add_mod n 10

/-- Different numbers have different digits. -/
theorem toDigits_injective {m n : Nat} (h : Nat.toDigits 10 m = Nat.toDigits 10 n) : m = n := by
  rw [← natOfDigits_toDigits m, h, natOfDigits_toDigits]

end Text

namespace Identifier

/-- Whether a word is an identifier: it has characters, all of them legal, and the first is no
digit. -/
def isLegal : List Char → Bool
  | [] => false
  | c :: s => !c.isDigit && (c :: s).all isLegalChar

theorem isLegalChar_of_isDigit {c : Char} (h : c.isDigit) : isLegalChar c := by
  simp [isLegalChar, Char.isAlphanum, h]

/-- A legal character is one of ASCII. -/
theorem toNat_lt_of_isLegalChar {c : Char} (h : isLegalChar c) : c.toNat < 128 := by
  have hletter : c.isAlpha = (decide ('A'.val ≤ c.val ∧ c.val ≤ 'Z'.val) ||
      (decide ('a'.val ≤ c.val) && decide (c.val ≤ 'z'.val))) := rfl
  simp only [isLegalChar, Char.isAlphanum, hletter, Char.isDigit, Bool.or_eq_true,
    Bool.and_eq_true, decide_eq_true_eq, beq_iff_eq, ge_iff_le, UInt32.le_iff_toNat_le] at h
  change c.val.toNat < 128
  rcases h with ((⟨_, h⟩ | ⟨_, h⟩) | ⟨_, h⟩) | rfl
  · exact Nat.lt_of_le_of_lt h (by decide)
  · exact Nat.lt_of_le_of_lt h (by decide)
  · exact Nat.lt_of_le_of_lt h (by decide)
  · decide

theorem isLegalChar_hexDigit : ∀ n, n < 16 → isLegalChar (Text.hexDigit n) := by decide

theorem isLegalChar_of_mem_spellByte {b : UInt8} {c : Char} (h : c ∈ spellByte b) :
    isLegalChar c := by
  have hb : b.toNat < 256 := b.toNat_lt
  simp only [spellByte, List.mem_cons, List.not_mem_nil, or_false] at h
  rcases h with rfl | rfl | rfl
  · decide
  · exact isLegalChar_hexDigit _ (by omega)
  · exact isLegalChar_hexDigit _ (by omega)

theorem isLegalChar_of_mem_spell {c d : Char} (h : d ∈ spell c) : isLegalChar d := by
  unfold spell at h
  split at h
  case isTrue hc =>
    rw [List.mem_singleton] at h
    exact h ▸ hc
  case isFalse =>
    split at h
    · rw [List.mem_singleton] at h
      exact h ▸ rfl
    · obtain ⟨b, _, hd⟩ := List.mem_flatMap.1 h
      exact isLegalChar_of_mem_spellByte hd

theorem spell_ne_nil (c : Char) : spell c ≠ [] := by
  unfold spell
  split
  · simp
  · split
    · simp
    · obtain ⟨b, bs, h⟩ := List.exists_cons_of_ne_nil (String.utf8EncodeChar_ne_nil (c := c))
      simp [h, spellByte]

/-- Putting letters in front of a digit makes an identifier of any legal characters. -/
theorem isLegal_guardDigit {s : List Char} (hs : s ≠ []) (h : ∀ c ∈ s, isLegalChar c) :
    isLegal (guardDigit s) := by
  obtain ⟨c, s, rfl⟩ := List.exists_cons_of_ne_nil hs
  have hall : (c :: s).all isLegalChar := List.all_eq_true.2 h
  simp only [guardDigit]
  split
  · simpa [isLegal, isLegalChar] using hall
  case isFalse hc => simp only [isLegal, hc, hall, Bool.not_false, Bool.and_self]

theorem isLegal_ofName (name : List Char) : isLegal (ofName name) := by
  unfold ofName
  split
  · decide
  case isFalse h =>
    refine isLegal_guardDigit ?_ fun c hc ↦ ?_
    · obtain ⟨c, s, rfl⟩ := List.exists_cons_of_ne_nil (by simpa using h)
      simp [spell_ne_nil c]
    · obtain ⟨d, _, hd⟩ := List.mem_flatMap.1 hc
      exact isLegalChar_of_mem_spell hd

theorem isLegalChar_of_mem {s : List Char} (h : isLegal s) {c : Char} (hc : c ∈ s) :
    isLegalChar c := by
  cases s with
  | nil => simp at hc
  | cons d s =>
    simp only [isLegal, Bool.and_eq_true] at h
    exact List.all_eq_true.1 h.2 c hc

/-- An identifier may be continued by legal characters. -/
theorem isLegal_append {s t : List Char} (hs : isLegal s) (ht : ∀ c ∈ t, isLegalChar c) :
    isLegal (s ++ t) := by
  cases s with
  | nil => simp [isLegal] at hs
  | cons c s =>
    simp only [isLegal, Bool.and_eq_true] at hs
    simp only [List.cons_append, isLegal, Bool.and_eq_true]
    rw [← List.cons_append, List.all_append, Bool.and_eq_true]
    exact ⟨hs.1, hs.2, List.all_eq_true.2 ht⟩

end Identifier

/-- Whether a text is an identifier. -/
def isIdentifier (s : String) : Bool := Identifier.isLegal s.toList

theorem isIdentifier_identifier (name : String) : isIdentifier (identifier name) := by
  simp only [isIdentifier, identifier, String.toList_ofList]
  exact Identifier.isLegal_ofName name.toList

/-! ## Lower case of ASCII -/

namespace Text

theorem lowerFrom_of_ascii {s : List Char} (h : ∀ c ∈ s, c.toNat < 128) (before : List Char) :
    lowerFrom before s = s.map Char.toLower := by
  induction s generalizing before with
  | nil => rfl
  | cons c s ih =>
    have hc : c.toNat < 128 := h c List.mem_cons_self
    have hi : c ≠ 'İ' := by rintro rfl; exact absurd hc (by decide)
    have hσ : c ≠ 'Σ' := by rintro rfl; exact absurd hc (by decide)
    simp only [lowerFrom, hi, hσ, if_false, lowerChar, hc, if_true, List.map_cons]
    rw [ih fun d hd ↦ h d (List.mem_cons_of_mem c hd)]

/-- Lower case does not touch digits. -/
theorem map_toLower_toDigits (n : Nat) :
    (Nat.toDigits 10 n).map Char.toLower = Nat.toDigits 10 n := by
  conv => rhs; rw [← List.map_id (Nat.toDigits 10 n)]
  refine List.map_congr_left fun c hc ↦ ?_
  have hd := Nat.isDigit_of_mem_toDigits (by decide) (by decide) hc
  simp only [Char.isDigit, Bool.and_eq_true, decide_eq_true_eq, UInt32.le_iff_toNat_le] at hd
  have hA : ¬ 65 ≤ c.val := by
    rw [UInt32.le_iff_toNat_le]
    exact Nat.not_le.2 (Nat.lt_of_le_of_lt hd.2 (by decide))
  exact dif_neg fun h ↦ hA h.1

end Text

/-- The lower case of an identifier is taken character by character. -/
theorem toList_lower {s : String} (h : isIdentifier s) :
    (lower s).toList = s.toList.map Char.toLower := by
  simp only [lower, String.toList_ofList, Text.lower]
  exact Text.lowerFrom_of_ascii
    (fun c hc ↦ Identifier.toNat_lt_of_isLegalChar (Identifier.isLegalChar_of_mem h hc)) []

/-! ## Candidates -/

namespace Names

theorem toList_candidate_succ (base : String) (i : Nat) :
    (candidate base (i + 1)).toList = base.toList ++ Nat.toDigits 10 (i + 2) := by
  simp [candidate]

theorem isIdentifier_candidate {base : String} (h : isIdentifier base) (i : Nat) :
    isIdentifier (candidate base i) := by
  cases i with
  | zero => exact h
  | succ i =>
    rw [isIdentifier, toList_candidate_succ]
    exact Identifier.isLegal_append h fun c hc ↦ Identifier.isLegalChar_of_isDigit
      (Nat.isDigit_of_mem_toDigits (by decide) (by decide) hc)

theorem toList_lower_candidate_succ {base : String} (h : isIdentifier base) (i : Nat) :
    (lower (candidate base (i + 1))).toList =
      base.toList.map Char.toLower ++ Nat.toDigits 10 (i + 2) := by
  rw [toList_lower (isIdentifier_candidate h _), toList_candidate_succ, List.map_append,
    Text.map_toLower_toDigits]

/-- Logo tells the candidates for a base apart. -/
theorem lower_candidate_injective {base : String} (h : isIdentifier base) {i j : Nat}
    (e : lower (candidate base i) = lower (candidate base j)) : i = j := by
  have e := congrArg String.toList e
  cases i with
  | zero =>
    cases j with
    | zero => rfl
    | succ j =>
      rw [toList_lower_candidate_succ h, candidate, toList_lower h] at e
      simp at e
  | succ i =>
    cases j with
    | zero =>
      rw [toList_lower_candidate_succ h, candidate, toList_lower h] at e
      simp at e
    | succ j =>
      rw [toList_lower_candidate_succ h, toList_lower_candidate_succ h,
        List.append_cancel_left_eq] at e
      have := Text.toDigits_injective e
      omega

end Names

end Turtle
