import Turtle.Proofs.Logo.Reading

/-!
# The tokens of what is written

The text of an expression is cut into the tokens of the expression, wherever a space, a closing
parenthesis or nothing comes after it.  With the machine that reads those, every expression is read
back up to re-association.
-/

namespace Turtle.Logo

open Identifier (isLegal isLegalChar)

/-- The tokens of a text that begins in a fresh place or not. -/
def lex (fresh : Bool) (s : List Char) : Option (List Token) := tokens? fresh (pieces s)

/-- Where a word ends: before a space, before a closing parenthesis and at the end of the text. -/
def Ends (rest : List Char) : Prop := ∀ c ∈ rest.head?, c = ' ' ∨ c = ')'

theorem ends_nil : Ends [] := nofun

theorem ends_space (s : List Char) : Ends (' ' :: s) := fun _ h ↦ .inl (Option.some.inj h).symm

theorem ends_closing (s : List Char) : Ends (')' :: s) := fun _ h ↦ .inr (Option.some.inj h).symm

/-! ## Pieces -/

/-- A character that belongs to no other is a piece by itself. -/
theorem pieces_cons {c : Char} (hc : ∀ d, joins c d = false) (s : List Char) :
    pieces (c :: s) = [c] :: pieces s := by
  have happend := List.splitBy_append (r := joins) (l := [c]) (m := s) fun x hx y _ ↦ by
    obtain rfl := Option.some.inj hx
    exact hc y
  exact happend

theorem joins_of_not_isWordChar {c : Char} (h : isWordChar c = false) (hless : c ≠ '<')
    (hgreater : c ≠ '>') (d : Char) : joins c d = false := by
  simp [joins, h, hless, hgreater]

theorem joins_of_ends (c : Char) {d : Char} (hd : d = ' ' ∨ d = ')') : joins c d = false := by
  have hspace : isWordChar ' ' = false := by decide
  have hclosing : isWordChar ')' = false := by decide
  rcases hd with rfl | rfl
  · simp [joins, hspace]
  · simp [joins, hclosing]

theorem isChain_joins {w : List Char} (h : ∀ c ∈ w, isWordChar c) :
    w.IsChain fun c d ↦ joins c d := by
  induction w with
  | nil => exact .nil
  | cons c w ih =>
    refine List.isChain_cons.2 ⟨fun d hd ↦ ?_, ih fun d hd ↦ h d (List.mem_cons_of_mem c hd)⟩
    have hd' := h d (List.mem_cons_of_mem c (List.mem_of_mem_head? hd))
    simp [joins, h c List.mem_cons_self, hd']

/-- A word is a piece. -/
theorem pieces_word {w rest : List Char} (hne : w ≠ []) (hw : ∀ c ∈ w, isWordChar c)
    (hrest : Ends rest) : pieces (w ++ rest) = w :: pieces rest := by
  have hword : w.splitBy joins = [w] := List.splitBy_of_isChain hne (isChain_joins hw)
  have happend := List.splitBy_append (r := joins) (l := w) (m := rest) fun c _ d hd ↦
    joins_of_ends c (hrest d hd)
  rw [pieces, happend, hword]
  rfl

/-- An operator before a space is a piece. -/
theorem pieces_operator (op : Operator) (s : List Char) :
    pieces (op.symbol.toList ++ ' ' :: s) = op.symbol.toList :: [' '] :: pieces s := by
  have happend := List.splitBy_append (r := joins) (l := op.symbol.toList) (m := ' ' :: s)
    fun c _ d hd ↦ joins_of_ends c (ends_space s d hd)
  have hsymbol : op.symbol.toList.splitBy joins = [op.symbol.toList] := by
    cases op <;> decide
  have hspace := pieces_cons (joins_of_not_isWordChar (by decide) (by decide) (by decide) : ∀ d,
    joins ' ' d = false) s
  rw [pieces] at hspace ⊢
  rw [happend, hsymbol, hspace]
  rfl

/-! ## Tokens -/

/-- A piece that is no space is a token in front of the others. -/
theorem tokens?_cons {fresh : Bool} {piece : List Char} {rest : List (List Char)} {t : Token}
    (hspace : piece ≠ [' '])
    (ht : (if piece = ['-'] ∧ fresh ∧ rest ≠ [] ∧ rest.head? ≠ some [' '] then some .sign
      else token? piece) = some t) :
    tokens? fresh (piece :: rest) = (tokens? (piece = ['(']) rest).map (t :: ·) := by
  rw [tokens?, if_neg hspace, Option.map_eq_bind]
  by_cases hsign : piece = ['-'] ∧ fresh ∧ rest ≠ [] ∧ rest.head? ≠ some [' ']
  · rw [if_pos hsign] at ht
    rw [if_pos hsign, ht]
    rfl
  · rw [if_neg hsign] at ht
    rw [if_neg hsign, ht]
    rfl

theorem lex_space (fresh : Bool) (s : List Char) : lex fresh (' ' :: s) = lex true s := by
  rw [lex, pieces_cons (joins_of_not_isWordChar (by decide) (by decide) (by decide)), tokens?,
    if_pos rfl]
  rfl

theorem lex_opening (fresh : Bool) (s : List Char) :
    lex fresh ('(' :: s) = (lex true s).map (.opening :: ·) := by
  rw [lex, pieces_cons (joins_of_not_isWordChar (by decide) (by decide) (by decide)),
    tokens?_cons (t := .opening) (by decide) (by simp [token?])]
  rfl

theorem lex_closing (fresh : Bool) (s : List Char) :
    lex fresh (')' :: s) = (lex false s).map (.closing :: ·) := by
  rw [lex, pieces_cons (joins_of_not_isWordChar (by decide) (by decide) (by decide)),
    tokens?_cons (t := .closing) (by decide) (by simp [token?])]
  rfl

/-- A minus sign right before anything but a space is a sign in a fresh place. -/
theorem lex_sign {c : Char} (hc : c ≠ ' ') (s : List Char) :
    lex true ('-' :: c :: s) = (lex false (c :: s)).map (.sign :: ·) := by
  have hne : pieces (c :: s) ≠ [] := List.splitBy_ne_nil.2 (List.cons_ne_nil c s)
  have hhead : (pieces (c :: s)).head? ≠ some [' '] := by
    intro h
    obtain ⟨rest, hrest⟩ := List.head?_eq_some_iff.1 h
    have hflat : (pieces (c :: s)).flatten = c :: s := List.flatten_splitBy joins (c :: s)
    rw [hrest] at hflat
    exact hc (List.cons.inj hflat).1.symm
  rw [lex, pieces_cons (joins_of_not_isWordChar (by decide) (by decide) (by decide)),
    tokens?_cons (t := .sign) (by decide) (if_pos ⟨rfl, rfl, hne, hhead⟩)]
  rfl

/-- A space stands around an operator. -/
theorem lex_operator (op : Operator) (s : List Char) :
    lex true (op.symbol.toList ++ ' ' :: s) = (lex true s).map (.operator op :: ·) := by
  have hspace : op.symbol.toList ≠ [' '] := by cases op <;> decide
  have hopening : op.symbol.toList ≠ ['('] := by cases op <;> decide
  have hclosing : op.symbol.toList ≠ [')'] := by cases op <;> decide
  have hsymbol : Operator.ofSymbol? op.symbol.toList = some op := by cases op <;> decide
  have htoken : token? op.symbol.toList = some (.operator op) := by
    rw [token?, if_neg hopening, if_neg hclosing, hsymbol]
  rw [lex, pieces_operator, tokens?_cons hspace
    ((if_neg fun h ↦ h.2.2.2 rfl).trans htoken), decide_eq_false hopening, tokens?, if_pos rfl]
  rfl

theorem ofSymbol?_word {w : List Char} (hw : ∀ c ∈ w, isWordChar c) :
    Operator.ofSymbol? w = none := by
  refine List.find?_eq_none.2 fun op _ heq ↦ ?_
  have hsymbol : op.symbol.toList.all isWordChar = false := by cases op <;> decide
  rw [eq_of_beq heq, List.all_eq_true.2 hw] at hsymbol
  cases hsymbol

theorem lex_word {fresh : Bool} {w rest : List Char} {t : Token} (hne : w ≠ [])
    (hw : ∀ c ∈ w, isWordChar c) (hrest : Ends rest) (ht : wordToken? w = some t) :
    lex fresh (w ++ rest) = (lex false rest).map (t :: ·) := by
  have hdiff : ∀ c, isWordChar c = false → w ≠ [c] := by
    rintro c hc rfl
    rw [hw c List.mem_cons_self] at hc
    cases hc
  have hopening : w ≠ ['('] := hdiff _ (by decide)
  have hclosing : w ≠ [')'] := hdiff _ (by decide)
  have hminus : w ≠ ['-'] := hdiff _ (by decide)
  have htoken : token? w = some t := by
    rw [token?, if_neg hopening, if_neg hclosing, ofSymbol?_word hw]
    exact ht
  rw [lex, pieces_word hne hw hrest, tokens?_cons (hdiff _ (by decide))
    ((if_neg fun h ↦ hminus h.1).trans htoken), decide_eq_false hopening]
  rfl

/-- What a text begins with matters only if that is a minus sign. -/
theorem lex_fresh {c : Char} (hc : c ≠ '-') (s : List Char) :
    lex false (c :: s) = lex true (c :: s) := by
  have hflat : (pieces (c :: s)).flatten = c :: s := List.flatten_splitBy joins (c :: s)
  rw [lex, lex]
  cases h : pieces (c :: s) with
  | nil => rfl
  | cons piece rest =>
    have hminus : piece ≠ ['-'] := by
      rintro rfl
      rw [h] at hflat
      exact hc (List.cons.inj hflat).1.symm
    simp [tokens?, hminus]

/-! ## Words -/

theorem isWordChar_of_isLegal {w : List Char} (h : isLegal w) : ∀ c ∈ w, isWordChar c := by
  intro c hc
  simp [isWordChar, Identifier.isLegalChar_of_mem h hc]

/-- A numeral begins with a digit and consists of digits and points. -/
theorem isNumeral_cases {w : List Char} (h : isNumeral w) :
    (∃ c s, w = c :: s ∧ c.isDigit) ∧ ∀ c ∈ w, c.isDigit ∨ c = '.' := by
  simp only [isNumeral, Bool.and_eq_true, Bool.not_eq_true', List.isEmpty_eq_false_iff] at h
  obtain ⟨hwhole, hrest⟩ := h
  constructor
  · cases w with
    | nil => exact absurd rfl hwhole
    | cons c s =>
      refine ⟨c, s, rfl, ?_⟩
      by_contra hc
      exact hwhole (List.takeWhile_cons_of_neg hc)
  · intro c hc
    rw [← List.takeWhile_append_dropWhile (p := Char.isDigit) (l := w), List.mem_append] at hc
    rcases hc with hc | hc
    · exact .inl (List.all_eq_true.1 List.all_takeWhile c hc)
    · cases hdrop : w.dropWhile Char.isDigit with
      | nil => rw [hdrop] at hc; cases hc
      | cons d t =>
        rw [hdrop] at hc hrest
        simp only [Bool.and_eq_true, beq_iff_eq] at hrest
        rcases List.mem_cons.1 hc with rfl | hc
        · exact .inr hrest.1.1
        · exact .inl (List.all_eq_true.1 hrest.2 c hc)

theorem isWordChar_of_isNumeral {w : List Char} (h : isNumeral w) : ∀ c ∈ w, isWordChar c := by
  intro c hc
  rcases (isNumeral_cases h).2 c hc with hdigit | rfl
  · simp [isWordChar, Identifier.isLegalChar_of_isDigit hdigit]
  · decide

theorem wordToken?_numeral {digits : String} (h : isNumeral digits.toList) :
    wordToken? digits.toList = some (.literal digits) := by
  obtain ⟨c, s, heq, hc⟩ := (isNumeral_cases h).1
  have hne : c ≠ ':' := by
    rintro rfl
    exact absurd hc (by decide)
  rw [heq, wordToken?, if_pos (heq ▸ h), ← heq, String.ofList_toList]
  rintro _ heq'
  exact hne (List.cons.inj heq').1

theorem wordToken?_name {name : String} (h : isLegal name.toList) :
    wordToken? (':' :: name.toList) = some (.named name) := by
  rw [wordToken?, if_pos h, String.ofList_toList]

/-- The primitives are words. -/
theorem wordToken?_primitive : ∀ f ∈ unaryPrimitives ++ binaryPrimitives,
    f.toList ≠ [] ∧ (∀ c ∈ f.toList, isWordChar c) ∧ wordToken? f.toList = some (.word f) := by
  simp only [← List.all_eq_true]
  decide

/-! ## Expressions -/

/-- A text is cut into these tokens, whatever comes after it. -/
def Writes (s : List Char) (ts : List Token) : Prop :=
  ∀ rest, Ends rest → lex true (s ++ rest) = (lex false rest).map (ts ++ ·)

theorem Writes.enclose {s : String} {ts : List Token} (h : Writes s.toList ts)
    (outer inner : Order) :
    Writes (Expr.wrap outer inner s).toList (Expr.enclose outer inner ts) := by
  unfold Expr.wrap Expr.enclose
  split
  case isFalse => exact h
  case isTrue =>
    intro rest _
    have hlist : ("(" ++ s ++ ")").toList ++ rest = '(' :: (s.toList ++ ')' :: rest) := by
      simp
    rw [hlist, lex_opening, h _ (ends_closing rest), lex_closing]
    simp [Function.comp_def]

theorem writes_word {w : List Char} {t : Token} (hne : w ≠ []) (hw : ∀ c ∈ w, isWordChar c)
    (ht : wordToken? w = some t) : Writes w [t] := fun _ hrest ↦ lex_word hne hw hrest ht

/-- A space between two texts. -/
theorem Writes.space {s s' : List Char} {ts ts' : List Token} (h : Writes s ts)
    (h' : Writes s' ts') : Writes (s ++ ' ' :: s') (ts ++ ts') := by
  intro rest hrest
  rw [List.append_assoc, List.cons_append, h _ (ends_space _), lex_space, h' rest hrest]
  simp [Function.comp_def]

theorem writes_operator (op : Operator) {s : List Char} {ts : List Token} (h : Writes s ts) :
    Writes (op.symbol.toList ++ ' ' :: s) (.operator op :: ts) := by
  intro rest hrest
  rw [List.append_assoc, List.cons_append, lex_operator, h rest hrest]
  simp [Function.comp_def]

theorem needsParens_unaryNegation {inner : Order} (h : inner ≠ .atomic) :
    needsParens .unaryNegation inner := by
  revert h
  cases inner <;> decide

/-- No operand of a minus sign begins with a minus sign or a space. -/
theorem head_operand_unaryNegation {e : Expr} (h : e.WellFormed) :
    ∃ c s, (e.operand .unaryNegation).toList = c :: s ∧ c ≠ ' ' ∧ c ≠ '-' := by
  unfold Expr.operand Expr.wrap
  split
  case isTrue => exact ⟨'(', _, by simp; rfl, by decide, by decide⟩
  case isFalse hparens =>
    cases e with
    | literal digits =>
      obtain ⟨c, s, heq, hc⟩ := (isNumeral_cases h).1
      refine ⟨c, s, heq, ?_, ?_⟩ <;> rintro rfl <;> exact absurd hc (by decide)
    | named name => exact ⟨':', name.toList, by simp [Expr.text], by decide, by decide⟩
    | operation op a b =>
      have horder : (Expr.operation op a b).order ≠ .atomic := by
        cases op <;> simp [Expr.order, Operator.order]
      exact absurd (needsParens_unaryNegation horder) hparens
    | negated _ | unary _ _ | binary _ _ _ =>
      exact absurd (needsParens_unaryNegation (by simp [Expr.order])) hparens

theorem writes_negated {e : Expr} (hwf : e.WellFormed) {ts : List Token}
    (h : Writes (e.operand .unaryNegation).toList ts) :
    Writes (Expr.negated e).text.toList (.sign :: ts) := by
  intro rest hrest
  obtain ⟨c, s, heq, hspace, hminus⟩ := head_operand_unaryNegation hwf
  have htext : (Expr.negated e).text.toList = '-' :: c :: s := by
    rw [← heq, Expr.text]
    simp [Expr.operand]
  have := h rest hrest
  rw [heq, List.cons_append] at this
  rw [htext, List.cons_append, List.cons_append, lex_sign hspace, lex_fresh hminus, this]
  simp [Function.comp_def]

/-- The text of an expression is cut into its tokens. -/
theorem writes_text {e : Expr} (h : e.WellFormed) : Writes e.text.toList e.tokens := by
  induction e with
  | literal digits =>
    obtain ⟨c, s, heq, -⟩ := (isNumeral_cases h).1
    have hne : digits.toList ≠ [] := heq ▸ List.cons_ne_nil c s
    exact writes_word hne (isWordChar_of_isNumeral h) (wordToken?_numeral h)
  | named name =>
    have htext : (Expr.named name).text.toList = ':' :: name.toList := by simp [Expr.text]
    rw [htext]
    refine writes_word (List.cons_ne_nil _ _) ?_ (wordToken?_name h)
    rintro c hc
    rcases List.mem_cons.1 hc with rfl | hc
    · decide
    · exact isWordChar_of_isLegal h c hc
  | negated e ih => exact writes_negated (e := e) h ((ih h).enclose .unaryNegation e.order)
  | operation op a b iha ihb =>
    have htext : (Expr.operation op a b).text.toList = (a.operand op.order).toList ++
        ' ' :: (op.symbol.toList ++ ' ' :: (b.operand op.order).toList) := by
      simp [Expr.text_operation]
    have hright := writes_operator op ((ihb h.2).enclose op.order b.order)
    rw [htext, Expr.tokens]
    exact ((iha h.1).enclose op.order a.order).space hright
  | unary f x ih =>
    have htext : (Expr.unary f x).text.toList = f.toList ++ ' ' :: x.text.toList := by
      simp [Expr.text]
    obtain ⟨hne, hw, ht⟩ := wordToken?_primitive f (List.mem_append_left _ h.1)
    rw [htext, Expr.tokens]
    exact (writes_word hne hw ht).space (ih h.2)
  | binary f x y ihx ihy =>
    have htext : (Expr.binary f x y).text.toList =
        f.toList ++ ' ' :: (x.text.toList ++ ' ' :: y.text.toList) := by
      simp [Expr.text]
    obtain ⟨hne, hw, ht⟩ := wordToken?_primitive f (List.mem_append_right _ h.1)
    rw [htext, Expr.tokens]
    exact (writes_word hne hw ht).space ((ihx h.2.1).space (ihy h.2.2))

/-- What is written of an expression in any place is read back, with all chains of an associative
operator leaning to the left. -/
theorem read?_operand {e : Expr} (h : e.WellFormed) (outer : Order) :
    read? (e.operand outer) = some e.leanLeft := by
  have htext : e.operand outer = e.leanLeft.operand outer := by
    rw [Expr.operand, Expr.operand, e.order_leanLeft, e.text_leanLeft]
  have hlex := ((writes_text h.leanLeft).enclose outer e.leanLeft.order) [] ends_nil
  have hreads := (reads_of_leansLeft h.leanLeft e.leansLeft_leanLeft).result outer
  rw [List.append_nil] at hlex
  rw [read?, htext, Expr.operand]
  change (lex true _).bind _ = _
  rw [hlex]
  simpa [lex, pieces, tokens?] using hreads

end Turtle.Logo
