import Turtle.Proofs.Compile.Print
import Turtle.Proofs.Emitter.Slot
import Turtle.Proofs.Logo.Literal

/-!
# Texts in forms

A primitive with any number of inputs is put in parentheses together with them, and the parenthesis
that closes the form stands right behind the last literal.  For a reader it ends the word there, as
it would anywhere else; but no literal escapes it.  So the texts of a form are read back unless one
of them has a closing parenthesis, and then the form ends within that text.
-/

namespace Turtle

open Logo (Order)

/-! ## Reading forms -/

namespace Logo.Word

/-- A character that ends a word in a form, unless there is a backslash before it. -/
def endsPart (c : Char) : Bool := c == ' ' || c == ')'

/-- The words of a form up to the parenthesis that closes it, and what is behind the form. -/
def readWords (s : List Char) : Option (List (List Char) × List Char) :=
  match _h : (scan endsPart s).2 with
  | [] => none
  | c :: rest =>
    if c = ')' then some ([(scan endsPart s).1], rest)
    else (readWords rest).map fun read ↦ ((scan endsPart s).1 :: read.1, read.2)
termination_by s.length
decreasing_by
  have := congrArg List.length (@scan_append endsPart s)
  rw [List.length_append, _h, List.length_cons] at this
  omega

theorem readWords_space {s word rest : List Char} (h : scan endsPart s = (word, ' ' :: rest)) :
    readWords s = (readWords rest).map fun read ↦ (word :: read.1, read.2) := by
  rw [readWords]
  split
  case h_1 heq =>
    rw [h] at heq
    cases heq
  case h_2 heq =>
    rw [h] at heq ⊢
    cases heq
    rfl

theorem readWords_close {s word rest : List Char} (h : scan endsPart s = (word, ')' :: rest)) :
    readWords s = some ([word], rest) := by
  rw [readWords]
  split
  case h_1 heq =>
    rw [h] at heq
    cases heq
  case h_2 heq =>
    rw [h] at heq ⊢
    cases heq
    rfl

/-- What is read of some texts in a form: all of them, up to the first closing parenthesis. -/
def upToClose : List (List Char) → List (List Char)
  | [] => []
  | t :: ts => if ')' ∈ t then [t.takeWhile (· != ')')] else t :: upToClose ts

theorem upToClose_eq_self {ts : List (List Char)} (h : ∀ t ∈ ts, ')' ∉ t) : upToClose ts = ts := by
  induction ts with
  | nil => rfl
  | cons t ts ih =>
    rw [upToClose, if_neg (h t List.mem_cons_self), ih fun u hu ↦ h u (List.mem_cons_of_mem t hu)]

/-- A literal ends in front of a space or of a closing parenthesis. -/
theorem scan_endsPart {t : List Char} (h : ')' ∉ t) {c : Char} (hc : c = ' ' ∨ c = ')')
    (rest : List Char) : scan endsPart (quote t ++ c :: rest) = (quote t, c :: rest) := by
  refine scan_quote (by decide) (fun d hd hstop ↦ ?_) fun d hd ↦ ?_
  · simp only [endsPart, Bool.or_eq_true, beq_iff_eq] at hstop
    rcases hstop with rfl | rfl
    · rfl
    · exact absurd hd h
  · cases hd
    rcases hc with rfl | rfl <;> exact ⟨by decide, rfl⟩

/-- Of a text with a closing parenthesis, no more than what stands before it is read. -/
theorem readWords_of_mem {t : List Char} (h : ')' ∈ t) {rest : List Char} (hrest : rest ≠ []) :
    ∃ rest', readWords (quote t ++ rest) = some ([quote (t.takeWhile (· != ')'))], rest') ∧
      rest' ≠ [] := by
  obtain ⟨u, v, rfl, hu⟩ := List.eq_append_cons_of_mem h
  have hescape : quote (u ++ ')' :: v) ++ rest = quote u ++ ')' :: (escape v ++ rest) := by
    simp [quote, escape_append, escape, isDelimiter]
  refine ⟨escape v ++ rest, ?_, by simp [hrest]⟩
  rw [Text.takeWhile_bne hu, hescape, readWords_close (scan_endsPart hu (.inr rfl) _)]

/-- The texts of a form are read up to the first closing parenthesis, and nothing is left if and only
if it is the one that closes the form. -/
theorem readWords_quotes {ts : List (List Char)} (hne : ts ≠ []) :
    ∃ rest, readWords ([' '].intercalate (ts.map quote) ++ [')']) =
        some ((upToClose ts).map quote, rest) ∧
      (rest = [] ↔ ∀ t ∈ ts, ')' ∉ t) := by
  induction ts with
  | nil => exact absurd rfl hne
  | cons t ts ih =>
    obtain ⟨behind, hbehind, hcode⟩ : ∃ behind, behind ≠ [] ∧
        [' '].intercalate ((t :: ts).map quote) ++ [')'] = quote t ++ behind := by
      cases ts with
      | nil => exact ⟨[')'], by simp, by simp⟩
      | cons t' ts =>
        refine ⟨[' '] ++ ([' '].intercalate ((t' :: ts).map quote) ++ [')']), by simp, ?_⟩
        rw [List.map_cons, List.map_cons, List.intercalate_cons_cons, List.append_assoc,
          List.append_assoc]
    by_cases ht : ')' ∈ t
    · obtain ⟨rest, hread, hrest⟩ := readWords_of_mem ht hbehind
      refine ⟨rest, ?_, iff_of_false hrest fun h ↦ h t List.mem_cons_self ht⟩
      rw [hcode, hread, upToClose, if_pos ht]
      rfl
    · rw [upToClose, if_neg ht, List.map_cons, List.forall_mem_cons, and_iff_right ht]
      cases ts with
      | nil =>
        refine ⟨[], ?_, by simp⟩
        rw [List.map_nil, List.intercalate_singleton, readWords_close (scan_endsPart ht (.inr rfl) [])]
        rfl
      | cons t' ts =>
        obtain ⟨rest, hread, hrest⟩ := ih (List.cons_ne_nil t' ts)
        refine ⟨rest, ?_, hrest⟩
        rw [List.map_cons, List.map_cons, List.intercalate_cons_cons, List.append_assoc,
          List.append_assoc, List.singleton_append, readWords_space (scan_endsPart ht (.inl rfl) _),
          ← List.map_cons, hread]
        rfl

end Logo.Word

namespace Logo

/-- A primitive in parentheses with its inputs. -/
def form (primitive : String) (inputs : List String) : String :=
  "(" ++ primitive ++ " " ++ " ".intercalate inputs ++ ")"

/-- The words of a form, the primitive first, and what is behind the form. -/
def readForm? (code : String) : Option (List String × String) :=
  match code.toList with
  | '(' :: s => (Word.readWords s).map fun read ↦ (read.1.map String.ofList, String.ofList read.2)
  | _ => none

/-- What is read of some texts in a form. -/
def upToClose (texts : List String) : List String :=
  (Word.upToClose (texts.map String.toList)).map String.ofList

theorem upToClose_eq_self {texts : List String} (h : ∀ t ∈ texts, ')' ∉ t.toList) :
    upToClose texts = texts := by
  rw [upToClose, Word.upToClose_eq_self (by simpa using h), List.map_map]
  exact List.map_id'' (fun t ↦ String.ofList_toList) texts

theorem toList_form (primitive : String) (texts : List String) :
    (form primitive (texts.map quote)).toList = '(' :: (primitive.toList ++
      ' ' :: ([' '].intercalate ((texts.map String.toList).map Word.quote) ++ [')'])) := by
  have hquote : (texts.map quote).map String.toList = (texts.map String.toList).map Word.quote := by
    rw [List.map_map, List.map_map]
    exact List.map_congr_left fun t _ ↦ String.toList_ofList
  rw [← hquote]
  simp [form, String.toList_intercalate]

/-- The words of a form are read up to the first closing parenthesis. -/
theorem readForm?_form {primitive : String} (hprimitive : primitive = "word" ∨ primitive = "list")
    {texts : List String} (hne : texts ≠ []) :
    ∃ words rest, readForm? (form primitive (texts.map quote)) = some (primitive :: words, rest) ∧
      words.map unquote = upToClose texts ∧ (rest = "" ↔ ∀ t ∈ texts, ')' ∉ t.toList) := by
  have hparts : ∀ c ∈ primitive.toList, Word.endsPart c → Word.isDelimiter c := by
    rcases hprimitive with rfl | rfl <;> simp [Word.endsPart]
  have hescape : Word.escape primitive.toList = primitive.toList := by
    rcases hprimitive with rfl | rfl <;> decide
  have hscan (s : List Char) : Word.scan Word.endsPart (Word.escape primitive.toList ++ ' ' :: s) =
      (Word.escape primitive.toList, ' ' :: s) :=
    Word.scan_escape hparts (by simp [Word.endsPart])
  rw [hescape] at hscan
  have hne' : texts.map String.toList ≠ [] := by simpa using hne
  obtain ⟨rest, hread, hrest⟩ := Word.readWords_quotes hne'
  refine ⟨(Word.upToClose (texts.map String.toList)).map fun t ↦ String.ofList (Word.quote t),
    String.ofList rest, ?_, ?_, ?_⟩
  · rw [readForm?, toList_form]
    simp only
    rw [Word.readWords_space (hscan _), hread]
    simp [Function.comp_def]
  · rw [upToClose, List.map_map]
    refine List.map_congr_left fun t _ ↦ ?_
    rw [Function.comp_apply, unquote, String.toList_ofList, Word.unquote_quote]
  · rw [← String.toList_inj, String.toList_ofList]
    simpa using hrest

end Logo

/-! ## Putting elements together -/

namespace Logo

/-- What stands for an element that is missing. -/
def vacant (primitive : String) : String := if primitive = "word" then Emitter.emptyWord else "[]"

/-- Elements put together by a primitive, which takes two of them as it is and another number of
them in a form. -/
def arrange (primitive : String) : List String → String × Order
  | [] => (vacant primitive, .atomic)
  | [first, second] => (primitive ++ " " ++ first ++ " " ++ second, .procedure)
  | elements => (form primitive elements, .atomic)

theorem arrange_form (primitive : String) {elements : List String} (hne : elements ≠ [])
    (htwo : elements.length ≠ 2) :
    arrange primitive elements = (form primitive elements, .atomic) := by
  unfold arrange
  split
  case h_1 => exact absurd rfl hne
  case h_2 => exact absurd rfl htwo
  case h_3 => rfl

end Logo

/-- What is done with the results matters only for as many of them as there are. -/
theorem mapM_bind_congr {m : Type → Type} [Monad m] [LawfulMonad m] {α β γ : Type} {f : α → m β}
    {as : List α} {g g' : List β → m γ} (h : ∀ bs, bs.length = as.length → g bs = g' bs) :
    as.mapM f >>= g = as.mapM f >>= g' := by
  induction as generalizing g g' with
  | nil =>
    rw [List.mapM_nil, pure_bind, pure_bind]
    exact h [] rfl
  | cons a as ih =>
    simp only [List.mapM_cons, bind_assoc, pure_bind]
    refine bind_congr fun b ↦ ih fun bs hbs ↦ h (b :: bs) ?_
    rw [List.length_cons, hbs, List.length_cons]

/-- The results of as many computations as there are elements of a list. -/
theorem mapM_range_eq_pure {m : Type → Type} [Monad m] [LawfulMonad m] {β : Type} {f : Nat → m β}
    {bs : List β} (h : ∀ i b, bs[i]? = some b → f i = pure b) :
    (List.range bs.length).mapM f = pure bs := by
  induction bs generalizing f with
  | nil => rfl
  | cons b bs ih =>
    have hrest : (List.range bs.length).mapM (f ∘ Nat.succ) = pure bs :=
      ih fun i b' hb' ↦ h (i + 1) b' hb'
    rw [List.length_cons, List.range_succ_eq_map, List.mapM_cons, h 0 b rfl, pure_bind,
      List.mapM_map, hrest, pure_bind]

namespace Emitter

/-- The elements are put together in order, as many as there are said to be. -/
theorem gather_eq (primitive : String) {v : View} (h : itemCount v ≤ capacity v) :
    gather primitive (Logo.vacant primitive) v =
      ((List.range (itemCount v)).mapM fun i ↦ Recipe.operand (slot i) (slotOrder (itemCount v) i)
        (Logo.vacant primitive)) >>= fun elements ↦ pure (Logo.arrange primitive elements) := by
  rw [gather]
  split
  case h_1 hcount =>
    rw [hcount]
    rfl
  case h_2 hcount =>
    rw [hcount]
    rfl
  case h_3 count hzero htwo =>
    rw [if_neg h.not_gt]
    simp only [slotOrder_of_ne htwo]
    refine (mapM_bind_congr fun elements hlength ↦ ?_).symm
    rw [List.length_range] at hlength
    rw [Logo.arrange_form]
    · rfl
    · rintro rfl
      exact hzero hlength.symm
    · rwa [hlength]

/-- More elements than there can be room for are not put together at all. -/
theorem gather_of_lt (primitive empty : String) {v : View} (h : capacity v < itemCount v) :
    gather primitive empty v = .fail .capacityOverflow := by
  have htwo : 2 < itemCount v := (show 2 < textLimit by decide).trans_le (le_max_left ..) |>.trans h
  rw [gather]
  split
  case h_1 hcount => omega
  case h_2 hcount => omega
  case h_3 => exact if_pos h

end Emitter

theorem standard?_gather {kind primitive : String} (h : gatherer? kind = some primitive) :
    Emitter.standard? kind =
      some (.value (Emitter.gather primitive (Logo.vacant primitive))) := by
  rcases gatherer?_cases h with ⟨rfl, rfl⟩ | ⟨rfl, rfl⟩ <;> rfl

/-! ## Putting texts together -/

namespace Recipe

variable {α β : Type} (indent : String) (n : Neighbours)

theorem run_mapM (f : α → Recipe β) (as : List α) :
    (as.mapM f).run indent n = as.mapM fun a ↦ (f a).run indent n := by
  induction as with
  | nil => rfl
  | cons a as ih => simp only [List.mapM_cons, run_bind, run_pure, ih]

end Recipe

namespace Emitter

variable {indent : String} {n : Neighbours} {texts : List String}

/-- The elements that are texts are quoted. -/
theorem run_elements {empty : String}
    (htexts : ∀ (i : Nat) (t : String), texts[i]? = some t →
      n.value (slot i) .loose = pure (Logo.quote t)) :
    ((List.range texts.length).mapM fun i ↦ Recipe.operand (slot i) .loose empty).run indent n =
      pure (texts.map Logo.quote) := by
  have helement : ∀ i literal, (texts.map Logo.quote)[i]? = some literal →
      (Recipe.operand (slot i) .loose empty).run indent n = pure literal := by
    intro i literal hliteral
    rw [List.getElem?_map] at hliteral
    obtain ⟨t, ht, rfl⟩ := Option.map_eq_some_iff.1 hliteral
    change (n.value (slot i) .loose >>= fun code ↦
      pure (if code == "" then empty else code)) = _
    rw [htexts i t ht, pure_bind, if_neg (by simpa using Compiler.quote_ne_empty t)]
  have hrange := mapM_range_eq_pure helement
  rw [List.length_map] at hrange
  rw [Recipe.run_mapM, hrange]

/-- Texts are put together in a form, unless there are two of them or none. -/
theorem run_gather {primitive : String} {v : View} (hcount : itemCount v = texts.length)
    (hroom : itemCount v ≤ capacity v) (hne : texts ≠ []) (htwo : texts.length ≠ 2)
    (htexts : ∀ (i : Nat) (t : String), texts[i]? = some t →
      n.value (slot i) .loose = pure (Logo.quote t)) :
    (gather primitive (Logo.vacant primitive) v).run indent n =
      pure (Logo.form primitive (texts.map Logo.quote), .atomic) := by
  rw [gather_eq primitive hroom, hcount]
  simp only [slotOrder_of_ne htwo]
  rw [Recipe.run_bind, run_elements htexts, pure_bind, Recipe.run_pure,
    Logo.arrange_form _ (by simpa using hne) (by simpa using htwo)]

end Emitter

namespace Block

/-- A block that puts some texts together, each of them connected to the input of its number. -/
structure Gathers (primitive : String) (texts : List String) (b : Block) : Prop where
  primitive : gatherer? b.head.kind = some primitive
  enabled : b.head.enabled
  last : b.next = none
  count : b.head.mutation.itemCount = some texts.length
  inputs : ∀ (i : Nat) (t : String), texts[i]? = some t →
    ∃ literal, b.target? ("ADD" ++ toString i) = some literal ∧ literal.head.kind = "text" ∧
      literal.head.enabled ∧ literal.next = none ∧ literal.head.field "TEXT" = t

theorem Gathers.elementCount_eq {primitive : String} {texts : List String} {b : Block}
    (h : b.Gathers primitive texts) : b.elementCount = texts.length :=
  congrArg (Option.getD · _) h.count

theorem Gathers.hasRoom {primitive : String} {texts : List String} {b : Block}
    (h : b.Gathers primitive texts) : b.HasRoom := by
  refine hasRoom_of_connects fun i hi ↦ ?_
  rw [h.elementCount_eq] at hi
  obtain ⟨literal, hliteral, -⟩ := h.inputs i _ (List.getElem?_eq_getElem hi)
  exact ⟨literal, hliteral⟩

end Block

namespace Compiler

variable {o : Options} {b : Block} {primitive : String} {texts : List String}

/-- Texts are put together in a form. -/
theorem block_gather (h : b.Gathers primitive texts) (hne : texts ≠ []) (htwo : texts.length ≠ 2) :
    ({ options := o } : Compiler).block b false true =
      pure (.value (Logo.form primitive (texts.map Logo.quote)) .atomic) := by
  rw [block_value _ h.enabled h.last (standard?_gather h.primitive),
    Emitter.run_gather ?_ ?_ hne htwo ?_, pure_bind]
  · rw [itemCount_view, h.elementCount_eq]
  · exact (itemCount_le_capacity_iff ..).2 h.hasRoom
  · intro i t ht
    obtain ⟨literal, htarget, hkind, henabled, hlast, rfl⟩ := h.inputs i t ht
    exact value_text htarget hkind henabled hlast

/-- Texts that are put together in a form are read back in order, and the form is at its end with
its last character, if and only if none of them has a closing parenthesis.  Otherwise the form ends
at the first one. -/
theorem readForm?_gather (h : b.Gathers primitive texts) (hne : texts ≠ [])
    (htwo : texts.length ≠ 2) :
    ∃ code, ({ options := o } : Compiler).block b false true = pure (.value code .atomic) ∧
      (∃ words rest, Logo.readForm? code = some (primitive :: words, rest) ∧
        words.map Logo.unquote = Logo.upToClose texts) ∧
      ((∃ words, Logo.readForm? code = some (primitive :: words, "") ∧
          words.map Logo.unquote = texts) ↔
        ∀ t ∈ texts, ')' ∉ t.toList) := by
  have hprimitive : primitive = "word" ∨ primitive = "list" :=
    (gatherer?_cases h.primitive).imp And.right And.right
  obtain ⟨words, rest, hread, hwords, hrest⟩ := Logo.readForm?_form hprimitive hne
  refine ⟨_, block_gather h hne htwo, ⟨words, rest, hread, hwords⟩, ?_, fun hclose ↦ ?_⟩
  · rintro ⟨words', hread', -⟩
    rw [hread] at hread'
    cases hread'
    exact hrest.1 rfl
  · rw [hrest.2 hclose] at hread
    exact ⟨words, hread, hwords.trans (Logo.upToClose_eq_self hclose)⟩

end Compiler

/-- A block that puts some texts together, by itself. -/
def Block.gathering (kind : String) (texts : List String) : Block where
  head := { kind, mutation := { itemCount := some texts.length } }
  inputs := texts.zipIdx.map fun (t, i) ↦ {
    name := "ADD" ++ toString i
    shape := .value
    target := some ((ofKind "text" "t").withField "TEXT" (.text t)) }

theorem Block.gathers_oneText (t : String) :
    (gathering "lists_create_with" [t]).Gathers "list" [t] where
  primitive := rfl
  enabled := rfl
  last := rfl
  count := rfl
  inputs i u hu := by
    obtain ⟨rfl, rfl⟩ : i = 0 ∧ t = u := by cases i <;> simp_all
    exact ⟨_, rfl, rfl, rfl, rfl, rfl⟩

theorem Compiler.readForm?_gather_parenthesis :
    (["a)b"] ≠ [] ∧ ["a)b"].length ≠ 2) ∧
    ∃ code, ({} : Compiler).block (.gathering "lists_create_with" ["a)b"]) false true =
        pure (.value code .atomic) ∧
      (∃ words rest, Logo.readForm? code = some ("list" :: words, rest) ∧
        words.map Logo.unquote = Logo.upToClose ["a)b"]) ∧
      ((∃ words, Logo.readForm? code = some ("list" :: words, "") ∧
          words.map Logo.unquote = ["a)b"]) ↔
        ∀ t ∈ ["a)b"], ')' ∉ t.toList) :=
  ⟨by decide, readForm?_gather (Block.gathers_oneText "a)b") (by decide) (by decide)⟩

/-- The form of a text with a closing parenthesis ends within the text. -/
theorem Compiler.closes_early :
    ({} : Compiler).block (.gathering "lists_create_with" ["a)b"]) false true =
        pure (.value "(list \"a)b)" .atomic) ∧
      Logo.readForm? "(list \"a)b)" = some (["list", "\"a"], "b)") ∧
      Logo.unquote "\"a" ≠ "a)b" := by
  refine ⟨?_, ?_, by decide⟩
  · rw [block_gather (Block.gathers_oneText "a)b") (by decide) (by decide)]
    rfl
  · have hword : Logo.Word.scan Logo.Word.endsPart "list \"a)b)".toList =
        ("list".toList, " \"a)b)".toList) := by decide
    have hliteral : Logo.Word.scan Logo.Word.endsPart "\"a)b)".toList =
        ("\"a".toList, ")b)".toList) := by decide
    have hread : Logo.Word.readWords "list \"a)b)".toList =
        some (["list".toList, "\"a".toList], "b)".toList) := by
      rw [Logo.Word.readWords_space hword]
      exact congrArg (Option.map _) (Logo.Word.readWords_close hliteral)
    exact congrArg (Option.map _) hread

end Turtle
