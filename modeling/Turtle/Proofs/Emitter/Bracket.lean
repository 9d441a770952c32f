import Turtle.Proofs.Emitter.Procedure
import Turtle.Proofs.Number.Characters
import Turtle.Proofs.Text.Bracket

/-!
# Emitters write balanced texts

Whatever brackets an emitter opens it closes.  So what it writes is balanced if the answers to its
requests are, and if there are no brackets in what it takes over from the block and from the options:
the texts of literals, the choices that become primitives, and the snippets.
-/

namespace Turtle

open Logo (Order)

/-! ## Literals -/

namespace Logo.Word

open Text (brackets brackets_cons brackets_cons_of_not)

theorem brackets_escape (s : List Char) : brackets (escape s) = brackets s := by
  induction s with
  | nil => rfl
  | cons c s ih =>
    rw [escape]
    split
    · rw [brackets_cons_of_not (by decide), brackets_cons, ih, ← brackets_cons]
    · rw [brackets_cons, ih, ← brackets_cons]

theorem brackets_quote (s : List Char) : brackets (quote s) = brackets s := by
  rw [quote, brackets_cons_of_not (by decide), brackets_escape]

theorem brackets_quoteLines (s : List Char) : brackets (quoteLines s) = brackets s := by
  have hlines (ls : List (List Char)) :
      brackets (['\\', '\n'].intercalate (ls.map quote)) = ls.flatMap brackets := by
    induction ls with
    | nil => rfl
    | cons l ls ih =>
      cases ls with
      | nil => simp [List.intercalate, brackets_quote]
      | cons l' ls =>
        rw [List.map_cons] at ih
        rw [List.map_cons, List.map_cons, List.intercalate_cons_cons, Text.brackets_append,
          Text.brackets_append, brackets_quote, ih, List.flatMap_cons (x := l)]
        exact congrArg (· ++ _) (List.append_nil _)
  rw [quoteLines, hlines, ← Text.brackets_joinLines, Text.joinLines_splitLines]

end Logo.Word

namespace Balanced

variable {s : String}

theorem quote (h : Balanced s) : Balanced (Logo.quote s) := by
  refine balanced_of_brackets_eq h ?_
  rw [Logo.quote, String.toList_ofList, Logo.Word.brackets_quote]

theorem quoteLines (h : Balanced s) : Balanced (Logo.quoteLines s) := by
  refine balanced_of_brackets_eq h ?_
  rw [Logo.quoteLines, String.toList_ofList, Logo.Word.brackets_quoteLines]

end Balanced

/-! ## Numbers -/

namespace BracketFree

theorem of_isCharacter {s : String} (h : ∀ c ∈ s.toList, Number.isCharacter c) :
    BracketFree s := by
  refine Text.brackets_eq_nil_iff.2 fun c hc ↦ ?_
  have hcharacter := h c hc
  rw [Bool.eq_false_iff]
  simp only [Text.isBracket, ne_eq, Bool.or_eq_true, beq_iff_eq]
  rintro (((rfl | rfl) | rfl) | rfl) <;> revert hcharacter <;> decide

theorem write (x : Binary64) : BracketFree (Number.write x) :=
  of_isCharacter (Number.isCharacter_write x)

theorem toString_nat (n : Nat) : BracketFree (toString n) :=
  of_isCharacter (Number.isCharacter_toString_nat n)

theorem toString_int (n : Int) : BracketFree (toString n) :=
  of_isCharacter (Number.isCharacter_toString_int n)

end BracketFree

/-! ## What emitters take over -/

namespace Emitter

/-- The fields that hold the text of a literal. -/
def literalFields : List (String × String) := [
  ("text", "TEXT"), ("text_multiline", "TEXT"), ("text_prompt_ext", "TEXT"), ("text_prompt", "TEXT")]

end Emitter

/-- The options have no brackets. -/
structure Options.BracketFree (o : Options) : Prop where
  before : ∀ s ∈ o.before, Turtle.BracketFree s
  after : ∀ s ∈ o.after, Turtle.BracketFree s
  trap : ∀ s ∈ o.trap, Turtle.BracketFree s
  indent : Turtle.BracketFree o.indent

/-- A block has no brackets in what is taken over from it. -/
structure Head.BracketFree (h : Head) : Prop where
  id : Turtle.BracketFree h.id
  comment : ∀ s ∈ h.comment, Turtle.BracketFree s
  field : ∀ entry ∈ Emitter.literalFields ++ Emitter.choiceFields, h.kind = entry.1 →
    Turtle.BracketFree (h.field entry.2)

instance (o : Options) : Decidable o.BracketFree :=
  decidable_of_iff ((∀ s ∈ o.before, BracketFree s) ∧ (∀ s ∈ o.after, BracketFree s) ∧
    (∀ s ∈ o.trap, BracketFree s) ∧ BracketFree o.indent)
    ⟨fun ⟨hbefore, hafter, htrap, hindent⟩ ↦ ⟨hbefore, hafter, htrap, hindent⟩,
      fun h ↦ ⟨h.before, h.after, h.trap, h.indent⟩⟩

instance (h : Head) : Decidable h.BracketFree :=
  decidable_of_iff (BracketFree h.id ∧ (∀ s ∈ h.comment, BracketFree s) ∧
    ∀ entry ∈ Emitter.literalFields ++ Emitter.choiceFields, h.kind = entry.1 →
      BracketFree (h.field entry.2))
    ⟨fun ⟨hid, hcomment, hfield⟩ ↦ ⟨hid, hcomment, hfield⟩, fun h ↦ ⟨h.id, h.comment, h.field⟩⟩

namespace Options.BracketFree

variable {o : Options} {id body : String}

theorem instantiate {snippet : Option String} (h : ∀ s ∈ snippet, Turtle.BracketFree s)
    (hid : Turtle.BracketFree id) :
    Turtle.BracketFree ((snippet.map (Options.instantiate · id)).getD "") := by
  cases snippet with
  | none => rfl
  | some s =>
    have hmark : Turtle.BracketFree "'" := by decide
    have hnew : Turtle.BracketFree ("'" ++ id ++ "'") := (hmark.append hid).append hmark
    have hphrase : Turtle.BracketFree "%1" := by decide
    rw [Option.map_some, Option.getD_some, Turtle.BracketFree, Options.instantiate,
      brackets_replace hphrase hnew]
    exact h s rfl

variable (h : o.BracketFree) (hid : Turtle.BracketFree id)
include h hid

theorem beforeOf : Turtle.BracketFree ((o.beforeOf id).getD "") := instantiate h.before hid

theorem afterOf : Turtle.BracketFree ((o.afterOf id).getD "") := instantiate h.after hid

theorem trapOf : Turtle.BracketFree ((o.trapOf id).getD "") := instantiate h.trap hid

omit hid in
theorem indented {snippet : Option String} (hsnippet : Turtle.BracketFree (snippet.getD "")) :
    Balanced (o.indented snippet) := by
  cases snippet with
  | none => exact balanced_empty
  | some s => exact Balanced.prefixLines h.indent (Turtle.BracketFree.balanced hsnippet)

theorem loopBody (manual : Bool) (hbody : Balanced body) :
    Balanced (o.loopBody manual id body) := by
  have htrapped := (h.indented (h.trapOf hid)).append hbody
  rw [Options.loopBody]
  split
  · exact htrapped
  · exact ((h.indented (h.afterOf hid)).append htrapped).append (h.indented (h.beforeOf hid))

theorem surround (hbody : Balanced body) : Balanced (o.surround id body) :=
  ((h.beforeOf hid).balanced.append hbody).append (h.afterOf hid).balanced

end Options.BracketFree

/-! ## Emitters -/

namespace Recipe

variable {α : Type} {Q : α → Prop}

theorem balanced_operand {input : String} {outer : Order} {default : String}
    (hdefault : Balanced default) {f : String → Recipe α}
    (h : ∀ code, Balanced code → (f code).Meets Balanced Q) :
    (operand input outer default >>= f).Meets Balanced Q := by
  refine ⟨trivial, fun answer hanswer ↦ h _ ?_⟩
  split
  · exact hdefault
  · exact hanswer

end Recipe

namespace Emitter

open Recipe

/-- What a block leaves is balanced. -/
abbrev BalancedValue (r : Recipe (String × Order)) : Prop := r.Meets Balanced (Balanced ·.1)

/-- What a statement leaves is balanced. -/
abbrev BalancedStatement (r : Recipe String) : Prop := r.Meets Balanced Balanced

section Recipes

variable {v : View}

theorem balanced_zero : Balanced "0" := fun _ ↦ rfl

theorem balanced_one : Balanced "1" := fun _ ↦ rfl

theorem balanced_list : Balanced "[]" := fun _ ↦ rfl

theorem balanced_word : Balanced emptyWord := fun _ ↦ rfl

theorem balanced_truth (b : Bool) : Balanced (if b then trueWord else falseWord) := by
  cases b <;> exact fun _ ↦ rfl

theorem balanced_trueWord : Balanced trueWord := balanced_truth true

theorem balanced_falseWord : Balanced falseWord := balanced_truth false

/-! ### Numbers -/

theorem balanced_number : BalancedValue (number v) := (BracketFree.write _).balanced

theorem balanced_infixOf {operator : String} (hoperator : Balanced operator) (order : Order) :
    BalancedValue (infixOf operator order) := by
  refine balanced_operand balanced_zero fun a ha ↦ balanced_operand balanced_zero fun b hb ↦ ?_
  intro awaited
  simp [ha, hb, hoperator]

theorem balanced_binary {primitive : String} (hprimitive : Balanced primitive)
    (first second : String) : BalancedValue (binary primitive first second) := by
  refine balanced_operand balanced_zero fun a ha ↦ balanced_operand balanced_zero fun b hb ↦ ?_
  intro awaited
  simp [ha, hb, hprimitive]

theorem balanced_arithmetic : BalancedValue (arithmetic v) := by
  unfold arithmetic
  split
  · exact balanced_infixOf (fun _ ↦ rfl) _
  · exact balanced_infixOf (fun _ ↦ rfl) _
  · exact balanced_infixOf (fun _ ↦ rfl) _
  · exact balanced_infixOf (fun _ ↦ rfl) _
  · exact balanced_binary (fun _ ↦ rfl) _ _
  · trivial

theorem balanced_functionPrimitive {operator primitive : String}
    (h : functionPrimitive? operator = some primitive) : Balanced primitive := by
  unfold functionPrimitive? at h
  split at h <;> cases h <;> exact fun _ ↦ rfl

theorem balanced_minus {code : String} (h : Balanced code) : Balanced (minus code) := by
  intro awaited
  rw [minus]
  split <;> simp [h]

theorem balanced_function : BalancedValue (function v) := by
  simp only [function]
  split
  · exact balanced_operand balanced_zero fun x hx ↦ balanced_minus hx
  · split
    case h_1 primitive hprimitive =>
      refine balanced_operand balanced_zero fun x hx awaited ↦ ?_
      simp [hx, balanced_functionPrimitive hprimitive]
    case h_2 => trivial

theorem balanced_constant : BalancedValue (constant v) := by
  unfold constant
  split
  · exact fun _ ↦ rfl
  · exact fun _ ↦ rfl
  · exact fun _ ↦ rfl
  · exact fun _ ↦ rfl
  · exact fun _ ↦ rfl
  · trivial

theorem balanced_property : BalancedValue (property v) := by
  simp only [property]
  split
  · trivial
  · refine balanced_operand balanced_zero fun x hx ↦ ?_
    split
    · exact fun awaited ↦ by simp [hx]
    · exact fun awaited ↦ by simp [hx]
    · exact fun awaited ↦ by simp [hx]
    · exact fun awaited ↦ by simp [hx]
    · exact fun awaited ↦ by simp [hx]
    · exact balanced_operand balanced_zero fun y hy awaited ↦ by simp [hx, hy]
    · trivial

theorem balanced_randomInteger : BalancedValue (randomInteger v) := by
  refine balanced_operand balanced_zero fun a ha ↦ balanced_operand balanced_zero fun b hb ↦ ?_
  intro awaited
  simp [ha, hb]

theorem balanced_angle : BalancedValue (angle v) := by
  refine balanced_operand balanced_zero fun a ha ↦ balanced_operand balanced_zero fun b hb ↦ ?_
  intro awaited
  simp [ha, hb]

/-! ### Truth values -/

theorem balanced_comparison : BalancedValue (comparison v) := by
  unfold comparison
  split
  case h_1 operator hoperator =>
    have hoperator : Balanced operator := by
      unfold comparisonOperator? at hoperator
      split at hoperator <;> cases hoperator <;> exact fun _ ↦ rfl
    refine balanced_operand balanced_zero fun a ha ↦ balanced_operand balanced_zero fun b hb ↦ ?_
    intro awaited
    simp [ha, hb, hoperator]
  case h_2 => trivial

theorem balanced_connective : BalancedValue (connective v) := by
  have hneutral := balanced_truth (v.field "OP" == "AND")
  refine balanced_operand hneutral fun a ha ↦ balanced_operand hneutral fun b hb awaited ↦ ?_
  cases v.field "OP" == "AND" <;> simp [ha, hb]

theorem balanced_negation : BalancedValue (negation v) :=
  balanced_operand balanced_trueWord fun x hx awaited ↦ by simp [hx]

theorem balanced_truthValue : BalancedValue (truthValue v) := balanced_truth _

theorem balanced_emptyList : BalancedValue (emptyList v) := balanced_list

theorem balanced_choice : BalancedValue (choice v) := by
  refine balanced_operand balanced_falseWord fun x hx ↦ balanced_operand balanced_list fun y hy ↦
    balanced_operand balanced_list fun z hz awaited ↦ ?_
  simp [hx, hy, hz]

/-! ### Variables -/

theorem balanced_variableValue : BalancedValue (variableValue v) :=
  meets_variable fun name hname awaited ↦ by simp [hname]

theorem balanced_assignment : BalancedStatement (assignment v) :=
  balanced_operand balanced_zero fun value hvalue ↦ meets_variable fun name hname awaited ↦ by
    simp [hvalue, hname.quote]

theorem balanced_increment : BalancedStatement (increment v) :=
  balanced_operand balanced_zero fun delta hdelta ↦ meets_variable fun name hname awaited ↦ by
    simp [hdelta, hname]

theorem balanced_append : BalancedStatement (append v) :=
  meets_variable fun name hname ↦ balanced_operand balanced_word fun text htext awaited ↦ by
    simp [htext, hname]

/-! ### Control -/

section Snippets

variable (ho : v.options.BracketFree) (hv : v.head.BracketFree)
include ho hv

theorem balanced_loopBody {α : Type} {Q : α → Prop} {f : String → Recipe α}
    (h : ∀ code, Balanced code → (f code).Meets Balanced Q) :
    (loopBody v >>= f).Meets Balanced Q :=
  meets_bind.2 (meets_body fun _ hbody ↦ h _ (ho.loopBody hv.id _ hbody))

theorem balanced_branch : BalancedStatement (branch v) := by
  have hbefore := (ho.beforeOf hv.id).balanced
  have hafter := ho.indented (ho.afterOf hv.id)
  refine balanced_operand balanced_falseWord fun x hx ↦ meets_body fun yes hyes ↦
    meets_body fun no hno awaited ↦ ?_
  simp [hbefore, hafter, hx, hyes, hno]

theorem balanced_repetition : BalancedStatement (repetition v) := by
  have hrest (times : String) (htimes : Balanced times) : (do
      let body ← loopBody v
      return "repeat " ++ times ++ " [\n" ++ body ++ "]\n" : Recipe String).Meets
        Balanced Balanced :=
    balanced_loopBody ho hv fun body hbody awaited ↦ by simp [htimes, hbody]
  unfold repetition
  split
  · exact hrest _ (BracketFree.write _).balanced
  · exact balanced_operand balanced_zero hrest

theorem balanced_conditionLoop : BalancedStatement (conditionLoop v) := by
  refine balanced_operand balanced_falseWord fun x hx ↦ balanced_loopBody ho hv
    fun body hbody awaited ↦ ?_
  split <;> simp [hx, hbody]

theorem balanced_countingLoop : BalancedStatement (countingLoop v) := by
  refine meets_variable fun name hname ↦ balanced_operand balanced_zero fun first hfirst ↦
    balanced_operand balanced_zero fun last hlast ↦ balanced_operand balanced_one fun step hstep ↦
      balanced_loopBody ho hv fun body hbody awaited ↦ ?_
  simp [hname, hfirst, hlast, hstep, hbody]

theorem balanced_elementLoop : BalancedStatement (elementLoop v) := by
  refine meets_variable fun name hname ↦ balanced_operand balanced_list fun list hlist ↦
    balanced_loopBody ho hv fun body hbody awaited ↦ ?_
  simp [hname, hlist, hbody, ho.indent.balanced]

theorem balanced_conditionalReturn : BalancedStatement (conditionalReturn v) := by
  have hafter := ho.indented (ho.afterOf hv.id)
  refine balanced_operand balanced_falseWord fun x hx ↦ ?_
  have hrest (exit : String) (hexit : Balanced exit) : Balanced ("if " ++ x ++ " [\n" ++
      v.options.indented (v.options.afterOf v.head.id) ++ v.options.indent ++ exit ++ "\n]\n") :=
    fun awaited ↦ by simp [hx, hafter, hexit, ho.indent.balanced]
  simp only
  split
  · refine meets_bind.2 (Meets.mono (Q := Balanced) ?_ hrest)
    exact balanced_operand balanced_list fun value hvalue awaited ↦ by simp [hvalue]
  · exact hrest _ fun _ ↦ rfl

end Snippets

/-! ### Drawing -/

section Choices

variable {field : String} (hv : BracketFree (v.field field))
include hv

theorem balanced_chosen : Balanced (chosen v field) := hv.lower.balanced

theorem balanced_command : BalancedStatement (command field v) := fun awaited ↦ by
  simp [balanced_chosen hv]

theorem balanced_commandOn (input : String) : BalancedStatement (commandOn field input v) :=
  balanced_operand balanced_zero fun x hx awaited ↦ by simp [balanced_chosen hv, hx]

end Choices

theorem balanced_colourCommand (hv : BracketFree (v.field "WHICH")) :
    BalancedStatement (colourCommand v) :=
  balanced_operand (fun _ ↦ rfl) fun x hx awaited ↦ by simp [balanced_chosen hv, hx]

theorem balanced_report (hv : BracketFree (v.field "WHICH")) : BalancedValue (report v) :=
  balanced_chosen hv

theorem balanced_colour : BalancedValue (colour v) := by
  unfold colour
  split
  case h_1 r g b _ =>
    have hlist {r g b : String} (hr : Balanced r) (hg : Balanced g) (hb : Balanced b) :
        Balanced ("[" ++ r ++ " " ++ g ++ " " ++ b ++ "]") := fun awaited ↦ by simp [hr, hg, hb]
    have hpart (n : Nat) : Balanced (toString n) := (BracketFree.toString_nat n).balanced
    exact hlist (hpart r) (hpart g) (hpart b)
  case h_2 => trivial

theorem balanced_randomColour : BalancedValue (randomColour v) := fun _ ↦ rfl

theorem balanced_mixedColour : BalancedValue (mixedColour v) := by
  refine balanced_operand balanced_zero fun r hr ↦ balanced_operand balanced_zero fun g hg ↦
    balanced_operand balanced_zero fun b hb awaited ↦ ?_
  simp [hr, hg, hb]

/-! ### Lists and texts -/

theorem balanced_unary {primitive default : String} (hprimitive : Balanced primitive)
    (hdefault : Balanced default) (input : String) :
    BalancedValue (unary primitive input default v) :=
  balanced_operand hdefault fun x hx awaited ↦ by simp [hprimitive, hx]

theorem balanced_gather {primitive empty : String} (hprimitive : Balanced primitive)
    (hempty : Balanced empty) : BalancedValue (gather primitive empty v) := by
  unfold gather
  split
  · exact hempty
  · refine balanced_operand hempty fun a ha ↦ balanced_operand hempty fun b hb awaited ↦ ?_
    simp [hprimitive, ha, hb]
  · split
    · trivial
    · refine meets_mapM (P := Balanced) (fun i _ ↦ ?_) fun codes hcodes ↦ ?_
      · rw [← bind_pure (operand _ _ _)]
        exact balanced_operand hempty fun code hcode ↦ hcode
      · have hspace : Balanced " " := fun _ ↦ rfl
        have helements := balanced_texture.intercalate hspace hcodes
        exact ((hprimitive.append hspace).append helements).parens

theorem balanced_text (hv : BracketFree (v.field "TEXT")) : BalancedValue (text v) :=
  hv.balanced.quote

theorem balanced_multilineText (hv : BracketFree (v.field "TEXT")) :
    BalancedValue (multilineText v) := by
  have hlines := hv.balanced.quoteLines
  unfold multilineText
  generalize Logo.quoteLines (v.field "TEXT") = code at *
  change Balanced (if code.toList.contains '\n' then "(" ++ code ++ ")" else code)
  split
  · exact hlines.parens
  · exact hlines

theorem balanced_plusText {code : String} (h : Balanced code) (delta : Int) :
    Balanced (plusText code delta) := by
  have hinteger (n : Int) : Balanced (toString n) := (BracketFree.toString_int n).balanced
  have hplus : Balanced " + " := fun _ ↦ rfl
  have hminus : Balanced " - " := fun _ ↦ rfl
  rw [plusText]
  split
  · exact (h.append hplus).append (hinteger delta)
  · split
    · exact (h.append hminus).append (hinteger (-delta))
    · exact h

theorem balanced_adjustedIndex (input : String) (delta : Int) (negate : Bool) (order : Order) :
    BalancedStatement (adjustedIndex v input delta negate order) := by
  have hdefault : Balanced (if v.options.oneBased then "1" else "0") := by
    split
    · exact balanced_one
    · exact balanced_zero
  unfold adjustedIndex
  generalize (if v.options.oneBased then delta else delta + 1) = d
  refine balanced_operand hdefault fun code hcode ↦ ?_
  have hmoved := balanced_plusText hcode d
  generalize plusText code d = moved at *
  have hnegated : Balanced
      (if negate then (if d == 0 then "-" ++ moved else "-(" ++ moved ++ ")") else moved) := by
    intro awaited
    split
    · split <;> simp [hmoved]
    · exact hmoved awaited
  split
  · exact hcode
  · split
    · exact (BracketFree.write _).balanced
    · simp only
      split
      · exact hnegated.parens
      · exact hnegated

theorem balanced_index {α : Type} {Q : α → Prop} {input : String} {delta : Int} {negate : Bool}
    {order : Order} {f : String → Recipe α}
    (h : ∀ code, Balanced code → (f code).Meets Balanced Q) :
    (adjustedIndex v input delta negate order >>= f).Meets Balanced Q :=
  meets_bind.2 ((balanced_adjustedIndex input delta negate order).mono h)

theorem balanced_listElement : BalancedValue (listElement v) := by
  refine balanced_operand balanced_list fun list hlist ↦ ?_
  split
  · exact fun awaited ↦ by simp [hlist]
  · exact fun awaited ↦ by simp [hlist]
  · exact balanced_index fun position hposition awaited ↦ by simp [hposition, hlist]
  · exact fun awaited ↦ by simp [hlist]
  · trivial

theorem balanced_letter : BalancedValue (letter v) := by
  refine balanced_operand balanced_word fun text htext ↦ ?_
  split
  · exact fun awaited ↦ by simp [htext]
  · exact fun awaited ↦ by simp [htext]
  · exact balanced_index fun position hposition awaited ↦ by simp [hposition, htext]
  · refine balanced_index fun position hposition ↦ meets_helper (by simp [helpers])
      fun name hname awaited ↦ ?_
    simp [hname, htext, hposition]
  · exact fun awaited ↦ by simp [htext]
  · trivial

theorem balanced_repeated : BalancedValue (repeated v) := by
  refine meets_helper (by simp [helpers]) fun name hname ↦ balanced_operand balanced_list
    fun a ha ↦ balanced_operand balanced_zero fun b hb awaited ↦ ?_
  simp [hname, ha, hb]

theorem balanced_position : BalancedValue (position v) := by
  refine balanced_operand balanced_word fun a ha ↦ balanced_operand balanced_list fun b hb ↦
    meets_helper (by simp [helpers]) fun name hname ↦ ?_
  have hcode (reverse : String) (hreverse : Balanced reverse) : Balanced
      (if v.options.oneBased then name ++ " " ++ a ++ " " ++ b ++ " " ++ reverse
        else "-1 + " ++ (name ++ " " ++ a ++ " " ++ b ++ " " ++ reverse)) := by
    intro awaited
    split <;> simp [hname, ha, hb, hreverse]
  refine hcode _ ?_
  split
  · exact balanced_falseWord
  · exact balanced_trueWord

theorem balanced_sortComparison (ascending numeric : Bool) :
    Balanced (sortComparison ascending numeric) := by
  cases ascending <;> cases numeric <;> exact fun _ ↦ rfl

theorem balanced_sorted : BalancedValue (sorted v) := by
  refine balanced_operand balanced_list fun list hlist ↦ meets_helper (by simp [helpers])
    fun name hname ↦ ?_
  have hcode {comparison ignoreCase : String} (hcomparison : Balanced comparison)
      (hcase : Balanced ignoreCase) :
      Balanced (name ++ " " ++ list ++ " " ++ comparison ++ " " ++ ignoreCase) := fun awaited ↦ by
    simp [hname, hlist, hcomparison, hcase]
  refine hcode (balanced_sortComparison _ _) ?_
  split
  · exact balanced_falseWord
  · exact balanced_trueWord

theorem balanced_changedCase : BalancedValue (changedCase v) := by
  refine balanced_operand balanced_word fun text htext ↦ ?_
  have hrest (operator : String) (hoperator : Balanced operator) :
      Balanced (operator ++ " " ++ text) := fun awaited ↦ by simp [hoperator, htext]
  simp only
  split
  · exact hrest _ fun _ ↦ rfl
  · exact hrest _ fun _ ↦ rfl
  · exact meets_helper (by simp [helpers]) hrest
  · trivial

theorem balanced_print : BalancedStatement (print v) :=
  balanced_operand balanced_word fun text htext awaited ↦ by simp [htext]

theorem balanced_prompt (hv : BracketFree (v.field "TEXT")) : BalancedValue (prompt v) := by
  have hrest (question : String) (hquestion : Balanced question) :
      Balanced ("readword " ++ question ++ " " ++ question) := fun awaited ↦ by simp [hquestion]
  unfold prompt
  split
  · exact hrest _ hv.balanced.quote
  · exact balanced_operand balanced_word hrest

/-! ### Procedures -/

theorem balanced_callText {α : Type} {Q : α → Prop} {f : String → Recipe α}
    (h : ∀ code, Balanced code → (f code).Meets Balanced Q) :
    (callText v >>= f).Meets Balanced Q := by
  refine meets_bind.2 (Meets.mono (Q := Balanced) ?_ h)
  refine meets_procedure fun name hname ↦ meets_mapM (P := Balanced) (fun i _ ↦ ?_)
    fun codes hcodes ↦ ?_
  · exact balanced_operand balanced_list fun code hcode awaited ↦ by simp [hcode]
  · exact hname.append (balanced_texture.join hcodes)

theorem balanced_call : BalancedValue (call v) := balanced_callText fun _ hcode ↦ hcode

theorem balanced_callStatement : BalancedStatement (callStatement v) :=
  balanced_callText fun code hcode awaited ↦ by simp [hcode]

/-- The text of a definition is balanced. -/
theorem balanced_definitionCode (ho : v.options.BracketFree) (hv : v.head.BracketFree)
    {name : String} (hname : Balanced name) : BalancedStatement (definitionCode v name) := by
  have hto : Balanced "to " := fun _ ↦ rfl
  have hop : Balanced "op " := fun _ ↦ rfl
  have hend : Balanced "end" := fun _ ↦ rfl
  have hline : Balanced "\n" := fun _ ↦ rfl
  have hopening : Balanced (if ((v.options.beforeOf v.head.id).getD "" ++
      (v.options.afterOf v.head.id).getD "") == "" then "" else prefixLines v.options.indent
      ((v.options.beforeOf v.head.id).getD "" ++ (v.options.afterOf v.head.id).getD "")) := by
    split
    · exact balanced_empty
    · exact .prefixLines ho.indent
        ((ho.beforeOf hv.id).append (ho.afterOf hv.id)).balanced
  have htrap := ho.indented (ho.trapOf hv.id)
  refine meets_body fun statements hstatements ↦ ⟨trivial, fun result hresult ↦
    meets_mapM (P := Balanced) (fun param _ ↦ ?_) fun params hparams ↦ ?_⟩
  · exact meets_variable fun chosen hchosen awaited ↦ by simp [hchosen]
  · refine ((((((((hto.append hname).append (balanced_texture.join hparams)).append hline).append
      hopening).append htrap).append hstatements).append ?_).append ?_).append hend
    · split
      · exact hopening
      · exact balanced_empty
    · split
      · exact balanced_empty
      · exact ((ho.indent.balanced.append hop).append hresult).append hline

end Recipes

/-! ## The table -/

/-- The emitter writes balanced texts for blocks of a kind. -/
def Nests (kind : String) (e : Emitter) : Prop :=
  ∀ v : View, v.head.kind = kind → v.options.BracketFree → v.head.BracketFree →
    (e.emit v).Meets Balanced (Balanced ·.text)

section Table

variable {kind : String}

theorem nests_value {f : View → Recipe (String × Order)} (h : ∀ v : View, v.head.kind = kind →
    v.options.BracketFree → v.head.BracketFree → BalancedValue (f v)) :
    Nests kind (.value f) := fun v hkind ho hv ↦
  meets_bind.2 ((h v hkind ho hv).mono fun _ hcode ↦ hcode)

theorem nests_statement {f : View → Recipe String} (h : ∀ v : View, v.head.kind = kind →
    v.options.BracketFree → v.head.BracketFree → BalancedStatement (f v)) :
    Nests kind (.statement f) := fun v hkind ho hv ↦
  meets_bind.2 ((h v hkind ho hv).mono fun _ hcode ↦ hcode)

/-- A standard emitter defines a procedure or writes balanced texts. -/
theorem standard?_nests {e : Emitter} (he : standard? kind = some e) :
    e = .definition definitionOf ∨ Nests kind e := by
  cases standard?_isStandard he with
  | proceduresDefreturn | proceduresDefnoreturn => exact .inl rfl
  | colourPicker => exact .inr (nests_value fun _ _ _ _ ↦ balanced_colour)
  | colourRandom => exact .inr (nests_value fun _ _ _ _ ↦ balanced_randomColour)
  | colourRgb => exact .inr (nests_value fun _ _ _ _ ↦ balanced_mixedColour)
  | listsCreateEmpty | logicNull => exact .inr (nests_value fun _ _ _ _ ↦ balanced_emptyList)
  | listsCreateWith =>
    exact .inr (nests_value fun _ _ _ _ ↦ balanced_gather (fun _ ↦ rfl) balanced_list)
  | textJoin => exact .inr (nests_value fun _ _ _ _ ↦ balanced_gather (fun _ ↦ rfl) balanced_word)
  | listsRepeat => exact .inr (nests_value fun _ _ _ _ ↦ balanced_repeated)
  | listsLength | listsIsEmpty | listsReverse =>
    exact .inr (nests_value fun _ _ _ _ ↦ balanced_unary (fun _ ↦ rfl) balanced_list _)
  | textLength | textIsEmpty =>
    exact .inr (nests_value fun _ _ _ _ ↦ balanced_unary (fun _ ↦ rfl) balanced_word _)
  | listsIndexOf => exact .inr (nests_value fun _ _ _ _ ↦ balanced_position)
  | listsGetIndex => exact .inr (nests_value fun _ _ _ _ ↦ balanced_listElement)
  | listsSort => exact .inr (nests_value fun _ _ _ _ ↦ balanced_sorted)
  | controlsIfelse => exact .inr (nests_statement fun _ _ ho hv ↦ balanced_branch ho hv)
  | logicCompare => exact .inr (nests_value fun _ _ _ _ ↦ balanced_comparison)
  | logicOperation => exact .inr (nests_value fun _ _ _ _ ↦ balanced_connective)
  | logicNegate => exact .inr (nests_value fun _ _ _ _ ↦ balanced_negation)
  | logicBoolean => exact .inr (nests_value fun _ _ _ _ ↦ balanced_truthValue)
  | logicTernary => exact .inr (nests_value fun _ _ _ _ ↦ balanced_choice)
  -- What a command says is a choice of the block, and there are no brackets in it.
  | logoMove | logoRotate | logoCircle | logoSet =>
    exact .inr (nests_statement fun _ hk _ hv ↦
      balanced_commandOn (hv.field (_, _) (by decide) hk) _)
  | logoPen | logoMode | logoScreen =>
    exact .inr (nests_statement fun _ hk _ hv ↦ balanced_command (hv.field (_, _) (by decide) hk))
  | logoSetcolor =>
    exact .inr (nests_statement fun _ hk _ hv ↦
      balanced_colourCommand (hv.field (_, _) (by decide) hk))
  | logoGetcolor | logoGet =>
    exact .inr (nests_value fun _ hk _ hv ↦ balanced_report (hv.field (_, _) (by decide) hk))
  | controlsRepeatExt | controlsRepeat =>
    exact .inr (nests_statement fun _ _ ho hv ↦ balanced_repetition ho hv)
  | controlsWhileUntil => exact .inr (nests_statement fun _ _ ho hv ↦ balanced_conditionLoop ho hv)
  | controlsFor => exact .inr (nests_statement fun _ _ ho hv ↦ balanced_countingLoop ho hv)
  | controlsForEach => exact .inr (nests_statement fun _ _ ho hv ↦ balanced_elementLoop ho hv)
  | mathNumber => exact .inr (nests_value fun _ _ _ _ ↦ balanced_number)
  | mathArithmetic => exact .inr (nests_value fun _ _ _ _ ↦ balanced_arithmetic)
  | mathSingle | mathRound | mathTrig => exact .inr (nests_value fun _ _ _ _ ↦ balanced_function)
  | mathConstant => exact .inr (nests_value fun _ _ _ _ ↦ balanced_constant)
  | mathNumberProperty => exact .inr (nests_value fun _ _ _ _ ↦ balanced_property)
  | mathChange => exact .inr (nests_statement fun _ _ _ _ ↦ balanced_increment)
  | mathModulo => exact .inr (nests_value fun _ _ _ _ ↦ balanced_binary (fun _ ↦ rfl) _ _)
  | mathRandomInt => exact .inr (nests_value fun _ _ _ _ ↦ balanced_randomInteger)
  | mathAtan2 => exact .inr (nests_value fun _ _ _ _ ↦ balanced_angle)
  | proceduresCallreturn => exact .inr (nests_value fun _ _ _ _ ↦ balanced_call)
  | proceduresCallnoreturn => exact .inr (nests_statement fun _ _ _ _ ↦ balanced_callStatement)
  | proceduresIfreturn =>
    exact .inr (nests_statement fun _ _ ho hv ↦ balanced_conditionalReturn ho hv)
  | text =>
    exact .inr (nests_value fun _ hk _ hv ↦ balanced_text (hv.field (_, _) (by decide) hk))
  | textMultiline =>
    exact .inr (nests_value fun _ hk _ hv ↦ balanced_multilineText (hv.field (_, _) (by decide) hk))
  | textAppend => exact .inr (nests_statement fun _ _ _ _ ↦ balanced_append)
  | textCharAt => exact .inr (nests_value fun _ _ _ _ ↦ balanced_letter)
  | textChangeCase => exact .inr (nests_value fun _ _ _ _ ↦ balanced_changedCase)
  | textPrint => exact .inr (nests_statement fun _ _ _ _ ↦ balanced_print)
  | textPromptExt | textPrompt =>
    exact .inr (nests_value fun _ hk _ hv ↦ balanced_prompt (hv.field (_, _) (by decide) hk))
  | variablesGet | variablesGetDynamic =>
    exact .inr (nests_value fun _ _ _ _ ↦ balanced_variableValue)
  | variablesSet | variablesSetDynamic =>
    exact .inr (nests_statement fun _ _ _ _ ↦ balanced_assignment)

end Table

end Emitter

end Turtle
