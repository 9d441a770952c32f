import Turtle.Proofs.Emitter.Contract

/-!
# The standard emitters keep to their vocabulary

Each emitter is followed through its requests; what it ends in is taken apart where it is put
together.  Procedure definitions are set apart, as their text is registered and not left in place.
-/

namespace Turtle.Emitter

open Logo (Order isPlain)
open Recipe

section Recipes

variable {data : String → Prop} {v : View} {kind : String}

/-- A recipe for an expression meets the contract. -/
abbrev WritesValue (data : String → Prop) (r : Recipe (String × Order)) : Prop :=
  r.Meets data fun written ↦ Composed data written.1

/-- A recipe for a statement meets the contract. -/
abbrev WritesStatement (data : String → Prop) (r : Recipe String) : Prop :=
  r.Meets data (Composed data)

theorem writes_number (hv : ∀ s, v.Offers kind s → data s) : WritesValue data (number v) :=
  .data (hv _ (.number _))

theorem writes_infixOf {operator : String} (hoperator : isPlain operator) (order : Order) :
    WritesValue data (infixOf operator order) := by
  refine meets_operand (by decide) fun a ha ↦ meets_operand (by decide) fun b hb ↦ ?_
  exact (((ha.append .space).append (.literal hoperator)).append .space).append hb

theorem writes_binary {primitive : String} (hprimitive : isPlain primitive)
    (first second : String) : WritesValue data (binary primitive first second) := by
  refine meets_operand (by decide) fun a ha ↦ meets_operand (by decide) fun b hb ↦ ?_
  exact ((((Composed.literal hprimitive).append .space).append ha).append .space).append hb

theorem writes_arithmetic : WritesValue data (arithmetic v) := by
  unfold arithmetic
  split
  · exact writes_infixOf (by decide) _
  · exact writes_infixOf (by decide) _
  · exact writes_infixOf (by decide) _
  · exact writes_infixOf (by decide) _
  · exact writes_binary (by decide) _ _
  · trivial

theorem isPlain_functionPrimitive {operator primitive : String}
    (h : functionPrimitive? operator = some primitive) : isPlain primitive := by
  unfold functionPrimitive? at h
  split at h <;> cases h <;> decide

theorem writes_function : WritesValue data (function v) := by
  unfold function
  simp only
  split
  · refine meets_operand (by decide) fun x hx ↦ ?_
    change Composed data (minus x)
    unfold minus
    split
    · exact (Composed.literal (by decide)).append hx
    · exact (Composed.literal (by decide)).append hx
  · split
    case h_1 primitive hprimitive =>
      refine meets_operand (by decide) fun x hx ↦ ?_
      have hspelled := isPlain_functionPrimitive hprimitive
      exact ((Composed.literal hspelled).append .space).append hx
    case h_2 => trivial

theorem writes_constant : WritesValue data (constant v) := by
  unfold constant
  split
  · exact .literal (by decide)
  · exact .literal (by decide)
  · exact .literal (by decide)
  · exact .literal (by decide)
  · exact .literal (by decide)
  · trivial

theorem writes_property : WritesValue data (property v) := by
  unfold property
  simp only
  split
  · trivial
  · refine meets_operand (by decide) fun x hx ↦ ?_
    split
    · exact ((Composed.literal (by decide)).append hx).append (.literal (by decide))
    · exact ((Composed.literal (by decide)).append hx).append (.literal (by decide))
    · exact ((Composed.literal (by decide)).append hx).append (.literal (by decide))
    · exact hx.append (.literal (by decide))
    · exact hx.append (.literal (by decide))
    · refine meets_operand (by decide) fun y hy ↦ ?_
      exact (((Composed.literal (by decide)).append hx).append .space).append hy
    · trivial

theorem writes_randomInteger : WritesValue data (randomInteger v) := by
  refine meets_operand (by decide) fun a ha ↦ meets_operand (by decide) fun b hb ↦ ?_
  refine ((((ha.append ?_).append hb).append ?_).append ha).append ?_
  · exact .literal (by decide)
  · exact .literal (by decide)
  · exact .literal (by decide)

theorem writes_angle : WritesValue data (angle v) := by
  refine meets_operand (by decide) fun a ha ↦ meets_operand (by decide) fun b hb ↦ ?_
  refine (((Composed.append ?_ ha).append .space).append hb).append ?_
  · exact .literal (by decide)
  · exact .literal (by decide)

/-! ## Truth values and variables -/

theorem isPlain_comparisonOperator {name operator : String}
    (h : comparisonOperator? name = some operator) : isPlain operator := by
  unfold comparisonOperator? at h
  split at h <;> cases h <;> decide

theorem writes_comparison : WritesValue data (comparison v) := by
  unfold comparison
  split
  case h_1 operator hoperator =>
    refine meets_operand (by decide) fun a ha ↦ meets_operand (by decide) fun b hb ↦ ?_
    have hspelled := isPlain_comparisonOperator hoperator
    exact (((ha.append .space).append (.literal hspelled)).append .space).append hb
  case h_2 => trivial

theorem writes_connective : WritesValue data (connective v) := by
  have hneutral : isPlain (if v.field "OP" == "AND" then trueWord else falseWord) := by
    split <;> decide
  refine meets_operand hneutral fun a ha ↦ meets_operand hneutral fun b hb ↦ ?_
  refine ((Composed.append (.literal ?_) ha).append .space).append hb
  split <;> decide

theorem writes_negation : WritesValue data (negation v) :=
  meets_operand (by decide) fun _ hx ↦ (Composed.literal (by decide)).append hx

theorem writes_truthValue : WritesValue data (truthValue v) := by
  refine .literal ?_
  dsimp only
  split <;> decide

theorem writes_choice : WritesValue data (choice v) := by
  refine meets_operand (by decide) fun a ha ↦ meets_operand (by decide) fun b hb ↦
    meets_operand (by decide) fun c hc ↦ ?_
  refine (((((Composed.append ?_ ha).append ?_).append hb).append ?_).append hc).append ?_
  · exact .literal (by decide)
  · exact .literal (by decide)
  · exact .literal (by decide)
  · exact .literal (by decide)

theorem writes_variableValue : WritesValue data (variableValue v) :=
  meets_variable fun _ hname ↦ (Composed.literal (by decide)).append (.data hname)

theorem writes_assignment : WritesStatement data (assignment v) := by
  refine meets_operand (by decide) fun value hvalue ↦ meets_variable fun name hname ↦ ?_
  refine (((Composed.append ?_ (.quoted hname)).append .space).append hvalue).append ?_
  · exact .literal (by decide)
  · exact .literal (by decide)

theorem writes_increment : WritesStatement data (increment v) := by
  refine meets_operand (by decide) fun delta hdelta ↦ meets_variable fun name hname ↦ ?_
  have hname : Composed data name := .data hname
  have hnumber : Composed data ("(ifelse numberp :" ++ name ++ " :" ++ name ++ " 0)") := by
    refine (((Composed.append ?_ hname).append ?_).append hname).append ?_
    · exact .literal (by decide)
    · exact .literal (by decide)
    · exact .literal (by decide)
  refine ((((Composed.append ?_ hname).append .space).append hnumber).append ?_).append hdelta
    |>.append ?_
  · exact .literal (by decide)
  · exact .literal (by decide)
  · exact .literal (by decide)

theorem writes_append : WritesStatement data (append v) := by
  refine meets_variable fun name hname ↦ meets_operand (by decide) fun text htext ↦ ?_
  have hname : Composed data name := .data hname
  refine (((((Composed.append ?_ hname).append ?_).append hname).append .space).append
    htext).append ?_
  · exact .literal (by decide)
  · exact .literal (by decide)
  · exact .literal (by decide)

/-! ## Branching and loops -/

theorem written_loopBody (hv : ∀ s, v.Offers kind s → data s) {body : String} (hbody : data body) :
    Composed data (v.options.loopBody v.manual v.head.id body) := by
  have hsnippet (s : Option String) (hs : s ∈ v.snippets) : Composed data (v.options.indented s) :=
    .data (hv _ (.snippetLines hs))
  have hafter := hsnippet (v.options.afterOf v.head.id) (by simp [View.snippets])
  have hbefore := hsnippet (v.options.beforeOf v.head.id) (by simp [View.snippets])
  have htrapped := (hsnippet (v.options.trapOf v.head.id) (by simp [View.snippets])).append
    (.data hbody)
  unfold Options.loopBody
  simp only
  split
  · exact htrapped
  · exact (hafter.append htrapped).append hbefore

/-- Going on with the body of a loop. -/
theorem meets_loopBody {α : Type} {Q : α → Prop} (hv : ∀ s, v.Offers kind s → data s)
    {f : String → Recipe α} (h : ∀ body, Composed data body → (f body).Meets data Q) :
    (loopBody v >>= f).Meets data Q :=
  meets_body fun _ hbody ↦ h _ (written_loopBody hv hbody)

theorem writes_branch (hv : ∀ s, v.Offers kind s → data s) : WritesStatement data (branch v) := by
  refine meets_operand (by decide) fun condition hcondition ↦ meets_body fun yes hyes ↦
    meets_body fun no hno ↦ ?_
  have hafter : Composed data (v.options.indented (v.options.afterOf v.head.id)) :=
    .data (hv _ (.snippetLines (by simp [View.snippets])))
  have hbefore : Composed data ((v.options.beforeOf v.head.id).getD "") :=
    .data (hv _ (.snippet (by simp [View.snippets])))
  refine ((((((((hbefore.append ?_).append hcondition).append ?_).append hafter).append
    (.data hyes)).append ?_).append hafter).append (.data hno)).append ?_
  · exact .literal (by decide)
  · exact .literal (by decide)
  · exact .literal (by decide)
  · exact .literal (by decide)

theorem writes_repetition (hv : ∀ s, v.Offers kind s → data s) :
    WritesStatement data (repetition v) := by
  have hrest (times : String) (htimes : Composed data times) : WritesStatement data
      (loopBody v >>= fun body ↦ pure ("repeat " ++ times ++ " [\n" ++ body ++ "]\n")) := by
    refine meets_loopBody hv fun body hbody ↦ ?_
    refine (((Composed.append ?_ htimes).append ?_).append hbody).append ?_
    · exact .literal (by decide)
    · exact .literal (by decide)
    · exact .literal (by decide)
  unfold repetition
  split
  · exact hrest _ (.data (hv _ (.number _)))
  · exact meets_operand (by decide) hrest

theorem writes_conditionLoop (hv : ∀ s, v.Offers kind s → data s) :
    WritesStatement data (conditionLoop v) := by
  have hkeyword : isPlain (if v.field "MODE" == "UNTIL" then "until" else "while") := by
    split <;> decide
  refine meets_operand (by decide) fun condition hcondition ↦ meets_loopBody hv fun body hbody ↦ ?_
  refine (((((Composed.literal hkeyword).append ?_).append hcondition).append ?_).append
    hbody).append ?_
  · exact .literal (by decide)
  · exact .literal (by decide)
  · exact .literal (by decide)

theorem writes_countingLoop (hv : ∀ s, v.Offers kind s → data s) :
    WritesStatement data (countingLoop v) := by
  refine meets_variable fun name hname ↦ meets_operand (by decide) fun first hfirst ↦
    meets_operand (by decide) fun last hlast ↦ meets_operand (by decide) fun step hstep ↦
    meets_loopBody hv fun body hbody ↦ ?_
  refine (((((((((Composed.append ?_ (.data hname)).append ?_).append hfirst).append ?_).append
    hlast).append ?_).append hstep).append ?_).append hbody).append ?_
  · exact .literal (by decide)
  · exact .literal (by decide)
  · exact .literal (by decide)
  · exact .literal (by decide)
  · exact .literal (by decide)
  · exact .literal (by decide)

theorem writes_elementLoop (hv : ∀ s, v.Offers kind s → data s) :
    WritesStatement data (elementLoop v) := by
  refine meets_variable fun name hname ↦ meets_operand (by decide) fun list hlist ↦
    meets_loopBody hv fun body hbody ↦ ?_
  refine ((((((((Composed.append ?_ hlist).append ?_).append (.data (hv _ .indent))).append
    ?_).append (.data hname)).append ?_).append hbody)).append ?_
  · exact .literal (by decide)
  · exact .literal (by decide)
  · exact .literal (by decide)
  · exact .literal (by decide)
  · exact .literal (by decide)

/-! ## Drawing -/

theorem writes_command (hv : ∀ s, v.Offers kind s → data s) {field : String}
    (hfield : (kind, field) ∈ choiceFields) : WritesStatement data (command field v) :=
  (Composed.data (hv _ (.choice hfield))).append (.literal (by decide))

theorem writes_commandOn (hv : ∀ s, v.Offers kind s → data s) {field : String}
    (hfield : (kind, field) ∈ choiceFields) (input : String) :
    WritesStatement data (commandOn field input v) := by
  refine meets_operand (by decide) fun x hx ↦ ?_
  refine (((Composed.data (hv _ (.choice hfield))).append .space).append hx).append ?_
  exact .literal (by decide)

theorem writes_colourCommand (hv : ∀ s, v.Offers kind s → data s)
    (hfield : (kind, "WHICH") ∈ choiceFields) : WritesStatement data (colourCommand v) := by
  refine meets_operand (by decide) fun x hx ↦ ?_
  refine (((Composed.data (hv _ (.choice hfield))).append .space).append hx).append ?_
  exact .literal (by decide)

theorem writes_report (hv : ∀ s, v.Offers kind s → data s)
    (hfield : (kind, "WHICH") ∈ choiceFields) : WritesValue data (report v) :=
  .data (hv _ (.choice hfield))

theorem writes_colour (hv : ∀ s, v.Offers kind s → data s) : WritesValue data (colour v) := by
  have hnumber (n : Nat) : Composed data (toString n) := .data (hv _ (.integer n))
  unfold colour
  split
  · refine (((((Composed.append ?_ (hnumber _)).append .space).append (hnumber _)).append
      .space).append (hnumber _)).append ?_
    · exact .literal (by decide)
    · exact .literal (by decide)
  · trivial

theorem writes_randomColour : WritesValue data (randomColour v) := .literal (by decide)

theorem writes_mixedColour : WritesValue data (mixedColour v) := by
  refine meets_operand (by decide) fun r hr ↦ meets_operand (by decide) fun g hg ↦
    meets_operand (by decide) fun b hb ↦ ?_
  refine (((((Composed.append ?_ hr).append ?_).append hg).append ?_).append hb).append ?_
  · exact .literal (by decide)
  · exact .literal (by decide)
  · exact .literal (by decide)
  · exact .literal (by decide)

/-! ## Lists and texts -/

theorem writes_emptyList : WritesValue data (emptyList v) := .literal (by decide)

theorem writes_unary {primitive default : String} (hprimitive : isPlain primitive)
    (hdefault : isPlain default) (input : String) :
    WritesValue data (unary primitive input default v) :=
  meets_operand hdefault fun _ hx ↦ ((Composed.literal hprimitive).append .space).append hx

theorem meets_operand_self {input default : String} (outer : Order) (hdefault : isPlain default) :
    (operand input outer default).Meets data (Composed data) := by
  refine ⟨trivial, fun answer hanswer ↦ ?_⟩
  change Composed data (if answer == "" then default else answer)
  split
  · exact .literal hdefault
  · exact .data hanswer

theorem writes_gather {primitive empty : String} (hprimitive : isPlain primitive)
    (hempty : isPlain empty) : WritesValue data (gather primitive empty v) := by
  have hword : Composed data primitive := .literal hprimitive
  unfold gather
  split
  · exact .literal hempty
  · refine meets_operand hempty fun a ha ↦ meets_operand hempty fun b hb ↦ ?_
    exact (((hword.append .space).append ha).append .space).append hb
  · split
    · trivial
    · refine meets_mapM (fun i _ ↦ meets_operand_self _ hempty) fun codes hcodes ↦ ?_
      have hrest := Composed.texture.intercalate .space hcodes
      refine (((Composed.append ?_ hword).append .space).append hrest).append ?_
      · exact .literal (by decide)
      · exact .literal (by decide)

theorem writes_text (hv : ∀ s, v.Offers kind s → data s) : WritesValue data (text v) :=
  .data (hv _ (.word "TEXT"))

theorem writes_multilineText (hv : ∀ s, v.Offers kind s → data s) :
    WritesValue data (multilineText v) := by
  have hlines : Composed data (Logo.quoteLines (v.field "TEXT")) := .data (hv _ (.lines "TEXT"))
  unfold multilineText
  generalize Logo.quoteLines (v.field "TEXT") = code at *
  change Composed data (if code.toList.contains '\n' then "(" ++ code ++ ")" else code)
  split
  · refine (Composed.append ?_ hlines).append ?_
    · exact .literal (by decide)
    · exact .literal (by decide)
  · exact hlines

theorem written_plusText (hv : ∀ s, v.Offers kind s → data s) {code : String}
    (hcode : Composed data code) (delta : Int) : Composed data (plusText code delta) := by
  unfold plusText
  split
  · exact (hcode.append (.literal (by decide))).append (.data (hv _ (.integer _)))
  · split
    · exact (hcode.append (.literal (by decide))).append (.data (hv _ (.integer _)))
    · exact hcode

/-- An adjusted position is written with what the position is written with. -/
theorem writes_adjustedIndex (hv : ∀ s, v.Offers kind s → data s) (input : String) (delta : Int)
    (negate : Bool) (order : Order) :
    WritesStatement data (adjustedIndex v input delta negate order) := by
  have hminus : Composed data "-" := .literal (by decide)
  have hopening : Composed data "(" := .literal (by decide)
  have hnegation : Composed data "-(" := .literal (by decide)
  have hclosing : Composed data ")" := .literal (by decide)
  have hdefault : isPlain (if v.options.oneBased then "1" else "0") := by split <;> decide
  unfold adjustedIndex
  generalize (if v.options.oneBased then delta else delta + 1) = d
  refine meets_operand hdefault fun code hcode ↦ ?_
  have hmoved := written_plusText hv hcode d
  generalize plusText code d = moved at *
  have hnegated : Composed data
      (if negate then (if d == 0 then "-" ++ moved else "-(" ++ moved ++ ")") else moved) := by
    split
    · split
      · exact hminus.append hmoved
      · exact (hnegation.append hmoved).append hclosing
    · exact hmoved
  split
  · exact hcode
  · split
    · exact .data (hv _ (.number _))
    · simp only
      split
      · exact (hopening.append hnegated).append hclosing
      · exact hnegated

theorem meets_adjustedIndex {α : Type} {Q : α → Prop} (hv : ∀ s, v.Offers kind s → data s)
    {input : String} {delta : Int} {negate : Bool} {order : Order} {f : String → Recipe α}
    (h : ∀ code, Composed data code → (f code).Meets data Q) :
    (adjustedIndex v input delta negate order >>= f).Meets data Q :=
  meets_bind.2 ((writes_adjustedIndex hv input delta negate order).mono h)

theorem writes_listElement (hv : ∀ s, v.Offers kind s → data s) :
    WritesValue data (listElement v) := by
  refine meets_operand (by decide) fun list hlist ↦ ?_
  split
  · exact (Composed.literal (by decide)).append hlist
  · exact (Composed.literal (by decide)).append hlist
  · refine meets_adjustedIndex hv fun position hposition ↦ ?_
    exact (((Composed.literal (by decide)).append hposition).append .space).append hlist
  · exact (Composed.literal (by decide)).append hlist
  · trivial

theorem writes_letter (hv : ∀ s, v.Offers kind s → data s) : WritesValue data (letter v) := by
  refine meets_operand (by decide) fun text htext ↦ ?_
  split
  · exact (Composed.literal (by decide)).append htext
  · exact (Composed.literal (by decide)).append htext
  · refine meets_adjustedIndex hv fun position hposition ↦ ?_
    exact (((Composed.literal (by decide)).append hposition).append .space).append htext
  · refine meets_adjustedIndex hv fun position hposition ↦
      meets_helper (by simp [helpers]) fun name hname ↦ ?_
    exact ((((Composed.data hname).append .space).append htext).append .space).append hposition
  · exact (Composed.literal (by decide)).append htext
  · trivial

theorem writes_repeated : WritesValue data (repeated v) := by
  refine meets_helper (by simp [helpers]) fun name hname ↦ meets_operand (by decide) fun a ha ↦
    meets_operand (by decide) fun b hb ↦ ?_
  exact ((((Composed.data hname).append .space).append ha).append .space).append hb

theorem writes_position : WritesValue data (position v) := by
  refine meets_operand (by decide) fun a ha ↦ meets_operand (by decide) fun b hb ↦
    meets_helper (by simp [helpers]) fun name hname ↦ ?_
  have hreverse : Composed data (if v.field "END" == "FIRST" then falseWord else trueWord) := by
    refine .literal ?_
    split <;> decide
  have hcode := ((((((Composed.data hname).append .space).append ha).append .space).append
    hb).append .space).append hreverse
  change Composed data (if _ then _ else _)
  split
  · exact hcode
  · exact (Composed.literal (by decide)).append hcode

theorem writes_sorted : WritesValue data (sorted v) := by
  refine meets_operand (by decide) fun list hlist ↦ meets_helper (by simp [helpers])
    fun name hname ↦ ?_
  have hcomparison (ascending numeric : Bool) :
      Composed data (sortComparison ascending numeric) := by
    refine .literal ?_
    cases ascending <;> cases numeric <;> decide
  have hcase : Composed data (if v.field "TYPE" == "TEXT" then falseWord else trueWord) := by
    refine .literal ?_
    split <;> decide
  exact ((((((Composed.data hname).append .space).append hlist).append .space).append
    (hcomparison _ _)).append .space).append hcase

theorem writes_changedCase : WritesValue data (changedCase v) := by
  refine meets_operand (by decide) fun text htext ↦ ?_
  have hrest (operator : String) (hoperator : Composed data operator) :
      Composed data (operator ++ " " ++ text) := (hoperator.append .space).append htext
  simp only
  split
  · exact hrest _ (.literal (by decide))
  · exact hrest _ (.literal (by decide))
  · exact meets_helper (by simp [helpers]) fun name hname ↦ hrest _ (.data hname)
  · trivial

theorem writes_print : WritesStatement data (print v) := by
  refine meets_operand (by decide) fun text htext ↦ ?_
  refine (Composed.append ?_ htext).append ?_
  · exact .literal (by decide)
  · exact .literal (by decide)

theorem writes_prompt (hv : ∀ s, v.Offers kind s → data s) : WritesValue data (prompt v) := by
  have hrest (question : String) (hquestion : Composed data question) :
      Composed data ("readword " ++ question ++ " " ++ question) :=
    (((Composed.literal (by decide)).append hquestion).append .space).append hquestion
  unfold prompt
  split
  · exact hrest _ (.data (hv _ (.word "TEXT")))
  · exact meets_operand (by decide) hrest

/-! ## Calls -/

theorem meets_callText {α : Type} {Q : α → Prop} {f : String → Recipe α}
    (h : ∀ code, Composed data code → (f code).Meets data Q) :
    (callText v >>= f).Meets data Q := by
  refine meets_bind.2 (Recipe.Meets.mono (Q := Composed data) ?_ h)
  refine meets_procedure fun name hname ↦ meets_mapM (P := Composed data) (fun i _ ↦ ?_)
    fun codes hcodes ↦ ?_
  · exact meets_operand (by decide) fun code hcode ↦ Composed.space.append hcode
  · exact (Composed.data hname).append (Composed.texture.join hcodes)

theorem writes_call : WritesValue data (call v) := meets_callText fun _ hcode ↦ hcode

theorem writes_callStatement : WritesStatement data (callStatement v) :=
  meets_callText fun _ hcode ↦ hcode.append (.literal (by decide))

theorem writes_conditionalReturn (hv : ∀ s, v.Offers kind s → data s) :
    WritesStatement data (conditionalReturn v) := by
  have hafter : Composed data (v.options.indented (v.options.afterOf v.head.id)) :=
    .data (hv _ (.snippetLines (by simp [View.snippets])))
  have hif : Composed data "if " := .literal (by decide)
  have hopening : Composed data " [\n" := .literal (by decide)
  have hclosing : Composed data "\n]\n" := .literal (by decide)
  refine meets_operand (by decide) fun condition hcondition ↦ ?_
  have hrest (exit : String) (hexit : Composed data exit) : Composed data ("if " ++ condition ++
      " [\n" ++ v.options.indented (v.options.afterOf v.head.id) ++ v.options.indent ++ exit ++
      "\n]\n") :=
    (((((hif.append hcondition).append hopening).append hafter).append
      (.data (hv _ .indent))).append hexit).append hclosing
  simp only
  split
  · have hop : Composed data "op " := .literal (by decide)
    refine meets_bind.2 (Recipe.Meets.mono (Q := Composed data) ?_ hrest)
    exact meets_operand (by decide) fun value hvalue ↦ hop.append hvalue
  · exact hrest _ (.literal (by decide))

end Recipes

/-! ## The table -/

variable {kind : String}

theorem composes_value {f : View → Recipe (String × Order)}
    (h : ∀ (v : View) (data : String → Prop), (∀ s, v.Offers kind s → data s) →
      WritesValue data (f v)) :
    Composes (kind, Emitter.value f) := fun v data hv ↦
  meets_bind.2 ((h v data hv).mono fun _ hwritten ↦ hwritten)

theorem composes_statement {f : View → Recipe String}
    (h : ∀ (v : View) (data : String → Prop), (∀ s, v.Offers kind s → data s) →
      WritesStatement data (f v)) (manual : Bool) :
    Composes (kind, { Emitter.statement f with manual }) := fun v data hv ↦
  meets_bind.2 ((h v data hv).mono fun _ hwritten ↦ hwritten)

/-- Every standard emitter but that of definitions keeps to known requests and to the vocabulary. -/
theorem composes_standard {e : Emitter} (he : standard? kind = some e)
    (hdefinition : kind ∉ ["procedures_defreturn", "procedures_defnoreturn"]) :
    Composes (kind, e) := by
  cases standard?_isStandard he with
  | proceduresDefreturn | proceduresDefnoreturn => exact absurd (by decide) hdefinition
  | colourPicker => exact composes_value fun _ _ hv ↦ writes_colour hv
  | colourRandom => exact composes_value fun _ _ _ ↦ writes_randomColour
  | colourRgb => exact composes_value fun _ _ _ ↦ writes_mixedColour
  | listsCreateEmpty | logicNull => exact composes_value fun _ _ _ ↦ writes_emptyList
  | listsCreateWith | textJoin =>
    exact composes_value fun _ _ _ ↦ writes_gather (by decide) (by decide)
  | listsRepeat => exact composes_value fun _ _ _ ↦ writes_repeated
  | listsLength | listsIsEmpty | listsReverse | textLength | textIsEmpty =>
    exact composes_value fun _ _ _ ↦ writes_unary (by decide) (by decide) _
  | listsIndexOf => exact composes_value fun _ _ _ ↦ writes_position
  | listsGetIndex => exact composes_value fun _ _ hv ↦ writes_listElement hv
  | listsSort => exact composes_value fun _ _ _ ↦ writes_sorted
  | controlsIfelse => exact composes_statement (fun _ _ hv ↦ writes_branch hv) true
  | logicCompare => exact composes_value fun _ _ _ ↦ writes_comparison
  | logicOperation => exact composes_value fun _ _ _ ↦ writes_connective
  | logicNegate => exact composes_value fun _ _ _ ↦ writes_negation
  | logicBoolean => exact composes_value fun _ _ _ ↦ writes_truthValue
  | logicTernary => exact composes_value fun _ _ _ ↦ writes_choice
  | logoMove | logoRotate | logoCircle | logoSet =>
    exact composes_statement (fun _ _ hv ↦ writes_commandOn hv (by decide) _) false
  | logoPen | logoMode | logoScreen =>
    exact composes_statement (fun _ _ hv ↦ writes_command hv (by decide)) false
  | logoSetcolor =>
    exact composes_statement (fun _ _ hv ↦ writes_colourCommand hv (by decide)) false
  | logoGetcolor | logoGet => exact composes_value fun _ _ hv ↦ writes_report hv (by decide)
  | controlsRepeatExt | controlsRepeat =>
    exact composes_statement (fun _ _ hv ↦ writes_repetition hv) false
  | controlsWhileUntil => exact composes_statement (fun _ _ hv ↦ writes_conditionLoop hv) false
  | controlsFor => exact composes_statement (fun _ _ hv ↦ writes_countingLoop hv) false
  | controlsForEach => exact composes_statement (fun _ _ hv ↦ writes_elementLoop hv) false
  | mathNumber => exact composes_value fun _ _ hv ↦ writes_number hv
  | mathArithmetic => exact composes_value fun _ _ _ ↦ writes_arithmetic
  | mathSingle | mathRound | mathTrig => exact composes_value fun _ _ _ ↦ writes_function
  | mathConstant => exact composes_value fun _ _ _ ↦ writes_constant
  | mathNumberProperty => exact composes_value fun _ _ _ ↦ writes_property
  | mathChange => exact composes_statement (fun _ _ _ ↦ writes_increment) false
  | mathModulo => exact composes_value fun _ _ _ ↦ writes_binary (by decide) _ _
  | mathRandomInt => exact composes_value fun _ _ _ ↦ writes_randomInteger
  | mathAtan2 => exact composes_value fun _ _ _ ↦ writes_angle
  | proceduresCallreturn => exact composes_value fun _ _ _ ↦ writes_call
  | proceduresCallnoreturn => exact composes_statement (fun _ _ _ ↦ writes_callStatement) false
  | proceduresIfreturn => exact composes_statement (fun _ _ hv ↦ writes_conditionalReturn hv) false
  | text => exact composes_value fun _ _ hv ↦ writes_text hv
  | textMultiline => exact composes_value fun _ _ hv ↦ writes_multilineText hv
  | textAppend => exact composes_statement (fun _ _ _ ↦ writes_append) false
  | textCharAt => exact composes_value fun _ _ hv ↦ writes_letter hv
  | textChangeCase => exact composes_value fun _ _ _ ↦ writes_changedCase
  | textPrint => exact composes_statement (fun _ _ _ ↦ writes_print) false
  | textPromptExt | textPrompt => exact composes_value fun _ _ hv ↦ writes_prompt hv
  | variablesGet | variablesGetDynamic => exact composes_value fun _ _ _ ↦ writes_variableValue
  | variablesSet | variablesSetDynamic =>
    exact composes_statement (fun _ _ _ ↦ writes_assignment) false

end Turtle.Emitter
