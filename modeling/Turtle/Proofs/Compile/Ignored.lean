import Turtle.Proofs.Compile.Print
import Turtle.Proofs.Compile.Remark
import Turtle.Proofs.Compile.TopBlock

/-!
# Expressions at the top

The result of an expression at the top is ignored: `ignore` stands before its code.  The comments of
the expression and of the blocks in its value inputs belong to the code at that time, so they stand
between `ignore` and the expression, and their first line takes the place of what is to be ignored.
Without comments, `ignore` is followed by the expression.
-/

namespace Turtle

open Logo (Order)

/-! ## Blocks without their comments -/

namespace Block

/-- A block of a kind that leaves a value. -/
abbrev IsExpression (b : Block) : Prop := Emitter.shape? b.head.kind = some .value

/-- An expression without its comment and those of the expressions in its inputs. -/
def muted (b : Block) : Block :=
  let inputs := b.inputs.attach.map fun i ↦
    match _h : i.1.target with
    | none => i.1
    | some c => if c.IsExpression then { i.1 with target := some c.muted } else i.1
  { b with head := { b.head with comment := none }, inputs }
termination_by sizeOf b
decreasing_by exact sizeOf_target_of_mem i.2 _h

/-- A block in an input without comments, if it is an expression. -/
def mutedTarget (c : Block) : Block := if c.IsExpression then c.muted else c

/-- An input without the comments of expressions. -/
def inputMuted (i : Input Block) : Input Block := { i with target := i.target.map mutedTarget }

variable (b : Block)

theorem muted_eq : b.muted =
    { b with head := { b.head with comment := none }, inputs := b.inputs.map inputMuted } := by
  have hinputs : (b.inputs.attach.map fun i ↦ match _h : i.1.target with
      | none => i.1
      | some c => if c.IsExpression then { i.1 with target := some c.muted } else i.1) =
        b.inputs.map inputMuted := by
    rw [List.map_subtype (g := inputMuted), List.unattach_attach]
    rintro ⟨name, shape, target⟩ _
    cases target with
    | none => rfl
    | some c =>
      simp only [inputMuted, mutedTarget, Option.map_some]
      split <;> rfl
  rw [muted, hinputs]

@[simp] theorem muted_head : b.muted.head = { b.head with comment := none } := by rw [muted_eq]

@[simp] theorem muted_inputs : b.muted.inputs = b.inputs.map inputMuted := by rw [muted_eq]

@[simp] theorem muted_next : b.muted.next = b.next := by rw [muted_eq]

theorem muted_target? (name : String) :
    b.muted.target? name = (b.target? name).map mutedTarget := by
  rw [target?, input?, muted_inputs, List.find?_map, target?, input?]
  change ((b.inputs.find? (·.name == name)).map inputMuted).bind _ = _
  cases b.inputs.find? (·.name == name) <;> rfl

end Block

namespace Recipe

/-- Without bodies, of the neighbours only the values count. -/
theorem run_congr {α : Type} {Q : α → Prop} {r : Recipe α} (h : r.Flat Q) {n n' : Neighbours}
    (hvalue : n.value = n'.value) (indent : String) : r.run indent n = r.run indent n' := by
  induction r with
  | done a => rfl
  | fail e => rfl
  | ask q next ih =>
    have hrespond : respond indent n q = respond indent n' q := by
      cases q with
      | value input outer => rw [respond, respond, hvalue]
      | body input => exact h.1.elim
      | «variable» | procedure | helper => rfl
    rw [run, run, hrespond]
    exact congrArg _ (funext fun answer ↦ ih answer (h.2 answer))
  | hoist name code next ih => exact h.elim

end Recipe

namespace Emitter

/-- Kinds of expressions have nothing to do with snippets, nor with bodies. -/
theorem isFlat_of_value {kind : String} {e : Emitter} (he : standard? kind = some e)
    (hshape : e.shape = .value) : e.IsFlat := by
  have hsnippets : ∀ kind ∈ snippetKinds, shape? kind = some .statement := by decide
  refine isFlat_standard he fun hkind ↦ ?_
  have hstatement := hsnippets kind hkind
  rw [shape?_of_standard? he, hshape] at hstatement
  cases hstatement

end Emitter

namespace Compiler

variable {o : Options} {b : Block}

theorem exists_emitter (h : b.IsExpression) :
    ∃ e, Emitter.standard? b.head.kind = some e ∧ e.shape = .value :=
  Option.map_eq_some_iff.1 h

theorem view_muted (c : Compiler) (e : Emitter) (b : Block) :
    (c.view e b.muted).Agrees (c.view e b) where
  manual := rfl
  kind := by simp [view]
  id := by simp [view]
  mutation := by simp [view]
  inputNames := by simp [view, Function.comp_def, Block.inputMuted]
  field name := by simp [view, View.field, Head.field, Head.field?]
  hasField name := by simp [view, Head.hasField, Head.field?]
  oneBased := rfl
  indent := rfl

/-- What an expression writes does not depend on comments. -/
theorem run_emit_muted {c : Compiler} {e : Emitter} (he : Emitter.standard? b.head.kind = some e)
    (hshape : e.shape = .value) (hvalue : c.value b.muted = c.value b) :
    (e.emit (c.view e b.muted)).run c.options.indent (c.neighbours b.muted) =
      (e.emit (c.view e b)).run c.options.indent (c.neighbours b) := by
  rw [Emitter.emit_congr he (view_muted c e b) fun _ ↦ rfl]
  exact Recipe.run_congr ((Emitter.isFlat_of_value he hshape).2 _) hvalue _

/-- By induction on the expression: plugged into an input, it is compiled like the one without
comments. -/
theorem block_muted (h : b.IsExpression) (alone : Bool) :
    ({ options := o } : Compiler).block b.muted alone true =
      ({ options := o } : Compiler).block b alone true := by
  induction b using Block.induct_target generalizing alone with
  | step b htargets _ =>
    set c : Compiler := { options := o }
    have hvalue : c.value b.muted = c.value b := by
      funext input outer
      rw [value, value, Block.muted_target?]
      cases ht : b.target? input with
      | none => rfl
      | some t =>
        rw [Option.map_some, Block.mutedTarget]
        by_cases hexpression : t.IsExpression
        · rw [if_pos hexpression]
          simp only [htargets input t ht hexpression false, Block.muted_head]
        · rw [if_neg hexpression]
    have hfinish : c.finish b.muted alone true = c.finish b alone true := by
      funext code
      simp only [finish, finishWith, Block.muted_next, if_true]
    obtain ⟨e, he, hshape⟩ := exists_emitter h
    have hsettle : c.settle e b.muted.head (c.finish b alone true) =
        c.settle e b.head (c.finish b alone true) := by
      funext emission
      rw [Block.muted_head]
      cases emission <;> rfl
    rw [block_eq, block_eq, hfinish, Block.muted_next, Block.muted_head]
    simp only [show c.emitter? b.head.kind = some e from he]
    rw [run_emit_muted he hshape hvalue, ← hsettle, Block.muted_head]

/-! ## Top blocks -/

/-- An expression with nothing behind it leaves its code or ends in an error.  Whether it is plugged
into an input only decides about its comments. -/
theorem block_expression (henabled : b.head.enabled) (h : b.IsExpression) (hnext : b.next = none)
    (p : Pass) :
    (∃ code order q, ∀ plugged, ({ options := o } : Compiler).block b false plugged p =
      .ok (.value ((if plugged then "" else b.comments o.commentWidth) ++ code) order) q) ∨
    ∃ error q, ∀ plugged,
      ({ options := o } : Compiler).block b false plugged p = .error error q := by
  set c : Compiler := { options := o }
  obtain ⟨e, he, hshape⟩ := exists_emitter h
  have hblock := c.block_of_emitter henabled he false
  cases hrun : (e.emit (c.view e b)).run c.options.indent (c.neighbours b) p with
  | error error q => exact .inr ⟨error, q, fun plugged ↦ by rw [hblock, PassM.bind_error hrun]⟩
  | ok emission q =>
    have hleaves := ((Emitter.isFlat_of_value he hshape).2 _).of_run_ok hrun
    rw [hshape] at hleaves
    cases emission with
    | statement | hoisted => exact hleaves.elim
    | value code order =>
      refine .inl ⟨code, order, q, fun plugged ↦ ?_⟩
      rw [hblock, PassM.bind_ok hrun, settle_value c hshape, finish_last c hnext]
      rfl

theorem topLine_expression (ho : o.IsPlain) (h : b.IsExpression) (code : String) :
    ({ options := o } : Compiler).topLine b.head code =
      if code = "" then "" else ignoreValue code := by
  obtain ⟨e, he, hshape⟩ := exists_emitter h
  split
  case isTrue hcode => rw [hcode]; rfl
  case isFalse hcode =>
    rw [topLine_value he hshape (Emitter.isFlat_of_value he hshape).1 hcode, ho.surround]

/-- Lines of comments behind `ignore` are not lines of comments before it. -/
theorem ignore_remarks_iff (lines : List String) (code : String) :
    (if String.join (lines.map remark) ++ code = "" then ""
      else "ignore " ++ (String.join (lines.map remark) ++ code) ++ "\n") =
      String.join (lines.map remark) ++ ("ignore " ++ code ++ "\n") ↔
    lines = [] ∧ code ≠ "" := by
  cases lines with
  | nil => by_cases hcode : code = "" <;> simp [hcode]
  | cons line lines =>
    refine iff_of_false (fun heq ↦ ?_) (by simp)
    -- One text opens with the mark of a comment, and the other one does not.
    have hfirst := congrArg (·.toList.head?) heq
    simp [remark, commentMark, String.toList_append] at hfirst

/-- The comment lines of an enabled expression at the top, with nothing behind it, stand between
`ignore` and the code that it would have without comments.  They stand before `ignore`, and the code
on the line of `ignore`, exactly if there are none and there is some code. -/
theorem topBlock_expression (ho : o.IsPlain) (henabled : b.head.enabled) (h : b.IsExpression)
    (hnext : b.next = none) (p : Pass) :
    let lines := b.commentLines o.commentWidth
    let remarks := String.join (lines.map remark)
    (∀ line ∈ lines, '\n' ∉ line.toList) ∧
    (lines = [] ↔ b.head.comment? = none ∧
      ∀ i ∈ b.inputs, i.shape = .value → ∀ t, i.target = some t → t.IsSilent) ∧
    match ({ options := o } : Compiler).block b.muted false true p with
    | .ok (.value code _) q => ∃ part, ({ options := o } : Compiler).topBlock b p = .ok part q ∧
        part = (if remarks ++ code = "" then "" else "ignore " ++ (remarks ++ code) ++ "\n") ∧
        (part = remarks ++ ("ignore " ++ code ++ "\n") ↔ lines = [] ∧ code ≠ "")
    | .ok (.statement _) _ => False
    | .error error q => ({ options := o } : Compiler).topBlock b p = .error error q := by
  intro lines remarks
  refine ⟨fun _ ↦ Block.notMem_of_mem_commentLines, Block.commentLines_eq_nil_iff, ?_⟩
  rw [block_muted h]
  rcases block_expression (o := o) henabled h hnext p with ⟨code, order, q, hrun⟩ | ⟨error, q, hrun⟩
  · have hremarks : remarks = b.comments o.commentWidth := (b.comments_eq o.commentWidth).symm
    have htop : ({ options := o } : Compiler).topBlock b p =
        .ok (if remarks ++ code = "" then "" else ignoreValue (remarks ++ code)) q := by
      rw [topBlock_eq, PassM.bind_ok (hrun false), ← topLine_expression ho h, hremarks]
      rfl
    rw [hrun true, if_pos rfl, String.empty_append]
    exact ⟨_, htop, rfl, ignore_remarks_iff lines code⟩
  · rw [hrun true, topBlock_eq]
    exact PassM.bind_error (hrun false) _

end Compiler

/-- A truth value with a comment. -/
def Block.noted : Block :=
  ((ofKind "logic_boolean" "n").withField "BOOL" (.text "TRUE")).withComment "note"

theorem Compiler.topBlock_expression_noted : ∃ part,
    ({} : Compiler).topBlock .noted {} = .ok part {} ∧
      part = "ignore ; note\n\"true\n" ∧
      (part = "; note\nignore \"true\n" ↔ ["note"] = [] ∧ "\"true" ≠ "") := by
  have hlines : Block.noted.commentLines ({} : Options).commentWidth = ["note"] := by
    decide +kernel
  have hcode : ({} : Compiler).block Block.noted.muted false true =
      pure (.value "\"true" .atomic) := by
    rw [Block.muted_eq, block_eq]
    rfl
  have h := (topBlock_expression (o := {}) (b := .noted) ⟨rfl, rfl⟩ rfl rfl rfl {}).2.2
  rw [hcode, hlines] at h
  exact h

/-- The truth value is not on the line of `ignore`, where the comment stands. -/
theorem Compiler.program_noted :
    ({} : Compiler).program { topBlocks := [.noted] } = .ok "ignore ; note\n\"true\n" ∧
      "ignore ; note\n\"true\n" ≠ "; note\nignore \"true\n" := by
  decide +kernel

end Turtle
