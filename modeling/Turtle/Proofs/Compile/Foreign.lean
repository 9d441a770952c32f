import Turtle.Proofs.Emitter.Blame
import Turtle.Proofs.Emitter.Growth
import Turtle.Proofs.Workspace.Shape

/-!
# Comments of foreign blocks

A host may have emitters for kinds of blocks that the table does not know.  In a JSON document an
input that holds such a block counts as one for a value.  So the comments of a foreign statement
stand in front of the block whose body it is in, as those of an expression do, and once more in the
body, in front of its own code.  A statement of the table has its comments in the body alone.
-/

namespace Turtle

open Recipe

/-! ## In front of a block -/

namespace Block

/-- The comments that a block has in front of it for an input: those of everything that is connected
there, unless it is a statement of the table. -/
def frontComments (i : Input Block) : List String :=
  match i.target with
  | some t => if Emitter.shape? t.head.kind = some .statement then [] else t.allComments
  | none => []

theorem valueComments_eq {i : Input Block} (h : i.FollowsTarget) :
    valueComments i = frontComments i := by
  obtain ⟨name, shape, target⟩ := i
  cases target with
  | none => cases shape <;> rfl
  | some t =>
    obtain rfl : shape = shapeFor t := h t rfl
    cases hshape : Emitter.shape? t.head.kind with
    | none => simp [valueComments, frontComments, shapeFor, hshape]
    | some shape => cases shape <;> simp [valueComments, frontComments, shapeFor, hshape]

/-- The lines in front of a block of a JSON document. -/
theorem commentLines_of_followsTarget {b : Block} (h : ∀ i ∈ b.inputs, i.FollowsTarget)
    (width : Nat) : b.commentLines width =
      b.head.comment?.toList.flatMap (textLines <| wrap (width - 3) ·) ++
        (b.inputs.flatMap frontComments).flatMap textLines := by
  rw [commentLines, List.flatMap_congr fun i hi ↦ valueComments_eq (h i hi)]

end Block

/-! ## In a body -/

namespace Compiler

variable {c : Compiler} {b : Block} {input : String} {p q : Pass} {code : String} {v : View}

/-- A text contains the body that is connected to an input, as it is compiled in some state. -/
def Holds (c : Compiler) (b : Block) (input code : String) : Prop :=
  ∃ p body q before after, c.body b input p = .ok body q ∧ code = before ++ body ++ after

theorem Holds.append_left (h : c.Holds b input code) (before : String) :
    c.Holds b input (before ++ code) := by
  obtain ⟨p, body, q, before', after, hbody, rfl⟩ := h
  exact ⟨p, body, q, before ++ before', after, hbody, by simp only [String.append_assoc]⟩

theorem Holds.append_right (h : c.Holds b input code) (after : String) :
    c.Holds b input (code ++ after) := by
  obtain ⟨p, body, q, before, after', hbody, rfl⟩ := h
  exact ⟨p, body, q, before, after' ++ after, hbody, by simp only [String.append_assoc]⟩

theorem holds_body
    (hrun : (Recipe.body input).run c.options.indent (c.neighbours b) p = .ok code q) :
    c.Holds b input code := by
  obtain ⟨_, _, hbody, hdone⟩ := PassM.of_bind_ok hrun
  cases hdone
  exact ⟨p, code, _, "", "", hbody, by simp⟩

theorem holds_loop {f head : View → Recipe String} (hf : Emitter.IsLoop f head)
    (hrun : (f v).run c.options.indent (c.neighbours b) p = .ok code q) :
    c.Holds b "DO" code := by
  rw [hf.eq, run_bind] at hrun
  obtain ⟨opening, _, -, hrun⟩ := PassM.of_bind_ok hrun
  rw [run_bind, Emitter.loopBody, run_bind, bind_assoc] at hrun
  obtain ⟨body, _, hbody, hrun⟩ := PassM.of_bind_ok hrun
  cases hrun
  have hloop : c.Holds b "DO" (v.options.loopBody v.manual v.head.id body) := by
    unfold Options.loopBody
    dsimp only
    split
    · exact (holds_body hbody).append_left _
    · exact (((holds_body hbody).append_left _).append_left _).append_right _
  exact (hloop.append_left opening).append_right "]\n"

theorem holds_branch
    (hrun : (Emitter.branch v).run c.options.indent (c.neighbours b) p = .ok code q) :
    c.Holds b "DO0" code ∧ c.Holds b "ELSE" code := by
  rw [Emitter.branch, run_bind] at hrun
  obtain ⟨condition, _, -, hrun⟩ := PassM.of_bind_ok hrun
  rw [run_bind] at hrun
  obtain ⟨yes, _, hyes, hrun⟩ := PassM.of_bind_ok hrun
  rw [run_bind] at hrun
  obtain ⟨no, _, hno, hrun⟩ := PassM.of_bind_ok hrun
  cases hrun
  exact ⟨(((((holds_body hyes).append_left _).append_right _).append_right _).append_right
    _).append_right _, ((holds_body hno).append_left _).append_right _⟩

theorem holds_definitionCode {name : String}
    (hrun : (Emitter.definitionCode v name).run c.options.indent (c.neighbours b) p =
      .ok code q) : c.Holds b "STACK" code := by
  rw [Emitter.definitionCode, run_bind] at hrun
  obtain ⟨statements, _, hstatements, hrun⟩ := PassM.of_bind_ok hrun
  rw [run_bind] at hrun
  obtain ⟨result, _, -, hrun⟩ := PassM.of_bind_ok hrun
  rw [run_bind] at hrun
  obtain ⟨params, _, -, hrun⟩ := PassM.of_bind_ok hrun
  cases hrun
  exact ((((holds_body hstatements).append_left _).append_right _).append_right _).append_right _

/-- The code of a statement with bodies contains them. -/
theorem holds_of_statementInputs {e : Emitter} {emission : Emission}
    (he : Emitter.standard? b.head.kind = some e)
    (hinput : (b.head.kind, input) ∈ Emitter.statementInputs) (hdefinition : ¬ b.head.isDefinition)
    (hrun : (e.emit v).run c.options.indent (c.neighbours b) p = .ok emission q) :
    ∃ code, emission = .statement code ∧ c.Holds b input code := by
  have hsnippets : ∀ entry ∈ Emitter.statementInputs, entry.1 ∈ Emitter.snippetKinds := by decide
  have hloops : ∀ entry ∈ Emitter.statementInputs, entry.1 ∈ loopKinds → entry.2 = "DO" := by
    decide
  have hbranches : ∀ entry ∈ Emitter.statementInputs, entry.1 = "controls_ifelse" →
      entry.2 = "DO0" ∨ entry.2 = "ELSE" := by
    decide
  have hreturns : ∀ entry ∈ Emitter.statementInputs, entry.1 ≠ "procedures_ifreturn" := by decide
  obtain ⟨hloop, f, head, rfl, hf⟩ | ⟨hbranch, rfl⟩ | ⟨hreturn, -⟩ :=
    Emitter.standard?_snippetKinds he (hsnippets _ hinput) (Head.isDefinition_iff.not.1 hdefinition)
  · obtain rfl : input = "DO" := hloops _ hinput hloop
    change ((f v >>= fun code ↦ pure (.statement code)) : Recipe Emission).run _ _ p = _ at hrun
    rw [run_bind] at hrun
    obtain ⟨code, _, hcode, hdone⟩ := PassM.of_bind_ok hrun
    cases hdone
    exact ⟨code, rfl, holds_loop hf hcode⟩
  · change ((Emitter.branch v >>= fun code ↦ pure (.statement code)) : Recipe Emission).run _ _ p =
      _ at hrun
    rw [run_bind] at hrun
    obtain ⟨code, _, hcode, hdone⟩ := PassM.of_bind_ok hrun
    cases hdone
    obtain rfl | rfl := hbranches _ hinput hbranch
    · exact ⟨code, rfl, (holds_branch hcode).1⟩
    · exact ⟨code, rfl, (holds_branch hcode).2⟩
  · exact absurd hreturn (hreturns _ hinput)

/-! ## Compilers with foreign kinds -/

/-- The kinds of the table have the emitters of the table. Other kinds may have any. -/
def Extends (c : Compiler) : Prop :=
  ∀ kind e, Emitter.standard? kind = some e → c.emitter? kind = some e

theorem extends_standard (options : Options) : ({ options } : Compiler).Extends := fun _ _ ↦ id

theorem Extends.register (h : c.Extends) {kind : String} (hkind : Emitter.standard? kind = none)
    (e : Emitter) : (c.register kind e).Extends := by
  intro kind' e' he'
  have hne : kind' ≠ kind := by
    rintro rfl
    rw [hkind] at he'
    cases he'
  rw [Compiler.register]
  dsimp only
  rw [if_neg hne]
  exact h kind' e' he'

/-- What a definition registers has the body of the definition in it. -/
theorem exists_whole_definition {alone : Bool} {written : Code}
    (hemitter : c.emitter? b.head.kind = some (.definition Emitter.definitionOf))
    (henabled : b.head.enabled) (hrun : c.block b alone false p = .ok written q) :
    ∃ own rest, c.Holds b "STACK" own ∧ ∃ key,
      (key, b.comments c.options.commentWidth ++ own ++ rest) ∈ q.definitions := by
  rw [block_of_emitter c henabled hemitter] at hrun
  obtain ⟨emission, p', hemit, hsettle⟩ := PassM.of_bind_ok hrun
  rw [Emitter.emit_definition, run_bind] at hemit
  obtain ⟨name, _, -, hemit⟩ := PassM.of_bind_ok hemit
  rw [run_bind] at hemit
  obtain ⟨own, _, hown, hemit⟩ := PassM.of_bind_ok hemit
  obtain ⟨whole, p'', hwhole, hemit⟩ := PassM.of_bind_ok hemit
  have hfinish : c.finish b false false own _ = .ok whole p'' := hwhole
  obtain ⟨rest, -, rfl⟩ := of_finish_ok hfinish
  cases hemit
  cases hsettle
  exact ⟨own, rest, holds_definitionCode hown, Pass.procedureKey name,
    Table.mem_of_lookup (Table.lookup_put _ _ _)⟩

/-- A statement with bodies leaves its comments, its code with the bodies in it, and what is behind
it, either as its text or, if it is a definition, among the definitions. -/
theorem exists_whole (hc : c.Extends) (henabled : b.head.enabled)
    (hinput : (b.head.kind, input) ∈ Emitter.statementInputs) {alone : Bool} {written : Code}
    (hrun : c.block b alone false p = .ok written q) :
    ∃ own rest, c.Holds b input own ∧
      (written = .statement (b.comments c.options.commentWidth ++ own ++ rest) ∨
        ∃ key, (key, b.comments c.options.commentWidth ++ own ++ rest) ∈ q.definitions) := by
  have hshapes : ∀ entry ∈ Emitter.statementInputs,
      Emitter.shape? entry.1 = some .statement := by
    decide
  have hstacks : ∀ entry ∈ Emitter.statementInputs,
      entry.1 ∈ ["procedures_defreturn", "procedures_defnoreturn"] → entry.2 = "STACK" := by
    decide
  by_cases hdefinition : b.head.isDefinition
  · obtain rfl : input = "STACK" := hstacks _ hinput (Head.isDefinition_iff.1 hdefinition)
    have hemitter := hc _ _ (Emitter.standard?_of_isDefinition hdefinition)
    obtain ⟨own, rest, hown, hkey⟩ := exists_whole_definition hemitter henabled hrun
    exact ⟨own, rest, hown, .inr hkey⟩
  · obtain ⟨e, he, hshape⟩ := Option.map_eq_some_iff.1 (hshapes _ hinput)
    rw [block_of_emitter c henabled (hc _ _ he)] at hrun
    obtain ⟨emission, p', hemit, hsettle⟩ := PassM.of_bind_ok hrun
    obtain ⟨code, rfl, hholds⟩ := holds_of_statementInputs he hinput hdefinition hemit
    obtain ⟨whole, _, hwhole, hdone⟩ := PassM.of_bind_ok hsettle
    obtain ⟨rest, -, rfl⟩ := of_finish_ok hwhole
    cases hdone
    refine ⟨_, rest, ?_, .inl rfl⟩
    split
    · exact hholds
    · exact (hholds.append_left _).append_right _

/-- The text of an enabled block has the comments of the block in front, unless all of it was
registered as a definition. -/
theorem text_of_chain {t : Block} (henabled : t.head.enabled)
    (hrun : c.chain (some t) p = .ok code q) :
    code = "" ∨ ∃ own rest, code = t.comments c.options.commentWidth ++ own ++ rest := by
  obtain ⟨written, p', hblock, hlink⟩ := PassM.of_bind_ok hrun
  rw [block_eq, if_pos henabled] at hblock
  cases he : c.emitter? t.head.kind with
  | none =>
    rw [he] at hblock
    cases hblock
  | some e =>
    rw [he] at hblock
    obtain ⟨emission, _, -, hsettle⟩ := PassM.of_bind_ok hblock
    cases emission with
    | hoisted =>
      cases hsettle
      cases hlink
      exact .inl rfl
    | statement s =>
      obtain ⟨whole, _, hwhole, hdone⟩ := PassM.of_bind_ok hsettle
      obtain ⟨rest, -, rfl⟩ := of_finish_ok hwhole
      cases hdone
      cases hlink
      exact .inr ⟨_, rest, rfl⟩
    | value s order =>
      rw [settle] at hsettle
      split at hsettle
      · obtain ⟨whole, _, -, hdone⟩ := PassM.of_bind_ok hsettle
        cases hdone
        cases hlink
      · cases hsettle

/-- In front of a block of a JSON document stand its comment and the comments of everything that is
connected to it, but for the statements of the table. Where it has a body, the text of the body
begins with the comments of its first block as well. So a foreign statement has its comments twice:
in front of the block whose body it begins, and in the body in front of its own code. -/
theorem comments_of_ofJson (hc : c.Extends) {j : Json} {w : Workspace}
    (hw : Workspace.ofJson j = .ok w) (hb : b ∈ w.allBlocks) (henabled : b.head.enabled)
    (hinput : (b.head.kind, input) ∈ Emitter.statementInputs) {t : Block}
    (ht : b.target? input = some t) (htenabled : t.head.enabled) {alone : Bool} {written : Code}
    (hrun : c.block b alone false p = .ok written q) :
    let width := c.options.commentWidth
    b.commentLines width = b.head.comment?.toList.flatMap (textLines <| wrap (width - 3) ·) ++
        (b.inputs.flatMap Block.frontComments).flatMap textLines ∧
      ∃ whole before body after, (written = .statement whole ∨ ∃ key, (key, whole) ∈ q.definitions) ∧
        whole = String.join ((b.commentLines width).map remark) ++ before ++
          (if body = "" then "" else prefixLines c.options.indent body) ++ after ∧
        (body = "" ∨ ∃ own rest,
          body = String.join ((t.commentLines width).map remark) ++ own ++ rest) := by
  intro width
  have hfollows (i : Input Block) (hi : i ∈ b.inputs) : i.FollowsTarget :=
    Workspace.followsTarget_of_ofJson hw hb hi
  refine ⟨Block.commentLines_of_followsTarget hfollows width, ?_⟩
  obtain ⟨own, rest, ⟨p', text, q', before, after, hbody, rfl⟩, hwhole⟩ :=
    exists_whole hc henabled hinput hrun
  obtain ⟨body, _, hchain, hdone⟩ := PassM.of_bind_ok hbody
  cases hdone
  have htext : c.chain (some t) p' = .ok body q' := ht ▸ hchain
  rw [b.comments_eq] at hwhole
  refine ⟨_, before, body, after ++ rest, hwhole, ?_, ?_⟩
  · simp only [beq_iff_eq, String.append_assoc]
    rfl
  · rw [← t.comments_eq]
    exact text_of_chain htenabled htext

end Compiler

/-- A block of a kind that the table does not know, with a comment. -/
def foreignNode : Json := .object [
  ("type", .text "beep"), ("id", .text "b"),
  ("icons", .object [("comment", .object [("text", .text "ring")])]),
  ("fields", .object [("OP", .text "BEEP")])]

/-- A loop around the block. -/
def loopNode : Json := .object [
  ("type", .text "controls_repeat"), ("id", .text "r"),
  ("fields", .object [("TIMES", .text "2")]),
  ("inputs", .object [("DO", .object [("block", foreignNode)])])]

/-- The document of the loop. -/
def foreignDocument : Json := .object [("blocks", .object [("blocks", .array [loopNode])])]

/-- The block that is read. -/
def foreignBlock : Block :=
  ((Block.ofKind "beep" "b").withField "OP" (.text "BEEP")).withComment "ring"

/-- The loop that is read. -/
def foreignLoop : Block :=
  ((Block.ofKind "controls_repeat" "r").withField "TIMES" (.text "2")).withInput "DO" .value
    (some foreignBlock)

theorem ofJson_foreignDocument :
    Workspace.ofJson foreignDocument = .ok { topBlocks := [foreignLoop] } := by
  have hblock : Block.ofJson foreignNode = .ok foreignBlock := by
    rw [Block.ofJson_eq]
    rfl
  have hinputs : (loopNode.membersOf "inputs").mapM (Block.inputOfJson "r") =
      .ok foreignLoop.inputs := by
    change (Block.filledInput "DO" <$> LoadM.within (.input "DO" "r") (Block.ofJson foreignNode) >>=
      fun i ↦ pure [i]) = _
    rw [hblock]
    rfl
  have hloop : Block.ofJson loopNode = .ok foreignLoop := by
    rw [Block.ofJson_eq, show Block.idOfJson loopNode = "r" from rfl, hinputs]
    rfl
  have htop : ([loopNode].zipIdx.mapM fun entry ↦
      LoadM.within (.topBlock entry.2) (Block.ofJson entry.1)) = .ok [foreignLoop] := by
    change (LoadM.within (.topBlock 0) (Block.ofJson loopNode) >>= fun b ↦ pure [b]) = _
    rw [hloop]
    rfl
  change (([loopNode].zipIdx.mapM fun entry ↦
    LoadM.within (.topBlock entry.2) (Block.ofJson entry.1)) >>= fun topBlocks ↦
      pure ({ topBlocks } : Workspace)) = _
  rw [htop]
  rfl

/-- A compiler that knows the kind of the block. -/
def beeping : Compiler := ({} : Compiler).register "beep" (.statement (Emitter.command "OP"))

theorem Compiler.comments_of_ofJson_foreignDocument : ∃ w written q,
    beeping.Extends ∧ Workspace.ofJson foreignDocument = .ok w ∧ foreignLoop ∈ w.allBlocks ∧
      ("controls_repeat", "DO") ∈ Emitter.statementInputs ∧
      foreignLoop.target? "DO" = some foreignBlock ∧
      beeping.block foreignLoop false false {} = .ok written q ∧
      ["ring"] = [] ++ (foreignLoop.inputs.flatMap Block.frontComments).flatMap textLines ∧
      ∃ whole before body after, (written = .statement whole ∨ ∃ key, (key, whole) ∈ q.definitions) ∧
        whole = "; ring\n" ++ before ++ (if body = "" then "" else prefixLines "  " body) ++ after ∧
        (body = "" ∨ ∃ own rest, body = "; ring\n" ++ own ++ rest) := by
  have hinput : (foreignLoop.head.kind, "DO") ∈ Emitter.statementInputs := by decide
  have hextends : beeping.Extends := (extends_standard {}).register (by decide) _
  have hmem : foreignLoop ∈ Workspace.allBlocks { topBlocks := [foreignLoop] } := by
    rw [Workspace.allBlocks, show Workspace.ordered { topBlocks := [foreignLoop] } = [foreignLoop]
      from rfl, List.flatMap_singleton]
    exact foreignLoop.self_mem_descendants
  have hlines : foreignLoop.commentLines beeping.options.commentWidth = ["ring"] := by
    decide +kernel
  have hlines' : foreignBlock.commentLines beeping.options.commentWidth = ["ring"] := by
    decide +kernel
  have hcode : (beeping.block foreignLoop false false).run' {} =
      some (.statement "; ring\nrepeat 2 [\n  ; ring\n  beep\n]\n") := by
    decide +kernel
  obtain ⟨q, hrun⟩ := PassM.exists_ok hcode
  obtain ⟨hfront, hwhole⟩ :=
    comments_of_ofJson hextends ofJson_foreignDocument hmem rfl hinput rfl rfl hrun
  rw [hlines] at hfront
  rw [hlines, hlines'] at hwhole
  exact ⟨_, _, q, hextends, ofJson_foreignDocument, hmem, hinput, rfl, hrun, hfront, hwhole⟩

/-- The comment of the block stands in front of the loop as well as in its body. -/
theorem Compiler.program_foreignDocument : ∃ w, Workspace.ofJson foreignDocument = .ok w ∧
    beeping.program w = .ok "; ring\nrepeat 2 [\n  ; ring\n  beep\n]\n" ∧
    "; ring\nrepeat 2 [\n  ; ring\n  beep\n]\n" ≠ "repeat 2 [\n  ; ring\n  beep\n]\n" := by
  refine ⟨_, ofJson_foreignDocument, ?_, ?_⟩
  · decide +kernel
  · decide

end Turtle
