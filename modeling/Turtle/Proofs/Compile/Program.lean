import Turtle.Compile.Session
import Turtle.Proofs.Block
import Turtle.Proofs.Compile.Following

/-!
# Putting programs together

A program comes about if every top block is compiled, one after another, and an error is that of one
of them.  Of a workspace, a pass starts with the variables and the names of the procedures alone, and
then it takes the top blocks in reading order, or in any other one that a sort may leave.
-/

namespace Turtle

namespace Workspace

variable {w w' : Workspace}

/-- Passes over workspaces with the same declarations start in the same state. -/
theorem start_congr (hvars : w.vars = w'.vars) (hnames : w.procedureNames = w'.procedureNames) :
    w.start = w'.start := by
  rw [start, start, hvars, hnames]

/-- The state in which a pass starts that reads the top blocks in an order. -/
def startIn (w : Workspace) (order : List Block) : Pass where
  names := Names.standard
    |>.setVariables (w.vars.map fun v ↦ (v.id, v.name))
    |>.declare .variable (w.vars.map (·.id))
    |>.declare .procedure ((order.filter (·.head.isDefinition)).map (·.head.field "NAME"))

theorem start_eq_startIn (w : Workspace) : w.start = w.startIn w.ordered := rfl

end Workspace

namespace Compiler

variable {c : Compiler} {w : Workspace}

/-- Where the top blocks stand in a document does not matter. -/
theorem program_congr {w' : Workspace} (c : Compiler) (hvars : w.vars = w'.vars)
    (hordered : w.ordered = w'.ordered) : c.program w = c.program w' := by
  have hstart : w.start = w'.start :=
    Workspace.start_congr hvars (by rw [Workspace.procedureNames, hordered]; rfl)
  have htops : c.topBlocks w = c.topBlocks w' := by rw [topBlocks, hordered]; rfl
  rw [program, rawProgram, htops, hstart]
  rfl

/-- A program that is put together. -/
theorem of_rawProgram_ok {text : String} (h : c.rawProgram w = .ok text) :
    ∃ parts p, w.ordered.mapM c.topBlock w.start = .ok parts p ∧
      text = p.program ("\n".intercalate (parts.filter (· != ""))) := by
  rw [rawProgram] at h
  split at h
  case h_1 parts p hrun =>
    obtain ⟨all, q, hall, hpure⟩ := PassM.of_bind_ok hrun
    cases hpure
    cases h
    exact ⟨all, _, hall, rfl⟩
  case h_2 => cases h

theorem of_rawProgram_error {error : CompileError}
    (h : c.rawProgram w = .error error) :
    ∃ p, w.ordered.mapM c.topBlock w.start = .error error p := by
  rw [rawProgram] at h
  split at h
  case h_1 => cases h
  case h_2 e p hrun =>
    cases h
    rcases PassM.of_bind_error hrun with hall | ⟨_, _, -, hpure⟩
    · exact ⟨p, hall⟩
    · cases hpure

theorem rawProgram_error {error : CompileError} {p : Pass}
    (h : w.ordered.mapM c.topBlock w.start = .error error p) :
    c.rawProgram w = .error error := by
  have hrun : (c.topBlocks w).run w.start = .error error p := PassM.bind_error h _
  rw [rawProgram, hrun]

theorem rawProgram_ok {parts : List String} {p : Pass}
    (h : w.ordered.mapM c.topBlock w.start = .ok parts p) :
    c.rawProgram w = .ok (p.program ("\n".intercalate (parts.filter (· != "")))) := by
  have hrun : (c.topBlocks w).run w.start = .ok (parts.filter (· != "")) p := PassM.bind_ok h _
  rw [rawProgram, hrun]

theorem program_ok_iff {text : String} : c.program w = .ok text ↔
    ∃ parts p, (c.topBlocks w).run w.start = .ok parts p ∧
      text = tidy (p.program ("\n".intercalate parts)) := by
  unfold program rawProgram
  cases (c.topBlocks w).run w.start with
  | error e p =>
    constructor
    · exact nofun
    · rintro ⟨parts, q, h, -⟩
      cases h
  | ok parts p =>
    constructor
    · intro h
      exact ⟨parts, p, rfl, (Except.ok.inj h).symm⟩
    · rintro ⟨parts, q, h, rfl⟩
      cases h
      rfl

/-- What a program is put together from. -/
theorem of_program_ok {text : String} (h : c.program w = .ok text) :
    ∃ parts p, (c.topBlocks w).run w.start = .ok parts p ∧
      text = tidy (p.program ("\n".intercalate parts)) := program_ok_iff.1 h

/-! ## Other orders -/

/-- The program of a workspace whose top blocks are read in an order, which is the one that a sort
has left them in. -/
def programIn (c : Compiler) (w : Workspace) (order : List Block) : Except CompileError String :=
  match order.mapM c.topBlock (w.startIn order) with
  | .ok parts pass => .ok (tidy (pass.program ("\n".intercalate (parts.filter (· != "")))))
  | .error e _ => .error e

/-- The program is the one for the reading order. -/
theorem program_eq_programIn (c : Compiler) (w : Workspace) :
    c.program w = c.programIn w w.ordered := by
  rw [programIn, ← w.start_eq_startIn]
  cases h : w.ordered.mapM c.topBlock w.start with
  | ok parts p => rw [program, rawProgram_ok h, Except.map]
  | error e p => rw [program, rawProgram_error h, Except.map]

theorem of_programIn_error {order : List Block} {error : CompileError}
    (h : c.programIn w order = .error error) :
    ∃ start p, order.mapM c.topBlock start = .error error p := by
  rw [programIn] at h
  split at h
  case h_1 => cases h
  case h_2 e p hrun =>
    cases h
    exact ⟨_, p, hrun⟩

theorem of_programIn_ok {order : List Block} {text : String}
    (h : c.programIn w order = .ok text) :
    ∃ start parts p, order.mapM c.topBlock start = .ok parts p := by
  rw [programIn] at h
  split at h
  case h_1 parts p hrun => exact ⟨_, parts, p, hrun⟩
  case h_2 => cases h

end Compiler

end Turtle
