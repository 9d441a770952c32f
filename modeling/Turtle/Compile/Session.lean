import Turtle.Compile.Compiler

/-!
# Passes over workspaces

A pass starts with the variables and procedures of the workspace named, compiles the top blocks and
ends in a program. A session lets a host drive passes step by step; whatever it did before, a whole
workspace is compiled in a pass of its own.
-/

namespace Turtle

namespace Names

/-- Name some variables and procedures, in this order. -/
def declare (n : Names) (kind : NameKind) (names : List String) : Names :=
  names.foldl (fun n name ↦ (n.get kind name).2) n

end Names

namespace Workspace

/-- The names of the procedures that are defined by top blocks, in reading order. -/
def procedureNames (w : Workspace) : List String :=
  (w.ordered.filter (·.head.isDefinition)).map (·.head.field "NAME")

/-- The state in which a pass starts. -/
def start (w : Workspace) : Pass where
  names := Names.standard
    |>.setVariables (w.vars.map fun v ↦ (v.id, v.name))
    |>.declare .variable (w.vars.map (·.id))
    |>.declare .procedure w.procedureNames

end Workspace

/-- A value by itself is no statement, so its result is ignored. -/
def ignoreValue (code : String) : String := "ignore " ++ code ++ "\n"

namespace Compiler

/-- What becomes of the code of a top block of a kind. -/
def topLine (c : Compiler) (head : Head) (code : String) : String :=
  if code == "" then ""
  else match c.emitter? head.kind with
    | some e =>
      if e.shape = .value then
        if e.manual then ignoreValue code else c.options.surround head.id (ignoreValue code)
      else code
    | none => code

/-- The part of the program that a top block leaves. -/
def topBlock (c : Compiler) (b : Block) : PassM String := do
  match ← c.block b false false with
  | .statement code | .value code _ => return c.topLine b.head code

/-- The parts of the program, of the top blocks that leave one. -/
def topBlocks (c : Compiler) (w : Workspace) : PassM (List String) := do
  return (← w.ordered.mapM c.topBlock).filter (· != "")

/-- The text of the program of a workspace as it is put together. -/
def rawProgram (c : Compiler) (w : Workspace) : Except CompileError String :=
  match (c.topBlocks w).run w.start with
  | .ok parts pass => .ok (pass.program ("\n".intercalate parts))
  | .error e _ => .error e

/-- The program of a workspace. -/
def program (c : Compiler) (w : Workspace) : Except CompileError String :=
  (c.rawProgram w).map tidy

/-- The same compiler with another emitter for a kind of block. -/
def register (c : Compiler) (kind : String) (e : Emitter) : Compiler :=
  { c with emitter? := fun k ↦ if k = kind then some e else c.emitter? k }

end Compiler

/-- A compiler in use. -/
structure Session where
  compiler : Compiler
  pass : Pass := {}
  /-- A pass has been started and not ended. -/
  started : Bool := false

namespace Session

/-- Start a pass over a workspace. -/
def start (s : Session) (w : Workspace) : Session := { s with pass := w.start, started := true }

/-- End a pass: the program with the code, and nothing kept. -/
def finish (s : Session) (code : String) : String × Session :=
  (s.pass.program code, { compiler := s.compiler })

/-- Give up a pass, and keep nothing. -/
def abort (s : Session) : Session := { compiler := s.compiler }

/-- A step of the pass. -/
def step {α : Type} (s : Session) (action : Compiler → PassM α) : Except CompileError α × Session :=
  match (action s.compiler).run s.pass with
  | .ok a pass => (.ok a, { s with pass })
  | .error e pass => (.error e, { s with pass })

/-- Compile a workspace in a pass of its own. -/
def compile (s : Session) (w : Workspace) : Except CompileError String × Session :=
  match (s.start w).step (·.topBlocks w) with
  | (.ok parts, s) =>
    let (code, s) := s.finish ("\n".intercalate parts)
    (.ok (tidy code), s)
  | (.error e, s) => (.error e, s.abort)

/-- Use another emitter for a kind of block. -/
def register (s : Session) (kind : String) (e : Emitter) : Session :=
  { s with compiler := s.compiler.register kind e }

end Session

end Turtle
