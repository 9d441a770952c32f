import Turtle.Compile.Index
import Turtle.Compile.Session

/-!
# Sessions

A host may call a session in any order, with or without a pass that was started, and any call may
end in an error.  All of these calls change the pass, but only a registration changes the compiler.
A workspace is compiled in a pass that starts from the workspace alone and is dropped at the end, so
what happened in a session before has no bearing on it, and nothing of it is left afterwards.
-/

namespace Turtle

open Logo (Order)

namespace Compiler

/-- The adjusted position connected to an input. -/
def index (c : Compiler) (b : Block) (input : String) (delta : Int) (negate : Bool)
    (order : Order) : PassM String :=
  let view : View := {
    options := c.options
    manual := false
    head := b.head
    inputNames := b.inputs.map (·.name) }
  (adjustedIndex view input delta negate order).run c.options.indent (c.neighbours b)

end Compiler

/-! ## Calls -/

/-- What a host or an emitter asks of a pass. -/
inductive Action where
  /-- The code of a block that may be missing. -/
  | block (b : Option Block) (alone : Bool)
  /-- The expression connected to an input. -/
  | value (b : Block) (input : String) (outer : Order)
  /-- The statements connected to an input. -/
  | body (b : Block) (input : String)
  /-- Code with the comments of its block and the statements after it. -/
  | finish (b : Block) (alone plugged : Bool) (code : String)
  /-- The position connected to an input. -/
  | index (b : Block) (input : String) (delta : Int) (negate : Bool) (order : Order)
  /-- The identifier of a name. -/
  | name (kind : NameKind) (nameOrId : String)
  /-- The name of a helper. -/
  | helper (key : String) (lines : List String)
  /-- The definition of a procedure. -/
  | define (procedure code : String)

/-- What a host is told. -/
inductive Reply where
  | done
  | text (s : String)
  | code (code : Code)
  | refused (error : CompileError)

/-- Carry out an action. -/
def Action.run (c : Compiler) : Action → PassM Reply
  | block none _ => return .code (.statement "")
  | block (some b) alone => return .code (← c.block b alone false)
  | value b input outer => return .text (← c.value b input outer)
  | body b input => return .text (← c.body b input)
  | finish b alone plugged code => return .text (← c.finish b alone plugged code)
  | index b input delta negate order => return .text (← c.index b input delta negate order)
  | name kind nameOrId => return .text (← modifyGet (·.name kind nameOrId))
  | helper key lines => return .text (← modifyGet (·.helper c.options.indent key lines))
  | define procedure code => do
    modify (·.define procedure code)
    return .done

namespace Session

/-- A call of a host. -/
inductive Call where
  | register (kind : String) (e : Emitter)
  | start (w : Workspace)
  | act (action : Action)
  | finish (code : String)
  | compile (w : Workspace)

/-- Whether a call registers an emitter. -/
def Call.isRegistration : Call → Bool
  | register _ _ => true
  | start _ | act _ | finish _ | compile _ => false

/-- What a host is told of the outcome of a call. -/
def reply {α : Type} (f : α → Reply) : Except CompileError α → Reply
  | .ok a => f a
  | .error e => .refused e

/-- Answer a call. -/
def perform (s : Session) : Call → Reply × Session
  | .register kind e => (.done, s.register kind e)
  | .start w => (.done, s.start w)
  | .act action => (s.step action.run).map (reply id) id
  | .finish code => (s.finish code).map .text id
  | .compile w => (s.compile w).map (reply .text) id

/-- The session after some calls. -/
def after (s : Session) (calls : List Call) : Session :=
  calls.foldl (fun s call ↦ (s.perform call).2) s

/-- A session in which nothing has been done. -/
def ofOptions (o : Options) : Session := { compiler := { options := o } }

/-! ## What calls change -/

variable (s : Session)

/-- No step of a pass changes the compiler. -/
theorem step_compiler {α : Type} (action : Compiler → PassM α) :
    (s.step action).2.compiler = s.compiler := by
  rw [step]
  split <;> rfl

/-- A workspace is compiled as if the session had not been used, and nothing is kept, whether or not
it goes well. -/
theorem compile_eq (w : Workspace) :
    s.compile w = (s.compiler.program w, { compiler := s.compiler }) := by
  simp only [compile, step, start, Compiler.program, Compiler.rawProgram]
  cases (s.compiler.topBlocks w).run w.start <;> rfl

/-- Without definitions, a program is the code behind empty lines. -/
theorem finish_of_definitions (h : s.pass.definitions = []) (code : String) :
    (s.finish code).1 = "\n\n\n" ++ code := by
  rw [finish, Pass.program, h]
  exact congrArg (· ++ code) String.empty_append

theorem perform_name (kind : NameKind) (nameOrId : String) :
    (s.perform (.act (.name kind nameOrId))).1 = .text (s.pass.names.get kind nameOrId).1 := rfl

theorem perform_helper (h : s.pass.helpers = []) (key : String) (lines : List String) :
    (s.perform (.act (.helper key lines))).1 = .text (s.pass.names.fresh key).1 := by
  have hhelper : (s.pass.helper s.compiler.options.indent key lines).1 =
      (s.pass.names.fresh key).1 := by
    rw [Pass.helper, h]
    rfl
  exact congrArg Reply.text hhelper

theorem perform_compiler (call : Call) : (s.perform call).2.compiler =
    match call with
    | .register kind e => s.compiler.register kind e
    | .start _ | .act _ | .finish _ | .compile _ => s.compiler := by
  cases call with
  | register | start | finish => rfl
  | act action => exact s.step_compiler action.run
  | compile w =>
    rw [perform, compile_eq]
    rfl

variable {s}

/-- Of what was done before, only the registrations decide about the compiler. -/
theorem after_compiler {s' : Session} (h : s.compiler = s'.compiler) (calls : List Call) :
    (s.after calls).compiler = (s'.after (calls.filter Call.isRegistration)).compiler := by
  induction calls generalizing s s' with
  | nil => exact h
  | cons call rest ih =>
    have hcall := s.perform_compiler call
    cases call with
    | register kind e =>
      have hregister : (s.perform (.register kind e)).2.compiler =
          (s'.register kind e).compiler := by
        rw [hcall, register, h]
      exact ih hregister
    | start | act | finish | compile => exact ih (hcall.trans h)

/-- Registering emitters starts no pass and hands out no names. -/
theorem after_registrations (o : Options) (calls : List Call) :
    (ofOptions o).after (calls.filter Call.isRegistration) =
      { compiler := ((ofOptions o).after (calls.filter Call.isRegistration)).compiler } := by
  have hafter (c : Compiler) : ({ compiler := c } : Session).after
      (calls.filter Call.isRegistration) =
        { compiler := (({ compiler := c } : Session).after
          (calls.filter Call.isRegistration)).compiler } := by
    induction calls generalizing c with
    | nil => rfl
    | cons call rest ih =>
      cases call with
      | register kind e => exact ih (c.register kind e)
      | start | act | finish | compile => exact ih c
  exact hafter { options := o }

/-! ## Passes do not leak -/

/-- After any calls, a workspace is compiled to what it is compiled to in a session with the same
registrations and no other calls, and the session is left as such a session is: no pass is under way,
nothing is defined, and all names are free. -/
theorem compile_after (o : Options) (calls : List Call) (w : Workspace) :
    let used := (ofOptions o).after calls
    let unused := (ofOptions o).after (calls.filter Call.isRegistration)
    (used.compile w).1 = (unused.compile w).1 ∧
      (used.compile w).2 = unused ∧
      (used.compile w).2.started = false ∧
      (∀ code, ((used.compile w).2.finish code).1 = "\n\n\n" ++ code) ∧
      (∀ kind nameOrId, ((used.compile w).2.perform (.act (.name kind nameOrId))).1 =
        .text (Names.standard.get kind nameOrId).1) ∧
      ∀ key lines, ((used.compile w).2.perform (.act (.helper key lines))).1 =
        .text (Names.standard.fresh key).1 := by
  intro used unused
  have hcompiler : used.compiler = unused.compiler := after_compiler rfl calls
  have hleft : (used.compile w).2 = { compiler := unused.compiler } := by
    rw [compile_eq, hcompiler]
  rw [hleft]
  refine ⟨?_, ?_, rfl, ?_, ?_, ?_⟩
  · rw [compile_eq, compile_eq, hcompiler]
  · exact (after_registrations o calls).symm
  · exact finish_of_definitions _ rfl
  · exact perform_name _
  · exact perform_helper _ rfl

end Session

end Turtle
