import Turtle.Identifier.Legal
import Turtle.Logo.Primitive
import Turtle.Text.Case

/-!
# Allocation of identifiers

Logo does not distinguish case, so names are keyed, and identifiers kept apart, in lower case. A
name gets one identifier per kind; a fresh identifier is the first of `base`, `base2`, `base3`, …
that is neither reserved nor taken.
-/

namespace Turtle

/-- What a name is the name of. -/
inductive NameKind where
  | variable
  | procedure
deriving DecidableEq, Repr

/-- The identifiers handed out so far, and what decides about the next ones. -/
structure Names where
  /-- The words that no identifier may be, in lower case. -/
  reserved : List String := []
  /-- The identifier of each kind and name in lower case, latest first. -/
  given : List ((NameKind × String) × String) := []
  /-- All identifiers handed out, in lower case. -/
  taken : List String := []
  /-- The name of each variable by its id, latest first. -/
  vars : List (String × String) := []
deriving DecidableEq, Repr

namespace Names

/-- No identifiers handed out, and these words reserved. -/
def ofReserved (words : List String) : Names := { reserved := words.map lower }

/-- No identifiers handed out, and the primitives reserved. -/
def standard : Names := ofReserved Logo.primitives

/-- Forget all but the reserved words. -/
def reset (n : Names) : Names := { reserved := n.reserved }

/-- Name the variables anew; of two with the same id the later one counts. -/
def setVariables (n : Names) (vars : List (String × String)) : Names :=
  { n with vars := vars.reverse }

/-- Whether an identifier may be handed out. -/
def isFree (n : Names) (identifier : String) : Bool :=
  let key := lower identifier
  !(n.taken.contains key || n.reserved.contains key)

/-- The `i`-th candidate for a base: the base itself, then the base with `2`, `3`, … behind it. -/
def candidate (base : String) : Nat → String
  | 0 => base
  | i + 1 => base ++ toString (i + 2)

/-- The first free candidate from the `i`-th on, looking at `more` of them before the last. -/
def search (n : Names) (base : String) (i : Nat) : Nat → String
  | 0 => candidate base i
  | more + 1 =>
    if n.isFree (candidate base i) then candidate base i else n.search base (i + 1) more

/-- The first free candidate. The candidates are different from each other, so one of the first
`taken + reserved + 1` is free. -/
def firstFree (n : Names) (base : String) : String :=
  n.search base 0 (n.taken.length + n.reserved.length)

/-- Hand out an identifier that nothing else has. -/
def fresh (n : Names) (name : String) : String × Names :=
  let chosen := n.firstFree (identifier name)
  (chosen, { n with taken := lower chosen :: n.taken })

/-- The name behind a reference: a variable may be referred to by its id. -/
def resolve (n : Names) : NameKind → String → String
  | .variable, nameOrId => (n.vars.lookup nameOrId).getD nameOrId
  | .procedure, name => name

/-- The identifier of a name, handed out on first use. -/
def get (n : Names) (kind : NameKind) (nameOrId : String) : String × Names :=
  let name := n.resolve kind nameOrId
  let key := (kind, lower name)
  match n.given.lookup key with
  | some chosen => (chosen, n)
  | none =>
    let (chosen, m) := n.fresh name
    (chosen, { m with given := (key, chosen) :: m.given })

end Names

end Turtle
