import Mathlib.Data.List.SplitBy
import Turtle.Logo.Order
import Turtle.Proofs.Identifier.Legal

/-!
# Reading expressions

The grammar of Logo for arithmetic.  A text is cut into pieces, the pieces become tokens, and a
machine with a stack of frames reads the tokens from left to right.  A minus sign is the sign of
what follows it when it stands at the start, after a parenthesis or after a space, and no space
follows; then it binds tightest of all.  Operators of one level are read from left to right, and a
primitive takes as many expressions as it has inputs.
-/

namespace Turtle.Logo

open Identifier (isLegal isLegalChar)

/-! ## Expressions -/

/-- The operators that stand between their operands. -/
inductive Operator where
  | times
  | divided
  | minus
  | plus
  | equal
  | unequal
  | less
  | atMost
  | greater
  | atLeast
deriving DecidableEq, Repr

namespace Operator

/-- All operators. -/
def all : List Operator :=
  [times, divided, minus, plus, equal, unequal, less, atMost, greater, atLeast]

/-- How strongly an operator binds. -/
def order : Operator → Order
  | times => .multiplication
  | divided => .division
  | minus => .subtraction
  | plus => .addition
  | equal | unequal | less | atMost | greater | atLeast => .comparison

/-- How an operator is written. -/
def symbol : Operator → String
  | times => "*"
  | divided => "/"
  | minus => "-"
  | plus => "+"
  | equal => "="
  | unequal => "<>"
  | less => "<"
  | atMost => "<="
  | greater => ">"
  | atLeast => ">="

/-- The operator that a piece of text is. -/
def ofSymbol? (piece : List Char) : Option Operator := all.find? (·.symbol.toList == piece)

end Operator

/-- An expression. -/
inductive Expr where
  | literal (digits : String)
  | named (name : String)
  | negated (e : Expr)
  | operation (op : Operator) (a b : Expr)
  /-- A primitive with one input. -/
  | unary (primitive : String) (x : Expr)
  /-- A primitive with two inputs. -/
  | binary (primitive : String) (x y : Expr)
deriving DecidableEq, Repr

/-- The primitives with one input. -/
def unaryPrimitives : List String :=
  ["abs", "sqrt", "ln", "exp", "round", "int", "sin", "cos", "tan", "log10", "arcsin", "arccos",
    "arctan"]

/-- The primitives with two inputs. -/
def binaryPrimitives : List String := ["power", "modulo"]

/-! ## Tokens -/

/-- The smallest parts of an expression. -/
inductive Token where
  | literal (digits : String)
  | named (name : String)
  | word (primitive : String)
  /-- The minus sign of what follows. -/
  | sign
  | operator (op : Operator)
  | opening
  | closing
deriving DecidableEq, Repr

/-- The characters of numerals, names and primitives. -/
def isWordChar (c : Char) : Bool := isLegalChar c || c == '.' || c == ':'

/-- Whether two characters next to each other belong to one piece. -/
def joins (c d : Char) : Bool :=
  isWordChar c && isWordChar d || c == '<' && d == '>' || (c == '<' || c == '>') && d == '='

/-- Cut a text into words, operators, parentheses and single spaces. -/
def pieces (s : List Char) : List (List Char) := s.splitBy joins

/-- Whether a word is a plain decimal: digits, and possibly a point with digits behind it. -/
def isNumeral (s : List Char) : Bool :=
  !(s.takeWhile Char.isDigit).isEmpty &&
    match s.dropWhile Char.isDigit with
    | [] => true
    | c :: t => c == '.' && !t.isEmpty && t.all Char.isDigit

/-- The token of a word: a numeral, a variable behind its colon, or a primitive. -/
def wordToken? : List Char → Option Token
  | ':' :: name => if isLegal name then some (.named (.ofList name)) else none
  | w =>
    if isNumeral w then some (.literal (.ofList w))
    else if isLegal w then some (.word (.ofList w))
    else none

/-- The token of a piece, unless it is a sign. -/
def token? (piece : List Char) : Option Token :=
  if piece = ['('] then some .opening
  else if piece = [')'] then some .closing
  else match Operator.ofSymbol? piece with
    | some op => some (.operator op)
    | none => wordToken? piece

/-- The tokens of pieces.  A minus sign in a `fresh` place is a sign unless a space follows. -/
def tokens? : Bool → List (List Char) → Option (List Token)
  | _, [] => some []
  | fresh, piece :: rest =>
    if piece = [' '] then tokens? true rest
    else do
      let isSign := piece = ['-'] ∧ fresh ∧ rest ≠ [] ∧ rest.head? ≠ some [' ']
      let token ← if isSign then some .sign else token? piece
      let tokens ← tokens? (piece = ['(']) rest
      return token :: tokens

/-! ## The machine -/

/-- What waits for an expression to be read. -/
inductive Frame where
  /-- An open parenthesis. -/
  | group
  /-- A minus sign. -/
  | negation
  /-- An operator with its left operand. -/
  | left (op : Operator) (a : Expr)
  /-- A primitive with one input. -/
  | argument (primitive : String)
  /-- A primitive with two inputs. -/
  | first (primitive : String)
  /-- A primitive with two inputs that has the first one. -/
  | second (primitive : String) (x : Expr)
deriving DecidableEq, Repr

/-- How strongly a frame holds the expression it waits for.  Parentheses and the space between the
inputs of a primitive are stronger than any operator, and so they are the last to give way. -/
def Frame.level : Frame → Nat
  | negation => Order.unaryNegation.level
  | left op _ => op.order.level
  | argument _ | second _ _ => Order.procedure.level
  | group | first _ => Order.loose.level

/-- A frame around the expression it has waited for. -/
def Frame.close : Frame → Expr → Expr
  | negation, e => .negated e
  | left op a, e => .operation op a e
  | argument f, e => .unary f e
  | second f x, e => .binary f x e
  | group, e | first _, e => e

/-- Close all frames up to a level around an expression. -/
def settle (level : Nat) : Expr → List Frame → Expr × List Frame
  | e, [] => (e, [])
  | e, f :: fs => if f.level ≤ level then settle level (f.close e) fs else (e, f :: fs)

/-- A state of the machine. -/
inductive Reading where
  /-- An expression has to begin. -/
  | due (frames : List Frame)
  /-- An expression has been read, and an operator may carry it on. -/
  | read (e : Expr) (frames : List Frame)
deriving DecidableEq, Repr

/-- Begin an expression. -/
def begin (fs : List Frame) : Token → Option Reading
  | .literal digits => some (.read (.literal digits) fs)
  | .named name => some (.read (.named name) fs)
  | .word w =>
    if w ∈ unaryPrimitives then some (.due (.argument w :: fs))
    else if w ∈ binaryPrimitives then some (.due (.first w :: fs))
    else none
  | .sign => some (.due (.negation :: fs))
  | .opening => some (.due (.group :: fs))
  | .operator _ | .closing => none

/-- Read one token.  A token that begins an expression ends the first input of a primitive. -/
def step : Reading → Token → Option Reading
  | .due fs, t => begin fs t
  | .read e fs, .operator op =>
    let (a, rest) := settle op.order.level e fs
    some (.due (.left op a :: rest))
  | .read e fs, .closing =>
    match settle Order.procedure.level e fs with
    | (x, .group :: rest) => some (.read x rest)
    | _ => none
  | .read e fs, t =>
    match settle Order.procedure.level e fs with
    | (x, .first f :: rest) => begin (.second f x :: rest) t
    | _ => none

/-- Read tokens. -/
def run (r : Reading) : List Token → Option Reading
  | [] => some r
  | t :: ts => (step r t).bind (run · ts)

/-- The expression that has been read, unless something is missing. -/
def Reading.result? : Reading → Option Expr
  | due _ => none
  | read e fs =>
    match settle Order.procedure.level e fs with
    | (x, []) => some x
    | _ => none

/-- The expression that a text is. -/
def read? (s : String) : Option Expr := do
  let tokens ← tokens? true (pieces s.toList)
  let reading ← run (.due []) tokens
  reading.result?

/-! ## Re-association -/

/-- Two expressions differ in nothing but how chains of one associative operator are nested. -/
inductive Reassociates : Expr → Expr → Prop
  | refl (e : Expr) : Reassociates e e
  | symm {e e' : Expr} : Reassociates e e' → Reassociates e' e
  | trans {e e' e'' : Expr} : Reassociates e e' → Reassociates e' e'' → Reassociates e e''
  | rotate {op : Operator} (h : op.order.isAssociative) (a b c : Expr) :
    Reassociates (.operation op a (.operation op b c)) (.operation op (.operation op a b) c)
  | negated {e e' : Expr} : Reassociates e e' → Reassociates (.negated e) (.negated e')
  | operation (op : Operator) {a a' b b' : Expr} :
    Reassociates a a' → Reassociates b b' → Reassociates (.operation op a b) (.operation op a' b')
  | unary (f : String) {x x' : Expr} : Reassociates x x' → Reassociates (.unary f x) (.unary f x')
  | binary (f : String) {x x' y y' : Expr} :
    Reassociates x x' → Reassociates y y' → Reassociates (.binary f x y) (.binary f x' y')

-- The minus sign is an operator before a space, and a sign before anything else.
example : read? "2 -1" = none ∧
    read? "2 - 1" = some (.operation .minus (.literal "2") (.literal "1")) ∧
    read? "power 2 -1" = some (.binary "power" (.literal "2") (.negated (.literal "1"))) := by
  decide +kernel

end Turtle.Logo
