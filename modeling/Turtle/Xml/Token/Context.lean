import Turtle.Xml.Token

/-!
# From characters to tokens

What a character stands for depends on the characters before it: in a comment, for one, only the
mark that ends it is a mark. A `Context` is what has to be known of them, and `Context.read` takes
one more character. Tags are told from each other only later, so a mark is found in the value of an
attribute as well.
-/

namespace Turtle.Xml

/-- Where the text outside of longer marks stands. -/
inductive Ground where
  | content
  /-- In the document type. -/
  | doctype
deriving DecidableEq, Repr

/-- What the characters before are the beginning of. -/
inductive Mode where
  /-- Nothing that changes what a character means. -/
  | plain
  /-- Behind `<`. -/
  | bracket
  /-- Behind `<!`. -/
  | exclamation
  /-- Within a mark, with the characters that are left of it. -/
  | spelling (left : List Char) (mark : Token)
  /-- Behind `/`. -/
  | slash
  /-- Behind `]`, or behind more than one of them. -/
  | square (several : Bool)
  | comment
  /-- Behind `-` in a comment, or behind two of them. -/
  | hyphen (two : Bool)
  | verbatim
  /-- Behind `]` in verbatim text, or behind more than one of them. -/
  | verbatimSquare (several : Bool)
  | instruction
  /-- Behind `?` in an instruction. -/
  | question
  /-- In a declaration of the document type. -/
  | declaration
  /-- In a quotation of such a declaration. -/
  | quotation (q : Quote)
deriving DecidableEq, Repr

/-- What has to be known of the characters before. -/
structure Context where
  ground : Ground := .content
  mode : Mode := .plain
deriving DecidableEq, Repr

/-- A character in plain text. The document type ends at the first `>`. -/
def Ground.read (c : Char) : Ground → List Token × Context
  | .content =>
    if c = '<' then ([], ⟨.content, .bracket⟩)
    else if c = '/' then ([], ⟨.content, .slash⟩)
    else if c = ']' then ([], ⟨.content, .square false⟩)
    else ([.ofChar c], ⟨.content, .plain⟩)
  | .doctype =>
    if c = '<' then ([], ⟨.doctype, .bracket⟩)
    else if c = '>' then ([.tagEnd], ⟨.content, .plain⟩)
    else if c = '=' then ([.character c], ⟨.doctype, .plain⟩)
    else ([.ofChar c], ⟨.doctype, .plain⟩)

namespace Context

/-- A character in plain text, behind some tokens. -/
def behind (tokens : List Token) (x : Context) (c : Char) : List Token × Context :=
  let (more, x) := x.ground.read c
  (tokens ++ more, x)

/-- The context behind a mark of several letters. -/
def after (x : Context) : Token → Context
  | .comment => { x with mode := .comment }
  | .verbatim => { x with mode := .verbatim }
  | .doctype => ⟨.doctype, .plain⟩
  | _ => { x with mode := .plain }

/-- Take a character behind `<`. -/
def readBracket (x : Context) (c : Char) : Option (List Token × Context) :=
  if c = '?' then some ([.instruction], { x with mode := .instruction })
  else if c = '/' then some ([.closing], { x with mode := .plain })
  else if c = '!' then some ([], { x with mode := .exclamation })
  else if isSpace c || isNameChar c then some (x.behind [.opening] c)
  else none

/-- Take a character behind `<!`. Declarations other than those of a comment, of verbatim text and
of a document type stand in a document type only. -/
def readExclamation (x : Context) (c : Char) : Option (List Token × Context) :=
  if c = '-' then some ([], { x with mode := .spelling ['-'] .comment })
  else if c = '[' then some ([], { x with mode := .spelling "CDATA[".toList .verbatim })
  else if c = 'D' then some ([], { x with mode := .spelling "OCTYPE".toList .doctype })
  else if x.ground = .doctype ∧ c ∈ ['E', 'A', 'N'] then
    some ([.declaration, .character c], { x with mode := .declaration })
  else none

/-- Take a character of an instruction. -/
def readInstruction (x : Context) (c : Char) : List Token × Context :=
  if c = '?' then ([], { x with mode := .question })
  else if c = '<' then ([.opening], { x with mode := .instruction })
  else ([.ofChar c], { x with mode := .instruction })

/-- Take a character of a declaration in the document type. -/
def readDeclaration (x : Context) (c : Char) : Option (List Token × Context) :=
  match Token.ofChar c with
  | .tagEnd => some ([.tagEnd], ⟨.doctype, .plain⟩)
  | .quote q => some ([.quote q], { x with mode := .quotation q })
  | .equals => some ([.character c], x)
  | token => if c = '<' then none else some ([token], x)

/-- Take a character. There is no result if it cannot follow the ones before. -/
def read (x : Context) (c : Char) : Option (List Token × Context) :=
  let square := Token.character ']'
  match x.mode with
  | .plain => some (x.behind [] c)
  | .bracket => x.readBracket c
  | .exclamation => x.readExclamation c
  | .spelling left mark =>
    if left = [c] then some ([mark], x.after mark)
    else if left.head? = some c then some ([], { x with mode := .spelling left.tail mark })
    else none
  | .slash =>
    if c = '>' then some ([.emptyTagEnd], { x with mode := .plain })
    else some (x.behind [.character '/'] c)
  | .square several =>
    if c = ']' then
      some (if several then [square] else [], { x with mode := .square true })
    else if several then
      if c = '>' then some ([.verbatimEnd], { x with mode := .plain })
      else some (x.behind [square, square] c)
    else some (x.behind [square] c)
  | .comment =>
    if c = '-' then some ([], { x with mode := .hyphen false }) else some ([.character c], x)
  | .hyphen two =>
    if two then
      if c = '>' then some ([.commentEnd], { x with mode := .plain }) else none
    else if c = '-' then some ([], { x with mode := .hyphen true })
    else some ([.character '-', .character c], { x with mode := .comment })
  | .verbatim =>
    if c = ']' then some ([], { x with mode := .verbatimSquare false })
    else some ([.character c], x)
  | .verbatimSquare several =>
    if c = ']' then
      some (if several then [square] else [], { x with mode := .verbatimSquare true })
    else if several then
      if c = '>' then some ([.verbatimEnd], { x with mode := .plain })
      else some ([square, square, .character c], { x with mode := .verbatim })
    else some ([square, .character c], { x with mode := .verbatim })
  | .instruction => some (x.readInstruction c)
  | .question =>
    if c = '>' then some ([.instructionEnd], { x with mode := .plain })
    else
      let (tokens, x) := x.readInstruction c
      some (.character '?' :: tokens, x)
  | .declaration => x.readDeclaration c
  | .quotation q =>
    if c = q.char then some ([.quote q], { x with mode := .declaration })
    else some ([.character c], x)

end Context

end Turtle.Xml
