import Turtle.Xml.Character

/-!
# Tokens of XML

An XML text is made of a few marks and of the characters between them.
-/

namespace Turtle.Xml

/-- The two kinds of quotation marks. -/
inductive Quote where
  | single
  | double
deriving DecidableEq, Repr

/-- A quotation mark. -/
def Quote.char : Quote → Char
  | single => '\''
  | double => '"'

/-- A mark, or a character that belongs to none. -/
inductive Token where
  | character (c : Char)
  /-- The start of a tag that opens an element. -/
  | opening
  /-- The start of a tag that closes an element. -/
  | closing
  | tagEnd
  /-- The end of a tag that opens and closes an element. -/
  | emptyTagEnd
  | comment
  | commentEnd
  /-- The start of text in which nothing is markup. -/
  | verbatim
  | verbatimEnd
  | instruction
  | instructionEnd
  | doctype
  /-- The start of a declaration within a document type. -/
  | declaration
  | reference
  | referenceEnd
  | equals
  | quote (q : Quote)
deriving DecidableEq, Repr

namespace Token

/-- How a token is written. -/
def text : Token → List Char
  | character c => [c]
  | opening => ['<']
  | closing => ['<', '/']
  | tagEnd => ['>']
  | emptyTagEnd => ['/', '>']
  | comment => ['<', '!', '-', '-']
  | commentEnd => ['-', '-', '>']
  | verbatim => "<![CDATA[".toList
  | verbatimEnd => [']', ']', '>']
  | instruction => ['<', '?']
  | instructionEnd => ['?', '>']
  | doctype => "<!DOCTYPE".toList
  | declaration => ['<', '!']
  | reference => ['&']
  | referenceEnd => [';']
  | equals => ['=']
  | quote q => [q.char]

/-- The token of a single character that no longer mark begins with. -/
def ofChar (c : Char) : Token :=
  match c with
  | '>' => tagEnd
  | '=' => equals
  | '"' => quote .double
  | '\'' => quote .single
  | '&' => reference
  | ';' => referenceEnd
  | c => character c

/-- Whether a token is white space. -/
def isSpace : Token → Bool
  | character c => Xml.isSpace c
  | _ => false

end Token

end Turtle.Xml
