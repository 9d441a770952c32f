import Turtle.Xml.Document

/-!
# Documents without entities

The texts of entities are read in place of references to them, so that a document may take more
steps to read than it has characters.  A document that refers to no entity is read in one pass over
its characters.
-/

namespace Turtle.Xml

/-- Read what is left of a document, unless a text is to be inserted. -/
def Reader.readPlain? (r : Reader) (x : Context) : List Char → Option Element
  | [] => if x = {} then r.result else none
  | c :: s => do
    let (tokens, x) ← x.read c
    let r ← tokens.foldlM Reader.read? r
    if r.inserted = [] then r.readPlain? x s else none

/-- A character after which nothing is inserted. -/
theorem Reader.readAll?_cons {r r' : Reader} {x x' : Context} {c : Char} {tokens : List Token}
    (hx : x.read c = some (tokens, x')) (hr : tokens.foldlM Reader.read? r = some r')
    (hinserted : r'.inserted = []) (s : List Char) :
    r.readAll? x { rest := c :: s } = r'.readAll? x' { rest := s } := by
  have hinsert : ({ rest := s } : Unread).insert? r'.inserted = some { rest := s } := by
    rw [hinserted]
    rfl
  rw [readAll?]
  split
  case h_1 hn => cases hn
  case h_2 hn =>
    cases hn
    rw [hx]
    simp only
    rw [hr]
    simp only
    split
    case h_1 hi => cases hinsert.symm.trans hi
    case h_2 hi =>
      cases hinsert.symm.trans hi
      rw [← hinserted]

/-- By induction on what is left: a document into which nothing is inserted is read character by
character. -/
theorem Reader.readAll?_of_readPlain? {r : Reader} {x : Context} {s : List Char} {e : Element}
    (h : r.readPlain? x s = some e) : r.readAll? x { rest := s } = some e := by
  induction s generalizing r x with
  | nil =>
    rw [readAll?]
    exact h
  | cons c s ih =>
    obtain ⟨⟨tokens, x'⟩, hx, h⟩ := Option.bind_eq_some_iff.1 h
    obtain ⟨r', hr, h⟩ := Option.bind_eq_some_iff.1 h
    split at h
    case isTrue hinserted =>
      rw [readAll?_cons hx hr hinserted]
      exact ih h
    case isFalse => cases h

/-- Read the characters of a document, unless it refers to an entity. -/
def Element.readPlain? (s : List Char) : Option Element := do
  let (version, rest) ← prolog? s
  Reader.readPlain? { version } {} rest

/-- A document that refers to no entity is read in one pass. -/
theorem Element.read?_of_readPlain? {s : String} {e : Element}
    (h : readPlain? s.toList = some e) : read? s = some e := by
  obtain ⟨⟨version, rest⟩, hprolog, h⟩ := Option.bind_eq_some_iff.1 h
  rw [read?, hprolog]
  exact Reader.readAll?_of_readPlain? h

end Turtle.Xml
