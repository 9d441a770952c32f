/-!
# What is left of a text

Reading a document, the texts of entities are put in front of what is left of it. `measure_lt` says
that reading comes to an end all the same, because only so many texts may be inserted before the
document itself is read from again.
-/

namespace Turtle.Xml

/-- What is left to read of a document. -/
structure Unread where
  /-- What is left of the texts of entities, which comes first. -/
  inserted : List Char := []
  /-- The number of texts inserted since the document itself was read from. -/
  insertions : Nat := 0
  /-- What is left of the document itself. -/
  rest : List Char

namespace Unread

/-- How many texts may be inserted before the document itself is read from again. -/
def maxInsertions : Nat := 10

/-- How many characters of other entities may be left when a text is inserted. -/
def maxInserted : Nat := 1000000

/-- The next character, and what is left then. -/
def next? (s : Unread) : Option (Char × Unread) :=
  match s.inserted, s.rest with
  | c :: inserted, _ => some (c, { s with inserted })
  | [], c :: rest => some (c, { rest })
  | [], [] => none

/-- Put a text in front. An entity that refers to itself is stopped by the limits. -/
def insert? (s : Unread) (text : List Char) : Option Unread :=
  if text = [] then some s
  else if s.insertions < maxInsertions ∧ s.inserted.length ≤ maxInserted then
    some { s with inserted := text ++ s.inserted, insertions := s.insertions + 1 }
  else none

/-- The quantities that reading uses up: the document, then the insertions that are allowed, then
the text inserted. -/
def measure (s : Unread) : Nat × Nat × Nat :=
  (s.rest.length, maxInsertions - s.insertions, s.inserted.length)

/-- A character and an insertion use up some of what is left. -/
theorem measure_lt {s t u : Unread} {c : Char} {text : List Char} (hn : s.next? = some (c, t))
    (hi : t.insert? text = some u) :
    Prod.Lex (· < ·) (Prod.Lex (· < ·) (· < ·)) u.measure s.measure := by
  have hu : u = t ∨ (u.rest = t.rest ∧ u.insertions = t.insertions + 1 ∧
      t.insertions < maxInsertions) := by
    unfold insert? at hi
    split at hi
    · exact .inl (Option.some.inj hi).symm
    · split at hi
      · rename_i h
        cases hi
        exact .inr ⟨rfl, rfl, h.1⟩
      · simp at hi
  unfold next? at hn
  split at hn
  · rename_i hs
    cases hn
    rcases hu with rfl | ⟨hr, hk, hlt⟩
    · rw [measure, measure, hs]
      exact .right _ (.right _ (Nat.lt_succ_self _))
    · rw [measure, measure, hr, hk]
      exact .right _ (.left _ _ (Nat.sub_succ_lt_self _ _ hlt))
  · rename_i hs
    cases hn
    have hr : u.rest.length < s.rest.length := by
      rcases hu with rfl | ⟨hr, -, -⟩ <;> simp_all
    exact .left _ _ hr
  · simp at hn

end Unread

end Turtle.Xml
