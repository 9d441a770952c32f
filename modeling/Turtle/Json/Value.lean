import Turtle.Json.Numeral

/-!
# Documents

The value of a JSON text. The members of an object are in the order of the text, and no key occurs
twice.
-/

namespace Turtle

/-- A JSON value. -/
inductive Json where
  | null
  | bool (b : Bool)
  | number (n : Json.Numeral)
  | text (s : String)
  | array (items : List Json)
  | object (members : List (String × Json))
deriving Inhabited

namespace Json

/-- The member of an object under a key; other values have no members. -/
def member? (key : String) : Json → Option Json
  | object members => members.lookup key
  | _ => none

/-- The text, if the value is one. -/
def text? : Json → Option String
  | text s => some s
  | _ => none

/-- The text under a key. -/
def textOf? (key : String) (j : Json) : Option String := (j.member? key).bind text?

theorem mem_of_lookup {key : String} {j : Json} {members : List (String × Json)}
    (h : members.lookup key = some j) : (key, j) ∈ members := by
  induction members with
  | nil => simp at h
  | cons entry rest ih =>
    obtain ⟨k, v⟩ := entry
    simp only [List.lookup_cons] at h
    split at h
    · simp_all
    · exact List.mem_cons_of_mem _ (ih h)

theorem sizeOf_of_mem {key : String} {j : Json} {members : List (String × Json)}
    (h : (key, j) ∈ members) : sizeOf j < sizeOf members := by
  have := List.sizeOf_lt_of_mem h
  simp only [Prod.mk.sizeOf_spec] at this
  omega

/-- A member is smaller than its object. -/
theorem sizeOf_member {key : String} {j k : Json} (h : j.member? key = some k) :
    sizeOf k < sizeOf j := by
  cases j with
  | object members =>
    have := sizeOf_of_mem (mem_of_lookup h)
    simp only [object.sizeOf_spec]
    omega
  | _ => simp [member?] at h

end Json

end Turtle
