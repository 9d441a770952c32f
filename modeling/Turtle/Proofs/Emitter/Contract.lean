import Mathlib.Data.List.SplitBy
import Turtle.Proofs.Compile.Following
import Turtle.Proofs.Emitter.Standard
import Turtle.Proofs.Text.Guarded

/-!
# What emitters ask for and write

Whatever a standard emitter writes is put together from two kinds of parts: literal parts, which are
spelled with the words of one short vocabulary, and data, which are the answers to its requests and
what its block holds.  And whatever it asks for, it asks for one of five helpers, with the lines of
that helper.  Both are read off a recipe by following it for every answer.
-/

namespace Turtle

namespace Logo

/-! ## Words -/

/-- The primitives that emitters and helpers spell out. -/
def vocabulary : List String := [
  "abs", "and", "arccos", "arcsin", "arctan", "beforep", "cascade", "cos", "count", "definedp",
  "emptyp", "end", "exp", "false", "find", "first", "for", "foreach", "greaterp", "if", "ifelse",
  "ignore", "int", "item", "last", "lessp", "list", "listp", "ln", "localmake", "log10",
  "lowercase", "lput", "make", "map", "modulo", "not", "numberp", "op", "or", "pi", "pick",
  "power", "pr", "random", "readword", "repeat", "reverse", "round", "sin", "sort", "sqrt",
  "stop", "tan", "to", "true", "until", "uppercase", "while", "word"]

/-- The variables that helpers have for themselves, and the quoted space. -/
def ownWords : List String := ["res", "cip", "caseignoredp", "\\"]

/-- The characters between words. -/
def isBreak (c : Char) : Bool :=
  [' ', '\n', '[', ']', '(', ')', '+', '-', '*', '/', '=', '<', '>'].contains c

/-- The words of a text, and what is between them. -/
def wordsOf (s : List Char) : List (List Char) := s.splitBy fun c d ↦ !isBreak c && !isBreak d

/-- Whether a text is a plain decimal or its beginning. -/
def isCipher (s : List Char) : Bool := s.all fun c ↦ c.isDigit || c == '.'

/-- Whether a word is a primitive of the vocabulary or no name of a procedure at all: a break, a
number, the value of a variable, a slot of a template, or a quoted word. -/
def isKnownWord : List Char → Bool
  | ':' :: _ => true
  | '?' :: s | '#' :: s => isCipher s
  | '"' :: s =>
    let quoted := String.ofList (s.dropWhile (· == '"'))
    quoted == "" || vocabulary.contains quoted || ownWords.contains quoted
  | w => w.all isBreak || isCipher w || vocabulary.contains (String.ofList w)

/-- Whether all words of a text are known. -/
def isSpelled (s : String) : Bool := (wordsOf s.toList).all isKnownWord

/-- Whether all words of a text are known and it has no semicolon. -/
def isPlain (s : String) : Bool := isSpelled s && !s.toList.contains ';'

end Logo

open Logo (Order isSpelled isPlain)

/-- A text is put together from what is spelled and from data. -/
inductive Written (data : String → Prop) : String → Prop
  | literal {s : String} (h : isSpelled s) : Written data s
  | data {s : String} (h : data s) : Written data s
  | quoted {s : String} (h : data s) : Written data (Logo.quote s)
  | append {s t : String} (hs : Written data s) (ht : Written data t) : Written data (s ++ t)

/-- The snippets that the options supply for a block. -/
def View.snippets (v : View) : List (Option String) :=
  [v.options.beforeOf v.head.id, v.options.afterOf v.head.id, v.options.trapOf v.head.id]

namespace Written

variable {data : String → Prop}

theorem empty : Written data "" := .literal (by decide)

theorem join {l : List String} (h : ∀ s ∈ l, Written data s) : Written data (String.join l) :=
  Texture.join ⟨empty, .append⟩ h

end Written

/-! ## Compositions -/

/-- A text is put together from data and from what is spelled without semicolons. -/
inductive Composed (data : String → Prop) : String → Prop
  | literal {s : String} (h : isPlain s) : Composed data s
  | data {s : String} (h : data s) : Composed data s
  | quoted {s : String} (h : data s) : Composed data (Logo.quote s)
  | append {s t : String} (hs : Composed data s) (ht : Composed data t) : Composed data (s ++ t)

namespace Composed

variable {data : String → Prop} {s : String}

theorem empty : Composed data "" := .literal (by decide)

theorem space : Composed data " " := .literal (by decide)

theorem texture : Texture (Composed data) := ⟨empty, .append⟩

theorem written (h : Composed data s) : Written data s := by
  induction h with
  | literal h => exact .literal (Bool.and_eq_true_iff.1 h).1
  | data h => exact .data h
  | quoted h => exact .quoted h
  | append _ _ hs ht => exact hs.append ht

/-- What is put together opens no comment if the data open none. -/
theorem guarded (h : Composed data s) (hdata : ∀ s, data s → Guarded s) : Guarded s := by
  induction h with
  | literal h =>
    refine guarded_of_notMem fun hmem ↦ ?_
    have hplain := (Bool.and_eq_true_iff.1 h).2
    rw [List.contains_iff_mem.2 hmem] at hplain
    cases hplain
  | data h => exact hdata _ h
  | quoted => exact .quote _
  | append _ _ hs ht => exact hs.append ht

end Composed

namespace Emitter

/-- The fields whose choices are primitives. -/
def choiceFields : List (String × String) := [
  ("logo_move", "OP"), ("logo_rotate", "DIRECTION"), ("logo_circle", "METHOD"), ("logo_pen", "OP"),
  ("logo_setcolor", "WHICH"), ("logo_getcolor", "WHICH"), ("logo_mode", "WHICH"),
  ("logo_screen", "WHICH"), ("logo_set", "WHICH"), ("logo_get", "WHICH")]

end Emitter

/-- The data that a block of a kind supplies, with the options.  Choices are only taken from the
fields that offer them. -/
inductive View.Offers (v : View) (kind : String) : String → Prop
  | number (x : Binary64) : Offers v kind (Number.write x)
  | integer (n : Int) : Offers v kind (toString n)
  | word (field : String) : Offers v kind (Logo.quote (v.field field))
  | lines (field : String) : Offers v kind (Logo.quoteLines (v.field field))
  | choice {field : String} (h : (kind, field) ∈ Emitter.choiceFields) :
    Offers v kind (lower (v.field field))
  | indent : Offers v kind v.options.indent
  | snippet {s : Option String} (h : s ∈ v.snippets) : Offers v kind (s.getD "")
  | snippetLines {s : Option String} (h : s ∈ v.snippets) : Offers v kind (v.options.indented s)

/-- The data that a block itself and the options supply: what any kind of block offers, the choice in
any field, and the snippets around a definition. -/
inductive View.Data (v : View) : String → Prop
  | offered {kind s : String} (h : v.Offers kind s) : Data v s
  | choice (field : String) : Data v (lower (v.field field))
  | surroundingLines : Data v (prefixLines v.options.indent
    ((v.options.beforeOf v.head.id).getD "" ++ (v.options.afterOf v.head.id).getD ""))

/-! ## Recipes -/

namespace Emitter

/-- The helpers, with their lines. -/
def helpers : List (String × List String) := [
  ("listsRepeat", repeatValue), ("listsIndexOf", searchList), ("listsGetSort", sortList),
  ("wordLetterFromEnd", letterFromEnd), ("textToTitleCase", titleCase)]

end Emitter

/-- A request that an emitter may make: a helper is asked for with its lines. -/
def Request.Known : Request → Prop
  | helper key lines => (key, lines) ∈ Emitter.helpers
  | value _ _ | body _ | «variable» _ | procedure _ => True

namespace Recipe

variable {α β : Type} {data : String → Prop} {Q : α → Prop}

/-- The recipe makes known requests, registers nothing, and ends in a result of which `Q` holds,
provided that all answers are data. -/
def Meets (data : String → Prop) (Q : α → Prop) : Recipe α → Prop
  | done a => Q a
  | fail _ => True
  | ask q next => q.Known ∧ ∀ answer, data answer → (next answer).Meets data Q
  | hoist _ _ _ => False

theorem meets_bind {r : Recipe α} {f : α → Recipe β} {Q : β → Prop} :
    (r >>= f).Meets data Q ↔ r.Meets data fun a ↦ (f a).Meets data Q := by
  induction r with
  | done a => exact Iff.rfl
  | fail e => exact Iff.rfl
  | ask q next ih => exact and_congr_right fun _ ↦ forall_congr' fun a ↦ imp_congr_right fun _ ↦ ih a
  | hoist name code next ih => exact Iff.rfl

theorem Meets.mono {r : Recipe α} {Q' : α → Prop} (h : r.Meets data Q) (himp : ∀ a, Q a → Q' a) :
    r.Meets data Q' := by
  induction r with
  | done a => exact himp a h
  | fail e => trivial
  | ask q next ih => exact ⟨h.1, fun answer hanswer ↦ ih answer (h.2 answer hanswer)⟩
  | hoist name code next ih => exact h

/-- Every recipe that goes on with what is written. -/
theorem meets_operand {input : String} {outer : Order} {default : String}
    (hdefault : isPlain default) {f : String → Recipe α}
    (h : ∀ code, Composed data code → (f code).Meets data Q) :
    (operand input outer default >>= f).Meets data Q := by
  refine ⟨trivial, fun answer hanswer ↦ h _ ?_⟩
  split
  · exact .literal hdefault
  · exact .data hanswer

theorem meets_variable {nameOrId : String} {f : String → Recipe α}
    (h : ∀ name, data name → (f name).Meets data Q) :
    (variableName nameOrId >>= f).Meets data Q := ⟨trivial, h⟩

theorem meets_procedure {name : String} {f : String → Recipe α}
    (h : ∀ chosen, data chosen → (f chosen).Meets data Q) :
    (procedureName name >>= f).Meets data Q := ⟨trivial, h⟩

theorem meets_body {input : String} {f : String → Recipe α}
    (h : ∀ code, data code → (f code).Meets data Q) : (body input >>= f).Meets data Q :=
  ⟨trivial, h⟩

theorem meets_helper {key : String} {lines : List String} (hknown : (key, lines) ∈ Emitter.helpers)
    {f : String → Recipe α} (h : ∀ name, data name → (f name).Meets data Q) :
    (helper key lines >>= f).Meets data Q := ⟨hknown, h⟩

theorem meets_mapM_self {γ : Type} {xs : List γ} {g : γ → Recipe β} {P : β → Prop}
    (hg : ∀ x ∈ xs, (g x).Meets data P) : (xs.mapM g).Meets data fun bs ↦ ∀ b ∈ bs, P b := by
  induction xs with
  | nil => exact nofun
  | cons x xs ih =>
    rw [List.mapM_cons, meets_bind]
    refine (hg x List.mem_cons_self).mono fun b hb ↦ ?_
    rw [meets_bind]
    refine (ih fun y hy ↦ hg y (List.mem_cons_of_mem x hy)).mono fun bs hbs ↦ ?_
    exact List.forall_mem_cons.2 ⟨hb, hbs⟩

theorem meets_mapM {γ : Type} {xs : List γ} {g : γ → Recipe β} {P : β → Prop}
    (hg : ∀ x ∈ xs, (g x).Meets data P) {f : List β → Recipe α}
    (h : ∀ bs : List β, (∀ b ∈ bs, P b) → (f bs).Meets data Q) :
    (xs.mapM g >>= f).Meets data Q := meets_bind.2 ((meets_mapM_self hg).mono h)

end Recipe

/-- What a block leaves by itself. -/
def Emission.text : Emission → String
  | statement code | value code _ => code
  | hoisted => ""

namespace Emitter

/-- An emitter makes known requests, registers nothing, and writes nothing but what is spelled and
data. -/
def Keeps (e : Emitter) : Prop :=
  ∀ (v : View) (data : String → Prop), (∀ s, v.Data s → data s) →
    (e.emit v).Meets data fun emission ↦ Written data emission.text

/-- The emitter of a kind makes known requests, registers nothing, and puts what it writes together
from what is spelled without semicolons and from data. -/
def Composes (entry : String × Emitter) : Prop :=
  ∀ (v : View) (data : String → Prop), (∀ s, v.Offers entry.1 s → data s) →
    (entry.2.emit v).Meets data fun emission ↦ Composed data emission.text

theorem Composes.keeps {entry : String × Emitter} (h : Composes entry) : entry.2.Keeps :=
  fun v data hv ↦ (h v data fun s hs ↦ hv s (.offered hs)).mono fun _ ↦ Composed.written

end Emitter

end Turtle
