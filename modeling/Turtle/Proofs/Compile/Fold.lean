import Turtle.Proofs.Compile.Following
import Turtle.Proofs.Compile.Session
import Turtle.Proofs.Number.Characters
import Turtle.Proofs.Number.Finite
import Turtle.Proofs.Number.Literal

/-!
# Positions that are computed on the spot

A position that is to be adjusted and that is a literal is computed by the compiler.  What it is
computed to is a number if all digits of the literal are those of ASCII, and `NaN` otherwise.
-/

namespace Turtle

open Logo (Order)

namespace Compiler

variable (c : Compiler) {b : Block} {input code : String} {delta : Int} {negate : Bool}
  {order : Order} {p q : Pass}

/-- How far a position is moved: one that is counted from zero takes one step more. -/
def shift (delta : Int) : Int := if c.options.oneBased then delta else delta + 1

/-- The expression connected to an input, or the first position, as an operand of what moves a
position. -/
def position (b : Block) (input : String) (delta : Int) (negate : Bool) (order : Order) :
    PassM String :=
  (Recipe.operand input (adjustmentOrder (c.shift delta) negate order)
    (if c.options.oneBased then "1" else "0")).run c.options.indent (c.neighbours b)

/-- A position to be adjusted is computed if it is a literal. -/
theorem index_of_literal (hadjusted : ¬ (c.shift delta = 0 ∧ negate = false))
    (hposition : c.position b input delta negate order p = .ok code q)
    (hliteral : Number.isLiteral code) :
    c.index b input delta negate order p =
      .ok (Number.write (if negate then -(Number.read code + Binary64.ofInt (c.shift delta))
        else Number.read code + Binary64.ofInt (c.shift delta))) q := by
  have hfold : (c.shift delta == 0 && !negate) = false := by
    rw [← Bool.not_eq_true, Bool.and_eq_true, beq_iff_eq, Bool.not_eq_true']
    exact hadjusted
  simp only [index, adjustedIndex]
  rw [Recipe.run_bind]
  refine (PassM.bind_ok hposition _).trans ?_
  change (if c.shift delta == 0 && !negate then _ else _ : Recipe String).run _ _ q = _
  rw [hfold, if_neg Bool.false_ne_true, if_pos hliteral]
  rfl

/-! ## Emitters of a host -/

/-- The standard emitters, and a host's emitter that writes the same expression for every block. -/
def writing (code : String) : Compiler :=
  ({} : Compiler).register "code" (.value fun _ ↦ pure (code, .atomic))

/-- A block that asks for a position, and is given what the host's emitter writes. -/
def asking : Block where
  head := { kind := "text_charAt" }
  inputs := [{ name := "AT", shape := .value, target := some { head := { kind := "code" } } }]

theorem position_writing (hcode : code ≠ "") (delta : Int) (negate : Bool) (order : Order)
    (p : Pass) : (writing code).position asking "AT" delta negate order p = .ok code p := by
  have hblock : (writing code).block { head := { kind := "code" } } false true p =
      .ok (.value code .atomic) p := by
    rw [block_value _ rfl rfl rfl]
    rfl
  have hvalue (outer : Order) : (writing code).value asking "AT" outer p = .ok code p := by
    refine (PassM.bind_ok hblock _).trans ?_
    rw [plug, Logo.needsParens_inner_atomic, Bool.and_false, if_neg Bool.false_ne_true]
    rfl
  refine (Recipe.run_operand (hvalue _) _ pure).trans ?_
  rw [beq_false_of_ne hcode]
  rfl

end Compiler

/-! ## Literals and numbers -/

/-- A text is taken for a literal exactly if it has the form of one, in digits of any script.  It is
a number, and what a position that it stands for is computed to is one, exactly if its decimal
digits are those of ASCII.  A position is moved by an integer of 64 bits. -/
theorem literals_as_numbers (s : String) :
    (Number.isLiteral s ↔ Number.Spaced s.toList) ∧
      (Number.isLiteral s →
        ((Binary64.read? (Text.trim s.toList)).isSome ↔ Number.HasPlainDigits s.toList) ∧
        (Number.read s = .nan ↔ ¬ Number.HasPlainDigits s.toList) ∧
        ∀ (c : Compiler) (b : Block) (input : String) (delta : Int) (negate : Bool) (order : Order)
          (p q : Pass), (c.shift delta).natAbs ≤ 2 ^ 63 →
            ¬ (c.shift delta = 0 ∧ negate = false) →
            c.position b input delta negate order p = .ok s q →
            ∃ text, c.index b input delta negate order p = .ok text q ∧
              (text = "NaN" ↔ ¬ Number.HasPlainDigits s.toList)) := by
  constructor
  · exact Number.isLiteral_iff
  intro hliteral
  have hread := Number.read_eq_nan_iff hliteral
  refine ⟨?_, hread, ?_⟩
  · rw [← Number.hasPlainDigits_trim]
    exact Number.isSome_read?_iff (Number.isLiteral_iff_signed.1 hliteral)
  · intro c b input delta negate order p q hrange hadjusted hposition
    refine ⟨_, c.index_of_literal hadjusted hposition hliteral, ?_⟩
    have hmoved := (Binary64.add_ofInt_eq_nan_iff hrange).trans hread
    rw [Number.write_eq_nan_iff]
    cases negate with
    | true => exact Binary64.neg_eq_nan_iff.trans hmoved
    | false => exact hmoved

/-- Twelve is a number in ASCII, but not with a digit of another script. -/
theorem literals_as_numbers_twelve :
    Number.isLiteral " -12 " ∧ Number.isLiteral "1\u0662" ∧
      (Binary64.read? "-12".toList).isSome ∧ Number.read "1\u0662" = .nan ∧
      ∃ text, (Compiler.writing " -12 ").index Compiler.asking "AT" 1 true .atomic {} =
        .ok text {} ∧ text ≠ "NaN" := by
  have hplain : Number.HasPlainDigits " -12 ".toList := by decide
  have hmixed : ¬ Number.HasPlainDigits "1\u0662".toList := by decide
  have hposition : (Compiler.writing " -12 ").position Compiler.asking "AT" 1 true .atomic {} =
      .ok " -12 " {} := Compiler.position_writing (by decide) 1 true .atomic {}
  obtain ⟨hread, -, hindex⟩ := (literals_as_numbers " -12 ").2 (by decide)
  obtain ⟨-, hnan, -⟩ := (literals_as_numbers "1\u0662").2 (by decide)
  obtain ⟨text, htext, hiff⟩ := hindex _ _ _ 1 true _ _ _ (by decide) (by decide) hposition
  exact ⟨by decide, by decide, hread.2 hplain, hnan.2 hmixed, text, htext,
    fun heq ↦ hiff.1 heq hplain⟩

/-- A literal that is no number, and a position that is computed to none. -/
theorem position_is_nan :
    Number.isLiteral "\u0663" ∧ Binary64.read? (Text.trim "\u0663".toList) = none ∧
      Number.read "\u0663" = .nan ∧
      (Compiler.writing "\u0663").index Compiler.asking "AT" 1 false .atomic {} =
        .ok "NaN" {} := by
  have hliteral : Number.isLiteral "\u0663" := by decide
  have hread : Number.read "\u0663" = .nan := by decide
  have hposition : (Compiler.writing "\u0663").position Compiler.asking "AT" 1 false .atomic {} =
      .ok "\u0663" {} := Compiler.position_writing (by decide) 1 false .atomic {}
  have hindex := (Compiler.writing "\u0663").index_of_literal (by decide) hposition hliteral
  rw [hread] at hindex
  exact ⟨hliteral, by decide, hread, hindex⟩

end Turtle
