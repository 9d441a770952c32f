import Turtle.Proofs.Compile.Nesting
import Turtle.Proofs.Text.Indent

/-!
# The indentation of bodies

Statements in a body are indented, and what stands before a body ends with a newline.  So statements
that are several bodies deep have as many units of indentation in front of each of their lines.
-/

namespace Turtle

/-- Take `p` away from the start of every line. -/
def unprefixLines? (p s : String) : Option String :=
  (Text.dropPrefixes? p.toList p.toList s.toList).map String.ofList

/-- The indentation of a depth. -/
def indentation (unit : String) (depth : Nat) : String := String.join (List.replicate depth unit)

theorem indentation_succ (unit : String) (depth : Nat) :
    indentation unit (depth + 1) = unit ++ indentation unit depth := by
  rw [indentation, indentation, List.replicate_succ, String.join_cons]

theorem newline_notMem_indentation {unit : String} (h : '\n' ∉ unit.toList) (depth : Nat) :
    '\n' ∉ (indentation unit depth).toList := by
  induction depth with
  | zero => exact List.not_mem_nil
  | succ depth ih =>
    rw [indentation_succ, String.toList_append, List.mem_append, not_or]
    exact ⟨h, ih⟩

theorem prefixLines_prefixLines {p : String} (hp : '\n' ∉ p.toList) (q s : String) :
    prefixLines q (prefixLines p s) = prefixLines (q ++ p) s := by
  simp only [prefixLines, String.toList_ofList, String.toList_append,
    Text.prefixLines_prefixLines hp]

theorem prefixLines_empty (s : String) : prefixLines "" s = s := by
  rw [prefixLines, String.toList_empty, Text.prefixLines_nil, String.ofList_toList]

theorem prefixLines_ne_empty (p : String) {s : String} (h : s ≠ "") : prefixLines p s ≠ "" := by
  rw [prefixLines, ne_eq, String.ofList_eq_empty_iff]
  refine List.append_ne_nil_of_right_ne_nil _ (mt Text.prefixRest_eq_nil_iff.1 ?_)
  exact mt String.toList_eq_nil_iff.1 h

/-- Lines in the midst of a text are prefixed by themselves. -/
theorem exists_prefixLines {before lines : String} (hbefore : Text.EndsLine before.toList)
    (hlines : lines ≠ "") (p after : String) :
    ∃ before' after', Text.EndsLine before'.toList ∧
      prefixLines p (before ++ lines ++ after) = before' ++ prefixLines p lines ++ after' := by
  obtain ⟨before', after', hends, heq⟩ :=
    hbefore.exists_prefixLines (mt String.toList_eq_nil_iff.1 hlines) p.toList after.toList
  refine ⟨String.ofList before', String.ofList after', by rwa [String.toList_ofList], ?_⟩
  rw [← String.toList_inj]
  simp only [prefixLines, String.toList_append, String.toList_ofList, heq]

namespace Compiler

variable {c : Compiler} {b : Block} {input code : String} {p q : Pass}

/-- A body is the code of the statements in it, indented. -/
theorem body_of_chain (h : c.chain (b.target? input) p = .ok code q) :
    c.body b input p = .ok (if code = "" then "" else prefixLines c.options.indent code) q := by
  rw [body, Recipe.respond]
  refine (PassM.bind_ok h _).trans ?_
  by_cases hempty : code = ""
  · rw [if_pos hempty, if_pos (by simpa using hempty)]
    rfl
  · rw [if_neg hempty, if_neg (by simpa using hempty)]
    rfl

/-- Code with other code in a body of it, in a body of that body, and so on down to a depth.  What
stands before a body ends its line. -/
inductive Encloses (c : Compiler) (inner : String) : Nat → String → Prop
  | self : Encloses c inner 0 inner
  | body {depth : Nat} {b : Block} {input code text : String} {p q q' : Pass}
    (before after : String) (hbefore : Text.EndsLine before.toList)
    (hchain : c.chain (b.target? input) p = .ok code q) (hbody : c.body b input p = .ok text q')
    (h : Encloses c inner depth code) : Encloses c inner (depth + 1) (before ++ text ++ after)

/-- By induction on the depth: one more body puts one more unit of indentation in front of the lines
that are indented already. -/
theorem Encloses.indented {inner whole : String} {depth : Nat} (h : c.Encloses inner depth whole)
    (hindent : '\n' ∉ c.options.indent.toList) (hinner : inner ≠ "") :
    ∃ before after, Text.EndsLine before.toList ∧
      whole = before ++ prefixLines (indentation c.options.indent depth) inner ++ after := by
  induction h with
  | self =>
    refine ⟨"", "", .inl rfl, ?_⟩
    rw [indentation, List.replicate_zero, String.join_nil, prefixLines_empty, String.empty_append,
      String.append_empty]
  | @body depth b input code text p q q' before after hbefore hchain hbody h ih =>
    obtain ⟨before', after', hends, rfl⟩ := ih
    have hlines := prefixLines_ne_empty (indentation c.options.indent depth) hinner
    obtain ⟨head, tail, hhead, hindented⟩ :=
      exists_prefixLines hends hlines c.options.indent after'
    rw [prefixLines_prefixLines (newline_notMem_indentation hindent depth),
      ← indentation_succ] at hindented
    rw [body_of_chain hchain, if_neg (by simp [hlines]), hindented] at hbody
    cases hbody
    refine ⟨before ++ head, tail ++ after, ?_, ?_⟩
    · rw [String.toList_append]
      exact hbefore.append hhead
    · simp only [String.append_assoc]

theorem Encloses.of_chain {inner : String} {depth : Nat} {before : String}
    (hbefore : Text.EndsLine before.toList) (hchain : c.chain (b.target? input) p = .ok code q)
    (hcode : code ≠ "") (h : c.Encloses inner depth code) (after : String) :
    c.Encloses inner (depth + 1) (before ++ prefixLines c.options.indent code ++ after) := by
  have hbody := body_of_chain hchain
  rw [if_neg hcode] at hbody
  exact .body before after hbefore hchain hbody h

end Compiler

/-- With a text without newlines in front of every line, complete lines and what follows them are
prefixed apart; the text can be taken away again; and another text in front of it makes one text
with it.  So code that is some bodies deep has that many units of indentation in front of every
line. -/
theorem prefixLines_laws {p : String} (hp : '\n' ∉ p.toList) (q : String) :
    (∀ a b : String, a.toList.getLast? = some '\n' → b ≠ "" →
      prefixLines p (a ++ b) = prefixLines p a ++ prefixLines p b) ∧
    (∀ t, unprefixLines? p (prefixLines p t) = some t) ∧
    (∀ t, prefixLines q (prefixLines p t) = prefixLines (q ++ p) t) ∧
    ∀ (c : Compiler) (inner whole : String) (depth : Nat), c.options.indent = p → inner ≠ "" →
      c.Encloses inner depth whole → ∃ before after, Text.EndsLine before.toList ∧
        whole = before ++ prefixLines (indentation p depth) inner ++ after := by
  refine ⟨?_, ?_, prefixLines_prefixLines hp q, ?_⟩
  · intro a b ha hb
    rw [← String.toList_inj]
    simp only [prefixLines, String.toList_append, String.toList_ofList]
    exact Text.prefixLines_append ha (mt String.toList_eq_nil_iff.1 hb) p.toList
  · intro t
    rw [unprefixLines?, prefixLines, String.toList_ofList, Text.prefixLines,
      Text.dropPrefixes?_append, Text.dropPrefixes?_prefixRest, Option.map_some,
      String.ofList_toList]
  · rintro c inner whole depth rfl hinner h
    exact h.indented hp hinner

theorem prefixLines_laws_loops :
    '\n' ∉ "  ".toList ∧
    prefixLines "  " ("a\n\n" ++ "b") = prefixLines "  " "a\n\n" ++ prefixLines "  " "b" ∧
    unprefixLines? "  " (prefixLines "  " "a\n\n  b\n") = some "a\n\n  b\n" ∧
    prefixLines "; " (prefixLines "  " "a\n\nb\n") = prefixLines ";   " "a\n\nb\n" ∧
    ∃ before after, Text.EndsLine before.toList ∧
      "repeat 0 [\n  repeat 0 [\n    pr \"a\n  ]\n]\n" =
        before ++ prefixLines (indentation "  " 2) "pr \"a\n" ++ after := by
  have hinner : ({} : Compiler).block (.printing "a") false false {} =
      .ok (.statement "pr \"a\n") {} := by
    rw [Compiler.block_print (Block.isPrint_printing "a") ⟨rfl, rfl⟩ (Block.isSilent_printing "a")]
    rfl
  have hprint : ({} : Compiler).chain ((Block.looping (.printing "a")).target? "DO") {} =
      .ok "pr \"a\n" {} := PassM.bind_ok hinner _
  have hloop : ({} : Compiler).chain
      ((Block.looping (.looping (.printing "a"))).target? "DO") {} =
        .ok ("repeat 0 [\n" ++ prefixLines "  " "pr \"a\n" ++ "]\n") {} := by
    have hcode := Compiler.block_loop (b := .looping (.printing "a")) rfl rfl rfl rfl
      (Block.isSilent_looping (Block.isSilent_printing "a")) rfl hinner (by decide)
    exact PassM.bind_ok hcode _
  obtain ⟨happend, hdrop, hadd, hdepth⟩ := prefixLines_laws (p := "  ") (by decide) "; "
  refine ⟨by decide, happend _ _ rfl (by decide), hdrop _, hadd _, ?_⟩
  refine hdepth {} "pr \"a\n" _ 2 rfl (by decide) ?_
  have hlast : Text.EndsLine "repeat 0 [\n".toList := .inr rfl
  exact .of_chain hlast hloop (by decide) (.of_chain hlast hprint (by decide) .self "]\n") "]\n"

end Turtle
