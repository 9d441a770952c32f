import Turtle.Compile.Session
import Turtle.Proofs.Block
import Turtle.Proofs.Compile.Following
import Turtle.Proofs.Logo.Word

/-!
# Programs that print texts

A chain of statements that print texts is compiled to one line for each.  The lines are as they
should be until the white space of the program is tidied: then a text that ends in a space or a tab
loses a part of its literal.
-/

namespace Turtle

open Logo (Order)
open Text (closeLines trimGap)

namespace Block

/-! ## Statements that print texts -/

/-- A text, with nothing connected to it. -/
structure IsText (t : String) (b : Block) : Prop where
  kind : b.head.kind = "text"
  enabled : b.head.enabled
  content : b.head.field "TEXT" = t
  inputs : b.inputs = []
  next : b.next = none

/-- A statement that prints a text. -/
structure IsPrint (t : String) (b : Block) : Prop where
  kind : b.head.kind = "text_print"
  enabled : b.head.enabled
  inputs : ∃ shape literal, IsText t literal ∧
    b.inputs = [{ name := "TEXT", shape, target := some literal }]

/-- A chain of statements that print these texts. -/
inductive Prints : List String → Option Block → Prop
  | nil : Prints [] none
  | cons {t : String} {ts : List String} {b : Block} (h : IsPrint t b) (hrest : Prints ts b.next) :
    Prints (t :: ts) (some b)

end Block

/-- The line that prints what a literal stands for. -/
def printLine (literal : String) : String := "pr " ++ literal ++ "\n"

namespace Options

/-- Nothing is put before or after statements. -/
structure IsPlain (o : Options) : Prop where
  before : o.before = none
  after : o.after = none

theorem IsPlain.surround {o : Options} (h : o.IsPlain) (id code : String) :
    o.surround id code = code := by
  rw [Options.surround, beforeOf, afterOf, h.before, h.after]
  simp

end Options

namespace Compiler

variable {o : Options} {b : Block} {t : String} {ts : List String}

/-- A statement of a kind that leaves its snippets to the compiler, without snippets and comments. -/
theorem block_statement {f : View → Recipe String}
    (henabled : b.head.enabled) (hemitter : Emitter.standard? b.head.kind = some (.statement f))
    (hplain : o.IsPlain) (hsilent : b.IsSilent) :
    ({ options := o } : Compiler).block b false false =
      (f (({ options := o } : Compiler).view (.statement f) b)).run o.indent
          (({ options := o } : Compiler).neighbours b) >>= fun code ↦
        ({ options := o } : Compiler).chain b.next >>= fun rest ↦ pure (.statement (code ++ rest)) := by
  rw [block_of_emitter _ henabled hemitter]
  change (f _ >>= fun code ↦ pure (Emission.statement code)).run _ _ >>= _ = _
  rw [Recipe.run_bind, bind_assoc]
  refine bind_congr fun code ↦ ?_
  rw [Recipe.run_pure, pure_bind, settle]
  simp only [Emitter.statement, Bool.false_eq_true, if_false, hplain.surround, finish, finishWith,
    hsilent.comments, String.empty_append, bind_assoc, pure_bind]

theorem block_text (hkind : b.head.kind = "text") (henabled : b.head.enabled)
    (hnext : b.next = none) : ({ options := o } : Compiler).block b false true =
      pure (.value (Logo.quote (b.head.field "TEXT")) .atomic) := by
  have hemitter : Emitter.standard? b.head.kind = some (.value Emitter.text) := by
    rw [hkind]
    rfl
  rw [block_value _ henabled hnext hemitter]
  rfl

/-- A text that is connected to an input is quoted, and no place demands parentheses around it. -/
theorem value_text {input : String} {literal : Block} {outer : Order}
    (htarget : b.target? input = some literal) (hkind : literal.head.kind = "text")
    (henabled : literal.head.enabled) (hnext : literal.next = none) :
    ({ options := o } : Compiler).value b input outer =
      pure (Logo.quote (literal.head.field "TEXT")) := by
  rw [value, htarget]
  simp only [block_text hkind henabled hnext, pure_bind, plug]
  rw [if_neg (by simp [Logo.needsParens_inner_atomic])]

theorem value_print (h : b.IsPrint t) :
    ({ options := o } : Compiler).value b "TEXT" .loose = pure (Logo.quote t) := by
  obtain ⟨shape, literal, hliteral, hinputs⟩ := h.inputs
  have htarget : b.target? "TEXT" = some literal := by
    rw [Block.target?, Block.input?, hinputs]
    rfl
  rw [value_text htarget hliteral.kind hliteral.enabled hliteral.next, hliteral.content]

theorem quote_ne_empty (t : String) : Logo.quote t ≠ "" := by
  intro h
  have := congrArg String.toList h
  simp [Logo.quote, Logo.Word.quote] at this

/-- A statement that prints a text is one line. -/
theorem block_print (h : b.IsPrint t) (hplain : o.IsPlain) (hsilent : b.IsSilent) :
    ({ options := o } : Compiler).block b false false =
      ({ options := o } : Compiler).chain b.next >>= fun rest ↦
        pure (.statement (printLine (Logo.quote t) ++ rest)) := by
  have hemitter : Emitter.standard? b.head.kind = some (.statement Emitter.print) := by
    rw [h.kind]
    rfl
  rw [block_statement h.enabled hemitter hplain hsilent]
  funext p
  have hvalue : (({ options := o } : Compiler).neighbours b).value "TEXT" .loose p =
      .ok (Logo.quote t) p := congrFun (value_print h) p
  have hrun (f : String → PassM Code) : ((Emitter.print
      (({ options := o } : Compiler).view (.statement Emitter.print) b)).run o.indent
        (({ options := o } : Compiler).neighbours b) >>= f) p =
      f (printLine (Logo.quote t)) p := by
    refine PassM.bind_ok ?_ f
    rw [Emitter.print, Recipe.run_operand hvalue, if_neg (by simpa using quote_ne_empty t)]
    rfl
  exact hrun _

/-- A chain of statements that print texts is one line for each of them. -/
theorem chain_prints {b? : Option Block} (h : Block.Prints ts b?) (hplain : o.IsPlain)
    (hsilent : ∀ b ∈ b?, b.IsSilent) :
    ({ options := o } : Compiler).chain b? =
      pure (String.join (ts.map fun t ↦ printLine (Logo.quote t))) := by
  induction h with
  | nil => rfl
  | cons h _ ih =>
    have hb := hsilent _ rfl
    rw [chain, block_print h hplain hb, ih fun next hnext ↦ hb.next hnext]
    simp [link, String.join_cons]

/-- The program before its white space is tidied. -/
theorem rawProgram_prints {w : Workspace} (htop : w.topBlocks = [b])
    (h : Block.Prints ts (some b)) (hplain : o.IsPlain) (hsilent : b.IsSilent) :
    ({ options := o } : Compiler).rawProgram w =
      .ok ("\n\n\n" ++ String.join (ts.map fun t ↦ printLine (Logo.quote t))) := by
  have hordered : w.ordered = [b] := by
    rw [Workspace.ordered, htop]
    rfl
  cases h with
  | @cons t ts _ hprint hrest =>
    set code := String.join ((t :: ts).map fun t ↦ printLine (Logo.quote t)) with hcode
    have hblock : ({ options := o } : Compiler).block b false false = pure (.statement code) := by
      rw [block_print hprint hplain hsilent,
        chain_prints hrest hplain fun next hnext ↦ hsilent.next hnext, pure_bind, hcode,
        List.map_cons, String.join_cons]
    have hne : code ≠ "" := by
      intro h
      have := congrArg String.toList h
      simp [hcode, printLine, String.join_cons] at this
    have hline : ({ options := o } : Compiler).topLine b.head code = code := by
      rw [topLine, if_neg (by simpa using hne), hprint.kind]
      rfl
    have htops : ({ options := o } : Compiler).topBlocks w = pure [code] := by
      rw [topBlocks, hordered]
      simp only [List.mapM_cons, List.mapM_nil, topBlock, hblock, pure_bind, hline]
      rw [List.filter_cons_of_pos (by simpa using hne)]
      rfl
    rw [rawProgram, htops]
    rfl

/-! ## Tidying the program -/

/-- What is left of the literal for a text at the end of a line. -/
def tidiedLiteral (t : String) : String := String.ofList (trimGap (Logo.quote t).toList)

theorem unquote_tidiedLiteral (t : String) :
    Logo.unquote (tidiedLiteral t) = String.ofList (Logo.Word.kept t.toList) := by
  rw [Logo.unquote, tidiedLiteral, Logo.quote, String.toList_ofList, String.toList_ofList,
    Logo.Word.unquote_trimGap_quote]

theorem tidiedLiteral_eq_iff :
    tidiedLiteral t = Logo.quote t ↔ ∀ c ∈ t.toList.getLast?, ¬ Text.isGap c := by
  rw [← Logo.Word.trimGap_quote_eq_self_iff, tidiedLiteral, Logo.quote, String.toList_ofList,
    String.ofList_inj]

/-- The characters of a line, without its end. -/
def lineOf (literal : List Char) : List Char := 'p' :: 'r' :: ' ' :: literal

theorem toList_lines (literal : String → List Char) (ts : List String) :
    (String.join (ts.map fun t ↦ printLine (String.ofList (literal t)))).toList =
      closeLines (ts.map fun t ↦ lineOf (literal t)) := by
  induction ts with
  | nil => rfl
  | cons t ts ih =>
    rw [List.map_cons, List.map_cons, String.join_cons, String.toList_append, ih]
    simp [printLine, lineOf]

theorem trimGap_lineOf (s : List Char) :
    trimGap (lineOf (Logo.Word.quote s)) = lineOf (trimGap (Logo.Word.quote s)) := by
  rw [Logo.Word.trimGap_quote]
  exact Text.trimGap_append (l := ['p', 'r', ' ', '"']) (by simp [Text.isGap]) (Logo.Word.escape s)

theorem isCodeLine_lineOf {s : List Char} (h : '\n' ∉ s) :
    Text.IsCodeLine (lineOf (Logo.Word.quote s)) := by
  refine ⟨?_, 'p', _, rfl, by decide⟩
  have := Logo.Word.newline_notMem_quote h
  simp [lineOf, this]

/-- Tidying shortens the literals at the ends of the lines. -/
theorem tidy_prints (hne : ts ≠ []) (hts : ∀ t ∈ ts, '\n' ∉ t.toList) :
    tidy ("\n\n\n" ++ String.join (ts.map fun t ↦ printLine (Logo.quote t))) =
      String.join (ts.map fun t ↦ printLine (tidiedLiteral t)) := by
  have hlines : ∀ l ∈ ts.map fun t ↦ lineOf (Logo.Word.quote t.toList), Text.IsCodeLine l := by
    intro l hl
    obtain ⟨t, ht, rfl⟩ := List.mem_map.1 hl
    exact isCodeLine_lineOf (hts t ht)
  rw [← String.toList_inj, tidy, String.toList_ofList, String.toList_append]
  simp only [Logo.quote, tidiedLiteral, String.toList_ofList]
  rw [toList_lines fun t ↦ Logo.Word.quote t.toList,
    toList_lines fun t ↦ trimGap (Logo.Word.quote t.toList)]
  have htidy := Text.tidy_closeLines hlines (by simpa using hne)
  rw [List.map_map] at htidy
  rw [show "\n\n\n".toList = ['\n', '\n', '\n'] from rfl]
  refine htidy.trans (congrArg closeLines (List.map_congr_left fun t _ ↦ ?_))
  exact trimGap_lineOf t.toList

/-- Programs are as different as their literals. -/
theorem lines_eq_iff (hts : ∀ t ∈ ts, '\n' ∉ t.toList) :
    String.join (ts.map fun t ↦ printLine (tidiedLiteral t)) =
        String.join (ts.map fun t ↦ printLine (Logo.quote t)) ↔
      ∀ t ∈ ts, tidiedLiteral t = Logo.quote t := by
  refine ⟨fun h ↦ ?_, fun h ↦ congrArg String.join (List.map_congr_left fun t ht ↦ ?_)⟩
  · have hlist := congrArg String.toList h
    simp only [Logo.quote, tidiedLiteral, String.toList_ofList] at hlist
    rw [toList_lines fun t ↦ trimGap (Logo.Word.quote t.toList),
      toList_lines fun t ↦ Logo.Word.quote t.toList, Text.closeLines_inj] at hlist
    · intro t ht
      have heq := List.map_inj_left.1 hlist t ht
      rw [tidiedLiteral, Logo.quote, String.toList_ofList, String.ofList_inj]
      exact List.cons.inj (List.cons.inj (List.cons.inj heq).2).2 |>.2
    · intro l hl
      obtain ⟨t, ht, rfl⟩ := List.mem_map.1 hl
      rw [← trimGap_lineOf]
      exact Text.newline_notMem_trimGap (isCodeLine_lineOf (hts t ht)).newline
    · intro l hl
      obtain ⟨t, ht, rfl⟩ := List.mem_map.1 hl
      exact (isCodeLine_lineOf (hts t ht)).newline
  · rw [h t ht]

/-- A program that prints texts prints of each text what is kept of it.  It consists of the lines
with their whole literals if and only if no text ends in a space or a tab. -/
theorem program_prints {w : Workspace} (htop : w.topBlocks = [b])
    (hprints : Block.Prints ts (some b)) (hplain : o.IsPlain) (hsilent : b.IsSilent)
    (hts : ∀ t ∈ ts, '\n' ∉ t.toList) :
    ({ options := o } : Compiler).program w =
        .ok (String.join (ts.map fun t ↦ printLine (tidiedLiteral t))) ∧
      (∀ t ∈ ts, Logo.unquote (tidiedLiteral t) = String.ofList (Logo.Word.kept t.toList)) ∧
      (({ options := o } : Compiler).program w =
          .ok (String.join (ts.map fun t ↦ printLine (Logo.quote t))) ↔
        ∀ t ∈ ts, ∀ c ∈ t.toList.getLast?, ¬ Text.isGap c) := by
  have hne : ts ≠ [] := by
    rintro rfl
    cases hprints
  have hprogram : ({ options := o } : Compiler).program w =
      .ok (String.join (ts.map fun t ↦ printLine (tidiedLiteral t))) := by
    rw [program, rawProgram_prints htop hprints hplain hsilent, Except.map, tidy_prints hne hts]
  refine ⟨hprogram, fun t _ ↦ unquote_tidiedLiteral t, ?_⟩
  rw [hprogram, Except.ok.injEq, lines_eq_iff hts]
  exact forall₂_congr fun t _ ↦ tidiedLiteral_eq_iff

end Compiler

/-- A statement that prints a text, by itself. -/
def Block.printing (t : String) : Block :=
  (Block.ofKind "text_print" "p").withInput "TEXT" .value
    (some ((Block.ofKind "text" "t").withField "TEXT" (.text t)))

namespace Block

theorem isPrint_printing (t : String) : IsPrint t (printing t) where
  kind := rfl
  enabled := rfl
  inputs := ⟨_, _, ⟨rfl, rfl, rfl, rfl, rfl⟩, rfl⟩

theorem isSilent_printing (t : String) : (printing t).IsSilent := by
  intro d hd
  rw [printing, descendants_eq] at hd
  simp only [withInput, ofKind, List.nil_append, List.flatMap_cons, List.flatMap_nil,
    Option.map_some, Option.map_none, Option.getD_some, Option.getD_none, List.append_nil,
    List.mem_cons] at hd
  rw [descendants_eq] at hd
  rcases hd with rfl | hd
  · rfl
  · simp only [withField, List.flatMap_nil, Option.map_none, Option.getD_none, List.append_nil,
      List.mem_singleton] at hd
    subst hd
    rfl

end Block

/-- A program that prints a text with a space at its end. -/
def lostSpace : Workspace := { topBlocks := [Block.printing "a "] }

theorem Compiler.program_prints_lostSpace :
    ({} : Compiler).program lostSpace =
        .ok (String.join (["a "].map fun t ↦ printLine (tidiedLiteral t))) ∧
      (∀ t ∈ ["a "], Logo.unquote (tidiedLiteral t) = String.ofList (Logo.Word.kept t.toList)) ∧
      (({} : Compiler).program lostSpace =
          .ok (String.join (["a "].map fun t ↦ printLine (Logo.quote t))) ↔
        ∀ t ∈ ["a "], ∀ c ∈ t.toList.getLast?, ¬ Text.isGap c) :=
  program_prints rfl (.cons (Block.isPrint_printing "a ") .nil) ⟨rfl, rfl⟩
    (Block.isSilent_printing "a ") (by decide)

/-- The space at the end of the text is lost, and its backslash is left over. -/
theorem Compiler.loses_space :
    ({} : Compiler).program lostSpace = .ok "pr \"a\\\n" ∧
      "pr \"a\\\n" ≠ printLine (Logo.quote "a ") ∧ Logo.unquote "\"a\\" = "a" := by
  refine ⟨?_, by decide, by decide⟩
  rw [lostSpace, program, rawProgram_prints rfl (.cons (Block.isPrint_printing "a ") .nil)
    ⟨rfl, rfl⟩ (Block.isSilent_printing "a ")]
  decide

end Turtle
