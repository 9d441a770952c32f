import Mathlib.Data.List.Chain
import Turtle.Proofs.Compile.Print

/-!
# Texts inside loops

The body of a loop is indented line by line, and a literal with an escaped newline is two lines.  So
the indentation gets into the literal, behind the newline, and a reader takes the literal to end
there: inside loops, only the first line of a text is printed.
-/

namespace Turtle

open Text (prefixRest)

/-! ## Reading literals -/

namespace Logo.Word

/-- The part of a text that is read as one word: everything up to a space or a newline without a
backslash. -/
def lexeme : List Char → List Char
  | [] => []
  | '\\' :: c :: s => '\\' :: c :: lexeme s
  | c :: s => if c == ' ' || c == '\n' then [] else c :: lexeme s

theorem lexeme_cons {c : Char} (h : isDelimiter c = false) (s : List Char) :
    lexeme (c :: s) = c :: lexeme s := by
  simp only [isDelimiter, Bool.or_eq_false_iff, beq_eq_false_iff_ne] at h
  obtain ⟨⟨⟨⟨⟨hbackslash, -⟩, hspace⟩, -⟩, -⟩, hnewline⟩ := h
  rw [lexeme]
  · simp [hspace, hnewline]
  · rintro - - rfl
    exact absurd rfl hbackslash

/-- A literal ends in front of a space or a newline. -/
theorem lexeme_quote (s : List Char) {c : Char} (hc : c = ' ' ∨ c = '\n') (rest : List Char) :
    lexeme (quote s ++ c :: rest) = quote s := by
  have hescape : lexeme (escape s ++ c :: rest) = escape s := by
    induction s with
    | nil => rcases hc with rfl | rfl <;> rfl
    | cons d s ih =>
      rw [escape]
      split
      case isTrue => rw [List.cons_append, List.cons_append, lexeme, ih]
      case isFalse h =>
        rw [List.cons_append, lexeme_cons (Bool.eq_false_iff.2 h), ih]
  rw [quote, List.cons_append, lexeme_cons (by decide), hescape]

/-- The first line of a text, with its newline. -/
def firstLine : List Char → List Char
  | [] => []
  | c :: s => if c = '\n' then [c] else c :: firstLine s

theorem firstLine_firstLine (s : List Char) : firstLine (firstLine s) = firstLine s := by
  induction s with
  | nil => rfl
  | cons c s ih =>
    by_cases hc : c = '\n'
    · simp [firstLine, hc]
    · simp [firstLine, hc, ih]

/-- A text is its first line unless a newline stands before its last character. -/
theorem firstLine_eq_self_iff {s : List Char} : firstLine s = s ↔ '\n' ∉ s.dropLast := by
  induction s with
  | nil => simp [firstLine]
  | cons c s ih =>
    by_cases hc : c = '\n'
    · cases s <;> simp [firstLine, hc]
    · rw [firstLine, if_neg hc, List.cons.injEq, eq_self, true_and, ih]
      cases s with
      | nil => simp
      | cons d s => simp [Ne.symm hc]

end Logo.Word

/-! ## Indenting literals -/

namespace Logo.Word

/-- Indentation leaves the first line of a literal, and ends the literal there. -/
theorem prefixRest_quote {p : List Char} (hp : p.head? = some ' ') (s : List Char) {c : Char}
    (hc : c = ' ' ∨ c = '\n') (rest : List Char) : ∃ d rest', (d = ' ' ∨ d = '\n') ∧
      prefixRest p (quote s ++ c :: rest) = quote (firstLine s) ++ d :: rest' := by
  have hescape : ∃ d rest', (d = ' ' ∨ d = '\n') ∧
      prefixRest p (escape s ++ c :: rest) = escape (firstLine s) ++ d :: rest' := by
    induction s with
    | nil =>
      have hhead := Text.head?_prefixRest p (c :: rest)
      obtain ⟨rest', hrest'⟩ := List.head?_eq_some_iff.1 hhead
      exact ⟨c, rest', hc, hrest'⟩
    | cons e s ih =>
      obtain ⟨d, rest', hd, heq⟩ := ih
      by_cases he : e = '\n'
      · obtain ⟨p', rfl⟩ := List.head?_eq_some_iff.1 hp
        refine ⟨' ', p' ++ prefixRest (' ' :: p') (escape s ++ c :: rest), .inl rfl, ?_⟩
        simp [he, escape, isDelimiter, firstLine, prefixRest]
      · refine ⟨d, rest', hd, ?_⟩
        rw [firstLine, if_neg he, escape, escape]
        split
        · simp [prefixRest, he, heq]
        · simp [prefixRest, he, heq]
  obtain ⟨d, rest', hd, heq⟩ := hescape
  exact ⟨d, rest', hd, by simp [quote, prefixRest, heq]⟩

end Logo.Word

/-! ## Finding what is printed -/

/-- What follows the last `pr` with a space behind it. -/
def afterPrint? : List Char → Option (List Char)
  | [] => none
  | c :: s => afterPrint? s <|> if "pr ".toList.isPrefixOf (c :: s) then some (s.drop 2) else none

/-- No word of a text ends in an `r`. -/
def NoPrint (s : List Char) : Prop := s.IsChain fun c d ↦ ¬ (c = 'r' ∧ d = ' ')

theorem NoPrint.afterPrint? {s : List Char} (h : NoPrint s) : afterPrint? s = none := by
  induction s with
  | nil => rfl
  | cons c s ih =>
    rw [Turtle.afterPrint?, ih (List.IsChain.tail h), if_neg]
    · rfl
    · intro hprefix
      obtain ⟨s', hs'⟩ := List.isPrefixOf_iff_prefix.1 hprefix
      rw [← hs'] at h
      simp [NoPrint] at h

theorem afterPrint?_append (u : List Char) {v : List Char} (h : NoPrint v) :
    afterPrint? (u ++ 'p' :: 'r' :: ' ' :: v) = some v := by
  induction u with
  | nil => simp [afterPrint?, h.afterPrint?]
  | cons c u ih => rw [List.cons_append, afterPrint?, ih]; rfl

/-- The word that a program prints last, as it is read. -/
def printed? (code : String) : Option String :=
  (afterPrint? code.toList).map fun s ↦ String.ofList (Logo.Word.unquote (Logo.Word.lexeme s))

namespace NoPrint

theorem prefixRest {s : List Char} (h : NoPrint s) : NoPrint (prefixRest [' ', ' '] s) := by
  induction s with
  | nil => exact h
  | cons c s ih =>
    have hs := ih (List.IsChain.tail h)
    rw [Text.prefixRest]
    split
    case isTrue =>
      refine List.isChain_cons.2 ⟨by simp, List.isChain_cons.2 ⟨by simp, ?_⟩⟩
      exact List.isChain_cons.2 ⟨by simp, hs⟩
    case isFalse =>
      refine List.isChain_cons.2 ⟨fun d hd ↦ ?_, hs⟩
      rw [Text.head?_prefixRest] at hd
      exact (List.isChain_cons.1 h).1 d hd

theorem append {s t : List Char} (hs : NoPrint s) (ht : NoPrint t) (hhead : t.head? ≠ some ' ') :
    NoPrint (s ++ t) := by
  refine List.isChain_append.2 ⟨hs, ht, fun c _ d hd ↦ ?_⟩
  rintro ⟨-, rfl⟩
  exact hhead hd

theorem quote (s : List Char) : NoPrint (Logo.Word.quote s ++ ['\n']) := by
  have hescape : NoPrint (Logo.Word.escape s ++ ['\n']) ∧
      (Logo.Word.escape s ++ ['\n']).head? ≠ some ' ' := by
    induction s with
    | nil => exact ⟨List.isChain_singleton _, by decide⟩
    | cons c s ih =>
      rw [Logo.Word.escape]
      split
      case isTrue hc =>
        refine ⟨List.isChain_cons.2 ⟨by simp, List.isChain_cons.2 ⟨fun d _ ↦ ?_, ih.1⟩⟩, by simp⟩
        rintro ⟨rfl, -⟩
        exact absurd hc (by decide)
      case isFalse hc =>
        refine ⟨List.isChain_cons.2 ⟨fun d hd ↦ ?_, ih.1⟩, ?_⟩
        · rintro ⟨-, rfl⟩
          exact ih.2 hd
        · rintro heq
          rw [List.cons_append, List.head?_cons, Option.some.injEq] at heq
          exact hc (by rw [heq]; decide)
  exact List.isChain_cons.2 ⟨by simp, hescape.1⟩

end NoPrint

/-- The last thing that a program prints is the literal for a text, and nothing behind it can be
taken for another statement that prints. -/
def EndsPrinting (t : List Char) (code : String) : Prop :=
  ∃ u c rest, code.toList = u ++ 'p' :: 'r' :: ' ' :: (Logo.Word.quote t ++ c :: rest) ∧
    (c = ' ' ∨ c = '\n') ∧ NoPrint (Logo.Word.quote t ++ c :: rest)

namespace EndsPrinting

variable {t : List Char} {code : String}

theorem printed? (h : EndsPrinting t code) : printed? code = some (String.ofList t) := by
  obtain ⟨u, c, rest, hcode, hc, hprint⟩ := h
  rw [Turtle.printed?, hcode, afterPrint?_append u hprint, Option.map_some,
    Logo.Word.lexeme_quote t hc, Logo.Word.unquote_quote]

theorem line (t : String) : EndsPrinting t.toList (printLine (Logo.quote t)) := by
  refine ⟨[], '\n', [], ?_, .inr rfl, .quote t.toList⟩
  simp [printLine, Logo.quote]

/-- In a body, the first line of the text is left. -/
theorem body (h : EndsPrinting t code) (opening : String) :
    EndsPrinting (Logo.Word.firstLine t) (opening ++ prefixLines "  " code ++ "]\n") := by
  obtain ⟨u, c, rest, hcode, hc, hprint⟩ := h
  obtain ⟨u', hu'⟩ := Text.prefixRest_append [' ', ' '] (u ++ ['p', 'r', ' '])
  obtain ⟨d, rest', hd, hquote⟩ := Logo.Word.prefixRest_quote (p := [' ', ' ']) rfl t hc rest
  obtain ⟨u'', hu''⟩ := Text.prefixRest_append [' ', ' '] u
  have hindent : (prefixLines "  " code).toList = [' ', ' '] ++ u'' ++
      'p' :: 'r' :: ' ' :: (Logo.Word.quote (Logo.Word.firstLine t) ++ d :: rest') := by
    rw [prefixLines, String.toList_ofList, hcode]
    change [' ', ' '] ++ prefixRest [' ', ' '] (u ++ 'p' :: 'r' :: ' ' :: _) = _
    rw [hu'' _ (by simp), Text.prefixRest_cons, Text.prefixRest_cons, Text.prefixRest_cons,
      if_neg (by simp), if_neg (by simp), if_neg (by simp), hquote, List.append_assoc]
  refine ⟨opening.toList ++ [' ', ' '] ++ u'', d, rest' ++ [']', '\n'], ?_, hd, ?_⟩
  · rw [String.toList_append, String.toList_append, hindent]
    simp
  · have hrest := hquote ▸ hprint.prefixRest
    have := hrest.append (t := [']', '\n']) (by simp [NoPrint]) (by decide)
    rwa [List.append_assoc, List.cons_append] at this

end EndsPrinting

/-! ## Loops around a statement that prints -/

namespace Emitter

/-- How often a loop is run. -/
def times (v : View) : Recipe String :=
  if v.head.hasField "TIMES" then pure (Number.write (Number.read (v.field "TIMES")))
  else Recipe.operand "TIMES" .loose "0"

theorem repetition_eq (v : View) : repetition v = (do
    let times ← times v
    let body ← loopBody v
    return "repeat " ++ times ++ " [\n" ++ body ++ "]\n") := by
  rw [repetition, times]
  split <;> rfl

end Emitter

/-- Whatever is connected as the count of a loop can be compiled. -/
def Compiler.Counts (c : Compiler) (b : Block) : Prop :=
  ∀ p, ∃ times q, c.value b "TIMES" .loose p = .ok times q

/-- A statement that prints a text, in the bodies of some loops. -/
inductive Block.Nested (t : String) : Nat → Block → Prop
  | print {b : Block} (h : IsPrint t b) (hnext : b.next = none) : Nested t 0 b
  | loop {b inner : Block} {depth : Nat} (kind : b.head.kind = "controls_repeat_ext")
    (enabled : b.head.enabled) (hnext : b.next = none)
    (hcount : ({} : Compiler).Counts b) (hbody : b.target? "DO" = some inner)
    (h : Nested t depth inner) : Nested t (depth + 1) b

namespace Compiler

variable {b inner : Block} {t : String}

theorem Counts.times {c : Compiler} (h : c.Counts b) (v : View) (p : Pass) :
    ∃ times q, (Emitter.times v).run c.options.indent (c.neighbours b) p = .ok times q := by
  rw [Emitter.times]
  split
  · exact ⟨_, p, rfl⟩
  · obtain ⟨times, q, htimes⟩ := h p
    exact ⟨_, q, Recipe.run_operand htimes "0" pure⟩

/-- The code of a loop by itself, with the code of its body. -/
theorem block_loop (kind : b.head.kind = "controls_repeat_ext") (enabled : b.head.enabled)
    (hnext : b.next = none) (hbody : b.target? "DO" = some inner) (hsilent : b.IsSilent)
    {times code : String} {p p' q : Pass}
    (htimes : (Emitter.times (({} : Compiler).view (.statement Emitter.repetition) b)).run "  "
      (({} : Compiler).neighbours b) p = .ok times p')
    (hinner : ({} : Compiler).block inner false false p' = .ok (.statement code) q)
    (hne : code ≠ "") :
    ({} : Compiler).block b false false p =
      .ok (.statement ("repeat " ++ times ++ " [\n" ++ prefixLines "  " code ++ "]\n")) q := by
  have hemitter : Emitter.standard? b.head.kind = some (.statement Emitter.repetition) := by
    rw [kind]
    rfl
  set v := ({} : Compiler).view (.statement Emitter.repetition) b with hv
  have hchain : ({} : Compiler).chain (b.target? "DO") p' = .ok code q := by
    rw [hbody, chain, PassM.bind_ok hinner]
    rfl
  have hloop : (Emitter.loopBody v).run "  " (({} : Compiler).neighbours b) p' =
      .ok (prefixLines "  " code) q := by
    have hdo : Recipe.respond "  " (({} : Compiler).neighbours b) (.body "DO") p' =
        .ok (prefixLines "  " code) q := by
      rw [Recipe.respond]
      refine (PassM.bind_ok hchain _).trans ?_
      rw [if_neg (by simpa using hne)]
      rfl
    rw [Emitter.loopBody, Recipe.run_bind]
    refine (PassM.bind_ok (PassM.bind_ok hdo _) _).trans ?_
    change EStateM.Result.ok ("" ++ ("" ++ prefixLines "  " code) ++ "") q = _
    simp
  rw [block_statement enabled hemitter ⟨rfl, rfl⟩ hsilent, hnext]
  refine (PassM.bind_ok (a := "repeat " ++ times ++ " [\n" ++ prefixLines "  " code ++ "]\n")
    (q := q) ?_ _).trans ?_
  · rw [← hv, Emitter.repetition_eq, Recipe.run_bind]
    refine (PassM.bind_ok htimes _).trans ?_
    rw [Recipe.run_bind]
    refine (PassM.bind_ok hloop _).trans ?_
    rfl
  · change EStateM.Result.ok (Code.statement (_ ++ "")) q = _
    rw [String.append_empty]

/-- By induction on the loops around it, a statement that prints a text still prints its first line,
and all of it outside of loops. -/
theorem endsPrinting_nested {depth : Nat} (h : b.Nested t depth) (hsilent : b.IsSilent) (p : Pass) :
    ∃ code q, ({} : Compiler).block b false false p = .ok (.statement code) q ∧
      EndsPrinting (if depth = 0 then t.toList else Logo.Word.firstLine t.toList) code := by
  induction h generalizing p with
  | print h hnext =>
    refine ⟨printLine (Logo.quote t), p, ?_, .line t⟩
    rw [block_print h ⟨rfl, rfl⟩ hsilent, hnext]
    change EStateM.Result.ok (Code.statement (_ ++ "")) p = _
    rw [String.append_empty]
  | @loop b inner depth kind enabled hnext hcount hbody h ih =>
    obtain ⟨times, p', htimes⟩ := hcount.times _ p
    obtain ⟨code, q, hcode, hends⟩ := ih (hsilent.target hbody) p'
    have hne : code ≠ "" := by
      obtain ⟨u, c, rest, heq, -⟩ := hends
      rintro rfl
      simp at heq
    refine ⟨_, q, block_loop kind enabled hnext hbody hsilent htimes hcode hne, ?_⟩
    have hbody := hends.body ("repeat " ++ times ++ " [\n")
    rw [if_neg (Nat.succ_ne_zero depth)]
    split at hbody
    · exact hbody
    · rwa [Logo.Word.firstLine_firstLine] at hbody

/-- Inside loops, a text is printed up to its first newline.  So it is printed as it is if and only
if there is no loop, or no newline before the last character of the text. -/
theorem printed_nested {depth : Nat} (h : b.Nested t depth) (hsilent : b.IsSilent) (p : Pass) :
    ∃ code q, ({} : Compiler).block b false false p = .ok (.statement code) q ∧
      printed? code = some
        (if depth = 0 then t else String.ofList (Logo.Word.firstLine t.toList)) ∧
      (printed? code = some t ↔ depth = 0 ∨ '\n' ∉ t.toList.dropLast) := by
  obtain ⟨code, q, hcode, hends⟩ := endsPrinting_nested h hsilent p
  have hprinted := hends.printed?
  refine ⟨code, q, hcode, ?_, ?_⟩
  · rw [hprinted]
    split
    · rw [String.ofList_toList]
    · rfl
  · rw [hprinted, Option.some.injEq, ← String.toList_inj, String.toList_ofList]
    by_cases hdepth : depth = 0
    · simp [hdepth]
    · simp [hdepth, Logo.Word.firstLine_eq_self_iff]

end Compiler

/-- A loop around a statement. -/
def Block.looping (inner : Block) : Block :=
  (Block.ofKind "controls_repeat_ext" "l").withInput "DO" .statement (some inner)

theorem Block.isSilent_looping {inner : Block} (h : inner.IsSilent) : (looping inner).IsSilent := by
  intro d hd
  rw [looping, descendants_eq] at hd
  simp only [withInput, ofKind, List.nil_append, List.flatMap_cons, List.flatMap_nil,
    Option.map_some, Option.map_none, Option.getD_some, Option.getD_none, List.append_nil,
    List.mem_cons] at hd
  rcases hd with rfl | hd
  · rfl
  · exact h d hd

theorem Compiler.printed_nested_twoLines :
    ∃ code q, ({} : Compiler).block (.looping (.printing "a\nb")) false false {} =
        .ok (.statement code) q ∧
      printed? code = some
        (if 1 = 0 then "a\nb" else String.ofList (Logo.Word.firstLine "a\nb".toList)) ∧
      (printed? code = some "a\nb" ↔ 1 = 0 ∨ '\n' ∉ "a\nb".toList.dropLast) :=
  printed_nested
    (.loop rfl rfl rfl (fun p ↦ ⟨"", p, rfl⟩) rfl (.print (Block.isPrint_printing "a\nb") rfl))
    (Block.isSilent_looping (Block.isSilent_printing "a\nb")) {}

/-- A text of two lines is printed with its first line only. -/
theorem Compiler.breaks_twoLines :
    ({} : Compiler).block (.looping (.printing "a\nb")) false false {} =
        .ok (.statement "repeat 0 [\n  pr \"a\\\n  b\n]\n") {} ∧
      printed? "repeat 0 [\n  pr \"a\\\n  b\n]\n" = some "a\n" := by
  have hinner : ({} : Compiler).block (.printing "a\nb") false false {} =
      .ok (.statement "pr \"a\\\nb\n") {} := by
    rw [block_print (Block.isPrint_printing "a\nb") ⟨rfl, rfl⟩ (Block.isSilent_printing "a\nb")]
    rfl
  exact ⟨block_loop rfl rfl rfl rfl
    (Block.isSilent_looping (Block.isSilent_printing "a\nb")) rfl hinner (by decide), by decide⟩

end Turtle
