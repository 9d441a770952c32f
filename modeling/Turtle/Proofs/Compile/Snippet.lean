import Turtle.Compile.Options
import Turtle.Proofs.Text.Replace
import Turtle.Proofs.Text.Weave

/-!
# Snippets as lines

A host may supply a snippet for three sites.  Snippets that are single lines and begin with
different markers are told apart from the lines of a program, from each other, and by the ids that
are put into them.
-/

namespace Turtle

open Text (isGap Weave)

/-- Where snippets are put. -/
inductive Site where
  /-- Before a statement. -/
  | before
  /-- After a statement. -/
  | after
  /-- At the top of a loop or a procedure. -/
  | trap
deriving DecidableEq, Repr

/-- The snippet of a site, for the block with an id. -/
structure Mark where
  site : Site
  id : String
deriving DecidableEq, Repr

namespace Options

/-- The options without snippets. -/
def bare (o : Options) : Options := { o with before := none, after := none, trap := none }

/-- The options with a snippet for every site. -/
def fitted (o : Options) (snippet : Site → String) : Options :=
  { o with
    before := some (snippet .before), after := some (snippet .after), trap := some (snippet .trap) }

end Options

@[simp] theorem Options.surround_bare (o : Options) (id code : String) :
    o.bare.surround id code = code := by
  simp [Options.surround, Options.beforeOf, Options.afterOf, Options.bare]

/-- The line of a mark, without its newline. -/
def snippetLine (snippet : Site → String) (m : Mark) : List Char :=
  (Options.instantiate (snippet m.site) m.id).toList.dropLast

/-- Whether a line begins with a marker behind its indentation. -/
def isMarked (marker : Site → String) (l : List Char) : Bool :=
  [Site.before, .after, .trap].any fun site ↦
    (marker site).toList.isPrefixOf (l.dropWhile isGap)

/-- A program without its marked lines. -/
def unmarked (marker : Site → String) (text : String) : String :=
  String.ofList (Text.joinLines ((Text.splitLines text.toList).filter (!isMarked marker ·)))

/-- The number of lines of a program that are the line of a mark behind their indentation. -/
def markCount (snippet : Site → String) (text : String) (m : Mark) : Nat :=
  (Text.splitLines text.toList).countP fun l ↦ l.dropWhile isGap = snippetLine snippet m

/-- Snippets that are single lines with the id of the block in them, each behind its marker.  A
marker can be seen behind indentation, and no line is the snippet of two sites. -/
structure Marked (snippet marker : Site → String) : Prop where
  line : ∀ site, ∃ l, snippet site = l ++ "\n" ∧ '\n' ∉ l.toList
  phrase : ∀ site, "%1".toList <:+: (snippet site).toList
  begins : ∀ m : Mark, (marker m.site).toList <+: snippetLine snippet m
  visible : ∀ site, ∃ c rest, (marker site).toList = c :: rest ∧ ¬ isGap c
  apart : ∀ m m' : Mark, snippetLine snippet m = snippetLine snippet m' → m.site = m'.site

theorem toList_instantiate (snippet id : String) :
    (Options.instantiate snippet id).toList =
      Text.replace '%' ['1'] ("'" ++ id ++ "'").toList snippet.toList := String.toList_ofList

/-- The id is put into a line and leaves its newline. -/
theorem toList_instantiate_line (l id : String) : (Options.instantiate (l ++ "\n") id).toList =
    Text.replace '%' ['1'] ("'" ++ id ++ "'").toList l.toList ++ ['\n'] := by
  have hlist : (l ++ "\n").toList = l.toList ++ ['\n'] := String.toList_append
  rw [toList_instantiate, hlist, Text.replace_concat (by decide)]

theorem snippetLine_eq {snippet : Site → String} {m : Mark} {l : String}
    (h : snippet m.site = l ++ "\n") :
    snippetLine snippet m = Text.replace '%' ['1'] ("'" ++ m.id ++ "'").toList l.toList := by
  rw [snippetLine, h, toList_instantiate_line, List.dropLast_concat]

namespace Marked

variable {snippet marker : Site → String}

/-- Markers that have nothing to do with the id, and none of which begins another one. -/
theorem of_markers {rest : Site → String}
    (h : ∀ site, snippet site = marker site ++ rest site ++ "\n")
    (hline : ∀ site, '\n' ∉ (marker site ++ rest site).toList)
    (hphrase : ∀ site, "%1".toList <:+: (rest site).toList)
    (hmarker : ∀ site, '%' ∉ (marker site).toList)
    (hvisible : ∀ site, ∃ c rest, (marker site).toList = c :: rest ∧ ¬ isGap c)
    (hapart : ∀ site site', (marker site).toList <+: (marker site').toList → site = site') :
    Marked snippet marker := by
  have hbegins (m : Mark) : (marker m.site).toList <+: snippetLine snippet m := by
    rw [snippetLine_eq (h m.site), String.toList_append (s := marker m.site),
      Text.replace_append (hmarker m.site)]
    exact List.prefix_append _ _
  refine ⟨fun site ↦ ⟨_, h site, hline site⟩, fun site ↦ ?_, hbegins, hvisible, fun m m' heq ↦ ?_⟩
  · rw [h site, String.toList_append, String.toList_append]
    exact (hphrase site).trans
      ((List.suffix_append _ _).isInfix.trans (List.prefix_append _ _).isInfix)
  · rcases List.prefix_or_prefix_of_prefix (hbegins m) (heq ▸ hbegins m') with hle | hle
    · exact hapart _ _ hle
    · exact (hapart _ _ hle).symm

variable (h : Marked snippet marker)
include h

theorem toList_eq (m : Mark) : (Options.instantiate (snippet m.site) m.id).toList =
    snippetLine snippet m ++ ['\n'] := by
  obtain ⟨l, hl, -⟩ := h.line m.site
  rw [snippetLine_eq hl, hl, toList_instantiate_line]

theorem notMem_snippetLine {m : Mark} (hid : '\n' ∉ m.id.toList) :
    '\n' ∉ snippetLine snippet m := by
  obtain ⟨l, hl, hnewline⟩ := h.line m.site
  rw [snippetLine_eq hl]
  refine Text.notMem_replace hnewline ?_ _ _
  simpa [String.toList_append] using hid

theorem snippetLine_injective {m m' : Mark} (heq : snippetLine snippet m = snippetLine snippet m') :
    m = m' := by
  have hsite := h.apart m m' heq
  have htext : (Options.instantiate (snippet m.site) m.id).toList =
      (Options.instantiate (snippet m.site) m'.id).toList := by
    rw [h.toList_eq m, heq, ← h.toList_eq m', hsite]
  rw [toList_instantiate, toList_instantiate] at htext
  have hquoted := Text.replace_injective (h.phrase m.site) htext
  have hid : m.id = m'.id := by
    simpa only [String.toList_append, List.append_cancel_left_eq, List.append_cancel_right_eq,
      String.toList_inj] using hquoted
  cases m
  cases m'
  exact Mark.mk.injEq .. ▸ ⟨hsite, hid⟩

theorem dropWhile_snippetLine {gap : List Char} (hgap : ∀ c ∈ gap, isGap c) (m : Mark) :
    (gap ++ snippetLine snippet m).dropWhile isGap = snippetLine snippet m := by
  obtain ⟨c, rest, hmarker, hc⟩ := h.visible m.site
  obtain ⟨rest', hrest'⟩ := h.begins m
  rw [List.dropWhile_append_of_pos hgap, ← hrest', hmarker, List.cons_append,
    List.dropWhile_cons_of_neg hc]

theorem isMarked_of_dropWhile {l : List Char} {m : Mark}
    (hl : l.dropWhile isGap = snippetLine snippet m) : isMarked marker l := by
  rw [isMarked, List.any_eq_true, hl]
  refine ⟨m.site, ?_, List.isPrefixOf_iff_prefix.2 (h.begins m)⟩
  cases m.site <;> simp

variable {ms : Multiset Mark} {s₀ s : String}

/-- Without its marked lines, a program is the one that the snippets were woven into. -/
theorem unmarked_eq (hwoven : Woven (snippetLine snippet) ms (s₀ ++ "\n") (s ++ "\n"))
    (hfree : ∀ l ∈ Text.splitLines s₀.toList, ¬ isMarked marker l) : unmarked marker s = s₀ := by
  have hline (gap : List Char) (hgap : ∀ c ∈ gap, isGap c) (m : Mark) :
      (!isMarked marker (gap ++ snippetLine snippet m)) = false := by
    rw [h.isMarked_of_dropWhile (h.dropWhile_snippetLine hgap m), Bool.not_true]
  rw [unmarked, hwoven.weave.filter (fun l hl ↦ by simpa using hfree l hl) hline,
    Text.joinLines_splitLines, String.ofList_toList]

/-- The lines of a mark are those that were woven in for it. -/
theorem markCount_eq (hwoven : Woven (snippetLine snippet) ms (s₀ ++ "\n") (s ++ "\n"))
    (hfree : ∀ l ∈ Text.splitLines s₀.toList, ¬ isMarked marker l) (m : Mark) :
    markCount snippet s m = ms.count m := by
  refine hwoven.weave.countP m (fun l hl ↦ ?_) fun gap hgap m' ↦ ?_
  · rw [decide_eq_false_iff_not]
    exact fun heq ↦ hfree l hl (h.isMarked_of_dropWhile heq)
  · rw [h.dropWhile_snippetLine hgap, decide_eq_decide]
    constructor
    · exact fun heq ↦ (h.snippetLine_injective heq).symm
    · rintro rfl
      rfl

/-! ## Weaving snippets -/

section

variable {id : String} (hid : '\n' ∉ id.toList)
include hid

/-- A snippet by itself. -/
theorem woven (site : Site) : Woven (snippetLine snippet) {⟨site, id⟩} ""
    (Options.instantiate (snippet site) id) :=
  .mark (List.forall_mem_nil _) (h.notMem_snippetLine (m := ⟨site, id⟩) hid)
    (h.toList_eq ⟨site, id⟩)

theorem toList_eq_closeLines (site : Site) : (Options.instantiate (snippet site) id).toList =
      Text.closeLines [snippetLine snippet ⟨site, id⟩] ∧
    ∀ l ∈ [snippetLine snippet ⟨site, id⟩], '\n' ∉ l := by
  constructor
  · rw [h.toList_eq ⟨site, id⟩, Text.closeLines_cons, Text.closeLines_nil]
  · rw [List.forall_mem_singleton]
    exact h.notMem_snippetLine (m := ⟨site, id⟩) hid

/-- A snippet as a line of a body. -/
theorem woven_indented {indent : String} (hindent : ∀ c ∈ indent.toList, isGap c) (site : Site) :
    Woven (snippetLine snippet) {⟨site, id⟩} ""
      (prefixLines indent (Options.instantiate (snippet site) id)) := by
  obtain ⟨hclose, hline⟩ := h.toList_eq_closeLines hid site
  refine .mark hindent (hline _ (List.mem_singleton.2 rfl)) ?_
  rw [prefixLines, String.toList_ofList, hclose,
    Text.prefixLines_closeLines hline (List.cons_ne_nil _ _)]
  simp

/-- Two snippets as lines of a body. -/
theorem woven_indented_pair {indent : String} (hindent : ∀ c ∈ indent.toList, isGap c)
    (site site' : Site) : Woven (snippetLine snippet) ({⟨site, id⟩} + {⟨site', id⟩}) ""
      (prefixLines indent (Options.instantiate (snippet site) id ++
        Options.instantiate (snippet site') id)) := by
  obtain ⟨hclose, -⟩ := h.toList_eq_closeLines hid site
  obtain ⟨hclose', -⟩ := h.toList_eq_closeLines hid site'
  have hpair := (h.woven_indented hid hindent site).append (h.woven_indented hid hindent site')
  rw [String.empty_append] at hpair
  convert hpair using 1
  rw [← String.toList_inj]
  simp only [prefixLines, String.toList_append, String.toList_ofList, hclose, hclose']
  exact Text.prefixLines_append (by simp) (by simp) _

omit hid in
theorem append_instantiate_ne_empty (site : Site) (id s : String) :
    s ++ Options.instantiate (snippet site) id ≠ "" := by
  intro heq
  have hlist := congrArg String.toList heq
  rw [String.toList_append, h.toList_eq ⟨site, id⟩, ← List.append_assoc] at hlist
  exact List.append_ne_nil_of_right_ne_nil _ (List.cons_ne_nil _ _) hlist

variable {o : Options}

/-- A statement between its snippets. -/
theorem woven_surround (hwoven : Woven (snippetLine snippet) ms s₀ s) :
    Woven (snippetLine snippet) ({⟨.before, id⟩} + ms + {⟨.after, id⟩}) (o.bare.surround id s₀)
      ((o.fitted snippet).surround id s) :=
  ((h.woven hid .before).append hwoven).append (h.woven hid .after)

/-- The body of a loop with its snippets. -/
theorem woven_loopBody (hindent : ∀ c ∈ o.indent.toList, isGap c)
    (hwoven : Woven (snippetLine snippet) ms s₀ s) : Woven (snippetLine snippet)
      ({⟨.after, id⟩} + ({⟨.trap, id⟩} + ms) + {⟨.before, id⟩}) (o.bare.loopBody false id s₀)
      ((o.fitted snippet).loopBody false id s) := by
  have hline := h.woven_indented hid hindent
  exact ((hline .after).append ((hline .trap).append hwoven)).append (hline .before)

end

end Marked

end Turtle
