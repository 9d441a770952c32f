import Turtle.Proofs.Compile.Emitted

/-!
# Primitives that a name hides

The standard emitters and their helpers spell the primitives of one vocabulary.  The identifiers of
procedures and helpers are told apart from the primitives that are reserved, but four words of the
vocabulary are not among these.  A user who chooses one of them for a procedure hides the primitive
that the same program relies on.
-/

namespace Turtle

/-! ## What is spelled -/

/-- The data of an emission: what its block holds and the answers to its requests. -/
inductive Supplied (v : View) (log : List Exchange) : String → Prop
  | view {s : String} (h : v.Data s) : Supplied v log s
  | answer {q : Request} {s : String} (h : .answered q s ∈ log) : Supplied v log s

/-- Whatever an emission writes is spelled with the vocabulary, apart from its data: what it leaves,
the definition it registers, and the lines of the helpers it asks for. -/
structure Spelled (v : View) (log : List Exchange) (emission : Emission) : Prop where
  text : Written (Supplied v log) emission.text
  definition : ∀ name code whole, .hoisted name code whole ∈ log → Written (Supplied v log) code
  helper : ∀ key lines name, .answered (.helper key lines) name ∈ log →
    ∀ line ∈ lines, Written (Pass.namePlaceholder = ·) line

namespace Emitter

theorem written_helpers : ∀ entry ∈ helpers, ∀ line ∈ entry.2,
    Written (Pass.namePlaceholder = ·) line := by
  have hheading (params : String) (hparams : Logo.isSpelled params) :
      Written (Pass.namePlaceholder = ·) ("to " ++ Pass.namePlaceholder ++ params) :=
    ((Written.literal (s := "to ") (by decide)).append (.data (s := Pass.namePlaceholder) rfl)).append
      (.literal hparams)
  have hlines (lines : List String) (hlines : lines.all Logo.isSpelled) :
      ∀ line ∈ lines, Written (Pass.namePlaceholder = ·) line :=
    fun line hline ↦ .literal (List.all_eq_true.1 hlines line hline)
  simp only [helpers, List.forall_mem_cons]
  refine ⟨?_, ?_, ?_, ?_, ?_, List.forall_mem_nil _⟩
  · exact List.forall_mem_cons.2 ⟨hheading " :value :n" (by decide), hlines _ (by decide +kernel)⟩
  · exact List.forall_mem_cons.2 ⟨hheading " :item :l :reverse" (by decide),
      hlines _ (by decide +kernel)⟩
  · exact List.forall_mem_cons.2 ⟨hheading " :l :cmp :ci" (by decide), hlines _ (by decide +kernel)⟩
  · exact List.forall_mem_cons.2 ⟨hheading " :w :a" (by decide), hlines _ (by decide +kernel)⟩
  · exact List.forall_mem_cons.2 ⟨hheading " :w" (by decide), hlines _ (by decide +kernel)⟩

theorem helper_of_known {log : List Exchange}
    (h : ∀ x ∈ log, ∃ q s, x = .answered q s ∧ q.Known) {key name : String} {lines : List String}
    (hmem : .answered (.helper key lines) name ∈ log) : (key, lines) ∈ helpers := by
  obtain ⟨_, _, heq, hknown⟩ := h _ hmem
  cases heq
  exact hknown

/-- The standard emitters spell nothing but the vocabulary. -/
theorem spelled_standard {h : Head} {e : Emitter} (he : standard? h.kind = some e) {v : View}
    {log : List Exchange} {emission : Emission} (hyields : (e.emit v).Yields log emission) :
    Spelled v log emission := by
  rcases standard?_cases he with ⟨-, rfl⟩ | ⟨-, hkeeps⟩
  · obtain ⟨name, log', code, whole, rfl, rfl, -, hlog, hwritten⟩ := yields_definition hyields
    have hcode : Written _ code := hwritten (Supplied v _) (fun _ ↦ .view) fun _ _ ↦ .answer
    have hcases : ∀ x ∈ Exchange.answered (.procedure (v.field "NAME")) name ::
        (log' ++ [.hoisted name code whole]),
        x = .hoisted name code whole ∨ ∃ q s, x = .answered q s ∧ q.Known := by
      intro x hx
      rcases List.mem_cons.1 hx with rfl | hx
      · exact .inr ⟨_, _, rfl, trivial⟩
      · rcases List.mem_append.1 hx with hx | hx
        · exact .inr (hlog x hx)
        · exact .inl (List.mem_singleton.1 hx)
    refine ⟨.empty, fun name' code' whole' hmem ↦ ?_, fun key lines name' hmem ↦ ?_⟩
    · rcases hcases _ hmem with heq | ⟨_, _, heq, -⟩
      · cases heq
        exact hcode
      · cases heq
    · rcases hcases _ hmem with heq | ⟨_, _, heq, hknown⟩
      · cases heq
      · cases heq
        exact written_helpers (key, lines) hknown
  · obtain ⟨htext, hlog⟩ := (hkeeps v (Supplied v log) fun _ ↦ .view).of_yields hyields
      fun _ _ ↦ .answer
    refine ⟨htext, fun name code whole hmem ↦ ?_, fun key lines name hmem ↦ ?_⟩
    · obtain ⟨_, _, heq, -⟩ := hlog _ hmem
      cases heq
    · exact written_helpers (key, lines) (helper_of_known hlog hmem)

end Emitter

/-! ## What is hidden -/

/-- The identifier of a procedure or of a helper. -/
def Pass.HasProcedure (p : Pass) (identifier : String) : Prop :=
  (∃ name, p.names.given.lookup (.procedure, name) = some identifier) ∨
    ∃ key, p.helpers.lookup key = some identifier

theorem Told.lower_notMem {options : Options} {events : List Event} {p : Pass}
    (h : Told options events p) {identifier : String} (hidentifier : p.HasProcedure identifier) :
    lower identifier ∉ Logo.primitives.map lower := by
  rw [← h.reserved]
  refine h.sound.names.unreserved _ ?_
  rcases hidentifier with ⟨name, hname⟩ | ⟨key, hkey⟩
  · exact h.sound.names.taken ((.procedure, name), identifier) (Table.mem_of_lookup hname)
  · exact h.sound.taken (key, identifier) (Table.mem_of_lookup hkey)

theorem map_lower_primitives : Logo.primitives.map lower = Logo.primitives := by decide +kernel

/-- The words of the vocabulary that are not reserved. -/
def Logo.unreserved : List String := ["last", "lessp", "greaterp", "beforep"]

theorem mem_unreserved : ∀ word ∈ Logo.vocabulary, word ∉ Logo.primitives →
    word ∈ Logo.unreserved := by
  decide +kernel

theorem unreserved_subset : Logo.unreserved ⊆ Logo.vocabulary := by decide +kernel

/-- In a pass that goes well nothing is spelled but the vocabulary, and the identifiers of procedures
and helpers differ from all of it exactly if none of them is one of the four words. -/
theorem Compiler.hides_none_iff {options : Options} {w : Workspace} {parts : List String} {p : Pass}
    (h : (({ options } : Compiler).topBlocks w).run w.start = .ok parts p) :
    (∀ b log emission, .emitted b log emission ∈ ({ options } : Compiler).traceOf w →
      ∃ v : View, v.head = b.head ∧ v.options = options ∧ Spelled v log emission) ∧
    ((∀ identifier, p.HasProcedure identifier → lower identifier ∉ Logo.vocabulary) ↔
      ∀ identifier, p.HasProcedure identifier → lower identifier ∉ Logo.unreserved) := by
  have htold := told h
  refine ⟨fun b log emission hmem ↦ ?_, fun hnone identifier hidentifier hword ↦ ?_,
    fun hnone identifier hidentifier hword ↦ ?_⟩
  · obtain ⟨e, he, hyields, -⟩ := htold.explained.emitted b log emission hmem
    exact ⟨_, rfl, rfl, Emitter.spelled_standard he hyields⟩
  · exact hnone identifier hidentifier (unreserved_subset hword)
  · have hfree := htold.lower_notMem hidentifier
    rw [map_lower_primitives] at hfree
    exact hnone identifier hidentifier (mem_unreserved _ hword hfree)

/-- A procedure with the name of a primitive, and a block that relies on that primitive. -/
def lastClash : Workspace where
  topBlocks := [
    (Block.ofKind "procedures_defnoreturn" "a").withField "NAME" (.text "last"),
    { head := {
        kind := "lists_getIndex", id := "b"
        fields := [("MODE", .text "GET"), ("WHERE", .text "LAST")] } }]

/-- The parts of the program, the definitions and the identifier of the procedure. -/
theorem run_lastClash :
    (match (({} : Compiler).topBlocks lastClash).run lastClash.start with
      | .ok parts p => some (parts, p.definitions, p.names.given.lookup (.procedure, "last"))
      | .error _ _ => none) =
    some (["ignore last []\n"], [("%last", "to last\nend")], some "last") := by
  have hordered : lastClash.ordered = lastClash.topBlocks := rfl
  rw [Compiler.topBlocks, hordered, lastClash]
  simp only [List.mapM_cons, List.mapM_nil, Compiler.topBlock]
  rw [Compiler.block_eq _ ((Block.ofKind "procedures_defnoreturn" "a").withField _ _),
    Compiler.block_eq _ { head := { kind := "lists_getIndex", id := "b", fields := _ } }]
  decide +kernel

theorem exists_run_lastClash : ∃ parts p,
    (({} : Compiler).topBlocks lastClash).run lastClash.start = .ok parts p ∧
      parts = ["ignore last []\n"] ∧ p.definitions = [("%last", "to last\nend")] ∧
      p.HasProcedure "last" := by
  have hrun := run_lastClash
  cases h : (({} : Compiler).topBlocks lastClash).run lastClash.start with
  | error e p =>
    rw [h] at hrun
    cases hrun
  | ok parts p =>
    rw [h] at hrun
    obtain ⟨hparts, hrest⟩ := Prod.mk.inj (Option.some.inj hrun)
    obtain ⟨hdefinitions, hlookup⟩ := Prod.mk.inj hrest
    exact ⟨parts, p, rfl, hparts, hdefinitions, .inl ⟨"last", hlookup⟩⟩

theorem Compiler.hides_none_iff_lastClash : ∃ parts p,
    (({} : Compiler).topBlocks lastClash).run lastClash.start = .ok parts p ∧
    (∀ b log emission, .emitted b log emission ∈ ({} : Compiler).traceOf lastClash →
      ∃ v : View, v.head = b.head ∧ v.options = {} ∧ Spelled v log emission) ∧
    ((∀ identifier, p.HasProcedure identifier → lower identifier ∉ Logo.vocabulary) ↔
      ∀ identifier, p.HasProcedure identifier → lower identifier ∉ Logo.unreserved) := by
  obtain ⟨parts, p, hrun, -⟩ := exists_run_lastClash
  exact ⟨parts, p, hrun, Compiler.hides_none_iff hrun⟩

/-- The program relies on the primitive that takes the last element of a list, and its first line
gives that name to a procedure. -/
theorem Compiler.hides_last : ∃ p,
    (({} : Compiler).topBlocks lastClash).run lastClash.start = .ok ["ignore last []\n"] p ∧
    p.program "ignore last []\n" = "to last\nend\n\n\nignore last []\n" ∧
    p.HasProcedure "last" ∧ lower "last" ∈ Logo.vocabulary := by
  obtain ⟨parts, p, hrun, rfl, hdefinitions, hprocedure⟩ := exists_run_lastClash
  refine ⟨p, hrun, ?_, hprocedure, by decide +kernel⟩
  rw [Pass.program, hdefinitions]
  decide +kernel

end Turtle
