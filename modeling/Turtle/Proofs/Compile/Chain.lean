import Turtle.Proofs.Emitter.Growth

/-!
# Chains of statements

The statements behind a block are compiled while the comments of the block are put before its code.
All the same, a chain is compiled block by block: every block is compiled alone, in the state that
the ones before it have left, and the texts are put together in their order.
-/

namespace Turtle

open Logo (Order)

namespace Block

variable {b d : Block}

/-- The chain that a block begins: the block itself and the ones that are next, one by one. -/
def chain (b : Block) : List Block :=
  b :: match _h : b.next with
    | none => []
    | some next => next.chain
termination_by sizeOf b
decreasing_by exact sizeOf_next _h

theorem chain_eq (b : Block) : b.chain = b :: (b.next.map chain).getD [] := by
  rw [chain]
  cases b.next <;> rfl

theorem self_mem_chain (b : Block) : b ∈ b.chain := by
  rw [chain_eq]
  exact List.mem_cons_self

theorem chain_subset_of_next {next : Block} (h : b.next = some next) : next.chain ⊆ b.chain := by
  rw [b.chain_eq, h]
  exact List.subset_cons_self b next.chain

/-- A block that is no expression and defines no procedure. Its kind may be unknown. -/
structure IsLink (b : Block) : Prop where
  shape : Emitter.shape? b.head.kind ≠ some .value
  definition : ¬ b.head.isDefinition

end Block

namespace Emitter

variable {e : Emitter} {v : View} {head : Head} {indent : String} {n : Neighbours} {p q : Pass}
  {emission : Emission}

theorem of_run_statement {f : View → Recipe String}
    (hrun : ((f v >>= fun code ↦ pure (.statement code)) : Recipe Emission).run indent n p =
      .ok emission q) : ∃ code, emission = .statement code := by
  rw [Recipe.run_bind] at hrun
  obtain ⟨code, _, -, hdone⟩ := PassM.of_bind_ok hrun
  cases hdone
  exact ⟨code, rfl⟩

/-- A standard emitter of statements leaves a text, unless it defines a procedure. -/
theorem exists_statement (he : standard? head.kind = some e) (hshape : e.shape = .statement)
    (hdefinition : ¬ head.isDefinition) (hrun : (e.emit v).run indent n p = .ok emission q) :
    ∃ code, emission = .statement code := by
  by_cases hkind : head.kind ∈ snippetKinds
  · obtain ⟨-, f, _, rfl, -⟩ | ⟨-, rfl⟩ | ⟨-, rfl⟩ :=
      standard?_snippetKinds he hkind (Head.isDefinition_iff.not.1 hdefinition)
    · exact of_run_statement hrun
    · exact of_run_statement (f := branch) hrun
    · exact of_run_statement hrun
  · have hleaves := ((isFlat_standard he hkind).2 v).of_run_ok hrun
    rw [hshape] at hleaves
    cases emission with
    | statement code => exact ⟨code, rfl⟩
    | value | hoisted => exact hleaves.elim

end Emitter

namespace Compiler

variable {o : Options} {b : Block}

/-- What is behind a block comes after the code that the block leaves alone. -/
theorem finish_eq_alone (c : Compiler) (b : Block) (plugged : Bool) (code : String) :
    c.finish b false plugged code = c.finish b true plugged code >>= fun own ↦
      c.chain b.next >>= fun rest ↦ pure (own ++ rest) := by
  simp [finish_eq]

/-- The text that a block leaves alone. -/
def own (c : Compiler) (b : Block) : PassM String := c.block b true false >>= link b.head.kind

/-- The texts that blocks leave alone, one after the other. -/
def texts (c : Compiler) (blocks : List Block) : PassM (List String) := blocks.mapM c.own

theorem texts_cons (c : Compiler) (b : Block) (blocks : List Block) : c.texts (b :: blocks) =
    c.own b >>= fun text ↦ c.texts blocks >>= fun rest ↦ pure (text :: rest) := by
  rw [texts, List.mapM_cons]
  rfl

theorem own_disabled (c : Compiler) (henabled : ¬ b.head.enabled) : c.own b = pure "" := by
  rw [own, block_eq, if_neg henabled, if_pos rfl]
  rfl

/-- Whether an enabled link is compiled alone or with what is behind it, its emitter leaves the same
text, which is finished accordingly. -/
theorem exists_code (h : b.IsLink) (henabled : b.head.enabled) : ∃ code : PassM String, ∀ alone,
    ({ options := o } : Compiler).block b alone false = code >>= fun s ↦
      ({ options := o } : Compiler).finish b alone false s >>= fun whole ↦
        pure (.statement whole) := by
  set c : Compiler := { options := o }
  cases he : c.emitter? b.head.kind with
  | none => exact ⟨throw (.unknownKind b.head.kind), fun alone ↦ by
      rw [block_eq, if_pos henabled, he]; rfl⟩
  | some e =>
    have hshape : e.shape = .statement := by
      cases hshape : e.shape with
      | statement => rfl
      | value =>
        refine absurd ?_ h.shape
        rw [Emitter.shape?_of_standard? he, hshape]
    refine ⟨(e.emit (c.view e b)).run c.options.indent (c.neighbours b) >>= fun emission ↦
      pure (if e.manual then emission.text else c.options.surround b.head.id emission.text),
      fun alone ↦ funext fun p ↦ ?_⟩
    rw [block_of_emitter c henabled he, bind_assoc]
    cases hrun : (e.emit (c.view e b)).run c.options.indent (c.neighbours b) p with
    | error error q => rw [PassM.bind_error hrun, PassM.bind_error hrun]
    | ok emission q =>
      obtain ⟨code, rfl⟩ := Emitter.exists_statement he hshape h.definition hrun
      rw [PassM.bind_ok hrun, PassM.bind_ok hrun]
      rfl

/-- A link that is compiled alone leaves a text. -/
theorem block_alone (h : b.IsLink) : ({ options := o } : Compiler).block b true false =
    ({ options := o } : Compiler).own b >>= fun text ↦ pure (.statement text) := by
  by_cases henabled : b.head.enabled
  · obtain ⟨code, hcode⟩ := exists_code (o := o) h henabled
    rw [own, hcode]
    simp only [bind_assoc, pure_bind, link]
  · rw [own_disabled _ henabled, block_eq, if_neg henabled, if_pos rfl]
    rfl

/-- The text of an enabled link stands before the text of the chain behind it. -/
theorem block_following (h : b.IsLink) (henabled : b.head.enabled) :
    ({ options := o } : Compiler).block b false false =
      ({ options := o } : Compiler).own b >>= fun text ↦
        ({ options := o } : Compiler).chain b.next >>= fun rest ↦
          pure (.statement (text ++ rest)) := by
  obtain ⟨code, hcode⟩ := exists_code (o := o) h henabled
  rw [own, hcode, hcode]
  simp only [finish_eq_alone _ b false, bind_assoc, pure_bind, link]

theorem mapM_block_alone {blocks : List Block} (h : ∀ b ∈ blocks, b.IsLink) :
    (blocks.mapM fun b ↦ ({ options := o } : Compiler).block b true false) =
      ({ options := o } : Compiler).texts blocks >>= fun texts ↦
        pure (texts.map .statement) := by
  induction blocks with
  | nil => rfl
  | cons b blocks ih =>
    rw [List.mapM_cons, texts_cons, block_alone (h b List.mem_cons_self),
      ih fun d hd ↦ h d (List.mem_cons_of_mem b hd)]
    simp only [bind_assoc, pure_bind, List.map_cons]

/-- By induction on the chain: it is compiled block by block. -/
theorem block_eq_texts (h : ∀ d ∈ b.chain, d.IsLink) :
    ({ options := o } : Compiler).block b false false =
      ({ options := o } : Compiler).texts b.chain >>= fun texts ↦
        pure (.statement (String.join texts)) := by
  induction b using Block.induct with
  | step b _ ih =>
    have hnext (next : Block) (hnext : b.next = some next) := ih next hnext fun d hd ↦
      h d (Block.chain_subset_of_next hnext hd)
    rw [b.chain_eq, texts_cons]
    by_cases henabled : b.head.enabled
    · have hchain : ({ options := o } : Compiler).chain b.next =
          ({ options := o } : Compiler).texts ((b.next.map Block.chain).getD []) >>= fun texts ↦
            pure (String.join texts) := by
        cases hb : b.next with
        | none => rfl
        | some next =>
          rw [chain, hnext next hb, bind_assoc]
          rfl
      rw [block_following (h b b.self_mem_chain) henabled, hchain]
      simp only [bind_assoc, pure_bind, String.join_cons]
    · -- A disabled block gives way to the chain behind it, which leaves a text by induction.
      rw [own_disabled _ henabled, block_eq, if_neg henabled, if_neg Bool.false_ne_true]
      simp only [pure_bind, bind_assoc, String.join_cons, String.empty_append]
      cases hb : b.next with
      | none => rfl
      | some next => exact hnext next hb

/-- A chain goes well exactly if its blocks, compiled alone one after the other, do. Then its text is
their texts in order and it leaves the same state; otherwise it ends in the error of the first block
that does, in the state that this one leaves. -/
theorem block_chain (h : ∀ d ∈ b.chain, d.IsLink) (p : Pass) :
    match b.chain.mapM (fun d ↦ ({ options := o } : Compiler).block d true false) p with
    | .ok codes q => ∃ texts : List String, codes = texts.map .statement ∧
        ({ options := o } : Compiler).block b false false p =
          .ok (.statement (String.join texts)) q
    | .error error q => ({ options := o } : Compiler).block b false false p = .error error q := by
  rw [mapM_block_alone h, block_eq_texts h]
  cases htexts : ({ options := o } : Compiler).texts b.chain p with
  | ok texts q =>
    rw [PassM.bind_ok htexts, PassM.bind_ok htexts]
    exact ⟨texts, rfl, rfl⟩
  | error error q => rw [PassM.bind_error htexts, PassM.bind_error htexts]

end Compiler

/-- Two statements with a disabled block between them, whose kind is unknown. -/
def interruptedChain : Block :=
  (((Block.ofKind "logo_pen" "a").withField "OP" (.text "PU")).withComment "up").withNext <|
    (Block.ofKind "sensor" "b").disabled.withNext <|
      (Block.ofKind "variables_set" "c").withField "VAR" (.text "v")

theorem Compiler.block_chain_interruptedChain :
    (∀ d ∈ interruptedChain.chain, d.IsLink) ∧ ∃ texts q,
      interruptedChain.chain.mapM (fun d ↦ ({} : Compiler).block d true false) {} =
        .ok (texts.map .statement) q ∧
      texts = ["; up\npu\n", "", "make \"v 0\n"] ∧
      ({} : Compiler).block interruptedChain false false {} =
        .ok (.statement (String.join texts)) q := by
  have hkinds : ∀ d ∈ interruptedChain.chain,
      Emitter.shape? d.head.kind ≠ some .value ∧ ¬ d.head.isDefinition := by
    decide +kernel
  have hchain (d : Block) (hd : d ∈ interruptedChain.chain) : d.IsLink :=
    ⟨(hkinds d hd).1, (hkinds d hd).2⟩
  have hcodes : (interruptedChain.chain.mapM fun d ↦ ({} : Compiler).block d true false).run' {} =
      some (["; up\npu\n", "", "make \"v 0\n"].map .statement) := by
    decide +kernel
  obtain ⟨q, hrun⟩ := PassM.exists_ok hcodes
  have h := Compiler.block_chain (o := {}) hchain {}
  rw [hrun] at h
  obtain ⟨texts, htexts, hblock⟩ := h
  have htexts' := List.map_injective_iff.2 (fun _ _ h ↦ Code.statement.inj h) htexts
  exact ⟨hchain, texts, q, htexts ▸ hrun, htexts'.symm, hblock⟩

end Turtle
