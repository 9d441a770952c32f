import Turtle.Proofs.Compile.Gather

/-!
# Elements by their numbers

The inputs for the elements of a list or a text are numbered.  A block that does not record how many
elements it has is taken to have as many as there are inputs for them, and this many are looked up
by their numbers, from zero on.  This finds everything that is connected as long as no number is
left out.  An input that is left out is not counted, though it is looked up, and so an element at the
end is lost.
-/

namespace Turtle

open Logo (Order)
open Emitter (slot slotOrder)

/-! ## Computations one after the other -/

/-- A list of computations goes well if each of them does in the state that the one before it has
left. -/
theorem PassM.mapM_eq_ok_iff {α β : Type} {f : α → PassM β} {as : List α} {p q : Pass}
    {bs : List β} : as.mapM f p = .ok bs q ↔
      bs.length = as.length ∧ ∃ states : ℕ → Pass, states 0 = p ∧ states as.length = q ∧
        ∀ i a, as[i]? = some a →
          ∃ b, bs[i]? = some b ∧ f a (states i) = .ok b (states (i + 1)) := by
  induction as generalizing p bs with
  | nil =>
    constructor
    · intro h
      cases h
      exact ⟨rfl, fun _ ↦ _, rfl, rfl, nofun⟩
    · rintro ⟨hlength, states, rfl, rfl, -⟩
      rw [List.length_eq_zero_iff.1 hlength]
      rfl
  | cons a as ih =>
    rw [List.mapM_cons]
    constructor
    · intro h
      obtain ⟨b, p', ha, h⟩ := of_bind_ok h
      obtain ⟨bs', q', has, h⟩ := of_bind_ok h
      cases h
      obtain ⟨hlength, states, rfl, rfl, hstates⟩ := ih.1 has
      -- The state at the start comes in front of the states of the other computations.
      refine ⟨congrArg (· + 1) hlength, Nat.rec p fun i _ ↦ states i, rfl, rfl, ?_⟩
      rintro (_ | i) a' ha'
      · cases ha'
        exact ⟨b, rfl, ha⟩
      · exact hstates i a' ha'
    · rintro ⟨hlength, states, rfl, rfl, hstates⟩
      obtain ⟨b, hb, ha⟩ := hstates 0 a rfl
      cases bs with
      | nil => cases hb
      | cons b' bs =>
        cases hb
        have has : as.mapM f (states 1) = .ok bs (states (as.length + 1)) :=
          ih.2 ⟨Nat.succ.inj hlength, fun i ↦ states (i + 1), rfl, rfl,
            fun i a' ha' ↦ hstates (i + 1) a' ha'⟩
        rw [bind_ok ha, bind_ok has]
        rfl

theorem mapM_congr {m : Type → Type} [Monad m] [LawfulMonad m] {α β : Type} {f g : α → m β}
    {as : List α} (h : ∀ a ∈ as, f a = g a) : as.mapM f = as.mapM g := by
  induction as with
  | nil => rfl
  | cons a as ih =>
    rw [List.mapM_cons, List.mapM_cons, h a List.mem_cons_self,
      ih fun b hb ↦ h b (List.mem_cons_of_mem a hb)]

/-! ## The inputs for elements -/

namespace Block

variable {b : Block} {i : ℕ}

/-- The inputs for elements have different numbers, and there are only those that something is
connected to. -/
structure SavesConnected (b : Block) : Prop where
  nodup : b.slotNames.Nodup
  connects : ∀ name ∈ b.slotNames, ∃ i, name = slot i ∧ b.Connects i

/-- If no number is too large, all numbers are there. -/
theorem SavesConnected.carries (h : b.SavesConnected)
    (hlt : ∀ i, b.Connects i → i < b.slotNames.length) (hi : i < b.slotNames.length) :
    b.Carries i := by
  have hsubset : b.slotNames ⊆ (List.range b.slotNames.length).map slot := by
    intro name hname
    obtain ⟨j, rfl, hj⟩ := h.connects name hname
    exact List.mem_map.2 ⟨j, List.mem_range.2 (hlt j hj), rfl⟩
  have hperm := (List.subperm_of_subset h.nodup hsubset).perm_of_length_le (by simp)
  exact hperm.mem_iff.2 (List.mem_map.2 ⟨i, List.mem_range.2 hi, rfl⟩)

end Block

/-! ## The elements -/

namespace Compiler

variable (c : Compiler) {b d : Block} {primitive : String} {n : ℕ}

/-- The code of an element: of what is connected to its input, or what stands for nothing. -/
def element (b : Block) (primitive : String) (n i : ℕ) : PassM String := do
  let code ← c.value b (slot i) (slotOrder n i)
  return if code == "" then Logo.vacant primitive else code

/-- The codes of so many elements. -/
def elements (b : Block) (primitive : String) (n : ℕ) : PassM (List String) :=
  (List.range n).mapM (c.element b primitive n)

theorem element_eq_ok_iff {i : ℕ} {p q : Pass} {s : String} :
    c.element b primitive n i p = .ok s q ↔ ∃ code,
      c.value b (slot i) (slotOrder n i) p = .ok code q ∧
        s = if code = "" then Logo.vacant primitive else code := by
  constructor
  · intro h
    obtain ⟨code, p', hcode, h⟩ := PassM.of_bind_ok h
    cases h
    exact ⟨code, hcode, by simp only [beq_iff_eq]⟩
  · rintro ⟨code, hcode, rfl⟩
    rw [element, PassM.bind_ok hcode]
    simp only [beq_iff_eq]
    rfl

/-- The elements are compiled in order, each in the state that the one before it has left. -/
theorem elements_eq_ok_iff {p q : Pass} {es : List String} :
    c.elements b primitive n p = .ok es q ↔
      es.length = n ∧ ∃ states : ℕ → Pass, states 0 = p ∧ states n = q ∧ ∀ i < n, ∃ code,
        c.value b (slot i) (slotOrder n i) (states i) = .ok code (states (i + 1)) ∧
          es[i]? = some (if code = "" then Logo.vacant primitive else code) := by
  rw [elements, PassM.mapM_eq_ok_iff, List.length_range]
  refine and_congr_right fun _ ↦ exists_congr fun states ↦
    and_congr_right fun _ ↦ and_congr_right fun _ ↦ ?_
  constructor
  · intro h i hi
    obtain ⟨s, hs, h⟩ := h i i (by rw [List.getElem?_range hi])
    obtain ⟨code, hcode, rfl⟩ := c.element_eq_ok_iff.1 h
    exact ⟨code, hcode, hs⟩
  · intro h i j hj
    obtain ⟨hi, rfl⟩ : i < n ∧ i = j := by simpa [List.getElem?_eq_some_iff] using hj
    obtain ⟨code, hcode, hs⟩ := h i hi
    exact ⟨_, hs, c.element_eq_ok_iff.2 ⟨code, hcode, rfl⟩⟩

/-- The elements depend on nothing but what is connected to the inputs of their numbers. -/
theorem elements_congr (h : ∀ i < n, d.target? (slot i) = b.target? (slot i)) :
    c.elements d primitive n = c.elements b primitive n := by
  refine mapM_congr fun i hi ↦ ?_
  rw [element, element, value, value, h i (List.mem_range.1 hi)]

end Compiler

namespace Compiler

variable {o : Options} {b d : Block} {primitive : String}

/-- A block of elements is what they are arranged to, with what belongs to it. -/
theorem block_arrange (hkind : gatherer? b.head.kind = some primitive) (henabled : b.head.enabled)
    (hroom : b.HasRoom) (alone plugged : Bool) :
    ({ options := o } : Compiler).block b alone plugged =
      ({ options := o } : Compiler).elements b primitive b.elementCount >>= fun es ↦
        ({ options := o } : Compiler).finish b alone plugged (Logo.arrange primitive es).1 >>=
          fun code ↦ pure (.value code (Logo.arrange primitive es).2) := by
  rw [block_written _ henabled (standard?_gather hkind),
    Emitter.gather_eq _ ((itemCount_le_capacity_iff ..).2 hroom), Recipe.run_bind, Recipe.run_mapM,
    bind_assoc, itemCount_view]
  rfl

/-- What is plugged in does not depend on what is connected to inputs of other numbers. -/
theorem block_congr_slots (hkind : gatherer? b.head.kind = some primitive)
    (henabled : b.head.enabled) (hhead : d.head = b.head) (hnext : d.next = b.next)
    (hroom : b.HasRoom) (hroom' : d.HasRoom) (hcount : d.elementCount = b.elementCount)
    (h : ∀ i < b.elementCount, d.target? (slot i) = b.target? (slot i)) (alone : Bool) :
    ({ options := o } : Compiler).block d alone true =
      ({ options := o } : Compiler).block b alone true := by
  rw [block_arrange (b := d) (by rwa [hhead]) (by rwa [hhead]) hroom',
    block_arrange hkind henabled hroom, hcount, elements_congr _ h]
  refine bind_congr fun es ↦ ?_
  rw [finish, finish, finishWith, finishWith, hnext]
  rfl

/-- A block that does not record how many elements it has is put together from as many as it has
inputs for them, each the code of what is connected to the input of its number.  What is connected
to other inputs is lost.  Nothing is lost if no number is left out, and, if only inputs that
something is connected to are there, in no other case. -/
theorem block_slots (hkind : gatherer? b.head.kind = some primitive) (henabled : b.head.enabled)
    (hcount : b.head.mutation.itemCount = none) (alone plugged : Bool) :
    (({ options := o } : Compiler).block b alone plugged =
      ({ options := o } : Compiler).elements b primitive b.slotNames.length >>= fun es ↦
        ({ options := o } : Compiler).finish b alone plugged (Logo.arrange primitive es).1 >>=
          fun code ↦ pure (.value code (Logo.arrange primitive es).2)) ∧
      (∀ p q es,
        ({ options := o } : Compiler).elements b primitive b.slotNames.length p = .ok es q ↔
          es.length = b.slotNames.length ∧ ∃ states : ℕ → Pass,
            states 0 = p ∧ states b.slotNames.length = q ∧
            ∀ i < b.slotNames.length, ∃ code,
              ({ options := o } : Compiler).value b (slot i) (slotOrder b.slotNames.length i)
                (states i) = .ok code (states (i + 1)) ∧
              es[i]? = some (if code = "" then Logo.vacant primitive else code)) ∧
      (∀ d : Block, d.head = b.head → d.next = b.next →
        d.slotNames.length = b.slotNames.length →
        (∀ i < b.slotNames.length, d.target? (slot i) = b.target? (slot i)) →
        ({ options := o } : Compiler).block d alone true =
          ({ options := o } : Compiler).block b alone true) ∧
      ((∀ i, b.Connects i → ∀ j ≤ i, b.Carries j) →
        ∀ i, b.Connects i → i < b.slotNames.length) ∧
      (b.SavesConnected → (∀ i, b.Connects i → i < b.slotNames.length) →
        ∀ i, b.Connects i → ∀ j ≤ i, b.Carries j) := by
  have hlength {d : Block} (hd : d.head = b.head) : d.elementCount = d.slotNames.length := by
    rw [Block.elementCount, hd, hcount, Option.getD_none]
  refine ⟨?_, fun p q es ↦ elements_eq_ok_iff _, fun d hhead hnext hslots htarget ↦ ?_,
    fun hgap i hi ↦ Block.le_length_slotNames fun j hj ↦ hgap i hi j (Nat.lt_succ_iff.1 hj),
    fun hsaves hlt i hi j hj ↦ hsaves.carries hlt (hj.trans_lt (hlt i hi))⟩
  · rw [block_arrange hkind henabled (Block.hasRoom_of_unrecorded hcount), hlength rfl]
  · apply block_congr_slots hkind henabled hhead hnext
    · exact Block.hasRoom_of_unrecorded hcount
    · exact Block.hasRoom_of_unrecorded (by rwa [hhead])
    · rw [hlength hhead, hlength rfl, hslots]
    · rwa [hlength rfl]

end Compiler

/-! ## Lists of texts -/

namespace Block

/-- A text, by itself. -/
def ofText (t : String) : Block := (ofKind "text" "t").withField "TEXT" (.text t)

/-- The input for the element of a number, with a text. -/
def textInput (text : ℕ × String) : Input Block where
  name := slot text.1
  shape := .value
  target := some (ofText text.2)

/-- A list of texts, each connected to the input of its number. -/
def numbered (itemCount : Option ℕ) (texts : List (ℕ × String)) : Block where
  head := { kind := "lists_create_with", mutation := { itemCount } }
  inputs := texts.map textInput

theorem target?_numbered (count : Option ℕ) (texts : List (ℕ × String)) (i : ℕ) :
    (numbered count texts).target? (slot i) = (texts.lookup i).map ofText := by
  change ((texts.map textInput).find? (·.name == slot i)).bind (·.target) = _
  induction texts with
  | nil => rfl
  | cons text texts ih =>
    rw [List.map_cons, List.lookup_cons, List.find?_cons]
    by_cases h : i = text.1
    · have hslot : ((textInput text).name == slot i) = true := beq_iff_eq.2 (congrArg slot h.symm)
      rw [hslot, beq_iff_eq.2 h]
      rfl
    · have hslot : ((textInput text).name == slot i) = false :=
        beq_false_of_ne fun heq ↦ h (Emitter.slot_injective heq).symm
      rw [hslot, beq_false_of_ne h]
      exact ih

end Block

namespace Compiler

/-- The elements of a list of texts are the texts of their numbers. -/
theorem block_numbered {count : Option ℕ} {texts : List (ℕ × String)}
    (hroom : (Block.numbered count texts).HasRoom) :
    ({} : Compiler).block (.numbered count texts) false true =
      let code := Logo.arrange "list" ((List.range (Block.numbered count texts).elementCount).map
        fun i ↦ (texts.lookup i).elim "[]" Logo.quote)
      pure (.value code.1 code.2) := by
  have helement (n : ℕ) : ({} : Compiler).element (.numbered count texts) "list" n =
      fun i ↦ pure ((texts.lookup i).elim "[]" Logo.quote) := by
    funext i
    have htarget := Block.target?_numbered count texts i
    rw [element]
    cases htext : texts.lookup i with
    | none =>
      rw [value, htarget, htext]
      rfl
    | some t =>
      rw [htext] at htarget
      rw [value_text htarget rfl rfl rfl, pure_bind]
      exact congrArg pure (if_neg (by simpa using quote_ne_empty _))
  rw [block_arrange rfl rfl hroom, elements, helement, List.mapM_pure, pure_bind, finish_plugged _ rfl,
    pure_bind]

end Compiler

/-- Two texts with numbers that are not next to each other. -/
def Block.gapped : Block := numbered none [(0, "a"), (2, "c")]

theorem Compiler.block_slots_gapped :
    (gatherer? Block.gapped.head.kind = some "list" ∧ Block.gapped.head.enabled ∧
      Block.gapped.head.mutation.itemCount = none) ∧
    ({} : Compiler).block .gapped false true =
      ({} : Compiler).elements .gapped "list" Block.gapped.slotNames.length >>= fun es ↦
        ({} : Compiler).finish .gapped false true (Logo.arrange "list" es).1 >>= fun code ↦
          pure (.value code (Logo.arrange "list" es).2) :=
  ⟨⟨rfl, rfl, rfl⟩, (block_slots rfl rfl rfl false true).1⟩

/-- The second text is lost, as the input for the element before it is left out.  It is there when
the block records that it has three elements. -/
theorem Compiler.loses_element :
    ({} : Compiler).value .gapped (slot 2) .loose = pure "\"c" ∧
      ({} : Compiler).block .gapped false true = pure (.value "list \"a []" .procedure) ∧
      ({} : Compiler).block (.numbered (some 3) [(0, "a"), (2, "c")]) false true =
        pure (.value "(list \"a [] \"c)" .atomic) := by
  have htarget : Block.gapped.target? (slot 2) = some (.ofText "c") := Block.target?_numbered _ _ 2
  refine ⟨?_, ?_, ?_⟩
  · rw [value_text htarget rfl rfl rfl]
    rfl
  · rw [Block.gapped, block_numbered (Block.hasRoom_of_unrecorded rfl)]
    rfl
  · rw [block_numbered (Block.hasRoom_of_le_limit (by decide))]
    rfl

end Turtle
