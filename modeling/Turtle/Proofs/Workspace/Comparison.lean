import Turtle.Compile.Session
import Turtle.Emitter.Standard
import Turtle.Proofs.Json.Finite
import Turtle.Proofs.Number.Literal
import Turtle.Proofs.Workspace.Mirror
import Turtle.Proofs.Workspace.Order
import Turtle.Proofs.Xml.Plain
import Turtle.Workspace.Format

/-!
# The comparison of blocks

Top blocks are sorted by a comparison in which coordinates that do not compare count as equal.  That
makes no total preorder of it: a block at a height that is not a number is equal to all others,
which are not equal to each other.  The comparison is one on blocks whose coordinates are numbers,
and JSON has no other ones; but in XML a coordinate may be written `nan`.
-/

namespace Turtle

open Xml (Element)

namespace Block

/-! ## Transitivity -/

section Transitivity

variable {a b c : Block}

theorem comparePosition_of_not_compares (h : ¬ a.Compares b) : a.comparePosition b = .eq :=
  not_imp_comm.1 compares_of_ne h

theorem Compares.position_le (h : a.Compares b) (hle : (a.comparePosition b).isLE) :
    a.position ≤ b.position := by
  rw [h.comparePosition_eq] at hle
  exact compare_le_iff_le.1 (Ordering.isLE_iff_ne_gt.1 hle)

theorem height_le_of_position_le (h : a.position ≤ b.position) : a.height ≤ b.height :=
  Prod.Lex.monotone_fst _ _ h

/-- If a block compares with two that do not compare with each other, these are at one height and
the block is at another. -/
theorem Compares.height_ne (hb : a.Compares b) (hc : a.Compares c) (h : ¬ b.Compares c) :
    b.height = c.height ∧ a.height ≠ b.height := by
  have heq : b.height = c.height := by
    by_contra hne
    exact h ⟨hb.2.1, hc.2.1, fun heq ↦ absurd heq hne⟩
  refine ⟨heq, fun hab ↦ h ⟨hb.2.1, hc.2.1, fun _ ↦ ?_⟩⟩
  exact ⟨(hb.2.2 hab).2, (hc.2.2 (hab.trans heq)).2⟩

/-- What comes before a block comes before all that the block comes before. -/
theorem comparePosition_lt_trans (hab : a.comparePosition b = .lt)
    (hbc : b.comparePosition c = .lt) : a.comparePosition c = .lt := by
  have hab' : a.Compares b := compares_of_ne (by rw [hab]; exact nofun)
  have hbc' : b.Compares c := compares_of_ne (by rw [hbc]; exact nofun)
  rw [hab'.comparePosition_eq, compare_lt_iff_lt] at hab
  rw [hbc'.comparePosition_eq, compare_lt_iff_lt] at hbc
  have hac : a.Compares c := by
    by_contra hac
    obtain ⟨heq, hne⟩ := hab'.symm.height_ne hbc' hac
    have hle := height_le_of_position_le hbc.le
    rw [← heq] at hle
    exact hne (le_antisymm hle (height_le_of_position_le hab.le))
  rw [hac.comparePosition_eq, compare_lt_iff_lt]
  exact hab.trans hbc

/-- Between two blocks that stand the other way round there is a third exactly if it compares with
neither. -/
theorem isLE_and_isLE_iff (h : a.comparePosition c = .gt) :
    (a.comparePosition b).isLE ∧ (b.comparePosition c).isLE ↔ ¬ a.Compares b ∧ ¬ b.Compares c := by
  have hac : a.Compares c := compares_of_ne (by rw [h]; exact nofun)
  rw [hac.comparePosition_eq, compare_gt_iff_gt] at h
  have hheight := height_le_of_position_le h.le
  constructor
  · rintro ⟨hab, hbc⟩
    by_cases hab' : a.Compares b <;> by_cases hbc' : b.Compares c
    · have hle := (hab'.position_le hab).trans (hbc'.position_le hbc)
      exact absurd h hle.not_gt
    · obtain ⟨heq, hne⟩ := hab'.height_ne hac hbc'
      have hle := height_le_of_position_le (hab'.position_le hab)
      rw [← heq] at hheight
      exact absurd (le_antisymm hle hheight) hne
    · obtain ⟨heq, hne⟩ := hac.symm.height_ne hbc'.symm hab'
      have hle := height_le_of_position_le (hbc'.position_le hbc)
      rw [← heq] at hle
      exact absurd (le_antisymm hheight hle) hne
    · exact ⟨hab', hbc'⟩
  · rintro ⟨hab, hbc⟩
    rw [comparePosition_of_not_compares hab, comparePosition_of_not_compares hbc]
    exact ⟨rfl, rfl⟩

end Transitivity

/-! ## Preorders -/

/-- Among some blocks the comparison is a total preorder: it answers the other way round from the
other side, and it is transitive with its equality. -/
def ArePreordered (P : Block → Prop) : Prop :=
  Std.TransCmp fun a b : Subtype P ↦ a.1.comparePosition b.1

/-- The comparison is a total preorder exactly if blocks are equal between which there is one that
compares with neither. -/
theorem arePreordered_iff {P : Block → Prop} : ArePreordered P ↔
    ∀ a b c, P a → P b → P c → ¬ a.Compares b → ¬ b.Compares c → a.comparePosition c = .eq := by
  constructor
  · intro h a b c ha hb hc hab hbc
    exact h.eq_trans (a := ⟨a, ha⟩) (b := ⟨b, hb⟩) (c := ⟨c, hc⟩)
      (comparePosition_of_not_compares hab) (comparePosition_of_not_compares hbc)
  · intro h
    have horiented : Std.OrientedCmp fun a b : Subtype P ↦ a.1.comparePosition b.1 :=
      ⟨fun {a b} ↦ comparePosition_swap b.1 a.1⟩
    refine { horiented with isLE_trans := fun {a b c} hab hbc ↦ ?_ }
    rw [Ordering.isLE_iff_ne_gt]
    intro hgt
    obtain ⟨hab, hbc⟩ := (isLE_and_isLE_iff hgt).1 ⟨hab, hbc⟩
    have heq := h a b c a.2 b.2 c.2 hab hbc
    rw [hgt] at heq
    cases heq

theorem arePreordered_of_isPlaced {P : Block → Prop} (h : ∀ b, P b → b.IsPlaced) :
    ArePreordered P :=
  arePreordered_iff.2 fun a b _ ha hb _ hab _ ↦ absurd ((h a ha).compares (h b hb)) hab

/-! ## Blocks that are read -/

/-- A block of a workspace that is read from a text in a format. -/
def IsRead (f : Format) (b : Block) : Prop :=
  ∃ s w, Workspace.read f s = .ok w ∧ b ∈ w.allBlocks

/-- The coordinates that a block has are finite. -/
def HasFinitePlace (b : Block) : Prop :=
  ∀ x, b.head.x = some x ∨ b.head.y = some x → x.IsFinite

theorem HasFinitePlace.isPlaced {b : Block} (h : b.HasFinitePlace) : b.IsPlaced :=
  ⟨fun hx ↦ (h .nan (.inl hx)).ne_nan rfl, fun hy ↦ (h .nan (.inr hy)).ne_nan rfl⟩

section OfJson

variable {j node : Json} {b : Block}

theorem isFinite_of_mem_membersOf (hj : j.IsFinite) {key : String} {entry : String × Json}
    (h : entry ∈ j.membersOf key) : entry.2.IsFinite := by
  rw [Json.membersOf] at h
  cases hmember : j.member? key with
  | none =>
    rw [hmember] at h
    cases h
  | some k =>
    rw [hmember] at h
    cases hj.member hmember with
    | object hmembers => exact hmembers entry h
    | null | bool | number | text | array => cases h

theorem isFinite_of_connectedNode? {input : Json} (hinput : input.IsFinite)
    (h : connectedNode? input = some node) : node.IsFinite := by
  simp only [connectedNode?, Option.orElse_eq_orElse, Option.orElse_eq_or,
    Option.or_eq_some_iff] at h
  rcases h with h | ⟨-, h⟩ <;> exact hinput.member h

/-- What is finite in a document is finite in every part of it. -/
theorem Reaches.isFinite {path : List LoadStep} (h : Reaches j path node) (hj : j.IsFinite) :
    node.IsFinite := by
  induction h with
  | self => exact hj
  | input hinput hchild _ ih =>
    exact ih (isFinite_of_connectedNode? (isFinite_of_mem_membersOf hj hinput) hchild)
  | next hchild _ ih =>
    obtain ⟨link, hlink, hchild⟩ := Option.bind_eq_some_iff.1 hchild
    exact ih ((hj.member hlink).member hchild)

theorem hasFinitePlace_of_ofJson (hj : j.IsFinite) (h : ofJson j = .ok b) : b.HasFinitePlace := by
  have hcoordinate {key : String} {x : Binary64}
      (h : (j.member? key).bind Json.binary64? = some x) : x.IsFinite := by
    obtain ⟨k, hk, hx⟩ := Option.bind_eq_some_iff.1 h
    cases hj.member hk with
    | number hn =>
      cases hx
      exact hn
    | null | bool | text | array | object => cases hx
  obtain ⟨kind, mutation, hhead, -⟩ := exists_of_ofJson_ok h
  rw [HasFinitePlace, hhead]
  rintro x (hx | hy)
  · exact hcoordinate hx
  · exact hcoordinate hy

/-- In JSON there are no coordinates but finite ones. -/
theorem IsRead.hasFinitePlace (h : b.IsRead .json) : b.HasFinitePlace := by
  obtain ⟨s, w, hread, hb⟩ := h
  change Workspace.readJson s = .ok w at hread
  unfold Workspace.readJson at hread
  split at hread
  case h_1 root hroot =>
    have hfinite : root.IsFinite := Json.isFinite_of_read hroot
    obtain ⟨nodes, hnodes, top, htop, path, node, hreaches, hnode⟩ :=
      Workspace.exists_reaches_of_ofJson hread hb
    obtain ⟨blocks, hblocks, hnodes⟩ := Option.bind_eq_some_iff.1 hnodes
    cases (hfinite.member hblocks).member hnodes with
    | array hitems => exact hasFinitePlace_of_ofJson (hreaches.isFinite (hitems top htop)) hnode
  case h_2 | h_3 => cases hread

end OfJson

section OfXml

variable {e c : Element} {b t : Block} {p : Part}

/-- An element stands within another one, or is the same. -/
def Encloses (e c : Element) : Prop := Relation.ReflTransGen (fun e c ↦ c ∈ e.children) e c

/-- The block of a part, if there is one. -/
def Part.block? : Part → Option Block
  | .input i => i.target
  | .next b => some b
  | _ => none

theorem of_partOfXml_ok {id : String} (h : partOfXml id c = .ok p) (ht : p.block? = some t) :
    ∃ child ∈ c.children, ofXml child = .ok t := by
  rcases partOfXml_cases h with ⟨_, i, -, hread, rfl⟩ | ⟨child, _, -, hchild, hread, rfl⟩ |
    ⟨-, -, rfl⟩
  · obtain ⟨child, hchild, hread⟩ := hread t ht
    exact ⟨child, mem_of_connected? hchild, hread⟩
  · cases ht
    exact ⟨child, mem_of_linked? hchild, hread⟩
  · unfold Part.ofXml at ht
    split at ht <;> cases ht

/-- By induction on the block that is read: all blocks connected to it are read from elements within
its own. -/
theorem exists_encloses_of_ofXml (h : ofXml e = .ok b) :
    ∀ d ∈ b.descendants, ∃ c, Encloses e c ∧ ofXml c = .ok d := by
  induction b using induct generalizing e with
  | step b hinputs hnext =>
    obtain ⟨kind, parts, -, hreads, hb⟩ := exists_of_ofXml_ok h
    have hpart {p : Part} {t : Block} (hp : p ∈ parts) (ht : p.block? = some t) :
        ∃ child, Encloses e child ∧ ofXml child = .ok t := by
      obtain ⟨c, hc, hread⟩ := LoadM.exists_of_mapM_ok hreads hp
      obtain ⟨child, hchild, ht⟩ := of_partOfXml_ok hread ht
      exact ⟨child, .tail (.single hc) hchild, ht⟩
    intro d hd
    rcases mem_descendants_iff.1 hd with rfl | hd
    · exact ⟨e, .refl, h⟩
    · rcases mem_strict_iff.1 hd with ⟨i, hi, t, ht, hd⟩ | ⟨t, ht, hd⟩
      · have hmem : Part.input i ∈ parts := by
          rw [hb] at hi
          obtain ⟨p, hp, hpi⟩ := List.mem_filterMap.1 hi
          cases p <;> cases hpi
          exact hp
        obtain ⟨child, hchild, hread⟩ := hpart hmem ht
        obtain ⟨c, hc, hd⟩ := hinputs i hi t ht hread d hd
        exact ⟨c, hchild.trans hc, hd⟩
      · have hmem : Part.next t ∈ parts := by
          rw [hb] at ht
          obtain ⟨p, hp, hpt⟩ := List.mem_filterMap.1 (List.mem_of_getLast? ht)
          cases p <;> cases hpt
          exact hp
        obtain ⟨child, hchild, hread⟩ := hpart hmem rfl
        obtain ⟨c, hc, hd⟩ := hnext t ht hread d hd
        exact ⟨c, hchild.trans hc, hd⟩

/-- A block that is read from XML is read from an element of the document. -/
theorem IsRead.exists_element (h : b.IsRead .xml) :
    ∃ s root e, Element.read? s = some root ∧ Encloses root e ∧ ofXml e = .ok b := by
  obtain ⟨s, w, hread, hb⟩ := h
  change LoadM.require .malformedXml (Element.read? s) >>= Workspace.ofXml = .ok w at hread
  obtain ⟨root, hroot, hread⟩ := LoadM.of_bind_ok hread
  obtain ⟨blocks, hblocks, hw⟩ := LoadM.of_bind_ok hread
  cases hw
  obtain ⟨top, htop, hb⟩ := List.mem_flatMap.1 hb
  obtain ⟨⟨e, place⟩, he, htopRead⟩ :=
    LoadM.exists_of_mapM_ok hblocks (Workspace.mem_ordered.1 htop)
  have hchild : e ∈ root.children := List.mem_of_mem_filter (List.fst_mem_of_mem_zipIdx he)
  obtain ⟨c, hc, hread⟩ := exists_encloses_of_ofXml (LoadM.of_within_ok htopRead) b hb
  exact ⟨s, root, c, LoadM.of_require_ok hroot, .head hchild hc, hread⟩

/-- In XML a coordinate is no number exactly if it is written so. -/
theorem isPlaced_iff_of_ofXml (h : ofXml e = .ok b) :
    b.IsPlaced ↔ ∀ key ∈ ["x", "y"], ∀ v, e.attribute? key = some v →
      ¬ Binary64.NamesNan v.toList := by
  have hcoordinate (key : String) :
      (e.attribute? key).bind (fun v ↦ Binary64.read? v.toList) ≠ some .nan ↔
        ∀ v, e.attribute? key = some v → ¬ Binary64.NamesNan v.toList := by
    rw [ne_eq, Option.bind_eq_some_iff, not_exists]
    simp only [not_and, Binary64.read?_eq_nan_iff]
  obtain ⟨kind, parts, -, -, rfl⟩ := exists_of_ofXml_ok h
  rw [IsPlaced, List.forall_mem_cons, List.forall_mem_singleton, ← hcoordinate,
    ← hcoordinate]
  exact Iff.rfl

end OfXml

end Block

/-! ## Two documents -/

namespace Workspace

variable {w : Workspace} {α : Type} {f : Workspace → α} {a : α}

theorem isRead_of_mem_topBlocks {format : Format} {s : String} (h : read format s = .ok w)
    {b : Block} (hb : b ∈ w.topBlocks) : b.IsRead format :=
  ⟨s, w, h, List.mem_flatMap.2 ⟨b, mem_ordered.2 hb, b.self_mem_descendants⟩⟩

theorem exists_of_toOption {m : LoadM Workspace} (h : m.toOption.map f = some a) :
    ∃ w, m = .ok w ∧ f w = a := by
  cases m with
  | error e => cases h
  | ok w => exact ⟨w, rfl, Option.some.inj h⟩

/-- Of a workspace that is read from a document without entities something can be computed. -/
theorem exists_of_readPlain? {s : String} {cs : List Char} (hs : s.toList = cs)
    (h : ((Element.readPlain? cs).bind fun e ↦ (ofXml e).toOption.map f) = some a) :
    ∃ w, read .xml s = .ok w ∧ f w = a := by
  obtain ⟨e, he, h⟩ := Option.bind_eq_some_iff.1 h
  obtain ⟨w, hw, ha⟩ := exists_of_toOption h
  refine ⟨w, ?_, ha⟩
  rw [← hs] at he
  change LoadM.require .malformedXml (Element.read? s) >>= ofXml = .ok w
  rw [Element.read?_of_readPlain? he]
  exact hw

/-- How the top blocks compare, row by row. -/
def comparisons (w : Workspace) : List (List Ordering) :=
  w.topBlocks.map fun a ↦ w.topBlocks.map a.comparePosition

theorem exists_of_comparisons {row₁ row₂ row₃ : List Ordering}
    (h : w.comparisons = [row₁, row₂, row₃]) : ∃ a b c, w.topBlocks = [a, b, c] ∧
      [a, b, c].map a.comparePosition = row₁ ∧ [a, b, c].map b.comparePosition = row₂ := by
  have hlength : w.topBlocks.length = 3 := by
    have hrows : w.comparisons.length = 3 := congrArg List.length h
    rwa [comparisons, List.length_map] at hrows
  obtain ⟨a, b, c, hw⟩ := List.length_eq_three.1 hlength
  rw [comparisons, hw] at h
  cases h
  exact ⟨a, b, c, hw, rfl, rfl⟩

/-- If a block is equal to two others that are told apart, it compares with neither. -/
theorem exists_between {row₃ : List Ordering}
    (h : w.comparisons = [[.eq, .eq, .gt], [.eq, .eq, .eq], row₃]) : ∃ a b c,
      w.topBlocks = [a, b, c] ∧ ¬ a.Compares b ∧ ¬ b.Compares c ∧ a.comparePosition c = .gt := by
  obtain ⟨a, b, c, hw, hrow, hrow'⟩ := exists_of_comparisons h
  have hab : a.comparePosition b = .eq := congrArg (·.getD 1 .lt) hrow
  have hbc : b.comparePosition c = .eq := congrArg (·.getD 2 .lt) hrow'
  have hac : a.comparePosition c = .gt := congrArg (·.getD 2 .lt) hrow
  obtain ⟨hab, hbc⟩ := (Block.isLE_and_isLE_iff hac).1 ⟨by rw [hab]; rfl, by rw [hbc]; rfl⟩
  exact ⟨a, b, c, hw, hab, hbc, hac⟩

/-- Three blocks: the first one is above the others, and the last one has no second coordinate. -/
def stairs : String :=
  "\x7b\"blocks\":\x7b\"blocks\":[\x7b\"type\":\"\",\"y\":-1\x7d,\x7b\"type\":\"\",\"x\":9,\"y\":1\x7d," ++
    "\x7b\"type\":\"\",\"y\":1\x7d]\x7d\x7d"

theorem exists_stairs : ∃ w, read .json stairs = .ok w ∧
    w.comparisons = [[.eq, .lt, .lt], [.gt, .eq, .lt], [.gt, .gt, .eq]] :=
  exists_of_toOption (by decide +kernel)

/-- Three blocks: the second one is disabled and at no height, and the last one is above the
first. -/
def lopsided : String :=
  "<a><block type='logo_pen' y='2'><field name='OP'>PD</field></block>" ++
    "<block type='logo_pen' y='nan' disabled='true'/>" ++
    "<block type='logo_pen' y='1'><field name='OP'>PU</field></block></a>"

theorem exists_lopsided : ∃ w, read .xml lopsided = .ok w ∧
    (w.comparisons, ({} : Compiler).program w) =
      ([[.eq, .eq, .gt], [.eq, .eq, .eq], [.lt, .eq, .eq]], .ok "pd\n\npu\n") := by
  have hs : lopsided.toList = _ :=
    String.toList_append.trans (congrArg₂ (· ++ ·) (String.toList_append.trans
      (congrArg₂ (· ++ ·) String.toList_ofList String.toList_ofList)) String.toList_ofList)
  exact exists_of_readPlain? hs (by decide +kernel)

end Workspace

/-- The element of a block that is written to be at no height. -/
def Block.adrift : Element where
  name := "block"
  attributes := [("type", "logo_pen"), ("y", "-NaN")]

theorem Block.exists_adrift : ∃ b, ofXml adrift = .ok b := by
  refine ⟨{ head := { kind := "logo_pen", y := some .nan } }, ?_⟩
  rw [ofXml_eq]
  rfl

/-! ## The laws of the comparison -/

namespace Block

/-- Blocks compare the other way round from the other side, and what comes before a block comes
before all that the block comes before.  Among some blocks the comparison is a total preorder exactly
if any two are equal that have one between them which compares with neither.  So it is one among
blocks that are read from JSON, whose coordinates are finite, and blocks that are read from XML, from
an element of the document which has no coordinate that is written `nan`. -/
theorem comparison_laws (P : Block → Prop) (a b c : Block) (e : Element) :
    b.comparePosition a = (a.comparePosition b).swap ∧
      (a.comparePosition b = .lt → b.comparePosition c = .lt → a.comparePosition c = .lt) ∧
      (ArePreordered P ↔ ∀ a b c, P a → P b → P c →
        ¬ a.Compares b → ¬ b.Compares c → a.comparePosition c = .eq) ∧
      ((∀ b, P b → b.IsRead .json ∨ b.IsRead .xml ∧ b.IsPlaced) → ArePreordered P) ∧
      (b.IsRead .json → b.HasFinitePlace) ∧
      (b.IsRead .xml →
        ∃ s root e, Element.read? s = some root ∧ Encloses root e ∧ ofXml e = .ok b) ∧
      (ofXml e = .ok b → (b.IsPlaced ↔ ∀ key ∈ ["x", "y"], ∀ v, e.attribute? key = some v →
        ¬ Binary64.NamesNan v.toList)) := by
  refine ⟨comparePosition_swap a b, comparePosition_lt_trans, arePreordered_iff, fun hP ↦ ?_,
    IsRead.hasFinitePlace, IsRead.exists_element, isPlaced_iff_of_ofXml⟩
  refine arePreordered_of_isPlaced fun b hb ↦ ?_
  rcases hP b hb with hjson | ⟨-, hplaced⟩
  · exact hjson.hasFinitePlace.isPlaced
  · exact hplaced

/-- The steps of the stairs compare as they should, and the lopsided blocks do not. -/
theorem comparison_laws_stairs :
    (∃ w a b c, Workspace.read .json Workspace.stairs = .ok w ∧ w.topBlocks = [a, b, c] ∧
      a.comparePosition b = .lt ∧ b.comparePosition c = .lt ∧ a.comparePosition c = .lt ∧
      c.comparePosition b = .gt ∧ b.HasFinitePlace ∧ ArePreordered (· ∈ w.topBlocks)) ∧
    (∃ w a b c, Workspace.read .xml Workspace.lopsided = .ok w ∧ w.topBlocks = [a, b, c] ∧
      ¬ a.Compares b ∧ ¬ b.Compares c ∧ a.comparePosition c ≠ .eq ∧
      ¬ ArePreordered (· ∈ w.topBlocks) ∧ ∃ e, ofXml e = .ok b) ∧
    ∃ b, ofXml adrift = .ok b ∧ ¬ b.IsPlaced := by
  refine ⟨?_, ?_, ?_⟩
  · obtain ⟨w, hread, hrows⟩ := Workspace.exists_stairs
    obtain ⟨a, b, c, hw, hrow, hrow'⟩ := Workspace.exists_of_comparisons hrows
    have hab : a.comparePosition b = .lt := congrArg (·.getD 1 .eq) hrow
    have hbc : b.comparePosition c = .lt := congrArg (·.getD 2 .eq) hrow'
    have hmem (d : Block) (hd : d ∈ w.topBlocks) : d.IsRead .json :=
      Workspace.isRead_of_mem_topBlocks hread hd
    obtain ⟨-, htrans, -, hpreordered, hfinite, -⟩ :=
      comparison_laws (· ∈ w.topBlocks) a b c adrift
    obtain ⟨hswap, -⟩ := comparison_laws (· ∈ w.topBlocks) b c a adrift
    refine ⟨w, a, b, c, hread, hw, hab, hbc, htrans hab hbc, ?_, hfinite (hmem b (by simp [hw])),
      hpreordered fun d hd ↦ .inl (hmem d hd)⟩
    rw [hswap, hbc]
    rfl
  · obtain ⟨w, hread, hcomputed⟩ := Workspace.exists_lopsided
    obtain ⟨a, b, c, hw, hab, hbc, hac⟩ :=
      Workspace.exists_between (congrArg Prod.fst hcomputed)
    have hne : a.comparePosition c ≠ .eq := by
      rw [hac]
      exact nofun
    obtain ⟨-, -, hpreordered, -, -, helement, -⟩ :=
      comparison_laws (· ∈ w.topBlocks) a b c adrift
    refine ⟨w, a, b, c, hread, hw, hab, hbc, hne, fun h ↦ hne ?_, ?_⟩
    · exact hpreordered.1 h a b c (by simp [hw]) (by simp [hw]) (by simp [hw]) hab hbc
    · obtain ⟨-, -, e, -, -, he⟩ :=
        helement (Workspace.isRead_of_mem_topBlocks hread (by simp [hw]))
      exact ⟨e, he⟩
  · obtain ⟨b, hread⟩ := exists_adrift
    obtain ⟨-, -, -, -, -, -, hplaced⟩ := comparison_laws (· = b) b b b adrift
    refine ⟨b, hread, fun h ↦ ?_⟩
    exact (hplaced hread).1 h "y" (by decide) "-NaN" rfl (by decide)

end Block

/-- A block at no height is equal to two that are not equal, so that the blocks that are read are
not preordered; and a lower block is compiled before a higher one. -/
theorem Workspace.program_lopsided : ∃ w, read .xml lopsided = .ok w ∧
    w.comparisons = [[.eq, .eq, .gt], [.eq, .eq, .eq], [.lt, .eq, .eq]] ∧
    ({} : Compiler).program w = .ok "pd\n\npu\n" ∧ "pd\n\npu\n" ≠ "pu\n\npd\n" ∧
    ¬ Block.ArePreordered fun b ↦ ∃ format, b.IsRead format := by
  obtain ⟨w, hread, hcomputed⟩ := exists_lopsided
  have hrows := congrArg Prod.fst hcomputed
  refine ⟨w, hread, hrows, congrArg Prod.snd hcomputed, by decide, fun h ↦ ?_⟩
  obtain ⟨a, b, c, hw, hab, hbc, hac⟩ := exists_between hrows
  have hmem (d : Block) (hd : d ∈ [a, b, c]) : ∃ format, d.IsRead format :=
    ⟨.xml, isRead_of_mem_topBlocks hread (hw ▸ hd)⟩
  have heq := Block.arePreordered_iff.1 h a b c (hmem a (by simp)) (hmem b (by simp))
    (hmem c (by simp)) hab hbc
  rw [hac] at heq
  cases heq

end Turtle
