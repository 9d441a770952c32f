import Mathlib.Algebra.GroupWithZero.Nat
import Turtle.Proofs.Compile.Registration
import Turtle.Proofs.Compile.Session

/-!
# Places in the table of definitions

A host may ask a pass for helpers and define procedures, in any order, and all their definitions go
into one table.  A helper is under its own key there, and a procedure under its name behind a percent
sign.  So the two meet if the key of a helper begins with that sign: a helper that comes second is
listed beside the procedure, but one that comes first is replaced by it.
-/

namespace Turtle

/-! ## What a host registers -/

/-- What a host asks of a pass about helpers, procedures and names. -/
inductive Errand where
  /-- The name of a helper. -/
  | helper (key : String) (lines : List String)
  /-- The definition of a procedure. -/
  | define (procedure code : String)
  /-- The identifier of a name. -/
  | name (kind : NameKind) (nameOrId : String)
deriving DecidableEq, Repr

namespace Errand

/-- The call that a host makes. -/
def call : Errand → Session.Call
  | helper key lines => .act (.helper key lines)
  | define procedure code => .act (.define procedure code)
  | name kind nameOrId => .act (.name kind nameOrId)

/-- Whose definition is registered. -/
def owner? : Errand → Option Owner
  | helper key _ => some (.helper key)
  | define procedure _ => some (.procedure procedure)
  | name _ _ => none

/-- The lines that come with a request for the helper of a key. -/
def lines? (key : String) : Errand → Option (List String)
  | helper key' lines => if key' = key then some lines else none
  | define _ _ | name _ _ => none

/-- The code that comes with a definition of a procedure. -/
def code? (procedure : String) : Errand → Option String
  | define procedure' code => if procedure' = procedure then some code else none
  | helper _ _ | name _ _ => none

/-- The owners of definitions, in the order in which they first register one. -/
def owners (errands : List Errand) : List Owner := (errands.filterMap owner?).eraseDups

/-- The lines that came first for a helper. -/
def firstLines (errands : List Errand) (key : String) : List String :=
  (errands.findSome? (·.lines? key)).getD []

/-- The code that came last for a procedure. -/
def lastCode (errands : List Errand) (procedure : String) : String :=
  (errands.reverse.findSome? (·.code? procedure)).getD ""

end Errand

open Errand (owners firstLines lastCode)

namespace Owner

/-- The key of the definition. -/
def key : Owner → String
  | helper key => key
  | procedure name => Pass.procedureKey name

/-- Whether it is the definition of a procedure. -/
def isProcedure : Owner → Bool
  | helper _ => false
  | procedure _ => true

/-- The definition that the errands of a host call for, with these names for the helpers. -/
def text (indent : String) (nameOf : String → String) (errands : List Errand) : Owner → String
  | helper key => Pass.helperText indent (firstLines errands key) (nameOf key)
  | procedure name => lastCode errands name

/-- The program with the definitions of these owners. -/
def program (indent : String) (nameOf : String → String) (errands : List Errand)
    (os : List Owner) (code : String) : String :=
  "\n\n".intercalate (os.map (text indent nameOf errands)) ++ "\n\n\n" ++ code

/-! ## Places in the table -/

/-- Take the first place under the same key, or else a place at the end. -/
def enter (o : Owner) : List Owner → List Owner
  | [] => [o]
  | a :: rest => if a.key = o.key then o :: rest else a :: enter o rest

/-- Find a place for an owner.  Only procedures look for a place under their key. -/
def settle (os : List Owner) (o : Owner) : List Owner :=
  if o.isProcedure then enter o os else os ++ [o]

/-- The owners that are in the table when all have come in this order. -/
def place (os : List Owner) : List Owner := os.foldl settle []

/-- No procedure comes after another owner of its key. -/
def Orderly (os : List Owner) : Prop :=
  os.Pairwise fun earlier later ↦ later.isProcedure → earlier.key ≠ later.key

instance (os : List Owner) : Decidable (Orderly os) :=
  inferInstanceAs (Decidable (os.Pairwise _))

variable {o a : Owner} {os l : List Owner}

theorem place_concat (os : List Owner) (o : Owner) : place (os ++ [o]) = settle (place os) o := by
  rw [place, List.foldl_concat, place]

/-- Two procedures have different keys. -/
theorem eq_of_key_eq (ho : o.isProcedure) (ha : a.isProcedure) (h : a.key = o.key) : a = o := by
  cases o with
  | helper => cases ho
  | procedure name =>
    cases a with
    | helper => cases ha
    | procedure name' => rw [procedureKey_injective h]

/-- Entering keeps all owners but the one whose place is taken. -/
theorem exists_perm_enter (o : Owner) (l : List Owner) :
    ∃ lost, (l ++ [o]).Perm (enter o l ++ lost) := by
  induction l with
  | nil => exact ⟨[], .refl _⟩
  | cons b rest ih =>
    rw [enter]
    split
    · refine ⟨[b], ?_⟩
      calc (b :: rest ++ [o]).Perm (o :: b :: rest) := List.perm_append_comm
        _ |>.Perm (o :: (rest ++ [b])) := (List.perm_append_singleton b rest).symm.cons o
    · obtain ⟨lost, h⟩ := ih
      exact ⟨lost, h.cons b⟩

theorem mem_enter (h : a ∈ enter o l) : a = o ∨ a ∈ l := by
  obtain ⟨lost, hperm⟩ := exists_perm_enter o l
  have hmem : a ∈ l ++ [o] := hperm.mem_iff.2 (List.mem_append_left lost h)
  rw [List.mem_append, List.mem_singleton] at hmem
  exact hmem.symm

theorem mem_enter_self (o : Owner) (l : List Owner) : o ∈ enter o l := by
  induction l with
  | nil => exact List.mem_singleton_self o
  | cons b rest ih =>
    rw [enter]
    split
    · exact List.mem_cons_self
    · exact List.mem_cons_of_mem b ih

theorem mem_enter_of_ne (h : a ∈ l) (hkey : a.key ≠ o.key) : a ∈ enter o l := by
  induction l with
  | nil => cases h
  | cons b rest ih =>
    rw [enter]
    split
    · rename_i hb
      rcases List.mem_cons.1 h with rfl | h
      · exact absurd hb hkey
      · exact List.mem_cons_of_mem o h
    · rcases List.mem_cons.1 h with rfl | h
      · exact List.mem_cons_self
      · exact List.mem_cons_of_mem b (ih h)

/-- An owner whose key is not in use comes last. -/
theorem enter_of_forall_ne (h : ∀ a ∈ l, a.key ≠ o.key) : enter o l = l ++ [o] := by
  induction l with
  | nil => rfl
  | cons b rest ih =>
    obtain ⟨hb, hrest⟩ := List.forall_mem_cons.1 h
    rw [enter, if_neg hb, ih hrest, List.cons_append]

/-- A procedure that is there stays where it is. -/
theorem enter_of_mem (horderly : Orderly l) (ho : o.isProcedure) (h : o ∈ l) : enter o l = l := by
  induction l with
  | nil => cases h
  | cons b rest ih =>
    obtain ⟨hb, hrest⟩ := List.pairwise_cons.1 horderly
    rw [enter]
    split
    · rename_i hkey
      rcases List.mem_cons.1 h with rfl | h
      · rfl
      · exact absurd hkey (hb o h ho)
    · rename_i hkey
      rcases List.mem_cons.1 h with rfl | h
      · exact absurd rfl hkey
      · rw [ih hrest h]

theorem orderly_enter (horderly : Orderly l) (ho : o.isProcedure) (h : o ∉ l) :
    Orderly (enter o l) := by
  induction l with
  | nil => exact List.pairwise_singleton _ o
  | cons b rest ih =>
    obtain ⟨hb, hrest⟩ := List.pairwise_cons.1 horderly
    have hnew : o ∉ rest := fun hmem ↦ h (List.mem_cons_of_mem b hmem)
    rw [enter]
    split
    · -- A procedure of the same key further behind would be `o` itself.
      refine List.pairwise_cons.2 ⟨fun a ha hprocedure heq ↦ ?_, hrest⟩
      exact hnew (eq_of_key_eq hprocedure ho heq ▸ ha)
    · rename_i hkey
      refine List.pairwise_cons.2 ⟨fun a ha ↦ ?_, ih hrest hnew⟩
      rcases mem_enter ha with rfl | ha
      · exact fun _ ↦ hkey
      · exact hb a ha

/-- A place is gained only if the key is not in use. -/
theorem forall_ne_of_length_enter (h : (enter o l).length = l.length + 1) :
    ∀ a ∈ l, a.key ≠ o.key := by
  induction l with
  | nil => nofun
  | cons b rest ih =>
    rw [enter] at h
    split at h
    · simp at h
    · rename_i hkey
      exact List.forall_mem_cons.2 ⟨hkey, ih (Nat.succ.inj h)⟩

theorem settle_procedure (ho : o.isProcedure) (os : List Owner) : settle os o = enter o os :=
  if_pos ho

theorem exists_perm_settle (os : List Owner) (o : Owner) :
    ∃ lost, (os ++ [o]).Perm (settle os o ++ lost) := by
  rw [settle]
  split
  · exact exists_perm_enter o os
  · exact ⟨[], by rw [List.append_nil]⟩

/-- The owners that have come are those in the table and those that have lost their places. -/
theorem exists_perm_place (os : List Owner) : ∃ lost, os.Perm (place os ++ lost) := by
  induction os using List.reverseRecOn with
  | nil => exact ⟨[], .refl _⟩
  | append_singleton os o ih =>
    obtain ⟨lost, h⟩ := ih
    obtain ⟨lost', h'⟩ := exists_perm_settle (place os) o
    refine ⟨lost' ++ lost, ?_⟩
    rw [place_concat, ← List.append_assoc]
    calc (os ++ [o]).Perm (place os ++ lost ++ [o]) := h.append_right [o]
      _ |>.Perm (place os ++ [o] ++ lost) := by
        rw [List.append_assoc, List.append_assoc]
        exact List.perm_append_comm.append_left _
      _ |>.Perm (settle (place os) o ++ lost' ++ lost) := h'.append_right lost

theorem mem_of_mem_place (h : o ∈ place os) : o ∈ os := by
  obtain ⟨lost, hperm⟩ := exists_perm_place os
  exact hperm.mem_iff.2 (List.mem_append_left lost h)

/-- Procedures keep their places. -/
theorem mem_place (ho : o.isProcedure) (h : o ∈ os) : o ∈ place os := by
  induction os using List.reverseRecOn with
  | nil => cases h
  | append_singleton os b ih =>
    rw [place_concat, settle]
    rw [List.mem_append, List.mem_singleton] at h
    split
    · rename_i hb
      by_cases hkey : o.key = b.key
      · rw [eq_of_key_eq hb ho hkey]
        exact mem_enter_self b _
      · rcases h with h | rfl
        · exact mem_enter_of_ne (ih h) hkey
        · exact absurd rfl hkey
    · rw [List.mem_append, List.mem_singleton]
      exact h.imp_left ih

theorem orderly_place (h : os.Nodup) : Orderly (place os) := by
  induction os using List.reverseRecOn with
  | nil => exact .nil
  | append_singleton os o ih =>
    obtain ⟨hos, -, hnew⟩ := List.nodup_append.1 h
    rw [place_concat, settle]
    split
    · rename_i ho
      exact orderly_enter (ih hos) ho fun hmem ↦
        hnew o (mem_of_mem_place hmem) o (List.mem_singleton_self o) rfl
    · rename_i ho
      exact List.pairwise_append.2 ⟨ih hos, List.pairwise_singleton _ o,
        fun a _ b hb hprocedure ↦ absurd (List.mem_singleton.1 hb ▸ hprocedure) ho⟩

theorem place_of_orderly (h : Orderly os) : place os = os := by
  induction os using List.reverseRecOn with
  | nil => rfl
  | append_singleton os o ih =>
    obtain ⟨hos, -, ho⟩ := List.pairwise_append.1 h
    rw [place_concat, ih hos, settle]
    split
    · rename_i hprocedure
      exact enter_of_forall_ne fun a ha ↦ ho a ha o (List.mem_singleton_self o) hprocedure
    · rfl

/-- If there are as many places as owners, none was lost. -/
theorem orderly_of_length_place (h : (place os).length = os.length) : Orderly os := by
  induction os using List.reverseRecOn with
  | nil => exact .nil
  | append_singleton os o ih =>
    obtain ⟨lost, hlost⟩ := exists_perm_place os
    obtain ⟨lost', hlost'⟩ := exists_perm_settle (place os) o
    have hplace := hlost.length_eq
    have hsettle := hlost'.length_eq
    rw [place_concat] at h
    simp only [List.length_append, List.length_singleton] at h hplace hsettle
    -- No place was lost before, so the owners are in the table as they came.
    have hos : Orderly os := ih (by omega)
    rw [place_of_orderly hos] at h
    refine List.pairwise_append.2 ⟨hos, List.pairwise_singleton _ o, fun a ha b hb hprocedure ↦ ?_⟩
    obtain rfl := List.mem_singleton.1 hb
    rw [settle_procedure hprocedure] at h
    exact forall_ne_of_length_enter h a ha

theorem place_ne_nil (h : os ≠ []) : place os ≠ [] := by
  obtain ⟨os, o, rfl⟩ := List.eq_nil_or_concat os |>.resolve_left h
  rw [List.concat_eq_append, place_concat, settle]
  split
  · exact List.ne_nil_of_mem (mem_enter_self o _)
  · exact List.append_ne_nil_of_right_ne_nil _ (List.cons_ne_nil o [])

/-! ## Programs -/

theorem length_intercalate (texts : List String) (h : texts ≠ []) :
    ("\n\n".intercalate texts).length + 2 = (texts.map (·.length + 2)).sum := by
  induction texts with
  | nil => exact absurd rfl h
  | cons t rest ih =>
    cases rest with
    | nil => simp
    | cons u rest =>
      have ih := ih (List.cons_ne_nil u rest)
      have hgap : "\n\n".length = 2 := rfl
      rw [String.intercalate_cons_cons, List.map_cons, List.sum_cons, ← ih, String.length_append,
        String.length_append, hgap]
      omega

/-- A definition that loses its place is missing in the program. -/
theorem program_place_iff (indent : String) (nameOf : String → String) (errands : List Errand)
    (os : List Owner) (code : String) :
    program indent nameOf errands (place os) code = program indent nameOf errands os code ↔
      Orderly os := by
  refine ⟨fun h ↦ ?_, fun h ↦ by rw [place_of_orderly h]⟩
  by_cases hos : os = []
  · rw [hos]
    exact .nil
  -- The two programs are equally long, and each definition adds at least a gap.
  have hlengths := congrArg String.length h
  simp only [program, String.length_append] at hlengths
  have hplace := length_intercalate ((place os).map (text indent nameOf errands))
    (mt List.map_eq_nil_iff.1 (place_ne_nil hos))
  have hall := length_intercalate (os.map (text indent nameOf errands))
    (mt List.map_eq_nil_iff.1 hos)
  obtain ⟨lost, hlost⟩ := exists_perm_place os
  have hsum := ((hlost.map (text indent nameOf errands)).map (·.length + 2)).sum_nat
  rw [List.map_append, List.map_append, List.sum_append] at hsum
  cases lost with
  | nil =>
    rw [List.append_nil] at hlost
    exact orderly_of_length_place hlost.length_eq.symm
  | cons a rest =>
    rw [List.map_cons, List.map_cons, List.sum_cons] at hsum
    omega

/-- Putting the definition of a procedure into the table of some owners. -/
theorem put_enter (horderly : Orderly l) (ho : o.isProcedure) {f f' : Owner → String}
    (h : ∀ a ∈ l, a ≠ o → f' a = f a) :
    Table.put o.key (f' o) (l.map fun a ↦ (a.key, f a)) =
      (enter o l).map fun a ↦ (a.key, f' a) := by
  induction l with
  | nil => rfl
  | cons b rest ih =>
    obtain ⟨hb, hrest⟩ := List.pairwise_cons.1 horderly
    obtain ⟨hfb, hfrest⟩ := List.forall_mem_cons.1 h
    rw [List.map_cons, Table.put, enter]
    by_cases hkey : b.key = o.key
    · rw [if_pos hkey, if_pos hkey, List.map_cons]
      congr 1
      -- The owners behind the place keep their texts, as `o` is not one of them.
      refine List.map_congr_left fun a ha ↦ ?_
      rw [hfrest a ha]
      rintro rfl
      exact hb a ha ho hkey
    · rw [if_neg hkey, if_neg hkey, List.map_cons, ih hrest hfrest, hfb (mt (congrArg key) hkey)]

end Owner

/-! ## One errand more -/

section Duplicates

variable {α : Type} [BEq α] [LawfulBEq α] {l : List α} {a : α}

theorem eraseDups_concat_of_mem (h : a ∈ l) : (l ++ [a]).eraseDups = l.eraseDups := by
  rw [List.eraseDups_append]
  simp [List.removeAll, h]

theorem eraseDups_concat_of_notMem (h : a ∉ l) : (l ++ [a]).eraseDups = l.eraseDups ++ [a] := by
  rw [List.eraseDups_append]
  simp only [List.removeAll, List.filter_cons, List.elem_eq_mem, h, decide_false, Bool.not_false,
    if_true, List.filter_nil]
  rfl

theorem nodup_eraseDups (l : List α) : l.eraseDups.Nodup := by
  induction l using List.reverseRecOn with
  | nil => exact .nil
  | append_singleton l a ih =>
    by_cases h : a ∈ l
    · rwa [eraseDups_concat_of_mem h]
    · rw [eraseDups_concat_of_notMem h]
      exact nodup_concat ih (mt List.mem_eraseDups.1 h)

end Duplicates

namespace Errand

variable {errands : List Errand} {e : Errand} {o : Owner}

theorem mem_owners : o ∈ owners errands ↔ ∃ e ∈ errands, e.owner? = some o := by
  rw [owners, List.mem_eraseDups, List.mem_filterMap]

theorem nodup_owners (errands : List Errand) : (owners errands).Nodup := nodup_eraseDups _

theorem owners_concat_of_none (h : e.owner? = none) :
    owners (errands ++ [e]) = owners errands := by
  rw [owners, List.filterMap_append, List.filterMap_cons_none h, List.filterMap_nil,
    List.append_nil, owners]

theorem owners_concat_of_mem (h : e.owner? = some o) (hmem : o ∈ owners errands) :
    owners (errands ++ [e]) = owners errands := by
  rw [owners, List.mem_eraseDups] at hmem
  rw [owners, List.filterMap_append, List.filterMap_cons_some h, List.filterMap_nil,
    eraseDups_concat_of_mem hmem, owners]

theorem owners_concat_of_notMem (h : e.owner? = some o) (hnew : o ∉ owners errands) :
    owners (errands ++ [e]) = owners errands ++ [o] := by
  rw [owners, List.mem_eraseDups] at hnew
  rw [owners, List.filterMap_append, List.filterMap_cons_some h, List.filterMap_nil,
    eraseDups_concat_of_notMem hnew, owners]

/-- The place of a procedure after it has been defined again or for the first time. -/
theorem place_owners_define (errands : List Errand) (procedure code : String) :
    Owner.place (owners (errands ++ [.define procedure code])) =
      Owner.enter (.procedure procedure) (Owner.place (owners errands)) := by
  by_cases h : .procedure procedure ∈ owners errands
  · have hplace : .procedure procedure ∈ Owner.place (owners errands) := Owner.mem_place rfl h
    rw [owners_concat_of_mem rfl h, Owner.enter_of_mem (Owner.orderly_place (nodup_owners _)) rfl
      hplace]
  · rw [owners_concat_of_notMem rfl h, Owner.place_concat, Owner.settle_procedure rfl]

theorem firstLines_concat {key : String} (h : .helper key ∈ owners errands) :
    firstLines (errands ++ [e]) key = firstLines errands key := by
  obtain ⟨e', he', howner⟩ := mem_owners.1 h
  have hsome : (errands.findSome? (·.lines? key)).isSome := by
    rw [List.findSome?_isSome_iff]
    refine ⟨e', he', ?_⟩
    cases e' with
    | helper key' lines =>
      cases howner
      rw [lines?, if_pos rfl]
      rfl
    | define | name => cases howner
  obtain ⟨lines, hlines⟩ := Option.isSome_iff_exists.1 hsome
  rw [firstLines, firstLines, List.findSome?_append, hlines, Option.some_or]

theorem firstLines_concat_helper {key : String} (h : .helper key ∉ owners errands)
    (lines : List String) : firstLines (errands ++ [.helper key lines]) key = lines := by
  have hnone : errands.findSome? (·.lines? key) = none := by
    rw [List.findSome?_eq_none_iff]
    intro e' he'
    cases e' with
    | helper key' lines' =>
      refine if_neg ?_
      rintro rfl
      exact h (mem_owners.2 ⟨_, he', rfl⟩)
    | define | name => rfl
  rw [firstLines, List.findSome?_append, hnone, Option.none_or, List.findSome?_singleton, lines?,
    if_pos rfl, Option.getD_some]

theorem lastCode_concat (errands : List Errand) (e : Errand) (procedure : String) :
    lastCode (errands ++ [e]) procedure =
      (e.code? procedure).getD (lastCode errands procedure) := by
  rw [lastCode, lastCode, List.reverse_append, List.reverse_singleton, List.singleton_append,
    List.findSome?_cons]
  cases e.code? procedure <;> rfl

end Errand

namespace Owner

variable {errands : List Errand} {e : Errand} {o : Owner}

/-- A later errand does not change a definition, unless it defines the procedure again. -/
theorem text_concat {indent : String} {nameOf nameOf' : String → String}
    (h : o ∈ owners errands) (hother : o.isProcedure → e.owner? ≠ some o)
    (hname : ∀ key, .helper key ∈ owners errands → nameOf' key = nameOf key) :
    text indent nameOf' (errands ++ [e]) o = text indent nameOf errands o := by
  cases o with
  | helper key => rw [text, text, Errand.firstLines_concat h, hname key h]
  | procedure name =>
    have hcode : e.code? name = none := by
      cases e with
      | define procedure code =>
        refine if_neg ?_
        rintro rfl
        exact hother rfl rfl
      | helper | name => rfl
    rw [text, text, Errand.lastCode_concat, hcode, Option.getD_none]

end Owner

end Turtle
