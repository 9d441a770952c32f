import Turtle.Proofs.Block
import Turtle.Proofs.Workspace.Acceptance
import Turtle.Proofs.Workspace.Sorting

/-!
# The blocks of a JSON document

Every block of a workspace is read from a node that is reached in the document, and what a node
tells of its block by itself does not depend on where it stands.

A JSON document does not tell what an input holds, so the input takes the shape of the block that is
connected to it.  The shape is looked up in the table of standard kinds: a block of any other kind
makes its input one for a value.
-/

namespace Turtle

namespace LoadM

variable {α β : Type}

theorem of_bind_ok {m : LoadM α} {f : α → LoadM β} {b : β} (h : m >>= f = .ok b) :
    ∃ a, m = .ok a ∧ f a = .ok b := by
  cases m with
  | error e => cases h
  | ok a => exact ⟨a, rfl, h⟩

theorem of_within_ok {step : LoadStep} {m : LoadM α} {a : α} (h : within step m = .ok a) :
    m = .ok a := by
  cases m with
  | error e => cases h
  | ok a' => exact h

theorem of_require_ok {fault : LoadFault} {o : Option α} {a : α} (h : require fault o = .ok a) :
    o = some a := by
  cases o with
  | none => cases h
  | some a' => exact congrArg some (Except.ok.inj h)

theorem of_map_within_ok {step : LoadStep} {f : α → β} {m : LoadM α} {b : β}
    (h : f <$> within step m = .ok b) : ∃ a, m = .ok a ∧ f a = b := by
  cases m with
  | error e => cases h
  | ok a => exact ⟨a, rfl, Except.ok.inj h⟩

/-- Whatever is in a list that has been read was read from an element. -/
theorem exists_of_mapM_ok {f : α → LoadM β} {as : List α} {bs : List β} (h : as.mapM f = .ok bs)
    {b : β} (hb : b ∈ bs) : ∃ a ∈ as, f a = .ok b := by
  induction as generalizing bs with
  | nil =>
    cases h
    cases hb
  | cons a as ih =>
    rw [List.mapM_cons] at h
    obtain ⟨first, hfirst, h⟩ := of_bind_ok h
    obtain ⟨rest, hrest, h⟩ := of_bind_ok h
    cases h
    rcases List.mem_cons.1 hb with rfl | hb
    · exact ⟨a, List.mem_cons_self, hfirst⟩
    · obtain ⟨a', ha', hread⟩ := ih hrest hb
      exact ⟨a', List.mem_cons_of_mem a ha', hread⟩

end LoadM

/-- An input has the shape of what is connected to it, as far as the table knows. -/
def Input.FollowsTarget (i : Input Block) : Prop :=
  ∀ t, i.target = some t → i.shape = Block.shapeFor t

namespace Block

variable {j : Json} {b : Block}

/-- What is connected to an input was read from the node that the document connects to it. -/
theorem of_inputOfJson_ok {id : String} {entry : String × Json} {i : Input Block}
    (h : inputOfJson id entry = .ok i) {t : Block} (ht : i.target = some t) :
    i.shape = shapeFor t ∧ ∃ node, connectedNode? entry.2 = some node ∧ ofJson node = .ok t := by
  unfold inputOfJson at h
  split at h
  case h_1 =>
    cases h
    cases ht
  case h_2 node hnode =>
    obtain ⟨t', hread, rfl⟩ := LoadM.of_map_within_ok h
    cases ht
    exact ⟨rfl, node, hnode, hread⟩

theorem of_nextOfJson_ok {id : String} {next : Option Block} (h : nextOfJson id j = .ok next)
    {t : Block} (ht : next = some t) : ∃ node, nextNode? j = some node ∧ ofJson node = .ok t := by
  subst ht
  unfold nextOfJson at h
  split at h
  case h_1 => cases h
  case h_2 node hnode =>
    obtain ⟨t', hread, heq⟩ := LoadM.of_map_within_ok h
    cases heq
    exact ⟨node, hnode, hread⟩

/-- What has been read when a block has. -/
theorem exists_of_ofJson_ok (h : ofJson j = .ok b) : ∃ kind mutation,
    b.head = headOfJson kind (idOfJson j) j mutation ∧
      (j.membersOf "inputs").mapM (inputOfJson (idOfJson j)) = .ok b.inputs ∧
      nextOfJson (idOfJson j) j = .ok b.next := by
  rw [ofJson_eq] at h
  obtain ⟨kind, -, h⟩ := LoadM.of_bind_ok h
  obtain ⟨inputs, hinputs, h⟩ := LoadM.of_bind_ok h
  obtain ⟨next, hnext, h⟩ := LoadM.of_bind_ok h
  obtain ⟨mutation, -, h⟩ := LoadM.of_bind_ok h
  cases h
  exact ⟨kind, mutation, rfl, hinputs, hnext⟩

/-- By induction on the block that is read: all blocks connected to it are read from nodes that are
reached from its own. -/
theorem exists_reaches_of_ofJson (h : ofJson j = .ok b) :
    ∀ d ∈ b.descendants, ∃ path node, Reaches j path node ∧ ofJson node = .ok d := by
  induction b using induct generalizing j with
  | step b hinputs hnext =>
    obtain ⟨_, _, -, hreads, hnextRead⟩ := exists_of_ofJson_ok h
    intro d hd
    rcases mem_descendants_iff.1 hd with rfl | hd
    · exact ⟨[], j, .self j, h⟩
    · rcases mem_strict_iff.1 hd with ⟨i, hi, t, ht, hd⟩ | ⟨t, ht, hd⟩
      · obtain ⟨entry, hentry, hread⟩ := LoadM.exists_of_mapM_ok hreads hi
        obtain ⟨-, child, hchild, hchildRead⟩ := of_inputOfJson_ok hread ht
        obtain ⟨path, node, hreaches, hnode⟩ := hinputs i hi t ht hchildRead d hd
        exact ⟨_, node, .input hentry hchild hreaches, hnode⟩
      · obtain ⟨child, hchild, hchildRead⟩ := of_nextOfJson_ok hnextRead ht
        obtain ⟨path, node, hreaches, hnode⟩ := hnext t ht hchildRead d hd
        exact ⟨_, node, .next hchild hreaches, hnode⟩

/-- The inputs of a block that is read have the shapes of what is connected to them. -/
theorem followsTarget_of_ofJson (h : ofJson j = .ok b) {i : Input Block} (hi : i ∈ b.inputs) :
    i.FollowsTarget := by
  intro t ht
  obtain ⟨_, _, -, hreads, -⟩ := exists_of_ofJson_ok h
  obtain ⟨entry, -, hread⟩ := LoadM.exists_of_mapM_ok hreads hi
  exact (of_inputOfJson_ok hread ht).1

end Block

namespace Workspace

variable {j : Json} {w : Workspace} {b : Block}

/-- Every block of a workspace is read from a node that is reached from one of the top blocks. -/
theorem exists_reaches_of_ofJson (h : ofJson j = .ok w) (hb : b ∈ w.allBlocks) :
    ∃ nodes, topBlocks? j = some (.array nodes) ∧ ∃ top ∈ nodes, ∃ path node,
      Block.Reaches top path node ∧ Block.ofJson node = .ok b := by
  unfold ofJson at h
  split at h
  case h_2 => cases h
  case h_1 members =>
    obtain ⟨vars, -, h⟩ := LoadM.of_bind_ok h
    obtain ⟨nodes, hnodes, h⟩ := LoadM.of_bind_ok h
    obtain ⟨blocks, hreads, h⟩ := LoadM.of_bind_ok h
    cases h
    obtain ⟨first, hfirst, hb⟩ := List.mem_flatMap.1 hb
    obtain ⟨⟨top, place⟩, htop, hread⟩ := LoadM.exists_of_mapM_ok hreads (mem_ordered.1 hfirst)
    have htop : top ∈ nodes := List.fst_mem_of_mem_zipIdx htop
    obtain ⟨path, node, hreaches, hnode⟩ :=
      Block.exists_reaches_of_ofJson (LoadM.of_within_ok hread) b hb
    refine ⟨nodes, ?_, top, htop, path, node, hreaches, hnode⟩
    obtain ⟨nodes', hnodes', hcases⟩ | ⟨herror, -⟩ := topNodes_cases (topBlocks? (.object members))
    · cases hnodes.symm.trans hnodes'
      obtain ⟨-, rfl⟩ | hsome := hcases
      · cases htop
      · exact hsome
    · cases hnodes.symm.trans herror

/-- In a workspace that is read from a JSON document, every input has the shape of what is connected
to it. -/
theorem followsTarget_of_ofJson (h : ofJson j = .ok w) (hb : b ∈ w.allBlocks) {i : Input Block}
    (hi : i ∈ b.inputs) : i.FollowsTarget := by
  obtain ⟨_, -, _, -, _, node, -, hnode⟩ := exists_reaches_of_ofJson h hb
  exact Block.followsTarget_of_ofJson hnode hi

end Workspace

end Turtle
