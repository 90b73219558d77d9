import Mathlib.Algebra.Group.Nat.Defs
import PolicyLedger.Proofs.GraphChange

/-!
Identifiers are given in increasing order: no node has one above the highest ever given, which never
falls. So the next identifier is free, as long as there is one left.
-/
namespace PolicyLedger
namespace SortedMap

variable {κ ν : Type} [LT κ] [DecidableEq κ]

theorem contains_erase {m : SortedMap κ ν} {k x : κ} : (m.erase k).contains x = true ↔ x ≠ k ∧ m.contains x = true := by
  simp only [contains, get?_erase]
  split <;> simp_all

theorem contains_insert [DecidableLT κ] [KeyOrder κ] {m : SortedMap κ ν} {k x : κ} {v : ν} :
    (m.insert k v).contains x = true ↔ x = k ∨ m.contains x = true := by
  simp only [contains, get?_insert]
  split <;> simp_all

theorem not_contains_insert [DecidableLT κ] [KeyOrder κ] {m : SortedMap κ ν} {k x : κ} {v : ν} :
    (m.insert k v).contains x = false ↔ x ≠ k ∧ m.contains x = false := by
  rw [← Bool.not_eq_true, contains_insert, not_or, Bool.not_eq_true]

end SortedMap

namespace Graph

variable {g after : Graph}

/-- Links change nothing but the assignments. -/
theorem linkAll_shape (g : Graph) (ascendant : NodeId) (ds : List NodeId) :
    ∃ descendants ascendants, g.linkAll ascendant ds = { g with descendants, ascendants } := by
  induction ds generalizing g with
  | nil => exact ⟨_, _, rfl⟩
  | cons d ds ih => exact ih (g.link ascendant d)

theorem unlinkAll_shape (g : Graph) (ascendant : NodeId) (ds : List NodeId) :
    ∃ descendants ascendants, g.unlinkAll ascendant ds = { g with descendants, ascendants } := by
  induction ds generalizing g with
  | nil => exact ⟨_, _, rfl⟩
  | cons d ds ih => exact ih (g.unlink ascendant d)

/-- A new node changes nodes, names, assignments and the last identifier, and nothing else. -/
theorem addNode_shape (g : Graph) (id : NodeId) (kind : NodeKind) (name : String) (ds : List NodeId) :
    ∃ descendants ascendants, g.addNode id kind name ds = { g with
      nodes := g.nodes.insert id ⟨id, kind, name, ∅⟩
      names := g.names.insert name id
      descendants, ascendants
      lastId := max g.lastId id.value } := by
  obtain ⟨descendants, ascendants, linked⟩ := linkAll_shape
    { g with nodes := g.nodes.insert id ⟨id, kind, name, ∅⟩, names := g.names.insert name id } id ds
  refine ⟨descendants, ascendants, ?_⟩
  simp only [addNode, linked]

@[simp] theorem addNode_nodes (id : NodeId) (kind : NodeKind) (name : String) (ds : List NodeId) :
    (g.addNode id kind name ds).nodes = g.nodes.insert id ⟨id, kind, name, ∅⟩ := by
  obtain ⟨_, _, added⟩ := addNode_shape g id kind name ds
  rw [added]

@[simp] theorem addNode_lastId (id : NodeId) (kind : NodeKind) (name : String) (ds : List NodeId) :
    (g.addNode id kind name ds).lastId = max g.lastId id.value := rfl

@[simp] theorem unlinkAll_nodes (ascendant : NodeId) (ds : List NodeId) :
    (g.unlinkAll ascendant ds).nodes = g.nodes := by
  obtain ⟨_, _, cut⟩ := unlinkAll_shape g ascendant ds
  rw [cut]

@[simp] theorem unlinkAll_lastId (ascendant : NodeId) (ds : List NodeId) :
    (g.unlinkAll ascendant ds).lastId = g.lastId := by
  obtain ⟨_, _, cut⟩ := unlinkAll_shape g ascendant ds
  rw [cut]

/-- No node has an identifier above the highest that was ever given. -/
def Numbered (g : Graph) : Prop := ∀ id : NodeId, g.nodes.contains id = true → id.value ≤ g.lastId

theorem numbered_empty : Numbered ∅ := by
  intro id known
  cases known

/-- A graph that only knows nodes another knows stays numbered if the other is. -/
theorem Numbered.mono (numbered : g.Numbered) (last : g.lastId ≤ after.lastId)
    (known : ∀ id, after.nodes.contains id = true → g.nodes.contains id = true) : after.Numbered :=
  fun id found => UInt64.le_trans (numbered id (known id found)) last

theorem le_max_lastId (a b : UInt64) : a ≤ max a b ∧ b ≤ max a b := by
  rcases UInt64.le_total a b with low | low
  · rw [show max a b = b from if_pos low]
    exact ⟨low, UInt64.le_refl _⟩
  · by_cases same : a ≤ b
    · rw [show max a b = b from if_pos same]
      exact ⟨same, UInt64.le_refl _⟩
    · rw [show max a b = a from if_neg same]
      exact ⟨UInt64.le_refl _, low⟩

theorem max_toNat_lt {a b : UInt64} {bound : Nat} (first : a.toNat < bound) (second : b.toNat < bound) :
    (max a b).toNat < bound := by
  rw [show max a b = if a ≤ b then b else a from rfl]
  split
  · exact second
  · exact first

theorem numbered_addNode (numbered : g.Numbered) (id : NodeId) (kind : NodeKind) (name : String)
    (ds : List NodeId) : (g.addNode id kind name ds).Numbered := by
  intro other found
  have bounds := le_max_lastId g.lastId id.value
  rw [addNode_nodes, SortedMap.contains_insert] at found
  rcases found with rfl | found
  · exact bounds.2
  · exact UInt64.le_trans (numbered other found) bounds.1

/-- A change adds a node under the next identifier or knows of none that was not there before. -/
theorem apply_shape {m : Mutation} {o : Outcome} (made : g.apply m = .ok (o, after)) :
    (∃ kind name ds, m = .createNode kind name ds ∧ o = .nodeCreated g.nextId ∧
      after = g.addNode g.nextId kind name ds) ∨
      o = .applied ∧ after.lastId = g.lastId ∧ ∀ id, after.nodes.contains id = true → g.nodes.contains id = true := by
  have kept {h : Graph} (nodes : h.nodes = g.nodes) (last : h.lastId = g.lastId) :
      Outcome.applied = .applied ∧ h.lastId = g.lastId ∧
        ∀ id, h.nodes.contains id = true → g.nodes.contains id = true := by
    rw [nodes]
    exact ⟨rfl, last, fun _ => id⟩
  cases apply_eq_ok.mp made with
  | createNode => exact .inl ⟨_, _, _, rfl, rfl, rfl⟩
  | deleteNode made =>
    obtain ⟨node, _, _, _, rfl⟩ := deleteNode_eq_ok.mp made
    refine .inr ⟨rfl, by simp, ?_⟩
    intro other found
    rw [unlinkAll_nodes] at found
    exact (SortedMap.contains_erase.mp found).2
  | @setProperties id _ _ made =>
    obtain ⟨node, found, rfl⟩ := setProperties_eq_ok.mp made
    refine .inr ⟨rfl, rfl, ?_⟩
    intro other known
    rcases SortedMap.contains_insert.mp known with rfl | known
    · unfold Graph.node at found
      split at found
      · rename_i there
        simp [SortedMap.contains, there]
      · cases found
    · exact known
  | @assign ascendant ds _ made =>
    obtain ⟨_, _, _, rfl⟩ := assign_eq_ok.mp made
    obtain ⟨_, _, linked⟩ := linkAll_shape g ascendant ds
    exact .inr (kept (by rw [linked]) (by rw [linked]))
  | deassign made =>
    obtain ⟨_, _, _, rfl⟩ := deassign_eq_ok.mp made
    exact .inr (kept (unlinkAll_nodes _ _) (unlinkAll_lastId _ _))
  | associate made =>
    obtain ⟨_, _, _, _, _, _, _, rfl⟩ := associate_eq_ok.mp made
    exact .inr (kept rfl rfl)
  | dissociate made =>
    obtain ⟨_, _, _, _, rfl⟩ := dissociate_eq_ok.mp made
    exact .inr (kept rfl rfl)
  | createProhibition made =>
    obtain ⟨_, _, rfl⟩ := createProhibition_eq_ok.mp made
    exact .inr (kept rfl rfl)
  | _ => exact .inr (kept rfl rfl)

/-- A change gives identifiers upwards and to new nodes only. -/
theorem apply_numbered {m : Mutation} {o : Outcome} (made : g.apply m = .ok (o, after)) :
    g.lastId ≤ after.lastId ∧ (g.Numbered → after.Numbered) := by
  rcases apply_shape made with ⟨kind, name, ds, _, _, rfl⟩ | ⟨_, last, known⟩
  · exact ⟨(le_max_lastId _ _).1, fun numbered => numbered_addNode numbered _ kind name ds⟩
  · have below : g.lastId ≤ after.lastId := last ▸ UInt64.le_refl _
    exact ⟨below, fun numbered => numbered.mono below known⟩

theorem insertNode_numbered {id : NodeId} {kind : NodeKind} {name : String} {ds : List NodeId}
    (made : g.insertNode id kind name ds = .ok after) :
    g.lastId ≤ after.lastId ∧ id.value ≤ after.lastId ∧ (g.Numbered → after.Numbered) := by
  obtain ⟨_, _, rfl⟩ := insertNode_eq_ok.mp made
  have bounds := le_max_lastId g.lastId id.value
  exact ⟨bounds.1, bounds.2, fun numbered => numbered_addNode numbered _ _ _ _⟩

/-- The next identifier is one above the last, unless there is none left. -/
theorem nextId_value (left : g.lastId.toNat < 2 ^ 64 - 1) : g.nextId.value.toNat = g.lastId.toNat + 1 := by
  show (g.lastId + 1).toNat = _
  rw [UInt64.toNat_add]
  simp only [UInt64.toNat_one]
  omega

theorem nextId_free (numbered : g.Numbered) (left : g.lastId.toNat < 2 ^ 64 - 1) :
    g.nodes.contains g.nextId = false := by
  by_cases taken : g.nodes.contains g.nextId = true
  · have low := UInt64.le_iff_toNat_le.mp (numbered _ taken)
    have next := nextId_value left
    omega
  · simpa using taken

end Graph
end PolicyLedger
