import PolicyLedger.Graph.Change
import PolicyLedger.Proofs.Search

/-!
What linking and unlinking nodes does to their assignments. These are recorded twice, downwards and
upwards; the two records always tell the same, and neither lists a node that has none.
-/
namespace PolicyLedger.Graph

section Edges
variable {edges : SortedMap NodeId (SortedSet NodeId)} {source target a d : NodeId}

/-- What a node is recorded to lead to. -/
def targets (edges : SortedMap NodeId (SortedSet NodeId)) (source : NodeId) : SortedSet NodeId :=
  (edges.get? source).getD ∅

/-- Whether every node that is listed leads somewhere. -/
def Sparse (edges : SortedMap NodeId (SortedSet NodeId)) : Prop :=
  ∀ source set, edges.get? source = some set → set.isEmpty = false

private theorem mem_addEdge :
    d ∈ targets (addEdge edges source target) a ↔ a = source ∧ d = target ∨ d ∈ targets edges a := by
  simp only [targets, addEdge, SortedMap.get?_insert]
  by_cases same : a = source
  · simp [same]
  · simp [same]

private theorem mem_removeEdge :
    d ∈ targets (removeEdge edges source target) a ↔ d ∈ targets edges a ∧ ¬ (a = source ∧ d = target) := by
  simp only [targets, removeEdge, SortedMap.get?_alter]
  by_cases same : a = source
  · subst same
    rw [if_pos rfl]
    cases edges.get? a with
    | none => simp
    | some set =>
      have rest : d ∈ set.erase target ↔ d ∈ set ∧ d ≠ target := SortedSet.mem_erase.trans and_comm
      by_cases none : (set.erase target).isEmpty = true
      · have empty : d ∉ set.erase target := by
          intro member
          have some := SortedSet.isEmpty_eq_false.mpr ⟨d, member⟩
          rw [none] at some
          cases some
        simpa [none] using (not_congr rest).mp empty
      · simpa [none] using rest
  · simp [same]

private theorem Sparse.addEdge (sparse : Sparse edges) : Sparse (addEdge edges source target) := by
  intro a set found
  rw [Graph.addEdge, SortedMap.get?_insert] at found
  split at found
  · cases found
    exact SortedSet.isEmpty_eq_false.mpr ⟨target, SortedSet.mem_insert.mpr (.inl rfl)⟩
  · exact sparse a set found

private theorem Sparse.removeEdge (sparse : Sparse edges) : Sparse (removeEdge edges source target) := by
  intro a set found
  rw [Graph.removeEdge, SortedMap.get?_alter] at found
  split at found
  · cases before : edges.get? source with
    | none => simp [before] at found
    | some old =>
      simp only [before, Option.ite_none_left_eq_some, Option.some.injEq] at found
      obtain ⟨some, rfl⟩ := found
      simpa using some
  · exact sparse a set found

end Edges

variable {g : Graph} {ascendant a d : NodeId} {ds : List NodeId}

private theorem assigned_link {descendant : NodeId} :
    (g.link ascendant descendant).Assigned a d ↔ a = ascendant ∧ d = descendant ∨ g.Assigned a d := mem_addEdge

private theorem assigned_unlink {descendant : NodeId} :
    (g.unlink ascendant descendant).Assigned a d ↔ g.Assigned a d ∧ ¬ (a = ascendant ∧ d = descendant) :=
  mem_removeEdge

theorem assigned_linkAll :
    (g.linkAll ascendant ds).Assigned a d ↔ a = ascendant ∧ d ∈ ds ∨ g.Assigned a d := by
  induction ds generalizing g with
  | nil => simp [linkAll]
  | cons first ds ih =>
    have rest := ih (g := g.link ascendant first)
    rw [assigned_link] at rest
    rw [show g.linkAll ascendant (first :: ds) = (g.link ascendant first).linkAll ascendant ds from rfl, rest,
      List.mem_cons, and_or_left, or_assoc, or_left_comm]

theorem assigned_unlinkAll :
    (g.unlinkAll ascendant ds).Assigned a d ↔ g.Assigned a d ∧ ¬ (a = ascendant ∧ d ∈ ds) := by
  induction ds generalizing g with
  | nil => simp [unlinkAll]
  | cons first ds ih =>
    have rest := ih (g := g.unlink ascendant first)
    rw [assigned_unlink] at rest
    rw [show g.unlinkAll ascendant (first :: ds) = (g.unlink ascendant first).unlinkAll ascendant ds from rfl, rest,
      List.mem_cons, and_or_left, not_or, and_assoc]

/-- The two records of the assignments tell the same and list no node that has none. -/
structure Paired (g : Graph) : Prop where
  converse : ∀ a d, d ∈ g.below a ↔ a ∈ g.above d
  down : Sparse g.descendants
  up : Sparse g.ascendants

theorem Paired.link (paired : g.Paired) (ascendant descendant : NodeId) : (g.link ascendant descendant).Paired where
  converse a d := by
    have down : d ∈ (g.link ascendant descendant).below a ↔ _ := mem_addEdge
    have up : a ∈ (g.link ascendant descendant).above d ↔ _ := mem_addEdge
    rw [down, up, and_comm]
    exact or_congr_right (paired.converse a d)
  down := paired.down.addEdge
  up := paired.up.addEdge

theorem Paired.unlink (paired : g.Paired) (ascendant descendant : NodeId) :
    (g.unlink ascendant descendant).Paired where
  converse a d := by
    have down : d ∈ (g.unlink ascendant descendant).below a ↔ _ := mem_removeEdge
    have up : a ∈ (g.unlink ascendant descendant).above d ↔ _ := mem_removeEdge
    rw [down, up, and_comm (a := d = descendant)]
    exact and_congr_left' (paired.converse a d)
  down := paired.down.removeEdge
  up := paired.up.removeEdge

theorem Paired.linkAll (paired : g.Paired) (ascendant : NodeId) (ds : List NodeId) :
    (g.linkAll ascendant ds).Paired := by
  induction ds generalizing g with
  | nil => exact paired
  | cons d ds ih => exact ih (paired.link ascendant d)

theorem Paired.unlinkAll (paired : g.Paired) (ascendant : NodeId) (ds : List NodeId) :
    (g.unlinkAll ascendant ds).Paired := by
  induction ds generalizing g with
  | nil => exact paired
  | cons d ds ih => exact ih (paired.unlink ascendant d)

/-- A graph with the same assignments records them the same way. -/
theorem Paired.congr {after : Graph} (paired : g.Paired) (descendants : after.descendants = g.descendants)
    (ascendants : after.ascendants = g.ascendants) : after.Paired where
  converse a d := by
    simp only [below, above, descendants, ascendants]
    exact paired.converse a d
  down := descendants ▸ paired.down
  up := ascendants ▸ paired.up

end PolicyLedger.Graph
