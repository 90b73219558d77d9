import PolicyLedger.Graph.Basic

/-!
Reachability along assignments. A search looks at one node after the other and keeps what it has looked at, so
it ends on every graph, cyclic ones included: each round uses up a node that waits, and the nodes it adds make
up for the assignments of one that is not looked at again.
-/
namespace PolicyLedger.Graph

/-- How far a search has come: the nodes it has looked at, and those that wait, the next one first. A node can
wait more than once. -/
structure Search where
  visited : SortedSet NodeId := ∅
  stack : List NodeId

namespace Search

/-- One round of a search for a node: its answer, or how far it has come if it goes on. Of the nodes below one
the last is looked at first. -/
def round (g : Graph) (target : NodeId) (s : Search) : Bool ⊕ Search :=
  match s.stack with
  | [] => .inl false
  | id :: waiting =>
    if id = target then .inl true
    else if s.visited.contains id then .inr { s with stack := waiting }
    else .inr ⟨s.visited.insert id, (g.below id).toList.reverse ++ waiting⟩

/-- How many more rounds a search can go on: one for each node that waits, and one for each assignment of a
node it has not looked at. -/
def left (g : Graph) (s : Search) : Nat :=
  ((g.descendants.keys.filter (!s.visited.contains ·)).flatMap fun id => (g.below id).toList).length + s.stack.length

/-- What a round leads to if the search goes on: the next node was looked at before, or is looked at now. -/
theorem round_eq_inr {g : Graph} {target : NodeId} {s next : Search} :
    s.round g target = .inr next ↔
      ∃ id waiting, s.stack = id :: waiting ∧ id ≠ target ∧
        (s.visited.contains id = true ∧ next = ⟨s.visited, waiting⟩ ∨
          s.visited.contains id = false ∧ next = ⟨s.visited.insert id, (g.below id).toList.reverse ++ waiting⟩) := by
  obtain ⟨visited, stack⟩ := s
  constructor
  · intro onward
    cases stack with
    | nil => cases onward
    | cons id waiting =>
      by_cases found : id = target
      · simp [round, found] at onward
      · by_cases seen : visited.contains id = true
        · exact ⟨id, waiting, rfl, found, .inl ⟨seen, by simpa [round, found, seen] using onward.symm⟩⟩
        · exact ⟨id, waiting, rfl, found, .inr ⟨by simpa using seen, by simpa [round, found, seen] using onward.symm⟩⟩
  · rintro ⟨id, waiting, rfl, found, ⟨seen, rfl⟩ | ⟨unseen, rfl⟩⟩
    · simp [round, found, seen]
    · simp [round, found, unseen]

/-- Once a node is looked at, what is below it is no longer among what is below those that are not. -/
private theorem length_insert (lower : NodeId → List NodeId) {id : NodeId} {visited : SortedSet NodeId}
    (unseen : visited.contains id = false) {ids : List NodeId} (distinct : ids.Nodup) :
    ((ids.filter (!(visited.insert id).contains ·)).flatMap lower).length +
        (if id ∈ ids then (lower id).length else 0) =
      ((ids.filter (!visited.contains ·)).flatMap lower).length := by
  simp only [SortedSet.contains_insert]
  induction ids with
  | nil => rfl
  | cons x ids ih =>
    obtain ⟨other, distinct⟩ := List.nodup_cons.mp distinct
    have rest := ih distinct
    by_cases same : x = id
    · subst same
      simp [unseen, other, -List.length_flatMap] at rest ⊢
      omega
    · by_cases seen : visited.contains x = true
      · simp [same, Ne.symm same, seen, -List.length_flatMap] at rest ⊢
        omega
      · simp [same, Ne.symm same, seen, -List.length_flatMap] at rest ⊢
        omega

private theorem below_of_not_mem_keys {g : Graph} {id : NodeId} (unknown : id ∉ g.descendants.keys) :
    g.below id = ∅ := by
  unfold below
  cases found : g.descendants.get? id with
  | none => rfl
  | some set => exact absurd (SortedMap.mem_keys.mpr ⟨set, found⟩) unknown

theorem left_round {g : Graph} {target : NodeId} {s next : Search} (onward : s.round g target = .inr next) :
    next.left g + 1 = s.left g := by
  obtain ⟨id, waiting, waits, -, ⟨seen, rfl⟩ | ⟨unseen, rfl⟩⟩ := round_eq_inr.mp onward
  · simp only [left, waits, List.length_cons, Nat.add_assoc]
  · have taken := length_insert (fun x => (g.below x).toList) unseen g.descendants.nodup_keys
    -- A node without an entry has nothing below it, so it adds nothing and takes nothing away.
    have share : (if id ∈ g.descendants.keys then (g.below id).toList.length else 0) = (g.below id).toList.length := by
      split
      · rfl
      · rename_i unknown
        rw [below_of_not_mem_keys unknown]
        rfl
    simp only [left, waits, List.length_cons, List.length_append, List.length_reverse]
    omega

/-- The answer of a search. -/
def run (g : Graph) (target : NodeId) (s : Search) : Bool :=
  match _onward : s.round g target with
  | .inl answer => answer
  | .inr next => run g target next
termination_by s.left g
decreasing_by exact Nat.lt_of_succ_le (Nat.le_of_eq (left_round _onward))

theorem run_of_inl {g : Graph} {target : NodeId} {s : Search} {answer : Bool}
    (ends : s.round g target = .inl answer) : s.run g target = answer := by
  rw [run]
  split
  · rename_i found
    exact Sum.inl.inj (found.symm.trans ends)
  · rename_i onward
    cases onward.symm.trans ends

theorem run_of_inr {g : Graph} {target : NodeId} {s next : Search} (onward : s.round g target = .inr next) :
    s.run g target = next.run g target := by
  rw [run]
  split
  · rename_i ends
    cases ends.symm.trans onward
  · rename_i found
    cases found.symm.trans onward
    rfl

end Search

/-- Whether `target` is `source` or lies below it. -/
def reaches (g : Graph) (source target : NodeId) : Bool := Search.run g target { stack := [source] }

end PolicyLedger.Graph
