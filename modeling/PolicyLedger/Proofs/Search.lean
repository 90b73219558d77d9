import Mathlib.Data.List.Basic
import Mathlib.Logic.Relation
import PolicyLedger.Graph.Reachability

/-!
The search along assignments is exact and ends soon. It finds its target if and only if that can be reached, on
every graph: a search that ends without it has looked at a set of nodes that is closed under assignments. And it
goes on for no more rounds than there are assignments, but for two.
-/
namespace PolicyLedger.Graph

/-- Whether one node is assigned to another. -/
def Assigned (g : Graph) (ascendant descendant : NodeId) : Prop := descendant ∈ g.below ascendant

/-- Whether a node is another one or lies below it. -/
abbrev Reaches (g : Graph) : NodeId → NodeId → Prop := Relation.ReflTransGen g.Assigned

variable {g : Graph} {target : NodeId}

namespace Search

/-- What a search has made sure of when it goes on: it has not looked at the target, and whatever is assigned to
from a node it has looked at is looked at too or waits. -/
structure Sound (g : Graph) (target : NodeId) (s : Search) : Prop where
  missed : target ∉ s.visited
  followed : ∀ id ∈ s.visited, ∀ d, g.Assigned id d → d ∈ s.visited ∨ d ∈ s.stack

/-- Whether a search has looked at a node or is about to. -/
def Meets (s : Search) (id : NodeId) : Prop := id ∈ s.visited ∨ id ∈ s.stack

/-- A node that was looked at before may be dropped. -/
private theorem Sound.drop {visited : SortedSet NodeId} {id : NodeId} {waiting : List NodeId}
    (sound : Sound g target ⟨visited, id :: waiting⟩) (seen : id ∈ visited) : Sound g target ⟨visited, waiting⟩ where
  missed := sound.missed
  followed := by
    intro v known d assigned
    rcases sound.followed v known d assigned with known | waits
    · exact .inl known
    · rcases List.mem_cons.mp waits with rfl | waits
      · exact .inl seen
      · exact .inr waits

/-- A node that is looked at for the first time is exchanged for the nodes below it. -/
private theorem Sound.look {visited : SortedSet NodeId} {id : NodeId} {waiting : List NodeId}
    (sound : Sound g target ⟨visited, id :: waiting⟩) (other : id ≠ target) :
    Sound g target ⟨visited.insert id, (g.below id).toList.reverse ++ waiting⟩ where
  missed := by
    intro member
    rcases SortedSet.mem_insert.mp member with same | known
    · exact other same.symm
    · exact sound.missed known
  followed := by
    intro v member d assigned
    rcases SortedSet.mem_insert.mp member with rfl | known
    · exact .inr (List.mem_append_left _ (List.mem_reverse.mpr assigned))
    · rcases sound.followed v known d assigned with known | waits
      · exact .inl (SortedSet.mem_insert.mpr (.inr known))
      · rcases List.mem_cons.mp waits with rfl | waits
        · exact .inl (SortedSet.mem_insert.mpr (.inl rfl))
        · exact .inr (List.mem_append_right _ waits)

private theorem Sound.round {s next : Search} (sound : Sound g target s) (onward : s.round g target = .inr next) :
    Sound g target next := by
  obtain ⟨visited, stack⟩ := s
  obtain ⟨id, waiting, rfl, other, ⟨seen, rfl⟩ | ⟨unseen, rfl⟩⟩ := round_eq_inr.mp onward
  · exact sound.drop (SortedSet.contains_iff.mp seen)
  · exact sound.look other

/-- What a search meets it still meets after a round. -/
private theorem meets_round {s next : Search} (onward : s.round g target = .inr next) {id : NodeId} (met : s.Meets id) :
    next.Meets id := by
  obtain ⟨visited, stack⟩ := s
  obtain ⟨first, waiting, rfl, -, ⟨seen, rfl⟩ | ⟨unseen, rfl⟩⟩ := round_eq_inr.mp onward
  · rcases met with known | waits
    · exact .inl known
    · rcases List.mem_cons.mp waits with rfl | waits
      · exact .inl (SortedSet.contains_iff.mp seen)
      · exact .inr waits
  · rcases met with known | waits
    · exact .inl (SortedSet.mem_insert.mpr (.inr known))
    · rcases List.mem_cons.mp waits with rfl | waits
      · exact .inl (SortedSet.mem_insert.mpr (.inl rfl))
      · exact .inr (List.mem_append_right _ waits)

/-- A search that fails has nothing left that waits. -/
private theorem round_eq_inl_false {s : Search} : s.round g target = .inl false ↔ s.stack = [] := by
  unfold Search.round
  split
  · rename_i empty
    simp [empty]
  · rename_i id waiting waits
    split
    · simp [waits]
    · split <;> simp [waits]

/-- A search succeeds where it comes to the target. -/
private theorem round_eq_inl_true {s : Search} :
    s.round g target = .inl true ↔ ∃ waiting, s.stack = target :: waiting := by
  unfold Search.round
  split
  · rename_i empty
    simp [empty]
  · rename_i id waiting waits
    split
    · rename_i found
      simp [waits, found]
    · rename_i other
      split <;> simp [waits, other]

/-- A search that fails has looked at all it met and at whatever is assigned to from there, but not at the target. -/
private theorem run_eq_false {s : Search} (sound : Sound g target s) (failed : s.run g target = false) :
    ∃ all : SortedSet NodeId, (∀ id, s.Meets id → id ∈ all) ∧ target ∉ all ∧
      ∀ id ∈ all, ∀ d, g.Assigned id d → d ∈ all := by
  fun_induction run g target s with
  | case1 s answer ends =>
    rw [failed] at ends
    have empty := round_eq_inl_false.mp ends
    refine ⟨s.visited, ?_, sound.missed, ?_⟩
    · intro id met
      simpa [Meets, empty] using met
    · intro id known d assigned
      simpa [empty] using sound.followed id known d assigned
  | case2 s next onward ih =>
    obtain ⟨all, covered, missed, closed⟩ := ih (sound.round onward) failed
    exact ⟨all, fun id met => covered id (meets_round onward met), missed, closed⟩

/-- A search that succeeds has come to the target from one of the nodes that waited. -/
private theorem run_eq_true {s : Search} (found : s.run g target = true) : ∃ id ∈ s.stack, g.Reaches id target := by
  fun_induction run g target s with
  | case1 s answer ends =>
    rw [found] at ends
    obtain ⟨waiting, waits⟩ := round_eq_inl_true.mp ends
    exact ⟨target, by simp [waits], .refl⟩
  | case2 s next onward ih =>
    obtain ⟨d, waits, path⟩ := ih found
    obtain ⟨visited, stack⟩ := s
    obtain ⟨id, waiting, rfl, -, ⟨seen, rfl⟩ | ⟨unseen, rfl⟩⟩ := round_eq_inr.mp onward
    · exact ⟨d, .tail _ waits, path⟩
    · rcases List.mem_append.mp waits with below | waits
      · exact ⟨id, .head _, .head (List.mem_reverse.mp below) path⟩
      · exact ⟨d, .tail _ waits, path⟩

/-- How far a search is after so many rounds, or what it has answered by then. -/
def after (g : Graph) (target : NodeId) : Nat → Search → Bool ⊕ Search
  | 0, s => .inr s
  | rounds + 1, s =>
    match s.round g target with
    | .inl answer => .inl answer
    | .inr next => after g target rounds next

/-- A search has answered when it has gone on for all the rounds it can. -/
private theorem after_left (g : Graph) (target : NodeId) (s : Search) {rounds : Nat} (enough : s.left g < rounds) :
    after g target rounds s = .inl (s.run g target) := by
  induction rounds generalizing s with
  | zero => omega
  | succ rounds ih =>
    cases round : s.round g target with
    | inl answer => simp [after, round, run_of_inl round]
    | inr next =>
      have fewer := left_round round
      simp only [after, round, run_of_inr round]
      exact ih next (by omega)

end Search

/-- Whatever assignments there are, the search says whether they lead from one node to another. -/
theorem reaches_eq_true {source : NodeId} : g.reaches source target = true ↔ g.Reaches source target := by
  constructor
  · intro found
    obtain ⟨id, waits, path⟩ := Search.run_eq_true found
    rwa [List.mem_singleton.mp waits] at path
  · intro path
    cases found : g.reaches source target with
    | true => rfl
    | false =>
      have start : Search.Sound g target { stack := [source] } :=
        ⟨SortedSet.not_mem_empty target, fun id known => absurd known (SortedSet.not_mem_empty id)⟩
      obtain ⟨all, covered, missed, closed⟩ := Search.run_eq_false start found
      -- The source is among the nodes looked at, and no assignment leads out of them.
      have along : ∀ d, g.Reaches source d → d ∈ all := by
        intro d path
        induction path with
        | refl => exact covered source (.inr (.head _))
        | tail _ assigned ih => exact closed _ ih _ assigned
      exact absurd (along target path) missed

/-- All assignments, as pairs of nodes. -/
def edges (g : Graph) : List (NodeId × NodeId) :=
  g.descendants.toList.flatMap fun entry => entry.2.toList.map (entry.1, ·)

private theorem left_start (g : Graph) (source : NodeId) :
    Search.left g { stack := [source] } = g.edges.length + 1 := by
  have lower : g.edges.map (·.2) = g.descendants.keys.flatMap fun id => (g.below id).toList := by
    rw [edges, List.map_flatMap, SortedMap.keys, List.flatMap_map]
    refine List.flatMap_congr fun entry member => ?_
    have found : g.descendants.get? entry.1 = some entry.2 := SortedMap.mem_toList.mp member
    simp [below, found, Function.comp_def]
  have whole : g.descendants.keys.filter (!(∅ : SortedSet NodeId).contains ·) = g.descendants.keys :=
    List.filter_eq_self.mpr fun _ _ => rfl
  rw [Search.left, whole, ← lower, List.length_map]
  rfl

/-- On every graph, with whatever cycles and unknown nodes in its assignments, the search of a node below
another one ends within two rounds more than there are assignments. Its answer is that there is one exactly if
the target is the source or a way of assignments leads down to it. -/
theorem search_ends_exact (g : Graph) (source target : NodeId) :
    Search.after g target (g.edges.length + 2) { stack := [source] } = .inl (g.reaches source target) ∧
      (g.reaches source target = true ↔ g.Reaches source target) := by
  constructor
  · refine Search.after_left g target _ ?_
    rw [left_start]
    omega
  · exact reaches_eq_true

/-- A node that is assigned to itself, two that are assigned to each other, and one that no node has as its
identifier. -/
example :
    let g : Graph := { descendants := .ofList [(⟨1⟩, .ofList [⟨1⟩, ⟨2⟩]), (⟨2⟩, .ofList [⟨1⟩, ⟨3⟩])] }
    g.reaches ⟨1⟩ ⟨3⟩ = true ∧ g.reaches ⟨3⟩ ⟨1⟩ = false ∧ g.reaches ⟨1⟩ ⟨4⟩ = false := by
  decide +kernel

end PolicyLedger.Graph
