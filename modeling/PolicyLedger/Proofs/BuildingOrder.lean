import Mathlib.Data.List.Pairwise
import PolicyLedger.Proofs.CarriedText
import PolicyLedger.Proofs.Hierarchy

/-!
Building a graph in any order. What adds to a policy adds pieces to its graph, and two pieces that are not put
in the same place can be added in either order. Whatever is repeated without a failure finds its places free;
so no two of the pieces meet, and the graph that comes of them does not tell in which order they came.
-/
namespace PolicyLedger
open PolicyLedger.Action

/-! ### Insertions in either order -/

theorem SortedMap.insert_comm {κ ν : Type} [LT κ] [DecidableLT κ] [KeyOrder κ] [DecidableEq κ] (m : SortedMap κ ν)
    {k k' : κ} (differ : k ≠ k') (v v' : ν) : (m.insert k v).insert k' v' = (m.insert k' v').insert k v := by
  refine ext fun x => ?_
  simp only [get?_insert]
  by_cases same : x = k
  · simp [same, differ]
  · simp [same]

/-- Of what stands at two places, or at one, changes that agree can be made in either order. -/
private theorem SortedMap.insert_getD_comm {κ ν : Type} [LT κ] [DecidableLT κ] [KeyOrder κ] [DecidableEq κ]
    (m : SortedMap κ ν) (k k' : κ) (f f' : ν → ν) (z : ν) (agree : k = k' → ∀ v, f' (f v) = f (f' v)) :
    let first := m.insert k (f ((m.get? k).getD z))
    let second := m.insert k' (f' ((m.get? k').getD z))
    first.insert k' (f' ((first.get? k').getD z)) = second.insert k (f ((second.get? k).getD z)) := by
  intro first second
  refine ext fun x => ?_
  simp only [first, second, get?_insert]
  by_cases same : k = k'
  · subst same
    by_cases here : x = k
    · simp [here, agree rfl]
    · simp [here]
  · by_cases here : x = k
    · simp [here, same]
    · simp [here, Ne.symm same]

theorem SortedSet.insert_comm {κ : Type} [LT κ] [DecidableLT κ] [KeyOrder κ] (s : SortedSet κ) (a b : κ) :
    (s.insert a).insert b = (s.insert b).insert a := by
  refine ext fun x => ?_
  simp only [mem_insert]
  exact or_left_comm

private theorem max_right_swap (a b c : UInt64) : max (max a b) c = max (max a c) b := by
  refine UInt64.toNat_inj.mp ?_
  simp only [UInt64.toNat_max]
  omega

/-! ### Pieces -/

/-- What is added to a graph, taken apart. -/
inductive Piece where
  | node (id : NodeId) (kind : NodeKind) (name : String)
  | link (ascendant descendant : NodeId)
  | grant (ua target : NodeId) (rights : AccessRights)
  | prohibition (p : Prohibition)
  | declaration (kind : DeclarationKind) (author : Author) (name text : String)

namespace Graph

def add (g : Graph) : Piece → Graph
  | .node id kind name =>
    { g with
      nodes := g.nodes.insert id ⟨id, kind, name, ∅⟩
      names := g.names.insert name id
      lastId := max g.lastId id.value }
  | .link ascendant descendant => g.link ascendant descendant
  | .grant ua target rights =>
    { g with associations := g.associations.insert ua ((g.granted ua).insert target rights) }
  | .prohibition p => { g with prohibitions := g.prohibitions.insert p.name p }
  | .declaration kind author name text => g.declare author name text kind

def addAll (g : Graph) (pieces : List Piece) : Graph := pieces.foldl add g

/-- Whether the place of a piece is free. Links and grants can be put where there is one already. -/
def Lacks (g : Graph) : Piece → Prop
  | .node id _ name => g.nodes.contains id = false ∧ g.names.contains name = false
  | .prohibition p => g.prohibitions.contains p.name = false
  | .declaration kind _ name _ => g.declares name kind = false
  | .link .. | .grant .. => True

/-- Whether each of the pieces finds its place free when its turn comes. -/
def Fits : Graph → List Piece → Prop
  | _, [] => True
  | g, x :: rest => g.Lacks x ∧ (g.add x).Fits rest

end Graph

namespace Piece

/-- The user attribute and the target of a grant. -/
def pair? : Piece → Option (NodeId × NodeId)
  | grant ua target _ => some (ua, target)
  | _ => none

/-- Whether two pieces have different places, unless both are grants. -/
def Apart : Piece → Piece → Prop
  | node id _ name, node id' _ name' => id ≠ id' ∧ name ≠ name'
  | prohibition p, prohibition p' => p.name ≠ p'.name
  | declaration kind _ name _, declaration kind' _ name' _ => kind = kind' → name ≠ name'
  | _, _ => True

end Piece

namespace Graph

variable {g after : Graph} {x y : Piece} {pieces more : List Piece}

/-- A declaration has nothing to do with any other piece. -/
private theorem add_declare (g : Graph) (other : ∀ kind author name text, x ≠ .declaration kind author name text)
    (kind : DeclarationKind) (author : Author) (name text : String) :
    (g.add x).declare author name text kind = (g.declare author name text kind).add x := by
  cases x
  case declaration kind author name text => exact absurd rfl (other kind author name text)
  all_goals cases kind <;> rfl

/-- Pieces with different places can be added in either order. -/
theorem add_comm (g : Graph) (apart : x.Apart y) (pairs : ∀ a, x.pair? = some a → ∀ b, y.pair? = some b → a ≠ b) :
    (g.add x).add y = (g.add y).add x := by
  cases x <;> cases y
  case node.node id kind name id' kind' name' =>
    simp only [add, SortedMap.insert_comm _ apart.1, SortedMap.insert_comm _ apart.2, max_right_swap _ id.value]
  case link.link a d a' d' =>
    have down := SortedMap.insert_getD_comm g.descendants a a' (·.insert d) (·.insert d') ∅
      fun _ s => s.insert_comm d d'
    have up := SortedMap.insert_getD_comm g.ascendants d d' (·.insert a) (·.insert a') ∅
      fun _ s => s.insert_comm a a'
    simp only [add, link, addEdge]
    rw [down, up]
  case grant.grant ua target rights ua' target' rights' =>
    have differ := pairs _ rfl _ rfl
    have both := SortedMap.insert_getD_comm g.associations ua ua' (·.insert target rights) (·.insert target' rights') ∅
      fun same granted => granted.insert_comm (fun equal => differ (Prod.ext same equal)) rights rights'
    simp only [add, granted]
    rw [both]
  case prohibition.prohibition p p' => simp only [add, SortedMap.insert_comm _ apart]
  case declaration.declaration kind author name text kind' author' name' text' =>
    cases kind <;> cases kind' <;> first | rfl | simp only [add, declare, SortedMap.insert_comm _ (apart rfl)]
  case node.declaration | link.declaration | grant.declaration | prohibition.declaration =>
    exact add_declare g (by rintro _ _ _ _ ⟨⟩) ..
  case declaration.node | declaration.link | declaration.grant | declaration.prohibition =>
    exact (add_declare g (by rintro _ _ _ _ ⟨⟩) ..).symm
  all_goals rfl

/-- A place that is free once a piece is added was free before, and is not the place of that piece. -/
private theorem lacks_add (free : (g.add x).Lacks y) : g.Lacks y ∧ x.Apart y := by
  cases x <;> cases y
  case node.node id kind name id' kind' name' =>
    obtain ⟨differ, unknown⟩ := SortedMap.not_contains_insert.mp free.1
    obtain ⟨differ', unused⟩ := SortedMap.not_contains_insert.mp free.2
    exact ⟨⟨unknown, unused⟩, Ne.symm differ, Ne.symm differ'⟩
  case prohibition.prohibition p p' =>
    obtain ⟨differ, unused⟩ := SortedMap.not_contains_insert.mp free
    exact ⟨unused, Ne.symm differ⟩
  case declaration.declaration kind author name text kind' author' name' text' =>
    by_cases same : kind = kind'
    · subst same
      cases kind
      all_goals
        obtain ⟨differ, unused⟩ := SortedMap.not_contains_insert.mp free
        exact ⟨unused, fun _ => Ne.symm differ⟩
    · refine ⟨?_, fun equal => absurd equal same⟩
      cases kind <;> cases kind' <;> first | exact free | exact absurd rfl same
  case declaration.node kind _ _ _ _ _ _ | declaration.prohibition kind _ _ _ _ =>
    cases kind <;> exact ⟨free, trivial⟩
  all_goals exact ⟨free, trivial⟩

private theorem Fits.lacks (fits : g.Fits pieces) (member : y ∈ pieces) : g.Lacks y := by
  induction pieces generalizing g with
  | nil => cases member
  | cons x rest ih =>
    rcases List.mem_cons.mp member with rfl | later
    · exact fits.1
    · exact (lacks_add (ih fits.2 later)).1

/-- Pieces that find their places free have different places. -/
private theorem Fits.apart (fits : g.Fits pieces) : pieces.Pairwise Piece.Apart := by
  induction pieces generalizing g with
  | nil => exact .nil
  | cons x rest ih => exact .cons (fun y later => (lacks_add (fits.2.lacks later)).2) (ih fits.2)

private theorem addAll_append (g : Graph) (pieces more : List Piece) :
    g.addAll (pieces ++ more) = (g.addAll pieces).addAll more :=
  List.foldl_append

private theorem Fits.append (fits : g.Fits pieces) (rest : (g.addAll pieces).Fits more) : g.Fits (pieces ++ more) := by
  induction pieces generalizing g with
  | nil => exact rest
  | cons x pieces ih => exact ⟨fits.1, ih fits.2 rest⟩

/-- Pieces that find their places free, with no two grants for one pair, lead to the same graph in any order. -/
theorem addAll_perm (fits : g.Fits pieces) (pairs : (pieces.filterMap Piece.pair?).Nodup) (same : pieces.Perm more) :
    g.addAll pieces = g.addAll more := by
  have : Std.Symm fun x y : Piece => ∀ h : Graph, (h.add x).add y = (h.add y).add x :=
    ⟨fun _ _ swap h => (swap h).symm⟩
  have swap : pieces.Pairwise fun x y => ∀ h : Graph, (h.add x).add y = (h.add y).add x := by
    have differ := List.pairwise_filterMap.mp pairs
    refine (fits.apart.and differ).imp ?_
    rintro x y ⟨apart, differ⟩ h
    exact h.add_comm apart differ
  refine same.foldl_eq' ?_ g
  intro x first y second h
  exact List.Pairwise.forall_of_forall (fun _ _ _ => rfl) swap first second h

end Graph

/-! ### Events -/

namespace Event
open PolicyLedger.Graph

variable {g after : Graph} {e : Event}

/-- Whether an event tells of something that was added. Operations on resources are set as a whole. -/
def additive : Event → Bool
  | policyClassCreated .. | userAttributeCreated .. | objectAttributeCreated .. => true
  | userCreated .. | objectCreated .. => true
  | assignmentCreated .. | associationCreated .. | prohibitionCreated _ => true
  | obligationCreated _ | operationCreated .. | routineCreated .. => true
  | nodeDeleted _ | propertiesSet .. | assignmentDeleted .. | associationDeleted .. | prohibitionDeleted _ => false
  | obligationDeleted _ | operationDeleted _ | resourceOperationsSet _ | routineDeleted _ => false

/-- The user attribute and the target of an association that was created. -/
def pair? : Event → Option (NodeId × NodeId)
  | associationCreated ua target _ => some (ua, target)
  | _ => none

/-- The text of the one declaration that a text consists of. -/
def declaredText (source : String) : String :=
  match Statement.compile source with
  | .ok [.declare _ _ text] => text
  | _ => source

/-- What an event adds. Of an obligation the text of its declaration is kept. -/
def pieces : Event → List Piece
  | policyClassCreated id name => [.node id .policyClass name]
  | userAttributeCreated id name ds => .node id .userAttribute name :: ds.map (.link id)
  | objectAttributeCreated id name ds => .node id .objectAttribute name :: ds.map (.link id)
  | userCreated id name ds => .node id .user name :: ds.map (.link id)
  | objectCreated id name ds => .node id .object name :: ds.map (.link id)
  | assignmentCreated ascendant ds => ds.map (.link ascendant)
  | associationCreated ua target rights => [.grant ua target rights]
  | prohibitionCreated p => [.prohibition p]
  | obligationCreated o => [.declaration .obligation o.author o.name (declaredText o.source)]
  | operationCreated name source => [.declaration .operation default name source]
  | routineCreated name source => [.declaration .routine default name source]
  | _ => []

private theorem addAll_links (g : Graph) (ascendant : NodeId) (ds : List NodeId) :
    g.addAll (ds.map (.link ascendant)) = g.linkAll ascendant ds := by
  rw [addAll, List.foldl_map]
  rfl

private theorem fits_links (g : Graph) (ascendant : NodeId) (ds : List NodeId) : g.Fits (ds.map (.link ascendant)) := by
  induction ds generalizing g with
  | nil => trivial
  | cons d ds ih => exact ⟨trivial, ih _⟩

private theorem linkAll_lastId (g : Graph) (last : UInt64) (ascendant : NodeId) (ds : List NodeId) :
    { g with lastId := last }.linkAll ascendant ds = { g.linkAll ascendant ds with lastId := last } := by
  induction ds generalizing g with
  | nil => rfl
  | cons d ds ih => exact ih (g.link ascendant d)

/-- A node is added with its assignments, as a node that is inserted. -/
private theorem adds_insertNode {id : NodeId} {kind : NodeKind} {name : String} {ds : List NodeId}
    (made : g.insertNode id kind name ds = .ok after) :
    after = g.addAll (.node id kind name :: ds.map (.link id)) ∧ g.Fits (.node id kind name :: ds.map (.link id)) := by
  obtain ⟨unknown, checked, rfl⟩ := insertNode_eq_ok.mp made
  have unused := (checkNewNode_eq_ok.mp checked).1
  refine ⟨?_, ⟨unknown, unused⟩, fits_links ..⟩
  show _ = (g.add (.node id kind name)).addAll (ds.map (.link id))
  rw [addAll_links]
  exact (linkAll_lastId _ _ id ds).symm

private theorem adds_declared (kind : DeclarationKind) (author : Author) {name source : String}
    (replayed : g.replay (declared author name source kind) = .ok after) :
    ∃ text, Statement.compile source = .ok [.declare kind name text] ∧
      after = g.addAll [.declaration kind author name (kept source text kind)] ∧
      g.Fits [.declaration kind author name (kept source text kind)] := by
  obtain ⟨text, compiled, free, rfl⟩ := replay_declared.mp replayed
  exact ⟨text, compiled, rfl, free, trivial⟩

/-- Repeating an event that adds to the policy adds its pieces, whose places are free. -/
private theorem adds_replay (additive : e.additive = true) (replayed : g.replay e = .ok after) :
    after = g.addAll e.pieces ∧ g.Fits e.pieces := by
  cases e <;> cases additive
  case obligationCreated o =>
    obtain ⟨text, compiled, adds⟩ := adds_declared .obligation o.author replayed
    have same : declaredText o.source = text := by simp [declaredText, compiled]
    rw [pieces, same]
    exact adds
  case operationCreated name source =>
    obtain ⟨_, _, adds⟩ := adds_declared .operation default replayed
    exact adds
  case routineCreated name source =>
    obtain ⟨_, _, adds⟩ := adds_declared .routine default replayed
    exact adds
  all_goals rw [replay_eq_effect] at replayed
  case policyClassCreated => exact adds_insertNode (mapError_eq_ok.mp replayed)
  case userAttributeCreated | objectAttributeCreated | userCreated | objectCreated =>
    exact adds_insertNode (mapError_eq_ok.mp replayed)
  case assignmentCreated ascendant ds =>
    obtain ⟨_, applied⟩ := changed_eq_ok.mp replayed
    have .assign made := apply_eq_ok.mp applied
    obtain ⟨_, _, _, rfl⟩ := assign_eq_ok.mp made
    exact ⟨(addAll_links ..).symm, fits_links ..⟩
  case associationCreated ua target rights =>
    obtain ⟨_, applied⟩ := changed_eq_ok.mp replayed
    have .associate made := apply_eq_ok.mp applied
    obtain ⟨_, _, _, _, _, _, _, rfl⟩ := associate_eq_ok.mp made
    exact ⟨rfl, trivial, trivial⟩
  case prohibitionCreated p =>
    obtain ⟨_, applied⟩ := changed_eq_ok.mp replayed
    have .createProhibition made := apply_eq_ok.mp applied
    obtain ⟨free, _, rfl⟩ := createProhibition_eq_ok.mp made
    exact ⟨rfl, free, trivial⟩

private theorem adds_replayAll {events : List Event} (additive : ∀ e ∈ events, e.additive = true)
    (replayed : g.replayAll events = .ok after) :
    after = g.addAll (events.flatMap pieces) ∧ g.Fits (events.flatMap pieces) := by
  induction events generalizing g with
  | nil =>
    cases replayed
    exact ⟨rfl, trivial⟩
  | cons e rest ih =>
    obtain ⟨middle, first, others⟩ := bind_eq_ok.mp replayed
    obtain ⟨here, later⟩ := List.forall_mem_cons.mp additive
    obtain ⟨rfl, fits⟩ := adds_replay here first
    obtain ⟨rfl, fitsRest⟩ := ih later others
    rw [List.flatMap_cons, addAll_append]
    exact ⟨rfl, fits.append fitsRest⟩

private theorem pair?_pieces (e : Event) : e.pieces.filterMap Piece.pair? = e.pair?.toList := by
  have links (ascendant : NodeId) (ds : List NodeId) :
      (ds.map (Piece.link ascendant)).filterMap Piece.pair? = [] := by
    simp [Piece.pair?]
  cases e <;> simp [pieces, pair?, Piece.pair?, links]

private theorem pair?_flatMap_pieces (events : List Event) :
    (events.flatMap pieces).filterMap Piece.pair? = events.filterMap pair? := by
  induction events with
  | nil => rfl
  | cons e rest ih =>
    rw [List.flatMap_cons, List.filterMap_append, pair?_pieces, ih, List.filterMap_cons]
    cases e.pair? <;> rfl

private theorem replayAll_of_outcome {events : List Event} {s t : Store}
    (done : (replayEach events).outcome s = (.ok (), t)) :
    ∃ after, s.graph.replayAll events = .ok after ∧ t = { s with graph := after } := by
  induction events generalizing s with
  | nil =>
    cases done
    exact ⟨_, rfl, rfl⟩
  | cons e rest ih =>
    obtain ⟨_, middle, first, others⟩ := outcome_bind_eq_ok.mp done
    rw [replay_outcome] at first
    cases replayed : s.graph.replay e with
    | error x =>
      rw [replayed] at first
      cases first
    | ok next =>
      rw [replayed] at first
      cases first
      obtain ⟨after, rest, rfl⟩ := ih others
      exact ⟨after, bind_eq_ok.mpr ⟨next, replayed, rest⟩, rfl⟩

/-- Events that add to a policy lead to the same graph in whatever order they can be repeated, if no two of them
are about associations of one user attribute to one target. The highest identifier is the same too. -/
theorem built_in_any_order {s t t' : Store} {events events' : List Event} (additive : ∀ e ∈ events, e.additive = true)
    (pairs : (events.filterMap pair?).Nodup) (same : events.Perm events')
    (built : (replayEach events).outcome s = (.ok (), t)) (built' : (replayEach events').outcome s = (.ok (), t')) :
    t = t' := by
  obtain ⟨after, replayed, rfl⟩ := replayAll_of_outcome built
  obtain ⟨after', replayed', rfl⟩ := replayAll_of_outcome built'
  obtain ⟨rfl, fits⟩ := adds_replayAll additive replayed
  obtain ⟨rfl, _⟩ := adds_replayAll (fun e member => additive e (same.mem_iff.mpr member)) replayed'
  rw [addAll_perm fits (pair?_flatMap_pieces events ▸ pairs) (same.flatMap_right pieces)]

/-- A ward is opened, with nurses before beds. Its nodes are not numbered in this order. -/
def opening : List Event :=
  [.policyClassCreated ⟨1⟩ "ward", .userAttributeCreated ⟨4⟩ "nurses" [⟨1⟩], .userCreated ⟨3⟩ "ann" [⟨4⟩],
    .objectAttributeCreated ⟨2⟩ "beds" [⟨1⟩], .associationCreated ⟨4⟩ ⟨2⟩ (.ofList ["assign"]),
    .obligationCreated ⟨⟨⟨3⟩, none⟩, "audit", " create obligation \"audit\" \x7b\x7d"⟩]

/-- The same with beds before nurses, and the user last. Between the two orders there are some that fail. -/
def reopening : List Event :=
  [.obligationCreated ⟨⟨⟨3⟩, none⟩, "audit", " create obligation \"audit\" \x7b\x7d"⟩, .policyClassCreated ⟨1⟩ "ward",
    .objectAttributeCreated ⟨2⟩ "beds" [⟨1⟩], .userAttributeCreated ⟨4⟩ "nurses" [⟨1⟩],
    .associationCreated ⟨4⟩ ⟨2⟩ (.ofList ["assign"]), .userCreated ⟨3⟩ "ann" [⟨4⟩]]

theorem reopened_alike : ∃ t, (replayEach opening).outcome {} = (.ok (), t) ∧
    (replayEach reopening).outcome {} = (.ok (), t) ∧ t.graph.lastId = 4 ∧
    ((replayEach opening.reverse).outcome {}).1 ≠ .ok () := by
  have built : ((replayEach opening).outcome {}).1 = .ok () := by decide +kernel
  have rebuilt : ((replayEach reopening).outcome {}).1 = .ok () := by decide +kernel
  have reordered : opening.Perm reopening := by decide
  have same := built_in_any_order (by decide) (by decide) reordered (Prod.ext built rfl) (Prod.ext rebuilt rfl)
  exact ⟨_, Prod.ext built rfl, Prod.ext rebuilt same.symm, by decide +kernel, by decide +kernel⟩

end Event
end PolicyLedger
