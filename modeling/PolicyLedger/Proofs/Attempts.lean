import PolicyLedger.Log.Basic
import PolicyLedger.Proofs.Requests

/-!
What an attempt leaves behind in the replica it was made on, whatever the request does. Requests are given
call by call, so that nothing is assumed of them: they may close transactions they did not begin, the one
around the attempt included. Changes made after that are not taken back, and there are no others that stay.
-/
namespace PolicyLedger
open PolicyLedger.Action

/-- A call that begins or closes a transaction. -/
inductive TransactionCall where
  | begin
  | commit
  | rollback

def TransactionCall.act {σ : Type} [Transactional σ] : TransactionCall → Action PolicyError σ Unit
  | begin => Transactional.begin
  | commit => Transactional.commit
  | rollback => Transactional.rollback

/-- What a request does, call by call. How it goes on may depend on all answers it got. -/
inductive Request (α : Type) where
  | done (result : Except CommandError α)
  | ask (next : Graph → Request α)
  | change (m : Mutation) (next : Except PolicyError Outcome → Request α)
  | transact (call : TransactionCall) (next : Except PolicyError Unit → Request α)

namespace Request
variable {α : Type}

/-- The request carried out on a workspace. -/
def act : Request α → Action CommandError Workspace α
  | done result => .ofExcept result
  | ask next => do (next (PolicyState.graph (← get))).act
  | change m next => do (next (← (PolicyState.perform m).attempt)).act
  | transact call next => do (next (← call.act.attempt)).act

/-- The changes a request makes while it has no transaction open, in order. -/
def loose : Request α → Workspace → List Mutation
  | done _, _ => []
  | ask next, r => (next (PolicyState.graph r)).loose r
  | change m next, r =>
    let (answer, after) := (PolicyState.perform m).outcome r
    let later := (next answer).loose after
    match r.inner.depth, answer with
    | 0, .ok _ => m :: later
    | _, _ => later
  | transact call next, r =>
    let (answer, after) := call.act.outcome r
    (next answer).loose after

end Request

/-- The graph after changes made one after the other. -/
def Graph.applyAll (g : Graph) (ms : List Mutation) : Except PolicyError Graph :=
  ms.foldlM (fun g m => (g.apply m).map (·.2)) g

/-! ### The store that is given back -/

namespace Scratch

/-- A scratch that will give back a store with graph `g` and the transactions `outer`: it has that graph,
or it has a transaction open from before which it is kept. -/
def Keeps (g : Graph) (outer : List Graph) (s : Scratch Store) : Prop :=
  match s.depth with
  | 0 => s.store = ⟨g, outer⟩
  | _ + 1 => s.store.snapshots = g :: outer

variable {g : Graph} {outer : List Graph} {s : Scratch Store}

theorem Keeps.release (keeps : Keeps g outer s) : s.release = ⟨g, outer⟩ := by
  obtain ⟨⟨shown, snapshots⟩, depth⟩ := s
  cases depth with
  | zero => exact keeps
  | succ depth =>
    obtain rfl : snapshots = g :: outer := keeps
    rfl

private theorem Keeps.begin (keeps : Keeps g outer s) : Keeps g outer ((Scratch.begin (σ := Store)).outcome s).2 := by
  obtain ⟨store, depth⟩ := s
  cases depth with
  | zero =>
    obtain rfl : store = ⟨g, outer⟩ := keeps
    rfl
  | succ depth => exact keeps

private theorem Keeps.close (keeps : Keeps g outer s) : Keeps g outer ((Scratch.close (σ := Store)).outcome s).2 := by
  obtain ⟨⟨shown, snapshots⟩, depth⟩ := s
  rcases depth with _ | _ | depth
  · exact keeps
  · obtain rfl : snapshots = g :: outer := keeps
    rfl
  · exact keeps

end Scratch

namespace Request
variable {α : Type} {g : Graph} {outer : List Graph} {r : Workspace}

private theorem keeps_transact (call : TransactionCall) (keeps : r.inner.Keeps g outer) :
    (call.act.outcome r).2.inner.Keeps g outer := by
  cases call with
  | begin => exact keeps.begin
  | commit => exact keeps.close
  | rollback => exact keeps.close

/-- A change is made to the graph shown, or leaves the workspace as it is. -/
private theorem change_cases (m : Mutation) (r : Workspace) :
    (∃ o after, (PolicyState.perform m).outcome r = (.ok o, Workspace.moved r m o after) ∧
      r.inner.store.graph.apply m = .ok (o, after)) ∨
    ∃ e, (PolicyState.perform m).outcome r = (.error e, r) := by
  rw [Workspace.perform_outcome]
  cases Recorder.refusal? r.plugins m with
  | some e => exact .inr ⟨e, rfl⟩
  | none =>
    dsimp only
    cases made : r.inner.store.graph.apply m with
    | ok result => exact .inl ⟨result.1, result.2, rfl, rfl⟩
    | error e => exact .inr ⟨e, rfl⟩

private theorem applyAll_cons {m : Mutation} {ms : List Mutation} {o : Outcome} {after : Graph}
    (made : g.apply m = .ok (o, after)) : g.applyAll (m :: ms) = after.applyAll ms := by
  rw [Graph.applyAll, List.foldlM_cons, made]
  rfl

/-- What is kept from a request on is what was kept before it with its loose changes. -/
theorem keeps_act (q : Request α) (keeps : r.inner.Keeps g outer) :
    ∃ g', g.applyAll (q.loose r) = .ok g' ∧ (q.act.outcome r).2.inner.Keeps g' outer := by
  induction q generalizing r g with
  | done result => exact ⟨g, rfl, keeps⟩
  | ask next ih => exact ih _ keeps
  | transact call next ih =>
    have goes : (transact call next).act.outcome r =
      (next (call.act.outcome r).1).act.outcome (call.act.outcome r).2 := rfl
    rw [goes]
    exact ih _ (keeps_transact call keeps)
  | change m next ih =>
    have goes : (change m next).act.outcome r =
      (next ((PolicyState.perform m).outcome r).1).act.outcome ((PolicyState.perform m).outcome r).2 := rfl
    rw [goes, loose]
    rcases change_cases m r with ⟨o, after, done, made⟩ | ⟨e, refused⟩
    · rw [done]
      cases depth : r.inner.depth with
      | zero =>
        -- Nothing is open, so the graph that is shown is the one that will be given back.
        have shown : r.inner.store = ⟨g, outer⟩ := by simpa [Scratch.Keeps, depth] using keeps
        have moved : (Workspace.moved r m o after).inner.Keeps after outer := by
          simp [Scratch.Keeps, Workspace.moved, depth, shown]
        rw [shown] at made
        obtain ⟨g', applied, kept⟩ := ih _ moved
        exact ⟨g', (applyAll_cons made).trans applied, kept⟩
      | succ outerDepth =>
        have moved : (Workspace.moved r m o after).inner.Keeps g outer := by
          simpa [Scratch.Keeps, Workspace.moved, depth] using keeps
        exact ih _ moved
    · rw [refused]
      cases r.inner.depth with
      | zero => exact ih _ keeps
      | succ outerDepth => exact ih _ keeps

end Request

namespace Adjudication
variable {L α : Type}

private theorem runScratch_store (plugins : SortedSet String) (q : Request α) (store : Store) :
    ∃ g', store.graph.applyAll (q.loose (Workspace.lend plugins store)) = .ok g' ∧
      (runScratch plugins q.act store).2 = ⟨g', store.snapshots⟩ := by
  have lent : (Workspace.lend plugins store).inner.Keeps store.graph store.snapshots := rfl
  obtain ⟨g', applied, kept⟩ := q.keeps_act lent
  refine ⟨g', applied, ?_⟩
  exact kept.close.release

/-- An attempt leaves the replica at its revision, with the transactions it had open and with the graph
it had but for the changes that the request made while no transaction was open. -/
theorem attempt_keeps (spec : AdjudicationSpec α) (request : Nat → Request α) (attempts : Nat) (w : Adjudicating L) :
    let after := (attempt { spec with request := fun n => (request n).act } attempts w).2.replica
    after.revision = w.replica.revision ∧ after.store.snapshots = w.replica.store.snapshots ∧
      w.replica.store.graph.applyAll ((request attempts).loose (Workspace.lend spec.plugins w.replica.store)) =
        .ok after.store.graph := by
  obtain ⟨g', applied, given⟩ := runScratch_store spec.plugins (request attempts) w.replica.store
  refine ⟨rfl, ?_, ?_⟩
  · show (runScratch spec.plugins (request attempts).act w.replica.store).2.snapshots = _
    rw [given]
  · show _ = Except.ok (runScratch spec.plugins (request attempts).act w.replica.store).2.graph
    rw [given, applied]

/-- A request that closes the transaction around it, and then makes a change. -/
def escaping : Request Unit :=
  .transact .rollback fun _ => .change (.createNode .policyClass "a" []) fun _ => .done (.ok ())

/-- An attempt on an empty replica after which there is a node in it. -/
theorem escaping_stays :
    let spec : AdjudicationSpec Unit := ⟨{}, "policy", ∅, fun _ => escaping.act⟩
    let w : Adjudicating EventLog := ⟨{ streams := ∅ }, {}, ⟨0, 0⟩, 0⟩
    w.replica.store.graph.nodes.size = 0 ∧ (attempt spec 0 w).2.replica.store.graph.nodes.size = 1 := by
  decide

end Adjudication
end PolicyLedger
