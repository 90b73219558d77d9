import PolicyLedger.Proofs.Attempts
import PolicyLedger.Proofs.Calls
import PolicyLedger.Proofs.NestedTransactions

/-!
Calls to a store that is lent. The borrower counts the transactions it has open, and only the outermost one
is a transaction of the store. So whatever happens to the inner ones, the borrower sees all changes made since
the outermost was begun, and the lender gets back the store it lent.
-/
namespace PolicyLedger.Scratch
open PolicyLedger.Action

inductive Call where
  | transact (t : TransactionCall)
  | policy (c : PolicyCall)

/-- What is lent after a call, whether it succeeds or fails. -/
def Call.after (s : Scratch Store) : Call → Scratch Store
  | transact t => (t.act.outcome s).2
  | policy c => (c.act.outcome s).2

def run (calls : List Call) (s : Scratch Store) : Scratch Store := calls.foldl Call.after s

/-! ### Where calls stand -/

/-- What calls have come to: how many transactions are open, and all changes asked for since the outermost of
these was begun. -/
structure Standing where
  depth : Nat := 0
  changes : List Mutation := []

namespace Standing

def after (p : Standing) : Call → Standing
  | .transact .begin => ⟨p.depth + 1, if p.depth = 0 then [] else p.changes⟩
  | .transact .commit | .transact .rollback => { p with depth := p.depth - 1 }
  | .policy (.ask _) => p
  | .policy (.change m) => { p with changes := p.changes ++ [m] }

def ofCalls (calls : List Call) : Standing := calls.foldl after {}

/-- A store of one's own on which the same changes are asked for. -/
def plain (p : Standing) (store : Store) : Store := Store.run (p.changes.map fun m => .change (.perform m)) store

/-- Whether a call is anything but a change outside of transactions. -/
def allows (p : Standing) : Call → Bool
  | .policy (.change _) => 0 < p.depth
  | _ => true

end Standing

/-- Whether calls ask for changes only while a transaction is open. -/
def tidy : Standing → List Call → Bool
  | _, [] => true
  | p, call :: rest => p.allows call && tidy (p.after call) rest

/-! ### Transactions -/

private theorem begin_outcome (s : Scratch Store) :
    (Scratch.begin (σ := Store)).outcome s = (.ok (), if s.depth = 0
      then ⟨⟨s.store.graph, s.store.graph :: s.store.snapshots⟩, 1⟩ else { s with depth := s.depth + 1 }) := by
  obtain ⟨store, depth⟩ := s
  cases depth <;> rfl

private theorem close_none {s : Scratch Store} (none : s.depth = 0) :
    (Scratch.close (σ := Store)).outcome s = (.error .noTransaction, s) := by
  obtain ⟨store, depth⟩ := s
  cases none
  rfl

private theorem close_outermost {s : Scratch Store} {before : Graph} {outer : List Graph} (outermost : s.depth = 1)
    (kept : s.store.snapshots = before :: outer) :
    (Scratch.close (σ := Store)).outcome s = (.ok (), ⟨⟨before, outer⟩, 0⟩) := by
  obtain ⟨⟨shown, snapshots⟩, depth⟩ := s
  cases outermost
  cases kept
  rfl

private theorem close_inner {s : Scratch Store} {depth : Nat} (inner : s.depth = depth + 2) :
    (Scratch.close (σ := Store)).outcome s = (.ok (), { s with depth := depth + 1 }) := by
  obtain ⟨store, depth'⟩ := s
  cases inner
  rfl

/-! ### Calls -/

/-- A store that was lent as `store`, after calls that stand at `p`. -/
structure Tracks (store : Store) (p : Standing) (s : Scratch Store) : Prop where
  depth : s.depth = p.depth
  idle : p.depth = 0 → s.store = store
  busy : 0 < p.depth → s.store = ⟨(p.plain store).graph, store.graph :: store.snapshots⟩

private theorem Standing.plain_change (p : Standing) (m : Mutation) (store : Store) :
    (p.after (.policy (.change m))).plain store = ((PolicyState.perform m).outcome (p.plain store)).2 := by
  rw [plain, after, List.map_append, Store.run_append]
  show ((Store.Call.change (.perform m)).act.outcome (p.plain store)).2 = _
  rw [Store.outcome_change, Store.perform_outcome, Store.Change.after]
  cases (p.plain store).graph.apply m <;> rfl

section
variable {store : Store} {p : Standing} {s : Scratch Store}

private theorem Tracks.begin (tracks : Tracks store p s) :
    ((Scratch.begin (σ := Store)).outcome s).1 = .ok () ∧
      Tracks store (p.after (.transact .begin)) ((Scratch.begin (σ := Store)).outcome s).2 := by
  rw [begin_outcome, tracks.depth, Standing.after]
  by_cases closed : p.depth = 0
  · rw [if_pos closed, if_pos closed, tracks.idle closed, closed]
    exact ⟨rfl, rfl, nofun, fun _ => rfl⟩
  · rw [if_neg closed, if_neg closed]
    exact ⟨rfl, rfl, nofun, fun _ => tracks.busy (Nat.pos_of_ne_zero closed)⟩

/-- To close a transaction is the same both ways. -/
private theorem Tracks.close (tracks : Tracks store p s) :
    (0 < p.depth → ((Scratch.close (σ := Store)).outcome s).1 = .ok ()) ∧
      Tracks store { p with depth := p.depth - 1 } ((Scratch.close (σ := Store)).outcome s).2 := by
  obtain ⟨depth, changes⟩ := p
  rcases depth with _ | _ | depth
  · rw [close_none tracks.depth]
    exact ⟨nofun, tracks.depth, tracks.idle, nofun⟩
  · have inside := tracks.busy (Nat.zero_lt_succ 0)
    rw [close_outermost tracks.depth (congrArg Store.snapshots inside)]
    exact ⟨fun _ => rfl, rfl, fun _ => rfl, nofun⟩
  · have inside := tracks.busy (Nat.zero_lt_succ (depth + 1))
    rw [close_inner tracks.depth]
    exact ⟨fun _ => rfl, rfl, nofun, fun _ => inside⟩

private theorem Tracks.transact (tracks : Tracks store p s) (t : TransactionCall) :
    (0 < p.depth → (t.act.outcome s).1 = .ok ()) ∧ Tracks store (p.after (.transact t)) (t.act.outcome s).2 := by
  cases t with
  | begin => exact ⟨fun _ => tracks.begin.1, tracks.begin.2⟩
  | commit => exact tracks.close
  | rollback => exact tracks.close

private theorem Tracks.change {m : Mutation} (tracks : Tracks store p s) (opened : 0 < p.depth) :
    Tracks store (p.after (.policy (.change m))) (Call.after s (.policy (.change m))) := by
  have changed : Call.after s (.policy (.change m)) =
      { s with store := ((PolicyState.perform m).outcome s.store).2 } := by
    rw [Call.after, PolicyCall.outcome_change]
    rfl
  rw [changed, tracks.busy opened]
  refine ⟨tracks.depth, fun closed => absurd closed (Nat.ne_of_gt opened), fun _ => ?_⟩
  rw [Standing.plain_change, Store.perform_outcome, Store.perform_outcome]
  cases (p.plain store).graph.apply m <;> rfl

private theorem Tracks.after {call : Call} (tracks : Tracks store p s) (allowed : p.allows call = true) :
    Tracks store (p.after call) (call.after s) := by
  cases call with
  | transact t => exact (tracks.transact t).2
  | policy c =>
    cases c with
    | ask q =>
      have same : Call.after s (.policy (.ask q)) = s := by rw [Call.after, PolicyCall.outcome_ask]
      rw [same]
      exact tracks
    | change m => exact tracks.change (by simpa [Standing.allows] using allowed)

theorem Tracks.run {calls : List Call} (tracks : Tracks store p s) (tidied : tidy p calls = true) :
    Tracks store (calls.foldl Standing.after p) (run calls s) := by
  induction calls generalizing p s with
  | nil => exact tracks
  | cons call rest ih =>
    obtain ⟨allowed, later⟩ := Bool.and_eq_true_iff.mp tidied
    exact ih (tracks.after allowed) later

private theorem Tracks.keeps (tracks : Tracks store p s) : s.Keeps store.graph store.snapshots := by
  rw [Keeps, tracks.depth]
  rcases depth : p.depth with _ | _
  · exact tracks.idle depth
  · exact congrArg Store.snapshots (tracks.busy (by omega))

end

/-- A store that is lent, after any calls that ask for changes only inside of transactions. It is given back
as it was, however many transactions are left open. Inside of a transaction, it answers what a store answers
on which all changes since the outermost was begun were asked for, those of inner transactions included that
were taken back. Outside of all, nothing can be closed. -/
theorem lent_store {calls : List Call} (tidied : tidy {} calls = true) (store : Store) :
    let lent := run calls ⟨store, 0⟩
    let p := Standing.ofCalls calls
    lent.release = store ∧ lent.depth = p.depth ∧
    (0 < lent.depth →
      (∀ c : PolicyCall, (c.act.outcome lent).1 = (c.act.outcome (p.plain store)).1) ∧
      ∀ t : TransactionCall, (t.act.outcome lent).1 = .ok ()) ∧
    (lent.depth = 0 → lent.store = store ∧
      TransactionCall.commit.act.outcome lent = (.error .noTransaction, lent) ∧
      TransactionCall.rollback.act.outcome lent = (.error .noTransaction, lent)) := by
  intro lent p
  have untouched : Tracks store {} ⟨store, 0⟩ := ⟨rfl, fun _ => rfl, nofun⟩
  have tracks : Tracks store p lent := untouched.run tidied
  refine ⟨tracks.keeps.release, tracks.depth, ?_, ?_⟩
  · intro opened
    rw [tracks.depth] at opened
    refine ⟨fun c => ?_, fun t => (tracks.transact t).1 opened⟩
    have shown : lent.store.graph = (p.plain store).graph := by rw [tracks.busy opened]
    exact (Likeness.lent.call c lent (p.plain store) shown).1
  · intro none
    exact ⟨tracks.idle (tracks.depth.symm.trans none), close_none none, close_none none⟩

/-- A class is created in a transaction that is taken back, inside of one that is left open. -/
def takenBackInside : List Call :=
  let create (name : String) : Call := .policy (.change (.createNode .policyClass name []))
  [.transact .begin, create "b", .transact .begin, create "c", .transact .rollback, .policy (.ask (.nodeExists "b"))]

/-- The class is still there, and gone when the store is given back, which was in a transaction of its own. -/
theorem takenBackInside_lent :
    let store := Store.run [.begin, .change (.perform (.createNode .policyClass "a" []))] {}
    let lent := run takenBackInside ⟨store, 0⟩
    tidy {} takenBackInside = true ∧ lent.depth = 1 ∧
    ((PolicyCall.ask (.nodeExists "c")).act.outcome lent).1 = .ok (.answer (.truth true)) ∧ lent.release = store := by
  intro store lent
  have tidied : tidy {} takenBackInside = true := by decide
  obtain ⟨back, depth, inside, -⟩ := lent_store tidied store
  obtain ⟨answers, -⟩ := inside (by rw [depth]; decide)
  have created : (PolicyState.graph ((Standing.ofCalls takenBackInside).plain store)).nodeExists "c" = true := by
    decide +kernel
  refine ⟨tidied, depth, ?_, back⟩
  rw [answers, PolicyCall.outcome_ask, Graph.answer, created]
  rfl

end PolicyLedger.Scratch
