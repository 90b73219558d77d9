import PolicyLedger.Proofs.Recording
import PolicyLedger.Replication.Adjudication

/-!
Requests made of commands. An attempt gives its store back as it got it, and the events it recorded
repeat on the graph of that store.
-/
namespace PolicyLedger
open PolicyLedger.Action

namespace Workspace

variable {test : Mutation → Prop} {r r' : Workspace} {α : Type}

theorem Leads.events (leads : Leads test r r') : r.events <+: r'.events := by
  induction leads with
  | stay => exact List.prefix_refl _
  | move _ _ _ _ ih => exact (List.prefix_append _ _).trans ih

/-- No identifiers are given but those that the recorded events tell of. -/
theorem Leads.lastId_lt {bound : Nat} (leads : Leads test r r') (begun : r.inner.store.graph.lastId.toNat < bound)
    (created : ∀ e ∈ r'.events, ∀ id, e.creates? = some id → id.value.toNat < bound) :
    r'.inner.store.graph.lastId.toNat < bound := by
  induction leads with
  | stay => exact begun
  | @move r r' m o after _ _ made later ih =>
    refine ih ?_ created
    show after.lastId.toNat < bound
    rcases Graph.apply_shape made with ⟨kind, name, ds, rfl, rfl, rfl⟩ | ⟨_, last, _⟩
    · have told : Event.nodeCreated kind r.inner.store.graph.nextId name ds ∈ r'.events :=
        later.events.subset (List.mem_append_right _ (List.mem_singleton.mpr rfl))
      exact Graph.max_toNat_lt begun (created _ told _ (Event.creates?_nodeCreated ..))
    · rwa [last]

/-- A store lent to a request, with the transaction that will be taken back. -/
def lend (plugins : SortedSet String) (store : Store) : Workspace where
  inner := { store := { store with snapshots := store.graph :: store.snapshots }, depth := 1 }
  plugins := plugins

/-- A request that only makes changes gives its store back as it got it. -/
private theorem runScratch_outcome {plugins : SortedSet String} {request : Action CommandError Workspace α}
    {store : Store}
    (leads : Leads test (lend plugins store) (request.outcome (lend plugins store)).2) :
    Adjudication.runScratch plugins request store =
      ((request.outcome (lend plugins store)).1.map fun value =>
          (value, (request.outcome (lend plugins store)).2.events), store) := by
  have begun : (Transactional.begin (σ := Workspace)).outcome { inner := { store }, plugins } =
      (.ok (), lend plugins store) := rfl
  obtain ⟨depth, snapshots, _⟩ := leads.frame
  unfold Adjudication.runScratch
  rw [begun]
  dsimp only
  rcases ran : request.outcome (lend plugins store) with ⟨result, ⟨⟨⟨graph, left⟩, level⟩, plugins', events⟩⟩
  rw [ran] at depth snapshots
  obtain rfl : level = 1 := depth
  obtain rfl : left = store.graph :: store.snapshots := snapshots
  have closed : (Scratch.close (σ := Store)).outcome
      ⟨{ graph, snapshots := store.graph :: store.snapshots }, 1⟩ = (.ok (), ⟨store, 0⟩) := rfl
  dsimp only
  rw [closed]
  cases result <;> rfl

/-- What an attempt gives is what its request was answered, and what it recorded meanwhile. -/
theorem outcome_of_runScratch {plugins : SortedSet String} {request : Action CommandError Workspace α}
    {store : Store} {value : α} {events : List Event}
    (leads : Leads test (lend plugins store) (request.outcome (lend plugins store)).2)
    (ran : (Adjudication.runScratch plugins request store).1 = .ok (value, events)) :
    ∃ after, request.outcome (lend plugins store) = (.ok value, after) ∧ after.events = events := by
  rw [runScratch_outcome leads] at ran
  rcases acted : request.outcome (lend plugins store) with ⟨e | answer, after⟩
  · rw [acted] at ran
    cases ran
  · rw [acted] at ran
    cases ran
    exact ⟨after, rfl, rfl⟩

end Workspace

open Workspace (Leads)

/-- A request that is a command, or a batch of them. -/
inductive AdjudicationSpec.Commanded : {α : Type} → AdjudicationSpec α → Prop
  | command (config : AdjudicatorConfig) (stream : String) (plugins : SortedSet String) (author : Author) (c : Command) :
    Commanded { config, stream, plugins, request := fun _ => c.execute author }
  | batch (config : AdjudicatorConfig) (stream : String) (plugins : SortedSet String) (author : Author)
    (commands : List Command) :
    Commanded { config, stream, plugins, request := fun _ => Command.executeBatch author commands }

namespace AdjudicationSpec.Commanded

variable {α : Type} {spec : AdjudicationSpec α}

theorem leads (commanded : spec.Commanded) (attempts : Nat) {r : Workspace} (begun : 0 < r.inner.depth) :
    Leads Mutation.Sourced r ((spec.request attempts).outcome r).2 := by
  cases commanded with
  | command config stream plugins author c => exact Workspace.makes_execute (fun _ asks => asks.sourced) r
  | batch config stream plugins author commands =>
    exact Workspace.leads_executeBatch (fun _ _ _ asks => asks.sourced) begun

theorem restores (commanded : spec.Commanded) (attempts : Nat) (store : Store) :
    (Adjudication.runScratch spec.plugins (spec.request attempts) store).2 = store := by
  rw [Workspace.runScratch_outcome (commanded.leads attempts Nat.zero_lt_one)]

/-- What an attempt recorded repeats on the graph it was made on. -/
theorem replays (commanded : spec.Commanded) {attempts : Nat} {store : Store} {value : α} {events : List Event}
    (attempted : (Adjudication.runScratch spec.plugins (spec.request attempts) store).1 = .ok (value, events))
    (numbered : store.graph.Numbered) (left : store.graph.lastId.toNat < 2 ^ 64 - 1)
    (created : ∀ e ∈ events, ∀ id, e.creates? = some id → id.value.toNat < 2 ^ 64 - 1) :
    ∃ after, store.graph.replayAll events = .ok after := by
  have leads := commanded.leads attempts (r := Workspace.lend spec.plugins store) Nat.zero_lt_one
  obtain ⟨last, ran, rfl⟩ := Workspace.outcome_of_runScratch leads attempted
  rw [ran] at leads
  have below := leads.lastId_lt left created
  obtain ⟨events, next, added, replayed, _⟩ :=
    leads.follows (fun _ sourced => sourced) numbered below (Follows.start spec.plugins _)
  have all : last.events = events := added
  rw [all]
  exact ⟨next, replayed⟩

end AdjudicationSpec.Commanded

end PolicyLedger
