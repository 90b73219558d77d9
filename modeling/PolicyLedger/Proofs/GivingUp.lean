import PolicyLedger.Proofs.Redelivery

/-!
The whole way of a subscriber that has a group to itself, whatever others do to the log meanwhile. It gets on
until it rests; so where an event can not be repeated, the subscriber repeats all events before it, tries this
one as often as it may, sets it aside, and is done. Under the lockdown nothing is taken any more.
-/
namespace PolicyLedger
open PolicyLedger.Action

private theorem Replica.StuckAt.mono {events more : List Recorded} {event : Recorded} {x : ReplayError} {r : Replica}
    (stuck : r.StuckAt events event x) (grows : events <+: more) : r.StuckAt more event x :=
  ⟨getElem?_mono grows stuck.next, stuck.refused⟩

namespace Consumption

variable {spec : SubscriberSpec} {s : Subscription} {n : Nat} {c : Consumption} {events : List Recorded}

/-! ### Turns of others -/

private theorem Looks.other {log : EventLog} {stream : String} {p : Nat} {phase : Consuming}
    (looks : Looks log stream p phase)
    (m : LogMove) : Looks (log.step m) stream p phase := by
  cases phase with
  | waiting wakes =>
    have moved := EventLog.step_moved log m
    refine ⟨Nat.le_trans looks.1 moved.wakes, ?_⟩
    intro asleep
    have still : (log.step m).wakes = log.wakes := Nat.le_antisymm (asleep ▸ looks.1) moved.wakes
    rw [EventLog.tail, (moved.asleep still).2]
    exact looks.2 (still.symm.trans asleep)
  | _ => exact looks

private theorem Tried.other {stream : String} {tries : UInt32} {reason : String} {w : Following EventLog}
    (tried : Tried spec stream tries reason w) (m : LogMove) :
    Tried spec stream tries reason { w with log := w.log.step m } := by
  refine ⟨tried.1, ?_⟩
  intro some
  obtain ⟨event, x, stuck, told⟩ := tried.2 some
  exact ⟨event, x, stuck.mono ((EventLog.step_moved w.log m).grows stream), told⟩

/-- What others do takes a subscriber nowhere else. -/
private theorem other_step {m : LogMove} (stage : At spec s n c) (spares : m.Spares s.stream s.group) :
    At spec s n (c.step spec s (.other m)) := by
  obtain ⟨phase, w, journal⟩ := c
  have grows : w.log.events s.stream <+: (w.log.step m).events s.stream := (EventLog.step_moved w.log m).grows s.stream
  unfold At at stage ⊢
  dsimp only [step] at stage ⊢
  cases stage with
  | between looks stands tried told => exact .between (looks.other m) (stands.other spares) (tried.other m) told
  | holding holds found stands tried told =>
    exact .holding holds (getElem?_mono grows found) (stands.other spares) (tried.other m) told
  | acknowledging found stands told =>
    exact .acknowledging (getElem?_mono grows found) (stands.other spares) told
  | announcing stands told => exact .announcing (stands.other spares) told
  | failing fails stuck stands told => exact .failing fails (stuck.mono grows) (stands.other spares) told
  | parking stuck stands told => exact .parking (stuck.mono grows) (stands.other spares) told
  | resigned ends stuck stands told => exact .resigned ends (stuck.mono grows) (stands.other spares) told

/-! ### Runs -/

private theorem step_grows (c : Consumption) (t : Turn) (stream : String) :
    c.world.log.events stream <+: (c.step spec s t).world.log.events stream := by
  cases t with
  | own =>
    rw [step]
    cases made : c.phase.step spec s c.world with
    | none => exact List.prefix_refl _
    | some after =>
      dsimp only
      rewrite [System.events_of_streams (Consuming.step_cases made).onward.streams stream]
      exact List.prefix_refl _
  | other m => exact (EventLog.step_moved c.world.log m).grows stream

private theorem run_grows (c : Consumption) (turns : List Turn) (stream : String) :
    c.world.log.events stream <+: (c.run spec s turns).world.log.events stream := by
  induction turns generalizing c with
  | nil => exact List.prefix_refl _
  | cons t rest ih => exact (step_grows c t stream).trans (ih (c.step spec s t))

/-- A subscriber gets on with each of its turns until it rests. What is known of all places where it could rest
tells how far that is at least. -/
theorem run_at {bound : Nat}
    (far : ∀ m (c' : Consumption), events <+: c'.world.log.events s.stream → At spec s m c' → Rests s c' → bound ≤ m)
    (stage : At spec s n c) (known : events <+: c.world.log.events s.stream) {turns : List Turn}
    (undisturbed : Undisturbed s turns) :
    ∃ m, At spec s m (c.run spec s turns) ∧ n ≤ m ∧ min bound (n + turns.count .own) ≤ m := by
  induction turns generalizing n c with
  | nil => exact ⟨n, stage, Nat.le_refl n, Nat.min_le_right _ _⟩
  | cons t rest ih =>
    have later : Undisturbed s rest := fun m among => undisturbed m (.tail _ among)
    have grown : events <+: (c.step spec s t).world.log.events s.stream := known.trans (step_grows c t s.stream)
    cases t with
    | other m =>
      obtain ⟨last, reached, onward, least⟩ := ih (other_step stage (undisturbed m (.head _))) grown later
      refine ⟨last, reached, onward, ?_⟩
      rwa [List.count_cons_of_ne (show Turn.other m ≠ .own from nofun)]
    | own =>
      rw [List.count_cons_self]
      rcases own_step stage with further | ⟨same, rests⟩
      · obtain ⟨last, reached, onward, least⟩ := ih further grown later
        exact ⟨last, reached, by omega, by omega⟩
      · obtain ⟨last, reached, onward, _⟩ := ih same grown later
        have enough := far n _ grown same rests
        exact ⟨last, reached, onward, by omega⟩

theorem at_run {turns : List Turn} (stage : At spec s n c) (undisturbed : Undisturbed s turns) :
    ∃ m, At spec s m (c.run spec s turns) := by
  obtain ⟨m, reached, _⟩ := run_at (fun _ _ _ _ _ => Nat.zero_le _) stage List.nil_prefix undisturbed
  exact ⟨m, reached⟩

/-! ### The end -/

/-- How a subscriber ends that could repeat so many events and not the next one. -/
structure GaveUp (spec : SubscriberSpec) (s : Subscription) (n : Nat) (g : Graph) (x : ReplayError)
    (c : Consumption) : Prop where
  finished : c.phase = .finished (.ok ())
  /-- The event was delivered once more than it may be redelivered, and rejected each time. -/
  journal : c.journal = handled n ++ gaveUp (n + 1) spec.maxRedeliveries.toNat x.message
  group : c.world.log.group? s.stream s.group = some ⟨n + 1, 0, [n + 1]⟩
  replica : c.world.replica = ⟨⟨g, []⟩, n⟩
  announced : c.world.current.value = n
  locked : c.world.lockdown = true

theorem At.stands (stage : At spec s n c) :
    ∃ group revision announced locked, c.world.Stands s group revision announced locked := by
  obtain ⟨phase, w, journal⟩ := c
  unfold At at stage
  dsimp only at stage
  cases stage with
  | between _ stands | holding _ _ stands | acknowledging _ stands | announcing stands | failing _ _ stands
  | parking _ stands | resigned _ _ stands => exact ⟨_, _, _, _, stands⟩

/-- The number of steps before the end, and what the end is. -/
private theorem At.gaveUp {k : Nat} {g : Graph} {x : ReplayError} (stage : At spec s n c)
    (stops : StopsAfter (c.world.log.events s.stream) k g x) :
    n < 6 * k + 5 * spec.maxRedeliveries.toNat + 7 ∨
      n = 6 * k + 5 * spec.maxRedeliveries.toNat + 7 ∧ c.GaveUp spec s k g x := by
  obtain ⟨_, _, _, _, standing⟩ := stage.stands
  have within : c.world.replica.revision ≤ k := stops.le standing.reflects.replayed
  obtain ⟨phase, w, journal⟩ := c
  unfold At at stage
  dsimp only at stage within stops
  cases stage with
  | @between _ _ _ p q reason looks stands tried =>
    have placed : p ≤ k := stands.revision ▸ within
    have some := UInt32.le_iff_toNat_le.mp tried.1
    have near := looks.offset_le
    exact .inl (by omega)
  | @holding _ _ _ p q reason event holds found stands tried =>
    have placed : p ≤ k := stands.revision ▸ within
    have some := UInt32.le_iff_toNat_le.mp tried.1
    have near := offset_holding holds
    exact .inl (by omega)
  | @acknowledging _ _ p event found stands =>
    have placed : p + 1 ≤ k := stands.revision ▸ within
    exact .inl (by omega)
  | @announcing _ _ p stands =>
    have placed : p + 1 ≤ k := stands.revision ▸ within
    exact .inl (by omega)
  | @failing _ _ _ p q event x fails stuck stands =>
    have placed : p ≤ k := stands.revision ▸ within
    have some : q.toNat ≤ spec.maxRedeliveries.toNat := by
      rcases fails with ⟨less, _⟩ | ⟨same, _⟩
      · exact Nat.le_of_lt (UInt32.lt_iff_toNat_lt.mp less)
      · exact Nat.le_of_eq (congrArg UInt32.toNat same)
    exact .inl (by omega)
  | @parking _ _ p event x stuck stands =>
    have placed : p ≤ k := stands.revision ▸ within
    exact .inl (by omega)
  | @resigned _ _ _ p n event x ends stuck stands told =>
    have placed : p ≤ k := stands.revision ▸ within
    rcases ends with ⟨rfl, rfl⟩ | ⟨rfl, rfl⟩
    · exact .inl (by omega)
    · obtain ⟨same, rfl, rfl⟩ := (stuck.stopsAfter stands.reflects).unique stops
      rw [stands.revision] at same
      subst same
      have replica : w.replica = ⟨⟨w.replica.store.graph, []⟩, p⟩ := by
        rw [← stands.closed, ← stands.revision]
      exact .inr ⟨rfl, ⟨rfl, told, stands.there, replica, stands.announced, stands.locked⟩⟩

/-- Under a lockdown whoever starts is done at once. -/
private theorem run_locked (s : Subscription) (turns : List Turn)
    (idle : c.phase = .ready ∨ c.phase = .finished (.ok ()))
    (locked : c.world.lockdown = true) :
    (c.run spec s turns).world.replica = c.world.replica ∧ (c.run spec s turns).journal = c.journal := by
  induction turns generalizing c with
  | nil => exact ⟨rfl, rfl⟩
  | cons t rest ih =>
    obtain ⟨phase, w, journal⟩ := c
    cases t with
    | other m => exact @ih ⟨phase, { w with log := w.log.step m }, journal⟩ idle locked
    | own =>
      have kept : Consumption.step spec s ⟨phase, w, journal⟩ .own = ⟨.finished (.ok ()), w, journal⟩ := by
        rcases idle with rfl | rfl
        · have made : Consuming.step spec s .ready w = some (.finished (.ok ()), w) := by
            rw [Consuming.step, show w.lockdown = true from locked]
            rfl
          rw [step, made]
          exact congrArg (Consumption.mk _ w) (List.append_nil journal)
        · rfl
      rw [run, List.foldl_cons, kept]
      exact @ih ⟨.finished (.ok ()), w, journal⟩ (.inr rfl) locked

/-- A subscriber rests at the end of the stream, or at the end of its way. -/
theorem Rests.cases (rests : Rests s c) (stage : At spec s n c) :
    (c.world.log.tail s.stream ≤ c.world.replica.revision ∧ 6 * c.world.replica.revision ≤ n) ∨
      n = 6 * c.world.replica.revision + 5 * spec.maxRedeliveries.toNat + 7 ∧
        ∃ x, StopsAfter (c.world.log.events s.stream) c.world.replica.revision c.world.replica.store.graph x := by
  obtain ⟨phase, w, journal⟩ := c
  unfold At at stage
  dsimp only at stage ⊢
  cases stage with
  | between looks stands =>
    rcases rests with same | ⟨_, short⟩
    · dsimp only at same
      subst same
      exact looks.elim
    · rw [stands.revision] at short ⊢
      exact .inl ⟨short, Nat.le_add_right_of_le (Nat.le_add_right _ _)⟩
  | resigned ends stuck stands =>
    rcases ends with ⟨rfl, rfl⟩ | ⟨rfl, rfl⟩
    · rcases rests with same | ⟨⟨_, same⟩, _⟩ <;> cases same
    · exact .inr ⟨by rw [stands.revision], _, stuck.stopsAfter stands.reflects⟩
  | holding holds => rcases rests with same | ⟨⟨_, same⟩, _⟩ <;> rcases holds with rfl | rfl <;> cases same
  | failing fails => rcases rests with same | ⟨⟨_, same⟩, _⟩ <;> rcases fails with ⟨_, rfl⟩ | ⟨_, rfl⟩ <;> cases same
  | acknowledging | announcing | parking => rcases rests with same | ⟨⟨_, same⟩, _⟩ <;> cases same

/-- So many steps take a subscriber to the end of its way, if there is one. -/
private theorem run_gaveUp {k : Nat} {g : Graph} {x : ReplayError} {turns : List Turn} (stage : At spec s n c)
    (stops : StopsAfter (c.world.log.events s.stream) k g x) (undisturbed : Undisturbed s turns)
    (enough : 6 * k + 5 * spec.maxRedeliveries.toNat + 7 ≤ turns.count .own) : (c.run spec s turns).GaveUp spec s k g x := by
  have far (m : Nat) (c' : Consumption) (known : c.world.log.events s.stream <+: c'.world.log.events s.stream)
      (stage' : At spec s m c') (rests : Rests s c') : 6 * k + 5 * spec.maxRedeliveries.toNat + 7 ≤ m := by
    have stops' := stops.mono known
    rcases rests.cases stage' with ⟨ended, _⟩ | ⟨same, x', stuck⟩
    · obtain ⟨_, _, _, _, stands⟩ := stage'.stands
      have within : c'.world.replica.revision ≤ k := stops'.le stands.reflects.replayed
      exact absurd (Nat.le_trans ended within) (Nat.not_le_of_lt stops'.within)
    · exact Nat.le_of_eq (by rw [same, (stuck.unique stops').1])
  obtain ⟨m, reached, _, least⟩ := run_at far stage (List.prefix_refl _) undisturbed
  rcases reached.gaveUp (stops.mono (run_grows c turns s.stream)) with less | ⟨_, ended⟩
  · omega
  · exact ended

/-- A subscriber about to start, with an empty replica. -/
def start (log : EventLog) : Consumption := { world := ⟨log, {}, { value := 0 }, false⟩ }

/-- Joining a group that was not there, it stands at the beginning. -/
theorem at_start {log : EventLog} (inPlace : ∀ stream, InPlace (log.events stream))
    (fresh : log.group? spec.stream spec.group = none) :
    ∃ s log', spec.subscribe.outcome log = (.ok s, log') ∧ s.stream = spec.stream ∧
      At spec s 0 (start log') := by
  have made : log.withGroup spec.stream spec.group = log.setGroup spec.stream spec.group {} := by
    rw [EventLog.withGroup, fresh]
  have there : (log.setGroup spec.stream spec.group {}).group? spec.stream spec.group = some {} :=
    (EventLog.group?_setGroup ..).trans (if_pos ⟨rfl, rfl⟩)
  refine ⟨⟨spec.stream, spec.group, log.generation⟩, log.setGroup spec.stream spec.group {}, ?_, rfl, ?_⟩
  · rw [SubscriberSpec.subscribe, outcome_bind, EventLog.ensureGroup_outcome, made]
    show (EventLog.subscribe spec.stream spec.group).outcome (log.setGroup spec.stream spec.group {}) = _
    rw [EventLog.subscribe, outcome_ofFunction, there]
    rfl
  · have stands : Following.Stands ⟨spec.stream, spec.group, log.generation⟩ ⟨0, 0, []⟩ 0 0 false
        ⟨log.setGroup spec.stream spec.group {}, {}, { value := 0 }, false⟩ :=
      ⟨inPlace, rfl, there, ⟨Nat.zero_le _, rfl⟩, rfl, rfl, rfl, rfl⟩
    have looks : Looks (log.setGroup spec.stream spec.group {}) spec.stream 0 .ready := trivial
    have stage : Stage spec ⟨spec.stream, spec.group, log.generation⟩ (6 * 0 + 5 * (0 : UInt32).toNat + offset .ready) .ready
        ⟨log.setGroup spec.stream spec.group {}, {}, { value := 0 }, false⟩ [] :=
      .between looks stands (tried_none spec spec.stream "" _) rfl
    exact stage

/-- An event that can not be repeated is delivered as often as it may be and then set aside, whatever the events before
it and behind it are, and whenever they are appended. -/
theorem given_up (history : List LogMove) (spec : SubscriberSpec)
    (fresh : (({} : EventLog).run history).group? spec.stream spec.group = none) :
    ∃ s log, spec.subscribe.outcome (({} : EventLog).run history) = (.ok s, log) ∧
      ∀ early late n g x, Undisturbed s (early ++ late) →
        StopsAfter (((start log).run spec s early).world.log.events s.stream) n g x →
        6 * n + 5 * spec.maxRedeliveries.toNat + 7 ≤ late.count .own →
        let last := (start log).run spec s (early ++ late)
        last.GaveUp spec s n g x ∧ ∀ s' more,
          let again : Consumption := { world := last.world }
          (again.run spec s' more).world.replica = last.world.replica ∧ (again.run spec s' more).journal = [] := by
  obtain ⟨s, log, joined, _, initial⟩ := at_start (EventLog.inPlace_history history) fresh
  refine ⟨s, log, joined, ?_⟩
  intro early late n g x undisturbed stops enough last
  obtain ⟨first, second⟩ := undisturbed_append undisturbed
  obtain ⟨m, stage⟩ := at_run initial first
  have ended : last.GaveUp spec s n g x := by
    rw [show last = _ from run_append ..]
    exact run_gaveUp stage stops second enough
  exact ⟨ended, fun s' more => run_locked s' more (.inl rfl) ended.locked⟩

/-- Two policy classes, and between them something that is no event. -/
def spoiled : List Record :=
  [Adjudication.record (.policyClassCreated ⟨1⟩ "a"), ⟨"", []⟩, Adjudication.record (.policyClassCreated ⟨2⟩ "b")]

theorem spoiled_stops : ∃ g, StopsAfter (EventLog.number "policy" 0 spoiled) 1 g (.decode .endOfInput) := by
  have first : (Graph.replayRecords ∅ ((EventLog.number "policy" 0 spoiled).take 1)).isOk = true := by
    decide +kernel
  cases replayed : Graph.replayRecords ∅ ((EventLog.number "policy" 0 spoiled).take 1) with
  | error x =>
    rw [replayed] at first
    cases first
  | ok g => exact ⟨g, replayed, _, rfl, rfl⟩

/-- The first is there when a subscriber joins, and the others come when it is about to apply that. -/
def spoiling : List Turn := [.own, .own, .own, .other (.append "policy" 1 (spoiled.drop 1))]

/-- What is no event is tried four times and set aside; the second class is never created. -/
theorem spoiled_given_up :
    ∃ s log g,
      System.usual.subscribe.outcome (({} : EventLog).run [.append "policy" 0 (spoiled.take 1)]) = (.ok s, log) ∧
        ((start log).run System.usual s (spoiling ++ List.replicate 28 .own)).GaveUp System.usual s 1 g
          (.decode .endOfInput) := by
  obtain ⟨s, log, joined, always⟩ := given_up [.append "policy" 0 (spoiled.take 1)] System.usual (by decide +kernel)
  have known : System.usual.subscribe.outcome (({} : EventLog).run [.append "policy" 0 (spoiled.take 1)]) =
      (.ok ⟨"policy", "policy-replica", 0⟩,
        (({} : EventLog).run [.append "policy" 0 (spoiled.take 1), .createGroup "policy" "policy-replica"])) := by
    decide +kernel
  obtain ⟨⟨⟩, rfl⟩ := Prod.mk.inj (joined.symm.trans known)
  have undisturbed : Undisturbed ⟨"policy", "policy-replica", 0⟩ (spoiling ++ List.replicate 28 .own) := by
    intro m among
    rcases List.mem_append.mp among with early | late
    · simp only [spoiling, List.mem_cons, reduceCtorEq, false_or, Turn.other.injEq, List.not_mem_nil, or_false] at early
      subst early
      exact ⟨nofun, rfl⟩
    · cases List.eq_of_mem_replicate late
  have events : ((start (({} : EventLog).run
      [.append "policy" 0 (spoiled.take 1), .createGroup "policy" "policy-replica"])).run System.usual
        ⟨"policy", "policy-replica", 0⟩ spoiling).world.log.events "policy" = EventLog.number "policy" 0 spoiled := by
    decide +kernel
  obtain ⟨g, stops⟩ := spoiled_stops
  rw [← events] at stops
  exact ⟨_, _, g, known, (always _ _ 1 g _ undisturbed stops (by decide)).1⟩

end Consumption
end PolicyLedger
