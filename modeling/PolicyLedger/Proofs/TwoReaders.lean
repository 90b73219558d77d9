import PolicyLedger.Proofs.GivingUp

/-!
Two ways to follow a stream: page by page, in one call or several, and delivery by delivery. Both take a
replica to the same place, the end of the stream or the event that can not be repeated.
-/
namespace PolicyLedger
open PolicyLedger.Action

/-- There is one place where a stream takes replicas: whoever is as far is there. -/
theorem Furthest.eq_of_reflects {events : List Recorded} {snapshots : List Graph} {answer : Except ReplayError Revision}
    {last r : Replica} (furthest : Furthest events snapshots answer last) (reflects : r.Reflects events)
    (closed : r.store.snapshots = snapshots) (far : last.revision ≤ r.revision) : r = last := by
  cases furthest with
  | whole replayed =>
    have ended := reflects.furthest far
    rw [closed] at ended
    exact (ended.unique (.whole replayed)).2
  | @upTo n g x stops =>
    obtain ⟨⟨graph, open'⟩, revision⟩ := r
    have within : revision ≤ n := stops.le reflects.replayed
    have same : revision = n := Nat.le_antisymm within far
    have graphs : Graph.replayRecords ∅ (events.take revision) = .ok graph := reflects.replayed
    subst same
    cases graphs.symm.trans stops.replayed
    rw [show open' = snapshots from closed]

namespace Consumption

variable {spec : SubscriberSpec} {s : Subscription} {n : Nat} {c : Consumption}

/-- Six steps take a subscriber across an event that can be repeated. -/
private theorem At.across {v : Nat} {g : Graph} (stage : At spec s n c)
    (replayed : Graph.replayRecords ∅ ((c.world.log.events s.stream).take v) = .ok g) (enough : 6 * v ≤ n) :
    v ≤ c.world.replica.revision := by
  obtain ⟨phase, w, journal⟩ := c
  unfold At at stage
  dsimp only at stage replayed ⊢
  have of_stuck {event : Recorded} {x : ReplayError} {p : Nat} {group : ConsumerGroup} {a : Revision} {locked : Bool}
      (stuck : w.replica.StuckAt (w.log.events s.stream) event x) (stands : w.Stands s group p a locked) :
      v ≤ w.replica.revision := (stuck.stopsAfter stands.reflects).le replayed
  -- A replica that is not stuck has had no step spent on trying again.
  have of_tried {p : Nat} {q : UInt32} {reason : String} (stands : w.Stands s ⟨p, q, []⟩ p p false)
      (tried : Tried spec s.stream q reason w) (near : 6 * v ≤ 6 * p + 5 * q.toNat + 5) : v ≤ w.replica.revision := by
    by_cases again : q = 0
    · subst again
      have least : v ≤ p := by
        rw [UInt32.toNat_zero] at near
        omega
      rwa [stands.revision]
    · obtain ⟨event, x, stuck, _⟩ := tried.2 again
      exact of_stuck stuck stands
  cases stage with
  | between looks stands tried =>
    have near := looks.offset_le
    exact of_tried stands tried (by omega)
  | holding holds found stands tried =>
    have near := offset_holding holds
    exact of_tried stands tried (by omega)
  | @acknowledging _ _ p _ found stands =>
    have least : v ≤ p + 1 := by omega
    rwa [stands.revision]
  | @announcing _ _ p stands =>
    have least : v ≤ p + 1 := by omega
    rwa [stands.revision]
  | failing fails stuck stands => exact of_stuck stuck stands
  | parking stuck stands => exact of_stuck stuck stands
  | resigned ends stuck stands => exact of_stuck stuck stands

/-- A subscriber that had six steps for each event of a stream is where the stream takes it. -/
private theorem run_furthest {turns : List Turn} {answer : Except ReplayError Revision} {last : Replica}
    (stage : At spec s n c) (undisturbed : Undisturbed s turns)
    (still : (c.run spec s turns).world.log.events s.stream = c.world.log.events s.stream)
    (enough : 6 * c.world.log.tail s.stream ≤ turns.count .own)
    (furthest : Furthest (c.world.log.events s.stream) [] answer last) :
    (c.run spec s turns).world.replica = last := by
  obtain ⟨v, reaches⟩ : ∃ v : Nat, last.revision = v := ⟨_, rfl⟩
  have replayed := furthest.reflects.replayed
  have short : v ≤ c.world.log.tail s.stream := reaches ▸ furthest.reflects.within
  rw [reaches] at replayed
  have far (m : Nat) (c' : Consumption) (known : c.world.log.events s.stream <+: c'.world.log.events s.stream)
      (stage' : At spec s m c') (rests : Rests s c') : 6 * v ≤ m := by
    have grown := furthest.reflects.mono known
    rcases rests.cases stage' with ⟨ended, long⟩ | ⟨rfl, x, stuck⟩
    · have within : v ≤ c'.world.replica.revision := Nat.le_trans (reaches ▸ grown.within) ended
      exact Nat.le_trans (Nat.mul_le_mul_left 6 within) long
    · have within : v ≤ c'.world.replica.revision := reaches ▸ stuck.le grown.replayed
      exact Nat.le_add_right_of_le (Nat.le_add_right_of_le (Nat.mul_le_mul_left 6 within))
  obtain ⟨m, reached, _, least⟩ := run_at far stage (List.prefix_refl _) undisturbed
  obtain ⟨_, _, _, _, stands⟩ := reached.stands
  have reflects := stands.reflects
  rw [still] at reflects
  rw [← still] at replayed
  have counted : 6 * v ≤ turns.count .own := Nat.le_trans (Nat.mul_le_mul_left 6 short) enough
  have across := reached.across replayed (by omega)
  exact furthest.eq_of_reflects reflects stands.closed (reaches ▸ across)

end Consumption

namespace Replica
open Consumption (spoiled)

/-- A replica catches up with a stream as far as that can be repeated, whatever came about before. Whether it does so
in one call or in several, others using the log between them, makes no difference; and if it starts with nothing, it is
the replica that a subscriber has which starts with nothing, once it had its turns. -/
theorem readers_agree (history : List LogMove) (stream : String) :
    let log := ({} : EventLog).run history
    (∀ r pages, r.Reflects (log.events stream) → pagesFor (log.tail stream - r.revision) ≤ pages →
      ∃ answer last, Furthest (log.events stream) r.store.snapshots answer last ∧
        (catchUp stream pages).outcome (log, r) = (answer.map some, log, last)) ∧
    (∀ r pages rounds, r.Reflects (log.events stream) → pagesFor ((log.run rounds.flatten).tail stream) ≤ pages →
      (catchUp stream pages).outcome (catchUpInTurns stream rounds (log, r)) =
        (catchUp stream pages).outcome (log.run rounds.flatten, r)) ∧
    ∀ spec, spec.stream = stream → log.group? stream spec.group = none →
      ∃ s begun, spec.subscribe.outcome log = (.ok s, begun) ∧
        ∀ early late pages, Consumption.Undisturbed s (early ++ late) →
          let before := (Consumption.start begun).run spec s early
          let after := (Consumption.start begun).run spec s (early ++ late)
          after.world.log.events stream = before.world.log.events stream →
          6 * before.world.log.tail stream ≤ late.count .own →
          pagesFor (before.world.log.tail stream) ≤ pages →
          ((catchUp stream pages).outcome (after.world.log, {})).2.2 = after.world.replica := by
  refine ⟨?_, ?_, ?_⟩
  · exact fun r pages reflects enough => catchUp_furthest (EventLog.inPlace_history history stream) reflects enough
  · exact fun r pages rounds reflects enough =>
      catchUp_inTurns rounds (EventLog.inPlace_history history stream) reflects enough
  · rintro spec rfl fresh
    obtain ⟨s, begun, joined, same, initial⟩ := Consumption.at_start (EventLog.inPlace_history history) fresh
    refine ⟨s, begun, joined, ?_⟩
    intro early late pages undisturbed before after still enough read
    obtain ⟨first, second⟩ := Consumption.undisturbed_append undisturbed
    obtain ⟨m, stage⟩ := Consumption.at_run initial first
    obtain ⟨_, _, _, _, stands⟩ := stage.stands
    have nothing : Reflects (after.world.log.events spec.stream) {} := ⟨Nat.zero_le _, rfl⟩
    have placed : InPlace (after.world.log.events spec.stream) := still ▸ stands.inPlace _
    obtain ⟨answer, last, furthest, done⟩ := catchUp_furthest placed nothing
      (show pagesFor (after.world.log.tail spec.stream - 0) ≤ pages by rwa [EventLog.tail, still])
    rw [done]
    rw [still, ← same] at furthest
    have split : after = before.run spec s late := Consumption.run_append ..
    rw [split]
    rw [split, ← same] at still
    exact (Consumption.run_furthest stage second still (same ▸ enough) furthest).symm

/-- A replica gets as far as the first of three events, whether it reads them all at once, or the first when there are
no others yet, or has them delivered. -/
theorem spoiled_readers_agree :
    let appends : List LogMove := [.append "policy" 0 (spoiled.take 1), .append "policy" 1 (spoiled.drop 1)]
    let log := ({} : EventLog).run appends
    (∃ g, (catchUp "policy" 2).outcome (log, {}) = (.error (.decode .endOfInput), log, ⟨⟨g, []⟩, 1⟩)) ∧
      (catchUp "policy" 2).outcome (catchUpInTurns "policy" [[], appends.take 1, appends.drop 1] ({}, {})) =
        (catchUp "policy" 2).outcome (log, {}) ∧
      ∃ s begun, System.usual.subscribe.outcome log = (.ok s, begun) ∧
        let after := (Consumption.start begun).run System.usual s (List.replicate 18 .own)
        ((catchUp "policy" 2).outcome (after.world.log, {})).2.2 = after.world.replica := by
  intro appends log
  obtain ⟨whole, _, delivered⟩ := readers_agree appends "policy"
  have events : log.events "policy" = EventLog.number "policy" 0 spoiled := by decide +kernel
  refine ⟨?_, ?_, ?_⟩
  · obtain ⟨answer, last, furthest, done⟩ := whole {} 2 ⟨Nat.zero_le _, rfl⟩ (by decide +kernel)
    obtain ⟨g, stops⟩ := Consumption.spoiled_stops
    rw [← events] at stops
    obtain ⟨rfl, rfl⟩ := furthest.unique (.upTo stops)
    exact ⟨g, done⟩
  · exact (readers_agree [] "policy").2.1 {} 2 _ ⟨Nat.zero_le _, rfl⟩ (by decide +kernel)
  · obtain ⟨s, begun, joined, same⟩ := delivered System.usual rfl (by decide +kernel)
    have known : System.usual.subscribe.outcome log =
        (.ok ⟨"policy", "policy-replica", 0⟩, log.run [.createGroup "policy" "policy-replica"]) := by
      decide +kernel
    obtain ⟨⟨⟩, rfl⟩ := Prod.mk.inj (joined.symm.trans known)
    refine ⟨_, _, known, same [] (List.replicate 18 .own) 2 ?_ ?_ ?_ ?_⟩
    · intro m among
      cases List.eq_of_mem_replicate among
    · decide +kernel
    · decide +kernel
    · decide +kernel

end Replica
end PolicyLedger
