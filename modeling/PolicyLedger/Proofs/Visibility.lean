import PolicyLedger.Proofs.ExactlyOnce
import PolicyLedger.Proofs.Requests
import PolicyLedger.Proofs.SingleWrite
import PolicyLedger.Proofs.Waiting

/-!
Acknowledged writes are seen. What a replica is said to have applied is announced only after it was applied
and acknowledged, so it is never more than what was applied. A request that waited for its own events therefore
is answered on a replica that has them; and if it waited too long, it is answered all the same.
-/
namespace PolicyLedger

/-! ### What is announced -/

namespace Subscribing

/-- A subscriber that announces no more than its replica has applied. -/
def Announces (revision : Revision) : Subscribing → Prop
  | consuming _ (.acknowledging d) => d.revision ≤ revision
  | consuming _ (.announcing announced) => announced ≤ revision
  | _ => True

private theorem Announces.mono {revision revision' : Revision} {phase : Subscribing}
    (announces : phase.Announces revision)
    (onward : revision ≤ revision') : phase.Announces revision' := by
  unfold Announces at announces ⊢
  split
  · exact Nat.le_trans announces onward
  · exact Nat.le_trans announces onward
  · trivial

end Subscribing

namespace SubscriberTask

variable {spec : SubscriberSpec} {before after : Subscribing} {w w' : Following EventLog}

/-- A step announces nothing, or what a subscriber was about to announce. -/
private theorem Stepped.current (stepped : Stepped spec w before after w') : w'.current = w.current ∨
    ∃ s revision, before = .consuming s (.announcing revision) ∧ w'.current = w.current.set revision := by
  cases stepped with
  | idle | create | join => exact .inl rfl
  | consume inner =>
    cases inner with
    | announce revision => exact .inr ⟨_, revision, rfl, rfl⟩
    | _ => exact .inl rfl

/-- An event is about to be announced once it is applied. -/
private theorem Stepped.announces (stepped : Stepped spec w before after w')
    (announces : before.Announces w.replica.revision) : after.Announces w'.replica.revision := by
  cases stepped with
  | idle free | create free =>
    unfold Subscribing.Announces
    split
    · exact absurd rfl (free _ _)
    · exact absurd rfl (free _ _)
    · trivial
  | join => trivial
  | consume inner =>
    cases inner with
    | look | lookAgain =>
      cases w.lockdown <;> trivial
    | ask =>
      rename_i s c asks
      unfold Consuming.afterPoll
      split <;> trivial
    | apply d done =>
      have applied := (Consuming.applyDelivery_revision d w.replica).2
      rw [done] at applied
      exact applied rfl
    | fail d failed => split <;> trivial
    | acknowledge d after answered =>
      rcases after with rfl | ⟨r, rfl⟩
      · exact announces
      · trivial
    | announce revision => trivial
    | lockDown d e => trivial
    | reject d e rejection after answered => rcases after with rfl | ⟨r, rfl⟩ <;> trivial

end SubscriberTask

namespace Watched

private theorem le_set (w : Watched Revision) (revision : Revision) : w.value ≤ (w.set revision).value := by
  unfold set
  split
  · exact Nat.le_max_left _ _
  · exact Nat.le_refl _

private theorem set_le {w : Watched Revision} {revision bound : Revision} (below : w.value ≤ bound)
    (announced : revision ≤ bound) : (w.set revision).value ≤ bound := by
  unfold set
  split
  · exact Nat.max_le.mpr ⟨below, announced⟩
  · exact below

/-- To set a revision wakes those who wait, or not. -/
private theorem wakes_set (w : Watched Revision) (revision : Revision) :
    (w.set revision).wakes = w.wakes ∨ (w.set revision).wakes = w.wakes + 1 := by
  unfold set
  split
  · exact .inr rfl
  · exact .inl rfl

end Watched

/-- Requests announce nothing. -/
private theorem Adjudication.Stepped.current {α : Type} {spec : AdjudicationSpec α} {a b : Adjudication α}
    {w w' : Adjudicating EventLog} (stepped : Stepped spec a w b w') : w'.current = w.current := by
  cases stepped with
  | idle _ _ _ _ _ current => exact current
  | attempt | append | conflict => rfl

namespace System

variable {s t : System}

/-- A move that announces a revision of a replica: a subscriber makes the step it was about to make. -/
inductive Announces (s : System) (j : Nat) (revision : Revision) : Move → Prop
  | consume {i now : Nat} {jitter : Duration} {f : Follower} {subscription : Subscription} (member : f ∈ s.followers)
      (replica : f.replica = j) (phase : f.task.phase = .consuming subscription (.announcing revision)) :
      Announces s j revision (.consume i now jitter)

/-- What is said to be applied changes only where a subscriber announces it. -/
private theorem step_current (s : System) (m : Move) (j : Nat) : (s.step m).currents j = s.currents j ∨
    ∃ revision, s.Announces j revision m ∧ (s.step m).currents j = (s.currents j).set revision := by
  cases m with
  | proceed i now =>
    left
    simp only [step]
    cases proceeds : s.proceed? i now with
    | none => rfl
    | some t =>
      obtain ⟨c, state, w, _, stepped, rfl⟩ := proceed?_eq_some.mp proceeds
      have same := (Adjudication.step_cases stepped).current
      show Function.update s.currents c.replica w.current j = s.currents j
      rw [same]
      exact congrFun (Function.update_eq_self ..) j
  | consume i now jitter =>
    simp only [step]
    cases consumes : s.consume? i now jitter with
    | none => exact .inl rfl
    | some t =>
      obtain ⟨f, task, w, there, stepped, rfl⟩ := consume?_eq_some.mp consumes
      show Function.update s.currents f.replica w.current j = s.currents j ∨
        ∃ revision, _ ∧ Function.update s.currents f.replica w.current j = (s.currents j).set revision
      by_cases own : f.replica = j
      · subst own
        simp only [Function.update_self]
        rcases (SubscriberTask.step_cases stepped).current with same | ⟨_, revision, phase, set⟩
        · exact .inl same
        · exact .inr ⟨revision, .consume (List.mem_of_getElem? there) rfl phase, set⟩
      · rw [Function.update_of_ne (Ne.symm own)]
        exact .inl rfl
  | _ => exact .inl rfl

private theorem currents_proceed (s : System) (i now j : Nat) :
    (s.step (.proceed i now)).currents j = s.currents j := by
  rcases step_current s (.proceed i now) j with same | ⟨_, announces, _⟩
  · exact same
  · cases announces

private theorem step_announced (s : System) (m : Move) (j : Nat) :
    (s.currents j).value ≤ ((s.step m).currents j).value := by
  rcases step_current s m j with same | ⟨_, revision, set⟩
  · rewrite [same]
    exact Nat.le_refl _
  · rw [set]
    exact Watched.le_set _ _

private theorem run_announced (s : System) (moves : List Move) (j : Nat) :
    (s.currents j).value ≤ ((s.run moves).currents j).value := by
  induction moves generalizing s with
  | nil => exact Nat.le_refl _
  | cons m rest ih => exact Nat.le_trans (step_announced s m j) (ih (s.step m))

private theorem run_revision (s : System) (moves : List Move) (j : Nat) :
    (s.replicas j).revision ≤ ((s.run moves).replicas j).revision := by
  induction moves generalizing s with
  | nil => exact Nat.le_refl _
  | cons m rest ih => exact Nat.le_trans (step_revision s m j) (ih (s.step m))

/-- No more is announced of a replica than it has applied, nor is about to be. -/
structure Announced (s : System) : Prop where
  current : ∀ j, (s.currents j).value ≤ (s.replicas j).revision
  followers : ∀ f ∈ s.followers, f.task.phase.Announces (s.replicas f.replica).revision

private theorem announced_start : ({} : System).Announced where
  current _ := Nat.le_refl _
  followers _ member := absurd member List.not_mem_nil

private theorem Announced.step (announced : s.Announced) (m : Move) : (s.step m).Announced := by
  -- Whoever was there before announces no more than before, and replicas only move on.
  have kept {f : Follower} (member : f ∈ s.followers) :
      f.task.phase.Announces ((s.step m).replicas f.replica).revision :=
    (announced.followers f member).mono (step_revision s m f.replica)
  constructor
  · intro j
    have below : (s.currents j).value ≤ ((s.step m).replicas j).revision :=
      Nat.le_trans (announced.current j) (step_revision s m j)
    rcases step_current s m j with same | ⟨revision, ⟨member, rfl, phase⟩, set⟩
    · rwa [same]
    · rw [set]
      have due := kept member
      rw [phase] at due
      exact Watched.set_le below due
  · intro f member
    cases m with
    | call | append | cancel => exact kept member
    | follow replica lockdown spec =>
      rcases List.mem_append.mp member with old | new
      · exact kept old
      · cases List.mem_singleton.mp new
        trivial
    | proceed i now =>
      refine kept ?_
      revert member
      simp only [System.step]
      cases proceeds : s.proceed? i now with
      | none => exact id
      | some t =>
        obtain ⟨c, state, w, _, _, rfl⟩ := proceed?_eq_some.mp proceeds
        exact id
    | consume i now jitter =>
      cases consumes : s.consume? i now jitter with
      | none =>
        have still : s.step (.consume i now jitter) = s := by simp only [System.step, consumes]; rfl
        rw [still] at member
        exact kept member
      | some t =>
        have moved : s.step (.consume i now jitter) = t := by simp only [System.step, consumes]; rfl
        obtain ⟨g, task, w, there, stepped, made⟩ := consume?_eq_some.mp consumes
        rw [moved, made] at member
        rcases List.mem_or_eq_of_mem_set member with old | rfl
        · exact kept old
        · have replica : (s.step (.consume i now jitter)).replicas g.replica = w.replica := by
            rw [moved, made]
            exact Function.update_self ..
          show task.phase.Announces ((s.step (.consume i now jitter)).replicas g.replica).revision
          rw [replica]
          exact (SubscriberTask.step_cases stepped).announces (announced.followers g (List.mem_of_getElem? there))

theorem announced_run (moves : List Move) : (({} : System).run moves).Announced := by
  induction moves using List.reverseRecOn with
  | nil => exact announced_start
  | append_singleton moves m ih =>
    rw [run_snoc]
    exact ih.step m

/-! ### One request among all moves -/

/-- What a move does to a request: it is another's move, or its own one, which may find nothing to do. -/
inductive Goes (s : System) (i : Nat) (c : Call) (a : Adjudication c.Value) : Move → Adjudication c.Value → Prop
  | other {m : Move} (other : ∀ now, m ≠ .proceed i now) : Goes s i c a m a
  | still {now : Nat} (idle : a.step c.spec now (s.adjudicating c) = none) : Goes s i c a (.proceed i now) a
  | own {now : Nat} {b : Adjudication c.Value} {w : Adjudicating EventLog}
      (stepped : a.step c.spec now (s.adjudicating c) = some (b, w)) : Goes s i c a (.proceed i now) b

private theorem goes_step {i : Nat} {c : Call} {a : Adjudication c.Value}
    (there : s.calls[i]? = some { c with state := a })
    (m : Move) : ∃ b, (s.step m).calls[i]? = some { c with state := b } ∧ s.Goes i c a m b := by
  have within := (List.getElem?_eq_some_iff.mp there).1
  cases m with
  | call Value replica adjudicator spec =>
    exact ⟨a, (List.getElem?_append_left within).trans there, .other fun _ => nofun⟩
  | follow | append | cancel => exact ⟨a, there, .other fun _ => nofun⟩
  | consume j now jitter =>
    refine ⟨a, ?_, .other fun _ => nofun⟩
    rw [calls_consume]
    exact there
  | proceed j now =>
    by_cases own : j = i
    · subst own
      cases stepped : a.step c.spec now (s.adjudicating c) with
      | none =>
        have still : s.step (.proceed j now) = s := by
          simp only [step, proceed?, there, Option.bind_some]
          rw [show s.adjudicating { c with state := a } = s.adjudicating c from rfl, stepped]
          rfl
        rw [still]
        exact ⟨a, there, .still stepped⟩
      | some result =>
        obtain ⟨b, w⟩ := result
        refine ⟨b, ?_, .own stepped⟩
        have proceeds : s.proceed? j now = some (s.adjudicated j { c with state := b } w) :=
          proceed?_eq_some.mpr ⟨{ c with state := a }, b, w, there, stepped, rfl⟩
        simp only [step, proceeds]
        exact List.getElem?_set_self within
    · refine ⟨a, ?_, .other ?_⟩
      · simp only [step]
        cases proceeds : s.proceed? j now with
        | none => exact there
        | some t =>
          obtain ⟨_, _, _, _, _, rfl⟩ := proceed?_eq_some.mp proceeds
          exact (List.getElem?_set_ne own).trans there
      · intro now' same
        cases same
        exact own rfl

end System

namespace Adjudication

variable {α : Type} {spec : AdjudicationSpec α} {done : Adjudicated α} {now due : Nat} {a b : Adjudication α}
  {w w' : Adjudicating EventLog}

/-! ### Waiting for what was appended -/

/-- Once it is settled what will be answered, it stays so. -/
private theorem Stepped.settled {result : Except AdjudicationError (Adjudicated α)} (stepped : Stepped spec a w b w')
    (settled : a.stage = .settled result) : b.stage = .settled result := by
  cases stepped with
  | idle _ stage => exact stage.trans settled
  | attempt phase =>
    simp only [stage, phase] at settled
    cases settled
  | append holding | conflict holding => cases settled.symm.trans holding

/-- Where a request is that has appended, and its wait does not end before some time. It is answered once
the revision it led to is announced. -/
def AwaitsApplied (done : Adjudicated α) (due : Nat) (current : Revision) : AdjudicationPhase α → Prop
  | .noting noted => noted = done
  | .awaitingApplied awaited waiter => awaited = done ∧ due ≤ waiter.deadline ∧
      (waiter.result?.isSome → done.revision ≤ current)
  | .finished result => result = .ok done ∧ done.revision ≤ current
  | _ => False

private theorem AwaitsApplied.mono {current current' : Revision} {phase : AdjudicationPhase α}
    (awaits : AwaitsApplied done due current phase) (onward : current ≤ current') :
    AwaitsApplied done due current' phase := by
  cases phase with
  | noting noted => exact awaits
  | awaitingApplied awaited waiter =>
    exact ⟨awaits.1, awaits.2.1, fun answered => Nat.le_trans (awaits.2.2 answered) onward⟩
  | finished result => exact ⟨awaits.1, Nat.le_trans awaits.2 onward⟩
  | _ => exact awaits.elim

private theorem AwaitsApplied.step (awaits : AwaitsApplied done due w.current.value a.phase)
    (stepped : a.step spec now w = some (b, w')) (begun : due ≤ now + spec.config.applyTimeout.ticks)
    (early : now < due) : AwaitsApplied done due w.current.value b.phase := by
  obtain ⟨attempts, phase⟩ := a
  cases phase with
  | noting noted =>
    cases stepped
    exact ⟨awaits, begun, nofun⟩
  | awaitingApplied awaited waiter =>
    obtain ⟨rfl, late, reached⟩ := awaits
    simp only [Adjudication.step] at stepped
    split at stepped
    · rename_i answered
      cases stepped
      exact ⟨rfl, reached (by rw [answered]; rfl)⟩
    · obtain ⟨next, waited, made⟩ := Option.map_eq_some_iff.mp stepped
      cases made
      refine ⟨rfl, (Waiter.step_deadline waited).symm ▸ late, ?_⟩
      intro answered
      obtain ⟨answer, result⟩ := Option.isSome_iff_exists.mp answered
      obtain ⟨told, overdue⟩ := Waiter.step_result waited result
      cases answer with
      | some _ => exact reached_eq_some.mp told.symm
      | none => exact absurd (Nat.le_trans late (overdue rfl)) (Nat.not_le.mpr early)
  | finished result => cases stepped
  | _ => exact awaits.elim

/-- Where a request is that will be answered in at most so many steps of its own after some time, if nobody
is woken any more. -/
def Ends (done : Adjudicated α) (due wakes steps : Nat) : AdjudicationPhase α → Prop
  | .awaitingApplied awaited waiter =>
    awaited = done ∧ waiter.deadline ≤ due ∧ waiter.stepsLeft wakes + 1 ≤ steps
  | .finished result => result = .ok done
  | _ => False

/-- A step before that time does no harm. -/
private theorem Ends.step {steps : Nat} (ends : Ends done due w.current.wakes steps a.phase)
    (stepped : a.step spec now w = some (b, w')) : Ends done due w.current.wakes (steps - 1) b.phase := by
  obtain ⟨attempts, phase⟩ := a
  cases phase with
  | awaitingApplied awaited waiter =>
    obtain ⟨rfl, late, few⟩ := ends
    simp only [Adjudication.step] at stepped
    split at stepped
    · cases stepped
      exact rfl
    · obtain ⟨next, waited, made⟩ := Option.map_eq_some_iff.mp stepped
      cases made
      have fewer := Waiter.stepsLeft_lt waited
      exact ⟨rfl, (Waiter.step_deadline waited).symm ▸ late, by omega⟩
  | finished result => cases stepped
  | _ => exact ends.elim

/-- From that time on there is a step to make until the request is answered. -/
private theorem Ends.exists_step {wakes steps : Nat} (ends : Ends done due wakes steps a.phase) (late : due ≤ now)
    (w : Adjudicating EventLog) :
    a.result? = some (.ok done) ∨ ∃ b w', a.step spec now w = some (b, w') := by
  obtain ⟨attempts, phase⟩ := a
  cases phase with
  | awaitingApplied awaited waiter =>
    right
    obtain ⟨rfl, early, _⟩ := ends
    cases answered : waiter.result? with
    | some answer => exact ⟨_, _, by simp only [Adjudication.step, answered]; rfl⟩
    | none =>
      obtain ⟨next, waited⟩ :=
        Waiter.exists_step (reached awaited.revision) w.current (Nat.le_trans early late) answered
      exact ⟨_, _, by simp only [Adjudication.step, answered, waited]; rfl⟩
  | finished result =>
    left
    cases ends
    rfl
  | _ => exact ends.elim

private theorem Ends.wake {wakes steps : Nat} {phase : AdjudicationPhase α} (ends : Ends done due wakes steps phase) :
    Ends done due (wakes + 1) (steps + 3) phase := by
  cases phase with
  | awaitingApplied awaited waiter =>
    have more := waiter.stepsLeft_wake wakes
    exact ⟨ends.1, ends.2.1, Nat.le_trans (Nat.add_le_add_right more 1) (Nat.add_le_add_right ends.2.2 3)⟩
  | finished result => exact ends
  | _ => exact ends.elim

private theorem Ends.pos {wakes steps : Nat} (ends : Ends done due wakes steps a.phase)
    (waiting : a.result? ≠ some (.ok done)) : 0 < steps := by
  obtain ⟨attempts, phase⟩ := a
  cases phase with
  | awaitingApplied awaited waiter => exact Nat.lt_of_lt_of_le (Nat.succ_pos _) ends.2.2
  | finished result => exact absurd (by rw [show result = .ok done from ends]; rfl) waiting
  | _ => exact ends.elim

end Adjudication

/-- Whether a move is a step of a subscriber. -/
def Move.isConsume : Move → Bool
  | .consume .. => true
  | _ => false

/-- Whether a move is a step of this request at some time or later. -/
def Move.proceedsFrom (i due : Nat) : Move → Bool
  | .proceed j now => j = i && due ≤ now
  | _ => false

namespace System
open Adjudication

section Run

variable {s : System} {i due : Nat} {c : Call} {a : Adjudication c.Value} {done : Adjudicated c.Value}

theorem settled_run {result : Except AdjudicationError (Adjudicated c.Value)}
    (there : s.calls[i]? = some { c with state := a }) (settled : a.stage = .settled result) (moves : List Move) :
    ∃ b, (s.run moves).calls[i]? = some { c with state := b } ∧ b.stage = .settled result := by
  induction moves generalizing s a with
  | nil => exact ⟨a, there, settled⟩
  | cons m rest ih =>
    obtain ⟨b, after, goes⟩ := goes_step there m
    refine ih after ?_
    cases goes with
    | other | still => exact settled
    | own stepped => exact (Adjudication.step_cases stepped).settled settled

/-- A request whose wait does not end in the course of some moves has only been answered if its events were
announced. -/
theorem awaits_run {moves : List Move} (there : s.calls[i]? = some { c with state := a })
    (awaits : AwaitsApplied done due (s.currents c.replica).value a.phase)
    (soon : ∀ now, .proceed i now ∈ moves → due ≤ now + c.spec.config.applyTimeout.ticks ∧ now < due) :
    ∃ b, (s.run moves).calls[i]? = some { c with state := b } ∧
      AwaitsApplied done due ((s.run moves).currents c.replica).value b.phase := by
  induction moves generalizing s a with
  | nil => exact ⟨a, there, awaits⟩
  | cons m rest ih =>
    obtain ⟨b, after, goes⟩ := goes_step there m
    refine ih after ?_ fun now member => soon now (.tail _ member)
    have onward := step_announced s m c.replica
    cases goes with
    | other | still => exact awaits.mono onward
    | own stepped =>
      obtain ⟨begun, early⟩ := soon _ (.head _)
      exact (awaits.step (w := s.adjudicating c) stepped begun early).mono onward

theorem answered_run {result : Except AdjudicationError (Adjudicated c.Value)}
    (there : s.calls[i]? = some { c with state := a }) (answered : a.result? = some result) (moves : List Move) :
    ∃ b, (s.run moves).calls[i]? = some { c with state := b } ∧ b.result? = some result := by
  induction moves generalizing s a with
  | nil => exact ⟨a, there, answered⟩
  | cons m rest ih =>
    obtain ⟨b, after, goes⟩ := goes_step there m
    refine ih after ?_
    cases goes with
    | other | still => exact answered
    | own stepped =>
      obtain ⟨attempts, phase⟩ := a
      cases phase <;> cases answered
      cases stepped

/-- What a move does to the number of steps that are left to a request: a late step of its own takes one
away, and a step of a subscriber adds at most three. -/
private theorem ends_step {steps : Nat} (there : s.calls[i]? = some { c with state := a })
    (ends : Ends done due (s.currents c.replica).wakes steps a.phase) (waiting : a.result? ≠ some (.ok done))
    (m : Move) :
    ∃ b left, (s.step m).calls[i]? = some { c with state := b } ∧
      Ends done due ((s.step m).currents c.replica).wakes left b.phase ∧
      left + (if m.proceedsFrom i due then 1 else 0) ≤ steps + if m.isConsume then 3 else 0 := by
  obtain ⟨b, after, goes⟩ := goes_step there m
  cases goes with
  | other other =>
    -- Others touch nothing of it but the wakes, and of these one per step.
    have foreign : m.proceedsFrom i due = false := by
      cases m with
      | proceed j now =>
        have differs : j ≠ i := fun same => other now (by rw [same])
        simp [Move.proceedsFrom, differs]
      | _ => rfl
    rw [foreign]
    rcases step_current s m c.replica with same | ⟨revision, ⟨_, _, _⟩, set⟩
    · exact ⟨a, steps, after, same.symm ▸ ends, Nat.le_add_right _ _⟩
    · rcases Watched.wakes_set (s.currents c.replica) revision with still | woken
      · exact ⟨a, steps, after, by rw [set, still]; exact ends, Nat.le_add_right _ _⟩
      · exact ⟨a, steps + 3, after, by rw [set, woken]; exact ends.wake, Nat.le_refl _⟩
  | still idle =>
    rename_i now
    refine ⟨a, steps, after, by rw [currents_proceed]; exact ends, ?_⟩
    by_cases late : due ≤ now
    · rcases ends.exists_step late (s.adjudicating c) with answered | ⟨_, _, stepped⟩
      · exact absurd answered waiting
      · cases idle.symm.trans stepped
    · simp [Move.proceedsFrom, late]
  | own stepped =>
    have positive := ends.pos waiting
    refine ⟨b, steps - 1, after, ?_, ?_⟩
    · rw [currents_proceed]
      exact ends.step (w := s.adjudicating c) stepped
    · split <;> omega

/-- From that time on, a request is answered after so many steps of its own. -/
theorem ends_run {steps : Nat} {moves : List Move} (there : s.calls[i]? = some { c with state := a })
    (ends : Ends done due (s.currents c.replica).wakes steps a.phase)
    (enough : steps + 3 * moves.countP Move.isConsume ≤ moves.countP (Move.proceedsFrom i due)) :
    ∃ b, (s.run moves).calls[i]? = some { c with state := b } ∧ b.result? = some (.ok done) := by
  induction moves generalizing s a steps with
  | nil =>
    refine ⟨a, there, Classical.byContradiction fun waiting => ?_⟩
    have positive := ends.pos waiting
    simp at enough
    omega
  | cons m rest ih =>
    by_cases answered : a.result? = some (.ok done)
    · exact answered_run there answered (m :: rest)
    obtain ⟨b, left, after, ends', fewer⟩ := ends_step there ends answered m
    refine ih after ends' ?_
    rw [List.countP_cons, List.countP_cons] at enough
    cases consumes : m.isConsume <;> cases late : m.proceedsFrom i due <;>
      simp only [consumes, late, if_true, Bool.false_eq_true, if_false] at fewer enough <;> omega

end Run

/-- A history without an attempt on a replica below some revision. Before a request is made there is none. -/
def Tries (j : Nat) (v : Revision) (h : CallHistory) : Option Call → Prop
  | none => h = {}
  | some c => c.replica = j → ∀ attempt ∈ h.attempts, v ≤ attempt.1

/-- An attempt is made where the replica is. -/
private theorem tries_extend {v : Revision} {h : CallHistory} {c : Call} {w : Adjudicating EventLog}
    (applied : v ≤ w.replica.revision) (tries : ∀ attempt ∈ h.attempts, v ≤ attempt.1) (log : EventLog) :
    ∀ attempt ∈ (h.extend c.spec c.state w log).attempts, v ≤ attempt.1 := by
  intro attempt member
  unfold CallHistory.extend at member
  dsimp only at member
  split at member
  · rcases List.mem_append.mp member with old | new
    · exact tries attempt old
    · cases List.mem_singleton.mp new
      exact applied
  · exact tries attempt member

private theorem tries_observe {s : System} {j k : Nat} {v : Revision} {h : CallHistory}
    (applied : v ≤ (s.replicas j).revision)
    (tries : Tries j v h s.calls[k]?) (m : Move) : Tries j v (s.observe k h m) (s.step m).calls[k]? := by
  cases there : s.calls[k]? with
  | none =>
    rw [there] at tries
    have same : s.observe k h m = {} := by
      cases m <;> simp only [observe, there] <;> exact tries
    rw [same]
    cases (s.step m).calls[k]? with
    | none => exact rfl
    | some c => exact fun _ attempt member => absurd member List.not_mem_nil
  | some c =>
    rw [there] at tries
    obtain ⟨b, after, _⟩ := goes_step (a := c.state) there m
    rw [after]
    rintro rfl
    have old := tries rfl
    cases m with
    | proceed i now =>
      simp only [observe, there]
      split
      · exact tries_extend applied old _
      · exact old
    | _ => exact old

/-- Attempts that are still to be made on a replica are made no earlier than where it is now. -/
theorem tries_run {s : System} {j k : Nat} {v : Revision} (applied : v ≤ (s.replicas j).revision)
    (moves : List Move) : Tries j v (s.history k moves) (s.run moves).calls[k]? := by
  induction moves using List.reverseRecOn with
  | nil =>
    rw [run_nil]
    cases s.calls[k]? with
    | none => exact rfl
    | some c => exact fun _ attempt member => absurd member List.not_mem_nil
  | append_singleton moves m ih =>
    rw [history_snoc, run_snoc]
    exact tries_observe (Nat.le_trans applied (run_revision s moves j)) ih m

/-- What a replica shows after some more moves: it is said to have applied all events up to a revision, it has
applied them, and no attempt was made on it since then that did not know of them. -/
structure Shows (s : System) (j : Nat) (v : Revision) (more : List Move) : Prop where
  announced : v ≤ ((s.run more).currents j).value
  applied : v ≤ ((s.run more).replicas j).revision
  attempts : ∀ k c, (s.run more).calls[k]? = some c → c.replica = j → ∀ attempt ∈ (s.history k more).attempts, v ≤ attempt.1

section Acknowledged

variable {s : System} {i : Nat} {c : Call} {value : c.Value} {events : List Event} {expected v : Revision} {log : EventLog}

private theorem append_step (there : s.calls[i]? = some c) (holding : c.state.phase = .appending value events expected)
    (accepted : (EventLog.append c.spec.stream expected (events.map record)).outcome s.log = (.ok v, log))
    (now : Nat) : (s.step (.proceed i now)).log = log ∧ (s.step (.proceed i now)).calls[i]? =
      some { c with state := ⟨c.state.attempts, .noting ⟨value, events, v⟩⟩ } := by
  have stepped : c.state.step c.spec now (s.adjudicating c) =
      some (⟨c.state.attempts, .noting ⟨value, events, v⟩⟩, { s.adjudicating c with log }) := by
    simp only [Adjudication.step, holding, publish, EventLog.service_append]
    rw [show (s.adjudicating c).log = s.log from rfl, accepted]
  have proceeds := proceed?_eq_some.mpr ⟨c, _, _, there, stepped, rfl⟩
  simp only [step, proceeds]
  exact ⟨rfl, List.getElem?_set_self (List.getElem?_eq_some_iff.mp there).1⟩

/-- A replica that has applied more than the first events of its stream is a replay of these and then others. -/
private theorem replays_onward {r : Replica} {events first : List Recorded} (reflects : r.Reflects events)
    (grown : first <+: events) (applied : first.length ≤ r.revision) :
    ∃ later, Graph.replayRecords ∅ (first ++ later) = .ok r.store.graph := by
  obtain ⟨rest, rfl⟩ := grown
  refine ⟨rest.take (r.revision - first.length), ?_⟩
  have replayed := reflects.replayed
  rwa [List.take_append, List.take_of_length_le applied] at replayed

/-- A request that is answered while its wait goes on was answered because its events were announced. -/
private theorem answered_announced {due : Nat} {a : Adjudication c.Value} {done : Adjudicated c.Value}
    {result : Except AdjudicationError (Adjudicated c.Value)} {after : List Move}
    (noting : s.calls[i]? = some { c with state := a }) (phase : a.phase = .noting done)
    (soon : ∀ now, .proceed i now ∈ after → due ≤ now + c.spec.config.applyTimeout.ticks ∧ now < due)
    {b : Adjudication c.Value} (there : (s.run after).calls[i]? = some { c with state := b })
    (answered : b.result? = some result) : done.revision ≤ ((s.run after).currents c.replica).value := by
  have awaits : AwaitsApplied done due (s.currents c.replica).value a.phase := by
    rw [phase]
    exact rfl
  obtain ⟨b', there', awaits⟩ := awaits_run noting awaits soon
  cases there.symm.trans there'
  obtain ⟨attempts, phase⟩ := b
  cases phase <;> cases answered
  exact awaits.2

/-- A request that has appended waits from its next step on, and is answered in the end. -/
private theorem answered_late {a : Adjudication c.Value} {done : Adjudicated c.Value} {idle rest : List Move}
    {now : Nat}
    (noting : s.calls[i]? = some { c with state := a }) (phase : a.phase = .noting done)
    (silent : ∀ u, .proceed i u ∉ idle)
    (enough : 4 + 3 * rest.countP Move.isConsume ≤
      rest.countP (Move.proceedsFrom i (now + c.spec.config.applyTimeout.ticks))) :
    ∃ b, (s.run (idle ++ .proceed i now :: rest)).calls[i]? = some { c with state := b } ∧
      b.result? = some (.ok done) := by
  obtain ⟨attempts, own⟩ := a
  cases phase
  induction idle generalizing s with
  | nil =>
    obtain ⟨b, after, goes⟩ := goes_step noting (.proceed i now)
    have ends : Ends done (now + c.spec.config.applyTimeout.ticks)
        ((s.step (.proceed i now)).currents c.replica).wakes 4 b.phase := by
      cases goes with
      | other other => exact absurd rfl (other now)
      | still idle => cases idle
      | own stepped =>
        cases stepped
        exact ⟨rfl, Nat.le_refl _, Nat.le_refl _⟩
    exact ends_run (s := s.step (.proceed i now)) after ends enough
  | cons m idle ih =>
    obtain ⟨b, after, goes⟩ := goes_step noting m
    cases goes with
    | other => exact ih (fun u member => silent u (.tail _ member)) after
    | still => exact absurd (.head _) (silent _)
    | own => exact absurd (.head _) (silent _)

/-- What holds of a replica that is said to have applied all up to some revision: it has, and stays so. -/
private theorem shows_of_announced {j : Nat} (announces : s.Announced) (reached : v ≤ (s.currents j).value)
    (more : List Move) :
    s.Shows j v more := by
  have applied : v ≤ (s.replicas j).revision := Nat.le_trans reached (announces.current j)
  refine ⟨Nat.le_trans reached (run_announced s more j), Nat.le_trans applied (run_revision s more j), ?_⟩
  intro k c there own
  have tries := tries_run (k := k) applied more
  rw [there] at tries
  exact tries own

/-- Whether no request changes a replica in the course of a schedule. -/
def Undisturbed (s : System) (j : Nat) (moves : List Move) : Prop :=
  ∀ past i now, past ++ [.proceed i now] <+: moves →
    (s.run (past ++ [.proceed i now])).replicas j = (s.run past).replicas j

theorem tracked_run {r l : Nat} {spec : SubscriberSpec} {moves : List Move} (tracked : s.Tracked r l spec)
    (alone : ∀ m ∈ moves, Private r l spec m) (undisturbed : s.Undisturbed r moves) :
    (s.run moves).Tracked r l spec := by
  induction moves using List.reverseRecOn with
  | nil => exact tracked
  | append_singleton moves m ih =>
    have before : (s.run moves).Tracked r l spec := by
      refine ih (fun other member => alone other (List.mem_append_left _ member)) ?_
      intro past i now early
      exact undisturbed past i now (early.trans (List.prefix_append moves [m]))
    rw [run_snoc]
    refine (tracked_step before (alone m (List.mem_append_right _ (.head _))) ?_).1
    rintro i now rfl
    have same := undisturbed moves i now (List.prefix_refl _)
    rwa [run_snoc] at same

/-- Requests that restore the store do not disturb the replica. -/
private theorem undisturbed_of_alone {r l : Nat} {spec : SubscriberSpec} {moves : List Move} (exact : s.Exact r l spec)
    (alone : ∀ m ∈ moves, Alone r l spec m) : s.Undisturbed r moves := by
  intro past i now early
  have before := (exact_run exact fun m member => alone m (early.subset (List.mem_append_left _ member))).1
  rw [run_snoc]
  exact before.kept i now

/-- A request appends its events, which then stand behind all others of its stream up to revision `v`. However all
goes on, it can only be answered with its value, these events and `v`. If it is answered before its patience is over,
the replica has applied everything up to `v` and is said to, and so it stays: later attempts on it know of the
events; and if it is changed by nobody but its own subscriber, questions to it are answered from a replay of the
stream that includes them. And whether they are applied or not, it is answered: some steps of its own after its
patience is over, and three more for each step of a subscriber. -/
theorem acknowledged_write_is_visible {before : List Move} {t : Nat}
    (there : (({} : System).run before).calls[i]? = some c)
    (holding : c.state.phase = .appending value events expected)
    (accepted : (EventLog.append c.spec.stream expected (events.map record)).outcome (({} : System).run before).log =
      (.ok v, log)) :
    let s := ({} : System).run (before ++ [.proceed i t])
    let stream := (({} : System).run before).log.events c.spec.stream ++
      EventLog.number c.spec.stream expected (events.map record)
    let patience := c.spec.config.applyTimeout.ticks
    (s.log.events c.spec.stream = stream ∧ stream.length = v) ∧
    (∀ after a result, (s.run after).calls[i]? = some { c with state := a } → a.result? = some result →
      result = .ok ⟨value, events, v⟩) ∧
    (∀ after a result, (s.run after).calls[i]? = some { c with state := a } → a.result? = some result →
      (∀ now, .proceed i now ∈ after → t ≤ now ∧ now < t + patience) → ∀ more,
        (s.run after).Shows c.replica v more ∧
        ∀ l spec, spec.stream = c.spec.stream →
          (∀ m ∈ before ++ .proceed i t :: (after ++ more), Private c.replica l spec m) →
          ({} : System).Undisturbed c.replica (before ++ .proceed i t :: (after ++ more)) →
          ∃ g later, Graph.replayRecords ∅ (stream ++ later) = .ok g ∧
            ∀ (β : Type) (question : Graph → Except PolicyError β),
              (((s.run after).run more).replicas c.replica).query (fun store => question store.graph) =
                (question g).mapError fun e => .command (.policy e)) ∧
    ∀ idle now rest, (∀ u, .proceed i u ∉ idle) →
      4 + 3 * rest.countP Move.isConsume ≤ rest.countP (Move.proceedsFrom i (now + patience)) →
      ∃ a, (s.run (idle ++ .proceed i now :: rest)).calls[i]? = some { c with state := a } ∧
        a.result? = some (.ok ⟨value, events, v⟩) := by
  intro s stream patience
  obtain ⟨tail, counted, grown, _⟩ := EventLog.append_ok accepted
  obtain ⟨appended, noting⟩ := append_step there holding accepted t
  rw [← run_snoc] at appended noting
  have stands : s.log.events c.spec.stream = stream := appended ▸ grown
  have whole : stream.length = v := by
    rw [List.length_append, EventLog.number_length, counted, ← tail]
    rfl
  refine ⟨⟨stands, whole⟩, ?_, ?_, ?_⟩
  · intro after a result now answered
    obtain ⟨b, now', settled⟩ := settled_run noting rfl after
    cases now.symm.trans now'
    cases (stage_of_result? answered).symm.trans settled
    rfl
  · intro after a result now answered soon more
    have early (u : Nat) (member : .proceed i u ∈ after) : t + patience ≤ u + patience ∧ u < t + patience :=
      ⟨Nat.add_le_add_right (soon u member).1 _, (soon u member).2⟩
    have announced : v ≤ ((s.run after).currents c.replica).value :=
      answered_announced noting rfl early now answered
    have announces : (s.run after).Announced := by
      rw [← run_append]
      exact announced_run _
    have shows := shows_of_announced announces announced more
    refine ⟨shows, ?_⟩
    intro l spec same alone undisturbed
    have tracked := tracked_run (exact_start c.replica l spec).toTracked alone undisturbed
    rw [List.append_cons, run_append, run_append] at tracked
    have onward : stream <+: ((s.run after).run more).log.events spec.stream := by
      rw [same, ← stands]
      exact (run_grows s after _).trans (run_grows _ more _)
    obtain ⟨later, replayed⟩ := replays_onward tracked.seen.reflects onward (whole ▸ shows.applied)
    exact ⟨_, later, replayed, fun β question => rfl⟩
  · intro idle now rest silent enough
    exact answered_late noting rfl silent enough

end Acknowledged

/-- A request for a policy class, up to where it is about to append. -/
def creatingStaff : List Move := .call Outcome 0 0 createStaff :: List.replicate 5 (.proceed 0 0)

/-- It waits, a subscriber of its replica is started and gets to the event, and it is woken. -/
def followingStaff : List Move :=
  List.replicate 3 (.proceed 0 0) ++ .follow 0 0 usual :: List.replicate 9 (.consume 0 0 (.ofSecs 0)) ++
    List.replicate 4 (.proceed 0 10)

/-- The request is answered ten ticks after it appended, on a replica that has the new class. -/
theorem createdStaff_is_visible :
    ((({} : System).run (creatingStaff ++ [.proceed 0 0])).run followingStaff).Shows 0 1 [] ∧
    ∃ g later, Graph.replayRecords ∅ (EventLog.number "policy" 0 [record (.policyClassCreated ⟨1⟩ "staff")] ++ later) =
        .ok g ∧
      (((({} : System).run (creatingStaff ++ [.proceed 0 0])).run followingStaff).replicas 0).query
        (fun store => store.graph.nodeId "staff") = (g.nodeId "staff").mapError fun e => .command (.policy e) := by
  have restores : createStaff.Restores :=
    (AdjudicationSpec.Commanded.command {} "policy" ∅ ⟨⟨0⟩, none⟩ (.createPolicyClass "staff")).restores
  have alone : ∀ m ∈ creatingStaff ++ .proceed 0 0 :: (followingStaff ++ []), Alone 0 0 usual m := by
    simp [creatingStaff, followingStaff, Alone, restores]
  have soon : ∀ now, .proceed 0 now ∈ followingStaff → 0 ≤ now ∧ now < 0 + createStaff.config.applyTimeout.ticks := by
    simp [followingStaff]
    decide
  let c : Call := ⟨Outcome, 0, 0, createStaff, 1, .appending (.nodeCreated ⟨1⟩) [.policyClassCreated ⟨1⟩ "staff"] 0⟩
  have noting : (({} : System).run (creatingStaff ++ [.proceed 0 0])).calls[0]? =
    some { c with state := ⟨1, .noting staffCreated⟩ } := rfl
  obtain ⟨a, there, _⟩ := settled_run noting rfl followingStaff
  obtain ⟨result, answered⟩ : ∃ result, a.result? = some result := by
    have ended : ((({} : System).run (creatingStaff ++ [.proceed 0 0])).run followingStaff).calls.map
        (fun c => c.state.result?.isSome) = [true] := by decide +kernel
    have own := congrArg (fun flags => flags[0]?) ended
    rw [List.getElem?_map, there] at own
    exact Option.isSome_iff_exists.mp (Option.some.inj own)
  have appending : (({} : System).run creatingStaff).calls[0]? = some c := rfl
  obtain ⟨shows, replays⟩ := (acknowledged_write_is_visible (t := 0) appending rfl rfl).2.2.1 followingStaff a result
    there answered soon []
  obtain ⟨g, later, replayed, asked⟩ := replays 0 usual rfl (fun m member => (alone m member).isPrivate)
    (undisturbed_of_alone (exact_start 0 0 usual) alone)
  have nothing : (({} : System).run creatingStaff).log.events c.spec.stream = [] := by decide +kernel
  rw [nothing] at replayed
  rw [run_nil] at asked
  exact ⟨shows, g, later, replayed, asked PolicyLedger.NodeId fun g => g.nodeId "staff"⟩

end System
end PolicyLedger
