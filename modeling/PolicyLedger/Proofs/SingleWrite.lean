import PolicyLedger.Proofs.Growth

/-!
No write is lost and none is made twice. A request that succeeds with events has written exactly these,
once, right behind the revision that its last attempt was made at; any other request has written
nothing at all. This holds after every schedule, whatever the requests are and whoever else works at
the log.
-/
namespace PolicyLedger

/-- What a request has done so far. -/
structure CallHistory where
  /-- The revision of the replica at each attempt, and the events it recorded if it succeeded. -/
  attempts : List (Revision × Except CommandError (List Event)) := []
  /-- Each stretch of events that a step of the request made the stream grow by, and the end of the
  stream right before. -/
  writes : List (Revision × List Recorded) := []

/-- The history after a step that left the log so. -/
def CallHistory.extend {α : Type} (h : CallHistory) (spec : AdjudicationSpec α) (a : Adjudication α)
    (w : Adjudicating EventLog) (log : EventLog) : CallHistory :=
  let grown := (log.events spec.stream).drop (w.log.tail spec.stream)
  { attempts := match a.phase with
      | .attempting => h.attempts ++ [(w.replica.revision, (Adjudication.attempt spec a.attempts w).1.map Prod.snd)]
      | _ => h.attempts
    writes := if grown.isEmpty then h.writes else h.writes ++ [(w.log.tail spec.stream, grown)] }

namespace System

/-- The history of a request after one more move. -/
def observe (s : System) (i : Nat) (h : CallHistory) (m : Move) : CallHistory :=
  match m, s.calls[i]? with
  | .proceed j _, some c => if j = i then h.extend c.spec c.state (s.adjudicating c) (s.step m).log else h
  | _, _ => h

/-- The history of a request after a schedule. -/
def history (s : System) (i : Nat) (moves : List Move) : CallHistory :=
  (moves.foldl (fun (sh : System × CallHistory) m => (sh.1.step m, sh.1.observe i sh.2 m)) (s, {})).2

theorem history_snoc (s : System) (i : Nat) (moves : List Move) (m : Move) :
    s.history i (moves ++ [m]) = (s.run moves).observe i (s.history i moves) m := by
  have state (s : System) (h : CallHistory) : (moves.foldl
      (fun (sh : System × CallHistory) m => (sh.1.step m, sh.1.observe i sh.2 m)) (s, h)).1 = s.run moves := by
    induction moves generalizing s h with
    | nil => rfl
    | cons m rest ih => exact ih _ _
  simp only [history, List.foldl_append, List.foldl_cons, List.foldl_nil, state]

/-! ### What a request wrote -/

open Adjudication (record)

/-- The events of a success were written once, behind the revision of the attempt they stem from, and
stand there in the stream. -/
structure Written {α : Type} (stream : String) (log : EventLog) (h : CallHistory) (done : Adjudicated α) : Prop where
  fits : done.events.length ≤ done.revision
  attempted : h.attempts.getLast? = some (done.revision - done.events.length, .ok done.events)
  written : h.writes = [(done.revision - done.events.length,
    EventLog.number stream (done.revision - done.events.length) (done.events.map record))]
  stands : ∃ before after, log.events stream =
    before ++ EventLog.number stream (done.revision - done.events.length) (done.events.map record) ++ after ∧
      before.length = done.revision - done.events.length

private theorem Written.mono {α : Type} {stream : String} {log log' : EventLog} {h : CallHistory} {done : Adjudicated α}
    (written : Written stream log h done) (grows : log.events stream <+: log'.events stream) :
    Written stream log' h done := by
  obtain ⟨before, after, stands, place⟩ := written.stands
  obtain ⟨more, grown⟩ := grows
  refine ⟨written.fits, written.attempted, written.written, before, after ++ more, ?_, place⟩
  rw [← grown, stands, List.append_assoc]

/-- What the history of a request has to be, given how far the request is. -/
def Accounted {α : Type} (stream : String) (log : EventLog) (revision : Revision) (h : CallHistory) : Stage α → Prop
  | .trying => h.writes = []
  | .holding _ events expected =>
    h.writes = [] ∧ events ≠ [] ∧ expected ≤ revision ∧ h.attempts.getLast? = some (expected, .ok events)
  | .settled (.error _) => h.writes = []
  | .settled (.ok done) => if done.events = [] then h.writes = [] else Written stream log h done

private theorem Accounted.mono {α : Type} {stream : String} {log log' : EventLog} {revision revision' : Revision}
    {h : CallHistory} {stage : Stage α} (accounted : Accounted stream log revision h stage)
    (grows : log.events stream <+: log'.events stream) (onward : revision ≤ revision') :
    Accounted stream log' revision' h stage := by
  cases stage with
  | trying => exact accounted
  | holding value events expected =>
    obtain ⟨nothing, some, bound, last⟩ := accounted
    exact ⟨nothing, some, Nat.le_trans bound onward, last⟩
  | settled result =>
    cases result with
    | error e => exact accounted
    | ok done =>
      simp only [Accounted] at accounted ⊢
      split
      · rename_i empty
        rwa [if_pos empty] at accounted
      · rename_i some
        rw [if_neg some] at accounted
        exact accounted.mono grows

section Step

variable {α : Type} {spec : AdjudicationSpec α} {a b : Adjudication α} {w w' : Adjudicating EventLog} {h : CallHistory}

private theorem extend_of_same (phase : a.phase ≠ .attempting) (log : w'.log = w.log) :
    h.extend spec a w w'.log = h := by
  have nothing : (w'.log.events spec.stream).drop (w.log.tail spec.stream) = [] := by
    rw [log]
    exact List.drop_length
  unfold CallHistory.extend
  rw [nothing]
  split
  · contradiction
  · rfl

/-- A request that is about to append is not about to make an attempt. -/
private theorem not_attempting {value : α} {events : List Event} {expected : Revision}
    (holding : a.stage = .holding value events expected) : a.phase ≠ .attempting := by
  intro attempting
  simp only [Adjudication.stage, attempting] at holding
  cases holding

/-- An attempt writes nothing, and is the last one for now. -/
private theorem accounted_attempt (phase : a.phase = .attempting) (nothing : h.writes = []) :
    Accounted spec.stream w.log w.replica.revision (h.extend spec a w w.log)
      (Adjudication.attempted w.replica.revision (Adjudication.attempt spec a.attempts w).1) := by
  have writes : (h.extend spec a w w.log).writes = [] := by
    have same : (w.log.events spec.stream).drop (w.log.tail spec.stream) = [] := List.drop_length
    simp only [CallHistory.extend, same]
    exact nothing
  have last : (h.extend spec a w w.log).attempts.getLast? =
      some (w.replica.revision, (Adjudication.attempt spec a.attempts w).1.map Prod.snd) := by
    simp only [CallHistory.extend, phase, List.getLast?_append, List.getLast?_singleton, Option.some_or]
  rcases result : (Adjudication.attempt spec a.attempts w).1 with e | ⟨value, _ | ⟨e, rest⟩⟩
  · exact writes
  · exact writes
  · rw [result] at last
    exact ⟨writes, List.cons_ne_nil _ _, Nat.le_refl _, last⟩

/-- A first append writes the events of the last attempt where that was made. -/
private theorem written_append {events : List Event} {expected revision : Revision} {value : α} {log : EventLog}
    (phase : a.phase ≠ .attempting) (nothing : h.writes = []) (some : events ≠ [])
    (last : h.attempts.getLast? = .some (expected, .ok events))
    (done : (EventLog.append spec.stream expected (events.map record)).outcome w.log = (.ok revision, log)) :
    Written spec.stream log (h.extend spec a w log) ⟨value, events, revision⟩ := by
  obtain ⟨current, rfl, grown, _⟩ := EventLog.append_ok done
  have place : expected + (events.map record).length - events.length = expected := by
    rw [List.length_map, Nat.add_sub_cancel]
  have written : (log.events spec.stream).drop expected =
      EventLog.number spec.stream expected (events.map record) := by
    rw [grown, ← current]
    exact List.drop_left
  have more : EventLog.number spec.stream expected (events.map record) ≠ [] := by
    intro empty
    have count := EventLog.number_length spec.stream expected (events.map record)
    rw [empty, List.length_map] at count
    exact some (List.eq_nil_of_length_eq_zero count.symm)
  constructor
  · simp
  · rw [place, ← last]
    unfold CallHistory.extend
    split
    · contradiction
    · rfl
  · simp only [CallHistory.extend, place, written, nothing, current, List.isEmpty_iff, if_neg more, List.nil_append]
  · rw [place]
    exact ⟨w.log.events spec.stream, [], by rw [grown, List.append_nil], current⟩

/-- Each step of a request keeps its account. -/
private theorem accounted_step (stepped : Adjudication.Stepped spec a w b w')
    (accounted : Accounted spec.stream w.log w.replica.revision h a.stage) :
    Accounted spec.stream w'.log w'.replica.revision (h.extend spec a w w'.log) b.stage := by
  cases stepped with
  | idle phase stage _ log replica =>
    rw [extend_of_same phase log, stage, log, replica]
    exact accounted
  | attempt phase attempts stage =>
    have trying : a.stage = .trying := by simp only [Adjudication.stage, phase]
    rw [trying] at accounted
    rw [stage]
    exact accounted_attempt phase accounted
  | append holding done attempts stage =>
    rw [holding] at accounted
    obtain ⟨nothing, some, bound, last⟩ := accounted
    rw [stage]
    simp only [Accounted, if_neg some]
    exact written_append (not_attempting holding) nothing some last done
  | conflict holding elsewhere attempts stage =>
    rw [holding] at accounted
    rw [extend_of_same (not_attempting holding) rfl]
    rcases stage with stage | ⟨e, stage⟩
    · rw [stage]
      exact accounted.1
    · rw [stage]
      exact accounted.1

end Step

/-- A request and its history fit together. -/
def Fits (s : System) (i : Nat) (h : CallHistory) : Prop :=
  match s.calls[i]? with
  | none => h = {}
  | some c => Accounted c.spec.stream s.log (s.replicas c.replica).revision h c.state.stage

/-- Whatever others do, what the history says stays true. -/
private theorem fits_of_same {s t : System} {i : Nat} {h : CallHistory} (fits : s.Fits i h)
    (same : t.calls[i]? = s.calls[i]?)
    (grows : ∀ stream, s.log.events stream <+: t.log.events stream)
    (onward : ∀ j, (s.replicas j).revision ≤ (t.replicas j).revision) : t.Fits i h := by
  unfold Fits at fits ⊢
  rw [same]
  cases there : s.calls[i]? with
  | none => rwa [there] at fits
  | some c =>
    rw [there] at fits
    exact fits.mono (grows _) (onward _)

/-- A step of the request itself goes into its history. -/
private theorem fits_proceed {s : System} {i : Nat} {h : CallHistory} (fits : s.Fits i h) (now : Nat) :
    (s.step (.proceed i now)).Fits i (s.observe i h (.proceed i now)) := by
  cases there : s.calls[i]? with
  | none =>
    have still : s.step (.proceed i now) = s := by simp only [step, proceed?, there]; rfl
    simp only [still, observe, there]
    exact fits
  | some c =>
    have seen : s.observe i h (.proceed i now) =
        h.extend c.spec c.state (s.adjudicating c) (s.step (.proceed i now)).log := by
      simp only [observe, there, if_true]
    rw [seen]
    cases proceeds : s.proceed? i now with
    | none =>
      have still : s.step (.proceed i now) = s := by simp only [step, proceeds]; rfl
      have phase : c.state.phase ≠ .attempting := by
        intro attempting
        simp only [proceed?, there, Option.bind_some, Adjudication.step, attempting] at proceeds
        cases proceeds
      rw [still, show s.log = (s.adjudicating c).log from rfl, extend_of_same phase rfl]
      exact fits
    | some t =>
      have after : s.step (.proceed i now) = t := by simp only [step, proceeds]; rfl
      obtain ⟨c', state, w, again, stepped, rfl⟩ := proceed?_eq_some.mp proceeds
      cases there.symm.trans again
      have found : (s.adjudicated i { c with state } w).calls[i]? = some { c with state } :=
        List.getElem?_set_self (List.getElem?_eq_some_iff.mp there).1
      have replica : (s.adjudicated i { c with state } w).replicas c.replica = w.replica := Function.update_self ..
      unfold Fits at fits ⊢
      rw [there] at fits
      rw [after, found]
      dsimp only
      rw [replica]
      exact accounted_step (Adjudication.step_cases stepped) fits

/-- The request and its history still fit together after any move. -/
private theorem fits_step {s : System} {i : Nat} {h : CallHistory} (fits : s.Fits i h) (m : Move) :
    (s.step m).Fits i (s.observe i h m) := by
  have others (same : (s.step m).calls[i]? = s.calls[i]?) : (s.step m).Fits i h :=
    fits_of_same fits same (step_grows s m) (step_revision s m)
  cases m with
  | call Value replica adjudicator spec =>
    by_cases made : i < s.calls.length
    · exact others (List.getElem?_append_left made)
    · have absent : s.calls[i]? = none := List.getElem?_eq_none_iff.mpr (by omega)
      have empty : h = {} := by
        unfold Fits at fits
        rwa [absent] at fits
      subst empty
      unfold Fits
      by_cases last : i = s.calls.length
      · rw [show (s.step (.call Value replica adjudicator spec)).calls[i]? =
          some { Value, replica, adjudicator, spec } by rw [last]; exact List.getElem?_concat_length]
        rfl
      · rw [show (s.step (.call Value replica adjudicator spec)).calls[i]? = none from
          List.getElem?_eq_none_iff.mpr (by simp [step]; omega)]
        rfl
  | proceed j now =>
    by_cases own : j = i
    · subst own
      exact fits_proceed fits now
    · have untouched : s.observe i h (.proceed j now) = h := by
        unfold observe
        split
        · rename_i same _
          cases same
          exact if_neg own
        · rfl
      rw [untouched]
      refine others ?_
      simp only [step]
      cases proceeds : s.proceed? j now with
      | none => rfl
      | some t =>
        obtain ⟨_, _, _, _, _, rfl⟩ := proceed?_eq_some.mp proceeds
        exact List.getElem?_set_ne own
  | follow => exact others rfl
  | append => exact others rfl
  | cancel => exact others rfl
  | consume j now jitter => exact others (by rw [calls_consume])

theorem fits_run {start : System} (fresh : start.calls = []) (i : Nat) (moves : List Move) :
    (start.run moves).Fits i (start.history i moves) := by
  induction moves using List.reverseRecOn with
  | nil =>
    unfold Fits
    rw [run_nil, fresh]
    rfl
  | append_singleton moves m ih =>
    rw [run_snoc, history_snoc]
    exact fits_step ih m

/-- A replica that is behind the end of the stream makes its requests wait: none of them appends. -/
private theorem behind_appends_nothing {s : System} {i : Nat} {h : CallHistory} {c : Call} (fits : s.Fits i h)
    (there : s.calls[i]? = some c) (behind : (s.replicas c.replica).revision < s.log.tail c.spec.stream) (now : Nat) :
    (s.step (.proceed i now)).log = s.log := by
  unfold Fits at fits
  rw [there] at fits
  dsimp only at fits
  simp only [step]
  cases proceeds : s.proceed? i now with
  | none => rfl
  | some t =>
    obtain ⟨c', state, w, again, stepped, rfl⟩ := proceed?_eq_some.mp proceeds
    cases there.symm.trans again
    cases Adjudication.step_cases stepped with
    | idle _ _ _ log => exact log
    | attempt => rfl
    | conflict => rfl
    | append holding done =>
      rw [holding] at fits
      have current : s.log.tail c.spec.stream = _ := (EventLog.append_ok done).1
      exact absurd (current ▸ behind) (Nat.not_lt_of_le fits.2.2.1)

theorem stage_of_result? {α : Type} {a : Adjudication α} {result : Except AdjudicationError (Adjudicated α)}
    (answered : a.result? = some result) : a.stage = .settled result := by
  obtain ⟨attempts, phase⟩ := a
  cases phase <;> cases answered
  rfl

/-- What a request has written. If it succeeded with events, it has written these and nothing else: once,
in order, right behind the revision of its last attempt, which was the end of the stream just before,
and there they stand. If it failed, or succeeded without events, it has written nothing. As long as
its replica is behind the end of the stream, no step of it writes, and none ever writes to another stream. -/
theorem request_writes_once {start : System} (fresh : start.calls = []) (moves : List Move) {i : Nat} {c : Call}
    (there : (start.run moves).calls[i]? = some c) :
    (∀ done, c.state.result? = some (.ok done) → done.events ≠ [] →
      Written c.spec.stream (start.run moves).log (start.history i moves) done) ∧
    (∀ done, c.state.result? = some (.ok done) → done.events = [] → (start.history i moves).writes = []) ∧
    (∀ e, c.state.result? = some (.error e) → (start.history i moves).writes = []) ∧
    (((start.run moves).replicas c.replica).revision < (start.run moves).log.tail c.spec.stream →
      ∀ now, ((start.run moves).step (.proceed i now)).log = (start.run moves).log) ∧
    (∀ other, other ≠ c.spec.stream → ∀ now,
      ((start.run moves).step (.proceed i now)).log.events other = (start.run moves).log.events other) := by
  have fits := fits_run fresh i moves
  have accounted := fits
  unfold Fits at accounted
  rw [there] at accounted
  dsimp only at accounted
  refine ⟨?_, ?_, ?_, ?_, ?_⟩
  · intro done answered some
    rw [stage_of_result? answered, Accounted, if_neg some] at accounted
    exact accounted
  · intro done answered none
    rw [stage_of_result? answered, Accounted, if_pos none] at accounted
    exact accounted
  · intro e answered
    rw [stage_of_result? answered] at accounted
    exact accounted
  · intro behind now
    exact behind_appends_nothing fits there behind now
  · intro other differ now
    exact proceed_others there differ

/-- The one event of a request for a policy class is written once. -/
theorem creating_writes_once :
    (({} : System).run creating).calls[0]? = some ⟨Outcome, 0, 0, createStaff, 1, .finished (.ok staffCreated)⟩ ∧
      Written "policy" (({} : System).run creating).log (({} : System).history 0 creating) staffCreated := by
  have fresh : ({} : System).calls = [] := rfl
  have there : (({} : System).run creating).calls[0]? =
      some ⟨Outcome, 0, 0, createStaff, 1, .finished (.ok staffCreated)⟩ := rfl
  exact ⟨there, (request_writes_once fresh creating there).1 staffCreated rfl (List.cons_ne_nil _ _)⟩

end System
end PolicyLedger
