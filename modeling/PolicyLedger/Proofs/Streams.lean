import Mathlib.Data.List.DropRight
import PolicyLedger.Proofs.LogHistory

/-!
Streams as those know them who write and read them. However appends follow one another, a stream holds the records it was
given, numbered from one on without gaps, and an append that was meant for another end is told where the end is. Readers
get the events between two revisions, or the newest ones, and page by page the whole stream.
-/
namespace PolicyLedger
open PolicyLedger.Action

/-! ### Events at their revisions -/

namespace InPlace

variable {events : List Recorded} {event : Recorded} {k : Nat}

private theorem mem_take (inPlace : InPlace events) (among : event ∈ events.take k) : event.revision ≤ k := by
  obtain ⟨i, found⟩ := List.mem_iff_getElem?.mp among
  rw [List.getElem?_take] at found
  split at found
  · rename_i below
    exact inPlace i event found ▸ below
  · cases found

private theorem mem_drop (inPlace : InPlace events) (among : event ∈ events.drop k) : k < event.revision := by
  obtain ⟨i, found⟩ := List.mem_iff_getElem?.mp among
  rw [List.getElem?_drop] at found
  rw [inPlace _ event found]
  omega

/-- The events between two revisions are those between two places. -/
private theorem filter_between (inPlace : InPlace events) (k count : Nat) :
    (events.filter fun event => k < event.revision ∧ event.revision ≤ k + count) = (events.drop k).take count := by
  have parts : events = events.take k ++ ((events.drop k).take count ++ events.drop (k + count)) := by
    rw [← List.drop_drop, List.take_append_drop, List.take_append_drop]
  conv_lhs => rw [parts]
  rw [List.filter_append, List.filter_append, List.filter_eq_nil_iff.mpr, List.filter_eq_self.mpr,
    List.filter_eq_nil_iff.mpr, List.nil_append, List.append_nil]
  · intro event after within
    exact Nat.not_lt_of_le (of_decide_eq_true within).2 (inPlace.mem_drop after)
  · intro event between
    have above := inPlace.mem_drop (List.mem_of_mem_take between)
    rw [List.take_drop] at between
    have below := inPlace.mem_take (List.mem_of_mem_drop between)
    exact decide_eq_true ⟨above, below⟩
  · intro event before within
    exact Nat.not_lt_of_le (inPlace.mem_take before) (of_decide_eq_true within).1

end InPlace

/-- What was appended. -/
def Recorded.record (event : Recorded) : Record := ⟨event.schema, event.data⟩

namespace EventLog

variable {log : EventLog} {stream : String}

/-! ### What a stream holds -/

private theorem map_record_number (stream : String) (last : Revision) (records : List Record) :
    (number stream last records).map Recorded.record = records := by
  induction records generalizing last with
  | nil => rfl
  | cons record rest ih => exact congrArg (record :: ·) (ih (last + 1))

private theorem number_append (stream : String) (last : Revision) (records more : List Record) :
    number stream last (records ++ more) =
      number stream last records ++ number stream (last + records.length) more := by
  induction records generalizing last with
  | nil => rfl
  | cons record rest ih =>
    rw [List.cons_append, number, ih, List.length_cons, Nat.add_assoc, Nat.add_comm 1]
    rfl

/-- At the end of its stream an append adds its records, numbered on, and answers where the end is now. -/
private theorem append_current (records : List Record) {expected : Revision} (current : log.tail stream = expected) :
    let log' := log.step (.append stream expected records)
    (append stream expected records).outcome log = (.ok (log'.tail stream), log') ∧
      log'.events stream = log.events stream ++ number stream expected records ∧
      ∀ other, other ≠ stream → log'.events other = log.events other := by
  obtain ⟨revision, log', done⟩ := append_succeeds records current
  obtain ⟨_, rfl, grown, others, _⟩ := append_ok done
  have reached : log'.tail stream = expected + records.length := by
    rw [tail, grown, List.length_append, number_length, ← current]
    rfl
  dsimp only [step]
  rw [done]
  exact ⟨by rw [reached], grown, others⟩

/-- A move adds to a stream what was appended to it, numbered on from its end. -/
private theorem step_adds (log : EventLog) (m : LogMove) (stream : String) :
    ∃ records, (log.step m).events stream = log.events stream ++ number stream (log.tail stream) records := by
  have nothing {log' : EventLog} (same : log'.events stream = log.events stream) :
      ∃ records, log'.events stream = log.events stream ++ number stream (log.tail stream) records :=
    ⟨[], same.trans (List.append_nil _).symm⟩
  rcases step_cases log m with same | ⟨stream', expected, records, rfl⟩ | ⟨_, _, rfl, _, made⟩ |
    ⟨s, revision, verdict, _, _, made⟩ | rfl
  · exact nothing (by rw [same])
  · by_cases current : log.tail stream' = expected
    · obtain ⟨_, grown, others⟩ := append_current records current
      by_cases mine : stream = stream'
      · subst mine
        exact ⟨records, current ▸ grown⟩
      · exact nothing (others stream mine)
    · exact nothing (by rw [step, append_conflict records current])
  · exact nothing (by rw [made]; rfl)
  · exact nothing (by rw [made, (judge_log s revision verdict log).1])
  · exact nothing rfl

/-- However a log came about, each stream holds some records, numbered from one on. -/
private theorem events_history (moves : List LogMove) (stream : String) :
    ∃ records, (({} : EventLog).run moves).events stream = number stream 0 records := by
  induction moves using List.reverseRecOn with
  | nil => exact ⟨[], rfl⟩
  | append_singleton moves m ih =>
    obtain ⟨old, held⟩ := ih
    obtain ⟨new, grown⟩ := step_adds (({} : EventLog).run moves) m stream
    refine ⟨old ++ new, ?_⟩
    rw [run_snoc, grown, tail, held, number_append, number_length, Nat.zero_add]

/-- Every event has the revision of its place and the name of its stream. -/
private theorem get?_number_start {records : List Record} {i : Nat} {event : Recorded}
    (found : (number stream 0 records)[i]? = some event) : event.revision = i + 1 ∧ event.stream = stream := by
  rw [number_get?] at found
  obtain ⟨record, _, rfl⟩ := Option.map_eq_some_iff.mp found
  exact ⟨congrArg (· + 1) (Nat.zero_add i), rfl⟩

/-! ### What readers get -/

/-- A stream is read in pages of some size until one is empty. The next page is as many revisions further on as a page has
room for, or right behind the last event that was read. -/
inductive ReadInPages (log : EventLog) (stream : String) (size : Nat) : Nat → List Recorded → Prop
  | ended {first : Nat} (read : (readFrom stream first size).outcome log = (.ok [], log)) :
    ReadInPages log stream size first []
  | page {first next : Nat} {events rest : List Recorded} {last : Recorded}
    (read : (readFrom stream first size).outcome log = (.ok (events ++ [last]), log))
    (follows : next = first + size ∨ next = last.revision + 1) (more : ReadInPages log stream size next rest) :
    ReadInPages log stream size first (events ++ [last] ++ rest)

private theorem readFrom_existing (existing : log.events stream ≠ []) (first : Revision) (count : Nat) :
    (readFrom stream first count).outcome log = (.ok (((log.events stream).drop (first - 1)).take count), log) := by
  rw [readFrom_outcome, if_neg existing]

private theorem readFromEnd_existing (existing : log.events stream ≠ []) (count : Nat) :
    (readFromEnd stream count).outcome log = (.ok ((log.events stream).rtake count).reverse, log) := by
  rw [List.rtake_eq_reverse_take_reverse, List.reverse_reverse, readFromEnd, outcome_ofFunction, EventLog.existing]
  cases there : log.events stream with
  | nil => exact absurd there existing
  | cons event rest => rfl

/-- Behind a page there is what is left of the stream, wherever its reader takes the next page to begin. -/
private theorem drop_page {events page : List Recorded} {last : Recorded} {first next size : Nat}
    (inPlace : InPlace events)
    (valid : 0 < first) (read : (events.drop (first - 1)).take size = page ++ [last])
    (follows : next = first + size ∨ next = last.revision + 1) :
    (events.drop (first - 1)).drop size = events.drop (next - 1) := by
  have length : page.length + 1 = min size (events.length - (first - 1)) := by
    rw [← List.length_drop, ← List.length_take, read, List.length_append, List.length_singleton]
  rw [List.drop_drop]
  rcases follows with rfl | rfl
  · rw [Nat.sub_add_comm valid]
  · have found : events[first - 1 + page.length]? = some last := by
      have inPage : ((events.drop (first - 1)).take size)[page.length]? = some last := by
        rw [read, List.getElem?_concat_length]
      rw [List.getElem?_take, if_pos (by omega), List.getElem?_drop] at inPage
      exact inPage
    rw [inPlace _ _ found, Nat.add_sub_cancel]
    rcases Nat.le_total size (events.length - (first - 1)) with full | short
    · rw [Nat.add_assoc, length, Nat.min_eq_left full]
    · rw [List.drop_eq_nil_of_le (by omega), List.drop_eq_nil_of_le (by omega)]

private theorem ReadInPages.eq_drop {size first : Nat} {all : List Recorded} (inPlace : InPlace (log.events stream))
    (existing : log.events stream ≠ []) (room : 0 < size) (valid : 0 < first)
    (reads : ReadInPages log stream size first all) : all = (log.events stream).drop (first - 1) := by
  induction reads with
  | ended read =>
    rw [readFrom_existing existing] at read
    rcases List.take_eq_nil_iff.mp (Except.ok.inj (congrArg Prod.fst read)) with empty | nothing
    · omega
    · exact nothing.symm
  | @page first next events rest last read follows more ih =>
    rw [readFrom_existing existing] at read
    have page := Except.ok.inj (congrArg Prod.fst read)
    have later : 0 < next := by
      rcases follows with rfl | rfl
      · omega
      · exact Nat.succ_pos _
    rw [ih later, ← drop_page inPlace valid page follows, ← page, List.take_append_drop]

private theorem readInPages_drop {size : Nat} (existing : log.events stream ≠ []) (room : 0 < size) (first : Nat)
    (valid : 0 < first) : ReadInPages log stream size first ((log.events stream).drop (first - 1)) := by
  induction left : (log.events stream).length + 1 - first using Nat.strong_induction_on generalizing first with
  | _ left ih =>
    subst left
    have read := readFrom_existing existing first size
    rcases List.eq_nil_or_concat' (((log.events stream).drop (first - 1)).take size) with empty | ⟨page, last, ending⟩
    · rw [empty] at read
      rw [(List.take_eq_nil_iff.mp empty).resolve_left (Nat.ne_of_gt room)]
      exact .ended read
    · have within : first - 1 < (log.events stream).length := by
        refine Nat.lt_of_not_le fun beyond => ?_
        rw [List.drop_eq_nil_of_le beyond, List.take_nil] at ending
        exact List.append_ne_nil_of_right_ne_nil page (List.cons_ne_nil last []) ending.symm
      have rest := ih _ (by omega) (first + size) (by omega) rfl
      rw [Nat.sub_add_comm valid, ← List.drop_drop] at rest
      rw [← List.take_append_drop size (List.drop _ _), ending]
      rw [ending] at read
      exact .page read (.inl rfl) rest

/-- Appends make one sequence of each stream, without gaps, in which nothing ever changes. Every event has the revision of
its place and the name of its stream. An append succeeds if and only if it expects the end where it is; then its records
follow what was there, and otherwise it is told where the end is and nothing happens. Readers get the events between two
revisions, or the newest ones first, and whoever reads page by page gets all of the stream. -/
theorem streams_gapless (moves : List LogMove) (stream : String) :
    let log := ({} : EventLog).run moves
    (∀ i event, (log.events stream)[i]? = some event → event.revision = i + 1 ∧ event.stream = stream) ∧
    (∀ expected records,
      let log' := log.step (.append stream expected records)
      (expected = (log.events stream).length →
        (append stream expected records).outcome log = (.ok (log'.events stream).length, log') ∧
        (∃ added, log'.events stream = log.events stream ++ added ∧ added.map Recorded.record = records) ∧
        ∀ other, other ≠ stream → log'.events other = log.events other) ∧
      (expected ≠ (log.events stream).length →
        (append stream expected records).outcome log =
          (.error (.conflict stream expected (log.events stream).length), log))) ∧
    (∀ more, log.events stream <+: (log.run more).events stream) ∧
    (log.events stream ≠ [] →
      (∀ first count : Nat, (readFrom stream first count).outcome log =
        (.ok ((log.events stream).filter fun event =>
          max first 1 ≤ event.revision ∧ event.revision < max first 1 + count), log)) ∧
      (∀ count, (readFromEnd stream count).outcome log = (.ok ((log.events stream).rtake count).reverse, log)) ∧
      ∀ size all, 0 < size → (ReadInPages log stream size 1 all ↔ all = log.events stream)) := by
  intro log
  have inPlace := inPlace_history moves stream
  refine ⟨?_, ?_, fun more => run_grows log more stream,
    fun existing => ⟨?_, readFromEnd_existing existing, ?_⟩⟩
  · obtain ⟨records, held⟩ := events_history moves stream
    intro i event found
    exact get?_number_start (held ▸ found)
  · intro expected records log'
    constructor
    · intro current
      obtain ⟨answered, grown, others⟩ := append_current records current.symm
      exact ⟨answered, ⟨_, grown, map_record_number ..⟩, others⟩
    · intro elsewhere
      exact append_conflict records elsewhere.symm
  · intro first count
    rw [readFrom_existing existing, ← inPlace.filter_between]
    have place : max first 1 = first - 1 + 1 := by omega
    congr 3
    funext event
    rw [decide_eq_decide, place, Nat.succ_le_iff, Nat.add_right_comm, Nat.lt_succ_iff]
  · intro size all room
    constructor
    · exact fun reads => reads.eq_drop inPlace existing room Nat.one_pos
    · rintro rfl
      exact readInPages_drop existing room 1 Nat.one_pos

/-- Two writers append to one stream, the second of them at first where the end no longer is, and one to another. -/
def competing : List LogMove :=
  [.append "policy" 0 [⟨"a", []⟩, ⟨"b", []⟩], .append "policy" 0 [⟨"c", []⟩], .append "audit" 0 [⟨"d", []⟩],
    .append "policy" 2 [⟨"c", []⟩]]

theorem competing_gapless :
    let log := ({} : EventLog).run competing
    (append "policy" 2 [⟨"d", []⟩]).outcome log = (.error (.conflict "policy" 2 3), log) ∧
      (append "policy" 3 []).outcome log = (.ok 3, log) ∧
      (readFrom "policy" 2 5).outcome log = (.ok [⟨"policy", 2, "b", []⟩, ⟨"policy", 3, "c", []⟩], log) ∧
      (readFromEnd "policy" 2).outcome log = (.ok [⟨"policy", 3, "c", []⟩, ⟨"policy", 2, "b", []⟩], log) ∧
      ReadInPages log "policy" 2 1 (log.events "policy") := by
  intro log
  obtain ⟨_, appends, _, reads⟩ := streams_gapless competing "policy"
  obtain ⟨ranges, newest, pages⟩ := reads (by decide +kernel)
  refine ⟨(appends 2 _).2 (by decide +kernel), ?_, ?_, ?_, (pages 2 _ (by decide)).mpr rfl⟩
  · exact ((appends 3 []).1 (by decide +kernel)).1
  · exact (ranges 2 5).trans (by decide +kernel)
  · exact (newest 2).trans (by decide +kernel)

end EventLog
end PolicyLedger
