import PolicyLedger.Store.Basic

/-!
Sequences of calls to a store in which transactions are nested. A transaction that is taken back takes back
all that happened inside of it, transactions that were kept included. So only the changes count around
which no transaction is taken back, and they do what they would do without the others: a change that
fails, or is taken back, is not noticed by those that stay.
-/
namespace PolicyLedger.Store

/-- A change asked of a store. -/
inductive Change where
  | perform (m : Mutation)
  | insert (id : NodeId) (kind : NodeKind) (name : String) (descendants : List NodeId)

inductive Closing where
  | commit
  | rollback
  deriving DecidableEq

inductive Call where
  | change (c : Change)
  | begin
  | close (how : Closing)

def Call.act : Call → Action PolicyError Store Unit
  | change (.perform m) => discard (Store.perform m)
  | change (.insert id kind name descendants) => insertNode id kind name descendants
  | begin => Store.begin
  | close .commit => commit
  | close .rollback => rollback

/-- The store after calls made one after the other, whether they succeed or fail. -/
def run (calls : List Call) (s : Store) : Store := calls.foldl (fun s call => (call.act.outcome s).2) s

private theorem run_cons (call : Call) (calls : List Call) (s : Store) :
    run (call :: calls) s = run calls (call.act.outcome s).2 := rfl

theorem run_append (calls more : List Call) (s : Store) : run (calls ++ more) s = run more (run calls s) :=
  List.foldl_append

/-! ### Changes -/

/-- The graph after a change; one that fails leaves it as it was. -/
def Change.after (g : Graph) : Change → Graph
  | perform m => match g.apply m with
    | .ok (_, after) => after
    | .error _ => g
  | insert id kind name descendants => match g.insertNode id kind name descendants with
    | .ok after => after
    | .error _ => g

theorem outcome_change (c : Change) (s : Store) :
    ((Call.change c).act.outcome s).2 = { s with graph := c.after s.graph } := by
  cases c with
  | perform m =>
    change (Action.outcome (Store.perform m >>= fun _ => pure ()) s).2 = _
    rw [Action.outcome_bind, Store.perform, Action.outcome_ofFunction, Change.after]
    cases s.graph.apply m <;> rfl
  | insert id kind name ds =>
    rw [Call.act, insertNode, Action.outcome_ofFunction, Change.after]
    cases s.graph.insertNode id kind name ds <;> rfl

/-- Changes alone never touch what open transactions would go back to. -/
private theorem run_changes (changes : List Change) (s : Store) :
    run (changes.map .change) s = { s with graph := changes.foldl Change.after s.graph } := by
  induction changes generalizing s with
  | nil => rfl
  | cons c changes ih =>
    rw [List.map_cons, run_cons, outcome_change, ih]
    rfl

/-! ### Nesting -/

/-- Whether calls close every transaction they begin, and `depth` more that are open before them. -/
def balanced : Nat → List Call → Bool
  | depth, [] => depth = 0
  | depth, .change _ :: rest => balanced depth rest
  | depth, .begin :: rest => balanced (depth + 1) rest
  | 0, .close _ :: _ => false
  | depth + 1, .close _ :: rest => balanced depth rest

/-- How calls close the transactions that are open before them, the innermost first. -/
def closings : List Call → List Closing
  | [] => []
  | .change _ :: rest => closings rest
  | .begin :: rest => (closings rest).tail
  | .close how :: rest => how :: closings rest

/-- The changes around which no transaction is taken back. -/
def lasting : List Call → List Change
  | [] => []
  | .change c :: rest => if .rollback ∈ closings rest then lasting rest else c :: lasting rest
  | .begin :: rest => lasting rest
  | .close _ :: rest => lasting rest

/-- Changes, and pairs of a begin and the call that closes it, with such sequences inside of them. -/
inductive Nested : List Call → Prop
  | nil : Nested []
  | change (c : Change) {rest : List Call} (others : Nested rest) : Nested (.change c :: rest)
  | pair (how : Closing) {inner rest : List Call} (inside : Nested inner) (others : Nested rest) :
    Nested (.begin :: (inner ++ .close how :: rest))

/-- What closes `depth` transactions and one more closes this one first, after calls that are nested. -/
theorem nested_of_balanced {calls : List Call} :
    (balanced 0 calls = true → Nested calls) ∧
    ∀ depth, balanced (depth + 1) calls = true →
      ∃ inner how rest, calls = inner ++ .close how :: rest ∧ Nested inner ∧ balanced depth rest = true := by
  induction length : calls.length using Nat.strongRecOn generalizing calls with
  | _ n ih =>
    cases calls with
    | nil => exact ⟨fun _ => .nil, nofun⟩
    | cons call rest =>
      simp only [List.length_cons] at length
      have shorter {later : List Call} (bound : later.length ≤ rest.length) := @ih later.length (by omega) later rfl
      obtain ⟨whole, opened⟩ := shorter (Nat.le_refl rest.length)
      cases call with
      | change c =>
        refine ⟨fun closed => .change c (whole closed), fun depth closed => ?_⟩
        obtain ⟨inner, how, later, rfl, nested, left⟩ := opened depth closed
        exact ⟨.change c :: inner, how, later, rfl, .change c nested, left⟩
      | close how =>
        exact ⟨nofun, fun depth closed => ⟨[], how, rest, rfl, .nil, closed⟩⟩
      | begin =>
        -- What follows closes one transaction more; behind the call that closes it, fewer calls are left.
        constructor
        · intro closed
          obtain ⟨inner, how, later, rfl, nested, left⟩ := opened 0 closed
          exact .pair how nested ((shorter (by simp; omega)).1 left)
        · intro depth closed
          obtain ⟨inner, how, later, rfl, nested, left⟩ := opened (depth + 1) closed
          obtain ⟨inner', how', later', rfl, nested', left'⟩ := (shorter (by simp; omega)).2 depth left
          refine ⟨.begin :: (inner ++ .close how :: inner'), how', later', ?_, .pair how nested nested', left'⟩
          simp

variable {calls rest : List Call}

private theorem Nested.closings_append (nested : Nested calls) (rest : List Call) :
    closings (calls ++ rest) = closings rest := by
  induction nested generalizing rest with
  | nil => rfl
  | change c _ ih => exact ih rest
  | pair how _ _ inside others =>
    simp only [List.cons_append, List.append_assoc, closings, inside, others, List.tail_cons]

private theorem Nested.closings_eq_nil (nested : Nested calls) : closings calls = [] := by
  have alone := nested.closings_append []
  rwa [List.append_nil] at alone

/-- What is taken back later is taken back altogether. -/
private theorem Nested.lasting_append (nested : Nested calls) (rest : List Call) :
    lasting (calls ++ rest) = (if .rollback ∈ closings rest then [] else lasting calls) ++ lasting rest := by
  induction nested generalizing rest with
  | nil => simp [lasting]
  | change c others ih =>
    simp only [List.cons_append, lasting, others.closings_append, others.closings_eq_nil, ih]
    split <;> simp
  | @pair how inner later inside others ihInside ihOthers =>
    simp only [List.cons_append, List.append_assoc, lasting, ihInside, ihOthers, closings, others.closings_append,
      others.closings_eq_nil]
    cases how with
    | commit => by_cases taken : .rollback ∈ closings rest <;> simp [taken]
    | rollback => by_cases taken : .rollback ∈ closings rest <;> simp [taken]

/-- Calls that are nested come to their lasting changes, and leave the transactions around them alone. -/
private theorem Nested.run_eq (nested : Nested calls) (s : Store) :
    run calls s = { s with graph := (lasting calls).foldl Change.after s.graph } := by
  induction nested generalizing s with
  | nil => rfl
  | change c others ih =>
    rw [run_cons, outcome_change, ih, lasting, others.closings_eq_nil, if_neg List.not_mem_nil]
    rfl
  | @pair how inner rest inside others ihInside ihOthers =>
    have begun : (Call.begin.act.outcome s).2 = ⟨s.graph, s.graph :: s.snapshots⟩ := rfl
    rw [run_cons, begun, run_append, ihInside, run_cons, ihOthers, lasting, inside.lasting_append, List.foldl_append,
      closings, others.closings_eq_nil]
    cases how with
    | commit => rfl
    | rollback => rfl

/-- A transaction around calls that are nested: to take it back undoes them all, and to keep it is no
different from the calls alone. The graph they lead to is the one that their lasting changes lead to. -/
theorem nested_transactions (closed : balanced 0 calls = true) (s : Store) :
    run (.begin :: calls ++ [.close .rollback]) s = s ∧
    run (.begin :: calls ++ [.close .commit]) s = run calls s ∧
    (run calls s).snapshots = s.snapshots ∧
    (run calls s).graph = (run ((lasting calls).map .change) s).graph := by
  have nested := nested_of_balanced.1 closed
  have around (how : Closing) : run (.begin :: calls ++ [.close how]) s =
      { s with graph := (if .rollback = how then [] else lasting calls).foldl Change.after s.graph } := by
    have whole := (Nested.pair how nested .nil).run_eq s
    rw [lasting, nested.lasting_append] at whole
    simpa [lasting, closings] using whole
  refine ⟨around .rollback, ?_, ?_, ?_⟩
  · rw [around .commit, nested.run_eq]
    rfl
  · rw [nested.run_eq]
  · rw [nested.run_eq, run_changes]

/-- A class is created in a transaction that is kept inside of one that is taken back, so the same name is
free for the class created behind them; the last one finds it taken. -/
def takenBack : List Call :=
  let named (name : String) : Call := .change (.perform (.createNode .policyClass name []))
  [.begin, named "a", .begin, named "b", .close .commit, .close .rollback, named "b", .begin, named "b", .close .commit]

theorem takenBack_around :
    run (.begin :: takenBack ++ [.close .rollback]) {} = {} ∧ (run takenBack {}).graph.names.keys = ["b"] ∧
    (run ((lasting takenBack).map .change) {}).graph.names.keys = ["b"] := by
  obtain ⟨undone, -, -, same⟩ := @nested_transactions takenBack (by decide) {}
  have names : (run takenBack {}).graph.names.keys = ["b"] := by decide +kernel
  exact ⟨undone, names, by rw [← same, names]⟩

end PolicyLedger.Store
