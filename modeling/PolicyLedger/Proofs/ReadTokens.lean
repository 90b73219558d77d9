import PolicyLedger.Language.Parser

/-!
What readers make of tokens. The strings of a statement are those of tokens, and what is refused is reported
where a token starts or where the text stops. So what holds of the strings of all tokens holds of those that are
read, and what holds of all these places holds of the place of every problem.
-/
namespace PolicyLedger.Statement

/-- The names in a statement, and its items and rights. -/
def strings : Statement → List String
  | createPolicyClass name => [name]
  | createNode _ name descendants => name :: descendants
  | assign ascendant descendants => ascendant :: descendants
  | deassign ascendant descendants => ascendant :: descendants
  | associate ua target rights => ua :: target :: rights.toList
  | setResourceOperations rights => rights.toList
  | declare _ name _ => [name]
  | delete _ name => [name]

/-- The strings of the statement are good, and it places no policy class. -/
def Legible (good : String → Prop) (s : Statement) : Prop :=
  (∀ text ∈ s.strings, good text) ∧ ∀ name descendants, s ≠ createNode .policyClass name descendants

namespace Reader

/-- The tokens start at places of a kind, and all strings among them are good. -/
def Admits (good : String → Prop) (here : Nat → Prop) (tokens : List Token) : Prop :=
  ∀ t ∈ tokens, here t.start ∧ ∀ text, t.kind = .string text → good text

/-- What is read off such tokens has the property `P`, and such tokens are left. What is refused is reported at
such a place, if the text stops at one. -/
structure Yields (good : String → Prop) (here : Nat → Prop) {α : Type} (P : α → Prop) (read : Reader α) : Prop where
  reads : ∀ {stop tokens a rest}, Admits good here tokens → read stop tokens = .ok (a, rest) →
    P a ∧ Admits good here rest
  refuses : ∀ {stop tokens e}, here stop → Admits good here tokens → read stop tokens = .error e → here e.position

section Yields
variable {good : String → Prop} {here : Nat → Prop} {α β : Type} {P : α → Prop} {Q : β → Prop} {read : Reader α}

private theorem yields_pure {a : α} (holds : P a) : Yields good here P (pure a) where
  reads admits found := by
    cases found
    exact ⟨holds, admits⟩
  refuses _ _ refused := by cases refused

private theorem yields_fail {position : Nat} (problem : Problem) (place : here position) :
    Yields good here P (fail position problem) where
  reads _ found := by cases found
  refuses _ _ refused := by
    cases refused
    exact place

private theorem yields_bind {next : α → Reader β} (first : Yields good here P read)
    (second : ∀ a, P a → Yields good here Q (next a)) : Yields good here Q (read >>= next) where
  reads admits found := by
    obtain ⟨a, middle, begun, ended⟩ := bind_eq_ok.mp found
    obtain ⟨holds, left⟩ := first.reads admits begun
    exact (second a holds).reads left ended
  refuses ends admits refused := by
    rcases bind_eq_error.mp refused with refused | ⟨a, middle, begun, refused⟩
    · exact first.refuses ends admits refused
    · obtain ⟨holds, left⟩ := first.reads admits begun
      exact (second a holds).refuses ends left refused

private theorem yields_ite {c : Prop} [Decidable c] {no : Reader α} (first : Yields good here P read)
    (second : Yields good here P no) : Yields good here P (if c then read else no) := by
  split
  · exact first
  · exact second

private theorem yields_token :
    Yields good here (fun t => here t.start ∧ ∀ text, t.kind = .string text → good text) token where
  reads {stop tokens a rest} admits found := by
    cases tokens with
    | nil => cases found
    | cons t later =>
      cases found
      exact List.forall_mem_cons.mp admits
  refuses {stop tokens e} ends _ refused := by
    cases tokens with
    | nil =>
      cases refused
      exact ends
    | cons t later => cases refused

private theorem yields_word : Yields good here (fun found => here found.2) word := by
  refine yields_bind yields_token ?_
  rintro t ⟨place, -⟩
  split
  · exact yields_pure place
  · exact yields_fail _ place

private theorem yields_keyword (expected : String) : Yields good here (fun _ => True) (keyword expected) := by
  refine yields_bind yields_word ?_
  intro found place
  exact yields_ite (yields_pure trivial) (yields_fail _ place)

private theorem yields_string : Yields good here good string := by
  refine yields_bind yields_token ?_
  rintro t ⟨place, isGood⟩
  split
  · rename_i text isString
    exact yields_pure (isGood text isString)
  · exact yields_fail _ place

private theorem yields_block : Yields good here (fun _ => True) block := by
  refine yields_bind yields_token ?_
  rintro t ⟨place, -⟩
  split
  · exact yields_pure trivial
  · exact yields_fail _ place

private theorem yields_items : Yields good here (fun values => ∀ text ∈ values, good text) items where
  reads {stop tokens values rest} admits found := by
    refine ⟨?_, fun t member => admits t ((shrinks_items found).mem member)⟩
    change itemsFrom stop tokens = _ at found
    fun_induction itemsFrom stop tokens generalizing values rest <;> cases found
    case case2 => exact fun _ absent => absurd absent List.not_mem_nil
    case case5 t value isString separator later _ values left others ih =>
      obtain ⟨⟨-, isGood⟩, admits⟩ := List.forall_mem_cons.mp admits
      exact List.forall_mem_cons.mpr ⟨isGood value isString, ih (List.forall_mem_cons.mp admits).2 others⟩
    case case6 t value isString separator later _ =>
      obtain ⟨⟨-, isGood⟩, -⟩ := List.forall_mem_cons.mp admits
      exact List.forall_mem_singleton.mpr (isGood value isString)
  refuses {stop tokens e} ends admits refused := by
    change itemsFrom stop tokens = _ at refused
    fun_induction itemsFrom stop tokens generalizing e <;> cases refused
    case case1 => exact ends
    case case3 => exact ends
    case case4 t value _ separator later _ e failed ih =>
      obtain ⟨-, admits⟩ := List.forall_mem_cons.mp admits
      exact ih (List.forall_mem_cons.mp admits).2 failed
    case case7 t value _ separator later _ _ =>
      obtain ⟨-, admits⟩ := List.forall_mem_cons.mp admits
      exact (List.forall_mem_cons.mp admits).1.1
    case case8 t later _ _ => exact (List.forall_mem_cons.mp admits).1.1

private theorem yields_list : Yields good here (fun values => ∀ text ∈ values, good text) list := by
  refine yields_bind yields_token ?_
  rintro t ⟨place, -⟩
  exact yields_ite yields_items (yields_fail _ place)

/-- What ends with a list. -/
private theorem yields_viaList {make : List String → β} (made : ∀ items, (∀ text ∈ items, good text) → Q (make items)) :
    Yields good here Q (do pure (make (← list))) :=
  yields_bind yields_list fun items isGood => yields_pure (made items isGood)

end Yields

section Statements
variable {good : String → Prop} {here : Nat → Prop}

private theorem yields_create (text : List Char) (start : Nat) :
    Yields good here (Legible good) (create text start) := by
  refine yields_bind yields_word fun what place => ?_
  dsimp only
  split
  · refine yields_bind yields_string fun name isGood => yields_bind yields_block fun _ _ => ?_
    refine yields_pure ⟨?_, by rintro _ _ ⟨⟩⟩
    exact List.forall_mem_singleton.mpr isGood
  split
  · refine yields_bind yields_string fun name isGood => yields_pure ⟨?_, by rintro _ _ ⟨⟩⟩
    exact List.forall_mem_singleton.mpr isGood
  · rename_i kind placed _
    refine yields_bind yields_string fun name isGood => yields_bind (yields_keyword _) fun _ _ => ?_
    refine yields_viaList fun items plain => ⟨List.forall_mem_cons.mpr ⟨isGood, plain⟩, ?_⟩
    rintro _ _ ⟨⟩
    exact placed rfl
  · exact yields_fail _ place

private theorem yields_statement (text : List Char) : Yields good here (Legible good) (statement text) := by
  refine yields_bind yields_word fun first place => ?_
  dsimp only
  split
  · exact yields_create _ _
  split
  · refine yields_bind yields_string fun ascendant isGood => yields_bind (yields_keyword _) fun _ _ => ?_
    exact yields_viaList fun items plain => ⟨List.forall_mem_cons.mpr ⟨isGood, plain⟩, by rintro _ _ ⟨⟩⟩
  split
  · refine yields_bind yields_string fun ascendant isGood => yields_bind (yields_keyword _) fun _ _ => ?_
    exact yields_viaList fun items plain => ⟨List.forall_mem_cons.mpr ⟨isGood, plain⟩, by rintro _ _ ⟨⟩⟩
  split
  · refine yields_bind yields_string fun ua isGood => yields_bind (yields_keyword _) fun _ _ => ?_
    refine yields_bind yields_string fun target isGood' => yields_bind (yields_keyword _) fun _ _ => ?_
    refine yields_viaList fun items plain => ⟨?_, by rintro _ _ ⟨⟩⟩
    refine List.forall_mem_cons.mpr ⟨isGood, List.forall_mem_cons.mpr ⟨isGood', fun right member => ?_⟩⟩
    exact plain right (SortedSet.mem_ofList.mp member)
  split
  · refine yields_bind (yields_keyword _) fun _ _ => yields_bind (yields_keyword _) fun _ _ => ?_
    refine yields_viaList fun items plain => ⟨fun right member => ?_, by rintro _ _ ⟨⟩⟩
    exact plain right (SortedSet.mem_ofList.mp member)
  split
  · refine yields_bind yields_word fun what place => ?_
    split
    · refine yields_bind yields_string fun name isGood => yields_pure ⟨?_, by rintro _ _ ⟨⟩⟩
      exact List.forall_mem_singleton.mpr isGood
    · exact yields_fail _ place
  · exact yields_fail _ place

theorem legible_of_statements {text : List Char} {stop : Nat} {tokens : List Token} {ss : List Statement}
    (admits : Admits good here tokens) (found : statements text stop tokens = .ok ss) :
    ∀ s ∈ ss, Legible good s := by
  fun_induction statements text stop tokens generalizing ss <;> cases found
  case case1 => exact fun _ absent => absurd absent List.not_mem_nil
  case case4 first more s rest taken later others ih =>
    obtain ⟨legible, left⟩ := (yields_statement text).reads admits taken
    exact List.forall_mem_cons.mpr ⟨legible, ih left others⟩

theorem position_of_statements {text : List Char} {stop : Nat} {tokens : List Token} {e : SyntaxError}
    (ends : here stop) (admits : Admits good here tokens) (refused : statements text stop tokens = .error e) :
    here e.position := by
  fun_induction statements text stop tokens generalizing e <;> cases refused
  case case2 first more e failed => exact (yields_statement text).refuses ends admits failed
  case case3 first more s rest taken e failed ih =>
    obtain ⟨-, left⟩ := (yields_statement text).reads admits taken
    exact ih left failed

end Statements
end Reader
end PolicyLedger.Statement
