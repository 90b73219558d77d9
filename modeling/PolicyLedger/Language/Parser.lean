import PolicyLedger.Language.Statement
import PolicyLedger.Language.Token

/-!
Statements read from tokens. A reader takes tokens from the front and leaves the rest; what it
refuses is reported where the first token it can not use starts, or at the end of the text.
-/
namespace PolicyLedger
namespace Statement

/-- Reads one thing off the front of a token list; `stop` is the length of the text in bytes. -/
def Reader (α : Type) : Type := (stop : Nat) → List Token → Except SyntaxError (α × List Token)

namespace Reader

instance : Monad Reader where
  pure a := fun _ tokens => .ok (a, tokens)
  bind read next := fun stop tokens =>
    match read stop tokens with
    | .error e => .error e
    | .ok (a, rest) => next a stop rest

def fail {α : Type} (position : Nat) (problem : Problem) : Reader α := fun _ _ => .error ⟨position, problem⟩

def token : Reader Token := fun stop tokens =>
  match tokens with
  | [] => .error ⟨stop, .unexpectedEnd⟩
  | first :: rest => .ok (first, rest)

/-- A keyword and where it starts. -/
def word : Reader (String × Nat) := do
  let t ← token
  match t.kind with
  | .word name => pure (name, t.start)
  | _ => fail t.start .expectedKeyword

def keyword (expected : String) : Reader Unit := do
  let (found, position) ← word
  if found = expected then pure () else fail position (.wrongKeyword expected found)

def string : Reader String := do
  let t ← token
  match t.kind with
  | .string value => pure value
  | _ => fail t.start .expectedString

/-- Where a block ends. -/
def block : Reader Nat := do
  let t ← token
  match t.kind with
  | .block => pure t.stop
  | _ => fail t.start .expectedBlock

/-- Items of a list after its opening bracket; a comma may follow the last one. -/
def itemsFrom (stop : Nat) : List Token → Except SyntaxError (List String × List Token)
  | [] => .error ⟨stop, .unexpectedEnd⟩
  | t :: rest =>
    match t.kind with
    | .closeList => .ok ([], rest)
    | .string value =>
      match rest with
      | [] => .error ⟨stop, .unexpectedEnd⟩
      | separator :: later =>
        match separator.kind with
        | .comma =>
          match itemsFrom stop later with
          | .error e => .error e
          | .ok (values, left) => .ok (value :: values, left)
        | .closeList => .ok ([value], later)
        | _ => .error ⟨separator.start, .expectedSeparator⟩
    | _ => .error ⟨t.start, .expectedItem⟩

def items : Reader (List String) := itemsFrom

def list : Reader (List String) := do
  let t ← token
  if t.kind = .openList then items else fail t.start .expectedList

/-- What follows `create`, which stands at byte `start` of the text. -/
def create (text : List Char) (start : Nat) : Reader Statement := do
  let (what, position) ← word
  match DeclarationKind.ofWord? what with
  | some kind => do
    let name ← string
    let stop ← block
    pure (.declare kind name (String.ofList (Text.slice start stop text)))
  | none =>
    match NodeKind.ofKeyword? what with
    | some .policyClass => do pure (.createPolicyClass (← string))
    | some kind => do
      let name ← string
      keyword "in"
      pure (.createNode kind name (← list))
    | none => fail position (.cannotCreate what)

def statement (text : List Char) : Reader Statement := do
  let (first, position) ← word
  if first = "create" then create text position
  else if first = "assign" then do
    let ascendant ← string
    keyword "to"
    pure (.assign ascendant (← list))
  else if first = "deassign" then do
    let ascendant ← string
    keyword "from"
    pure (.deassign ascendant (← list))
  else if first = "associate" then do
    let ua ← string
    keyword "and"
    let target ← string
    keyword "with"
    pure (.associate ua target (.ofList (← list)))
  else if first = "set" then do
    keyword "resource"
    keyword "operations"
    pure (.setResourceOperations (.ofList (← list)))
  else if first = "delete" then do
    let (what, position) ← word
    match DeleteTarget.ofWord? what with
    | some target => do pure (.delete target (← string))
    | none => fail position (.cannotDelete what)
  else fail position (.unknownStatement first)

/-- A reader of this kind leaves the tokens it does not read as they are. -/
def Shrinks {α : Type} (read : Reader α) : Prop :=
  ∀ ⦃stop tokens a rest⦄, read stop tokens = .ok (a, rest) → rest <:+ tokens

private theorem shrinks_pure {α : Type} (a : α) : Shrinks (pure a : Reader α) := by
  intro stop tokens b rest result; cases result; exact List.suffix_refl _

private theorem shrinks_fail {α : Type} (position : Nat) (problem : Problem) :
    Shrinks (fail position problem : Reader α) := by
  intro stop tokens b rest result; cases result

theorem bind_eq_ok {α β : Type} {read : Reader α} {next : α → Reader β} {stop tokens b rest} :
    (read >>= next) stop tokens = .ok (b, rest) ↔
      ∃ a middle, read stop tokens = .ok (a, middle) ∧ next a stop middle = .ok (b, rest) := by
  change (match read stop tokens with | .error e => _ | .ok (a, rest) => _) = _ ↔ _
  split
  · rename_i e found; simp [found]
  · rename_i a middle found
    constructor
    · exact fun result => ⟨a, middle, found, result⟩
    · rintro ⟨_, _, same, result⟩
      cases found.symm.trans same; exact result

theorem bind_eq_error {α β : Type} {read : Reader α} {next : α → Reader β} {stop tokens e} :
    (read >>= next) stop tokens = .error e ↔
      read stop tokens = .error e ∨ ∃ a middle, read stop tokens = .ok (a, middle) ∧ next a stop middle = .error e := by
  change (match read stop tokens with | .error e => _ | .ok (a, rest) => _) = _ ↔ _
  split
  · rename_i x found
    simp [found]
  · rename_i a middle found
    constructor
    · exact fun refused => .inr ⟨a, middle, found, refused⟩
    · rintro (refused | ⟨_, _, same, refused⟩)
      · cases found.symm.trans refused
      · cases found.symm.trans same
        exact refused

private theorem shrinks_bind {α β : Type} {read : Reader α} {next : α → Reader β} (first : Shrinks read)
    (second : ∀ a, Shrinks (next a)) : Shrinks (read >>= next) := by
  intro stop tokens b rest result
  obtain ⟨a, middle, begun, ended⟩ := bind_eq_ok.mp result
  exact (second a ended).trans (first begun)

private theorem shrinks_token : Shrinks token := by
  intro stop tokens a rest result
  cases tokens with
  | nil => cases result
  | cons first later => cases result; exact List.suffix_cons _ _

private theorem length_token {stop tokens a rest} (result : token stop tokens = .ok (a, rest)) :
    rest.length < tokens.length := by
  cases tokens with
  | nil => cases result
  | cons first later => cases result; exact Nat.lt_succ_self _

private theorem shrinks_word : Shrinks word := by
  refine shrinks_bind shrinks_token fun t => ?_
  split
  · exact shrinks_pure _
  · exact shrinks_fail _ _

private theorem shrinks_keyword (expected : String) : Shrinks (keyword expected) := by
  refine shrinks_bind shrinks_word fun found => ?_
  dsimp only
  split
  · exact shrinks_pure _
  · exact shrinks_fail _ _

private theorem shrinks_string : Shrinks string := by
  refine shrinks_bind shrinks_token fun t => ?_
  split
  · exact shrinks_pure _
  · exact shrinks_fail _ _

private theorem shrinks_block : Shrinks block := by
  refine shrinks_bind shrinks_token fun t => ?_
  split
  · exact shrinks_pure _
  · exact shrinks_fail _ _

theorem shrinks_items : Shrinks items := by
  intro stop tokens a rest
  change itemsFrom stop tokens = _ → _
  fun_induction itemsFrom stop tokens generalizing a rest <;> grind [List.suffix_cons_iff]

private theorem shrinks_list : Shrinks list := by
  refine shrinks_bind shrinks_token fun t => ?_
  split
  · exact shrinks_items
  · exact shrinks_fail _ _

private theorem shrinks_create (text : List Char) (start : Nat) : Shrinks (create text start) := by
  refine shrinks_bind shrinks_word fun found => ?_
  dsimp only
  split
  · exact shrinks_bind shrinks_string fun _ => shrinks_bind shrinks_block fun _ => shrinks_pure _
  · split
    · exact shrinks_bind shrinks_string fun _ => shrinks_pure _
    · exact shrinks_bind shrinks_string fun _ => shrinks_bind (shrinks_keyword _) fun _ =>
        shrinks_bind shrinks_list fun _ => shrinks_pure _
    · exact shrinks_fail _ _

/-- A statement is a word and what it calls for. -/
private theorem statement_shape (text : List Char) :
    ∃ next : String × Nat → Reader Statement, statement text = word >>= next ∧ ∀ first, Shrinks (next first) := by
  refine ⟨_, rfl, fun first => ?_⟩
  have viaList {make : List String → Statement} : Shrinks (do pure (make (← list))) :=
    shrinks_bind shrinks_list fun _ => shrinks_pure _
  dsimp only
  split
  · exact shrinks_create _ _
  split
  · exact shrinks_bind shrinks_string fun _ => shrinks_bind (shrinks_keyword _) fun _ => viaList
  split
  · exact shrinks_bind shrinks_string fun _ => shrinks_bind (shrinks_keyword _) fun _ => viaList
  split
  · exact shrinks_bind shrinks_string fun _ => shrinks_bind (shrinks_keyword _) fun _ =>
      shrinks_bind shrinks_string fun _ => shrinks_bind (shrinks_keyword _) fun _ => viaList
  split
  · exact shrinks_bind (shrinks_keyword _) fun _ => shrinks_bind (shrinks_keyword _) fun _ => viaList
  split
  · refine shrinks_bind shrinks_word fun what => ?_
    split
    · exact shrinks_bind shrinks_string fun _ => shrinks_pure _
    · exact shrinks_fail _ _
  · exact shrinks_fail _ _

theorem shrinks_statement (text : List Char) : Shrinks (statement text) := by
  obtain ⟨next, shape, shrinks⟩ := statement_shape text
  rw [shape]
  exact shrinks_bind shrinks_word shrinks

/-- A statement takes at least the word it starts with. -/
theorem length_statement {text : List Char} {stop : Nat} {tokens : List Token} {s : Statement}
    {rest : List Token} (result : statement text stop tokens = .ok (s, rest)) : rest.length < tokens.length := by
  obtain ⟨next, shape, shrinks⟩ := statement_shape text
  rw [shape] at result
  obtain ⟨first, middle, begun, ended⟩ := bind_eq_ok.mp result
  obtain ⟨t, after, taken, named⟩ := bind_eq_ok.mp begun
  have less := length_token taken
  have kept : middle <:+ after := by
    cases kind : t.kind <;> rw [kind] at named
    case word => exact shrinks_pure _ named
    all_goals exact shrinks_fail _ _ named
  have others := (shrinks first ended).length_le
  have := kept.length_le
  omega

/-- All statements of a token list. -/
def statements (text : List Char) (stop : Nat) (tokens : List Token) : Except SyntaxError (List Statement) :=
  match tokens with
  | [] => .ok []
  | first :: more =>
    match _taken : statement text stop (first :: more) with
    | .error e => .error e
    | .ok (s, rest) =>
      match statements text stop rest with
      | .error e => .error e
      | .ok later => .ok (s :: later)
termination_by tokens.length
decreasing_by exact length_statement _taken

end Reader

/-- The statements a policy text holds. -/
def compile (source : String) : Except SyntaxError (List Statement) :=
  let text := source.toList
  match Token.scan 0 text with
  | .error e => .error e
  | .ok tokens => Reader.statements text (Text.byteLength text) tokens

end Statement
end PolicyLedger
