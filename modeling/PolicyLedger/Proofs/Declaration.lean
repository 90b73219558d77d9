import PolicyLedger.Language.Parser
import PolicyLedger.Proofs.TokenScan

/-!
The text that a declaration carries is this one declaration: by itself it compiles to just the
declaration that it was cut from, with itself as the text.
-/
namespace PolicyLedger.Statement

namespace Reader

/-- What is read after a token is read of the tokens behind it. -/
theorem token_bind_eq_ok {α : Type} {read : Token → Reader α} {stop : Nat} {tokens rest : List Token} {a : α} :
    (token >>= read) stop tokens = .ok (a, rest) ↔
      ∃ t later, tokens = t :: later ∧ read t stop later = .ok (a, rest) := by
  constructor
  · intro found
    obtain ⟨t, later, taken, found⟩ := bind_eq_ok.mp found
    cases tokens with
    | nil => cases taken
    | cons first others =>
      cases taken
      exact ⟨t, later, rfl, found⟩
  · rintro ⟨t, later, rfl, found⟩
    exact bind_eq_ok.mpr ⟨t, later, rfl, found⟩

theorem word_eq_ok {stop : Nat} {tokens rest : List Token} {name : String} {position : Nat} :
    word stop tokens = .ok ((name, position), rest) ↔
      ∃ t, tokens = t :: rest ∧ t.kind = .word name ∧ position = t.start := by
  rw [word, token_bind_eq_ok]
  constructor
  · rintro ⟨t, later, rfl, named⟩
    cases kind : t.kind <;> rw [kind] at named <;> cases named
    exact ⟨t, rfl, kind, rfl⟩
  · rintro ⟨t, rfl, kind, rfl⟩
    exact ⟨t, rest, rfl, by rw [kind]; rfl⟩

theorem string_eq_ok {stop : Nat} {tokens rest : List Token} {value : String} :
    string stop tokens = .ok (value, rest) ↔ ∃ t, tokens = t :: rest ∧ t.kind = .string value := by
  rw [string, token_bind_eq_ok]
  constructor
  · rintro ⟨t, later, rfl, named⟩
    cases kind : t.kind <;> rw [kind] at named <;> cases named
    exact ⟨t, rfl, kind⟩
  · rintro ⟨t, rfl, kind⟩
    exact ⟨t, rest, rfl, by rw [kind]; rfl⟩

theorem block_eq_ok {stop : Nat} {tokens rest : List Token} {position : Nat} :
    block stop tokens = .ok (position, rest) ↔ ∃ t, tokens = t :: rest ∧ t.kind = .block ∧ position = t.stop := by
  rw [block, token_bind_eq_ok]
  constructor
  · rintro ⟨t, later, rfl, named⟩
    cases kind : t.kind <;> rw [kind] at named <;> cases named
    exact ⟨t, rfl, kind, rfl⟩
  · rintro ⟨t, rfl, kind, rfl⟩
    exact ⟨t, rest, rfl, by rw [kind]; rfl⟩

/-- The tokens of a declaration: `create`, what is declared, its name and its body. -/
structure Declares (kind : DeclarationKind) (name : String) (tokens : Token × Token × Token × Token) : Prop where
  create : tokens.1.kind = .word "create"
  declared : ∃ what, tokens.2.1.kind = .word what ∧ DeclarationKind.ofWord? what = some kind
  named : tokens.2.2.1.kind = .string name
  body : tokens.2.2.2.kind = .block

/-- A reader that ends with a statement of another kind reads no declaration. -/
private theorem not_declare {α : Type} {read : Reader α} {make : α → Statement} {stop : Nat} {tokens rest : List Token}
    {kind : DeclarationKind} {name source : String} (other : ∀ a, (make a).kind ≠ .declare kind) :
    (read >>= fun a => pure (make a)) stop tokens ≠ .ok (.declare kind name source, rest) := by
  intro found
  obtain ⟨a, _, _, made⟩ := bind_eq_ok.mp found
  have same : make a = .declare kind name source := congrArg Prod.fst (Except.ok.inj made)
  exact other a (by rw [same]; rfl)

private theorem create_declare {text : List Char} {start stop : Nat} {tokens rest : List Token} {kind : DeclarationKind}
    {name source : String} (found : create text start stop tokens = .ok (.declare kind name source, rest)) :
    ∃ t₂ t₃ t₄ what, tokens = t₂ :: t₃ :: t₄ :: rest ∧ t₂.kind = .word what ∧
      DeclarationKind.ofWord? what = some kind ∧ t₃.kind = .string name ∧ t₄.kind = .block ∧
      source = String.ofList (Text.slice start t₄.stop text) := by
  obtain ⟨⟨what, position⟩, afterWhat, read, found⟩ := bind_eq_ok.mp found
  obtain ⟨t₂, rfl, isWord, rfl⟩ := word_eq_ok.mp read
  dsimp only at found
  cases known : DeclarationKind.ofWord? what with
  | some declared =>
    rw [known] at found
    obtain ⟨_, afterName, readName, inner⟩ := bind_eq_ok.mp found
    obtain ⟨t₃, rfl, isString⟩ := string_eq_ok.mp readName
    obtain ⟨_, afterBody, readBody, made⟩ := bind_eq_ok.mp inner
    obtain ⟨t₄, rfl, isBlock, rfl⟩ := block_eq_ok.mp readBody
    cases made
    exact ⟨t₂, t₃, t₄, what, rfl, isWord, known, isString, isBlock, rfl⟩
  | none =>
    rw [known] at found
    dsimp only at found
    cases node : NodeKind.ofKeyword? what with
    | none => rw [node] at found; cases found
    | some placed =>
      rw [node] at found
      cases placed with
      | policyClass => exact absurd found (not_declare fun _ same => by cases same)
      | _ =>
        obtain ⟨_, _, _, found⟩ := bind_eq_ok.mp found
        obtain ⟨_, _, _, found⟩ := bind_eq_ok.mp found
        exact absurd found (not_declare fun _ same => by cases same)

theorem statement_declare {text : List Char} {stop : Nat} {tokens rest : List Token} {kind : DeclarationKind}
    {name source : String} (found : statement text stop tokens = .ok (.declare kind name source, rest)) :
    ∃ t₁ t₂ t₃ t₄, tokens = t₁ :: t₂ :: t₃ :: t₄ :: rest ∧ Declares kind name (t₁, t₂, t₃, t₄) ∧
      source = String.ofList (Text.slice t₁.start t₄.stop text) := by
  obtain ⟨⟨first, position⟩, afterFirst, read, found⟩ := bind_eq_ok.mp found
  obtain ⟨t₁, rfl, isWord, rfl⟩ := word_eq_ok.mp read
  dsimp only at found
  split at found
  · rename_i isCreate
    obtain ⟨t₂, t₃, t₄, what, rfl, isWhat, known, isString, isBlock, rfl⟩ := create_declare found
    exact ⟨t₁, t₂, t₃, t₄, rfl, ⟨isCreate ▸ isWord, ⟨what, isWhat, known⟩, isString, isBlock⟩, rfl⟩
  split at found
  · obtain ⟨_, _, _, found⟩ := bind_eq_ok.mp found
    obtain ⟨_, _, _, found⟩ := bind_eq_ok.mp found
    exact absurd found (not_declare fun _ same => by cases same)
  split at found
  · obtain ⟨_, _, _, found⟩ := bind_eq_ok.mp found
    obtain ⟨_, _, _, found⟩ := bind_eq_ok.mp found
    exact absurd found (not_declare fun _ same => by cases same)
  split at found
  · obtain ⟨_, _, _, found⟩ := bind_eq_ok.mp found
    obtain ⟨_, _, _, found⟩ := bind_eq_ok.mp found
    obtain ⟨_, _, _, found⟩ := bind_eq_ok.mp found
    obtain ⟨_, _, _, found⟩ := bind_eq_ok.mp found
    exact absurd found (not_declare fun _ same => by cases same)
  split at found
  · obtain ⟨_, _, _, found⟩ := bind_eq_ok.mp found
    obtain ⟨_, _, _, found⟩ := bind_eq_ok.mp found
    exact absurd found (not_declare fun _ same => by cases same)
  split at found
  · obtain ⟨⟨what, _⟩, _, _, found⟩ := bind_eq_ok.mp found
    dsimp only at found
    cases target : DeleteTarget.ofWord? what with
    | none => rw [target] at found; cases found
    | some _ =>
      rw [target] at found
      exact absurd found (not_declare fun _ same => by cases same)
  · cases found

/-- The tokens of a declaration read as that declaration. -/
private theorem statement_of_declares (text : List Char) (stop : Nat) (rest : List Token) {t₁ t₂ t₃ t₄ : Token}
    {kind : DeclarationKind} {name : String} (declares : Declares kind name (t₁, t₂, t₃, t₄)) :
    statement text stop (t₁ :: t₂ :: t₃ :: t₄ :: rest) =
      .ok (.declare kind name (String.ofList (Text.slice t₁.start t₄.stop text)), rest) := by
  obtain ⟨isCreate, ⟨what, isWord, known⟩, isString, isBlock⟩ := declares
  refine bind_eq_ok.mpr ⟨("create", t₁.start), _, word_eq_ok.mpr ⟨t₁, rfl, isCreate, rfl⟩, ?_⟩
  refine bind_eq_ok.mpr ⟨(what, t₂.start), _, word_eq_ok.mpr ⟨t₂, rfl, isWord, rfl⟩, ?_⟩
  dsimp only
  rw [known]
  refine bind_eq_ok.mpr ⟨name, _, string_eq_ok.mpr ⟨t₃, rfl, isString⟩, ?_⟩
  exact bind_eq_ok.mpr ⟨t₄.stop, _, block_eq_ok.mpr ⟨t₄, rfl, isBlock, rfl⟩, rfl⟩

private theorem statements_cons {text : List Char} {stop : Nat} {first : Token} {more : List Token}
    {ss : List Statement} :
    statements text stop (first :: more) = .ok ss ↔
      ∃ s rest later, statement text stop (first :: more) = .ok (s, rest) ∧
        statements text stop rest = .ok later ∧ ss = s :: later := by
  rw [statements]
  split
  · rename_i e failed
    simp [failed]
  · rename_i s rest taken
    simp only [taken, Except.ok.injEq, Prod.mk.injEq]
    split
    · rename_i e failed
      constructor
      · intro found; cases found
      · rintro ⟨_, _, _, ⟨rfl, rfl⟩, found, _⟩
        cases failed.symm.trans found
    · rename_i later behind
      constructor
      · intro found
        exact ⟨s, rest, later, ⟨rfl, rfl⟩, behind, (Except.ok.inj found).symm⟩
      · rintro ⟨_, _, _, ⟨rfl, rfl⟩, found, rfl⟩
        cases behind.symm.trans found
        rfl

theorem statements_nil {text : List Char} {stop : Nat} : statements text stop [] = .ok [] := by rw [statements]

/-- A declaration among the statements of a token list stems from four tokens of it. -/
private theorem declares_of_mem {text : List Char} {stop : Nat} {tokens : List Token} {ss : List Statement}
    {kind : DeclarationKind} {name source : String} (found : statements text stop tokens = .ok ss)
    (member : .declare kind name source ∈ ss) :
    ∃ before t₁ t₂ t₃ t₄ later, tokens = before ++ t₁ :: t₂ :: t₃ :: t₄ :: later ∧
      Declares kind name (t₁, t₂, t₃, t₄) ∧ source = String.ofList (Text.slice t₁.start t₄.stop text) := by
  induction length : tokens.length using Nat.strongRecOn generalizing tokens ss with
  | _ n ih =>
    cases tokens with
    | nil =>
      rw [statements_nil] at found
      cases found
      cases member
    | cons first more =>
      obtain ⟨s, rest, later, taken, behind, rfl⟩ := statements_cons.mp found
      rcases List.mem_cons.mp member with rfl | member
      · obtain ⟨t₁, t₂, t₃, t₄, whole, declares, cut⟩ := statement_declare taken
        exact ⟨[], t₁, t₂, t₃, t₄, rest, whole, declares, cut⟩
      · obtain ⟨before, t₁, t₂, t₃, t₄, left, whole, declares, cut⟩ :=
          ih rest.length (length ▸ length_statement taken) behind member rfl
        obtain ⟨read, split⟩ := shrinks_statement text taken
        refine ⟨read ++ before, t₁, t₂, t₃, t₄, left, ?_, declares, cut⟩
        rw [← split, whole, List.append_assoc]

private theorem Declares.of_shift {kind : DeclarationKind} {name : String} {k : Nat} {t₁ t₂ t₃ t₄ : Token}
    (declares : Declares kind name (t₁.shift k, t₂.shift k, t₃.shift k, t₄.shift k)) :
    Declares kind name (t₁, t₂, t₃, t₄) :=
  ⟨declares.create, declares.declared, declares.named, declares.body⟩

end Reader

/-- A text that is the tokens of a declaration from end to end compiles to it, with itself as the text. -/
private theorem compile_of_declares {text : List Char} {t₁ t₂ t₃ t₄ : Token} {kind : DeclarationKind} {name : String}
    (scanned : Token.scan 0 text = .ok [t₁, t₂, t₃, t₄]) (declares : Reader.Declares kind name (t₁, t₂, t₃, t₄))
    (starts : t₁.start = 0) (stops : t₄.stop = Text.byteLength text) :
    compile (String.ofList text) = .ok [.declare kind name (String.ofList text)] := by
  have read := Reader.statement_of_declares text (Text.byteLength text) [] declares
  have whole : Text.slice t₁.start t₄.stop text = text := by
    rw [starts, stops]
    simpa using Text.slice_append [] text []
  rw [whole] at read
  unfold compile
  simp only [String.toList_ofList, scanned]
  exact Reader.statements_cons.mpr ⟨_, _, _, read, Reader.statements_nil, rfl⟩

/-- The text a declaration carries is a part of the text it was compiled from, and compiles to this
declaration and nothing else. -/
theorem compile_declaration {source text : String} {statements : List Statement} {kind : DeclarationKind}
    {name : String} (compiled : compile source = .ok statements) (member : .declare kind name text ∈ statements) :
    text.toList <:+: source.toList ∧ compile text = .ok [.declare kind name text] := by
  unfold compile at compiled
  dsimp only at compiled
  split at compiled
  · cases compiled
  rename_i tokens scanned
  obtain ⟨before, t₁, t₂, t₃, t₄, later, rfl, declares, cut⟩ := Reader.declares_of_mem compiled member
  obtain ⟨a, middle, c, plain, whole, begins, ends, alone, shifted⟩ := Token.scan_between [t₂, t₃] scanned
  have carried : text = String.ofList middle := by
    rw [cut, whole, begins, ends, Text.slice_append]
  -- The four tokens of the text alone are those of the declaration, moved to the beginning.
  obtain ⟨p₁, p₂, p₃, p₄, rfl⟩ : ∃ p₁ p₂ p₃ p₄, plain = [p₁, p₂, p₃, p₄] := by
    have count := congrArg List.length shifted
    rcases plain with _ | ⟨p₁, _ | ⟨p₂, _ | ⟨p₃, _ | ⟨p₄, _ | ⟨p₅, more⟩⟩⟩⟩⟩ <;> simp at count
    exact ⟨p₁, p₂, p₃, p₄, rfl⟩
  simp only [List.cons_append, List.nil_append, List.map_cons, List.map_nil, List.cons.injEq, and_true] at shifted
  obtain ⟨rfl, rfl, rfl, rfl⟩ := shifted
  have starts : p₁.start = 0 := by
    simp only [Token.shift] at begins
    omega
  have stops : p₄.stop = Text.byteLength middle := by
    simp only [Token.shift] at ends
    omega
  rw [carried]
  constructor
  · rw [String.toList_ofList, whole]
    exact ⟨a, c, by rw [List.append_assoc]⟩
  · exact compile_of_declares alone declares.of_shift starts stops

end PolicyLedger.Statement
