import Mathlib.Data.List.Infix
import PolicyLedger.Proofs.Recording

/-!
The text of declarations, where it is carried and where it is kept. A compiled declaration carries its own
text, cut out of whatever stood around it, and this text compiles to the same declaration. Events carry such
a text or one with more around it: operations and routines are kept with the text of the event, obligations
with that of the declaration in it.
-/
namespace PolicyLedger
open PolicyLedger.Action

namespace Statement

/-- The text a statement carries, which only declarations do. -/
def carried? : Statement → Option String
  | declare _ _ text => some text
  | _ => none

/-- A text that a compiled statement carries is a part of the text that was compiled, and by itself it
compiles to this statement alone: same kind, same name and same text. -/
theorem carried_compiles_alone {source text : String} {statements : List Statement} {s : Statement}
    (compiled : compile source = .ok statements) (member : s ∈ statements) (carries : s.carried? = some text) :
    text.toList <:+: source.toList ∧ compile text = .ok [s] := by
  cases s with
  | declare kind name own =>
    cases carries
    exact compile_declaration compiled member
  | _ => cases carries

/-- A remark, a class and two declarations without a blank between them. There are quotes, braces and
letters of two bytes in the remark and in the bodies, and more behind the end. -/
def crowded : String :=
  "# \"é\u000acreate pc \"p\"; create obligation \"a\" \x7b on \"\x7d\" \x7b é \x7d \x7dcreate routine \u000a\"b\"\x7b # \x7b \x7d \x7d; # \x7d"

/-- Its last declaration carries its text as it stands, with the line break and the inner braces. -/
theorem crowded_last :
    let text := "create routine \u000a\"b\"\x7b # \x7b \x7d \x7d"
    text.toList <:+: crowded.toList ∧ compile text = .ok [.declare .routine "b" text] := by
  have readable : read crowded = .ok [.createPolicyClass "p",
      .declare .obligation "a" "create obligation \"a\" \x7b on \"\x7d\" \x7b é \x7d \x7d",
      .declare .routine "b" "create routine \u000a\"b\"\x7b # \x7b \x7d \x7d"] := by
    decide +kernel
  exact carried_compiles_alone (mapError_eq_ok.mp readable) (.tail _ (.tail _ (.head _))) rfl

end Statement

namespace Graph

variable {g after : Graph} {kind : DeclarationKind} {author : Author} {name text : String}

/-- Whether a declaration of this kind has this name. -/
def declares (g : Graph) (name : String) : DeclarationKind → Bool
  | .obligation => g.obligations.contains name
  | .operation => g.operations.contains name
  | .routine => g.routines.contains name

/-- The graph with one more declaration and nothing else changed. -/
def declare (g : Graph) (author : Author) (name text : String) : DeclarationKind → Graph
  | .obligation => { g with obligations := g.obligations.insert name ⟨author, name, text⟩ }
  | .operation => { g with operations := g.operations.insert name ⟨name, .declared text⟩ }
  | .routine => { g with routines := g.routines.insert name ⟨name, .declared text⟩ }

/-- A declaration is added exactly where its name is free. -/
private theorem apply_declared {o : Outcome} : g.apply (Statement.declared author name text kind) = .ok (o, after) ↔
    g.declares name kind = false ∧ o = .applied ∧ after = g.declare author name text kind := by
  rw [apply_eq_ok]
  constructor
  · intro made
    cases kind <;> cases made with | _ free => exact ⟨free, rfl, rfl⟩
  · rintro ⟨free, rfl, rfl⟩
    cases kind with
    | obligation => exact .createObligation free
    | operation => exact .createOperation free
    | routine => exact .createRoutine free

/-- Different texts make different graphs. -/
private theorem declare_inj {other : String} :
    g.declare author name text kind = g.declare author name other kind ↔ text = other := by
  constructor
  · intro same
    cases kind with
    | obligation =>
      have kept := congrArg (fun h => (h.obligations.get? name).map Obligation.source) same
      simpa [declare, SortedMap.get?_insert] using kept
    | operation =>
      have kept := congrArg (fun h => (h.operations.get? name).map Operation.definition) same
      simpa [declare, SortedMap.get?_insert] using kept
    | routine =>
      have kept := congrArg (fun h => (h.routines.get? name).map Routine.definition) same
      simpa [declare, SortedMap.get?_insert] using kept
  · rintro rfl
    rfl

end Graph

namespace Event
open PolicyLedger.Graph

variable {g after : Graph} {kind : DeclarationKind} {author : Author} {name source : String}

/-- The event that tells of a declaration. Only that of an obligation names an author. -/
def declared (author : Author) (name source : String) : DeclarationKind → Event
  | .obligation => obligationCreated ⟨author, name, source⟩
  | .operation => operationCreated name source
  | .routine => routineCreated name source

/-- The text kept of an event that carries `source`, which compiles to a declaration with this text. -/
def kept (source text : String) : DeclarationKind → String
  | .obligation => text
  | .operation | .routine => source

/-- A carried text passes if it compiles to the one declaration that the event names. -/
theorem declaration_eq_ok {s : Statement} : declaration kind name source = .ok s ↔
    ∃ text, Statement.compile source = .ok [.declare kind name text] ∧ s = .declare kind name text := by
  constructor
  · intro passed
    unfold declaration at passed
    split at passed
    · cases passed
    · rename_i found named text readable
      split at passed
      · rename_i same
        obtain ⟨rfl, rfl⟩ := same
        exact ⟨text, mapError_eq_ok.mp readable, (Except.ok.inj passed).symm⟩
      · cases passed
    · cases passed
  · rintro ⟨text, compiled, rfl⟩
    unfold declaration Statement.read
    rw [compiled]
    exact if_pos ⟨rfl, rfl⟩

/-- The change of an event with a carried text, once the text passed. -/
private theorem changed_declared {text : String} :
    effect.changed g (Statement.declared author name text kind) = .ok after ↔
      g.declares name kind = false ∧ after = g.declare author name text kind := by
  rw [changed_eq_ok]
  constructor
  · rintro ⟨_, made⟩
    obtain ⟨free, _, same⟩ := apply_declared.mp made
    exact ⟨free, same⟩
  · rintro ⟨free, rfl⟩
    exact ⟨_, apply_declared.mpr ⟨free, rfl, rfl⟩⟩

/-- What an event that tells of a declaration does to a graph. -/
private theorem effect_declared : effect g (declared author name source kind) = match declaration kind name source with
    | .error x => .error x
    | .ok (.declare _ _ text) => effect.changed g (Statement.declared author name (kept source text kind) kind)
    | .ok _ => .error (.invalidSource (.declare kind) name) := by
  cases passed : declaration kind name source with
  | error x => cases kind <;> simp only [declared, effect, passed]
  | ok s =>
    obtain ⟨text, _, rfl⟩ := declaration_eq_ok.mp passed
    cases kind <;> simp only [declared, effect, passed] <;> rfl

theorem replay_declared : g.replay (declared author name source kind) = .ok after ↔
    ∃ text, Statement.compile source = .ok [.declare kind name text] ∧ g.declares name kind = false ∧
      after = g.declare author name (kept source text kind) kind := by
  rw [replay_eq_effect, effect_declared]
  constructor
  · intro replayed
    cases passed : declaration kind name source with
    | error x =>
      rw [passed] at replayed
      cases replayed
    | ok s =>
      obtain ⟨text, compiled, rfl⟩ := declaration_eq_ok.mp passed
      rw [passed] at replayed
      exact ⟨text, compiled, changed_declared.mp replayed⟩
  · rintro ⟨text, compiled, made⟩
    rw [declaration_eq_ok.mpr ⟨text, compiled, rfl⟩]
    exact changed_declared.mpr made

/-- What is kept compiles to the same as what was carried. -/
private theorem compile_kept {text : String} (compiled : Statement.compile source = .ok [.declare kind name text]) :
    Statement.compile (kept source text kind) = Statement.compile source := by
  cases kind with
  | obligation => exact (Statement.compile_declaration compiled (.head _)).2.trans compiled.symm
  | operation => rfl
  | routine => rfl

/-- The text of the event itself is kept by operations and routines, and by an obligation if there is nothing
around its declaration. -/
private theorem kept_eq_source {text : String} (compiled : Statement.compile source = .ok [.declare kind name text]) :
    kept source text kind = source ↔
      (kind = .obligation → Statement.compile source = .ok [.declare .obligation name source]) := by
  cases kind with
  | obligation =>
    constructor
    · rintro same -
      rw [compiled, show text = source from same]
    · intro alone
      cases compiled.symm.trans (alone rfl)
      rfl
  | operation => simp [kept]
  | routine => simp [kept]

/-- The event of a declaration is repeated exactly if the text it carries compiles to one declaration of this
kind and name and the name is free. This adds the declaration and changes nothing else; a failure changes
nothing at all. The declaration is kept with exactly the text of the event, except for an obligation that has
something around its declaration, of which only the declaration is kept. Either compiles to the same. -/
theorem declared_keeps (kind : DeclarationKind) (author : Author) (name source : String) (s : Store) :
    let e := declared author name source kind
    (∀ s', e.replay.outcome s = (.ok (), s') ↔
      ∃ text, Statement.compile source = .ok [.declare kind name text] ∧ s.graph.declares name kind = false ∧
        s' = { s with graph := s.graph.declare author name (kept source text kind) kind }) ∧
    (∀ x s', e.replay.outcome s = (.error x, s') → s' = s) ∧
    (∀ s', e.replay.outcome s = (.ok (), s') →
      (s' = { s with graph := s.graph.declare author name source kind } ↔
        (kind = .obligation → Statement.compile source = .ok [.declare .obligation name source]))) ∧
    ∀ text, Statement.compile source = .ok [.declare kind name text] →
      Statement.compile (kept source text kind) = Statement.compile source := by
  intro e
  have accepted (s' : Store) : e.replay.outcome s = (.ok (), s') ↔
      ∃ text, Statement.compile source = .ok [.declare kind name text] ∧ s.graph.declares name kind = false ∧
        s' = { s with graph := s.graph.declare author name (kept source text kind) kind } := by
    rw [replay_outcome]
    constructor
    · intro told
      cases replayed : s.graph.replay e with
      | error x => rw [replayed] at told; cases told
      | ok after =>
        rw [replayed] at told
        obtain ⟨text, compiled, free, rfl⟩ := replay_declared.mp replayed
        exact ⟨text, compiled, free, (Prod.mk.inj told).2.symm⟩
    · rintro ⟨text, compiled, free, rfl⟩
      rw [replay_declared.mpr ⟨text, compiled, free, rfl⟩]
      rfl
  refine ⟨accepted, ?_, ?_, fun text compiled => compile_kept compiled⟩
  · intro x s' told
    rw [replay_outcome] at told
    cases replayed : s.graph.replay e with
    | error x => rw [replayed] at told; exact (Prod.mk.inj told).2.symm
    | ok after => rw [replayed] at told; cases told
  · intro s' told
    obtain ⟨text, compiled, free, rfl⟩ := (accepted s').mp told
    rw [← kept_eq_source compiled, Store.mk.injEq, declare_inj]
    exact ⟨And.left, fun same => ⟨same, rfl⟩⟩

/-- A routine is kept with the blanks and the remark around it. -/
theorem padded_routine_kept :
    let source := " create routine \"r\" \x7b\x7d # end"
    (routineCreated "r" source).replay.outcome {} =
      (.ok (), { graph := (∅ : Graph).declare default "r" source .routine }) := by
  intro source
  have compiled : Statement.read source = .ok [.declare .routine "r" "create routine \"r\" \x7b\x7d"] := by
    decide +kernel
  exact ((declared_keeps .routine default "r" source {}).1 _).mpr ⟨_, mapError_eq_ok.mp compiled, rfl, rfl⟩

/-- An obligation with a blank before it is accepted, but the blank is not kept. -/
theorem padded_obligation_cut :
    let source := " create obligation \"audit\" \x7b \x7d"
    let after := ((obligationCreated ⟨⟨⟨1⟩, none⟩, "audit", source⟩).replay.outcome {}).2
    ((obligationCreated ⟨⟨⟨1⟩, none⟩, "audit", source⟩).replay.outcome {}).1 = .ok () ∧
      after ≠ { graph := (∅ : Graph).declare ⟨⟨1⟩, none⟩ "audit" source .obligation } ∧
      after.graph.obligations.get? "audit" = some ⟨⟨⟨1⟩, none⟩, "audit", "create obligation \"audit\" \x7b \x7d"⟩ := by
  decide +kernel

end Event
end PolicyLedger
