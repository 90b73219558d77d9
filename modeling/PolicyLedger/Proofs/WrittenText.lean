import PolicyLedger.Language.Render
import PolicyLedger.Proofs.JoinedText
import PolicyLedger.Proofs.ReadTokens

/-!
Statements written as text and read again. What can be written are the statements without quotes in their
names, items and rights, whose nodes are not placed if they are policy classes, and whose declarations carry
their own text. These are also the statements that texts compile to, so whatever compiles can be written down
and compiles to the same again.
-/
namespace PolicyLedger

/-- Whether a text can stand between quotes. -/
def Quotable (text : String) : Prop := '"' ∉ text.toList

instance : DecidablePred Quotable := fun _ => inferInstanceAs (Decidable (¬ _))

namespace Token

/-! ### Texts and the kinds of their tokens -/

/-- The text is tokens of these kinds, wherever it stands and whatever follows. -/
def Spells (text : List Char) (kinds : List TokenKind) : Prop :=
  ∀ start rest, ∃ tokens, tokens.map kind = kinds ∧
    scan start (text ++ rest) = (scan (start + Text.byteLength text) rest).map (tokens ++ ·)

private theorem spells_nil : Spells [] [] := by
  intro start rest
  refine ⟨[], rfl, ?_⟩
  rw [List.nil_append, Text.byteLength_nil, Nat.add_zero]
  cases scan start rest <;> rfl

private theorem Spells.append {a b : List Char} {first second : List TokenKind} (spelled : Spells a first)
    (followed : Spells b second) : Spells (a ++ b) (first ++ second) := by
  intro start rest
  obtain ⟨tokens, rfl, scanned⟩ := spelled start (b ++ rest)
  obtain ⟨tokens', rfl, scanned'⟩ := followed (start + Text.byteLength a) rest
  refine ⟨tokens ++ tokens', List.map_append, ?_⟩
  rw [List.append_assoc, scanned, scanned', Text.byteLength_append, Nat.add_assoc]
  cases scan (start + (Text.byteLength a + Text.byteLength b)) rest with
  | error e => rfl
  | ok later => simp [Except.map]

/-- A lexeme that ends by itself. -/
private theorem spells_lexeme {c : Char} {x : List Char} {token : Option TokenKind}
    (lexed : ∀ rest, lexeme c (x ++ rest) = .ok ⟨token, x.length⟩) : Spells (c :: x) token.toList := by
  intro start rest
  rw [List.cons_append, scan_lexeme (lexed rest), List.take_left' rfl, List.drop_left' rfl]
  cases token with
  | none =>
    refine ⟨[], rfl, ?_⟩
    cases scan (start + Text.byteLength (c :: x)) rest <;> rfl
  | some kind => exact ⟨[⟨kind, start, start + Text.byteLength (c :: x)⟩], rfl, rfl⟩

private theorem spells_blank : Spells [' '] [] := @spells_lexeme ' ' [] none fun _ => rfl

private theorem spells_open : Spells ['['] [.openList] := @spells_lexeme '[' [] (some .openList) fun _ => rfl

private theorem spells_close : Spells [']'] [.closeList] := @spells_lexeme ']' [] (some .closeList) fun _ => rfl

private theorem spells_comma : Spells [','] [.comma] := @spells_lexeme ',' [] (some .comma) fun _ => rfl

private theorem stringLength?_quoted {x : List Char} (plain : '"' ∉ x) (rest : List Char) :
    stringLength? (x ++ '"' :: rest) = some (x.length + 1) := by
  induction x with
  | nil => rfl
  | cons c x ih =>
    obtain ⟨other, others⟩ := not_or.mp (mt List.mem_cons.mpr plain)
    rw [List.cons_append, stringLength?, if_neg (Ne.symm other), ih others]
    rfl

private theorem spells_quoted {text : String} (plain : Quotable text) : Spells (quoted text).toList [.string text] := by
  have shape : (quoted text).toList = '"' :: (text.toList ++ ['"']) := by simp [quoted]
  rw [shape]
  refine @spells_lexeme _ _ (some (.string text)) fun rest => ?_
  rw [List.append_assoc, List.singleton_append, List.length_append, List.length_singleton]
  have lexed := lexed_iff.mpr (@Lexed.string '"' _ _ rfl (stringLength?_quoted plain rest))
  rwa [Nat.add_sub_cancel, List.take_left' rfl, String.ofList_toList] at lexed

/-- Whether a text is one word. -/
def isWord (text : String) : Bool :=
  match text.toList with
  | [] => false
  | c :: x => isWordStart c && x.all isWordPart

/-- A word ends with the blank behind it. -/
private theorem spells_word {text : String} (word : isWord text = true) : Spells (text ++ " ").toList [.word text] := by
  unfold isWord at word
  split at word
  · cases word
  rename_i c x shape
  obtain ⟨starts, goes⟩ := Bool.and_eq_true_iff.mp word
  have chars : (text ++ " ").toList = c :: (x ++ [' ']) := by simp [shape]
  intro start rest
  -- Without the blank, the word would go on into the text behind it.
  have ends : (x ++ ' ' :: rest).takeWhile isWordPart = x := by
    rw [List.takeWhile_append_of_pos (List.all_eq_true.mp goes), List.takeWhile_cons_of_neg (by decide),
      List.append_nil]
  have value : String.ofList (c :: x) = text := by rw [← shape, String.ofList_toList]
  obtain ⟨tokens, none_there, blank⟩ := spells_blank (start + Text.byteLength (c :: x)) rest
  obtain rfl : tokens = [] := List.map_eq_nil_iff.mp none_there
  rw [List.singleton_append] at blank
  have lexed := lexed_iff.mpr (@Lexed.word c (x ++ ' ' :: rest) starts)
  rw [ends, value] at lexed
  refine ⟨[⟨.word text, start, start + Text.byteLength (c :: x)⟩], rfl, ?_⟩
  rw [chars, List.cons_append, List.append_assoc, List.singleton_append, scan_lexeme lexed, List.take_left' rfl,
    List.drop_left' rfl, blank, ← List.cons_append, Text.byteLength_append, Nat.add_assoc]
  cases scan (start + (Text.byteLength (c :: x) + Text.byteLength [' '])) rest <;> rfl

/-- Words with a blank behind each. -/
private theorem spells_words (words : List String) {text : String} (plain : ∀ word ∈ words, isWord word = true)
    (spaced : text = String.join (words.map (· ++ " "))) : Spells text.toList (words.map .word) := by
  subst spaced
  induction words with
  | nil => exact spells_nil
  | cons first rest ih =>
    obtain ⟨word, others⟩ := List.forall_mem_cons.mp plain
    have split : (String.join ((first :: rest).map (· ++ " "))).toList =
      (first ++ " ").toList ++ (String.join (rest.map (· ++ " "))).toList := by simp
    rw [split]
    exact (spells_word word).append (ih others)

/-- A word between two blanks. -/
private theorem spells_between (word : String) {text : String} (plain : isWord word = true)
    (spaced : text = " " ++ (word ++ " ")) : Spells text.toList [.word word] := by
  rw [spaced, String.toList_append]
  exact spells_blank.append (spells_word plain)

/-- The kinds of the tokens of a list. -/
def listed (items : List String) : List TokenKind :=
  .openList :: ((items.map TokenKind.string).intersperse .comma ++ [.closeList])

private theorem spells_items {items : List String} (plain : ∀ item ∈ items, Quotable item) :
    Spells (String.intercalate ", " (items.map quoted)).toList ((items.map TokenKind.string).intersperse .comma) := by
  induction items with
  | nil => exact spells_nil
  | cons first rest ih =>
    obtain ⟨quotable, others⟩ := List.forall_mem_cons.mp plain
    cases rest with
    | nil =>
      rw [List.map_singleton, String.intercalate_singleton]
      exact spells_quoted quotable
    | cons second rest =>
      rw [List.map_cons, List.map_cons, String.intercalate_cons_cons, String.toList_append, String.toList_append,
        List.append_assoc]
      exact (spells_quoted quotable).append ((spells_comma.append spells_blank).append (ih others))

private theorem spells_bracketed {items : List String} (plain : ∀ item ∈ items, Quotable item) :
    Spells (bracketed items).toList (listed items) := by
  unfold bracketed
  rw [String.toList_append, String.toList_append, List.append_assoc]
  exact spells_open.append ((spells_items plain).append spells_close)

/-! ### Quotes in tokens -/

private theorem not_mem_take_of_stringLength? {x : List Char} {n : Nat} (found : stringLength? x = some n) :
    '"' ∉ x.take (n - 1) := by
  induction x generalizing n with
  | nil => cases found
  | cons c x ih =>
    rw [stringLength?] at found
    split at found
    · cases found
      exact List.not_mem_nil
    · rename_i other
      obtain ⟨m, inner, rfl⟩ := Option.map_eq_some_iff.mp found
      obtain ⟨positive, -⟩ := stringLength?_le inner
      obtain ⟨k, rfl⟩ : ∃ k, m = k + 1 := ⟨m - 1, by omega⟩
      rw [Nat.add_sub_cancel, List.take_succ_cons, List.mem_cons, not_or]
      exact ⟨Ne.symm other, ih inner⟩

private theorem quotable_of_lexeme {c : Char} {rest : List Char} {text : String} {more : Nat}
    (lexed : lexeme c rest = .ok ⟨some (.string text), more⟩) : Quotable text := by
  cases lexed_iff.mp lexed with
  | mark known => simp at known
  | string opens whole =>
    rw [Quotable, String.toList_ofList]
    exact not_mem_take_of_stringLength? whole

/-- No string among the tokens has a quote in it. -/
def Plain (tokens : List Token) : Prop := ∀ t ∈ tokens, ∀ text, t.kind = .string text → Quotable text

private theorem plain_scan {start : Nat} {text : List Char} {tokens : List Token}
    (found : scan start text = .ok tokens) :
    Plain tokens := by
  induction length : text.length using Nat.strongRecOn generalizing start text tokens with
  | _ n ih =>
    cases text with
    | nil =>
      rw [scan_nil] at found
      cases found
      exact fun _ absent => absurd absent List.not_mem_nil
    | cons c rest =>
      obtain ⟨token, more, later, lexed, behind, rfl⟩ := scan_cons.mp found
      have plain := ih (rest.drop more).length (by simp only [List.length_cons] at length; simp; omega) behind rfl
      cases token with
      | none => exact plain
      | some kind =>
        refine List.forall_mem_cons.mpr ⟨?_, plain⟩
        rintro text rfl
        exact quotable_of_lexeme lexed

end Token

namespace Statement
open Token

/-- What can be written so that it is read again: a policy class is not created in other nodes, and a
declaration is the text that it carries. -/
structure Writable (s : Statement) : Prop where
  plain : ∀ text ∈ s.strings, Quotable text
  placed : ∀ name descendants, s ≠ createNode .policyClass name descendants
  carried : ∀ kind name source, s = declare kind name source → compile source = .ok [declare kind name source]

/-- The kinds of the tokens of a statement that is no declaration. -/
def spelling : Statement → List TokenKind
  | createPolicyClass name => [.word "create", .word "pc", .string name]
  | createNode kind name descendants =>
    [.word "create", .word kind.keyword, .string name, .word "in"] ++ listed descendants
  | assign ascendant descendants => [.word "assign", .string ascendant, .word "to"] ++ listed descendants
  | deassign ascendant descendants => [.word "deassign", .string ascendant, .word "from"] ++ listed descendants
  | associate ua target rights =>
    [.word "associate", .string ua, .word "and", .string target, .word "with"] ++ listed rights.toList
  | setResourceOperations rights => [.word "set", .word "resource", .word "operations"] ++ listed rights.toList
  | declare .. => []
  | delete target name => [.word "delete", .word target.word, .string name]

/-- What is said of a name and, behind a joint, of a list. -/
private theorem spells_phrase {verb joint name : String} {items : List String} {said joined : List TokenKind}
    (first : Spells verb.toList said) (quotable : Quotable name) (second : Spells joint.toList joined)
    (others : ∀ item ∈ items, Quotable item) :
    Spells (verb ++ quoted name ++ joint ++ bracketed items).toList
      (said ++ (.string name :: (joined ++ listed items))) := by
  simp only [String.toList_append, List.append_assoc]
  exact first.append ((spells_quoted quotable).append (second.append (spells_bracketed others)))

private theorem spells_render {s : Statement} (plain : ∀ text ∈ s.strings, Quotable text)
    (bare : ∀ kind name source, s ≠ declare kind name source) : Spells s.render.toList s.spelling := by
  cases s with
  | createPolicyClass name =>
    obtain ⟨quotable, -⟩ := List.forall_mem_cons.mp plain
    have words : Spells "create pc ".toList [.word "create", .word "pc"] :=
      spells_words ["create", "pc"] (by decide) rfl
    have written := words.append (spells_quoted quotable)
    rwa [← String.toList_append] at written
  | createNode kind name descendants =>
    obtain ⟨quotable, others⟩ := List.forall_mem_cons.mp plain
    have words : Spells ("create " ++ kind.keyword ++ " ").toList [.word "create", .word kind.keyword] :=
      spells_words ["create", kind.keyword] (by cases kind <;> decide) (by cases kind <;> rfl)
    exact spells_phrase words quotable (spells_between "in" (by decide) rfl) others
  | assign ascendant descendants =>
    obtain ⟨quotable, others⟩ := List.forall_mem_cons.mp plain
    have verb : Spells "assign ".toList [.word "assign"] := spells_words ["assign"] (by decide) rfl
    exact spells_phrase verb quotable (spells_between "to" (by decide) rfl) others
  | deassign ascendant descendants =>
    obtain ⟨quotable, others⟩ := List.forall_mem_cons.mp plain
    have verb : Spells "deassign ".toList [.word "deassign"] := spells_words ["deassign"] (by decide) rfl
    exact spells_phrase verb quotable (spells_between "from" (by decide) rfl) others
  | associate ua target rights =>
    obtain ⟨quotable, plain⟩ := List.forall_mem_cons.mp plain
    obtain ⟨quotableTarget, others⟩ := List.forall_mem_cons.mp plain
    have verb : Spells "associate ".toList [.word "associate"] := spells_words ["associate"] (by decide) rfl
    have source : Spells ("associate " ++ quoted ua ++ " and ").toList
        [.word "associate", .string ua, .word "and"] := by
      simp only [String.toList_append, List.append_assoc]
      exact verb.append ((spells_quoted quotable).append (spells_between "and" (by decide) rfl))
    exact spells_phrase source quotableTarget (spells_between "with" (by decide) rfl) others
  | setResourceOperations rights =>
    have words : Spells "set resource operations ".toList [.word "set", .word "resource", .word "operations"] :=
      spells_words ["set", "resource", "operations"] (by decide) rfl
    have written := words.append (@spells_bracketed rights.toList plain)
    rwa [← String.toList_append] at written
  | declare kind name source => exact absurd rfl (bare kind name source)
  | delete target name =>
    obtain ⟨quotable, -⟩ := List.forall_mem_cons.mp plain
    have words : Spells ("delete " ++ target.word ++ " ").toList [.word "delete", .word target.word] := by
      cases target with
      | declaration kind => exact spells_words ["delete", kind.word] (by cases kind <;> decide) (by cases kind <;> rfl)
      | node => exact spells_words ["delete", "node"] (by decide) rfl
      | prohibition => exact spells_words ["delete", "prohibition"] (by decide) rfl
    have written := words.append (spells_quoted quotable)
    rwa [← String.toList_append] at written

/-! ### Reading what was written -/

namespace Reader

/-- Tokens of these kinds are read off the front of any others, and as `a`. -/
def Takes {α : Type} (kinds : List TokenKind) (read : Reader α) (a : α) : Prop :=
  ∀ stop tokens rest, tokens.map Token.kind = kinds → read stop (tokens ++ rest) = .ok (a, rest)

section Takes
variable {α β : Type} {kinds later : List TokenKind} {read : Reader α} {a : α} {b : β}

private theorem takes_pure (a : α) : Takes [] (pure a) a := by
  intro stop tokens rest none_there
  obtain rfl := List.map_eq_nil_iff.mp none_there
  rfl

private theorem Takes.bind {next : α → Reader β} (first : Takes kinds read a) (second : Takes later (next a) b) :
    Takes (kinds ++ later) (read >>= next) b := by
  intro stop tokens rest spelled
  obtain ⟨front, back, rfl, rfl, rfl⟩ := List.map_eq_append_iff.mp spelled
  rw [List.append_assoc]
  exact bind_eq_ok.mpr ⟨a, _, first stop front _ rfl, second stop back rest rfl⟩

private theorem takes_word {next : String × Nat → Reader β} {name : String}
    (second : ∀ position, Takes kinds (next (name, position)) b) : Takes (.word name :: kinds) (word >>= next) b := by
  intro stop tokens rest spelled
  obtain ⟨t, back, rfl, named, same⟩ := List.map_eq_cons_iff.mp spelled
  exact bind_eq_ok.mpr ⟨_, _, word_eq_ok.mpr ⟨t, rfl, named, rfl⟩, second t.start stop back rest same⟩

private theorem takes_keyword (expected : String) : Takes [.word expected] (keyword expected) () := by
  refine takes_word fun position => ?_
  dsimp only
  rw [if_pos rfl]
  exact takes_pure ()

private theorem takes_string (text : String) : Takes [.string text] string text := by
  intro stop tokens rest spelled
  obtain ⟨t, back, rfl, named, none_there⟩ := List.map_eq_cons_iff.mp spelled
  obtain rfl := List.map_eq_nil_iff.mp none_there
  exact string_eq_ok.mpr ⟨t, rfl, named⟩

private theorem takes_items (values : List String) :
    Takes ((values.map TokenKind.string).intersperse .comma ++ [.closeList]) items values := by
  intro stop tokens rest spelled
  change itemsFrom stop (tokens ++ rest) = _
  induction values generalizing tokens with
  | nil =>
    obtain ⟨t, back, rfl, closes, none_there⟩ := List.map_eq_cons_iff.mp spelled
    obtain rfl := List.map_eq_nil_iff.mp none_there
    simp [itemsFrom, closes]
  | cons first values ih =>
    cases values with
    | nil =>
      obtain ⟨t, _, rfl, isString, spelled⟩ := List.map_eq_cons_iff.mp spelled
      obtain ⟨t', _, rfl, closes, none_there⟩ := List.map_eq_cons_iff.mp spelled
      obtain rfl := List.map_eq_nil_iff.mp none_there
      simp [itemsFrom, isString, closes]
    | cons second values =>
      obtain ⟨t, _, rfl, isString, spelled⟩ := List.map_eq_cons_iff.mp spelled
      obtain ⟨t', back, rfl, separates, spelled⟩ := List.map_eq_cons_iff.mp spelled
      have others := ih back spelled
      simp [itemsFrom, isString, separates, others]

private theorem takes_list (values : List String) : Takes (listed values) list values := by
  intro stop tokens rest spelled
  obtain ⟨t, back, rfl, opens, same⟩ := List.map_eq_cons_iff.mp spelled
  refine bind_eq_ok.mpr ⟨t, back ++ rest, rfl, ?_⟩
  rw [if_pos opens]
  exact takes_items values stop back rest same

/-- What ends with a list. -/
private theorem takes_viaList (make : List String → β) (values : List String) :
    Takes (listed values) (do pure (make (← list))) (make values) := by
  rw [← List.append_nil (listed values)]
  exact (takes_list values).bind (takes_pure (make values))

end Takes

private theorem takes_statement (text : List Char) {s : Statement}
    (placed : ∀ name descendants, s ≠ createNode .policyClass name descendants)
    (bare : ∀ kind name source, s ≠ declare kind name source) : Takes s.spelling (statement text) s := by
  cases s with
  | createPolicyClass name =>
    refine takes_word fun position => takes_word fun position => ?_
    exact (takes_string name).bind (takes_pure _)
  | createNode kind name descendants =>
    refine takes_word fun position => takes_word fun position => ?_
    cases kind with
    | policyClass => exact absurd rfl (placed name descendants)
    | _ => exact (takes_string name).bind ((takes_keyword "in").bind (takes_viaList (createNode _ name) descendants))
  | assign ascendant descendants =>
    refine takes_word fun position => (takes_string ascendant).bind ?_
    exact (takes_keyword "to").bind (takes_viaList (assign ascendant) descendants)
  | deassign ascendant descendants =>
    refine takes_word fun position => (takes_string ascendant).bind ?_
    exact (takes_keyword "from").bind (takes_viaList (deassign ascendant) descendants)
  | associate ua target rights =>
    refine takes_word fun position => (takes_string ua).bind ?_
    refine (takes_keyword "and").bind ((takes_string target).bind ((takes_keyword "with").bind ?_))
    have taken := takes_viaList (fun items => associate ua target (.ofList items)) rights.toList
    rwa [SortedSet.ofList_toList] at taken
  | setResourceOperations rights =>
    refine takes_word fun position => (takes_keyword "resource").bind ((takes_keyword "operations").bind ?_)
    have taken := takes_viaList (fun items => setResourceOperations (.ofList items)) rights.toList
    rwa [SortedSet.ofList_toList] at taken
  | declare kind name source => exact absurd rfl (bare kind name source)
  | delete target name =>
    refine takes_word fun position => takes_word fun position => ?_
    have known : DeleteTarget.ofWord? target.word = some target := by
      cases target with
      | declaration kind => cases kind <;> rfl
      | _ => rfl
    dsimp only
    rw [known]
    exact (takes_string name).bind (takes_pure _)

end Reader

/-! ### What is read can be written -/

theorem writable_of_compile {source : String} {ss : List Statement} (compiled : compile source = .ok ss) :
    ∀ s ∈ ss, s.Writable := by
  intro s member
  obtain ⟨tokens, scanned⟩ := scan_of_compile compiled
  have read := compile_of_scan scanned ▸ compiled
  have admits : Reader.Admits Quotable (fun _ => True) tokens := fun t among => ⟨trivial, plain_scan scanned t among⟩
  obtain ⟨plain, placed⟩ := Reader.legible_of_statements admits read s member
  refine ⟨plain, placed, ?_⟩
  rintro kind name text rfl
  exact (compile_declaration compiled member).2

/-! ### Written and compiled again -/

theorem compile_render {s : Statement} (writable : s.Writable) : compile s.render = .ok [s] := by
  by_cases declares : ∃ kind name source, s = declare kind name source
  · obtain ⟨kind, name, source, rfl⟩ := declares
    exact writable.carried kind name source rfl
  · have bare : ∀ kind name source, s ≠ declare kind name source := fun kind name source same =>
      declares ⟨kind, name, source, same⟩
    obtain ⟨tokens, kinds, scanned⟩ := spells_render writable.plain bare 0 []
    have whole : Token.scan 0 s.render.toList = .ok tokens := by
      rw [List.append_nil, Token.scan_nil] at scanned
      rw [scanned]
      exact congrArg Except.ok (List.append_nil tokens)
    have taken := Reader.takes_statement s.render.toList writable.placed bare
      (Text.byteLength s.render.toList) tokens [] kinds
    rw [List.append_nil] at taken
    rw [compile_of_scan whole, Reader.statements_of_ok _ taken, Reader.statements_nil]
    rfl

theorem compile_renderAll {ss : List Statement} (writable : ∀ s ∈ ss, s.Writable) :
    compile (renderAll ss) = .ok ss := by
  induction ss with
  | nil =>
    have nothing : Token.scan 0 (renderAll []).toList = .ok [] := Token.scan_nil 0
    exact (compile_of_scan nothing).trans Reader.statements_nil
  | cons s rest ih =>
    obtain ⟨first, others⟩ := List.forall_mem_cons.mp writable
    cases rest with
    | nil =>
      rw [renderAll_singleton]
      exact compile_render first
    | cons next rest =>
      rw [renderAll_cons_cons, compile_below (compile_render first), ih others]
      rfl

/-- A list of statements is what some text compiles to exactly if all of them can be written, and then it is
what their own text compiles to. -/
theorem compile_iff_writable (ss : List Statement) :
    ((∃ source, compile source = .ok ss) ↔ ∀ s ∈ ss, s.Writable) ∧
    (compile (renderAll ss) = .ok ss ↔ ∀ s ∈ ss, s.Writable) := by
  constructor
  · constructor
    · rintro ⟨source, compiled⟩
      exact writable_of_compile compiled
    · intro writable
      exact ⟨renderAll ss, compile_renderAll writable⟩
  · constructor
    · intro compiled
      exact writable_of_compile compiled
    · intro writable
      exact compile_renderAll writable

example : renderAll [createPolicyClass "files", createNode .userAttribute "clerks" ["files"],
    associate "clerks" "letters" (.ofList ["write", "read"]), delete .node "ann"] =
  "create pc \"files\"\ncreate ua \"clerks\" in [\"files\"]\n" ++
  "associate \"clerks\" and \"letters\" with [\"read\", \"write\"]\ndelete node \"ann\"" := by decide +kernel

end Statement
end PolicyLedger
