import Mathlib.Data.List.Infix
import PolicyLedger.Proofs.Declaration
import PolicyLedger.Proofs.Lines

/-!
Texts put together. Reading a statement looks at nothing in front of its first token or behind its last one, so
statements can be read amid others as if they stood alone. A text below one that compiles therefore adds its
own statements, and what is wrong with it is what is wrong with it alone, further on by what stands above it.
-/
namespace PolicyLedger

namespace Text

private theorem dropBytes_zero (a : List Char) : dropBytes 0 a = a := dropBytes_append [] a

private theorem takeBytes_zero (a : List Char) : takeBytes 0 a = [] := takeBytes_append [] a

private theorem dropBytes_add (a b : List Char) (n : Nat) : dropBytes (byteLength a + n) (a ++ b) = dropBytes n b := by
  induction a with
  | nil => simp
  | cons c a ih => simp [dropBytes, Nat.add_assoc, ih]

private theorem dropBytes_within {a : List Char} {n : Nat} (b : List Char) (within : n ≤ byteLength a) :
    dropBytes n (a ++ b) = dropBytes n a ++ b := by
  induction a generalizing n with
  | nil =>
    obtain rfl : n = 0 := Nat.le_zero.mp within
    exact dropBytes_zero b
  | cons c a ih =>
    simp only [byteLength_cons] at within
    by_cases whole : c.utf8Size ≤ n
    · simp only [List.cons_append, dropBytes, if_pos whole]
      exact ih (by omega)
    · simp only [List.cons_append, dropBytes, if_neg whole]

private theorem takeBytes_within {a : List Char} {n : Nat} (b : List Char) (within : n ≤ byteLength a) :
    takeBytes n (a ++ b) = takeBytes n a := by
  induction a generalizing n with
  | nil =>
    obtain rfl : n = 0 := Nat.le_zero.mp within
    exact takeBytes_zero b
  | cons c a ih =>
    simp only [byteLength_cons] at within
    by_cases whole : c.utf8Size ≤ n
    · simp only [List.cons_append, takeBytes, if_pos whole]
      rw [ih (by omega)]
    · simp only [List.cons_append, takeBytes, if_neg whole]

private theorem le_byteLength_dropBytes (n : Nat) (a : List Char) : byteLength a - n ≤ byteLength (dropBytes n a) := by
  induction a generalizing n with
  | nil => simp
  | cons c a ih =>
    simp only [byteLength_cons, dropBytes]
    split
    · have := ih (n - c.utf8Size)
      omega
    · simp only [byteLength_cons]
      omega

/-- A piece of a text is a piece of every text that holds it, further on by what stands in front. -/
private theorem slice_amid {a b c : List Char} {start stop : Nat} (within : stop ≤ byteLength b) :
    slice (byteLength a + start) (byteLength a + stop) (a ++ (b ++ c)) = slice start stop b := by
  unfold slice
  rw [dropBytes_add, Nat.add_sub_add_left]
  by_cases ahead : start ≤ stop
  · rw [dropBytes_within c (by omega)]
    refine takeBytes_within c ?_
    have := le_byteLength_dropBytes start b
    omega
  · rw [Nat.sub_eq_zero_of_le (by omega), takeBytes_zero, takeBytes_zero]

end Text

namespace Statement
open Token

namespace Reader

/-- Two readers, of which the second is for a text that holds the text of the first from its byte `k` on and
goes on behind it. On tokens that stop within the `n` bytes of the first text, the second reads what the first
reads and leaves alone what follows; and it refuses what the first refuses if nothing follows. -/
structure Moves (n k : Nat) {α β : Type} (R : α → β → Prop) (read : Reader α) (moved : Reader β) : Prop where
  reads : ∀ {stop tokens a rest}, (∀ t ∈ tokens, t.stop ≤ n) → read stop tokens = .ok (a, rest) →
    (∀ t ∈ rest, t.stop ≤ n) ∧ ∃ b, R a b ∧
      ∀ stop' more, moved stop' (tokens.map (shift k) ++ more) = .ok (b, rest.map (shift k) ++ more)
  refuses : ∀ {stop tokens e}, (∀ t ∈ tokens, t.stop ≤ n) → read stop tokens = .error e →
    moved (k + stop) (tokens.map (shift k)) = .error (e.shift k)

section Moves
variable {n k : Nat} {α β α' β' : Type} {R : α → β → Prop} {S : α' → β' → Prop}

private theorem moves_pure {a : α} {b : β} (same : R a b) : Moves n k R (pure a) (pure b) where
  reads within found := by
    cases found
    exact ⟨within, b, same, fun _ _ => rfl⟩
  refuses _ found := by cases found

private theorem moves_fail (position : Nat) (problem : Problem) :
    Moves n k R (fail position problem) (fail (k + position) problem) where
  reads _ found := by cases found
  refuses _ found := by
    cases found
    rfl

private theorem moves_bind {read : Reader α} {moved : Reader β} {next : α → Reader α'} {next' : β → Reader β'}
    (first : Moves n k R read moved) (second : ∀ a b, R a b → Moves n k S (next a) (next' b)) :
    Moves n k S (read >>= next) (moved >>= next') where
  reads within found := by
    obtain ⟨a, middle, begun, ended⟩ := bind_eq_ok.mp found
    obtain ⟨kept, b, same, onward⟩ := first.reads within begun
    obtain ⟨left, d, alike, further⟩ := (second a b same).reads kept ended
    exact ⟨left, d, alike, fun stop' more => bind_eq_ok.mpr ⟨b, _, onward stop' more, further stop' more⟩⟩
  refuses {stop tokens e} within found := by
    rcases bind_eq_error.mp found with refused | ⟨a, middle, begun, ended⟩
    · exact bind_eq_error.mpr (.inl (first.refuses within refused))
    · obtain ⟨kept, b, same, onward⟩ := first.reads within begun
      have reached := onward (k + stop) []
      rw [List.append_nil, List.append_nil] at reached
      exact bind_eq_error.mpr (.inr ⟨b, _, reached, (second a b same).refuses kept ended⟩)

private theorem moves_ite {p : Prop} [Decidable p] {yes no : Reader α} {yes' no' : Reader β}
    (first : Moves n k R yes yes')
    (second : Moves n k R no no') : Moves n k R (if p then yes else no) (if p then yes' else no') := by
  split
  · exact first
  · exact second

private theorem moves_token : Moves n k (fun t t' => t.stop ≤ n ∧ t' = t.shift k) token token where
  reads {stop tokens a rest} within found := by
    cases tokens with
    | nil => cases found
    | cons t later =>
      cases found
      obtain ⟨first, others⟩ := List.forall_mem_cons.mp within
      exact ⟨others, a.shift k, ⟨first, rfl⟩, fun _ _ => rfl⟩
  refuses {stop tokens e} _ found := by
    cases tokens with
    | nil =>
      cases found
      rfl
    | cons t later => cases found

private theorem moves_word : Moves n k (fun found found' => found' = (found.1, k + found.2)) word word := by
  refine moves_bind moves_token ?_
  rintro t _ ⟨-, rfl⟩
  dsimp only [shift]
  cases t.kind with
  | word name => exact moves_pure rfl
  | _ => exact moves_fail _ _

private theorem moves_keyword (expected : String) : Moves n k Eq (keyword expected) (keyword expected) := by
  refine moves_bind moves_word ?_
  rintro ⟨found, position⟩ _ rfl
  exact moves_ite (moves_pure rfl) (moves_fail _ _)

private theorem moves_string : Moves n k Eq string string := by
  refine moves_bind moves_token ?_
  rintro t _ ⟨-, rfl⟩
  dsimp only [shift]
  cases t.kind with
  | string value => exact moves_pure rfl
  | _ => exact moves_fail _ _

private theorem moves_block : Moves n k (fun stop stop' => stop ≤ n ∧ stop' = k + stop) block block := by
  refine moves_bind moves_token ?_
  rintro t _ ⟨within, rfl⟩
  dsimp only [shift]
  cases t.kind with
  | block => exact moves_pure ⟨within, rfl⟩
  | _ => exact moves_fail _ _

private theorem itemsFrom_moved {stop : Nat} {tokens rest : List Token} {values : List String}
    (found : itemsFrom stop tokens = .ok (values, rest)) (stop' : Nat) (more : List Token) :
    itemsFrom stop' (tokens.map (shift k) ++ more) = .ok (values, rest.map (shift k) ++ more) := by
  fun_induction itemsFrom stop tokens generalizing values rest <;> simp_all [itemsFrom, shift]

private theorem itemsFrom_refused {stop : Nat} {tokens : List Token} {e : SyntaxError}
    (found : itemsFrom stop tokens = .error e) :
    itemsFrom (k + stop) (tokens.map (shift k)) = .error (e.shift k) := by
  fun_induction itemsFrom stop tokens generalizing e <;> cases found <;> simp_all [itemsFrom, shift, SyntaxError.shift]

private theorem moves_items : Moves n k Eq items items where
  reads within found :=
    ⟨fun t member => within t ((shrinks_items found).mem member), _, rfl, itemsFrom_moved found⟩
  refuses _ found := itemsFrom_refused found

private theorem moves_list : Moves n k Eq list list := by
  refine moves_bind moves_token ?_
  rintro t _ ⟨-, rfl⟩
  exact moves_ite moves_items (moves_fail _ _)

/-- A reader that ends with a list moves if all before it does. -/
private theorem moves_viaList (make : List String → Statement) :
    Moves n k Eq (do pure (make (← list))) (do pure (make (← list))) :=
  moves_bind moves_list fun _ _ same => moves_pure (congrArg make same)

end Moves

section Amid
variable (before text after : List Char)

private theorem moves_create (start : Nat) :
    Moves (Text.byteLength text) (Text.byteLength before) Eq (create text start)
      (create (before ++ (text ++ after)) (Text.byteLength before + start)) := by
  refine moves_bind moves_word ?_
  rintro ⟨what, position⟩ _ rfl
  dsimp only
  cases DeclarationKind.ofWord? what with
  | some kind =>
    refine moves_bind moves_string ?_
    rintro name _ rfl
    refine moves_bind moves_block ?_
    rintro stop _ ⟨within, rfl⟩
    -- What a declaration carries is cut from the whole text, between places that have moved.
    exact moves_pure (by rw [Text.slice_amid within])
  | none =>
    dsimp only
    cases NodeKind.ofKeyword? what with
    | none => exact moves_fail _ _
    | some kind =>
      cases kind with
      | policyClass => exact moves_bind moves_string fun _ _ same => moves_pure (congrArg _ same)
      | _ =>
        refine moves_bind moves_string ?_
        rintro name _ rfl
        exact moves_bind (moves_keyword "in") fun _ _ _ => moves_viaList _

private theorem moves_statement :
    Moves (Text.byteLength text) (Text.byteLength before) Eq (statement text)
      (statement (before ++ (text ++ after))) := by
  refine moves_bind moves_word ?_
  rintro ⟨first, position⟩ _ rfl
  refine moves_ite (moves_create before text after position) ?_
  refine moves_ite ?_ (moves_ite ?_ (moves_ite ?_ (moves_ite ?_ (moves_ite ?_ (moves_fail _ _)))))
  · refine moves_bind moves_string ?_
    rintro ascendant _ rfl
    exact moves_bind (moves_keyword "to") fun _ _ _ => moves_viaList _
  · refine moves_bind moves_string ?_
    rintro ascendant _ rfl
    exact moves_bind (moves_keyword "from") fun _ _ _ => moves_viaList _
  · refine moves_bind moves_string ?_
    rintro ua _ rfl
    refine moves_bind (moves_keyword "and") fun _ _ _ => ?_
    refine moves_bind moves_string ?_
    rintro target _ rfl
    exact moves_bind (moves_keyword "with") fun _ _ _ => moves_viaList _
  · refine moves_bind (moves_keyword "resource") fun _ _ _ => ?_
    exact moves_bind (moves_keyword "operations") fun _ _ _ => moves_viaList _
  · refine moves_bind moves_word ?_
    rintro ⟨what, position⟩ _ rfl
    dsimp only
    cases DeleteTarget.ofWord? what with
    | none => exact moves_fail _ _
    | some target => exact moves_bind moves_string fun _ _ same => moves_pure (congrArg _ same)

/-- Statements are read one after the other. -/
theorem statements_of_ok {stop : Nat} {tokens rest : List Token} {s : Statement}
    (taken : statement text stop tokens = .ok (s, rest)) :
    statements text stop tokens = (statements text stop rest).map (s :: ·) := by
  cases tokens with
  | nil => cases taken
  | cons first more =>
    rw [statements]
    split
    · rename_i e refused
      cases taken.symm.trans refused
    · rename_i s' rest' same
      cases taken.symm.trans same
      cases statements text stop rest <;> rfl

private theorem statements_of_error {stop : Nat} {first : Token} {more : List Token} {e : SyntaxError}
    (refused : statement text stop (first :: more) = .error e) : statements text stop (first :: more) = .error e := by
  rw [statements]
  split
  · rename_i e' same
    cases refused.symm.trans same
    rfl
  · rename_i s rest taken
    cases refused.symm.trans taken

/-- Statements of a text are statements of a text that holds it, before those of what stands behind it. -/
private theorem statements_moved {stop : Nat} {tokens : List Token} {ss : List Statement}
    (within : ∀ t ∈ tokens, t.stop ≤ Text.byteLength text) (found : statements text stop tokens = .ok ss)
    (stop' : Nat) (more : List Token) :
    statements (before ++ (text ++ after)) stop' (tokens.map (shift (Text.byteLength before)) ++ more) =
      (statements (before ++ (text ++ after)) stop' more).map (ss ++ ·) := by
  fun_induction statements text stop tokens generalizing ss
  case case1 =>
    cases found
    rw [List.map_nil, List.nil_append]
    cases statements (before ++ (text ++ after)) stop' more <;> rfl
  case case2 => cases found
  case case3 => cases found
  case case4 first rest s left taken later others ih =>
    cases found
    obtain ⟨kept, _, rfl, onward⟩ := (moves_statement before text after).reads within taken
    rw [statements_of_ok _ (onward stop' more), ih kept others]
    cases statements (before ++ (text ++ after)) stop' more <;> rfl

/-- What is refused in a text is refused in a text that ends with it. -/
private theorem statements_refused {stop : Nat} {tokens : List Token} {e : SyntaxError}
    (within : ∀ t ∈ tokens, t.stop ≤ Text.byteLength text) (refused : statements text stop tokens = .error e) :
    statements (before ++ (text ++ after)) (Text.byteLength before + stop)
      (tokens.map (shift (Text.byteLength before))) = .error (e.shift (Text.byteLength before)) := by
  fun_induction statements text stop tokens generalizing e
  case case1 => cases refused
  case case2 first rest e' failed =>
    cases refused
    exact statements_of_error _ ((moves_statement before text after).refuses within failed)
  case case3 first rest s left taken e' failed ih =>
    cases refused
    obtain ⟨kept, _, rfl, onward⟩ := (moves_statement before text after).reads within taken
    have reached := onward (Text.byteLength before + stop) []
    rw [List.append_nil, List.append_nil] at reached
    rw [statements_of_ok _ reached, ih kept failed]
    rfl
  case case4 => cases refused

end Amid
end Reader

private theorem scan_within {start : Nat} {text : List Char} {tokens : List Token}
    (found : scan start text = .ok tokens) :
    ∀ t ∈ tokens, t.stop ≤ start + Text.byteLength text := by
  intro t member
  obtain ⟨before, later, rfl⟩ := List.append_of_mem member
  obtain ⟨a, b, rfl, stops, -⟩ := scan_upTo before found
  rw [stops, Text.byteLength_append]
  omega

theorem compile_of_scan {source : String} {tokens : List Token} (scanned : scan 0 source.toList = .ok tokens) :
    compile source = Reader.statements source.toList (Text.byteLength source.toList) tokens := by
  unfold compile
  dsimp only
  rw [scanned]

theorem compile_of_refused {source : String} {e : SyntaxError} (refused : scan 0 source.toList = .error e) :
    compile source = .error e := by
  unfold compile
  dsimp only
  rw [refused]

theorem scan_of_compile {source : String} {ss : List Statement} (compiled : compile source = .ok ss) :
    ∃ tokens, scan 0 source.toList = .ok tokens := by
  cases scanned : scan 0 source.toList with
  | error e => cases (compile_of_refused scanned).symm.trans compiled
  | ok tokens => exact ⟨tokens, rfl⟩

/-- Statements at the beginning of a text are read as if they stood alone. -/
private theorem statements_above {a : List Char} {tokens : List Token} {above : List Statement} (b : List Char)
    (scanned : scan 0 a = .ok tokens) (read : Reader.statements a (Text.byteLength a) tokens = .ok above)
    (stop : Nat) (more : List Token) :
    Reader.statements (a ++ b) stop (tokens ++ more) = (Reader.statements (a ++ b) stop more).map (above ++ ·) := by
  have unmoved : shift 0 = id := funext fun t => by simp [shift]
  have within : ∀ t ∈ tokens, t.stop ≤ Text.byteLength a := by simpa using scan_within scanned
  have moved := Reader.statements_moved [] a b within read stop more
  rwa [Text.byteLength_nil, unmoved, List.map_id] at moved

/-- Statements at the end of a text are read as if they stood alone, and so is what is wrong with them. -/
private theorem statements_below {b : List Char} {tokens : List Token} (a : List Char)
    (scanned : scan 0 b = .ok tokens) :
    Reader.statements (a ++ b) (Text.byteLength (a ++ b)) (tokens.map (shift (Text.byteLength a))) =
      (Reader.statements b (Text.byteLength b) tokens).mapError (SyntaxError.shift (Text.byteLength a)) := by
  have within : ∀ t ∈ tokens, t.stop ≤ Text.byteLength b := by simpa using scan_within scanned
  cases read : Reader.statements b (Text.byteLength b) tokens with
  | error e =>
    have refused := Reader.statements_refused a b [] within read
    rwa [List.append_nil, ← Text.byteLength_append] at refused
  | ok below =>
    have moved := Reader.statements_moved a b [] within read (Text.byteLength (a ++ b)) []
    rw [List.append_nil, List.append_nil, Reader.statements_nil] at moved
    rw [moved]
    exact congrArg Except.ok (List.append_nil below)

/-- A text below one that compiles compiles to what it compiles to by itself, or is refused for the same reason. -/
theorem compile_below {a : String} {above : List Statement} (compiled : compile a = .ok above) (b : String) :
    compile (a ++ "\n" ++ b) =
      ((compile b).map (above ++ ·)).mapError (SyntaxError.shift (Text.byteLength a.toList + 1)) := by
  obtain ⟨tokens, scanned⟩ := scan_of_compile compiled
  rw [compile_of_scan scanned] at compiled
  have width : Text.byteLength (a.toList ++ ['\n']) = Text.byteLength a.toList + 1 := Text.byteLength_append ..
  have line : (a ++ "\n" ++ b).toList = a.toList ++ '\n' :: b.toList := by simp
  have lines : a.toList ++ '\n' :: b.toList = a.toList ++ ['\n'] ++ b.toList := by simp
  have tokensBelow := scan_line scanned b.toList
  rw [Nat.zero_add, ← width, ← line, ← Nat.add_zero (Text.byteLength _), scan_add] at tokensBelow
  rw [← width]
  cases scannedBelow : scan 0 b.toList with
  | error e =>
    rw [scannedBelow] at tokensBelow
    rw [compile_of_refused tokensBelow, compile_of_refused scannedBelow]
    rfl
  | ok tokens' =>
    rw [scannedBelow] at tokensBelow
    rw [compile_of_scan tokensBelow, compile_of_scan scannedBelow, line, statements_above _ scanned compiled, lines,
      statements_below _ scannedBelow]
    cases Reader.statements b.toList (Text.byteLength b.toList) tokens' <;> rfl

/-- Whatever compiles can be put above any text: the statements of both follow each other, and what is wrong
with the text below is reported as for this text alone, so many bytes further on as there are above it. -/
theorem compile_joined {a : String} {above : List Statement} (compiled : compile a = .ok above) (b : String) :
    (∀ below, compile b = .ok below → compile (a ++ "\n" ++ b) = .ok (above ++ below)) ∧
    ∀ position problem, compile b = .error ⟨position, problem⟩ →
      compile (a ++ "\n" ++ b) = .error ⟨Text.byteLength a.toList + 1 + position, problem⟩ := by
  have joined := compile_below compiled b
  constructor
  · intro below compiledBelow
    rw [joined, compiledBelow]
    rfl
  · intro position problem refused
    rw [joined, refused]
    rfl

/-- The first text ends within a remark, and a letter of two bytes stands in front of the remark. -/
theorem compile_joined_remark :
    let above := "create pc \"é\" # \"\x7b"
    compile above = .ok [createPolicyClass "é"] ∧ compile "delete user" = .error ⟨7, .cannotDelete "user"⟩ ∧
    compile (above ++ "\n" ++ "delete user") = .error ⟨27, .cannotDelete "user"⟩ := by
  have above : compile "create pc \"é\" # \"\x7b" = .ok [createPolicyClass "é"] := by decide +kernel
  have refused : compile "delete user" = .error ⟨7, .cannotDelete "user"⟩ := by decide +kernel
  exact ⟨above, refused, (compile_joined above "delete user").2 _ _ refused⟩

end Statement
end PolicyLedger
