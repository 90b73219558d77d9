import PolicyLedger.Proofs.TokenScan

/-!
The end of a line ends every token. So a text that scans, with a line break and another text behind it, scans
to its own tokens and then those of the other text.
-/
namespace PolicyLedger.Token

private theorem takeWhile_line {p : Char → Bool} (x y : List Char) (ends : p '\n' = false) :
    (x ++ '\n' :: y).takeWhile p = x.takeWhile p := by
  induction x with
  | nil => exact List.takeWhile_cons_of_neg (by simp [ends])
  | cons c x ih =>
    rw [List.cons_append, List.takeWhile_cons, List.takeWhile_cons, ih]

private theorem stringLength?_append {x : List Char} {n : Nat} (found : stringLength? x = some n) (y : List Char) :
    stringLength? (x ++ y) = some n := by
  induction x generalizing n with
  | nil => cases found
  | cons c x ih =>
    simp only [List.cons_append, stringLength?] at found ⊢
    by_cases quote : c = '"'
    · rw [if_pos quote] at found ⊢
      exact found
    · rw [if_neg quote] at found ⊢
      obtain ⟨m, inner, rfl⟩ := Option.map_eq_some_iff.mp found
      rw [ih inner]
      rfl

private theorem blockLength_append {x : List Char} {seen depth : Nat} {quote : Option Nat} {n : Nat}
    (found : blockLength seen depth quote x = .ok n) (y : List Char) :
    blockLength seen depth quote (x ++ y) = .ok n := by
  induction x generalizing seen depth quote with
  | nil => cases found
  | cons c x ih =>
    simp only [List.cons_append, blockLength] at found ⊢
    split at found
    · exact ih found
    · split at found
      · rename_i opens; rw [if_pos opens]; exact ih found
      rename_i notQuote
      rw [if_neg notQuote]
      split at found
      · rename_i deeper; rw [if_pos deeper]; exact ih found
      rename_i notOpen
      rw [if_neg notOpen]
      split at found
      · rename_i closes
        rw [if_pos closes]
        split at found
        · exact found
        · exact ih found
      · rename_i notClose
        rw [if_neg notClose]
        exact ih found

/-- A lexeme ends with its line at the latest. -/
private theorem lexeme_line {c : Char} {x : List Char} {found : Lexeme} (lexed : lexeme c x = .ok found)
    (y : List Char) :
    lexeme c (x ++ '\n' :: y) = .ok found := by
  apply lexed_iff.mpr
  cases lexed_iff.mp lexed with
  | blank separates => exact .blank separates
  | remark opens =>
    rw [← takeWhile_line x y (by decide)]
    exact .remark opens
  | mark known => exact .mark known
  | string opens whole =>
    rw [← List.take_append_of_le_length (Nat.le_trans (Nat.sub_le _ 1) (stringLength?_le whole).2)]
    exact .string opens (stringLength?_append whole _)
  | block opens whole => exact .block opens (blockLength_append whole _)
  | word starts =>
    rw [← takeWhile_line x y (by decide)]
    exact .word starts

/-- A remark may end with the end of its line, which need not be there. -/
private theorem lexeme_le_succ {c : Char} {x : List Char} {token : Option TokenKind} {more : Nat}
    (lexed : lexeme c x = .ok ⟨token, more⟩) : more ≤ x.length ∨ token = none ∧ more = x.length + 1 := by
  cases token with
  | some kind => exact .inl (lexeme_le lexed)
  | none =>
    cases lexed_iff.mp lexed with
    | blank separates => exact .inl (Nat.zero_le _)
    | remark opens =>
      have within := (List.takeWhile_sublist (l := x) (· ≠ '\n')).length_le
      rcases Nat.lt_or_eq_of_le within with shorter | whole
      · exact .inl shorter
      · exact .inr ⟨rfl, congrArg (· + 1) whole⟩

private theorem map_ahead (token : Option TokenKind) (start stop : Nat) (later : List Token)
    (behind : Except SyntaxError (List Token)) :
    (behind.map (later ++ ·)).map (ahead token start stop) = behind.map (ahead token start stop later ++ ·) := by
  cases behind with
  | error e => rfl
  | ok tokens => cases token <;> rfl

/-- Nothing of a text that scans reaches across the end of its last line. -/
theorem scan_line {start : Nat} {a : List Char} {tokens : List Token} (found : scan start a = .ok tokens)
    (b : List Char) :
    scan start (a ++ '\n' :: b) = (scan (start + Text.byteLength a + 1) b).map (tokens ++ ·) := by
  induction length : a.length using Nat.strongRecOn generalizing start a tokens with
  | _ n ih =>
    cases a with
    | nil =>
      rw [scan_nil] at found
      cases found
      have lineEnd : lexeme '\n' b = .ok ⟨none, 0⟩ := rfl
      exact scan_lexeme lineEnd
    | cons c rest =>
      obtain ⟨token, more, later, lexed, behind, rfl⟩ := scan_cons.mp found
      rw [List.cons_append, scan_lexeme (lexeme_line lexed b)]
      rcases lexeme_le_succ lexed with within | ⟨rfl, rfl⟩
      · have shorter : (rest.drop more).length < n := by
          simp only [List.length_cons] at length
          simp only [List.length_drop]
          omega
        have whole : start + Text.byteLength (c :: rest.take more) + Text.byteLength (rest.drop more) =
            start + Text.byteLength (c :: rest) := by
          rw [Nat.add_assoc, ← Text.byteLength_append, List.cons_append, List.take_append_drop]
        rw [List.take_append_of_le_length within, List.drop_append_of_le_length within,
          ih (rest.drop more).length shorter behind rfl, whole, map_ahead]
      · -- A remark that ends the text takes the end of the line with it.
        have none_left : later = [] := by
          rw [List.drop_eq_nil_of_le (Nat.le_succ _), scan_nil] at behind
          exact (Except.ok.inj behind).symm
        have remark : (rest ++ '\n' :: b).take (rest.length + 1) = rest ++ ['\n'] := by
          rw [List.take_append, List.take_of_length_le (Nat.le_succ _)]
          simp
        have below : (rest ++ '\n' :: b).drop (rest.length + 1) = b := by
          rw [List.drop_append]
          simp
        rw [remark, below, none_left, ← List.cons_append, Text.byteLength_append]
        rfl

end PolicyLedger.Token
