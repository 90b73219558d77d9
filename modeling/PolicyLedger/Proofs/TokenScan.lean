import PolicyLedger.Language.Token

/-!
How tokens depend on the text around them. A lexeme is the same wherever the text behind it is cut
off, so any stretch of tokens is what the stretch of text under it scans to by itself.
-/
namespace PolicyLedger

/-- The error, so many bytes further on. -/
def SyntaxError.shift (k : Nat) (e : SyntaxError) : SyntaxError := ⟨k + e.position, e.problem⟩

namespace Text

theorem dropBytes_append (a b : List Char) : dropBytes (byteLength a) (a ++ b) = b := by
  induction a with
  | nil =>
    cases b with
    | nil => rfl
    | cons c rest =>
      have positive := c.utf8Size_pos
      simp [dropBytes, show ¬ c.utf8Size ≤ 0 by omega]
  | cons c a ih => simp [dropBytes, ih]

theorem takeBytes_append (a b : List Char) : takeBytes (byteLength a) (a ++ b) = a := by
  induction a with
  | nil =>
    cases b with
    | nil => rfl
    | cons c rest =>
      have positive := c.utf8Size_pos
      simp [takeBytes, show ¬ c.utf8Size ≤ 0 by omega]
  | cons c a ih => simp [takeBytes, ih]

/-- A slice between two places of a text is the text between them. -/
theorem slice_append (a b c : List Char) : slice (byteLength a) (byteLength a + byteLength b) (a ++ (b ++ c)) = b := by
  rw [slice, dropBytes_append, Nat.add_sub_cancel_left, takeBytes_append]

end Text

namespace Token

/-- The characters that pass a test end where they end in a longer text, if that is soon enough. -/
private theorem takeWhile_of_append {p : Char → Bool} {x y : List Char}
    (short : ((x ++ y).takeWhile p).length ≤ x.length) : (x ++ y).takeWhile p = x.takeWhile p := by
  induction x with
  | nil => exact List.eq_nil_of_length_eq_zero (Nat.le_zero.mp short)
  | cons c x ih =>
    by_cases passes : p c = true
    · rw [List.cons_append, List.takeWhile_cons_of_pos passes, List.takeWhile_cons_of_pos passes]
      rw [List.cons_append, List.takeWhile_cons_of_pos passes, List.length_cons, List.length_cons] at short
      rw [ih (by omega)]
    · rw [List.cons_append, List.takeWhile_cons_of_neg passes, List.takeWhile_cons_of_neg passes]

private theorem stringLength?_of_append {x y : List Char} {n : Nat} (found : stringLength? (x ++ y) = some n)
    (short : n ≤ x.length) : stringLength? x = some n := by
  induction x generalizing n with
  | nil =>
    cases y with
    | nil => exact found
    | cons c rest =>
      simp only [List.length_nil] at short
      simp only [List.nil_append, stringLength?] at found
      split at found
      · cases found; omega
      · obtain ⟨m, _, rfl⟩ := Option.map_eq_some_iff.mp found
        omega
  | cons c x ih =>
    simp only [List.cons_append, stringLength?] at found ⊢
    split at found
    · rename_i quote
      rw [if_pos quote, found]
    · rename_i other
      obtain ⟨m, inner, rfl⟩ := Option.map_eq_some_iff.mp found
      rw [if_neg other, ih inner (by simp only [List.length_cons] at short; omega)]
      rfl

theorem stringLength?_le {x : List Char} {n : Nat} (found : stringLength? x = some n) : 0 < n ∧ n ≤ x.length := by
  induction x generalizing n with
  | nil => cases found
  | cons c x ih =>
    simp only [stringLength?] at found
    split at found
    · cases found; simp
    · obtain ⟨m, inner, rfl⟩ := Option.map_eq_some_iff.mp found
      have bounds := ih inner
      simp only [List.length_cons]
      omega

theorem blockLength_le {x : List Char} {seen depth : Nat} {quote : Option Nat} {n : Nat}
    (found : blockLength seen depth quote x = .ok n) : seen < n ∧ n ≤ seen + x.length := by
  induction x generalizing seen depth quote with
  | nil => cases found
  | cons c x ih =>
    simp only [blockLength] at found
    simp only [List.length_cons]
    split at found
    · have := ih found; omega
    · split at found
      · have := ih found; omega
      split at found
      · have := ih found; omega
      split at found
      · split at found
        · cases found; omega
        · have := ih found; omega
      · have := ih found; omega

private theorem blockLength_of_append {x y : List Char} {seen depth : Nat} {quote : Option Nat} {n : Nat}
    (found : blockLength seen depth quote (x ++ y) = .ok n) (short : n ≤ seen + x.length) :
    blockLength seen depth quote x = .ok n := by
  induction x generalizing seen depth quote with
  | nil =>
    have := blockLength_le found
    simp only [List.length_nil] at short
    omega
  | cons c x ih =>
    simp only [List.length_cons] at short
    simp only [List.cons_append, blockLength] at found ⊢
    split at found
    · exact ih found (by omega)
    · split at found
      · rename_i opens; rw [if_pos opens]; exact ih found (by omega)
      rename_i notQuote
      rw [if_neg notQuote]
      split at found
      · rename_i deeper; rw [if_pos deeper]; exact ih found (by omega)
      rename_i notOpen
      rw [if_neg notOpen]
      split at found
      · rename_i closes
        rw [if_pos closes]
        split at found
        · exact found
        · exact ih found (by omega)
      · rename_i notClose
        rw [if_neg notClose]
        exact ih found (by omega)

/-- What a text starts with: the ways a first character and what follows it can be a lexeme. -/
inductive Lexed (c : Char) (rest : List Char) : Lexeme → Prop
  | blank (separates : (Text.isBlank c || c = ';') = true) : Lexed c rest ⟨none, 0⟩
  | remark (opens : c = '#') : Lexed c rest ⟨none, (rest.takeWhile (· ≠ '\n')).length + 1⟩
  | mark {kind : TokenKind} (known : (c, kind) ∈ [('[', TokenKind.openList), (']', .closeList), (',', .comma)]) :
    Lexed c rest ⟨some kind, 0⟩
  | string {length : Nat} (opens : c = '"') (whole : stringLength? rest = some length) :
    Lexed c rest ⟨some (.string (String.ofList (rest.take (length - 1)))), length⟩
  | block {length : Nat} (opens : c = '{') (whole : blockLength 0 0 none rest = .ok length) :
    Lexed c rest ⟨some .block, length⟩
  | word (starts : isWordStart c = true) :
    Lexed c rest
      ⟨some (.word (String.ofList (c :: rest.takeWhile isWordPart))), (rest.takeWhile isWordPart).length⟩

private theorem not_blank_of_wordStart {c : Char} (starts : isWordStart c = true) : Text.isBlank c = false := by
  have range : 65 ≤ c.toNat ∧ c.toNat ≤ 122 := by
    delta isWordStart Char.isAlpha Char.isUpper Char.isLower at starts
    simp only [Bool.or_eq_true, Bool.and_eq_true,
      decide_eq_true_eq, ge_iff_le, UInt32.le_iff_toNat_le] at starts
    rcases starts with (⟨low, high⟩ | ⟨low, high⟩) | rfl
    · exact ⟨low, Nat.le_trans high (by decide)⟩
    · exact ⟨Nat.le_trans (by decide) low, high⟩
    · decide
  obtain ⟨low, high⟩ := range
  simp only [Text.isBlank, Text.blankRanges, List.any_cons, List.any_nil, Bool.or_false, Bool.or_eq_false_iff,
    Bool.and_eq_false_iff, decide_eq_false_iff_not]
  omega

theorem lexed_iff {c : Char} {rest : List Char} {found : Lexeme} : lexeme c rest = .ok found ↔ Lexed c rest found := by
  constructor
  · intro lexed
    unfold lexeme at lexed
    split at lexed
    · rename_i separates
      cases lexed
      exact .blank separates
    split at lexed
    · rename_i opens
      cases lexed
      exact .remark opens
    split at lexed
    · rename_i opens
      cases lexed
      exact .mark (by simp [opens])
    split at lexed
    · rename_i closes
      cases lexed
      exact .mark (by simp [closes])
    split at lexed
    · rename_i separates
      cases lexed
      exact .mark (by simp [separates])
    split at lexed
    · rename_i opens
      split at lexed
      · cases lexed
      · rename_i whole
        cases lexed
        exact .string opens whole
    split at lexed
    · rename_i opens
      split at lexed
      · cases lexed
      · cases lexed
      · rename_i whole
        cases lexed
        exact .block opens whole
    split at lexed
    · rename_i starts
      cases lexed
      exact .word starts
    · cases lexed
  · rintro (separates | rfl | known | ⟨rfl, whole⟩ | ⟨rfl, whole⟩ | starts)
    · unfold lexeme
      rw [if_pos separates]
    · rfl
    · simp only [List.mem_cons, Prod.mk.injEq, List.not_mem_nil, or_false] at known
      rcases known with ⟨rfl, rfl⟩ | ⟨rfl, rfl⟩ | ⟨rfl, rfl⟩ <;> rfl
    · unfold lexeme
      rw [if_neg (by decide), if_neg (by decide), if_neg (by decide), if_neg (by decide), if_neg (by decide),
        if_pos rfl, whole]
    · unfold lexeme
      rw [if_neg (by decide), if_neg (by decide), if_neg (by decide), if_neg (by decide), if_neg (by decide),
        if_neg (by decide), if_pos rfl, whole]
    · -- A letter is none of the marks that are tested before it.
      have visible := not_blank_of_wordStart starts
      have other {d : Char} (mark : isWordStart d = false) : c ≠ d := by
        rintro rfl
        rw [mark] at starts
        cases starts
      unfold lexeme
      rw [if_neg (by simp [visible, other (d := ';') (by decide)]), if_neg (other (by decide)),
        if_neg (other (by decide)), if_neg (other (by decide)), if_neg (other (by decide)), if_neg (other (by decide)),
        if_neg (other (by decide)), if_pos starts]

/-- A lexeme is the same where the text is cut off behind it. -/
private theorem lexeme_of_append {c : Char} {x y : List Char} {token : Option TokenKind} {more : Nat}
    (found : lexeme c (x ++ y) = .ok ⟨token, more⟩) (short : more ≤ x.length) :
    lexeme c x = .ok ⟨token, more⟩ := by
  apply lexed_iff.mpr
  cases lexed_iff.mp found with
  | blank separates => exact .blank separates
  | remark opens =>
    rw [takeWhile_of_append (Nat.le_of_succ_le short)]
    exact .remark opens
  | mark known => exact .mark known
  | string opens whole =>
    rw [List.take_append_of_le_length (Nat.le_trans (Nat.sub_le _ 1) short)]
    exact .string opens (stringLength?_of_append whole short)
  | block opens whole => exact .block opens (blockLength_of_append whole (by simpa using short))
  | word starts =>
    rw [takeWhile_of_append short]
    exact .word starts

/-- A lexeme that is a token lies within the text. -/
theorem lexeme_le {c : Char} {x : List Char} {kind : TokenKind} {more : Nat}
    (found : lexeme c x = .ok ⟨some kind, more⟩) : more ≤ x.length := by
  cases lexed_iff.mp found with
  | mark known => exact Nat.zero_le _
  | string opens whole => exact (stringLength?_le whole).2
  | block opens whole => simpa using (blockLength_le whole).2
  | word starts => exact (List.takeWhile_sublist _).length_le

/-- The tokens of a text that starts with a lexeme and goes on with other tokens. -/
def ahead (token : Option TokenKind) (start stop : Nat) (later : List Token) : List Token :=
  match token with
  | none => later
  | some kind => ⟨kind, start, stop⟩ :: later

theorem scan_nil (start : Nat) : scan start [] = .ok [] := by rw [scan]

/-- A text scans to its first lexeme and what the text behind it scans to. -/
theorem scan_lexeme {start more : Nat} {c : Char} {rest : List Char} {token : Option TokenKind}
    (lexed : lexeme c rest = .ok ⟨token, more⟩) :
    scan start (c :: rest) =
      (scan (start + Text.byteLength (c :: rest.take more)) (rest.drop more)).map
        (ahead token start (start + Text.byteLength (c :: rest.take more))) := by
  rw [scan, lexed]
  dsimp only
  cases scan (start + Text.byteLength (c :: rest.take more)) (rest.drop more) <;> rfl

/-- A scan is a lexeme and the scan of what stands behind it. -/
theorem scan_cons {start : Nat} {c : Char} {rest : List Char} {tokens : List Token} :
    scan start (c :: rest) = .ok tokens ↔
      ∃ token more later, lexeme c rest = .ok ⟨token, more⟩ ∧
        scan (start + Text.byteLength (c :: rest.take more)) (rest.drop more) = .ok later ∧
        tokens = ahead token start (start + Text.byteLength (c :: rest.take more)) later := by
  constructor
  · intro found
    rcases lexed : lexeme c rest with ⟨skipped, problem⟩ | ⟨token, more⟩
    · rw [scan, lexed] at found
      cases found
    · rw [scan_lexeme lexed] at found
      cases behind : scan (start + Text.byteLength (c :: rest.take more)) (rest.drop more) with
      | error e =>
        rw [behind] at found
        cases found
      | ok later =>
        rw [behind] at found
        exact ⟨token, more, later, rfl, behind, (Except.ok.inj found).symm⟩
  · rintro ⟨token, more, later, lexed, behind, rfl⟩
    rw [scan_lexeme lexed, behind]
    rfl

private theorem scan_of_parts {start more : Nat} {c : Char} {x a : List Char} {token : Option TokenKind}
    {later : List Token}
    (lexed : lexeme c (x ++ a) = .ok ⟨token, more⟩) (whole : more = x.length)
    (behind : scan (start + Text.byteLength (c :: x)) a = .ok later) :
    scan start (c :: (x ++ a)) = .ok (ahead token start (start + Text.byteLength (c :: x)) later) := by
  have cut : (x ++ a).take more = x := List.take_left' whole.symm
  refine scan_cons.mpr ⟨token, more, later, lexed, ?_, by rw [cut]⟩
  rw [cut, List.drop_left' whole.symm]
  exact behind

/-- The tokens from one on are what the text scans to from where that one starts. -/
private theorem scan_from {start : Nat} {text : List Char} {before later : List Token} {t : Token}
    (found : scan start text = .ok (before ++ t :: later)) :
    ∃ a b, text = a ++ b ∧ t.start = start + Text.byteLength a ∧ scan t.start b = .ok (t :: later) := by
  induction length : text.length using Nat.strongRecOn generalizing start text before with
  | _ n ih =>
    cases text with
    | nil => rw [scan] at found; simp at found
    | cons c rest =>
      obtain ⟨token, more, tail, lexed, scanned, same⟩ := scan_cons.mp found
      have onwards {front : List Token} (split : tail = front ++ t :: later) :
          ∃ a b, c :: rest = a ++ b ∧ t.start = start + Text.byteLength a ∧ scan t.start b = .ok (t :: later) := by
        obtain ⟨a, b, cut, place, inner⟩ :=
          ih (rest.drop more).length (by simp only [List.length_cons] at length; simp; omega) (split ▸ scanned) rfl
        refine ⟨(c :: rest.take more) ++ a, b, ?_, ?_, inner⟩
        · rw [List.append_assoc, ← cut, List.cons_append, List.take_append_drop]
        · rw [place, Text.byteLength_append, Nat.add_assoc]
      cases token with
      | none => exact onwards same.symm
      | some kind =>
        cases before with
        | nil =>
          obtain ⟨rfl, rfl⟩ := List.cons.inj same
          exact ⟨[], c :: rest, rfl, rfl, found⟩
        | cons first before => exact onwards (List.cons.inj same).2.symm

/-- The tokens up to one are what the text scans to if it is cut off where that one stops. -/
theorem scan_upTo {start : Nat} {text : List Char} (before : List Token) {later : List Token} {t : Token}
    (found : scan start text = .ok (before ++ t :: later)) :
    ∃ a b, text = a ++ b ∧ t.stop = start + Text.byteLength a ∧ scan start a = .ok (before ++ [t]) := by
  induction length : text.length using Nat.strongRecOn generalizing start text before with
  | _ n ih =>
    cases text with
    | nil => rw [scan] at found; simp at found
    | cons c rest =>
      obtain ⟨token, more, tail, lexed, scanned, same⟩ := scan_cons.mp found
      have onwards {front : List Token} (split : tail = front ++ t :: later) :
          ∃ a b, rest = rest.take more ++ (a ++ b) ∧
            t.stop = start + Text.byteLength (c :: (rest.take more ++ a)) ∧
            lexeme c (rest.take more ++ a) = .ok ⟨token, more⟩ ∧
            scan (start + Text.byteLength (c :: rest.take more)) a = .ok (front ++ [t]) ∧
            more = (rest.take more).length := by
        have shorter : (rest.drop more).length < n := by
          simp only [List.length_cons] at length
          simp only [List.length_drop]
          omega
        obtain ⟨a, b, cut, place, inner⟩ := ih (rest.drop more).length shorter front (split ▸ scanned) rfl
        have whole : rest = rest.take more ++ (a ++ b) := by rw [← cut, List.take_append_drop]
        have within : more = (rest.take more).length := by
          rw [List.length_take]
          by_cases beyond : rest.length ≤ more
          · rw [List.drop_eq_nil_of_le beyond, scan, split] at scanned
            simp at scanned
          · omega
        refine ⟨a, b, whole, ?_, ?_, inner, within⟩
        · rw [place]
          simp only [Text.byteLength_cons, Text.byteLength_append]
          omega
        · refine lexeme_of_append (y := b) ?_ (by rw [List.length_append]; omega)
          rwa [List.append_assoc, ← whole]
      cases token with
      | none =>
        obtain ⟨a, b, whole, place, lexed, inner, within⟩ := onwards same.symm
        refine ⟨c :: (rest.take more ++ a), b, ?_, place, scan_of_parts lexed within inner⟩
        rw [List.cons_append, List.append_assoc, ← whole]
      | some kind =>
        cases before with
        | nil =>
          obtain ⟨rfl, rfl⟩ := List.cons.inj same
          have within := lexeme_le lexed
          have alone : lexeme c (rest.take more ++ []) = .ok ⟨some kind, more⟩ := by
            refine lexeme_of_append (y := rest.drop more) ?_ (by simp; omega)
            rwa [List.append_nil, List.take_append_drop]
          refine ⟨c :: (rest.take more ++ []), rest.drop more, by simp, by simp, ?_⟩
          exact scan_of_parts alone (by simp; omega) (by rw [scan])
        | cons first before =>
          obtain ⟨rfl, split⟩ := List.cons.inj same
          obtain ⟨a, b, whole, place, lexed, inner, within⟩ := onwards split.symm
          refine ⟨c :: (rest.take more ++ a), b, ?_, place, scan_of_parts lexed within inner⟩
          rw [List.cons_append, List.append_assoc, ← whole]

/-- The token, so many bytes further on. -/
def shift (k : Nat) (t : Token) : Token := ⟨t.kind, k + t.start, k + t.stop⟩

/-- Where a text stands changes nothing about its tokens, or about what is wrong with it, but where they stand. -/
theorem scan_add (k start : Nat) (text : List Char) :
    scan (k + start) text = ((scan start text).map (List.map (shift k))).mapError (SyntaxError.shift k) := by
  induction length : text.length using Nat.strongRecOn generalizing start text with
  | _ n ih =>
    cases text with
    | nil =>
      rw [scan, scan]
      rfl
    | cons c rest =>
      rcases lexed : lexeme c rest with ⟨skipped, problem⟩ | ⟨token, more⟩
      · rw [scan, scan, lexed]
        dsimp only
        rw [Nat.add_assoc]
        rfl
      · have behind := ih (rest.drop more).length (by simp only [List.length_cons] at length; simp; omega)
          (start + Text.byteLength (c :: rest.take more)) (rest.drop more) rfl
        rw [scan_lexeme lexed, scan_lexeme lexed, Nat.add_assoc, behind]
        cases scan (start + Text.byteLength (c :: rest.take more)) (rest.drop more) with
        | error e => rfl
        | ok later => cases token <;> rfl

private theorem scan_shift {k start : Nat} {text : List Char} {tokens : List Token}
    (found : scan (k + start) text = .ok tokens) :
    ∃ plain, scan start text = .ok plain ∧ tokens = plain.map (shift k) := by
  rw [scan_add] at found
  cases plain : scan start text with
  | error e =>
    rw [plain] at found
    cases found
  | ok tokens' =>
    rw [plain] at found
    exact ⟨tokens', rfl, (Except.ok.inj found).symm⟩

/-- The tokens of a text from one to another are those of the text between them, which stands alone just as
well: around it are the texts `a` and `c`. -/
theorem scan_between {text : List Char} {before later : List Token} {first last : Token} (more : List Token)
    (found : scan 0 text = .ok (before ++ first :: (more ++ last :: later))) :
    ∃ a middle c plain, text = a ++ (middle ++ c) ∧ first.start = Text.byteLength a ∧
      last.stop = Text.byteLength a + Text.byteLength middle ∧ scan 0 middle = .ok plain ∧
      first :: (more ++ [last]) = plain.map (shift (Text.byteLength a)) := by
  obtain ⟨a, suffix, whole, begins, onward⟩ := scan_from found
  rw [Nat.zero_add] at begins
  obtain ⟨middle, c, rfl, ends, between⟩ := scan_upTo (first :: more) onward
  rw [begins, ← Nat.add_zero (Text.byteLength a)] at between
  obtain ⟨plain, alone, shifted⟩ := scan_shift between
  exact ⟨a, middle, c, plain, whole, begins, begins ▸ ends, alone, shifted⟩

end Token
end PolicyLedger
