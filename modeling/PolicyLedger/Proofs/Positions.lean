import PolicyLedger.Proofs.JoinedText
import PolicyLedger.Proofs.ReadTokens

/-!
Where tokens and problems stand in a text. Tokens stand one behind the other, each over the characters that it
stands for, so that a text can be cut wherever one starts or stops. A declaration is cut out from its first token
to its last one, and whatever is wrong with a text is reported where the text can be cut.
-/
namespace PolicyLedger

namespace Text

/-- Whether a text can be cut at a byte position: between two of its characters, or at one of its ends. -/
def Boundary (text : String) (position : Nat) : Prop := String.Pos.Raw.IsValid text ⟨position⟩

private theorem byteLength_eq (cs : List Char) : byteLength cs = (String.ofList cs).utf8ByteSize := by
  induction cs with
  | nil => rfl
  | cons c cs ih =>
    rw [byteLength_cons, ih, String.ofList_cons, String.utf8ByteSize_append, String.utf8ByteSize_singleton]

/-- A text can be cut behind whatever it begins with. -/
private theorem boundary_of_append {text : String} {a b : List Char} (split : text.toList = a ++ b) :
    Boundary text (byteLength a) := by
  refine String.Pos.Raw.isValid_iff_exists_append.mpr ⟨String.ofList a, String.ofList b, ?_, ?_⟩
  · rw [← String.ofList_append, ← split, String.ofList_toList]
  · rw [byteLength_eq]
    rfl

private theorem Boundary.le {text : String} {position : Nat} (boundary : Boundary text position) :
    position ≤ text.utf8ByteSize :=
  String.Pos.Raw.IsValid.le_utf8ByteSize boundary

private theorem byteLength_pos {cs : List Char} (filled : cs ≠ []) : 0 < byteLength cs := by
  cases cs with
  | nil => exact absurd rfl filled
  | cons c cs =>
    have positive := c.utf8Size_pos
    rw [byteLength_cons]
    omega

end Text

/-- The characters that a token of a kind stands for. -/
def TokenKind.Covers : TokenKind → List Char → Prop
  | .word name, piece => piece = name.toList
  | .string value, piece => piece = '"' :: (value.toList ++ ['"'])
  | .openList, piece => piece = ['[']
  | .closeList, piece => piece = [']']
  | .comma, piece => piece = [',']
  | .block, piece => ∃ body, piece = '{' :: (body ++ ['}'])

namespace Token

private theorem take_stringLength? {x : List Char} {n : Nat} (found : stringLength? x = some n) :
    x.take n = x.take (n - 1) ++ ['"'] := by
  induction x generalizing n with
  | nil => cases found
  | cons c x ih =>
    rw [stringLength?] at found
    by_cases quote : c = '"'
    · rw [if_pos quote] at found
      cases found
      rw [quote]
      rfl
    · rw [if_neg quote] at found
      obtain ⟨m, inner, rfl⟩ := Option.map_eq_some_iff.mp found
      obtain ⟨k, rfl⟩ : ∃ k, m = k + 1 := ⟨m - 1, by have := stringLength?_le inner; omega⟩
      have last := ih inner
      rw [Nat.add_sub_cancel] at last ⊢
      rw [List.take_succ_cons, last, List.take_succ_cons, List.cons_append]

/-- Whatever stands in a block, a brace ends it. -/
private theorem take_blockLength {x : List Char} {seen depth : Nat} {quote : Option Nat} {n : Nat}
    (found : blockLength seen depth quote x = .ok n) : ∃ body, x.take (n - seen) = body ++ ['}'] := by
  induction x generalizing seen depth quote with
  | nil => cases found
  | cons c x ih =>
    -- Whatever `c` is, unless it is the brace that closes the block the end is found behind it.
    have onward {depth : Nat} {quote : Option Nat} (inner : blockLength (seen + 1) depth quote x = .ok n) :
        ∃ body, (c :: x).take (n - seen) = body ++ ['}'] := by
      obtain ⟨body, last⟩ := ih inner
      have bounds := blockLength_le inner
      have one : n - seen = n - (seen + 1) + 1 := by omega
      exact ⟨c :: body, by rw [one, List.take_succ_cons, last, List.cons_append]⟩
    simp only [blockLength] at found
    split at found
    · exact onward found
    · split at found
      · exact onward found
      split at found
      · exact onward found
      split at found
      · rename_i closes
        split at found
        · cases found
          refine ⟨[], ?_⟩
          rw [Nat.add_sub_cancel_left, closes]
          rfl
        · exact onward found
      · exact onward found

/-- A token is read off the characters that it stands for. -/
private theorem covers_of_lexeme {c : Char} {rest : List Char} {kind : TokenKind} {more : Nat}
    (lexed : lexeme c rest = .ok ⟨some kind, more⟩) : kind.Covers (c :: rest.take more) := by
  cases lexed_iff.mp lexed with
  | mark known =>
    simp only [List.mem_cons, Prod.mk.injEq, List.not_mem_nil, or_false] at known
    rcases known with ⟨rfl, rfl⟩ | ⟨rfl, rfl⟩ | ⟨rfl, rfl⟩ <;> rfl
  | string opens whole =>
    rw [TokenKind.Covers, take_stringLength? whole, String.toList_ofList, opens]
  | block opens whole =>
    obtain ⟨body, last⟩ := take_blockLength whole
    exact ⟨body, by rw [Nat.sub_zero] at last; rw [last, opens]⟩
  | word starts =>
    rw [TokenKind.Covers, String.toList_ofList, ← List.prefix_iff_eq_take.mp (List.takeWhile_prefix _)]

/-! ### Tokens in their text -/

/-- Tokens stand in a text one behind the other, each over some characters that it stands for; the text itself
stands at byte `start`. -/
inductive Laid : Nat → List Char → List Token → Prop
  | nil {start : Nat} {text : List Char} : Laid start text []
  | skip {start : Nat} (piece : List Char) {text : List Char} {tokens : List Token}
    (onward : Laid (start + Text.byteLength piece) text tokens) : Laid start (piece ++ text) tokens
  | token {start : Nat} {kind : TokenKind} {piece text : List Char} {tokens : List Token} (filled : piece ≠ [])
    (covers : kind.Covers piece) (onward : Laid (start + Text.byteLength piece) text tokens) :
    Laid start (piece ++ text) (⟨kind, start, start + Text.byteLength piece⟩ :: tokens)

private theorem laid_of_scan {start : Nat} {text : List Char} {tokens : List Token}
    (found : scan start text = .ok tokens) :
    Laid start text tokens := by
  fun_induction scan start text generalizing tokens with
  | case1 start =>
    cases found
    exact .nil
  | case2 start c rest skipped problem lexed => cases found
  | case3 start c rest token more lexed stop e refused => cases found
  | case4 start c rest token more lexed stop later behind =>
    rename_i ih
    have whole : c :: rest = (c :: rest.take more) ++ rest.drop more := by
      rw [List.cons_append, List.take_append_drop]
    rw [whole]
    cases found
    cases token with
    | none => exact .skip _ (ih behind)
    | some kind => exact .token (List.cons_ne_nil _ _) (covers_of_lexeme lexed) (ih behind)

/-- A token stands behind those in front of it, and the others stand behind it. -/
private theorem Laid.split {start : Nat} {text : List Char} {before later : List Token} {t : Token}
    (laid : Laid start text (before ++ t :: later)) :
    ∃ a piece b, text = a ++ (piece ++ b) ∧ t.start = start + Text.byteLength a ∧
      t.stop = t.start + Text.byteLength piece ∧ piece ≠ [] ∧ t.kind.Covers piece ∧ Laid t.stop b later := by
  generalize whole : before ++ t :: later = tokens at laid
  induction laid generalizing before with
  | nil => simp at whole
  | @skip start piece text tokens onward ih =>
    obtain ⟨a, own, b, rfl, starts, others⟩ := ih whole
    refine ⟨piece ++ a, own, b, (List.append_assoc ..).symm, ?_, others⟩
    rw [starts, Text.byteLength_append, Nat.add_assoc]
  | @token start kind piece text tokens filled covers onward ih =>
    cases before with
    | nil =>
      cases whole
      exact ⟨[], piece, text, rfl, rfl, rfl, filled, covers, onward⟩
    | cons first before =>
      obtain ⟨a, own, b, rfl, starts, others⟩ := ih (List.cons.inj whole).2
      refine ⟨piece ++ a, own, b, (List.append_assoc ..).symm, ?_, others⟩
      rw [starts, Text.byteLength_append, Nat.add_assoc]

/-- From where one token starts to where another one stops, a text begins with what the first stands for and
ends with what the last stands for. -/
private theorem Laid.between {start : Nat} {text : List Char} {before more later : List Token} {first last : Token}
    (laid : Laid start text (before ++ first :: (more ++ last :: later))) :
    ∃ a p middle q c, text = a ++ (p ++ middle ++ q ++ c) ∧ first.start = start + Text.byteLength a ∧
      last.stop = first.start + Text.byteLength (p ++ middle ++ q) ∧ p ≠ [] ∧ first.kind.Covers p ∧
      last.kind.Covers q := by
  obtain ⟨a, p, b, rfl, starts, stops, filled, covers, onward⟩ := laid.split
  obtain ⟨middle, q, c, rfl, starts', stops', -, covers', -⟩ := onward.split
  refine ⟨a, p, middle, q, c, by simp only [List.append_assoc], starts, ?_, filled, covers, covers'⟩
  rw [stops', starts', stops, Text.byteLength_append, Text.byteLength_append, Nat.add_assoc, Nat.add_assoc,
    Nat.add_assoc]

private theorem Laid.start_le {start : Nat} {text : List Char} {tokens : List Token} (laid : Laid start text tokens) :
    ∀ t ∈ tokens, start ≤ t.start := by
  intro t member
  obtain ⟨before, later, rfl⟩ := List.append_of_mem member
  obtain ⟨a, -, -, -, starts, -⟩ := laid.split
  omega

private theorem Laid.apart {start : Nat} {text : List Char} {tokens : List Token} (laid : Laid start text tokens) :
    tokens.Pairwise fun t later => t.stop ≤ later.start := by
  induction laid with
  | nil => exact .nil
  | skip _ _ ih => exact ih
  | token _ _ onward ih => exact .cons onward.start_le ih

/-- A scan that is refused is refused behind characters that the text begins with. -/
private theorem position_of_scan {start : Nat} {text : List Char} {e : SyntaxError}
    (refused : scan start text = .error e) :
    ∃ a b, text = a ++ b ∧ e.position = start + Text.byteLength a := by
  fun_induction scan start text generalizing e with
  | case1 start => cases refused
  | case2 start c rest skipped problem lexed =>
    cases refused
    exact ⟨(c :: rest).take skipped, (c :: rest).drop skipped, (List.take_append_drop ..).symm, rfl⟩
  | case3 start c rest token more lexed stop e' behind =>
    rename_i ih
    cases refused
    obtain ⟨a, b, cut, place⟩ := ih behind
    refine ⟨(c :: rest.take more) ++ a, b, ?_, ?_⟩
    · rw [List.append_assoc, ← cut, List.cons_append, List.take_append_drop]
    · rw [place, Text.byteLength_append, Nat.add_assoc]
  | case4 start c rest token more lexed stop later behind => cases refused

/-- The tokens lie within a text, without touching a byte twice, and the text can be cut where they start and
where they stop. -/
structure Spans (source : String) (tokens : List Token) : Prop where
  filled : ∀ t ∈ tokens, t.start < t.stop
  apart : tokens.Pairwise fun t later => t.stop ≤ later.start
  within : ∀ t ∈ tokens, t.stop ≤ source.utf8ByteSize
  bounded : ∀ t ∈ tokens, Text.Boundary source t.start ∧ Text.Boundary source t.stop

private theorem spans_of_scan {source : String} {tokens : List Token} (scanned : scan 0 source.toList = .ok tokens) :
    Spans source tokens := by
  have laid := laid_of_scan scanned
  have placed : ∀ t ∈ tokens, t.start < t.stop ∧ Text.Boundary source t.start ∧ Text.Boundary source t.stop := by
    intro t member
    obtain ⟨before, later, rfl⟩ := List.append_of_mem member
    obtain ⟨a, piece, b, whole, starts, stops, filled, -, -⟩ := laid.split
    have positive := Text.byteLength_pos filled
    refine ⟨by omega, ?_, ?_⟩
    · rw [starts, Nat.zero_add]
      exact Text.boundary_of_append whole
    · rw [stops, starts, Nat.zero_add, ← Text.byteLength_append]
      exact Text.boundary_of_append (whole.trans (List.append_assoc ..).symm)
  exact ⟨fun t member => (placed t member).1, laid.apart, fun t member => (placed t member).2.2.le,
    fun t member => (placed t member).2⟩

end Token

namespace Statement
open Token

/-- The text of a declaration is cut out of a source from where the keyword `create` starts to where its body
stops. -/
structure CutOut (source : String) (create body : Token) (text : String) : Prop where
  keyword : create.kind = .word "create"
  block : body.kind = .block
  ordered : create.start < body.stop
  bounded : Text.Boundary source create.start ∧ Text.Boundary source body.stop
  sliced : text = String.ofList (Text.slice create.start body.stop source.toList)
  between : ∃ above below, source = above ++ text ++ below ∧ above.utf8ByteSize = create.start ∧
    (above ++ text).utf8ByteSize = body.stop
  enclosed : ∃ inner, text = "create" ++ inner ++ "\x7d"

private theorem cutOut_of_declares {source : String} {before rest : List Token} {t₁ t₂ t₃ t₄ : Token}
    {kind : DeclarationKind} {name : String}
    (scanned : scan 0 source.toList = .ok (before ++ t₁ :: t₂ :: t₃ :: t₄ :: rest))
    (declares : Reader.Declares kind name (t₁, t₂, t₃, t₄)) :
    CutOut source t₁ t₄ (String.ofList (Text.slice t₁.start t₄.stop source.toList)) := by
  have laid : Laid 0 source.toList (before ++ t₁ :: ([t₂, t₃] ++ t₄ :: rest)) := laid_of_scan scanned
  obtain ⟨a, p, middle, q, c, whole, starts, stops, filled, isCreate, isBlock⟩ := laid.between
  have cut : Text.slice t₁.start t₄.stop source.toList = p ++ middle ++ q := by
    rw [whole, stops, starts, Nat.zero_add]
    exact Text.slice_append a (p ++ middle ++ q) c
  rw [declares.create] at isCreate
  rw [declares.body] at isBlock
  obtain ⟨body, rfl⟩ := isBlock
  have spans := spans_of_scan scanned
  have ordered : t₁.start < t₄.stop := by
    have positive := Text.byteLength_pos filled
    rw [stops, Text.byteLength_append, Text.byteLength_append]
    omega
  refine ⟨declares.create, declares.body, ordered, ⟨(spans.bounded t₁ (by simp)).1, (spans.bounded t₄ (by simp)).2⟩,
    rfl, ⟨String.ofList a, String.ofList c, ?_, ?_, ?_⟩, ⟨String.ofList (middle ++ '{' :: body), ?_⟩⟩
  · rw [cut, ← String.ofList_append, ← String.ofList_append, List.append_assoc, ← whole, String.ofList_toList]
  · rw [← Text.byteLength_eq, starts, Nat.zero_add]
  · rw [cut, String.utf8ByteSize_append, ← Text.byteLength_eq, ← Text.byteLength_eq, stops, starts, Nat.zero_add]
  · rw [cut, isCreate]
    apply String.toList_injective
    simp

/-- Nothing leaves the text, whatever characters it is made of. Its tokens lie in it one behind the other; a
declaration that is read among them, wherever that is, is cut out from its keyword `create` to the brace that
closes its body; and what is refused is reported where the text can be cut. -/
theorem compile_stays_within (source : String) :
    (∀ tokens, scan 0 source.toList = .ok tokens →
      Spans source tokens ∧
      ∀ left, left <:+ tokens → ∀ stop kind name text rest,
        Reader.statement source.toList stop left = .ok (.declare kind name text, rest) →
          ∃ create what named body, left = create :: what :: named :: body :: rest ∧
            CutOut source create body text) ∧
    ∀ e, compile source = .error e → e.position ≤ source.utf8ByteSize ∧ Text.Boundary source e.position := by
  constructor
  · intro tokens scanned
    refine ⟨spans_of_scan scanned, ?_⟩
    rintro left ⟨before, rfl⟩ stop kind name text rest read
    obtain ⟨t₁, t₂, t₃, t₄, rfl, declares, rfl⟩ := Reader.statement_declare read
    exact ⟨t₁, t₂, t₃, t₄, rfl, cutOut_of_declares scanned declares⟩
  · intro e refused
    suffices boundary : Text.Boundary source e.position from ⟨boundary.le, boundary⟩
    cases scanned : scan 0 source.toList with
    | error e' =>
      cases (compile_of_refused scanned).symm.trans refused
      obtain ⟨a, b, whole, place⟩ := position_of_scan scanned
      rw [place, Nat.zero_add]
      exact Text.boundary_of_append whole
    | ok tokens =>
      rw [compile_of_scan scanned] at refused
      have ends : Text.Boundary source (Text.byteLength source.toList) :=
        Text.boundary_of_append (List.append_nil _).symm
      -- A reader complains at a token or at the end, and the text can be cut at all of these.
      have admits : Reader.Admits (fun _ => True) (Text.Boundary source) tokens := fun t member =>
        ⟨((spans_of_scan scanned).bounded t member).1, fun _ _ => trivial⟩
      exact Reader.position_of_statements ends admits refused

/-- A letter of two bytes, a brace in a string, a block in a block, and what is no statement behind them. -/
theorem nested_stays_within :
    let source := "create routine \"ü\" \x7b \"\x7d\" \x7b\x7d \x7d drop"
    let routine := "create routine \"ü\" \x7b \"\x7d\" \x7b\x7d \x7d"
    let create : Token := ⟨.word "create", 0, 6⟩
    let body : Token := ⟨.block, 20, 30⟩
    let drop : Token := ⟨.word "drop", 31, 35⟩
    let tokens := [create, ⟨.word "routine", 7, 14⟩, ⟨.string "ü", 15, 19⟩, body, drop]
    scan 0 source.toList = .ok tokens ∧ Spans source tokens ∧
    Reader.statement source.toList 35 tokens = .ok (.declare .routine "ü" routine, [drop]) ∧
    CutOut source create body routine ∧
    compile source = .error ⟨31, .unknownStatement "drop"⟩ ∧ Text.Boundary source 31 := by
  intro source routine create body drop tokens
  have scanned : scan 0 source.toList = .ok tokens := by decide +kernel
  have read : Reader.statement source.toList 35 tokens = .ok (.declare .routine "ü" routine, [drop]) := by
    decide +kernel
  have refused : compile source = .error ⟨31, .unknownStatement "drop"⟩ := by decide +kernel
  obtain ⟨lexed, placed⟩ := compile_stays_within source
  obtain ⟨spans, cuts⟩ := lexed tokens scanned
  obtain ⟨t₁, t₂, t₃, t₄, whole, cut⟩ := cuts tokens List.suffix_rfl _ _ _ _ _ read
  simp only [tokens, List.cons.injEq] at whole
  obtain ⟨rfl, -, -, rfl, -⟩ := whole
  exact ⟨scanned, spans, read, cut, refused, (placed _ refused).2⟩

end Statement
end PolicyLedger
