import Mathlib.Algebra.Group.Nat.Defs
import PolicyLedger.Cbor.Head
import PolicyLedger.Proofs.Utf8

/-!
Heads are read back as they were written, whatever follows them. So no head is the beginning of
another, and one that is cut off is found out.
-/
namespace PolicyLedger.Cbor
open Utf8 (toNat_toUInt8)

/-- Bytes that are the beginning of others, and end before these do. -/
def CutOff (p bytes : List UInt8) : Prop := p <+: bytes ∧ p ≠ bytes

namespace CutOff

variable {p bytes more : List UInt8}

theorem length_lt (cut : CutOff p bytes) : p.length < bytes.length :=
  Nat.lt_of_le_of_ne cut.1.length_le fun same => cut.2 (cut.1.eq_of_length same)

private theorem nil_of_singleton {b : UInt8} (cut : CutOff p [b]) : p = [] :=
  List.eq_nil_of_length_eq_zero (Nat.lt_one_iff.mp cut.length_lt)

theorem not_nil : ¬ CutOff p [] := fun cut => absurd cut.length_lt (Nat.not_lt_zero _)

/-- Of two byte sequences, one behind the other, the first is cut off or the second is. -/
theorem append (cut : CutOff p (bytes ++ more)) : CutOff p bytes ∨ ∃ p', p = bytes ++ p' ∧ CutOff p' more := by
  obtain ⟨begins, differs⟩ := cut
  rcases List.prefix_or_prefix_of_prefix begins (List.prefix_append bytes more) with short | ⟨p', rfl⟩
  · by_cases whole : p = bytes
    · refine .inr ⟨[], by rw [whole, List.append_nil], List.nil_prefix, ?_⟩
      rintro rfl
      exact differs (by rw [whole, List.append_nil])
    · exact .inl ⟨short, whole⟩
  · refine .inr ⟨p', rfl, (List.prefix_append_right_inj bytes).mp begins, ?_⟩
    rintro rfl
    exact differs rfl

theorem behind (cut : CutOff p more) : CutOff (bytes ++ p) (bytes ++ more) :=
  ⟨(List.prefix_append_right_inj bytes).mpr cut.1, fun same => cut.2 (List.append_cancel_left same)⟩

private theorem cons {b : UInt8} (cut : CutOff p (b :: more)) : p = [] ∨ ∃ p', p = b :: p' ∧ CutOff p' more := by
  have split : CutOff p ([b] ++ more) := cut
  rcases split.append with short | behind
  · exact .inl short.nil_of_singleton
  · exact .inr behind

end CutOff

theorem splitExact?_append {α : Type} (first rest : List α) :
    splitExact? first.length (first ++ rest) = some (first, rest) := by
  induction first with
  | nil => rfl
  | cons a first ih =>
    show (splitExact? first.length (first ++ rest)).map _ = _
    rw [ih]
    rfl

theorem eq_append_of_splitExact? {α : Type} {n : Nat} {l first rest : List α}
    (split : splitExact? n l = some (first, rest)) : l = first ++ rest := by
  induction n generalizing l first with
  | zero =>
    cases split
    rfl
  | succ n ih =>
    cases l with
    | nil => cases split
    | cons a l =>
      obtain ⟨⟨others, behind⟩, found, made⟩ := Option.map_eq_some_iff.mp split
      cases made
      rw [ih found]
      rfl

theorem splitExact?_short {α : Type} {n : Nat} {l : List α} (short : l.length < n) : splitExact? n l = none := by
  induction l generalizing n with
  | nil =>
    obtain ⟨n, rfl⟩ := Nat.exists_eq_succ_of_ne_zero (Nat.ne_zero_of_lt short)
    rfl
  | cons a l ih =>
    obtain ⟨n, rfl⟩ := Nat.exists_eq_succ_of_ne_zero (Nat.ne_zero_of_lt short)
    rw [splitExact?, ih (Nat.lt_of_succ_lt_succ short)]
    rfl

private theorem bigEndian_length (count n : Nat) : (bigEndian count n).length = count := by
  induction count generalizing n with
  | zero => rfl
  | succ count ih => rw [bigEndian, List.length_append, ih, List.length_singleton]

private theorem ofBigEndian_bigEndian {count n : Nat} (small : n < 256 ^ count) :
    ofBigEndian (bigEndian count n) = n := by
  induction count generalizing n with
  | zero =>
    have none : n = 0 := Nat.lt_one_iff.mp small
    rw [none]
    rfl
  | succ count ih =>
    have higher : n / 256 < 256 ^ count := Nat.div_lt_of_lt_mul (by rwa [Nat.pow_succ, Nat.mul_comm] at small)
    have fold : ofBigEndian (bigEndian (count + 1) n) =
        ofBigEndian (bigEndian count (n / 256)) * 256 + (n % 256).toUInt8.toNat := List.foldl_append
    rw [fold, ih higher, toNat_toUInt8 (Nat.mod_lt _ (by decide))]
    exact Nat.div_add_mod' n 256

namespace Head

variable {position : Nat} {head : Head} {rest : List UInt8}

private theorem decode_cons {major minor : Nat} (kind : major < 8) (low : minor < 32) :
    decode position ((major * 32 + minor).toUInt8 :: rest) =
      let finish (number : Option UInt64) (width : Nat) (rest : List UInt8) :=
        match ofParts? major number width with
        | some head => .ok (head, rest)
        | none => .error (.malformed position)
      let wide (width : Nat) :=
        match splitExact? width rest with
        | none => .error .endOfInput
        | some (digits, rest) => finish (some (ofBigEndian digits).toUInt64) width rest
      if minor < 24 then finish (some minor.toUInt64) 0 rest
      else if minor = 24 then wide 1
      else if minor = 25 then wide 2
      else if minor = 26 then wide 4
      else if minor = 27 then wide 8
      else if minor = 31 then finish none 0 rest
      else .error (.malformed position) := by
  unfold decode
  dsimp only
  rewrite [toNat_toUInt8 (by omega), show (major * 32 + minor) / 32 = major by omega,
    show (major * 32 + minor) % 32 = minor by omega]
  rfl

/-- A number in the byte that names its kind. -/
private theorem decode_short {major minor : Nat} (kind : major < 8) (short : minor < 24)
    (parts : ofParts? major (some minor.toUInt64) 0 = some head) :
    decode position ((major * 32 + minor).toUInt8 :: rest) = .ok (head, rest) := by
  rw [decode_cons kind (by omega)]
  dsimp only
  rw [if_pos short, parts]

/-- A number in bytes of its own. -/
private theorem decode_wide (major : Nat) {minor width n : Nat} (kind : major < 8)
    (code : (minor, width) ∈ [(24, 1), (25, 2), (26, 4), (27, 8)]) (small : n < 256 ^ width)
    (parts : ofParts? major (some n.toUInt64) width = some head) :
    decode position ((major * 32 + minor).toUInt8 :: bigEndian width n ++ rest) = .ok (head, rest) := by
  have split : splitExact? width (bigEndian width n ++ rest) = some (bigEndian width n, rest) := by
    have whole := splitExact?_append (bigEndian width n) rest
    rwa [bigEndian_length] at whole
  have number := ofBigEndian_bigEndian small
  simp only [List.mem_cons, Prod.mk.injEq, List.not_mem_nil, or_false] at code
  rw [List.cons_append, decode_cons kind (by omega)]
  rcases code with ⟨rfl, rfl⟩ | ⟨rfl, rfl⟩ | ⟨rfl, rfl⟩ | ⟨rfl, rfl⟩ <;>
    simp only [Nat.reduceLT, Nat.reduceEqDiff, if_true, if_false, split, number, parts]

/-- A number that was left open. -/
private theorem decode_open (major : Nat) (kind : major < 8) (parts : ofParts? major none 0 = some head) :
    decode position ((major * 32 + 31).toUInt8 :: rest) = .ok (head, rest) := by
  rw [decode_cons kind (by omega)]
  simp only [Nat.reduceLT, Nat.reduceEqDiff, if_true, if_false, parts]

/-- A number is written in its fewest bytes; one below 256 takes one byte at most. -/
private theorem decode_number {major n : Nat} (kind : major < 8) (small : n < 2 ^ 64)
    (parts : ∀ width, (n < 256 → width ≤ 1) → ofParts? major (some n.toUInt64) width = some head) :
    decode position (encodeNumber major n ++ rest) = .ok (head, rest) := by
  unfold encodeNumber
  split
  · rename_i short
    exact decode_short kind short (parts 0 fun _ => Nat.zero_le _)
  split
  · rename_i bound
    exact decode_wide major kind (by simp) bound (parts 1 fun _ => Nat.le_refl _)
  split
  · rename_i large bound
    exact decode_wide major kind (by simp) bound (parts 2 fun below => absurd below large)
  split
  · rename_i large _ bound
    exact decode_wide major kind (by simp) bound (parts 4 fun below => absurd below large)
  · rename_i large _ _
    exact decode_wide major kind (by simp) small (parts 8 fun below => absurd below large)

private theorem decode_length {major : Nat} {length : Option UInt64} (kind : major < 8)
    (parts : ∀ width, ofParts? major length width = some head) :
    decode position (encodeLength major length ++ rest) = .ok (head, rest) := by
  cases length with
  | none => exact decode_open major kind (parts 0)
  | some n =>
    refine decode_number kind n.toNat_lt ?_
    intro width _
    rw [Nat.toUInt64_eq, UInt64.ofNat_toNat]
    exact parts width

/-- What was written as a head is read as that head, and as no more. -/
theorem decode_encode (head : Head) (position : Nat) (rest : List UInt8) :
    decode position (head.encode ++ rest) = .ok (head, rest) := by
  cases head with
  | unsigned n =>
    refine decode_number (by decide) n.toNat_lt ?_
    intro width _
    rw [Nat.toUInt64_eq, UInt64.ofNat_toNat]
    rfl
  | negative n =>
    refine decode_number (by decide) n.toNat_lt ?_
    intro width _
    rw [Nat.toUInt64_eq, UInt64.ofNat_toNat]
    rfl
  | tag n =>
    refine decode_number (by decide) n.toNat_lt ?_
    intro width _
    rw [Nat.toUInt64_eq, UInt64.ofNat_toNat]
    rfl
  | bytes length => exact decode_length (by decide) fun _ => rfl
  | text length => exact decode_length (by decide) fun _ => rfl
  | array length => exact decode_length (by decide) fun _ => rfl
  | map length => exact decode_length (by decide) fun _ => rfl
  | simple n =>
    have low := n.toNat_lt
    have same : n.toNat.toUInt64.toUInt8 = n := UInt8.toNat_inj.mp (by simp [Nat.toUInt64_eq])
    refine decode_number (by decide) (by omega) ?_
    intro width narrow
    match width, narrow low with
    | 0, _ | 1, _ => exact congrArg (fun n => some (simple n)) same
  | half bits =>
    have same : bits.toNat.toUInt64.toUInt16 = bits := UInt16.toNat_inj.mp (by simp [Nat.toUInt64_eq])
    exact decode_wide 7 (by decide) (.tail _ (.head _)) bits.toNat_lt (congrArg (fun n => some (half n)) same)
  | single bits =>
    have same : bits.toNat.toUInt64.toUInt32 = bits := UInt32.toNat_inj.mp (by simp [Nat.toUInt64_eq])
    exact decode_wide 7 (by decide) (.tail _ (.tail _ (.head _))) bits.toNat_lt
      (congrArg (fun n => some (single n)) same)
  | double bits =>
    have same : bits.toNat.toUInt64 = bits := UInt64.toNat_inj.mp (by simp [Nat.toUInt64_eq])
    exact decode_wide 7 (by decide) (.tail _ (.tail _ (.tail _ (.head _)))) bits.toNat_lt
      (congrArg (fun n => some (double n)) same)
  | stop => exact decode_open 7 (by decide) rfl

/-- Heads end where they end: what begins with a head begins with no other. -/
theorem encode_inj {head' : Head} {rest' : List UInt8} (same : head.encode ++ rest = head'.encode ++ rest') :
    head = head' ∧ rest = rest' := by
  have read := decode_encode head 0 rest
  rw [same, decode_encode head' 0 rest'] at read
  cases read
  exact ⟨rfl, rfl⟩

/-- The bytes of a number are missing if one of them is. -/
private theorem decode_wide_cutOff (major minor : Nat) {width n : Nat} {p : List UInt8} (kind : major < 8)
    (code : (minor, width) ∈ [(24, 1), (25, 2), (26, 4), (27, 8)])
    (cut : CutOff p ((major * 32 + minor).toUInt8 :: bigEndian width n)) : decode position p = .error .endOfInput := by
  rcases cut.cons with rfl | ⟨digits, rfl, missing⟩
  · rfl
  have split : splitExact? width digits = none := splitExact?_short (bigEndian_length width n ▸ missing.length_lt)
  simp only [List.mem_cons, Prod.mk.injEq, List.not_mem_nil, or_false] at code
  rw [decode_cons kind (by omega)]
  rcases code with ⟨rfl, rfl⟩ | ⟨rfl, rfl⟩ | ⟨rfl, rfl⟩ | ⟨rfl, rfl⟩ <;>
    simp only [Nat.reduceLT, Nat.reduceEqDiff, if_true, if_false, split]

private theorem decode_number_cutOff {major n : Nat} {p : List UInt8} (kind : major < 8)
    (cut : CutOff p (encodeNumber major n)) : decode position p = .error .endOfInput := by
  unfold encodeNumber at cut
  split at cut
  · rw [cut.nil_of_singleton]
    rfl
  split at cut
  · exact decode_wide_cutOff major _ kind (by simp) cut
  split at cut
  · exact decode_wide_cutOff major _ kind (by simp) cut
  split at cut
  · exact decode_wide_cutOff major _ kind (by simp) cut
  · exact decode_wide_cutOff major _ kind (by simp) cut

private theorem decode_length_cutOff {major : Nat} {length : Option UInt64} {p : List UInt8} (kind : major < 8)
    (cut : CutOff p (encodeLength major length)) : decode position p = .error .endOfInput := by
  cases length with
  | none =>
    rw [cut.nil_of_singleton]
    rfl
  | some n => exact decode_number_cutOff kind cut

/-- A head that is cut off is read as the end of the bytes. -/
theorem decode_cutOff {p : List UInt8} (cut : CutOff p head.encode) : decode position p = .error .endOfInput := by
  cases head with
  | unsigned n => exact decode_number_cutOff (by decide) cut
  | negative n => exact decode_number_cutOff (by decide) cut
  | tag n => exact decode_number_cutOff (by decide) cut
  | simple n => exact decode_number_cutOff (by decide) cut
  | bytes length => exact decode_length_cutOff (by decide) cut
  | text length => exact decode_length_cutOff (by decide) cut
  | array length => exact decode_length_cutOff (by decide) cut
  | map length => exact decode_length_cutOff (by decide) cut
  | half bits => exact decode_wide_cutOff 7 25 (by decide) (by simp) cut
  | single bits => exact decode_wide_cutOff 7 26 (by decide) (by simp) cut
  | double bits => exact decode_wide_cutOff 7 27 (by decide) (by simp) cut
  | stop =>
    rw [cut.nil_of_singleton]
    rfl

theorem encode_ne_nil (head : Head) : head.encode ≠ [] := by
  intro empty
  have read := decode_encode head 0 []
  rw [empty] at read
  cases read

end Head
end PolicyLedger.Cbor
