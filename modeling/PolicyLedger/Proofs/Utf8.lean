import PolicyLedger.Text.Utf8

/-!
What is written in UTF-8 is read back, as far as it is there: where it is cut off, the characters before
that are, and at most three bytes are left over.
-/
namespace PolicyLedger.Utf8

theorem toNat_toUInt8 {n : Nat} (small : n < 256) : n.toUInt8.toNat = n := by
  rw [Nat.toUInt8_eq, UInt8.toNat_ofNat']
  exact Nat.mod_eq_of_lt small

private theorem character?_toNat {c : Char} {least : Nat} (more : Nat) (bound : least ≤ c.toNat) :
    character? least c.toNat more = some (c, more) := by
  have valid : c.toNat.isValidChar := c.valid
  rw [character?, dif_pos valid, if_pos bound]
  rfl

private theorem tail?_eq {n : Nat} (small : n < 0x40) : tail? (0x80 + n).toUInt8 = some n := by
  rw [tail?, toNat_toUInt8 (by omega), if_pos (by omega)]
  simp

private theorem decodeChar?_one {n : Nat} (small : n < 0x80) (rest : List UInt8) :
    decodeChar? n.toUInt8 rest = character? 0 n 0 := by
  unfold decodeChar?
  rw [toNat_toUInt8 (by omega)]
  dsimp only
  rw [if_pos small]

private theorem decodeChar?_two {n b : Nat} (lead : n < 0x20) (second : b < 0x40) (rest : List UInt8) :
    decodeChar? (0xc0 + n).toUInt8 ((0x80 + b).toUInt8 :: rest) = character? 0x80 (n * 0x40 + b) 1 := by
  unfold decodeChar?
  rw [toNat_toUInt8 (by omega)]
  dsimp only
  rw [if_neg (by omega), if_neg (by omega), if_pos (by omega), tail?_eq second, Nat.add_sub_cancel_left,
    Option.bind_eq_bind, Option.bind_some]

private theorem decodeChar?_three {n b c : Nat} (lead : n < 0x10) (second : b < 0x40) (third : c < 0x40)
    (rest : List UInt8) :
    decodeChar? (0xe0 + n).toUInt8 ((0x80 + b).toUInt8 :: (0x80 + c).toUInt8 :: rest) =
      character? 0x800 (n * 0x1000 + b * 0x40 + c) 2 := by
  unfold decodeChar?
  rw [toNat_toUInt8 (by omega)]
  dsimp only
  rw [if_neg (by omega), if_neg (by omega), if_neg (by omega), if_pos (by omega), tail?_eq second, tail?_eq third,
    Nat.add_sub_cancel_left, Option.bind_eq_bind, Option.bind_some, Option.bind_some]

private theorem decodeChar?_four {n b c d : Nat} (lead : n < 0x8) (second : b < 0x40) (third : c < 0x40)
    (fourth : d < 0x40) (rest : List UInt8) :
    decodeChar? (0xf0 + n).toUInt8 ((0x80 + b).toUInt8 :: (0x80 + c).toUInt8 :: (0x80 + d).toUInt8 :: rest) =
      character? 0x10000 (n * 0x40000 + b * 0x1000 + c * 0x40 + d) 3 := by
  unfold decodeChar?
  rw [toNat_toUInt8 (by omega)]
  dsimp only
  rw [if_neg (by omega), if_neg (by omega), if_neg (by omega), if_neg (by omega), if_pos (by omega),
    tail?_eq second, tail?_eq third, tail?_eq fourth, Nat.add_sub_cancel_left,
    Option.bind_eq_bind, Option.bind_some, Option.bind_some, Option.bind_some]

/-- Whatever follows a character is not looked at. -/
private theorem decodeChar?_encodeChar (c : Char) (rest : List UInt8) :
    ∃ a others, encodeChar c = a :: others ∧ decodeChar? a (others ++ rest) = some (c, others.length) := by
  have bound : c.toNat < 0x110000 := by
    rcases c.valid with low | ⟨_, high⟩
    · exact Nat.lt_trans low (by decide)
    · exact high
  rw [encodeChar]
  by_cases one : c.toNat < 0x80
  · refine ⟨_, _, if_pos one, ?_⟩
    rw [List.nil_append, decodeChar?_one one, character?_toNat 0 (Nat.zero_le _)]
    rfl
  rw [if_neg one]
  by_cases two : c.toNat < 0x800
  · refine ⟨_, _, if_pos two, ?_⟩
    rw [List.cons_append, decodeChar?_two (by omega) (by omega),
      show c.toNat / 0x40 * 0x40 + c.toNat % 0x40 = c.toNat by omega, character?_toNat 1 (by omega)]
    rfl
  rw [if_neg two]
  by_cases three : c.toNat < 0x10000
  · refine ⟨_, _, if_pos three, ?_⟩
    rw [List.cons_append, List.cons_append, decodeChar?_three (by omega) (by omega) (by omega),
      show c.toNat / 0x1000 * 0x1000 + c.toNat / 0x40 % 0x40 * 0x40 + c.toNat % 0x40 = c.toNat by omega,
      character?_toNat 2 (by omega)]
    rfl
  · refine ⟨_, _, if_neg three, ?_⟩
    rw [List.cons_append, List.cons_append, List.cons_append,
      decodeChar?_four (by omega) (by omega) (by omega) (by omega),
      show c.toNat / 0x40000 * 0x40000 + c.toNat / 0x1000 % 0x40 * 0x1000 + c.toNat / 0x40 % 0x40 * 0x40 +
        c.toNat % 0x40 = c.toNat by omega, character?_toNat 3 (by omega)]
    rfl

/-- A first byte promises so many more, and without them there is no character. -/
private theorem decodeChar?_short {a : UInt8} {others : List UInt8}
    (short : 0xc0 ≤ a.toNat ∧ others.length < 1 ∨ 0xe0 ≤ a.toNat ∧ others.length < 2 ∨
      0xf0 ≤ a.toNat ∧ others.length < 3) : decodeChar? a others = none := by
  have lead : 0xc0 ≤ a.toNat := by omega
  unfold decodeChar?
  dsimp only
  rw [if_neg (by omega), if_neg (by omega)]
  rcases others with _ | ⟨b, _ | ⟨c, _ | ⟨d, others⟩⟩⟩
  · rfl
  · dsimp only
    rw [if_neg (by simp at short; omega)]
  · dsimp only
    rw [if_neg (by simp at short; omega), if_neg (by simp at short; omega)]
  · simp only [List.length_cons] at short
    omega

/-- A character that is cut off is none yet. -/
private theorem decodeChar?_cutOff {c : Char} {a : UInt8} {others p : List UInt8} (written : encodeChar c = a :: others)
    (short : p.length < others.length) : others.length ≤ 3 ∧ decodeChar? a p = none := by
  have bound : c.toNat < 0x110000 := by
    rcases c.valid with low | ⟨_, high⟩
    · exact Nat.lt_trans low (by decide)
    · exact high
  rw [encodeChar] at written
  split at written
  · cases written
    simp at short
  split at written
  · cases written
    simp only [List.length_cons, List.length_nil] at short ⊢
    exact ⟨by omega, decodeChar?_short (by rw [toNat_toUInt8 (by omega)]; omega)⟩
  split at written
  · cases written
    simp only [List.length_cons, List.length_nil] at short ⊢
    exact ⟨by omega, decodeChar?_short (by rw [toNat_toUInt8 (by omega)]; omega)⟩
  · cases written
    simp only [List.length_cons, List.length_nil] at short ⊢
    exact ⟨by omega, decodeChar?_short (by rw [toNat_toUInt8 (by omega)]; omega)⟩

/-- A character in front is read first. -/
theorem decode_encodeChar (c : Char) {bytes left : List UInt8} {cs : List Char} (behind : decode bytes = (cs, left)) :
    decode (encodeChar c ++ bytes) = (c :: cs, left) := by
  obtain ⟨a, others, written, read⟩ := decodeChar?_encodeChar c bytes
  rw [written, List.cons_append, decode, read]
  dsimp only
  rw [List.drop_left, behind]

private theorem encode_cons (c : Char) (rest : List Char) : encode (c :: rest) = encodeChar c ++ encode rest := rfl

theorem encode_append (cs rest : List Char) : encode (cs ++ rest) = encode cs ++ encode rest := List.flatMap_append

theorem decode_encode (cs : List Char) : decode (encode cs) = (cs, []) := by
  induction cs with
  | nil =>
    show decode [] = _
    rw [decode]
  | cons c rest ih => exact decode_encodeChar c ih

/-- The beginning of what was written is read up to the last whole character. -/
theorem decode_prefix {cs : List Char} {p : List UInt8} (begins : p <+: encode cs) :
    ∃ read later left, cs = read ++ later ∧ p = encode read ++ left ∧ decode p = (read, left) ∧ left.length ≤ 3 := by
  induction cs generalizing p with
  | nil =>
    obtain rfl := List.prefix_nil.mp begins
    exact ⟨[], [], [], rfl, rfl, decode_encode [], Nat.zero_le _⟩
  | cons c rest ih =>
    rw [encode_cons] at begins
    by_cases whole : encodeChar c <+: p
    · obtain ⟨p', rfl⟩ := whole
      obtain ⟨read, later, left, rfl, rfl, decoded, few⟩ := ih ((List.prefix_append_right_inj _).mp begins)
      refine ⟨c :: read, later, left, rfl, ?_, decode_encodeChar c decoded, few⟩
      rw [encode_cons, List.append_assoc]
    · -- The first character is cut off, so nothing is read.
      have short : p <+: encodeChar c :=
        (List.prefix_or_prefix_of_prefix begins (List.prefix_append _ _)).resolve_right whole
      obtain ⟨a, others, written, _⟩ := decodeChar?_encodeChar c []
      rw [written] at short whole
      rcases p with _ | ⟨b, p⟩
      · exact ⟨[], c :: rest, [], rfl, rfl, decode_encode [], Nat.zero_le _⟩
      · obtain ⟨rfl, inside⟩ := List.cons_prefix_cons.mp short
        have fewer : p.length < others.length := Nat.lt_of_not_le fun enough =>
          whole (inside.eq_of_length_le enough ▸ List.prefix_refl _)
        obtain ⟨few, none⟩ := decodeChar?_cutOff written fewer
        refine ⟨[], c :: rest, b :: p, rfl, rfl, ?_, Nat.le_trans fewer few⟩
        rw [decode, none]

end PolicyLedger.Utf8
