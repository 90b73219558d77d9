import PolicyLedger.Cbor.Codec
import PolicyLedger.Proofs.Checked
import PolicyLedger.Proofs.Heads

/-!
Readings of bytes. What is read off the front of a source does not depend on what follows, and where the
bytes are cut off a reading comes to their end, whatever it has read until then; so readings can be put
one behind the other. A source with a head that was put back holds the bytes of that head and those
behind it.
-/
namespace PolicyLedger.Cbor

namespace Source

/-- The bytes a source still has to give, among them those of a head that was put back. -/
def Holds (s : Source) (bytes : List UInt8) : Prop :=
  match s.pending with
  | none => s.bytes = bytes
  | some head => head.encode ++ s.bytes = bytes

private theorem holds_putBack (head : Head) (bytes : List UInt8) (offset : Nat) :
    (putBack head { bytes, offset }).Holds (head.encode ++ bytes) := rfl

variable {s : Source} {h : Head} {rest p : List UInt8}

/-- The head that stands first is read, and is gone then. -/
private theorem pull_head (holds : s.Holds (h.encode ++ rest)) :
    ∃ offset, s.pull = .ok (h, { bytes := rest, offset }) := by
  obtain ⟨bytes, offset, pending⟩ := s
  cases pending with
  | none =>
    have stands : bytes = h.encode ++ rest := holds
    rw [pull]
    dsimp only
    rw [stands, Head.decode_encode]
    exact ⟨_, rfl⟩
  | some put =>
    obtain ⟨rfl, rfl⟩ := Head.encode_inj holds
    exact ⟨_, rfl⟩

/-- A head that is cut off is not there; one that was put back never is cut off. -/
private theorem pull_cutOff (holds : s.Holds p) (cut : CutOff p h.encode) : s.pull = .error .endOfInput := by
  obtain ⟨bytes, offset, pending⟩ := s
  cases pending with
  | none =>
    have stands : bytes = p := holds
    rw [pull]
    dsimp only
    rw [stands, Head.decode_cutOff cut]
  | some put =>
    have stands : put.encode ++ bytes = p := holds
    obtain ⟨⟨missing, whole⟩, differs⟩ := cut
    rw [← stands, List.append_assoc, ← List.append_nil h.encode] at whole
    obtain ⟨rfl, nothing⟩ := Head.encode_inj whole
    rw [(List.append_eq_nil_iff.mp nothing).1, List.append_nil] at stands
    exact absurd stands.symm differs

end Source

/-- A reading takes these bytes, wherever they stand, for this value, and comes to the end of the bytes
where they are cut off. -/
structure Reads {α : Type} (read : Source → Except DecodeError (α × Source)) (bytes : List UInt8) (a : α) : Prop where
  whole : ∀ (s : Source) (rest : List UInt8), s.Holds (bytes ++ rest) →
    ∃ offset, read s = .ok (a, { bytes := rest, offset })
  cutOff : ∀ (s : Source) (p : List UInt8), s.Holds p → CutOff p bytes → read s = .error .endOfInput

/-- The same of a reading of what stands behind a head. -/
structure ReadsOn {α : Type} (read : Source → Except DecodeError (α × Source)) (bytes : List UInt8) (a : α) : Prop where
  whole : ∀ (offset : Nat) (rest : List UInt8),
    ∃ offset', read { bytes := bytes ++ rest, offset } = .ok (a, { bytes := rest, offset := offset' })
  cutOff : ∀ (offset : Nat) (p : List UInt8), CutOff p bytes → read { bytes := p, offset } = .error .endOfInput

section

variable {α β : Type} {read : Source → Except DecodeError (α × Source)} {bytes more : List UInt8} {a : α} {b : β}

theorem Reads.on (reads : Reads read bytes a) : ReadsOn read bytes a where
  whole _ _ := reads.whole _ _ rfl
  cutOff _ _ := reads.cutOff _ _ rfl

/-- Readings one behind the other. -/
theorem Reads.bind {next : α × Source → Except DecodeError (β × Source)} (first : Reads read bytes a)
    (second : ReadsOn (fun s => next (a, s)) more b) : Reads (fun s => read s >>= next) (bytes ++ more) b where
  whole s rest holds := by
    rw [List.append_assoc] at holds
    obtain ⟨offset, done⟩ := first.whole s _ holds
    obtain ⟨offset', done'⟩ := second.whole offset rest
    refine ⟨offset', ?_⟩
    rw [done]
    exact done'
  cutOff s p holds cut := by
    rcases cut.append with early | ⟨p', rfl, late⟩
    · rw [first.cutOff s p holds early]
      rfl
    · obtain ⟨offset, done⟩ := first.whole s p' holds
      rw [done]
      exact second.cutOff offset p' late

theorem ReadsOn.bind {next : α × Source → Except DecodeError (β × Source)} (first : ReadsOn read bytes a)
    (second : ReadsOn (fun s => next (a, s)) more b) : ReadsOn (fun s => read s >>= next) (bytes ++ more) b where
  whole offset rest := by
    obtain ⟨offset', done⟩ := first.whole offset (more ++ rest)
    obtain ⟨offset'', done'⟩ := second.whole offset' rest
    refine ⟨offset'', ?_⟩
    rw [List.append_assoc, done]
    exact done'
  cutOff offset p cut := by
    rcases cut.append with early | ⟨p', rfl, late⟩
    · rw [first.cutOff offset p early]
      rfl
    · obtain ⟨offset', done⟩ := first.whole offset p'
      rw [done]
      exact second.cutOff offset' p' late

/-- Nothing is read without bytes. -/
theorem readsOn_nothing {read : Source → Except DecodeError (α × Source)}
    (done : ∀ offset rest, read { bytes := rest, offset } = .ok (a, { bytes := rest, offset })) :
    ReadsOn read [] a where
  whole offset rest := ⟨offset, done offset rest⟩
  cutOff _ _ cut := absurd cut CutOff.not_nil

/-- What is made of a value that was read, without reading on. -/
theorem Reads.then {next : α × Source → Except DecodeError (β × Source)} (reads : Reads read bytes a)
    (made : ∀ s, next (a, s) = .ok (b, s)) : Reads (fun s => read s >>= next) bytes b := by
  rw [← List.append_nil bytes]
  exact reads.bind (readsOn_nothing fun _ _ => made _)

theorem ReadsOn.then {next : α × Source → Except DecodeError (β × Source)} (reads : ReadsOn read bytes a)
    (made : ∀ s, next (a, s) = .ok (b, s)) : ReadsOn (fun s => read s >>= next) bytes b := by
  rw [← List.append_nil bytes]
  exact reads.bind (readsOn_nothing fun _ _ => made _)

/-- A value read is seen as another. -/
theorem Reads.map (reads : Reads read bytes a) (f : α → β) :
    Reads (fun s => read s >>= fun (a, s) => pure (f a, s)) bytes (f a) := reads.then fun _ => rfl

theorem ReadsOn.map (reads : ReadsOn read bytes a) (f : α → β) :
    ReadsOn (fun s => read s >>= fun (a, s) => pure (f a, s)) bytes (f a) := reads.then fun _ => rfl

end

/-- A reading part by part takes these bytes for this value, given one step more than there are parts, and
comes to the end of the bytes where they are cut off, given however few steps. -/
structure ReadsParts {α : Type} (read : (fuel : Nat) → Source → Except DecodeError (α × Source)) (count : Nat)
    (bytes : List UInt8) (a : α) : Prop where
  whole : ∀ (fuel offset : Nat) (rest : List UInt8), count < fuel →
    ∃ offset', read fuel { bytes := bytes ++ rest, offset } = .ok (a, { bytes := rest, offset := offset' })
  cutOff : ∀ (fuel offset : Nat) (p : List UInt8), CutOff p bytes →
    read fuel { bytes := p, offset } = .error .endOfInput

namespace ReadsParts

variable {α β : Type} {read : (fuel : Nat) → Source → Except DecodeError (α × Source)} {count : Nat}
  {bytes more : List UInt8} {a : α} {b : β}

/-- A source is read with a step for each of its bytes. -/
theorem on (reads : ReadsParts read count bytes a) (enough : count ≤ bytes.length) :
    ReadsOn (fun s => read s.fuel s) bytes a where
  whole offset rest := by
    refine reads.whole _ offset rest ?_
    simp only [Source.fuel, List.length_append]
    omega
  cutOff offset p cut := reads.cutOff _ offset p cut

theorem nil (done : ∀ fuel s, read (fuel + 1) s = .ok (a, s)) : ReadsParts read 0 [] a where
  whole fuel offset rest some := by
    obtain ⟨fuel, rfl⟩ := Nat.exists_eq_succ_of_ne_zero (Nat.ne_zero_of_lt some)
    exact ⟨offset, done fuel _⟩
  cutOff _ _ _ cut := absurd cut CutOff.not_nil

/-- One part, and the others behind it. -/
theorem cons {first : Source → Except DecodeError (β × Source)}
    {next : (fuel : Nat) → β × Source → Except DecodeError (α × Source)}
    (never : ∀ s, read 0 s = .error .endOfInput) (goes : ∀ fuel s, read (fuel + 1) s = first s >>= next fuel)
    (part : ReadsOn first bytes b) (others : ReadsParts (fun fuel s => next fuel (b, s)) count more a) :
    ReadsParts read (count + 1) (bytes ++ more) a where
  whole fuel offset rest enough := by
    obtain ⟨fuel, rfl⟩ := Nat.exists_eq_succ_of_ne_zero (Nat.ne_zero_of_lt enough)
    obtain ⟨middle, done⟩ := part.whole offset (more ++ rest)
    obtain ⟨last, done'⟩ := others.whole fuel middle rest (Nat.lt_of_succ_lt_succ enough)
    refine ⟨last, ?_⟩
    rw [goes, List.append_assoc, done]
    exact done'
  cutOff fuel offset p cut := by
    cases fuel with
    | zero => exact never _
    | succ fuel =>
      rw [goes]
      rcases cut.append with early | ⟨p', rfl, late⟩
      · rw [part.cutOff offset p early]
        rfl
      · obtain ⟨middle, done⟩ := part.whole offset p'
        rw [done]
        exact others.cutOff fuel middle p' late

theorem map (reads : ReadsParts read count bytes a) (f : α → β) :
    ReadsParts (fun fuel s => read fuel s >>= fun (a, s) => pure (f a, s)) count bytes (f a) where
  whole fuel offset rest enough := by
    obtain ⟨last, done⟩ := reads.whole fuel offset rest enough
    refine ⟨last, ?_⟩
    rw [done]
    rfl
  cutOff fuel offset p cut := by
    rw [reads.cutOff fuel offset p cut]
    rfl

end ReadsParts

/-! ### Heads -/

namespace Source

variable {β : Type} {s : Source} {h : Head} {rest p more : List UInt8} {b : β}

theorem reads_pull (h : Head) : Reads pull h.encode h where
  whole _ _ := pull_head
  cutOff _ _ := pull_cutOff

private theorem untagged_head (wanted : UInt64 → Bool) (fuel : Nat) (holds : s.Holds (h.encode ++ rest))
    (plain : ∀ n, h ≠ .tag n) :
    ∃ offset, untagged wanted (fuel + 1) s = .ok (h, s.offset, { bytes := rest, offset }) := by
  obtain ⟨offset, pulled⟩ := pull_head holds
  refine ⟨offset, ?_⟩
  rw [untagged, pulled]
  cases h with
  | tag n => exact absurd rfl (plain n)
  | _ => rfl

/-- A head that is no tag, and what is read behind it. -/
theorem reads_untagged {wanted : UInt64 → Bool} {next : Head × Nat × Source → Except DecodeError (β × Source)}
    (plain : ∀ n, h ≠ .tag n) (behind : ∀ position, ReadsOn (fun s => next (h, position, s)) more b) :
    Reads (fun s => untagged wanted s.fuel s >>= next) (h.encode ++ more) b where
  whole s rest holds := by
    rw [List.append_assoc] at holds
    obtain ⟨offset, found⟩ := untagged_head wanted (s.bytes.length + 1) holds plain
    obtain ⟨offset', done⟩ := (behind s.offset).whole offset rest
    refine ⟨offset', ?_⟩
    rw [fuel, found]
    exact done
  cutOff s p holds cut := by
    rw [fuel]
    rcases cut.append with early | ⟨p', rfl, late⟩
    · rw [untagged, pull_cutOff holds early]
      rfl
    · obtain ⟨offset, found⟩ := untagged_head wanted (s.bytes.length + 1) holds plain
      rw [found]
      exact (behind s.offset).cutOff offset p' late

end Source

/-- A head that was looked at and put back is read again, with what is behind it. -/
theorem Reads.putBack {α : Type} {read : Source → Except DecodeError (α × Source)} {h : Head} {more : List UInt8}
    {a : α} (reads : Reads read (h.encode ++ more) a) : ReadsOn (fun s => read (s.putBack h)) more a where
  whole offset rest := by
    refine reads.whole _ _ ?_
    rw [List.append_assoc]
    exact Source.holds_putBack h (more ++ rest) offset
  cutOff offset p cut := reads.cutOff _ _ (Source.holds_putBack h p offset) cut.behind

/-! ### Numbers, texts and names -/

theorem toNat_toUInt64 {n : Nat} (small : n < 2 ^ 64) : n.toUInt64.toNat = n := by
  rw [Nat.toUInt64_eq, UInt64.toNat_ofNat_of_lt' small]

theorem encodeNumber_toUInt64 (major : Nat) {n : Nat} (small : n < 2 ^ 64) :
    encodeNumber major n = encodeNumber major n.toUInt64.toNat := by
  rw [toNat_toUInt64 small]

namespace Source

theorem reads_natural {n : Nat} (small : n < 2 ^ 64) : Reads natural (encodeNumber 0 n) n := by
  rw [encodeNumber_toUInt64 0 small, ← List.append_nil (encodeNumber 0 _)]
  refine reads_untagged (h := .unsigned n.toUInt64) nofun fun position => readsOn_nothing fun offset rest => ?_
  show Except.ok (n.toUInt64.toNat, _) = _
  rw [toNat_toUInt64 small]

private theorem readsOn_take (bytes : List UInt8) : ReadsOn (take bytes.length) bytes bytes where
  whole offset rest := by
    refine ⟨offset + bytes.length, ?_⟩
    simp only [take, splitExact?_append]
  cutOff offset p cut := by
    simp only [take, splitExact?_short cut.length_lt]

/-- A text that is cut off is not refused for its characters: what is left over of each piece is the beginning
of a character, and goes on in the next. -/
private theorem not_spoiled (cs : List Char) {fuel unread : Nat} {carried bytes : List UInt8}
    (begins : carried ++ bytes <+: Utf8.encode cs) : spoiled fuel unread carried bytes = false := by
  induction fuel generalizing cs unread carried bytes with
  | zero => rfl
  | succ fuel ih =>
    rw [spoiled]
    dsimp only
    split
    · rfl
    · rename_i piece rest split
      rw [eq_append_of_splitExact? split, ← List.append_assoc] at begins
      obtain ⟨read, later, left, rfl, taken, decoded, few⟩ :=
        Utf8.decode_prefix ((List.prefix_append _ rest).trans begins)
      rw [decoded, Bool.or_eq_false_iff]
      refine ⟨decide_eq_false (Nat.not_lt.mpr few), ih later ?_⟩
      rw [taken, List.append_assoc, Utf8.encode_append] at begins
      exact (List.prefix_append_right_inj _).mp begins

private theorem readsOn_characters (text : String) (position : Nat) :
    ReadsOn (characters (nameBytes text).length position) (nameBytes text) text.toList where
  whole offset rest := by
    obtain ⟨offset', taken⟩ := (readsOn_take (nameBytes text)).whole offset rest
    refine ⟨offset', ?_⟩
    rw [characters, taken]
    simp only [nameBytes, Utf8.decode_encode]
  cutOff offset p cut := by
    rw [characters, (readsOn_take (nameBytes text)).cutOff offset p cut]
    dsimp only
    rw [not_spoiled text.toList (show [] ++ p <+: Utf8.encode text.toList from cut.1)]
    rfl

/-- A text is refused, if at all, at its head, wherever that stood. -/
theorem readsOn_text {text : String} (small : (nameBytes text).length < 2 ^ 64) :
    ReadsOn (Source.text (some (nameBytes text).length.toUInt64)) (nameBytes text) text.toList where
  whole offset rest := by
    rw [Source.text, toNat_toUInt64 small]
    exact (readsOn_characters text _).whole offset rest
  cutOff offset p cut := by
    rw [Source.text, toNat_toUInt64 small]
    exact (readsOn_characters text _).cutOff offset p cut

end Source

theorem encodeText_eq {text : String} (small : (nameBytes text).length < 2 ^ 64) :
    encodeText text = (Head.text (some (nameBytes text).length.toUInt64)).encode ++ nameBytes text := by
  rw [encodeText, encodeNumber_toUInt64 3 small]
  rfl

theorem reads_name {text : String} (short : (nameBytes text).length ≤ nameLimit) :
    Reads name (encodeText text) (nameBytes text) := by
  have small : (nameBytes text).length < 2 ^ 64 := Nat.lt_of_le_of_lt short (by decide)
  rw [encodeText_eq small]
  refine Source.reads_untagged nofun fun position => ?_
  simp only [toNat_toUInt64 small, if_pos short]
  exact (Source.readsOn_characters text position).then fun _ => rfl

end PolicyLedger.Cbor
