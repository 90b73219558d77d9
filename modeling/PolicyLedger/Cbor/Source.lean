import PolicyLedger.Cbor.Head
import PolicyLedger.Text.Utf8

/-!
Reading heads, byte strings, texts and whole numbers off a byte sequence. A head can be looked at
and put back. One that was put back counts in its shortest form, so what is reported at it stands
that far before its end.
-/
namespace PolicyLedger.Cbor

structure Source where
  bytes : List UInt8
  offset : Nat := 0
  /-- A head that was read and put back. -/
  pending : Option Head := none

namespace Source

def pull (s : Source) : Except DecodeError (Head × Source) :=
  match s.pending with
  | some head => .ok (head, { s with pending := none, offset := s.offset + head.size })
  | none =>
    match Head.decode s.offset s.bytes with
    | .error e => .error e
    | .ok (head, rest) => .ok (head, { s with bytes := rest, offset := s.offset + (s.bytes.length - rest.length) })

def putBack (head : Head) (s : Source) : Source :=
  { s with pending := some head, offset := s.offset - head.size }

/-- How often something can be read from a source before it ends, at most. -/
def fuel (s : Source) : Nat := s.bytes.length + 2

def take (n : Nat) (s : Source) : Except DecodeError (List UInt8 × Source) :=
  match splitExact? n s.bytes with
  | none => .error .endOfInput
  | some (first, rest) => .ok (first, { s with bytes := rest, offset := s.offset + n })

/-- The next head that is no tag, or a tag that is wanted, and where it stands. -/
def untagged (wanted : UInt64 → Bool) : (fuel : Nat) → Source → Except DecodeError (Head × Nat × Source)
  | 0, _ => .error .endOfInput
  | fuel + 1, s => do
    let (head, after) ← s.pull
    match head with
    | .tag n => if wanted n then return (head, s.offset, after) else untagged wanted fuel after
    | _ => return (head, s.offset, after)

/-- The next head behind all tags, and where it stands. -/
def skipTags (s : Source) : Except DecodeError (Head × Nat × Source) := untagged (fun _ => false) s.fuel s

/-- Texts are read in pieces of this many bytes. -/
def pieceSize : Nat := 4096

/-- Whether the bytes of a text that ends too early are refused for their characters already: a piece
that could be read ends in more than a character cut off. -/
def spoiled : (fuel unread : Nat) → (carried bytes : List UInt8) → Bool
  | 0, _, _, _ => false
  | fuel + 1, unread, carried, bytes =>
    let wanted := min pieceSize (carried.length + unread) - carried.length
    match splitExact? wanted bytes with
    | none => false
    | some (piece, rest) =>
      let left := (Utf8.decode (carried ++ piece)).2
      decide (3 < left.length) || spoiled fuel (unread - wanted) left rest

/-- A text of `n` bytes whose head stands at `position`. -/
def characters (n position : Nat) (s : Source) : Except DecodeError (List Char × Source) :=
  match s.take n with
  | .ok (bytes, after) =>
    match Utf8.decode bytes with
    | (cs, []) => .ok (cs, after)
    | _ => .error (.malformed position)
  | .error e => .error (if spoiled (s.bytes.length + 1) n [] s.bytes then .malformed position else e)

/-- The parts of an item of open length, up to the `stop` that ends it; parts of open length nest. -/
def chunks {α : Type} (length? : Head → Option (Option UInt64))
    (read : Nat → Nat → Source → Except DecodeError (α × Source)) :
    (fuel nested : Nat) → Source → Except DecodeError (List α × Source)
  | 0, _, _ => .error .endOfInput
  | fuel + 1, nested, s => do
    let (head, after) ← s.pull
    match head with
    | .stop =>
      match nested with
      | 0 => return ([], after)
      | outer + 1 => chunks length? read fuel outer after
    | _ =>
      match length? head with
      | none => throw (.malformed s.offset)
      | some none => chunks length? read fuel (nested + 1) after
      | some (some n) => do
        let (part, after) ← read n.toNat s.offset after
        let (parts, after) ← chunks length? read fuel nested after
        return (part :: parts, after)

/-- Characters of a text whose head, just read, gives this length. -/
def text (length : Option UInt64) (s : Source) : Except DecodeError (List Char × Source) :=
  match length with
  | some n => s.characters n.toNat (s.offset - (Head.text length).size)
  | none => do
    let textLength? : Head → Option (Option UInt64)
      | .text length => some length
      | _ => none
    let (parts, after) ← chunks textLength? (fun n position s => s.characters n position) s.fuel 0 s
    return (parts.flatten, after)

def bytesLength? : Head → Option (Option UInt64)
  | .bytes length => some length
  | _ => none

/-- Bytes of a byte string whose head, just read, gives this length. -/
def byteString (length : Option UInt64) (s : Source) : Except DecodeError (List UInt8 × Source) :=
  match length with
  | some n => s.take n.toNat
  | none => do
    let (parts, after) ← chunks bytesLength? (fun n _ s => s.take n) s.fuel 0 s
    return (parts.flatten, after)

/-- Adds digits to a number of at most sixteen, of which those behind leading zeros are kept. -/
def addDigits (digits : List UInt8) : List UInt8 → Except DecodeError (List UInt8)
  | [] => .ok digits
  | b :: rest =>
    if digits.isEmpty ∧ b = 0 then addDigits digits rest
    else if digits.length < 16 then addDigits (digits ++ [b]) rest
    else .error (.unexpected none "number too large")

/-- Reads `n` further digits, sixteen at a time. -/
def moreDigits : (fuel n : Nat) → List UInt8 → Source → Except DecodeError (List UInt8 × Source)
  | 0, _, _, _ => .error .endOfInput
  | fuel + 1, n, digits, s =>
    if n = 0 then .ok (digits, s)
    else do
      let (piece, after) ← s.take (min 16 n)
      let digits ← addDigits digits piece
      moreDigits fuel (n - min 16 n) digits after

/-- The digits of a large number in the chunks of a byte string of open length. -/
def chunkedDigits : (fuel nested : Nat) → List UInt8 → Source → Except DecodeError (List UInt8 × Source)
  | 0, _, _, _ => .error .endOfInput
  | fuel + 1, nested, digits, s => do
    let (head, after) ← s.pull
    match head with
    | .stop =>
      match nested with
      | 0 => return (digits, after)
      | outer + 1 => chunkedDigits fuel outer digits after
    | .bytes none => chunkedDigits fuel (nested + 1) digits after
    | .bytes (some n) => do
      let (digits, after) ← moreDigits after.fuel n.toNat digits after
      chunkedDigits fuel nested digits after
    | _ => throw (.malformed s.offset)

/-- A large number, whose tag was just read: a byte string of at most sixteen significant bytes. -/
def largeNumber (s : Source) : Except DecodeError (Nat × Source) := do
  let (head, after) ← s.pull
  let (digits, after) ← match head with
    | .bytes (some n) => moreDigits after.fuel n.toNat [] after
    | .bytes none => chunkedDigits after.fuel 0 [] after
    | _ => throw (.unexpected none "bytes expected")
  return (ofBigEndian digits, after)

/-- The tags of large numbers: 2, and 3 for those below zero. -/
def isLarge (tag : UInt64) : Bool := tag = 2 || tag = 3

/-- Where reading goes on behind a number written in the bytes after its tag, which has just been
read. Only a byte string of at most sixteen bytes is taken for such a number; before anything else the
tag is like any other, and there is no number. -/
def shortNumber? (tag : UInt64) (s : Source) : Except DecodeError (Option Source) := do
  let (head, after) ← s.pull
  match head with
  | .bytes (some n) =>
    if isLarge tag ∧ n ≤ 16 then
      let (digits, after) ← after.take n.toNat
      if tag = 3 ∧ UInt64.size * (UInt64.size / 2) ≤ ofBigEndian digits then
        throw (.unexpected none "number too large")
      return some after
    else return none
  | _ => return none

/-- A whole number, not below zero, behind any tags. -/
def natural (s : Source) : Except DecodeError (Nat × Source) := do
  let (head, _, after) ← untagged isLarge s.fuel s
  match head with
  | .unsigned n => return (n.toNat, after)
  | .tag n => do
    let (value, after) ← after.largeNumber
    if n = 2 then return (value, after) else throw (.unexpected none "number below zero")
  | .negative _ => throw (.unexpected none "number below zero")
  | _ => throw (.unexpected none "number expected")

end Source
end PolicyLedger.Cbor
