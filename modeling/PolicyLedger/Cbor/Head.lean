import PolicyLedger.Cbor.Error

/-!
Heads of CBOR items: what kind of item begins and how long it is. They are written in their
shortest form and read in any.
-/
namespace PolicyLedger.Cbor

/-- Lengths that are `none` are found out by a `stop` after the last part. -/
inductive Head where
  | unsigned (n : UInt64)
  /-- The number `-1 - n`. -/
  | negative (n : UInt64)
  | bytes (length : Option UInt64)
  | text (length : Option UInt64)
  | array (length : Option UInt64)
  | map (length : Option UInt64)
  | tag (n : UInt64)
  | simple (n : UInt8)
  | half (bits : UInt16)
  | single (bits : UInt32)
  | double (bits : UInt64)
  | stop
  deriving DecidableEq

namespace Head

def null : Head := simple 22
def undefined : Head := simple 23
def bool (b : Bool) : Head := simple (if b then 21 else 20)

end Head

/-- The last `count` bytes of a number, highest first. -/
def bigEndian : (count : Nat) → Nat → List UInt8
  | 0, _ => []
  | count + 1, n => bigEndian count (n / 256) ++ [(n % 256).toUInt8]

/-- The number that bytes make, highest first. -/
def ofBigEndian (bytes : List UInt8) : Nat := bytes.foldl (fun n b => n * 256 + b.toNat) 0

/-- A kind of item with its number in the fewest bytes. -/
def encodeNumber (major n : Nat) : List UInt8 :=
  if n < 24 then [(major * 32 + n).toUInt8]
  else if n < UInt8.size then (major * 32 + 24).toUInt8 :: bigEndian 1 n
  else if n < UInt16.size then (major * 32 + 25).toUInt8 :: bigEndian 2 n
  else if n < UInt32.size then (major * 32 + 26).toUInt8 :: bigEndian 4 n
  else (major * 32 + 27).toUInt8 :: bigEndian 8 n

def encodeLength (major : Nat) : Option UInt64 → List UInt8
  | some n => encodeNumber major n.toNat
  | none => [(major * 32 + 31).toUInt8]

def Head.encode : Head → List UInt8
  | unsigned n => encodeNumber 0 n.toNat
  | negative n => encodeNumber 1 n.toNat
  | bytes length => encodeLength 2 length
  | text length => encodeLength 3 length
  | array length => encodeLength 4 length
  | map length => encodeLength 5 length
  | tag n => encodeNumber 6 n.toNat
  | simple n => encodeNumber 7 n.toNat
  | half bits => 0xf9 :: bigEndian 2 bits.toNat
  | single bits => 0xfa :: bigEndian 4 bits.toNat
  | double bits => 0xfb :: bigEndian 8 bits.toNat
  | stop => [0xff]

/-- Number of bytes of a head in its shortest form. -/
def Head.size (h : Head) : Nat := h.encode.length

/-- The first `n` elements of a list and the others, if it has as many. -/
def splitExact? {α : Type} : (n : Nat) → List α → Option (List α × List α)
  | 0, l => some ([], l)
  | _ + 1, [] => none
  | n + 1, a :: l => (splitExact? n l).map fun (first, rest) => (a :: first, rest)

/-- Kind and number of a head: `none` stands for a number that was left open. -/
def Head.ofParts? (major : Nat) (number : Option UInt64) (width : Nat) : Option Head :=
  match major, number with
  | 0, some n => some (unsigned n)
  | 1, some n => some (negative n)
  | 2, length => some (bytes length)
  | 3, length => some (text length)
  | 4, length => some (array length)
  | 5, length => some (map length)
  | 6, some n => some (tag n)
  | 7, none => some stop
  | 7, some n =>
    match width with
    | 2 => some (half n.toUInt16)
    | 4 => some (single n.toUInt32)
    | 8 => some (double n)
    | _ => some (simple n.toUInt8)
  | _, _ => none

/-- Reads a head that stands at byte `position`. -/
def Head.decode (position : Nat) : List UInt8 → Except DecodeError (Head × List UInt8)
  | [] => .error .endOfInput
  | first :: rest =>
    let major := first.toNat / 32
    let minor := first.toNat % 32
    let finish (number : Option UInt64) (width : Nat) (rest : List UInt8) : Except DecodeError (Head × List UInt8) :=
      match ofParts? major number width with
      | some head => .ok (head, rest)
      | none => .error (.malformed position)
    let wide (width : Nat) : Except DecodeError (Head × List UInt8) :=
      match splitExact? width rest with
      | none => .error .endOfInput
      | some (digits, rest) => finish (some (ofBigEndian digits).toUInt64) width rest
    if minor < 24 then finish (some minor.toUInt64) 0 rest
    else if minor = 24 then wide 1
    else if minor = 25 then wide 2
    else if minor = 26 then wide 4
    else if minor = 27 then wide 8
    else if minor = 31 then finish none 0 rest
    else .error (.malformed position)

end PolicyLedger.Cbor
