import PolicyLedger.Cbor.Source
import PolicyLedger.Duration
import PolicyLedger.Sorted.Map
import PolicyLedger.Sorted.Set

/-!
Payloads as CBOR items: a codec writes values of a type and reads them back. Records are maps from
the names of their fields, variants are maps with one entry or, without content, just their name.
-/
namespace PolicyLedger.Cbor

/-- Reads a value that may nest items to `levels` further levels. -/
abbrev Decoder (α : Type) : Type := (levels : Nat) → Source → Except DecodeError (α × Source)

def unexpected {α : Type} (description : String) : Except DecodeError α := .error (.unexpected none description)

/-- What stands inside of an item is one level deeper. -/
def deeper {α : Type} (read : Decoder α) : Decoder α
  | 0, _ => .error .tooDeep
  | levels + 1, s => read levels s

/-- Whether there is another part of an item with `count` parts, or of one that a `stop` ends. -/
def another (count : Option Nat) (s : Source) : Except DecodeError (Bool × Source) :=
  match count with
  | some n => .ok (n ≠ 0, s)
  | none => do
    let (head, after) ← s.pull
    if head = .stop then return (false, after) else return (true, after.putBack head)

/-- Parts of an item, one after the other. -/
def parts {α : Type} (read : Source → Except DecodeError (α × Source)) :
    (fuel : Nat) → (count : Option Nat) → Source → Except DecodeError (List α × Source)
  | 0, _, _ => .error .endOfInput
  | fuel + 1, count, s => do
    let (more, s) ← another count s
    if more then
      let (a, s) ← read s
      let (rest, s) ← parts read fuel (count.map (· - 1)) s
      return (a :: rest, s)
    else return ([], s)

/-- Reads past one item of whatever kind. -/
def skip (levels : Nat) (s : Source) : Except DecodeError Source := do
  let (head, after) ← s.pull
  match head with
  | .unsigned _ | .negative _ | .half _ | .single _ | .double _ => return after
  | .bytes length => return (← after.byteString length).2
  | .text length => return (← after.text length).2
  | .tag n =>
    match ← after.shortNumber? n with
    | some after => return after
    | none =>
      match levels with
      | 0 => throw .tooDeep
      | levels + 1 => skip levels after
  | .array count =>
    match levels with
    | 0 => throw .tooDeep
    | levels + 1 =>
      return (← parts (fun s => do return ((), ← skip levels s)) after.fuel (count.map UInt64.toNat) after).2
  | .map count =>
    match levels with
    | 0 => throw .tooDeep
    | levels + 1 =>
      return (← parts (fun s => do return ((), ← skip levels (← skip levels s))) after.fuel
        (count.map UInt64.toNat) after).2
  | .simple n => if 20 ≤ n ∧ n ≤ 23 then return after else unexpected "known simple value expected"
  | .stop => unexpected "item expected"

/-- Longest name of a field or variant in bytes. -/
def nameLimit : Nat := 4096

/-- Bytes of the name of a field or variant. -/
def name (s : Source) : Except DecodeError (List UInt8 × Source) := do
  let (head, position, after) ← s.skipTags
  match head with
  | .text (some n) =>
    if n.toNat ≤ nameLimit then
      let (cs, after) ← after.characters n.toNat position
      return (Utf8.encode cs, after)
    else unexpected "name expected"
  | .bytes (some n) => if n.toNat ≤ nameLimit then after.take n.toNat else unexpected "name expected"
  | _ => unexpected "name expected"

def nameBytes (name : String) : List UInt8 := Utf8.encode name.toList

def encodeText (text : String) : List UInt8 :=
  let bytes := nameBytes text
  encodeNumber 3 bytes.length ++ bytes

/-- A way to write values of a type and to read them. -/
structure Codec (α : Type) where
  encode : α → List UInt8
  decode : Decoder α

namespace Codec

variable {α β : Type}

/-- Values seen as others that not all of them stand for. -/
def refine (codec : Codec α) (of? : α → Option β) (back : β → α) (description : String) : Codec β where
  encode b := codec.encode (back b)
  decode levels s := do
    let (a, s) ← codec.decode levels s
    match of? a with
    | some b => return (b, s)
    | none => unexpected description

/-- Values seen as others. -/
def map (codec : Codec α) (of : α → β) (back : β → α) : Codec β where
  encode b := codec.encode (back b)
  decode levels s := do
    let (a, s) ← codec.decode levels s
    return (of a, s)

def nat : Codec Nat where
  encode := encodeNumber 0
  decode _ s := s.natural

def uint64 : Codec UInt64 :=
  nat.refine (fun n => if n < UInt64.size then some n.toUInt64 else none) UInt64.toNat "number too large"

def uint32 : Codec UInt32 :=
  nat.refine (fun n => if n < UInt32.size then some n.toUInt32 else none) UInt32.toNat "number too large"

def uint16 : Codec UInt16 :=
  nat.refine (fun n => if n < UInt16.size then some n.toUInt16 else none) UInt16.toNat "number too large"

def bool : Codec Bool where
  encode b := (Head.bool b).encode
  decode _ s := do
    let (head, _, after) ← s.skipTags
    if head = .bool false then return (false, after)
    else if head = .bool true then return (true, after)
    else unexpected "bool expected"

def string : Codec String where
  encode := encodeText
  decode _ s := do
    let (head, _, after) ← s.skipTags
    match head with
    | .text length => do
      let (cs, after) ← after.text length
      return (String.ofList cs, after)
    | _ => unexpected "text expected"

/-- A value or null; undefined counts as null. -/
def option (codec : Codec α) : Codec (Option α) where
  encode a? := match a? with
    | none => Head.null.encode
    | some a => codec.encode a
  decode levels s := do
    let (head, after) ← s.pull
    if head = .null ∨ head = .undefined then return (none, after)
    let (a, after) ← codec.decode levels (after.putBack head)
    return (some a, after)

/-- An array of values. An empty byte string is an empty list too. -/
def list (codec : Codec α) : Codec (List α) where
  encode items := encodeNumber 4 items.length ++ items.flatMap codec.encode
  decode levels s := do
    let (head, _, after) ← s.skipTags
    match head with
    | .array count =>
      deeper (fun levels s => parts (codec.decode levels) s.fuel (count.map UInt64.toNat) s) levels after
    | .bytes length => do
      let (bytes, after) ← after.byteString length
      if bytes.isEmpty then return ([], after) else unexpected "item expected"
    | _ => unexpected "array expected"

def set [LT α] [DecidableLT α] [KeyOrder α] (codec : Codec α) : Codec (SortedSet α) :=
  codec.list.map SortedSet.ofList SortedSet.toList

/-- A map; of entries with one key the last counts. -/
def sortedMap [LT α] [DecidableLT α] [KeyOrder α] (key : Codec α) (value : Codec β) : Codec (SortedMap α β) where
  encode m := encodeNumber 5 m.size ++ m.toList.flatMap fun entry => key.encode entry.1 ++ value.encode entry.2
  decode levels s := do
    let (head, _, after) ← s.skipTags
    match head with
    | .map count => do
      let entry (levels : Nat) (s : Source) : Except DecodeError ((α × β) × Source) := do
        let (a, s) ← key.decode levels s
        let (b, s) ← value.decode levels s
        return ((a, b), s)
      let (entries, after) ←
        deeper (fun levels s => parts (entry levels) s.fuel (count.map UInt64.toNat) s) levels after
      return (.ofList entries, after)
    | _ => unexpected "map expected"

end Codec

/-- Named parts of a record, in the order they are written. A field that may be left out has the
value that stands for it then. -/
inductive Fields : Type → Type 1
  | none : Fields Unit
  | field {α β : Type} (name : String) (codec : Codec α) (absent : Option α) (rest : Fields β) : Fields (α × β)

namespace Fields

/-- A field that has to be there. -/
def required {α β : Type} (name : String) (codec : Codec α) (rest : Fields β) : Fields (α × β) :=
  field name codec Option.none rest

/-- The values of the fields read so far. -/
def Slots : {α : Type} → Fields α → Type
  | _, none => Unit
  | _, @field α _ _ _ _ rest => Option α × rest.Slots

def vacant : {α : Type} → (fields : Fields α) → fields.Slots
  | _, none => ()
  | _, field _ _ _ rest => (Option.none, rest.vacant)

def count : {α : Type} → Fields α → Nat
  | _, none => 0
  | _, field _ _ _ rest => rest.count + 1

/-- Names and values of the fields, one after the other. -/
def encodeEntries : {α : Type} → Fields α → α → List UInt8
  | _, none, _ => []
  | _, field name codec _ rest, (a, others) => encodeText name ++ codec.encode a ++ rest.encodeEntries others

def encode {α : Type} (fields : Fields α) (a : α) : List UInt8 :=
  encodeNumber 5 fields.count ++ fields.encodeEntries a

/-- Reads the field of a name into its slot, unless there is no such field. -/
def fill? : {α : Type} → (fields : Fields α) → (name : List UInt8) → fields.Slots → Option (Decoder fields.Slots)
  | _, none, _, _ => .none
  | _, @field α _ fieldName codec _ rest, name, slots =>
    let slot : Option α := slots.1
    let others : rest.Slots := slots.2
    if name = nameBytes fieldName then
      some fun levels s =>
        match slot with
        | some _ => unexpected "field given twice"
        | .none => do
          let (a, s) ← codec.decode levels s
          return ((some a, others), s)
    else
      (rest.fill? name others).map fun read levels s => do
        let (others, s) ← read levels s
        return ((slot, others), s)

/-- The record, if no field is missing that must be there. -/
def finish : {α : Type} → (fields : Fields α) → fields.Slots → Except DecodeError α
  | _, none, _ => .ok ()
  | _, @field α _ _ _ absent rest, slots =>
    let slot : Option α := slots.1
    match slot.or absent with
    | .none => unexpected "field missing"
    | some a => do return (a, ← rest.finish slots.2)

/-- Entries of a map read into slots. Values under other names are skipped, or not allowed. -/
def fillAll {α : Type} (fields : Fields α) (closed : Bool) (levels : Nat) :
    (fuel : Nat) → (count : Option Nat) → fields.Slots → Source → Except DecodeError (fields.Slots × Source)
  | 0, _, _, _ => .error .endOfInput
  | fuel + 1, count, slots, s => do
    let (more, s) ← another count s
    if more then
      let (key, s) ← name s
      let (slots, s) ← match fields.fill? key slots with
        | some read => read levels s
        | .none => if closed then unexpected "unknown field" else do pure (slots, ← skip levels s)
      fillAll fields closed levels fuel (count.map (· - 1)) slots s
    else return (slots, s)

def decodeEntries {α : Type} (fields : Fields α) (closed : Bool) (count : Option UInt64) : Decoder α :=
  deeper fun levels s => do
    let (slots, s) ← fields.fillAll closed levels s.fuel (count.map UInt64.toNat) fields.vacant s
    return (← fields.finish slots, s)

/-- Values of all fields in order, as the first parts of an array. -/
def decodeInOrder (levels : Nat) :
    {α : Type} → Fields α → (count : Option Nat) → Source → Except DecodeError (α × Source)
  | _, none, _, s => .ok ((), s)
  | _, field _ codec _ rest, count, s => do
    let (more, s) ← another count s
    if more then
      let (a, s) ← codec.decode levels s
      let (others, s) ← rest.decodeInOrder levels (count.map (· - 1)) s
      return ((a, others), s)
    else unexpected "field missing"

/-- A record by itself: a map of its fields. -/
def codec {α : Type} (fields : Fields α) (closed : Bool) : Codec α where
  encode := fields.encode
  decode levels s := do
    let (head, _, after) ← s.skipTags
    match head with
    | .map count => fields.decodeEntries closed count levels after
    | _ => unexpected "map expected"

/-- A record as the content of a variant: a map of its fields, or an array of them in order, of which
further parts are not looked at. -/
def decodeContent {α : Type} (fields : Fields α) : Decoder α := fun levels s => do
  let (head, after) ← s.pull
  match head with
  | .map count => fields.decodeEntries false count levels after
  | .array count =>
    deeper (fun levels s => fields.decodeInOrder levels (count.map UInt64.toNat) s) levels after
  | .tag n => do
    let number? ← after.shortNumber? n
    if number?.isNone ∧ levels = 0 then throw .tooDeep
    unexpected "record expected"
  | .bytes length => do
    let _ ← after.byteString length
    unexpected "record expected"
  | .text length => do
    let _ ← after.text length
    unexpected "record expected"
  | _ => unexpected "record expected"

end Fields

/-- What a variant carries beside its name, and the value it makes of that. -/
inductive Content (α : Type) : Type 1
  | nothing (value : α)
  | value {γ : Type} (codec : Codec γ) (make : γ → α)
  | record {γ : Type} (fields : Fields γ) (make : γ → α)

/-- One case of a type of alternatives. -/
structure Variant (α : Type) where
  name : String
  content : Content α

def encodeNamed (name : String) (content : List UInt8) : List UInt8 := encodeNumber 5 1 ++ encodeText name ++ content

namespace Variant
variable {α : Type}

def decodeContent (v : Variant α) : Decoder α := fun levels s =>
  match v.content with
  | .nothing value => .ok (value, s)
  | .value codec make => do
    let (carried, s) ← codec.decode levels s
    return (make carried, s)
  | .record fields make => do
    let (carried, s) ← fields.decodeContent levels s
    return (make carried, s)

/-- Reads the name of a variant, then its content. -/
def decodeNamed (variants : List (Variant α)) : Decoder α := fun levels s => do
  let (key, s) ← Cbor.name s
  match variants.find? fun v => key = nameBytes v.name with
  | some v => v.decodeContent levels s
  | none => unexpected "unknown variant"

/-- Reads an alternative: the name of a variant and its content, as the one entry of a map or, where
a text stands in its place, one after the other. -/
def decode (variants : List (Variant α)) : Decoder α := fun levels s => do
  let (head, _, after) ← s.skipTags
  let inner ← match head with
    | .map (some 1) => pure after
    | .text _ => pure (after.putBack head)
    | _ => unexpected "variant expected"
  deeper (decodeNamed variants) levels inner

end Variant

/-- Items nest at most this deep. -/
def levelLimit : Nat := 256

/-- Reads a value off the front of bytes; what follows it is not looked at. -/
def Codec.decodeBytes {α : Type} (codec : Codec α) (bytes : List UInt8) : Except DecodeError α := do
  let (a, _) ← codec.decode levelLimit { bytes }
  return a

end PolicyLedger.Cbor
