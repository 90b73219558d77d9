import PolicyLedger.Proofs.Sources

/-!
Codecs that read back what they wrote. Values whose written form is shorter than 2^64 bytes have no part
whose length could not be written.
-/
namespace PolicyLedger.Cbor

/-- What a codec writes is never empty, and is read back as what it was written for where items may
nest to so many levels. -/
structure Codec.Faithful {α : Type} (codec : Codec α) (depth : Nat) : Prop where
  solid : ∀ a, codec.encode a ≠ []
  reads : ∀ a levels, (codec.encode a).length < 2 ^ 64 → depth ≤ levels →
    Reads (codec.decode levels) (codec.encode a) a

theorem encodeNumber_ne_nil (major n : Nat) : encodeNumber major n ≠ [] := by
  unfold encodeNumber
  repeat' split
  all_goals exact List.cons_ne_nil _ _

/-- What stands inside of an item has one level less. -/
private theorem deeper_eq {α : Type} (read : Decoder α) {depth levels : Nat} (enough : depth + 1 ≤ levels) :
    ∃ inner, depth ≤ inner ∧ deeper read levels = read inner := by
  obtain ⟨inner, rfl⟩ := Nat.exists_eq_succ_of_ne_zero (Nat.ne_zero_of_lt enough)
  exact ⟨inner, Nat.le_of_succ_le_succ enough, rfl⟩

/-- Every item takes a byte at least. -/
private theorem length_le_flatMap {α : Type} {write : α → List UInt8} {items : List α}
    (solid : ∀ a ∈ items, write a ≠ []) :
    items.length ≤ (items.flatMap write).length := by
  induction items with
  | nil => exact Nat.le_refl _
  | cons a items ih =>
    have first := List.length_pos_iff.mpr (solid a (.head _))
    have others := ih fun b member => solid b (.tail _ member)
    rw [List.flatMap_cons, List.length_append, List.length_cons]
    omega

private theorem length_le_flatMap_of_mem {α : Type} {write : α → List UInt8} {items : List α} {a : α}
    (member : a ∈ items) :
    (write a).length ≤ (items.flatMap write).length := by
  rw [List.flatMap_def]
  exact (List.sublist_flatten_of_mem (List.mem_map_of_mem member)).length_le

/-- Parts of an item whose count is known, one behind the other. -/
private theorem readsParts_parts {α : Type} {read : Source → Except DecodeError (α × Source)} {write : α → List UInt8}
    {items : List α} (reads : ∀ a ∈ items, Reads read (write a) a) :
    ReadsParts (fun fuel s => parts read fuel (some items.length) s) items.length (items.flatMap write) items := by
  induction items with
  | nil => exact .nil fun _ _ => rfl
  | cons a items ih =>
    have others := (ih fun b member => reads b (.tail _ member)).map (a :: ·)
    have goes (fuel : Nat) (s : Source) : parts read (fuel + 1) (some (items.length + 1)) s =
        read s >>= fun first => parts read fuel (some items.length) first.2 >>= fun rest =>
          pure (first.1 :: rest.1, rest.2) := rfl
    exact .cons (fun _ => rfl) goes (reads a (.head _)).on others

namespace Codec

variable {α β : Type} {codec : Codec α} {depth : Nat}

theorem Faithful.map (faithful : codec.Faithful depth) {of : α → β} {back : β → α} (same : ∀ b, of (back b) = b) :
    (codec.map of back).Faithful depth where
  solid b := faithful.solid (back b)
  reads b levels small enough := by
    have read := (faithful.reads (back b) levels small enough).map of
    rwa [same b] at read

/-- Values that are among those of another type. -/
theorem Faithful.refine (faithful : codec.Faithful depth) {of? : α → Option β} {back : β → α} {description : String}
    (same : ∀ b, of? (back b) = some b) : (codec.refine of? back description).Faithful depth where
  solid b := faithful.solid (back b)
  reads b levels small enough := (faithful.reads (back b) levels small enough).then fun s => by
    dsimp only
    rw [same b]
    rfl

/-- Whole numbers in a range. -/
theorem faithful_number {of? : Nat → Option β} {back : β → Nat} {description : String}
    (same : ∀ b, of? (back b) = some b) (small : ∀ b, back b < 2 ^ 64) :
    (nat.refine of? back description).Faithful depth where
  solid b := encodeNumber_ne_nil 0 (back b)
  reads b levels _ _ := (Source.reads_natural (small b)).then fun s => by
    dsimp only
    rw [same b]
    rfl

theorem faithful_uint64 : uint64.Faithful depth :=
  faithful_number (fun n => by rw [if_pos n.toNat_lt, Nat.toUInt64_eq, UInt64.ofNat_toNat]) UInt64.toNat_lt

theorem faithful_bool : bool.Faithful depth where
  solid b := Head.encode_ne_nil (Head.bool b)
  reads b levels _ _ := by
    rw [← List.append_nil (bool.encode b)]
    refine Source.reads_untagged (h := Head.bool b) (fun n => by cases b <;> nofun) fun position =>
      readsOn_nothing fun offset rest => ?_
    cases b <;> rfl

theorem faithful_string : string.Faithful depth where
  solid text := by
    intro empty
    exact encodeNumber_ne_nil _ _ (List.append_eq_nil_iff.mp empty).1
  reads text levels fits _ := by
    have small : (nameBytes text).length < 2 ^ 64 := by
      refine Nat.lt_of_le_of_lt ?_ fits
      rw [show string.encode text = encodeNumber 3 _ ++ nameBytes text from rfl, List.length_append]
      exact Nat.le_add_left _ _
    rw [show string.encode text = _ from encodeText_eq small]
    refine Source.reads_untagged nofun fun position => (Source.readsOn_text small).then fun s => ?_
    show Except.ok (String.ofList text.toList, _) = _
    rw [String.ofList_toList]

/-- A value that is there must not begin like one that is not. -/
theorem Faithful.option (faithful : codec.Faithful depth)
    (starts : ∀ a, (codec.encode a).length < 2 ^ 64 →
      ∃ (head : Head) (more : List UInt8), codec.encode a = head.encode ++ more ∧ head ≠ .null ∧ head ≠ .undefined) :
    codec.option.Faithful depth where
  solid a? := by
    cases a? with
    | none => exact Head.encode_ne_nil .null
    | some a => exact faithful.solid a
  reads a? levels small enough := by
    cases a? with
    | none => exact (Source.reads_pull .null).then fun _ => rfl
    | some a =>
      obtain ⟨head, more, written, some, defined⟩ := starts a small
      have again := faithful.reads a levels small enough
      rw [written] at again
      rw [show codec.option.encode (Option.some a) = codec.encode a from rfl, written]
      refine (Source.reads_pull head).bind ?_
      simp only [if_neg (not_or.mpr ⟨some, defined⟩)]
      exact again.putBack.map Option.some

theorem Faithful.list (faithful : codec.Faithful depth) : codec.list.Faithful (depth + 1) where
  solid items := by
    intro empty
    exact encodeNumber_ne_nil _ _ (List.append_eq_nil_iff.mp empty).1
  reads items levels fits enough := by
    have written : codec.list.encode items = encodeNumber 4 items.length ++ items.flatMap codec.encode := rfl
    have several : items.length ≤ (items.flatMap codec.encode).length := length_le_flatMap fun a _ => faithful.solid a
    have inner : (items.flatMap codec.encode).length < 2 ^ 64 := by
      rw [written, List.length_append] at fits
      omega
    have small : items.length < 2 ^ 64 := Nat.lt_of_le_of_lt several inner
    rw [written, encodeNumber_toUInt64 4 small]
    refine Source.reads_untagged (h := .array (some items.length.toUInt64)) nofun fun position => ?_
    obtain ⟨levels, enough, inside⟩ := deeper_eq (fun levels s => parts (codec.decode levels) s.fuel
      ((some items.length.toUInt64).map UInt64.toNat) s) enough
    dsimp only
    rw [inside, Option.map_some, toNat_toUInt64 small]
    exact (readsParts_parts fun a member => faithful.reads a levels
      (Nat.lt_of_le_of_lt (length_le_flatMap_of_mem member) inner) enough).on several

theorem Faithful.set [LT α] [DecidableLT α] [KeyOrder α] (faithful : codec.Faithful depth) :
    codec.set.Faithful (depth + 1) := faithful.list.map SortedSet.ofList_toList

/-- An entry of a map: its key and its value, one behind the other. -/
def entry (key : Codec α) (value : Codec β) : Codec (α × β) where
  encode e := key.encode e.1 ++ value.encode e.2
  decode levels s := do
    let (a, s) ← key.decode levels s
    let (b, s) ← value.decode levels s
    return ((a, b), s)

private theorem Faithful.entry {key : Codec α} {value : Codec β} (keys : key.Faithful depth)
    (values : value.Faithful depth) :
    (entry key value).Faithful depth where
  solid e empty := keys.solid e.1 (List.append_eq_nil_iff.mp empty).1
  reads e levels fits enough := by
    rw [show (Codec.entry key value).encode e = key.encode e.1 ++ value.encode e.2 from rfl,
      List.length_append] at fits
    refine (keys.reads e.1 levels (by omega) enough).bind ?_
    exact (values.reads e.2 levels (by omega) enough).on.map fun b => (e.1, b)

/-- A map is the list of its entries, under a head of its own. -/
theorem Faithful.sortedMap [LT α] [DecidableLT α] [KeyOrder α] [DecidableEq α] {key : Codec α} {value : Codec β}
    (keys : key.Faithful depth) (values : value.Faithful depth) : (Codec.sortedMap key value).Faithful (depth + 1) where
  solid m := by
    intro empty
    exact encodeNumber_ne_nil _ _ (List.append_eq_nil_iff.mp empty).1
  reads m levels fits enough := by
    have entries := keys.entry values
    have written : (Codec.sortedMap key value).encode m =
      encodeNumber 5 m.toList.length ++ m.toList.flatMap (Codec.entry key value).encode := rfl
    have several : m.toList.length ≤ (m.toList.flatMap (Codec.entry key value).encode).length :=
      length_le_flatMap fun e _ => entries.solid e
    have inner : (m.toList.flatMap (Codec.entry key value).encode).length < 2 ^ 64 := by
      rw [written, List.length_append] at fits
      omega
    have small : m.toList.length < 2 ^ 64 := Nat.lt_of_le_of_lt several inner
    rw [written, encodeNumber_toUInt64 5 small]
    refine Source.reads_untagged (h := .map (some m.toList.length.toUInt64)) nofun fun position => ?_
    obtain ⟨levels, enough, inside⟩ := deeper_eq (fun levels s => parts ((Codec.entry key value).decode levels) s.fuel
      ((some m.toList.length.toUInt64).map UInt64.toNat) s) enough
    have read := (readsParts_parts fun e member => entries.reads e levels
      (Nat.lt_of_le_of_lt (length_le_flatMap_of_mem member) inner) enough).on several
    rw [← toNat_toUInt64 small] at read
    refine ReadsOn.then (inside ▸ read) fun s => ?_
    show Except.ok (SortedMap.ofList m.toList, _) = _
    rw [SortedMap.ofList_toList]

end Codec

/-! ### Records -/

private theorem nameBytes_inj {name other : String} (same : nameBytes name = nameBytes other) : name = other := by
  have read := Utf8.decode_encode name.toList
  rw [show Utf8.encode name.toList = nameBytes other from same, nameBytes, Utf8.decode_encode] at read
  exact (String.toList_inj.mp (Prod.mk.inj read).1).symm

namespace Fields

variable {α β γ : Type}

/-- The names of the fields, in order. -/
def names : {α : Type} → Fields α → List String
  | _, none => []
  | _, field name _ _ rest => name :: rest.names

/-- All fields have codecs that read back what they wrote. -/
def Readable : {α : Type} → Fields α → (depth : Nat) → Prop
  | _, none, _ => True
  | _, field _ codec _ rest, depth => codec.Faithful depth ∧ rest.Readable depth

/-- Fields with names that can be told apart and are short enough, and with codecs that read back what
they wrote. -/
structure Faithful (fields : Fields α) (depth : Nat) : Prop where
  named : fields.names.Nodup ∧ ∀ name ∈ fields.names, (nameBytes name).length ≤ nameLimit
  readable : fields.Readable depth

/-- The slots of a record that was read. -/
def filled : {α : Type} → (fields : Fields α) → α → fields.Slots
  | _, none, _ => ()
  | _, field _ _ _ rest, (a, others) => (some a, rest.filled others)

private theorem finish_filled : {α : Type} → (fields : Fields α) → ∀ a, fields.finish (fields.filled a) = .ok a
  | _, none, _ => rfl
  | _, field _ _ _ rest, (_, others) => bind_eq_ok.mpr ⟨others, rest.finish_filled others, rfl⟩

/-- A reading of some of the slots, seen as one of them all. -/
def lifted {σ τ : Type} (lift : σ → τ) (read : Decoder σ) : Decoder τ := fun levels s => do
  let (slots, s) ← read levels s
  return (lift slots, s)

/-- Fields are filled as the last of others are, the slots before them being what they are. -/
def Lifts (fields : Fields α) (last : Fields β) (lift : last.Slots → fields.Slots) : Prop :=
  ∀ name ∈ last.names, ∀ slots,
    fields.fill? (nameBytes name) (lift slots) = (last.fill? (nameBytes name) slots).map (lifted lift)

private theorem lifts_self (fields : Fields α) : Lifts fields fields id := by
  intro name _ slots
  have same (read : Decoder fields.Slots) : lifted id read = read := by
    funext levels s
    unfold lifted
    rcases read levels s with e | ⟨slots, s⟩ <;> rfl
  rw [id, show lifted id = id from funext same, Option.map_id_fun, id]

private theorem fill?_own {name : String} {codec : Codec γ} {absent : Option γ} {last : Fields β}
    (others : last.Slots) :
    (field name codec absent last).fill? (nameBytes name) (Option.none, others) =
      some fun levels s => codec.decode levels s >>= fun (a, s) => pure ((some a, others), s) := if_pos rfl

private theorem fill?_other {name other : String} {codec : Codec γ} {absent : Option γ} {last : Fields β}
    (differ : other ≠ name) (slot : Option γ) (others : last.Slots) :
    (field name codec absent last).fill? (nameBytes other) (slot, others) =
      (last.fill? (nameBytes other) others).map (lifted fun others => (slot, others)) :=
  if_neg fun same => differ (nameBytes_inj same)

/-- Behind a field that was read, the others are filled as before. -/
private theorem Lifts.tail {fields : Fields α} {name : String} {codec : Codec γ} {absent : Option γ} {last : Fields β}
    {lift : (field name codec absent last).Slots → fields.Slots}
    (lifts : Lifts fields (field name codec absent last) lift) (fresh : name ∉ last.names) (a : γ) :
    Lifts fields last fun others => lift (some a, others) := by
  intro other member slots
  have differ : other ≠ name := fun same => fresh (same ▸ member)
  rw [lifts other (.tail _ member) (some a, slots), fill?_other differ]
  cases last.fill? (nameBytes other) slots with
  | none => rfl
  | some read =>
    refine congrArg some (funext fun levels => funext fun s => ?_)
    simp only [lifted]
    rcases read levels s with e | ⟨others, s⟩ <;> rfl

/-- One entry of a map, read into slots. -/
def fillEntry (fields : Fields α) (closed : Bool) (levels : Nat) (slots : fields.Slots) (s : Source) :
    Except DecodeError (fields.Slots × Source) := do
  let (key, s) ← Cbor.name s
  match fields.fill? key slots with
  | some read => read levels s
  | .none => if closed then unexpected "unknown field" else do pure (slots, ← skip levels s)

/-- Entries whose number is known are read one by one. -/
private theorem fillAll_succ (fields : Fields α) (closed : Bool) (levels fuel count : Nat) (slots : fields.Slots)
    (s : Source) :
    fields.fillAll closed levels (fuel + 1) (some (count + 1)) slots s =
      fields.fillEntry closed levels slots s >>= fun (slots, s) =>
        fields.fillAll closed levels fuel (some count) slots s := by
  show Cbor.name s >>= _ = (Cbor.name s >>= _) >>= _
  rw [bind_assoc]
  refine congrArg (Cbor.name s >>= ·) (funext fun (key, s) => ?_)
  dsimp only
  cases fields.fill? key slots with
  | some read => rfl
  | none =>
    cases closed with
    | false =>
      dsimp only
      cases skip levels s <;> rfl
    | true => rfl

/-- Entries of a map, written for the last of some fields, are read into their slots. -/
private theorem fillAll_entries {fields : Fields α} (closed : Bool) {levels depth : Nat} (enough : depth ≤ levels) :
    {β : Type} → (last : Fields β) → (b : β) → {lift : last.Slots → fields.Slots} → Lifts fields last lift →
    last.names.Nodup → (∀ name ∈ last.names, (nameBytes name).length ≤ nameLimit) → last.Readable depth →
    (last.encodeEntries b).length < 2 ^ 64 →
    ReadsParts (fun fuel s => fields.fillAll closed levels fuel (some last.count) (lift last.vacant) s) last.count
      (last.encodeEntries b) (lift (last.filled b))
  | _, none, _, lift, _, _, _, _, _ => .nil fun _ _ => rfl
  | _, field name codec absent last, (a, others), lift, lifts, differ, short, readable, fits => by
    obtain ⟨own, theirs⟩ := readable
    obtain ⟨fresh, apart⟩ := List.nodup_cons.mp differ
    have filling := lifts name (.head _) (Option.none, last.vacant)
    rw [fill?_own] at filling
    simp only [encodeEntries, List.length_append] at fits
    have behind := fillAll_entries closed enough last others (lifts.tail fresh a) apart
      (fun other member => short other (.tail _ member)) theirs (by omega)
    have first : ReadsOn (fields.fillEntry closed levels (lift (field name codec absent last).vacant))
        (encodeText name ++ codec.encode a) (lift (some a, last.vacant)) := by
      refine (reads_name (short name (.head _))).on.bind ?_
      have value := ((own.reads a levels (by omega) enough).on.map fun a => (some a, last.vacant)).map lift
      simp only [show fields.fill? (nameBytes name) (lift (field name codec absent last).vacant) = _ from filling]
      exact value
    exact .cons (fun _ => rfl) (fun fuel => fields.fillAll_succ closed levels fuel last.count _) first behind

private theorem count_le_length : {α : Type} → (fields : Fields α) → ∀ a, fields.count ≤ (fields.encodeEntries a).length
  | _, none, _ => Nat.zero_le _
  | _, field name codec _ rest, (a, others) => by
    have first : 0 < (encodeText name).length :=
      List.length_pos_iff.mpr fun empty => encodeNumber_ne_nil _ _ (List.append_eq_nil_iff.mp empty).1
    have behind := rest.count_le_length others
    simp only [count, encodeEntries, List.length_append]
    omega

variable {fields : Fields α} {depth levels : Nat} {a : α}

/-- A record behind the head of its map. -/
private theorem readsOn_decodeEntries (closed : Bool) (faithful : fields.Faithful depth)
    (fits : (fields.encodeEntries a).length < 2 ^ 64) (enough : depth + 1 ≤ levels) :
    ReadsOn (fields.decodeEntries closed (some fields.count.toUInt64) levels) (fields.encodeEntries a) a := by
  have bound := fields.count_le_length a
  obtain ⟨inner, enough, inside⟩ := deeper_eq (fun levels s => do
    let (slots, s) ← fields.fillAll closed levels s.fuel ((some fields.count.toUInt64).map UInt64.toNat) fields.vacant s
    return (← fields.finish slots, s)) enough
  have entries := (fillAll_entries closed enough fields a (lifts_self fields) faithful.named.1 faithful.named.2
    faithful.readable fits).on bound
  rw [← toNat_toUInt64 (Nat.lt_of_le_of_lt bound fits)] at entries
  rw [decodeEntries, inside]
  exact entries.then fun s => bind_eq_ok.mpr ⟨a, fields.finish_filled a, rfl⟩

/-- The head of the map and what is behind it. -/
private theorem encode_eq (fits : (fields.encodeEntries a).length < 2 ^ 64) :
    fields.encode a = (Head.map (some fields.count.toUInt64)).encode ++ fields.encodeEntries a := by
  rw [encode, encodeNumber_toUInt64 5 (Nat.lt_of_le_of_lt (fields.count_le_length a) fits)]
  rfl

private theorem entries_fit (fits : (fields.encode a).length < 2 ^ 64) : (fields.encodeEntries a).length < 2 ^ 64 := by
  rw [encode, List.length_append] at fits
  omega

theorem Faithful.codec (faithful : fields.Faithful depth) (closed : Bool) :
    (fields.codec closed).Faithful (depth + 1) where
  solid a empty := encodeNumber_ne_nil _ _ (List.append_eq_nil_iff.mp empty).1
  reads a levels whole enough := by
    have fits := entries_fit whole
    rw [show (fields.codec closed).encode a = _ from encode_eq fits]
    exact Source.reads_untagged nofun fun position => readsOn_decodeEntries closed faithful fits enough

/-- A record as the content of a variant. -/
private theorem Faithful.content (faithful : fields.Faithful depth) (whole : (fields.encode a).length < 2 ^ 64)
    (enough : depth + 1 ≤ levels) : ReadsOn (fields.decodeContent levels) (fields.encode a) a := by
  have fits := entries_fit whole
  rw [encode_eq fits]
  exact (Source.reads_pull _).on.bind (readsOn_decodeEntries false faithful fits enough)

end Fields

/-! ### Alternatives -/

namespace Variant

variable {α : Type} {variants : List (Variant α)} {v : Variant α} {content : List UInt8} {a : α} {depth levels : Nat}

/-- The name of a variant, and what it carries behind it. -/
private theorem reads_decodeNamed (v : Variant α) (found : variants.find? (fun other => v.name = other.name) = some v)
    (short : (nameBytes v.name).length ≤ nameLimit) (inside : ReadsOn (v.decodeContent levels) content a) :
    Reads (decodeNamed variants levels) (encodeText v.name ++ content) a := by
  have named : variants.find? (fun other => nameBytes v.name = nameBytes other.name) = some v := by
    rw [← found]
    congr 1
    funext other
    refine decide_eq_decide.mpr ⟨nameBytes_inj, ?_⟩
    intro same
    rw [same]
  refine (reads_name short).bind ?_
  simp only [named]
  exact inside

/-- A variant with content is read by its name and by what reads its content. -/
private theorem reads_named (found : variants.find? (fun other => v.name = other.name) = some v)
    (short : (nameBytes v.name).length ≤ nameLimit)
    (inside : ∀ levels, depth ≤ levels → ReadsOn (v.decodeContent levels) content a) (enough : depth + 1 ≤ levels) :
    Reads (decode variants levels) (encodeNamed v.name content) a := by
  have written : encodeNamed v.name content = (Head.map (some 1)).encode ++ (encodeText v.name ++ content) :=
    List.append_assoc ..
  obtain ⟨inner, enough, deep⟩ := deeper_eq (decodeNamed variants) enough
  rw [written]
  refine Source.reads_untagged (fun _ => Head.noConfusion) fun position => ?_
  show ReadsOn (deeper (decodeNamed variants) levels) _ a
  rw [deep]
  exact (reads_decodeNamed v found short (inside inner enough)).on

/-- A variant without content is written as its name alone. -/
theorem reads_nothing {name : String} (found : variants.find? (fun other => name = other.name) = some ⟨name, .nothing a⟩)
    (short : ∀ v ∈ variants, (nameBytes v.name).length ≤ nameLimit) (enough : 1 ≤ levels) :
    Reads (decode variants levels) (encodeText name) a := by
  have own := short ⟨name, .nothing a⟩ (List.mem_of_find?_eq_some found)
  have small : (nameBytes name).length < 2 ^ 64 := Nat.lt_of_le_of_lt own (by decide)
  obtain ⟨inner, _, deep⟩ := deeper_eq (decodeNamed variants) (Nat.le_trans (Nat.le_refl (0 + 1)) enough)
  have content : ReadsOn (decodeContent ⟨name, .nothing a⟩ inner) [] a := readsOn_nothing fun _ _ => rfl
  have named := reads_decodeNamed ⟨name, .nothing a⟩ found own content
  rw [List.append_nil, show encodeText _ = _ from encodeText_eq small, ← deep] at named
  rw [encodeText_eq small]
  exact Source.reads_untagged nofun fun position => named.putBack

private theorem content_fits {name : String} (fits : (encodeNamed name content).length < 2 ^ 64) :
    content.length < 2 ^ 64 := by
  rw [encodeNamed, List.length_append] at fits
  omega

theorem encodeNamed_ne_nil (name : String) (content : List UInt8) : encodeNamed name content ≠ [] := fun empty =>
  encodeNumber_ne_nil _ _ (List.append_eq_nil_iff.mp (List.append_eq_nil_iff.mp empty).1).1

variable {γ : Type} {name : String} {make : γ → α} {c : γ}

/-- A variant that carries a value. -/
theorem reads_value {codec : Codec γ} (faithful : codec.Faithful depth)
    (found : variants.find? (fun other => name = other.name) = some ⟨name, .value codec make⟩)
    (fits : (encodeNamed name (codec.encode c)).length < 2 ^ 64) (enough : depth + 1 ≤ levels)
    (short : ∀ v ∈ variants, (nameBytes v.name).length ≤ nameLimit) :
    Reads (decode variants levels) (encodeNamed name (codec.encode c)) (make c) :=
  reads_named (v := ⟨name, .value codec make⟩) found (short _ (List.mem_of_find?_eq_some found))
    (fun levels enough => (faithful.reads c levels (content_fits fits) enough).on.map make) enough

/-- A variant that carries a record. -/
theorem reads_record {fields : Fields γ} (faithful : fields.Faithful depth)
    (found : variants.find? (fun other => name = other.name) = some ⟨name, .record fields make⟩)
    (fits : (encodeNamed name (fields.encode c)).length < 2 ^ 64) (enough : depth + 2 ≤ levels)
    (short : ∀ v ∈ variants, (nameBytes v.name).length ≤ nameLimit) :
    Reads (decode variants levels) (encodeNamed name (fields.encode c)) (make c) :=
  reads_named (v := ⟨name, .record fields make⟩) found (short _ (List.mem_of_find?_eq_some found))
    (fun _ enough => (faithful.content (content_fits fits) enough).map make) enough

end Variant

end PolicyLedger.Cbor
