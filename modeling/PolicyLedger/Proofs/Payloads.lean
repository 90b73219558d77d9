import PolicyLedger.Cbor.Payload
import PolicyLedger.Proofs.Codecs

/-!
All that is stored or sent is read back as it was written, whatever follows it, and is found out where it
is cut off. Events are read back under the name of their schema, and under no other.
-/
namespace PolicyLedger
open Cbor

variable {depth : Nat}

theorem NodeId.faithful_codec : NodeId.codec.Faithful depth := Codec.faithful_uint64.map fun _ => rfl

namespace Payload
open Codec

private theorem faithful_ids : ids.Faithful (depth + 1) := NodeId.faithful_codec.list

private theorem faithful_rights : rights.Faithful (depth + 1) := faithful_string.set

private theorem faithful_properties : properties.Faithful (depth + 1) := faithful_string.sortedMap faithful_string

private theorem faithful_sourceFields : sourceFields.Faithful depth := ⟨by decide, faithful_string, trivial⟩

private theorem faithful_nameFields : nameFields.Faithful depth := ⟨by decide, faithful_string, trivial⟩

private theorem faithful_namedSourceFields : namedSourceFields.Faithful depth :=
  ⟨by decide, faithful_string, faithful_string, trivial⟩

private theorem faithful_idFields : idFields.Faithful depth := ⟨by decide, NodeId.faithful_codec, trivial⟩

private theorem faithful_newClassFields : newClassFields.Faithful depth :=
  ⟨by decide, NodeId.faithful_codec, faithful_string, trivial⟩

private theorem faithful_placedFields : placedFields.Faithful (depth + 1) :=
  ⟨by decide, faithful_string, faithful_ids, trivial⟩

private theorem faithful_newNodeFields : newNodeFields.Faithful (depth + 1) :=
  ⟨by decide, NodeId.faithful_codec, faithful_string, faithful_ids, trivial⟩

private theorem faithful_propertyFields : propertyFields.Faithful (depth + 1) :=
  ⟨by decide, NodeId.faithful_codec, faithful_properties, trivial⟩

private theorem faithful_assignmentFields : assignmentFields.Faithful (depth + 1) :=
  ⟨by decide, NodeId.faithful_codec, faithful_ids, trivial⟩

private theorem faithful_associationFields : associationFields.Faithful (depth + 1) :=
  ⟨by decide, NodeId.faithful_codec, NodeId.faithful_codec, faithful_rights, trivial⟩

private theorem faithful_targetFields : targetFields.Faithful depth :=
  ⟨by decide, NodeId.faithful_codec, NodeId.faithful_codec, trivial⟩

private theorem faithful_operationsFields :
    operationsFields.Faithful (depth + 1) := ⟨by decide, faithful_rights, trivial⟩

end Payload

namespace Author

/-- Texts begin with a head of their own. -/
private theorem faithful_process : Codec.string.option.Faithful depth :=
  Codec.faithful_string.option fun text fits => by
    rw [show Codec.string.encode text = encodeText text from rfl] at fits ⊢
    have small : (nameBytes text).length < 2 ^ 64 := by
      rw [encodeText, List.length_append] at fits
      omega
    exact ⟨_, _, encodeText_eq small, Head.noConfusion, Head.noConfusion⟩

private theorem faithful_fields : fields.Faithful depth := ⟨by decide, NodeId.faithful_codec, faithful_process, trivial⟩

theorem faithful_codec : codec.Faithful (depth + 1) := (faithful_fields.codec false).map fun _ => rfl

end Author

namespace Subject

private theorem short_names :
    ∀ v ∈ [(⟨"Node", .value NodeId.codec node⟩ : Variant Subject), ⟨"Process", .value .string process⟩],
      (nameBytes v.name).length ≤ nameLimit := by decide

theorem faithful_codec : codec.Faithful (depth + 1) where
  solid subject := by cases subject <;> exact Variant.encodeNamed_ne_nil _ _
  reads subject levels fits enough := by
    cases subject with
    | node id => exact Variant.reads_value NodeId.faithful_codec rfl fits enough short_names
    | process name => exact Variant.reads_value Codec.faithful_string rfl fits enough short_names

end Subject

namespace ContainerCondition

private theorem faithful_fields :
    fields.Faithful depth := ⟨by decide, NodeId.faithful_codec, Codec.faithful_bool, trivial⟩

theorem faithful_codec : codec.Faithful (depth + 1) := (faithful_fields.codec false).map fun _ => rfl

end ContainerCondition

namespace Prohibition

private theorem faithful_fields : fields.Faithful (depth + 2) :=
  ⟨by decide, Codec.faithful_string, Subject.faithful_codec, Payload.faithful_rights, Codec.faithful_bool,
    ContainerCondition.faithful_codec.list, trivial⟩

theorem faithful_codec : codec.Faithful (depth + 3) := (faithful_fields.codec false).map fun _ => rfl

end Prohibition

namespace Obligation

private theorem faithful_fields : fields.Faithful (depth + 1) :=
  ⟨by decide, Author.faithful_codec, Codec.faithful_string, Codec.faithful_string, trivial⟩

theorem faithful_codec : codec.Faithful (depth + 2) := (faithful_fields.codec false).map fun _ => rfl

end Obligation

namespace NodeKind

private theorem short_names : ∀ v ∈ all.map fun kind => (⟨kind.label, .nothing kind⟩ : Variant NodeKind),
    (nameBytes v.name).length ≤ nameLimit := by decide

theorem faithful_codec : codec.Faithful (depth + 1) where
  solid kind empty := encodeNumber_ne_nil _ _ (List.append_eq_nil_iff.mp empty).1
  reads kind levels _ enough := by
    have some : 1 ≤ levels := Nat.le_trans (Nat.le_add_left 1 depth) enough
    cases kind <;> exact Variant.reads_nothing rfl short_names some

end NodeKind

namespace Node

private theorem faithful_fields : fields.Faithful (depth + 1) :=
  ⟨by decide, NodeId.faithful_codec, NodeKind.faithful_codec, Codec.faithful_string, Payload.faithful_properties,
    trivial⟩

theorem faithful_codec : codec.Faithful (depth + 2) := (faithful_fields.codec false).map fun _ => rfl

end Node

/-! ### Operations and routines -/

namespace Definition

private theorem short_names :
    ∀ v ∈ [(⟨"Pml", .value .string declared⟩ : Variant Definition), ⟨"Native", .nothing native⟩],
    (nameBytes v.name).length ≤ nameLimit := by decide

theorem faithful_codec : codec.Faithful (depth + 1) where
  solid definition := by
    cases definition with
    | declared source => exact Variant.encodeNamed_ne_nil _ _
    | native => exact fun empty => encodeNumber_ne_nil _ _ (List.append_eq_nil_iff.mp empty).1
  reads definition levels fits enough := by
    cases definition with
    | declared source => exact Variant.reads_value Codec.faithful_string rfl fits enough short_names
    | native => exact Variant.reads_nothing rfl short_names (Nat.le_trans (Nat.le_add_left 1 depth) enough)

private theorem faithful_namedFields : namedFields.Faithful (depth + 1) :=
  ⟨by decide, Codec.faithful_string, faithful_codec, trivial⟩

end Definition

theorem Operation.faithful_codec : codec.Faithful (depth + 2) :=
  (Definition.faithful_namedFields.codec false).map fun _ => rfl

theorem Routine.faithful_codec : codec.Faithful (depth + 2) :=
  (Definition.faithful_namedFields.codec false).map fun _ => rfl

/-! ### Settings -/

namespace Codec

private theorem faithful_uint32 : Codec.uint32.Faithful depth :=
  Codec.faithful_number (fun n => by rw [if_pos n.toNat_lt, Nat.toUInt32_eq, UInt32.ofNat_toNat])
    fun n => Nat.lt_trans n.toNat_lt (by decide)

private theorem faithful_uint16 : Codec.uint16.Faithful depth :=
  Codec.faithful_number (fun n => by rw [if_pos n.toNat_lt, Nat.toUInt16_eq, UInt16.ofNat_toNat])
    fun n => Nat.lt_trans n.toNat_lt (by decide)

end Codec

namespace Duration

/-- A span of time is put together again from its seconds and the rest. -/
private theorem ofParts?_parts (d : Duration) : ofParts? d.secs d.subsecNanos = some d := by
  have bounded := d.bounded
  simp only [limit, UInt64.size] at bounded
  have secs : d.secs.toNat = d.nanoseconds / 1000000000 := by
    rw [Duration.secs, Nat.toUInt64_eq]
    exact UInt64.toNat_ofNat_of_lt' (by simp only [UInt64.size]; omega)
  have nanos : d.subsecNanos.toNat = d.nanoseconds % 1000000000 := by
    rw [subsecNanos, Nat.toUInt32_eq]
    exact UInt32.toNat_ofNat_of_lt' (by simp only [UInt32.size]; omega)
  rw [ofParts?, secs, nanos, Nat.div_add_mod', ofNanoseconds?, dif_pos d.bounded]

private theorem faithful_fields :
    fields.Faithful depth := ⟨by decide, Codec.faithful_uint64, Codec.faithful_uint32, trivial⟩

theorem faithful_codec : codec.Faithful (depth + 1) := (faithful_fields.codec true).refine ofParts?_parts

end Duration

namespace BackoffConfig

private theorem faithful_fields : fields.Faithful (depth + 1) :=
  ⟨by decide, Duration.faithful_codec, Codec.faithful_uint32, Duration.faithful_codec, Duration.faithful_codec,
    trivial⟩

theorem faithful_codec : codec.Faithful (depth + 2) := (faithful_fields.codec false).map fun _ => rfl

end BackoffConfig

namespace LogConfig

private theorem faithful_fields :
    fields.Faithful depth := ⟨by decide, Codec.faithful_string, Codec.faithful_uint16, trivial⟩

theorem faithful_codec : codec.Faithful (depth + 1) := (faithful_fields.codec false).map fun _ => rfl

end LogConfig

namespace AdjudicatorConfig

private theorem faithful_fields : fields.Faithful (depth + 1) :=
  ⟨by decide, Codec.faithful_uint32, Duration.faithful_codec, Duration.faithful_codec, trivial⟩

theorem faithful_codec : codec.Faithful (depth + 2) := (faithful_fields.codec false).map fun _ => rfl

end AdjudicatorConfig

namespace SubscriberConfig

private theorem faithful_fields : fields.Faithful (depth + 2) :=
  ⟨by decide, Codec.faithful_uint32, BackoffConfig.faithful_codec, trivial⟩

theorem faithful_codec : codec.Faithful (depth + 3) := (faithful_fields.codec false).map fun _ => rfl

end SubscriberConfig

namespace ConsistencyConfig

private theorem faithful_fields : fields.Faithful (depth + 1) :=
  ⟨by decide, Duration.faithful_codec, Codec.faithful_string.set, trivial⟩

theorem faithful_codec : codec.Faithful (depth + 2) := (faithful_fields.codec false).map fun _ => rfl

end ConsistencyConfig

namespace Config

private theorem faithful_fields : fields.Faithful (depth + 3) :=
  ⟨by decide, LogConfig.faithful_codec, Codec.faithful_string, Codec.faithful_string, AdjudicatorConfig.faithful_codec,
    SubscriberConfig.faithful_codec, ConsistencyConfig.faithful_codec, trivial⟩

theorem faithful_codec : codec.Faithful (depth + 4) := (faithful_fields.codec false).map fun _ => rfl

end Config

/-! ### Outcomes, events and commands -/

namespace Outcome

private theorem short_names :
    ∀ v ∈ [(⟨"NodeCreated", .value NodeId.codec nodeCreated⟩ : Variant Outcome), ⟨"Applied", .nothing applied⟩],
      (nameBytes v.name).length ≤ nameLimit := by decide

theorem faithful_codec : codec.Faithful (depth + 1) where
  solid outcome := by
    cases outcome with
    | nodeCreated id => exact Variant.encodeNamed_ne_nil _ _
    | applied => exact fun empty => encodeNumber_ne_nil _ _ (List.append_eq_nil_iff.mp empty).1
  reads outcome levels fits enough := by
    cases outcome with
    | nodeCreated id => exact Variant.reads_value NodeId.faithful_codec rfl fits enough short_names
    | applied => exact Variant.reads_nothing rfl short_names (Nat.le_trans (Nat.le_add_left 1 depth) enough)

end Outcome

namespace Event
open Payload Variant

private theorem short_names : ∀ v ∈ variants, (nameBytes v.name).length ≤ nameLimit := by decide

theorem faithful_codec : codec.Faithful (depth + 4) where
  solid e := encodeNamed_ne_nil _ _
  reads e levels fits enough := by
    have shallow : depth + 1 + 2 ≤ levels := Nat.le_of_succ_le enough
    cases e with
    | policyClassCreated id name => exact reads_record faithful_newClassFields rfl fits shallow short_names
    | userAttributeCreated id name ds => exact reads_record faithful_newNodeFields rfl fits shallow short_names
    | objectAttributeCreated id name ds => exact reads_record faithful_newNodeFields rfl fits shallow short_names
    | userCreated id name ds => exact reads_record faithful_newNodeFields rfl fits shallow short_names
    | objectCreated id name ds => exact reads_record faithful_newNodeFields rfl fits shallow short_names
    | nodeDeleted id => exact reads_record faithful_idFields rfl fits shallow short_names
    | propertiesSet id properties => exact reads_record faithful_propertyFields rfl fits shallow short_names
    | assignmentCreated id ds => exact reads_record faithful_assignmentFields rfl fits shallow short_names
    | assignmentDeleted id ds => exact reads_record faithful_assignmentFields rfl fits shallow short_names
    | associationCreated ua target rights =>
      exact reads_record faithful_associationFields rfl fits shallow short_names
    | associationDeleted ua target => exact reads_record faithful_targetFields rfl fits shallow short_names
    | prohibitionCreated p => exact reads_value Prohibition.faithful_codec rfl fits enough short_names
    | prohibitionDeleted name => exact reads_record faithful_nameFields rfl fits shallow short_names
    | obligationCreated o => exact reads_record Obligation.faithful_fields rfl fits shallow short_names
    | obligationDeleted name => exact reads_record faithful_nameFields rfl fits shallow short_names
    | operationCreated name source => exact reads_record faithful_namedSourceFields rfl fits shallow short_names
    | operationDeleted name => exact reads_record faithful_nameFields rfl fits shallow short_names
    | resourceOperationsSet rights => exact reads_record faithful_operationsFields rfl fits shallow short_names
    | routineCreated name source => exact reads_record faithful_namedSourceFields rfl fits shallow short_names
    | routineDeleted name => exact reads_record faithful_nameFields rfl fits shallow short_names

end Event

namespace Command
open Payload Variant

private theorem short_names : ∀ v ∈ variants, (nameBytes v.name).length ≤ nameLimit := by decide

theorem faithful_codec : codec.Faithful (depth + 4) where
  solid c := by cases c <;> exact encodeNamed_ne_nil _ _
  reads c levels fits enough := by
    have shallow : depth + 1 + 2 ≤ levels := Nat.le_of_succ_le enough
    cases c with
    | createPolicyClass name => exact reads_record faithful_nameFields rfl fits shallow short_names
    | createUserAttribute name ds => exact reads_record faithful_placedFields rfl fits shallow short_names
    | createObjectAttribute name ds => exact reads_record faithful_placedFields rfl fits shallow short_names
    | createUser name ds => exact reads_record faithful_placedFields rfl fits shallow short_names
    | createObject name ds => exact reads_record faithful_placedFields rfl fits shallow short_names
    | deleteNode id => exact reads_record faithful_idFields rfl fits shallow short_names
    | setProperties id properties => exact reads_record faithful_propertyFields rfl fits shallow short_names
    | assign id ds => exact reads_record faithful_assignmentFields rfl fits shallow short_names
    | deassign id ds => exact reads_record faithful_assignmentFields rfl fits shallow short_names
    | associate ua target rights => exact reads_record faithful_associationFields rfl fits shallow short_names
    | dissociate ua target => exact reads_record faithful_targetFields rfl fits shallow short_names
    | createProhibition p => exact reads_value Prohibition.faithful_codec rfl fits enough short_names
    | deleteProhibition name => exact reads_record faithful_nameFields rfl fits shallow short_names
    | createObligation source => exact reads_record faithful_sourceFields rfl fits shallow short_names
    | deleteObligation name => exact reads_record faithful_nameFields rfl fits shallow short_names
    | createOperation source => exact reads_record faithful_sourceFields rfl fits shallow short_names
    | deleteOperation name => exact reads_record faithful_nameFields rfl fits shallow short_names
    | setResourceOperations rights => exact reads_record faithful_operationsFields rfl fits shallow short_names
    | createRoutine source => exact reads_record faithful_sourceFields rfl fits shallow short_names
    | deleteRoutine name => exact reads_record faithful_nameFields rfl fits shallow short_names
    | runText source => exact reads_record faithful_sourceFields rfl fits shallow short_names

end Command

/-! ### All that is stored or sent -/

/-- What was written is read off the front of bytes. -/
private theorem Cbor.Codec.Faithful.decodeBytes {α : Type} {codec : Codec α} (faithful : codec.Faithful levelLimit)
    {a : α}
    (fits : (codec.encode a).length < 2 ^ 64) (rest : List UInt8) :
    codec.decodeBytes (codec.encode a ++ rest) = .ok a := by
  obtain ⟨offset, read⟩ :=
    (faithful.reads a levelLimit fits (Nat.le_refl _)).whole { bytes := codec.encode a ++ rest } rest rfl
  exact bind_eq_ok.mpr ⟨_, read, rfl⟩

/-- What was written and cut off is read as the end of the bytes. -/
private theorem Cbor.Codec.Faithful.decodeBytes_cutOff {α : Type} {codec : Codec α}
    (faithful : codec.Faithful levelLimit)
    {a : α} (fits : (codec.encode a).length < 2 ^ 64) {p : List UInt8} (cut : CutOff p (codec.encode a)) :
    codec.decodeBytes p = .error .endOfInput := by
  rw [Codec.decodeBytes, (faithful.reads a levelLimit fits (Nat.le_refl _)).cutOff { bytes := p } p rfl cut]
  rfl

namespace Payload

/-- The codecs of all that is stored or sent by itself. -/
inductive Sent : {α : Type} → Codec α → Prop
  | event : Sent Event.codec
  | command : Sent Command.codec
  | outcome : Sent Outcome.codec
  | prohibition : Sent Prohibition.codec
  | author : Sent Author.codec
  | node : Sent Node.codec
  | obligation : Sent Obligation.codec
  | operation : Sent Operation.codec
  | routine : Sent Routine.codec
  | config : Sent Config.codec
  | backoff : Sent BackoffConfig.codec
  | string : Sent Codec.string
  | number : Sent Codec.uint64

/-- Of all that is sent, items nest far less deep than they may. -/
private theorem Sent.faithful {α : Type} {codec : Codec α} (sent : Sent codec) : codec.Faithful levelLimit := by
  cases sent with
  | event => exact Event.faithful_codec
  | command => exact Command.faithful_codec
  | outcome => exact Outcome.faithful_codec
  | prohibition => exact Prohibition.faithful_codec
  | author => exact Author.faithful_codec
  | node => exact Node.faithful_codec
  | obligation => exact Obligation.faithful_codec
  | operation => exact Operation.faithful_codec
  | routine => exact Routine.faithful_codec
  | config => exact Config.faithful_codec
  | backoff => exact BackoffConfig.faithful_codec
  | string => exact Codec.faithful_string
  | number => exact Codec.faithful_uint64

end Payload

namespace Event

/-- An event is read from its bytes, if these are fewer than 2^64, and compared with the schema it was recorded
under. -/
private theorem ofBytes_eq {e : Event} (fits : e.toBytes.length < 2 ^ 64) (schema : String) :
    ofBytes schema e.toBytes = if schema = e.schema then .ok e else .error (.schemaMismatch schema e.schema) := by
  have decoded := Payload.Sent.event.faithful.decodeBytes fits []
  rw [List.append_nil] at decoded
  rw [ofBytes, show codec.decodeBytes e.toBytes = _ from decoded]
  by_cases same : schema = e.schema
  · rw [if_pos same]
    exact if_pos same.symm
  · rw [if_neg same]
    exact if_neg (Ne.symm same)

theorem ofBytes_toBytes {e : Event} (fits : e.toBytes.length < 2 ^ 64) : ofBytes e.schema e.toBytes = .ok e :=
  (ofBytes_eq fits e.schema).trans (if_pos rfl)

end Event

namespace Payload

/-- Whatever is stored or sent is read back as it was written, whatever bytes follow it; an event is, exactly
under the name of its own schema, and is told apart from any other it was recorded as. -/
theorem reads_back :
    (∀ {α : Type} {codec : Codec α}, Sent codec → ∀ (a : α) (rest : List UInt8), (codec.encode a).length < 2 ^ 64 →
      codec.decodeBytes (codec.encode a ++ rest) = .ok a) ∧
    ∀ (schema : String) (e : Event), e.toBytes.length < 2 ^ 64 →
      Event.ofBytes schema e.toBytes = if schema = e.schema then .ok e else .error (.schemaMismatch schema e.schema) :=
  ⟨fun sent _ rest fits => sent.faithful.decodeBytes fits rest, fun schema _ fits => Event.ofBytes_eq fits schema⟩

theorem created_reads_back :
    let created : Event := .policyClassCreated ⟨1⟩ "staff"
    Event.codec.decodeBytes (created.toBytes ++ [0xff]) = .ok created ∧
      Event.ofBytes "UserCreated" created.toBytes = .error (.schemaMismatch "UserCreated" "PolicyClassCreated") :=
  ⟨reads_back.1 .event _ _ (by decide), (reads_back.2 _ _ (by decide)).trans (if_neg (by decide))⟩

/-- Whatever is stored or sent is found out where it is cut off, at any byte: what is left is read as the end of
the bytes, and as nothing else. So what one value is written as never is the beginning of what another is. -/
theorem cut_off_refused {α : Type} {codec : Codec α} (sent : Sent codec) {a : α}
    (fits : (codec.encode a).length < 2 ^ 64) :
    (∀ p, p <+: codec.encode a → p ≠ codec.encode a → codec.decodeBytes p = .error .endOfInput) ∧
      ∀ b, codec.encode b <+: codec.encode a → b = a := by
  refine ⟨fun p begins differs => sent.faithful.decodeBytes_cutOff fits ⟨begins, differs⟩, fun b begins => ?_⟩
  have small : (codec.encode b).length < 2 ^ 64 := Nat.lt_of_le_of_lt begins.length_le fits
  obtain ⟨rest, whole⟩ := begins
  -- What follows the shorter one would be ignored by its reader, which reads the longer one as the other value.
  have short := sent.faithful.decodeBytes small rest
  have long := sent.faithful.decodeBytes fits []
  rw [List.append_nil, ← whole, short] at long
  exact Except.ok.inj long

theorem staff_cut_off :
    Codec.string.decodeBytes [0x65, 0x73, 0x74, 0x61] = .error .endOfInput ∧
      ∀ text, Codec.string.encode text <+: Codec.string.encode "staff" → text = "staff" := by
  have refused := cut_off_refused .string (a := "staff") (by decide)
  exact ⟨refused.1 _ (by decide) (by decide), refused.2⟩

end Payload
end PolicyLedger
