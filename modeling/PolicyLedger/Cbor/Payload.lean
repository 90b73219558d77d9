import PolicyLedger.Cbor.Codec
import PolicyLedger.Command.Basic
import PolicyLedger.Config
import PolicyLedger.Policy.Event

/-!
The written form of everything that is stored or sent: events, commands and their outcomes, rules,
nodes and settings.
-/
namespace PolicyLedger

open Cbor

namespace NodeId

def codec : Codec NodeId := Codec.uint64.map NodeId.mk NodeId.value

end NodeId

namespace Payload

def ids : Codec (List NodeId) := NodeId.codec.list
def rights : Codec AccessRights := Codec.string.set
def properties : Codec Properties := Codec.sortedMap Codec.string Codec.string

end Payload

namespace NodeKind

def label : NodeKind → String
  | policyClass => "PolicyClass"
  | userAttribute => "UserAttribute"
  | objectAttribute => "ObjectAttribute"
  | user => "User"
  | object => "Object"

def all : List NodeKind := [policyClass, userAttribute, objectAttribute, user, object]

def codec : Codec NodeKind where
  encode kind := encodeText kind.label
  decode := Variant.decode (all.map fun kind => ⟨kind.label, .nothing kind⟩)

end NodeKind

namespace Node

def fields : Fields (NodeId × NodeKind × String × Properties × Unit) :=
  .required "id" NodeId.codec (.required "kind" NodeKind.codec
    (.required "name" .string (.required "properties" Payload.properties .none)))

def codec : Codec Node :=
  (fields.codec false).map (fun (id, kind, name, properties, _) => ⟨id, kind, name, properties⟩)
    fun n => (n.id, n.kind, n.name, n.properties, ())

end Node

namespace Author

/-- A process that is left out is none. -/
def fields : Fields (NodeId × Option String × Unit) :=
  .required "user" NodeId.codec (.field "process" Codec.string.option (some none) .none)

def codec : Codec Author :=
  (fields.codec false).map (fun (user, process, _) => ⟨user, process⟩) fun a => (a.user, a.process, ())

end Author

namespace Subject

def codec : Codec Subject where
  encode
    | node id => encodeNamed "Node" (NodeId.codec.encode id)
    | process name => encodeNamed "Process" (Codec.string.encode name)
  decode := Variant.decode [⟨"Node", .value NodeId.codec node⟩, ⟨"Process", .value .string process⟩]

end Subject

namespace ContainerCondition

def fields : Fields (NodeId × Bool × Unit) :=
  .required "container" NodeId.codec (.required "complement" .bool .none)

def codec : Codec ContainerCondition :=
  (fields.codec false).map (fun (container, complement, _) => ⟨container, complement⟩)
    fun c => (c.container, c.complement, ())

end ContainerCondition

namespace Prohibition

def fields : Fields (String × Subject × AccessRights × Bool × List ContainerCondition × Unit) :=
  .required "name" .string (.required "subject" Subject.codec (.required "access_rights" Payload.rights
    (.required "intersection" .bool (.required "container_conditions" ContainerCondition.codec.list .none))))

def codec : Codec Prohibition :=
  (fields.codec false).map
    (fun (name, subject, rights, intersection, conditions, _) => ⟨name, subject, rights, intersection, conditions⟩)
    fun p => (p.name, p.subject, p.rights, p.intersection, p.conditions, ())

end Prohibition

namespace Obligation

def fields : Fields (Author × String × String × Unit) :=
  .required "author" Author.codec (.required "name" .string (.required "source" .string .none))

def ofFields : Author × String × String × Unit → Obligation
  | (author, name, source, _) => ⟨author, name, source⟩

def toFields (o : Obligation) : Author × String × String × Unit := (o.author, o.name, o.source, ())

def codec : Codec Obligation := (fields.codec false).map ofFields toFields

end Obligation

namespace Definition

def codec : Codec Definition where
  encode
    | declared source => encodeNamed "Pml" (Codec.string.encode source)
    | native => encodeText "Native"
  decode := Variant.decode [⟨"Pml", .value .string declared⟩, ⟨"Native", .nothing native⟩]

/-- The fields of an operation and of a routine. -/
def namedFields : Fields (String × Definition × Unit) := .required "name" .string (.required "definition" codec .none)

end Definition

def Operation.codec : Codec Operation :=
  (Definition.namedFields.codec false).map (fun (name, definition, _) => ⟨name, definition⟩)
    fun o => (o.name, o.definition, ())

def Routine.codec : Codec Routine :=
  (Definition.namedFields.codec false).map (fun (name, definition, _) => ⟨name, definition⟩)
    fun r => (r.name, r.definition, ())

namespace Outcome

def codec : Codec Outcome where
  encode
    | nodeCreated id => encodeNamed "NodeCreated" (NodeId.codec.encode id)
    | applied => encodeText "Applied"
  decode := Variant.decode [⟨"NodeCreated", .value NodeId.codec nodeCreated⟩, ⟨"Applied", .nothing applied⟩]

end Outcome

/-! ### Fields that events and commands share -/

namespace Payload

def nameFields : Fields (String × Unit) := .required "name" .string .none
def sourceFields : Fields (String × Unit) := .required "source" .string .none
def namedSourceFields : Fields (String × String × Unit) := .required "name" .string sourceFields
def idFields : Fields (NodeId × Unit) := .required "id" NodeId.codec .none
def newClassFields : Fields (NodeId × String × Unit) := .required "id" NodeId.codec nameFields
def placedFields : Fields (String × List NodeId × Unit) :=
  .required "name" .string (.required "descendants" Payload.ids .none)
def newNodeFields : Fields (NodeId × String × List NodeId × Unit) := .required "id" NodeId.codec placedFields
def propertyFields : Fields (NodeId × Properties × Unit) :=
  .required "id" NodeId.codec (.required "properties" Payload.properties .none)
def assignmentFields : Fields (NodeId × List NodeId × Unit) :=
  .required "ascendant" NodeId.codec (.required "descendants" Payload.ids .none)
def associationFields : Fields (NodeId × NodeId × AccessRights × Unit) :=
  .required "ua" NodeId.codec (.required "target" NodeId.codec (.required "access_rights" Payload.rights .none))
def targetFields : Fields (NodeId × NodeId × Unit) :=
  .required "ua" NodeId.codec (.required "target" NodeId.codec .none)
def operationsFields : Fields (AccessRights × Unit) := .required "operations" Payload.rights .none

end Payload

namespace Event

open Payload in
def variants : List (Variant Event) :=
  let node (make : NodeId → String → List NodeId → Event) : Content Event :=
    .record newNodeFields fun (id, name, descendants, _) => make id name descendants
  let named (make : String → Event) : Content Event := .record nameFields fun (name, _) => make name
  let declared (make : String → String → Event) : Content Event :=
    .record namedSourceFields fun (name, source, _) => make name source
  [⟨"PolicyClassCreated", .record newClassFields fun (id, name, _) => policyClassCreated id name⟩,
    ⟨"UserAttributeCreated", node userAttributeCreated⟩,
    ⟨"ObjectAttributeCreated", node objectAttributeCreated⟩,
    ⟨"UserCreated", node userCreated⟩,
    ⟨"ObjectCreated", node objectCreated⟩,
    ⟨"NodeDeleted", .record idFields fun (id, _) => nodeDeleted id⟩,
    ⟨"NodePropertiesSet", .record propertyFields fun (id, properties, _) => propertiesSet id properties⟩,
    ⟨"AssignmentCreated", .record assignmentFields fun (id, descendants, _) => assignmentCreated id descendants⟩,
    ⟨"AssignmentDeleted", .record assignmentFields fun (id, descendants, _) => assignmentDeleted id descendants⟩,
    ⟨"AssociationCreated",
      .record associationFields fun (ua, target, rights, _) => associationCreated ua target rights⟩,
    ⟨"AssociationDeleted", .record targetFields fun (ua, target, _) => associationDeleted ua target⟩,
    ⟨"ProhibitionCreated", .value Prohibition.codec prohibitionCreated⟩,
    ⟨"ProhibitionDeleted", named prohibitionDeleted⟩,
    ⟨"ObligationCreated", .record Obligation.fields fun values => obligationCreated (.ofFields values)⟩,
    ⟨"ObligationDeleted", named obligationDeleted⟩,
    ⟨"AdminOperationCreated", declared operationCreated⟩,
    ⟨"AdminOperationDeleted", named operationDeleted⟩,
    ⟨"ResourceOperationsSet", .record operationsFields fun (rights, _) => resourceOperationsSet rights⟩,
    ⟨"AdminRoutineCreated", declared routineCreated⟩,
    ⟨"AdminRoutineDeleted", named routineDeleted⟩]

open Payload in
/-- The content of the written form of an event, below the name of its schema. -/
def encodeContent : Event → List UInt8
  | policyClassCreated id name => newClassFields.encode (id, name, ())
  | userAttributeCreated id name descendants => newNodeFields.encode (id, name, descendants, ())
  | objectAttributeCreated id name descendants => newNodeFields.encode (id, name, descendants, ())
  | userCreated id name descendants => newNodeFields.encode (id, name, descendants, ())
  | objectCreated id name descendants => newNodeFields.encode (id, name, descendants, ())
  | nodeDeleted id => idFields.encode (id, ())
  | propertiesSet id properties => propertyFields.encode (id, properties, ())
  | assignmentCreated ascendant descendants => assignmentFields.encode (ascendant, descendants, ())
  | assignmentDeleted ascendant descendants => assignmentFields.encode (ascendant, descendants, ())
  | associationCreated ua target rights => associationFields.encode (ua, target, rights, ())
  | associationDeleted ua target => targetFields.encode (ua, target, ())
  | prohibitionCreated prohibition => Prohibition.codec.encode prohibition
  | prohibitionDeleted name => nameFields.encode (name, ())
  | obligationCreated obligation => Obligation.fields.encode obligation.toFields
  | obligationDeleted name => nameFields.encode (name, ())
  | operationCreated name source => namedSourceFields.encode (name, source, ())
  | operationDeleted name => nameFields.encode (name, ())
  | resourceOperationsSet rights => operationsFields.encode (rights, ())
  | routineCreated name source => namedSourceFields.encode (name, source, ())
  | routineDeleted name => nameFields.encode (name, ())

def codec : Codec Event where
  encode e := encodeNamed e.schema e.encodeContent
  decode := Variant.decode variants

def toBytes (e : Event) : List UInt8 := codec.encode e

/-- The event in bytes that were recorded under the name of a schema. -/
def ofBytes (schema : String) (bytes : List UInt8) : Except DecodeError Event := do
  let e ← codec.decodeBytes bytes
  if e.schema = schema then return e else throw (.schemaMismatch schema e.schema)

end Event

namespace Command

open Payload in
def variants : List (Variant Command) :=
  let placed (make : String → List NodeId → Command) : Content Command :=
    .record placedFields fun (name, descendants, _) => make name descendants
  let named (make : String → Command) : Content Command := .record nameFields fun (name, _) => make name
  let written (make : String → Command) : Content Command := .record sourceFields fun (source, _) => make source
  [⟨"CreatePolicyClass", named createPolicyClass⟩,
    ⟨"CreateUserAttribute", placed createUserAttribute⟩,
    ⟨"CreateObjectAttribute", placed createObjectAttribute⟩,
    ⟨"CreateUser", placed createUser⟩,
    ⟨"CreateObject", placed createObject⟩,
    ⟨"DeleteNode", .record idFields fun (id, _) => deleteNode id⟩,
    ⟨"SetNodeProperties", .record propertyFields fun (id, properties, _) => setProperties id properties⟩,
    ⟨"Assign", .record assignmentFields fun (id, descendants, _) => assign id descendants⟩,
    ⟨"Deassign", .record assignmentFields fun (id, descendants, _) => deassign id descendants⟩,
    ⟨"Associate", .record associationFields fun (ua, target, rights, _) => associate ua target rights⟩,
    ⟨"Dissociate", .record targetFields fun (ua, target, _) => dissociate ua target⟩,
    ⟨"CreateProhibition", .value Prohibition.codec createProhibition⟩,
    ⟨"DeleteProhibition", named deleteProhibition⟩,
    ⟨"CreateObligation", written createObligation⟩,
    ⟨"DeleteObligation", named deleteObligation⟩,
    ⟨"CreateAdminOperation", written createOperation⟩,
    ⟨"DeleteAdminOperation", named deleteOperation⟩,
    ⟨"SetResourceOperations", .record operationsFields fun (rights, _) => setResourceOperations rights⟩,
    ⟨"CreateAdminRoutine", written createRoutine⟩,
    ⟨"DeleteAdminRoutine", named deleteRoutine⟩,
    ⟨"ExecutePml", written runText⟩]

open Payload in
def encode : Command → List UInt8
  | createPolicyClass name => encodeNamed "CreatePolicyClass" (nameFields.encode (name, ()))
  | createUserAttribute name descendants =>
    encodeNamed "CreateUserAttribute" (placedFields.encode (name, descendants, ()))
  | createObjectAttribute name descendants =>
    encodeNamed "CreateObjectAttribute" (placedFields.encode (name, descendants, ()))
  | createUser name descendants => encodeNamed "CreateUser" (placedFields.encode (name, descendants, ()))
  | createObject name descendants => encodeNamed "CreateObject" (placedFields.encode (name, descendants, ()))
  | deleteNode id => encodeNamed "DeleteNode" (idFields.encode (id, ()))
  | setProperties id properties => encodeNamed "SetNodeProperties" (propertyFields.encode (id, properties, ()))
  | assign ascendant descendants => encodeNamed "Assign" (assignmentFields.encode (ascendant, descendants, ()))
  | deassign ascendant descendants => encodeNamed "Deassign" (assignmentFields.encode (ascendant, descendants, ()))
  | associate ua target rights => encodeNamed "Associate" (associationFields.encode (ua, target, rights, ()))
  | dissociate ua target => encodeNamed "Dissociate" (targetFields.encode (ua, target, ()))
  | createProhibition prohibition => encodeNamed "CreateProhibition" (Prohibition.codec.encode prohibition)
  | deleteProhibition name => encodeNamed "DeleteProhibition" (nameFields.encode (name, ()))
  | createObligation source => encodeNamed "CreateObligation" (sourceFields.encode (source, ()))
  | deleteObligation name => encodeNamed "DeleteObligation" (nameFields.encode (name, ()))
  | createOperation source => encodeNamed "CreateAdminOperation" (sourceFields.encode (source, ()))
  | deleteOperation name => encodeNamed "DeleteAdminOperation" (nameFields.encode (name, ()))
  | setResourceOperations rights => encodeNamed "SetResourceOperations" (operationsFields.encode (rights, ()))
  | createRoutine source => encodeNamed "CreateAdminRoutine" (sourceFields.encode (source, ()))
  | deleteRoutine name => encodeNamed "DeleteAdminRoutine" (nameFields.encode (name, ()))
  | runText source => encodeNamed "ExecutePml" (sourceFields.encode (source, ()))

def codec : Codec Command where
  encode := encode
  decode := Variant.decode variants

end Command

namespace Duration

def fields : Fields (UInt64 × UInt32 × Unit) := .required "secs" .uint64 (.required "nanos" .uint32 .none)

/-- Seconds and nanoseconds, with no other fields beside them. -/
def codec : Codec Duration :=
  (fields.codec true).refine (fun (secs, nanos, _) => ofParts? secs nanos) (fun d => (d.secs, d.subsecNanos, ()))
    "duration too long"

end Duration

namespace BackoffConfig

def fields : Fields (Duration × UInt32 × Duration × Duration × Unit) :=
  .required "initial_value" Duration.codec (.required "multiplier" .uint32 (.required "max_jitter" Duration.codec
    (.required "max_value" Duration.codec .none)))

def codec : Codec BackoffConfig :=
  (fields.codec false).map
    (fun (initial, multiplier, maxJitter, ceiling, _) => ⟨initial, multiplier, maxJitter, ceiling⟩)
    fun c => (c.initial, c.multiplier, c.maxJitter, c.ceiling, ())

end BackoffConfig

namespace LogConfig

def fields : Fields (String × UInt16 × Unit) := .required "host" .string (.required "port" .uint16 .none)

def codec : Codec LogConfig :=
  (fields.codec false).map (fun (host, port, _) => ⟨host, port⟩) fun c => (c.host, c.port, ())

end LogConfig

namespace AdjudicatorConfig

def fields : Fields (UInt32 × Duration × Duration × Unit) :=
  .required "max_attempts" .uint32
    (.required "retry_interval" Duration.codec (.required "apply_timeout" Duration.codec .none))

def codec : Codec AdjudicatorConfig :=
  (fields.codec false).map (fun (attempts, interval, timeout, _) => ⟨attempts, interval, timeout⟩)
    fun c => (c.maxAttempts, c.retryInterval, c.applyTimeout, ())

end AdjudicatorConfig

namespace SubscriberConfig

def fields : Fields (UInt32 × BackoffConfig × Unit) :=
  .required "max_redeliveries" .uint32 (.required "backoff" BackoffConfig.codec .none)

def codec : Codec SubscriberConfig :=
  (fields.codec false).map (fun (redeliveries, backoff, _) => ⟨redeliveries, backoff⟩)
    fun c => (c.maxRedeliveries, c.backoff, ())

end SubscriberConfig

namespace ConsistencyConfig

def fields : Fields (Duration × SortedSet String × Unit) :=
  .required "timeout" Duration.codec (.required "excluded_methods" Codec.string.set .none)

def codec : Codec ConsistencyConfig :=
  (fields.codec false).map (fun (timeout, excluded, _) => ⟨timeout, excluded⟩) fun c => (c.timeout, c.excluded, ())

end ConsistencyConfig

namespace Config

def fields : Fields (LogConfig × String × String × AdjudicatorConfig × SubscriberConfig × ConsistencyConfig × Unit) :=
  .required "event_log" LogConfig.codec (.required "stream" .string (.required "consumer_group" .string
    (.required "adjudicator" AdjudicatorConfig.codec (.required "subscriber" SubscriberConfig.codec
      (.required "consistency" ConsistencyConfig.codec .none)))))

def codec : Codec Config :=
  (fields.codec false).map
    (fun (log, stream, group, adjudicator, subscriber, consistency, _) =>
      ⟨log, stream, group, adjudicator, subscriber, consistency⟩)
    fun c => (c.log, c.stream, c.group, c.adjudicator, c.subscriber, c.consistency, ())

end Config
end PolicyLedger
