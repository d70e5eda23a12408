import BuildQueue.Json.Decode
import BuildQueue.Record

/-!
# JSON forms of records

Each kind of record is written as an object with all its fields, an absent value as null, and
read back by the decoder of its name. Properties are an object from names to value and source,
an outcome is its code, the body of a patch is an array of bytes.
-/

namespace BuildQueue

open Json

namespace Json

/-- An optional value, null if it is absent. -/
def ofOption {α : Type} (form : α → Json) : Option α → Json
  | some value => form value
  | none => .null

/-- An optional string. -/
def ofText? : Option String → Json := ofOption .string

end Json

namespace Ident

variable {entity : Entity}

def toJson (id : Ident entity) : Json := .integer id.number

end Ident

namespace Timestamp

def toJson (time : Timestamp) : Json := .integer time.seconds

end Timestamp

namespace Outcome

def toJson (outcome : Outcome) : Json := .integer outcome.code

end Outcome

namespace Property

def toJson (property : Property) : Json :=
  .object [("source", .string property.source), ("value", property.value)]

def decode : Decoder Property :=
  record ["value", "source"] fun members =>
    mk <$> members.field "value" .any <*> members.field "source" .text

end Property

namespace Properties

def toJson (properties : Properties) : Json :=
  .object (properties.entries.map fun (name, property) => (name, property.toJson))

/-- Reads one named property. -/
def decodeEntry (entry : String × Json) : Except Refusal (String × Property) :=
  return (entry.1, ← Property.decode entry.2)

def decode : Decoder Properties
  | .object members => return SortedMap.ofList (← members.mapM decodeEntry)
  | _ => .error .illTyped

end Properties

namespace Request

def toJson (request : Request) : Json :=
  .object [
    ("builder_id", request.builderId.toJson),
    ("builder_name", .string request.builderName),
    ("buildset_id", request.buildsetId.toJson),
    ("claimed", .bool request.claimed),
    ("claimed_at", ofOption Timestamp.toJson request.claimedAt),
    ("complete", .bool request.complete),
    ("complete_at", ofOption Timestamp.toJson request.completeAt),
    ("id", request.id.toJson),
    ("priority", .integer request.priority),
    ("results", ofOption Outcome.toJson request.outcome),
    ("submitted_at", ofOption Timestamp.toJson request.submittedAt),
    ("waited_for", .bool request.waitedFor)]

def decode : Decoder Request :=
  record ["id", "buildset_id", "builder_id", "builder_name", "priority", "claimed", "claimed_at",
      "complete", "results", "submitted_at", "complete_at", "waited_for"] fun members =>
    mk <$> members.field "id" .ident <*> members.field "buildset_id" .ident
      <*> members.field "builder_id" .ident <*> members.field "builder_name" .text
      <*> members.field "priority" .int32 <*> members.field "claimed" .bool
      <*> members.optional "claimed_at" .timestamp <*> members.field "complete" .bool
      <*> members.optional "results" .outcome <*> members.optional "submitted_at" .timestamp
      <*> members.optional "complete_at" .timestamp <*> members.field "waited_for" .bool

end Request

namespace Buildset

def toJson (buildset : Buildset) : Json :=
  .object [
    ("complete", .bool buildset.complete),
    ("complete_at", ofOption Timestamp.toJson buildset.completeAt),
    ("external_idstring", ofText? buildset.externalId),
    ("id", buildset.id.toJson),
    ("reason", .string buildset.reason),
    ("results", ofOption Outcome.toJson buildset.outcome),
    ("submitted_at", buildset.submittedAt.toJson)]

def decode : Decoder Buildset :=
  record ["id", "reason", "external_idstring", "submitted_at", "complete", "complete_at",
      "results"] fun members =>
    mk <$> members.field "id" .ident <*> members.field "reason" .text
      <*> members.optional "external_idstring" .text <*> members.field "submitted_at" .timestamp
      <*> members.field "complete" .bool <*> members.optional "complete_at" .timestamp
      <*> members.optional "results" .outcome

end Buildset

namespace Patch

def toJson (patch : Patch) : Json :=
  .object [
    ("author", ofText? patch.author),
    ("body", .array (patch.body.map fun byte => .integer byte.toNat)),
    ("comment", ofText? patch.comment),
    ("level", .integer patch.level),
    ("subdir", ofText? patch.subdir)]

def decode : Decoder Patch :=
  record ["level", "body", "subdir", "author", "comment"] fun members =>
    mk <$> members.field "level" .int32 <*> members.field "body" (.list .byte)
      <*> members.optional "subdir" .text <*> members.optional "author" .text
      <*> members.optional "comment" .text

end Patch

namespace SourceStamp

def toJson (stamp : SourceStamp) : Json :=
  .object [
    ("branch", ofText? stamp.branch),
    ("codebase", .string stamp.codebase),
    ("id", stamp.id.toJson),
    ("patch", ofOption Patch.toJson stamp.patch),
    ("project", .string stamp.project),
    ("repository", .string stamp.repository),
    ("revision", ofText? stamp.revision)]

def decode : Decoder SourceStamp :=
  record ["id", "codebase", "repository", "branch", "project", "revision", "patch"]
    fun members =>
      mk <$> members.field "id" .ident <*> members.field "codebase" .text
        <*> members.field "repository" .text <*> members.optional "branch" .text
        <*> members.field "project" .text <*> members.optional "revision" .text
        <*> members.optional "patch" Patch.decode

end SourceStamp

namespace Change

def toJson (change : Change) : Json :=
  .object [
    ("author", .string change.author),
    ("id", change.id.toJson),
    ("properties", change.properties.toJson),
    ("revision", ofText? change.revision),
    ("when", ofOption Timestamp.toJson change.time)]

def decode : Decoder Change :=
  record ["id", "author", "revision", "when", "properties"] fun members =>
    mk <$> members.field "id" .ident <*> members.field "author" .text
      <*> members.optional "revision" .text <*> members.optional "when" .timestamp
      <*> members.field "properties" Properties.decode

end Change

namespace Builder

def toJson (builder : Builder) : Json :=
  .object [("id", builder.id.toJson), ("name", .string builder.name)]

def decode : Decoder Builder :=
  record ["id", "name"] fun members =>
    mk <$> members.field "id" .ident <*> members.field "name" .text

end Builder
end BuildQueue
