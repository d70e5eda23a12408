import BuildQueue.Proofs.Json.Restating
import BuildQueue.Proofs.Sample

/-!
# Rows survive their JSON form

Every row is read from what it is written as. The same row is read if null fields are left out, if
fields of other names are added, and from the array of the fields. A property is different: its
value may be null, which is not the same as missing.
-/

namespace BuildQueue

open Json

/-! ## Values -/

/-- The integers of 64 bits. -/
def FitsInt64 (value : Int) : Prop := Int64.minValue.toInt ≤ value ∧ value ≤ Int64.maxValue.toInt

/-- The integers of 32 bits. -/
def FitsInt32 (value : Int) : Prop := Int32.minValue.toInt ≤ value ∧ value ≤ Int32.maxValue.toInt

instance (value : Int) : Decidable (FitsInt64 value) := inferInstanceAs (Decidable (_ ∧ _))

instance (value : Int) : Decidable (FitsInt32 value) := inferInstanceAs (Decidable (_ ∧ _))

namespace Json.Decoder

variable {α : Type}

theorem between_of_le
    {low high value : Int}
    (fits : low ≤ value ∧ value ≤ high) :
    between low high (.integer value) = .ok value := if_pos fits

theorem recovers_text (value : String) : text.Recovers value (.string value) := ⟨rfl, nofun⟩

theorem recovers_bool (value : Bool) : bool.Recovers value (.bool value) := ⟨rfl, nofun⟩

theorem recovers_int32
    {value : Int}
    (fits : FitsInt32 value) :
    int32.Recovers value (.integer value) :=
  ⟨between_of_le fits, nofun⟩

theorem recovers_ident
    {entity : Entity}
    {id : Ident entity}
    (fits : FitsInt64 id.number) :
    ident.Recovers id id.toJson where
  read := by
    rw [ident, Ident.toJson, int64, between_of_le fits]
    rfl
  present := nofun

theorem recovers_timestamp
    {time : Timestamp}
    (fits : FitsInt64 time.seconds) :
    timestamp.Recovers time time.toJson where
  read := by
    rw [timestamp, Timestamp.toJson, int64, between_of_le fits]
    rfl
  present := nofun

theorem recovers_outcome (value : Outcome) : outcome.Recovers value value.toJson where
  read := by cases value <;> rfl
  present := nofun

theorem byte_toNat (value : UInt8) : byte (.integer value.toNat) = .ok value := by
  have fits : (0 : Int) ≤ value.toNat ∧ (value.toNat : Int) ≤ 255 := by
    have := value.toNat_lt
    omega
  rw [byte, between_of_le fits]
  simp [bind, Except.bind, pure, Except.pure]

/-- Items are read one by one from their forms. -/
theorem mapM_map_eq_ok
    {β γ : Type}
    {decode : β → Except Refusal γ}
    {form : α → β}
    {value : α → γ}
    (reads : ∀ item, decode (form item) = .ok (value item))
    (items : List α) :
    (items.map form).mapM decode = .ok (items.map value) := by
  induction items with
  | nil => rfl
  | cons item rest inductionHypothesis =>
      rw [List.map_cons, List.mapM_cons, reads, inductionHypothesis]
      rfl

theorem recovers_bytes (value : List UInt8) :
    (list byte).Recovers value (.array (value.map fun byte => .integer byte.toNat)) where
  read := by
    rw [list, mapM_map_eq_ok byte_toNat, List.map_id']
  present := nofun

end Json.Decoder

open Decoder

/-! ## Properties -/

/-- The value of a property is read as it is, also if it is null. -/
theorem Property.recovers (property : Property) :
    Decoder.Recovers Property.decode property property.toJson := ⟨rfl, nofun⟩

/-- A property without a value is not one whose value is null. -/
example : Property.decode (.object [("source", .string "Scheduler")]) = .error .illTyped := rfl

theorem Properties.recovers (properties : Properties) :
    Decoder.Recovers Properties.decode properties properties.toJson where
  read := by
    have entry (entry : String × Property) :
        decodeEntry (entry.1, entry.2.toJson) = .ok (id entry) := by
      rw [decodeEntry, (Property.recovers entry.2).read]
      rfl
    have form : properties.toJson =
        .object (properties.entries.map fun entry => (entry.1, entry.2.toJson)) := rfl
    rw [form, decode, mapM_map_eq_ok entry, List.map_id]
    change Except.ok (SortedMap.ofList properties.entries) = _
    rw [SortedMap.ofList_entries]
  present := nofun

/-! ## Rows of numbers that fit -/

/-- The numbers of a build request fit their columns. -/
structure Request.Fits (request : Request) : Prop where
  id : FitsInt64 request.id.number
  buildsetId : FitsInt64 request.buildsetId.number
  builderId : FitsInt64 request.builderId.number
  priority : FitsInt32 request.priority
  claimedAt : ∀ time, request.claimedAt = some time → FitsInt64 time.seconds
  submittedAt : ∀ time, request.submittedAt = some time → FitsInt64 time.seconds
  completeAt : ∀ time, request.completeAt = some time → FitsInt64 time.seconds

/-- The fields of a build request in their order. -/
def Request.fieldNames : List String :=
  ["id", "buildset_id", "builder_id", "builder_name", "priority", "claimed", "claimed_at",
    "complete", "results", "submitted_at", "complete_at", "waited_for"]

theorem Request.decode_of_restates
    {request : Request}
    {json : Json}
    (fits : request.Fits)
    (restates : Restates fieldNames (Written request.toJson) json) :
    decode json = .ok request := by
  refine record_of_restates restates fun members holds => ?_
  simp only [List.forall_mem_cons] at holds
  obtain ⟨id, buildsetId, builderId, builderName, priority, claimed, claimedAt, complete, outcome,
    submittedAt, completeAt, waitedFor, -⟩ := holds
  rw [id.field_of_written rfl (recovers_ident fits.id),
    buildsetId.field_of_written rfl (recovers_ident fits.buildsetId),
    builderId.field_of_written rfl (recovers_ident fits.builderId),
    builderName.field_of_written rfl (recovers_text _),
    priority.field_of_written rfl (recovers_int32 fits.priority),
    claimed.field_of_written rfl (recovers_bool _),
    claimedAt.optional_of_written rfl fun time given =>
      recovers_timestamp (fits.claimedAt time given),
    complete.field_of_written rfl (recovers_bool _),
    outcome.optional_of_written rfl fun value _ => recovers_outcome value,
    submittedAt.optional_of_written rfl fun time given =>
      recovers_timestamp (fits.submittedAt time given),
    completeAt.optional_of_written rfl fun time given =>
      recovers_timestamp (fits.completeAt time given),
    waitedFor.field_of_written rfl (recovers_bool _)]
  rfl

/-- The numbers of a buildset fit their columns. -/
structure Buildset.Fits (buildset : Buildset) : Prop where
  id : FitsInt64 buildset.id.number
  submittedAt : FitsInt64 buildset.submittedAt.seconds
  completeAt : ∀ time, buildset.completeAt = some time → FitsInt64 time.seconds

/-- The fields of a buildset in their order. -/
def Buildset.fieldNames : List String :=
  ["id", "reason", "external_idstring", "submitted_at", "complete", "complete_at", "results"]

theorem Buildset.decode_of_restates
    {buildset : Buildset}
    {json : Json}
    (fits : buildset.Fits)
    (restates : Restates fieldNames (Written buildset.toJson) json) :
    decode json = .ok buildset := by
  refine record_of_restates restates fun members holds => ?_
  simp only [List.forall_mem_cons] at holds
  obtain ⟨id, reason, externalId, submittedAt, complete, completeAt, outcome, -⟩ := holds
  rw [id.field_of_written rfl (recovers_ident fits.id),
    reason.field_of_written rfl (recovers_text _),
    externalId.optional_of_written rfl fun value _ => recovers_text value,
    submittedAt.field_of_written rfl (recovers_timestamp fits.submittedAt),
    complete.field_of_written rfl (recovers_bool _),
    completeAt.optional_of_written rfl fun time given =>
      recovers_timestamp (fits.completeAt time given),
    outcome.optional_of_written rfl fun value _ => recovers_outcome value]
  rfl

/-- The level of a patch fits its column. -/
def Patch.Fits (patch : Patch) : Prop := FitsInt32 patch.level

/-- The fields of a patch in their order. -/
def Patch.fieldNames : List String := ["level", "body", "subdir", "author", "comment"]

theorem Patch.recovers_of_restates
    {patch : Patch}
    {json : Json}
    (fits : patch.Fits)
    (restates : Restates fieldNames (Written patch.toJson) json) :
    Decoder.Recovers Patch.decode patch json where
  read := by
    refine record_of_restates restates fun members holds => ?_
    simp only [List.forall_mem_cons] at holds
    obtain ⟨level, body, subdir, author, comment, -⟩ := holds
    rw [level.field_of_written rfl (recovers_int32 fits),
      body.field_of_written rfl (recovers_bytes _),
      subdir.optional_of_written rfl fun value _ => recovers_text value,
      author.optional_of_written rfl fun value _ => recovers_text value,
      comment.optional_of_written rfl fun value _ => recovers_text value]
    rfl
  present := restates.ne_null

/-- The numbers of a source stamp fit their columns. -/
structure SourceStamp.Fits (stamp : SourceStamp) : Prop where
  id : FitsInt64 stamp.id.number
  patch : ∀ patch, stamp.patch = some patch → patch.Fits

/-- The fields of a source stamp in their order. -/
def SourceStamp.fieldNames : List String :=
  ["id", "codebase", "repository", "branch", "project", "revision", "patch"]

/-- What may stand under the names of the fields of a source stamp: what was written, or another way
to write its patch. -/
def SourceStamp.Shown (stamp : SourceStamp) (name : String) (json : Json) : Prop :=
  Written stamp.toJson name json ∨
    name = "patch" ∧
      ∃ patch, stamp.patch = some patch ∧ Restates Patch.fieldNames (Written patch.toJson) json

theorem SourceStamp.decode_of_restates
    {stamp : SourceStamp}
    {json : Json}
    (fits : stamp.Fits)
    (restates : Restates fieldNames stamp.Shown json) :
    decode json = .ok stamp := by
  refine record_of_restates restates fun members holds => ?_
  simp only [List.forall_mem_cons] at holds
  obtain ⟨id, codebase, repository, branch, project, revision, patch, -⟩ := holds
  -- Only the patch may stand there in another form than the one in which it was written.
  have written {name : String} (other : name ≠ "patch")
      (holds : Holds members.met name (stamp.Shown name)) :
      Holds members.met name (Written stamp.toJson name) :=
    holds.mono fun _ shows => shows.resolve_right fun restated => other restated.1
  have patches (json : Json) (shows : stamp.Shown "patch" json) :
      Decoder.nullable Patch.decode json = .ok stamp.patch := by
    obtain shows | ⟨-, patch, given, restates⟩ := shows
    · cases shows
      exact nullable_ofOption fun patch given =>
        Patch.recovers_of_restates (fits.patch patch given) (.written rfl)
    · rw [given]
      exact nullable_of_recovers (Patch.recovers_of_restates (fits.patch patch given) restates)
  rw [(written (by decide) id).field_of_written rfl (recovers_ident fits.id),
    (written (by decide) codebase).field_of_written rfl (recovers_text _),
    (written (by decide) repository).field_of_written rfl (recovers_text _),
    (written (by decide) branch).optional_of_written rfl fun value _ => recovers_text value,
    (written (by decide) project).field_of_written rfl (recovers_text _),
    (written (by decide) revision).optional_of_written rfl fun value _ => recovers_text value,
    patch.optional patches]
  rfl

/-- The numbers of a change fit their columns. -/
structure Change.Fits (change : Change) : Prop where
  id : FitsInt64 change.id.number
  time : ∀ time, change.time = some time → FitsInt64 time.seconds

/-- The fields of a change in their order. -/
def Change.fieldNames : List String := ["id", "author", "revision", "when", "properties"]

theorem Change.decode_of_restates
    {change : Change}
    {json : Json}
    (fits : change.Fits)
    (restates : Restates fieldNames (Written change.toJson) json) :
    decode json = .ok change := by
  refine record_of_restates restates fun members holds => ?_
  simp only [List.forall_mem_cons] at holds
  obtain ⟨id, author, revision, time, properties, -⟩ := holds
  rw [id.field_of_written rfl (recovers_ident fits.id),
    author.field_of_written rfl (recovers_text _),
    revision.optional_of_written rfl fun value _ => recovers_text value,
    time.optional_of_written rfl fun time given => recovers_timestamp (fits.time time given),
    properties.field_of_written rfl (Properties.recovers _)]
  rfl

/-- The number of a builder fits its column. -/
def Builder.Fits (builder : Builder) : Prop := FitsInt64 builder.id.number

/-- The fields of a builder in their order. -/
def Builder.fieldNames : List String := ["id", "name"]

theorem Builder.decode_of_restates
    {builder : Builder}
    {json : Json}
    (fits : builder.Fits)
    (restates : Restates fieldNames (Written builder.toJson) json) :
    decode json = .ok builder := by
  refine record_of_restates restates fun members holds => ?_
  simp only [List.forall_mem_cons] at holds
  obtain ⟨id, name, -⟩ := holds
  rw [id.field_of_written rfl (recovers_ident fits), name.field_of_written rfl (recovers_text _)]
  rfl

/-! ## Survival -/

/-- A row is read from what it is written as, and from every other way to write that. -/
structure Survives
    {α : Type}
    (decode : Decoder α)
    (names : List String)
    (written : Json)
    (row : α) : Prop where
  read : decode written = .ok row
  restated : ∀ json, Restates names (Written written) json → decode json = .ok row

theorem survives_of_restated
    {α : Type}
    {decode : Decoder α}
    {names : List String}
    {members : List (String × Json)}
    {row : α}
    (complete : (names.all fun name => (members.lookup name).isSome) = true)
    (restated : ∀ json, Restates names (Written (.object members)) json → decode json = .ok row) :
    Survives decode names (.object members) row :=
  ⟨restated _ (.written complete), restated⟩

/-- Rows whose numbers fit their columns are read back from their JSON form and from every other way
to write it, and source stamps also if their patches are written in another way. Properties and the
values that rows consist of are read back from their forms. -/
theorem rows_survive :
    (∀ request : Request, request.Fits →
      Survives Request.decode Request.fieldNames request.toJson request) ∧
    (∀ buildset : Buildset, buildset.Fits →
      Survives Buildset.decode Buildset.fieldNames buildset.toJson buildset) ∧
    (∀ stamp : SourceStamp, stamp.Fits →
      Survives SourceStamp.decode SourceStamp.fieldNames stamp.toJson stamp ∧
        ∀ json, Restates SourceStamp.fieldNames stamp.Shown json →
          SourceStamp.decode json = .ok stamp) ∧
    (∀ patch : Patch, patch.Fits →
      Survives Patch.decode Patch.fieldNames patch.toJson patch) ∧
    (∀ change : Change, change.Fits →
      Survives Change.decode Change.fieldNames change.toJson change) ∧
    (∀ builder : Builder, builder.Fits →
      Survives Builder.decode Builder.fieldNames builder.toJson builder) ∧
    (∀ properties : Properties, Properties.decode properties.toJson = .ok properties) ∧
    (∀ property : Property, Property.decode property.toJson = .ok property) ∧
    (∀ result : Outcome, Decoder.outcome result.toJson = .ok result) ∧
    (∀ time : Timestamp, FitsInt64 time.seconds → Decoder.timestamp time.toJson = .ok time) ∧
    ∀ (entity : Entity) (id : Ident entity), FitsInt64 id.number →
      Decoder.ident id.toJson = .ok id := by
  refine ⟨fun _ fits => ?_, fun _ fits => ?_, fun _ fits => ⟨?_, ?_⟩, fun _ fits => ?_,
    fun _ fits => ?_, fun _ fits => ?_, fun properties => properties.recovers.read,
    fun property => property.recovers.read, fun result => (recovers_outcome result).read,
    fun _ fits => (recovers_timestamp fits).read, fun _ _ fits => (recovers_ident fits).read⟩
  · exact survives_of_restated rfl fun _ => Request.decode_of_restates fits
  · exact survives_of_restated rfl fun _ => Buildset.decode_of_restates fits
  · exact survives_of_restated rfl fun _ restates =>
      SourceStamp.decode_of_restates fits (restates.mono fun _ _ => .inl)
  · exact fun _ => SourceStamp.decode_of_restates fits
  · exact survives_of_restated rfl fun _ restates =>
      (Patch.recovers_of_restates fits restates).read
  · exact survives_of_restated rfl fun _ => Change.decode_of_restates fits
  · exact survives_of_restated rfl fun _ => Builder.decode_of_restates fits

namespace Sample

/-- The early request as others may write it: without what is null, and with a note. -/
def noted : Json :=
  .object [
    ("builder_id", .integer 77),
    ("builder_name", .string "linux"),
    ("buildset_id", .integer 1),
    ("claimed", .bool false),
    ("complete", .bool false),
    ("id", .integer 5),
    ("note", .null),
    ("priority", .integer 0),
    ("submitted_at", .integer 1300305712),
    ("waited_for", .bool false)]

/-- An empty patch. -/
def emptyPatch : Patch := ⟨0, [], none, none, none⟩

/-- A source stamp with an empty patch, as the array of its fields, with the patch as an object. -/
def listed : Json :=
  .array [.integer 1, .string "main", .string repository, .string "main", .string "proj", .null,
    .object [("body", .array []), ("level", .integer 0)]]

theorem restates_noted : Restates Request.fieldNames (Written early.toJson) noted := by
  refine .object ?_
  simp only [Request.fieldNames, List.forall_mem_cons]
  exact ⟨.inl ⟨_, rfl, rfl⟩, .inl ⟨_, rfl, rfl⟩, .inl ⟨_, rfl, rfl⟩, .inl ⟨_, rfl, rfl⟩,
    .inl ⟨_, rfl, rfl⟩, .inl ⟨_, rfl, rfl⟩, .inr ⟨rfl, rfl⟩, .inl ⟨_, rfl, rfl⟩, .inr ⟨rfl, rfl⟩,
    .inl ⟨_, rfl, rfl⟩, .inr ⟨rfl, rfl⟩, .inl ⟨_, rfl, rfl⟩, nofun⟩

theorem restates_listed :
    Restates SourceStamp.fieldNames
      (SourceStamp.Shown { sourceStamp ⟨1⟩ mainCodebase none with patch := some emptyPatch })
      listed := by
  have patch : Restates Patch.fieldNames (Written emptyPatch.toJson)
      (.object [("body", .array []), ("level", .integer 0)]) := by
    refine .object ?_
    simp only [Patch.fieldNames, List.forall_mem_cons]
    exact ⟨.inl ⟨_, rfl, rfl⟩, .inl ⟨_, rfl, rfl⟩, .inr ⟨rfl, rfl⟩, .inr ⟨rfl, rfl⟩,
      .inr ⟨rfl, rfl⟩, nofun⟩
  exact .array (.cons (.inl rfl) (.cons (.inl rfl) (.cons (.inl rfl) (.cons (.inl rfl)
    (.cons (.inl rfl) (.cons (.inl rfl) (.cons (.inr ⟨rfl, emptyPatch, rfl, patch⟩) .nil)))))))

theorem fits_early : early.Fits where
  id := by decide
  buildsetId := by decide
  builderId := by decide
  priority := by decide
  claimedAt := nofun
  submittedAt := by
    rintro _ ⟨⟩
    decide
  completeAt := nofun

end Sample

/-- A request and a source stamp that others wrote, and a row of each other kind. -/
theorem rows_survive_rewritten :
    let stamp := { Sample.sourceStamp ⟨1⟩ "main" none with patch := some Sample.emptyPatch }
    let buildset : Buildset := ⟨⟨1⟩, "commit", none, Sample.submittedAt, false, none, none⟩
    let change := Sample.change ⟨1⟩ "alice" "abc"
    (Request.decode Sample.noted = .ok Sample.early ∧
      SourceStamp.decode Sample.listed = .ok stamp) ∧
      (Buildset.decode buildset.toJson = .ok buildset ∧
        Patch.decode Sample.emptyPatch.toJson = .ok Sample.emptyPatch ∧
          Change.decode change.toJson = .ok change ∧
            Builder.decode Sample.linux.toJson = .ok Sample.linux) ∧
        Decoder.timestamp Sample.submittedAt.toJson = .ok Sample.submittedAt ∧
          Decoder.ident Sample.linux.id.toJson = .ok Sample.linux.id := by
  intro stamp buildset change
  obtain ⟨requests, buildsets, stamps, patches, changes, builders, -, -, -, times, ids⟩ :=
    rows_survive
  have emptyFits : Sample.emptyPatch.Fits := (by decide : FitsInt32 0)
  have timeFits : FitsInt64 Sample.submittedAt.seconds := by decide
  have idFits : FitsInt64 Sample.linux.id.number := by decide
  have stampFits : stamp.Fits :=
    ⟨by decide, fun patch given => Option.some.inj given ▸ emptyFits⟩
  have buildsetFits : buildset.Fits := ⟨by decide, timeFits, nofun⟩
  have changeFits : change.Fits :=
    ⟨by decide, fun time given => Option.some.inj given ▸ timeFits⟩
  refine ⟨⟨?_, ?_⟩, ⟨?_, ?_, ?_, ?_⟩, times _ timeFits, ids _ _ idFits⟩
  · exact (requests _ Sample.fits_early).restated _ Sample.restates_noted
  · exact (stamps _ stampFits).2 _ Sample.restates_listed
  · exact (buildsets _ buildsetFits).read
  · exact (patches _ emptyFits).read
  · exact (changes _ changeFits).read
  · exact (builders _ idFits).read

end BuildQueue
