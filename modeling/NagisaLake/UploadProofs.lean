import NagisaLake.PoolProofs
import NagisaLake.ArtifactsProofs

/-! # Uploads — the Hub's handlers as concurrent tasks

A handler reserves storage, presigns, persists and remembers, in that
order, and rolls the reservation back when a step fails.  Between any two
of these steps every other handler may run, and so may the reaper.  A
handler is therefore a task of a pool: `Task` names the statement it
stands at and carries its local variables, `taskStep` is one statement.
Whether a call to the store or to the object store succeeds, and what the
object store reports, is the `Reply` of the environment.

`Effect` says once what a statement can do to the bytes: nothing, reserve
them, turn a reservation into a row, roll it back or lose it, release the
bytes of a row that stays, or write the row of a completed upload. -/

namespace Uploads

open Jobs KeyedTable HubStore Artifacts Pools

/-! ## Requests, records and checks -/

/-- `HubError`, as far as the modelled handlers return it. -/
inductive HubError where
  | notFound (what : String)
  | invalidRequest (text : String)
  | conflict (text : String)
  | objectStore (text : String)
  | quotaExceeded (what : String)
  | store (e : StoreError)
  | forbidden (text : String)
  | unavailable (text : String)
  | unauthorized (text : String)
  deriving DecidableEq, Repr

/-- `map_store_error`. -/
def mapStoreError : StoreError → HubError
  | .notFound what => .notFound what
  | .conflict text => .conflict text
  | .quotaExceeded what => .quotaExceeded what
  | .database text => .store (.database text)

/-- What the handlers read of `HubConfig` and of the object store. -/
structure Config where
  maxArtifactBytes : UInt64
  legacyOrganizationId : String
  presignTtlMs : Nat

/-- `ArtifactView`. -/
structure ArtifactView where
  id : String
  jobId : Option String
  name : String
  contentType : String
  sizeBytes : UInt64
  sha256 : String
  state : ArtifactState
  deriving DecidableEq, Repr

/-- `ArtifactRecord`. -/
structure ArtifactRecord where
  organizationId : String
  view : ArtifactView
  objectKey : String
  deriving DecidableEq, Repr

/-- The key of the record's row. -/
def ArtifactRecord.key (r : ArtifactRecord) : Key :=
  (r.organizationId, r.view.id)

/-- The record of the completed upload. -/
def ArtifactRecord.completed (r : ArtifactRecord) : ArtifactRecord :=
  { r with view := { r.view with state := .ready } }

/-- `size_bytes.min(i64::MAX as u64) as i64`: what is reserved and released. -/
def ArtifactRecord.bytes (r : ArtifactRecord) : Int :=
  (min r.view.sizeBytes.toNat i64Max : Nat)

/-- `size_bytes as i64`: what the row says. -/
def asI64 (n : UInt64) : Int :=
  if n.toNat ≤ i64Max then n.toNat else n.toNat - 18446744073709551616

/-- The row `persist_artifact` writes; only a pending upload has a deadline,
    twice the lifetime of its URL away. -/
def ArtifactRecord.row (cfg : Config) (now : Int) (r : ArtifactRecord) : ArtifactRow where
  organizationId := r.organizationId
  id := r.view.id
  jobId := r.view.jobId
  name := r.view.name
  contentType := r.view.contentType
  sizeBytes := asI64 r.view.sizeBytes
  sha256 := r.view.sha256
  state := r.view.state
  objectKey := r.objectKey
  expiresAt := match r.view.state with
    | .pendingUpload => some (now + (min (cfg.presignTtlMs * 2) i64Max : Nat))
    | .ready => none

/-- `CreateUploadRequest`. -/
structure CreateUploadRequest where
  name : String
  contentType : String
  sizeBytes : UInt64
  sha256 : String

/-- `CompleteUploadRequest`. -/
structure CompleteUploadRequest where
  artifactId : String
  sizeBytes : UInt64
  sha256 : String

/-- `ArtifactReady`. -/
structure ArtifactReady where
  requestId : String
  jobId : String
  attempt : Nat
  name : String
  contentType : String
  sizeBytes : UInt64
  sha256 : String

/-- `ArtifactUploaded`. -/
structure ArtifactUploaded where
  requestId : String
  artifactId : String
  jobId : String
  attempt : Nat

/-- `ObjectMetadata`, as the object store reports it. -/
structure ObjectMetadata where
  sizeBytes : UInt64
  contentType : Option String
  sha256 : Option String

/-- `validate_artifact_metadata`. -/
def validateArtifactMetadata (cfg : Config) (q : CreateUploadRequest) : Option HubError :=
  if blank q.name ∨ q.name.length > 255 then
    some (.invalidRequest "artifact name is invalid")
  else if blank q.contentType then
    some (.invalidRequest "content_type must not be empty")
  else if q.sizeBytes = 0 ∨ q.sizeBytes > cfg.maxArtifactBytes then
    some (.invalidRequest "artifact size is outside the configured limit")
  else if !isSha256 q.sha256 then
    some (.invalidRequest "sha256 must be a 64-character hexadecimal digest")
  else none

/-- What a declaration that passes has declared. -/
theorem validateArtifactMetadata_eq_none {cfg : Config}
    {q : CreateUploadRequest} (h : validateArtifactMetadata cfg q = none) :
    blank q.name = false ∧ blank q.contentType = false ∧ q.sizeBytes ≠ 0
      ∧ isSha256 q.sha256 = true := by
  rw [validateArtifactMetadata] at h
  split at h
  · cases h
  next hname =>
  split at h
  · cases h
  next htype =>
  split at h
  · cases h
  next hsize =>
  split at h
  · cases h
  next hsha =>
  rw [not_or, Bool.not_eq_true] at hname
  rw [Bool.not_eq_true] at htype
  rw [not_or] at hsize
  rw [Bool.not_eq_true, Bool.not_eq_false'] at hsha
  exact ⟨hname.1, htype, hsize.1, hsha⟩

/-- `object_metadata_matches`. -/
def objectMetadataMatches (m : ObjectMetadata) (v : ArtifactView) : Bool :=
  decide (m.sizeBytes = v.sizeBytes) && decide (m.contentType = some v.contentType)
    && m.sha256.any fun h => eqIgnoreAsciiCase h v.sha256

/-- What the client declared, what it says it uploaded and what is there. -/
def declarationMatches (m : ObjectMetadata) (q : CompleteUploadRequest) (v : ArtifactView) : Bool :=
  decide (m.sizeBytes = q.sizeBytes) && decide (q.sizeBytes = v.sizeBytes)
    && eqIgnoreAsciiCase q.sha256 v.sha256 && objectMetadataMatches m v

/-- `Path::file_name`: the last component, when it is a name. -/
def fileName (path : List Char) : Option (List Char) :=
  let parts := (path.splitOn '/').filter fun p =>
    !p.isEmpty && p != ['.']
  parts.getLast?.filter fun p => p != ['.', '.']

/-- `safe_filename`. -/
def safeFilename (value : String) : String :=
  let candidate := (fileName value.toList).getD "artifact.bin".toList
  let result := candidate.map fun c =>
    if c.isAlphanum || c == '.' || c == '-' || c == '_' then c else '_'
  if result.isEmpty || result == ['.'] || result == ['.', '.'] then
    "artifact.bin"
  else String.ofList result

theorem safeFilename_present (value : String) : blank (safeFilename value) = false := by
  rw [safeFilename]
  split
  · rfl
  next hsafe =>
  rw [Bool.not_eq_true, Bool.or_eq_false_iff, Bool.or_eq_false_iff,
    List.isEmpty_eq_false_iff_exists_mem] at hsafe
  obtain ⟨⟨⟨c, hc⟩, -⟩, -⟩ := hsafe
  refine blank_eq_false_iff.mpr ⟨c, by rwa [String.toList_ofList], ?_⟩
  obtain ⟨d, -, rfl⟩ := List.mem_map.mp hc
  split
  · next hd =>
    simp only [Bool.or_eq_true, beq_iff_eq] at hd
    rcases hd with ((hd | rfl) | rfl) | rfl
    · exact isWhitespace_of_isAlphanum hd
    · rfl
    · rfl
    · rfl
  · rfl

/-! ## The Hub's memory -/

/-- What these handlers read of a resident job. -/
structure ResidentJob where
  id : String
  organizationId : String
  workerOrganizationId : String
  workerId : String
  sessionId : String
  attempt : Nat

/-- The worker session a message arrived on. -/
structure WorkerSession where
  organizationId : String
  workerId : String
  sessionId : String

/-- The job runs on this session, in this attempt. -/
def ResidentJob.boundTo (j : ResidentJob) (w : WorkerSession) (attempt : Nat) : Bool :=
  decide (j.workerOrganizationId = w.organizationId) && decide (j.workerId = w.workerId)
    && decide (j.sessionId = w.sessionId) && decide (j.attempt = attempt)

/-- An entry of `pending_uploads`. -/
structure PendingUpload where
  organizationId : String
  requestId : String
  artifactId : String

def PendingUpload.key (p : PendingUpload) : Key :=
  (p.organizationId, p.requestId)

def ArtifactRecord.id (r : ArtifactRecord) : String := r.view.id

/-- The store, `HubData` and the artifact ids `Uuid::new_v4` has given out
    (a history variable, with the record each was given out for). -/
structure Hub where
  store : Store
  artifacts : Table String ArtifactRecord ArtifactRecord.id
  pendingUploads : Table Key PendingUpload PendingUpload.key
  jobs : Table String ResidentJob ResidentJob.id
  issued : Table String ArtifactRecord ArtifactRecord.id

/-- The resident artifact, when it is this organization's. -/
def Hub.artifactOf (h : Hub) (o id : String) : Option ArtifactRecord :=
  (h.artifacts.find? id).filter fun r => decide (r.organizationId = o)

/-! ## Statements -/

/-- The answer to a request. -/
inductive Answer where
  | artifact (view : ArtifactView)
  | upload (requestId artifactId : String)
  | uploaded (requestId artifactId : String)
  | swept

/-- What the environment answers a call: it went through at this time, it
    failed, the object looks like this, the read cache holds this. -/
inductive Reply where
  | ok (now : Int)
  | failed (message : String)
  | metadata (m : ObjectMetadata)
  | cached (r : Option ArtifactRecord)

/-- A new artifact; an output knows the request and the attempt it is for. -/
structure Creation where
  record : ArtifactRecord
  output : Option (String × Nat)

/-- The statement a handler stands at. -/
inductive Task where
  /-- `prepare_artifact_upload` looks for an earlier try of the request. -/
  | lookup (ready : ArtifactReady) (c : Creation)
  | represign (requestId : String) (r : ArtifactRecord)
  | reserve (c : Creation)
  | presign (c : Creation)
  | persist (c : Creation)
  | request (c : Creation) (requestId : String) (attempt : Nat)
  | remember (c : Creation)
  /-- `let _ = state.release_storage(..)` after a failure; the row may have
      been persisted already. -/
  | release (c : Creation) (persisted : Bool) (e : HubError)
  /-- `complete_upload_for_principal`. -/
  | head (r : ArtifactRecord) (q : CompleteUploadRequest)
  | discard (r : ArtifactRecord)
  | releaseMismatch (r : ArtifactRecord)
  | forget (r : ArtifactRecord)
  | persistReady (r : ArtifactRecord)
  | rememberReady (r : ArtifactRecord)
  /-- `complete_upload`. -/
  | legacyHead (r : ArtifactRecord) (q : CompleteUploadRequest)
  | setReady (r : ArtifactRecord)
  | markReady (r : ArtifactRecord)
  /-- `complete_artifact_upload`. -/
  | outputRequest (w : WorkerSession) (u : ArtifactUploaded) (o : String)
  | outputRecord (w : WorkerSession) (u : ArtifactUploaded) (o : String)
  | outputHead (w : WorkerSession) (u : ArtifactUploaded) (r : ArtifactRecord)
  | outputComplete (w : WorkerSession) (u : ArtifactUploaded)
      (r : ArtifactRecord)
  | outputRemember (u : ArtifactUploaded) (r : ArtifactRecord)
  /-- The reaper removes what it reclaimed from memory. -/
  | sweep (ids : List String)
  | done (result : Except HubError Answer)

/-- The handler has returned. -/
def Task.isDone : Task → Bool
  | .done _ => true
  | _ => false

/-- The handler returns an error. -/
def Task.err (e : HubError) : Task := .done (.error e)

/-- `prepare_artifact_upload` after the look at `pending_uploads`. -/
def afterLookup (h : Hub) (ready : ArtifactReady) (c : Creation) : Task :=
  match h.pendingUploads.find? (c.record.organizationId, ready.requestId) with
  | none => .reserve c
  | some p =>
    match h.artifacts.find? p.artifactId with
    | none => .err (.notFound "artifact")
    | some r =>
      if r.organizationId = c.record.organizationId
          ∧ r.view.jobId = some ready.jobId
          ∧ r.view.sizeBytes = ready.sizeBytes
          ∧ r.view.contentType = ready.contentType
          ∧ eqIgnoreAsciiCase r.view.sha256 ready.sha256 then
        .represign ready.requestId r
      else .err (.conflict "upload request metadata changed on retry")

/-- `complete_artifact_upload` with the artifact id of the request. -/
def afterRequest (w : WorkerSession) (u : ArtifactUploaded) (o id : String) :
    Task :=
  if id = u.artifactId then .outputRecord w u o
  else .err (.conflict "artifact id does not match upload request")

/-- `complete_artifact_upload` with the artifact's record. -/
def afterRecord (h : Hub) (w : WorkerSession) (u : ArtifactUploaded)
    (o : String) (r : ArtifactRecord) : Task :=
  if r.organizationId ≠ o then .err (.notFound "artifact")
  else match r.view.jobId with
    | none => .err (.conflict "output artifact has no job")
    | some jobId =>
      if u.jobId ≠ jobId then
        .err (.conflict "uploaded artifact job does not match")
      else match h.jobs.find? jobId with
        | none => .err (.notFound "job")
        | some j =>
          if decide (j.organizationId = o) && j.boundTo w u.attempt then
            .outputHead w u r
          else .err (.conflict "stale worker session")

/-- The record the store holds, for an artifact that is not resident. -/
def storedRecord (s : Store) (o id : String) : Option ArtifactRecord :=
  (s.artifacts.find? (o, id)).map fun a =>
    { organizationId := a.organizationId
      view := {
        id := a.id
        jobId := a.jobId
        name := a.name
        contentType := a.contentType
        sizeBytes := UInt64.ofNat a.sizeBytes.toNat
        sha256 := a.sha256
        state := a.state }
      objectKey := a.objectKey }

/-- `artifact_record`: resident, else cached, else stored. -/
def artifactRecord (h : Hub) (o id : String)
    (cached : Option ArtifactRecord) : Option ArtifactRecord :=
  h.artifactOf o id <|> cached <|> storedRecord h.store o id

/-- One statement. -/
def taskStep (cfg : Config) (h : Hub) : Task → Reply → Option (Hub × Task)
  | .lookup ready c, .ok _ => some (h, afterLookup h ready c)
  | .represign requestId r, .ok _ =>
    some (h, .done (.ok (.upload requestId r.view.id)))
  | .represign _ _, .failed m => some (h, .err (.objectStore m))
  | .reserve c, .ok _ =>
    match reserveStorage h.store c.record.organizationId c.record.bytes with
    | .ok s => some ({ h with store := s }, .presign c)
    | .error e => some (h, .err (mapStoreError e))
  | .reserve _, .failed m => some (h, .err (mapStoreError (.database m)))
  | .presign c, .ok _ => some (h, .persist c)
  | .presign c, .failed m => some (h, .release c false (.objectStore m))
  | .persist c, .ok now =>
    match createArtifact h.store (c.record.row cfg now) with
    | .ok s => some ({ h with store := s }, match c.output with
        | none => .remember c
        | some (requestId, attempt) => .request c requestId attempt)
    | .error e => some (h, .release c false (.store e))
  | .persist c, .failed m =>
    some (h, .release c false (.store (.database m)))
  | .request c requestId attempt, .ok _ =>
    match upsertUploadRequest h.store ⟨c.record.organizationId, requestId,
        c.record.view.id, c.record.view.jobId, some attempt, none⟩ with
    | .ok s => some ({ h with store := s }, .remember c)
    | .error e => some (h, .release c true (.store e))
  | .request c _ _, .failed m =>
    some (h, .release c true (.store (.database m)))
  | .remember c, .ok _ =>
    match c.output with
    | none => some ({ h with artifacts := h.artifacts.put c.record },
        .done (.ok (.artifact c.record.view)))
    | some (requestId, _) => some ({ h with
        artifacts := h.artifacts.put c.record
        pendingUploads := h.pendingUploads.put
          ⟨c.record.organizationId, requestId, c.record.view.id⟩ },
        .done (.ok (.upload requestId c.record.view.id)))
  | .release c _ e, .ok _ => some ({ h with
      store := releaseStorage h.store c.record.organizationId c.record.bytes }, .err e)
  | .release _ _ e, .failed _ => some (h, .err e)
  | .head r q, .metadata m =>
    some (h, if declarationMatches m q r.view then .persistReady r
      else .discard r)
  | .head _ _, .failed m => some (h, .err (.objectStore m))
  | .discard r, .ok _ | .discard r, .failed _ => some (h, .releaseMismatch r)
  | .releaseMismatch r, .ok _ => some ({ h with
      store := releaseStorage h.store r.organizationId r.bytes }, .forget r)
  | .releaseMismatch r, .failed _ => some (h, .forget r)
  | .forget r, .ok _ => some ({ h with
      artifacts := h.artifacts.delete fun a => a.id = r.view.id },
      .err (.conflict ("object size, content type, or SHA-256 does not match"
        ++ " the upload declaration")))
  | .persistReady r, .ok now =>
    match createArtifact h.store (r.completed.row cfg now) with
    | .ok s => some ({ h with store := s }, .rememberReady r)
    | .error e => some (h, .err (.store e))
  | .persistReady _, .failed m => some (h, .err (.store (.database m)))
  | .rememberReady r, .ok _ => some ({ h with
      artifacts := h.artifacts.put r.completed },
      .done (.ok (.artifact r.completed.view)))
  | .legacyHead r q, .metadata m =>
    some (h, if declarationMatches m q r.view then .setReady r
      else .err (.conflict ("object size, content type, or SHA-256 does"
        ++ " not match the upload declaration")))
  | .legacyHead _ _, .failed m => some (h, .err (.objectStore m))
  | .setReady r, .ok _ => some ({ h with
      store := (setArtifactState h.store r.organizationId r.view.id
        .ready).getD h.store }, .markReady r)
  | .setReady _, .failed m => some (h, .err (.store (.database m)))
  | .markReady r, .ok _ =>
    match h.artifacts.find? r.view.id with
    | none => some (h, .err (.notFound "artifact"))
    | some a => some ({ h with artifacts := h.artifacts.put a.completed },
        .done (.ok (.artifact a.completed.view)))
  | .outputRequest w u o, .ok _ =>
    match ((h.pendingUploads.find? (o, u.requestId)).map
        PendingUpload.artifactId)
        <|> uploadRequestArtifact h.store o u.requestId with
    | some id => some (h, afterRequest w u o id)
    | none => some (h, .err (.notFound "upload request"))
  | .outputRequest _ u o, .failed m =>
    -- the store is asked only when the memory has no answer
    if (h.pendingUploads.find? (o, u.requestId)).isSome then none
    else some (h, .err (.store (.database m)))
  | .outputRecord w u o, .cached r =>
    match artifactRecord h o u.artifactId r with
    | some a => some (h, afterRecord h w u o a)
    | none => some (h, .err (.notFound "artifact"))
  | .outputRecord _ u o, .failed m =>
    if (h.artifactOf o u.artifactId).isSome then none
    else some (h, .err (.store (.database m)))
  | .outputHead w u r, .metadata m =>
    some (h, if objectMetadataMatches m r.view then .outputComplete w u r
      else .err (.conflict ("uploaded output failed size, content type, or"
        ++ " SHA-256 verification")))
  | .outputHead _ _ _, .failed m => some (h, .err (.objectStore m))
  | .outputComplete w u r, .ok now =>
    match completeJobOutputUpload h.store ⟨r.organizationId, u.requestId,
        u.artifactId, u.jobId, u.attempt, w.sessionId, now⟩ with
    | some s => some ({ h with store := s }, .outputRemember u r)
    | none => some (h, .err (.conflict "job changed while completing the output artifact"))
  | .outputComplete _ _ _, .failed m => some (h, .err (.store (.database m)))
  | .outputRemember u r, .ok _ => some ({ h with
      artifacts := h.artifacts.put r.completed
      pendingUploads := h.pendingUploads.put ⟨r.organizationId, u.requestId, u.artifactId⟩ },
      .done (.ok (.uploaded u.requestId u.artifactId)))
  | .sweep [], .ok _ => some (h, .done (.ok .swept))
  | .sweep (id :: ids), .ok _ => some ({ h with
      artifacts := h.artifacts.delete fun a => a.id = id }, .sweep ids)
  | _, _ => none

/-! ## Requests -/

/-- The record of a new input. -/
def inputRecord (o : String) (q : CreateUploadRequest) (id : String) : ArtifactRecord where
  organizationId := o
  view := ⟨id, none, q.name, q.contentType, q.sizeBytes, toAsciiLowercase q.sha256, .pendingUpload⟩
  objectKey := "organizations/" ++ o ++ "/inputs/" ++ id ++ "/" ++ safeFilename q.name

/-- `create_upload` and `create_upload_for_principal` up to the reservation. -/
def beginInput (cfg : Config) (o : String) (q : CreateUploadRequest)
    (id : String) : Except HubError Creation :=
  match validateArtifactMetadata cfg q with
  | some e => .error e
  | none => .ok ⟨inputRecord o q id, none⟩

/-- The record of a new output. -/
def outputRecord (j : ResidentJob) (ready : ArtifactReady) (id : String) : ArtifactRecord where
  organizationId := j.organizationId
  view := ⟨id, some j.id, safeFilename ready.name, ready.contentType,
    ready.sizeBytes, toAsciiLowercase ready.sha256, .pendingUpload⟩
  objectKey := "organizations/" ++ j.organizationId ++ "/outputs/" ++ j.id
    ++ "/" ++ id ++ "/" ++ safeFilename ready.name

/-- `prepare_artifact_upload` up to the look for an earlier try. -/
def beginOutput (cfg : Config) (h : Hub) (w : WorkerSession)
    (ready : ArtifactReady) (id : String) : Except HubError Creation :=
  if ready.sizeBytes = 0 ∨ ready.sizeBytes > cfg.maxArtifactBytes then
    .error (.invalidRequest "output exceeds the configured size limit")
  else if !isSha256 ready.sha256 || blank ready.contentType then
    .error (.invalidRequest "output metadata is invalid")
  else match h.jobs.find? ready.jobId with
    | none => .error (.notFound "job")
    | some j =>
      if j.boundTo w ready.attempt then
        .ok ⟨outputRecord j ready id, some (ready.requestId, ready.attempt)⟩
      else .error (.conflict "stale worker session")

/-- The checks of a completion; the two differ in what they do next about a
    pending artifact and about any other. -/
def beginWith (h : Hub) (o id : String) (q : CompleteUploadRequest)
    (pending other : ArtifactRecord → Task) : Task :=
  if id ≠ q.artifactId then
    .err (.invalidRequest "artifact id does not match path")
  else match h.artifactOf o id with
    | none => .err (.notFound "artifact")
    | some r => if r.view.state = .pendingUpload then pending r else other r

/-- `complete_upload_for_principal` up to the look at the object. -/
def beginCompletion (h : Hub) (o id : String) (q : CompleteUploadRequest) :
    Task :=
  beginWith h o id q (fun r => .head r q) fun r => .done (.ok (.artifact r.view))

/-- `complete_upload` up to the look at the object. -/
def beginLegacyCompletion (cfg : Config) (h : Hub) (id : String)
    (q : CompleteUploadRequest) : Task :=
  beginWith h cfg.legacyOrganizationId id q (fun r => .legacyHead r q)
    fun _ => .err (.conflict "artifact is already completed")

/-- It is refused, or goes on with an artifact of the organization. -/
theorem beginWith_cases {h : Hub} {o id : String} {q : CompleteUploadRequest}
    {pending other : ArtifactRecord → Task} {P : Task → Prop} (herr : ∀ e, P (.err e))
    (hpending : ∀ r, h.artifactOf o id = some r → r.view.state = .pendingUpload → P (pending r))
    (hother : ∀ r, h.artifactOf o id = some r → r.view.state ≠ .pendingUpload → P (other r)) :
    P (beginWith h o id q pending other) := by
  rw [beginWith]
  split
  · exact herr _
  split
  · exact herr _
  next r hr =>
  split
  · next hstate => exact hpending r hr hstate
  · next hstate => exact hother r hr hstate

/-- `complete_artifact_upload` up to the look for the request. -/
def beginOutputCompletion (h : Hub) (w : WorkerSession) (u : ArtifactUploaded) : Task :=
  match h.jobs.find? u.jobId with
  | none => .err (.notFound "job")
  | some j =>
    if j.boundTo w u.attempt then .outputRequest w u j.organizationId
    else .err (.conflict "stale worker session")

/-- The Hub and the handlers in progress. -/
abbrev World := Pool Hub Task

/-- A new artifact gets an id that was never given out. -/
def create (p : World) (begun : Except HubError Creation)
    (first : Creation → Task) : Option World :=
  match begun with
  | .error e => some (p.spawn (.err e))
  | .ok c => (p.shared.issued.insert c.record).map fun issued =>
    ⟨{ p.shared with issued := issued }, p.tasks ++ [first c]⟩

/-- A request arrives, a handler takes its next step, the reaper sweeps, or something else changes
    what the handlers read: jobs come and go, and artifacts leave the memory. -/
inductive Act where
  | createUpload (q : CreateUploadRequest) (id : String)
  | createUploadForPrincipal (o : String) (q : CreateUploadRequest)
      (id : String)
  | prepareArtifactUpload (w : WorkerSession) (ready : ArtifactReady)
      (id : String)
  | completeUpload (id : String) (q : CompleteUploadRequest)
  | completeUploadForPrincipal (o id : String) (q : CompleteUploadRequest)
  | completeArtifactUpload (w : WorkerSession) (u : ArtifactUploaded)
  | advance (i : Nat) (reply : Reply)
  | reclaimExpiredUploads (now : Int) (limit : Nat) (locked : List Key)
  | moveJobs (rows : Table Key JobRow JobRow.key)
      (jobs : Table String ResidentJob ResidentJob.id)
  | evict (ids : List String)

/-- One action. -/
def step (cfg : Config) (p : World) : Act → Option World
  | .createUpload q id =>
    create p (beginInput cfg cfg.legacyOrganizationId q id) .reserve
  | .createUploadForPrincipal o q id =>
    create p (beginInput cfg o q id) .reserve
  | .prepareArtifactUpload w ready id =>
    create p (beginOutput cfg p.shared w ready id) (.lookup ready)
  | .completeUpload id q =>
    some (p.spawn (beginLegacyCompletion cfg p.shared id q))
  | .completeUploadForPrincipal o id q =>
    some (p.spawn (beginCompletion p.shared o id q))
  | .completeArtifactUpload w u =>
    some (p.spawn (beginOutputCompletion p.shared w u))
  | .advance i reply => p.advance (taskStep cfg) i reply
  | .reclaimExpiredUploads now limit locked =>
    let r := Artifacts.reclaimExpiredUploads p.shared.store now limit locked
    some ⟨{ p.shared with store := r.1 }, p.tasks ++ [.sweep (r.2.map ArtifactRow.id)]⟩
  | .moveJobs rows jobs => some { p with
      shared := { p.shared with
        store := { p.shared.store with jobs := rows }
        jobs := jobs } }
  | .evict ids => some { p with
      shared := { p.shared with
        artifacts := p.shared.artifacts.delete fun a => decide (a.id ∈ ids) } }

/-! ## What a statement does to the bytes -/

/-- The artifact the handler may write or release. -/
def Task.record : Task → Option ArtifactRecord
  | .lookup _ c | .reserve c | .presign c | .persist c | .request c _ _
  | .remember c | .release c _ _ => some c.record
  | .head r _ | .discard r | .releaseMismatch r | .forget r
  | .persistReady r | .rememberReady r => some r
  | _ => none

/-- The row the handler has yet to insert. -/
def Task.unborn : Task → Option Key
  | .lookup _ c | .reserve c | .presign c | .persist c => some c.record.key
  | _ => none

/-- The bytes an organization has reserved for the handler, and for which there is no row. -/
def Task.holds (o : String) : Task → Int
  | .presign c | .persist c | .release c false _ =>
    if c.record.organizationId = o then c.record.bytes else 0
  | _ => 0

/-- Nothing is reserved, released, inserted or deleted, and the memory gets no
    pending artifact but the handler's own. -/
structure Quiet (h : Hub) (t : Task) (h' : Hub) (t' : Task) : Prop where
  store : Unmoved h.store h'.store
  issued : h'.issued = h.issued
  holds : ∀ o, t'.holds o = t.holds o
  unborn : ∀ x, t'.unborn = some x → t.unborn = some x
  record : ∀ r, t'.record = some r → t.record = some r
  memory : ∀ r ∈ h'.artifacts.rows, r.view.state = .pendingUpload →
    r ∈ h.artifacts.rows ∨ t.record = some r

/-- What one statement can do. -/
inductive Effect (cfg : Config) (h : Hub) : Task → Reply → Hub → Task → Prop
  | quiet {t : Task} {reply : Reply} {h' : Hub} {t' : Task}
      (hq : Quiet h t h' t') : Effect cfg h t reply h' t'
  | reserved {c : Creation} {now : Int} {s : Store}
      (hs : reserveStorage h.store c.record.organizationId c.record.bytes = .ok s) :
      Effect cfg h (.reserve c) (.ok now) { h with store := s } (.presign c)
  | born {c : Creation} {now : Int} {s : Store} {t' : Task}
      (hs : createArtifact h.store (c.record.row cfg now) = .ok s)
      (holds : ∀ o, t'.holds o = 0) (unborn : t'.unborn = none)
      (record : t'.record = some c.record) :
      Effect cfg h (.persist c) (.ok now) { h with store := s } t'
  | rolledBack {c : Creation} {persisted : Bool} {e : HubError} {now : Int} :
      Effect cfg h (.release c persisted e) (.ok now)
        { h with
          store := releaseStorage h.store c.record.organizationId c.record.bytes } (.err e)
  | leaked {c : Creation} {persisted : Bool} {e : HubError} {m : String} :
      Effect cfg h (.release c persisted e) (.failed m) h (.err e)
  | dropped {r : ArtifactRecord} {now : Int} :
      Effect cfg h (.releaseMismatch r) (.ok now)
        { h with store := releaseStorage h.store r.organizationId r.bytes }
        (.forget r)
  | written {r : ArtifactRecord} {now : Int} {s : Store}
      (hs : createArtifact h.store (r.completed.row cfg now) = .ok s) :
      Effect cfg h (.persistReady r) (.ok now) { h with store := s } (.rememberReady r)

variable {t : Task}

/-- A statement that only moves on. -/
theorem moved_quiet (h : Hub) {t' : Task} (hholds : ∀ o, t'.holds o = t.holds o)
    (hunborn : ∀ x, t'.unborn = some x → t.unborn = some x)
    (hrecord : ∀ r, t'.record = some r → t.record = some r) :
    Quiet h t h t' where
  store := Unmoved.refl h.store
  issued := rfl
  holds := hholds
  unborn := hunborn
  record := hrecord
  memory := fun _ hr _ => .inl hr

theorem done_quiet (h : Hub) (result : Except HubError Answer)
    (hholds : ∀ o, t.holds o = 0) : Quiet h t h (.done result) :=
  moved_quiet h (fun o => (hholds o).symm) nofun nofun

/-- A transaction that moves no byte. -/
theorem Quiet.with_store {h : Hub} {t' : Task} {s : Store}
    (hq : Quiet h t h t') (hs : Unmoved h.store s) :
    Quiet h t { h with store := s } t' :=
  { hq with store := hs, memory := fun _ hr _ => .inl hr }

/-- The memory gets a record that is ready, or the handler's own. -/
theorem remembered_quiet (h : Hub) {r : ArtifactRecord} (result : Except HubError Answer)
    (pending : Table Key PendingUpload PendingUpload.key)
    (hholds : ∀ o, t.holds o = 0)
    (hr : r.view.state = .ready ∨ t.record = some r) :
    Quiet h t { h with
      artifacts := h.artifacts.put r
      pendingUploads := pending } (.done result) where
  store := Unmoved.refl h.store
  issued := rfl
  holds := fun o => (hholds o).symm
  unborn := nofun
  record := nofun
  memory := by
    intro a ha hpending
    rcases Table.mem_put.mp ha with rfl | ⟨ha, -⟩
    · refine .inr (hr.resolve_left ?_)
      rw [hpending]
      exact nofun
    · exact .inl ha

/-- The memory loses records. -/
theorem Quiet.with_delete {h : Hub} {t' : Task} (hq : Quiet h t h t') (p : ArtifactRecord → Bool) :
    Quiet h t { h with artifacts := h.artifacts.delete p } t' :=
  { hq with memory := fun _ hr _ => .inl (List.mem_of_mem_filter hr) }

section Steps

variable {cfg : Config} {h h' : Hub} {t t' : Task} {reply : Reply}

theorem Effect.of_quiet {g : Hub} {u : Task}
    (heq : some (g, u) = some (h', t')) (hq : Quiet h t g u) :
    Effect cfg h t reply h' t' := by
  cases heq
  exact .quiet hq

/-- The handler returns. -/
theorem Effect.of_done {result : Except HubError Answer}
    (heq : some (h, Task.done result) = some (h', t'))
    (hholds : ∀ o, t.holds o = 0) : Effect cfg h t reply h' t' :=
  .of_quiet heq (done_quiet h result hholds)

theorem afterLookup_quiet (h : Hub) (ready : ArtifactReady) (c : Creation) :
    Quiet h (.lookup ready c) h (afterLookup h ready c) := by
  rw [afterLookup]
  split
  · exact moved_quiet h (fun _ => rfl) (fun _ hx => hx) fun _ hr => hr
  split
  · exact done_quiet h _ fun _ => rfl
  split
  · exact moved_quiet h (fun _ => rfl) nofun nofun
  · exact done_quiet h _ fun _ => rfl

theorem afterRecord_quiet (h : Hub) (w : WorkerSession)
    (u : ArtifactUploaded) (o : String) (r : ArtifactRecord) :
    Quiet h (.outputRecord w u o) h (afterRecord h w u o r) := by
  rw [afterRecord]
  repeat' split
  all_goals exact moved_quiet h (fun _ => rfl) (by rintro _ ⟨⟩) (by rintro _ ⟨⟩)

/-! One lemma for each reply; a statement that does not wait for it has no
step. -/

/-- A failed call: the handler returns, rolls back or goes on without it. -/
theorem effect_failed {m : String} (hstep : taskStep cfg h t (.failed m) = some (h', t')) :
    Effect cfg h t (.failed m) h' t' := by
  cases t with
  | represign | reserve | head | persistReady | legacyHead | setReady
  | outputHead | outputComplete => exact .of_done hstep fun _ => rfl
  | presign | persist | request | discard | releaseMismatch =>
    exact .of_quiet hstep (moved_quiet h (fun _ => rfl) nofun fun _ hr => hr)
  | release c persisted e =>
    cases hstep
    exact .leaked
  | outputRequest w u o | outputRecord w u o =>
    rw [taskStep] at hstep
    split at hstep
    · cases hstep
    · exact .of_done hstep fun _ => rfl
  | sweep ids => cases ids <;> cases hstep
  | _ => cases hstep

theorem effect_metadata {m : ObjectMetadata}
    (hstep : taskStep cfg h t (.metadata m) = some (h', t')) :
    Effect cfg h t (.metadata m) h' t' := by
  cases t with
  | head r q =>
    refine .of_quiet hstep ?_
    split <;> exact moved_quiet h (fun _ => rfl) nofun fun _ hr => hr
  | legacyHead | outputHead =>
    refine .of_quiet hstep ?_
    split
    · exact moved_quiet h (fun _ => rfl) nofun nofun
    · exact done_quiet h _ fun _ => rfl
  | sweep ids => cases ids <;> cases hstep
  | _ => cases hstep

theorem effect_cached {a : Option ArtifactRecord}
    (hstep : taskStep cfg h t (.cached a) = some (h', t')) :
    Effect cfg h t (.cached a) h' t' := by
  cases t with
  | outputRecord w u o =>
    rw [taskStep] at hstep
    split at hstep
    · exact .of_quiet hstep (afterRecord_quiet h w u o _)
    · exact .of_done hstep fun _ => rfl
  | sweep ids => cases ids <;> cases hstep
  | _ => cases hstep

theorem effect_ok {now : Int} (hstep : taskStep cfg h t (.ok now) = some (h', t')) :
    Effect cfg h t (.ok now) h' t' := by
  cases t with
  | lookup ready c => exact .of_quiet hstep (afterLookup_quiet h ready c)
  | represign => exact .of_done hstep fun _ => rfl
  | reserve c =>
    rw [taskStep] at hstep
    split at hstep
    · next s hs =>
      cases hstep
      exact .reserved hs
    · exact .of_done hstep fun _ => rfl
  | presign c =>
    exact .of_quiet hstep (moved_quiet h (fun _ => rfl) (fun _ hx => hx) fun _ hr => hr)
  | persist c =>
    rw [taskStep] at hstep
    split at hstep
    · next s hs =>
      cases hstep
      cases c.output with
      | none | some q => exact .born hs (fun _ => rfl) rfl rfl
    · exact .of_quiet hstep (moved_quiet h (fun _ => rfl) nofun fun _ hr => hr)
  | request c requestId attempt =>
    rw [taskStep] at hstep
    split at hstep
    · next s hs =>
      exact .of_quiet hstep (Quiet.with_store (moved_quiet h (fun _ => rfl) nofun fun _ hr => hr)
        (upsertUploadRequest_unmoved hs))
    · exact .of_quiet hstep (moved_quiet h (fun _ => rfl) nofun fun _ hr => hr)
  | remember c =>
    rw [taskStep] at hstep
    split at hstep <;>
      exact .of_quiet hstep (remembered_quiet h _ _ (fun _ => rfl) (.inr rfl))
  | release c persisted e =>
    cases hstep
    exact .rolledBack
  | discard r =>
    exact .of_quiet hstep (moved_quiet h (fun _ => rfl) nofun fun _ hr => hr)
  | releaseMismatch r =>
    cases hstep
    exact .dropped
  | forget r =>
    exact .of_quiet hstep ((done_quiet h _ fun _ => rfl).with_delete _)
  | persistReady r =>
    rw [taskStep] at hstep
    split at hstep
    · next s hs =>
      cases hstep
      exact .written hs
    · exact .of_done hstep fun _ => rfl
  | rememberReady | outputRemember =>
    exact .of_quiet hstep (remembered_quiet h _ _ (fun _ => rfl) (.inl rfl))
  | setReady r =>
    refine .of_quiet hstep (Quiet.with_store (moved_quiet h (fun _ => rfl) nofun nofun) ?_)
    cases hs : setArtifactState h.store r.organizationId r.view.id .ready with
    | none => exact Unmoved.refl h.store
    | some s => exact setArtifactState_unmoved hs
  | markReady r =>
    rw [taskStep] at hstep
    split at hstep
    · exact .of_done hstep fun _ => rfl
    · exact .of_quiet hstep (remembered_quiet h _ _ (fun _ => rfl) (.inl rfl))
  | outputRequest w u o =>
    rw [taskStep] at hstep
    split at hstep
    · refine .of_quiet hstep ?_
      rw [afterRequest]
      split
      · exact moved_quiet h (fun _ => rfl) nofun nofun
      · exact done_quiet h _ fun _ => rfl
    · exact .of_done hstep fun _ => rfl
  | outputComplete w u r =>
    rw [taskStep] at hstep
    split at hstep
    · next s hs =>
      exact .of_quiet hstep (Quiet.with_store (moved_quiet h (fun _ => rfl) nofun nofun)
        (completeJobOutputUpload_unmoved hs))
    · exact .of_done hstep fun _ => rfl
  | sweep ids =>
    cases ids with
    | nil => exact .of_done hstep fun _ => rfl
    | cons id ids =>
      have hq : Quiet h (.sweep (id :: ids)) h (.sweep ids) :=
        moved_quiet h (fun _ => rfl) nofun nofun
      exact .of_quiet hstep (hq.with_delete _)
  | _ => cases hstep

/-- **WHAT ONE STATEMENT CAN DO**, whichever handler it belongs to. -/
theorem effect_of_step (hstep : taskStep cfg h t reply = some (h', t')) :
    Effect cfg h t reply h' t' := by
  cases reply with
  | ok now => exact effect_ok hstep
  | failed m => exact effect_failed hstep
  | metadata m => exact effect_metadata hstep
  | cached a => exact effect_cached hstep

end Steps

end Uploads
