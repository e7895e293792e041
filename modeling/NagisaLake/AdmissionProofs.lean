import NagisaLake.HistoryProofs
import NagisaLake.ProtocolProofs

/-! # Admission — what an accepted request has stored

Two handlers admit jobs: `submit_job_for_principal` one at a time,
`create_batch` up to a hundred, each with its own parameters.  Only the
first checks that the parameters are an object.

What they store about a job (`Content`) is never rewritten: whatever
transactions follow, the row is there with the same content
(`kept_step`). -/

namespace Admission

open Jobs JsonValue KeyedTable Transactions HubStore Protocol Table
open History (Written rewrites_perform)
open Uploads (HubError mapStoreError)

/-! ## Requests -/

/-- `Uuid::new_v4().to_string()`. -/
structure Uuid where
  text : String
  present : blank text = false

/-- Who asks. -/
structure Principal where
  organizationId : String
  userId : Option String
  /-- `allows(Permission::DevicesUse)`. -/
  devicesUse : Bool

/-- A workflow a device offers; registration has validated it. -/
structure OfferedWorkflow where
  id : String
  version : String
  id_present : blank id = false
  version_present : blank version = false

/-- `BatchItemSpec`. -/
structure BatchItemSpec where
  index : Int
  parameterOverrides : Option Json

/-- `CreateBatchApiRequest`. -/
structure CreateBatchApiRequest where
  workflowId : String
  workflowVersion : String
  count : Int
  baseParameters : Json
  items : List BatchItemSpec
  sharedInputArtifactIds : List String
  deviceOrganizationId : Option String
  deviceId : Option String

/-- `SubmitJobRequest`. -/
structure SubmitJobRequest where
  workflowId : String
  workflowVersion : String
  parameters : Json
  inputArtifactIds : List String
  deviceId : Option String
  deviceOrganizationId : Option String

/-! ## `create_batch` -/

/-- `merge_parameters`: only an object takes overrides, and only from an object. -/
def mergeParameters (base overrides : Json) : Json :=
  match base, overrides with
  | .object fields, .object changes =>
    .object (changes.foldl (fun fields f => Json.insertField f.1 f.2 fields) fields)
  | base, _ => base

/-- The parameters of the child at `index`. -/
def childParameters (q : CreateBatchApiRequest) (index : Nat) : Json :=
  match (q.items.find? fun i => i.index = (index : Int)).bind
      BatchItemSpec.parameterOverrides with
  | some overrides => mergeParameters q.baseParameters overrides
  | none => q.baseParameters

/-- What the store answers about the device. -/
structure DeviceAnswers where
  /-- `can_use_device`. -/
  canUse : Except StoreError Bool
  /-- The device among `devices_for_user`, with its capabilities when they parse. -/
  device : Except StoreError (Option (Option (List OfferedWorkflow)))

/-- The device offers the workflow. -/
def offers (capabilities : Option (List OfferedWorkflow)) (q : CreateBatchApiRequest) : Bool :=
  (capabilities.getD []).any fun w =>
    decide (w.id = q.workflowId) && decide (w.version = q.workflowVersion)

/-- The row of the batch. -/
def batchRow (principal : Principal) (q : CreateBatchApiRequest) (batchId : Uuid) : BatchRow where
  organizationId := principal.organizationId
  id := batchId.text
  workflowId := q.workflowId
  workflowVersion := q.workflowVersion
  baseParameters := q.baseParameters
  deviceOrganizationId := q.deviceOrganizationId
  deviceId := q.deviceId
  totalJobs := q.count

/-- The children. -/
def batchChildren (q : CreateBatchApiRequest) (jobIds : Nat → Uuid) : List BatchChildJob :=
  (List.range q.count.toNat).map fun index =>
    ⟨(jobIds index).text, childParameters q index, q.sharedInputArtifactIds⟩

/-- `create_batch`. -/
def createBatch (s : Store) (auth : Except HubError Principal)
    (answers : DeviceAnswers) (q : CreateBatchApiRequest) (batchId : Uuid)
    (jobIds : Nat → Uuid) (idempotency : Option IdempotencyRow)
    (admission : Except StoreError Unit) (now : Int) :
    Except HubError (Store × CommitResult) :=
  auth.bind fun principal =>
  if principal.userId.isNone then
    .error (.forbidden "a user-owned credential is required")
  else if q.deviceOrganizationId.isNone ∨ q.deviceId.isNone then
    .error (.invalidRequest "device_organization_id and device_id are required for batch jobs")
  else if principal.devicesUse = false then
    .error (.forbidden "missing permission devices:use")
  else (answers.canUse.mapError HubError.store).bind fun usable =>
  if usable = false then
    .error (.forbidden "the selected device is not accessible")
  else (answers.device.mapError HubError.store).bind fun device =>
  match device with
  | none => .error (.forbidden "the selected device is not accessible")
  | some capabilities =>
    if offers capabilities q = false then
      .error (.invalidRequest "the selected device does not offer the requested workflow version")
    else if q.count < 1 ∨ q.count > 100 then
      .error (.invalidRequest "count must be between 1 and 100")
    else (commitNewBatch s (batchRow principal q batchId)
      (batchChildren q jobIds) q.sharedInputArtifactIds idempotency admission
      now).mapError mapStoreError

/-! ## `submit_job_for_principal` -/

/-- The object store signs downloads the protocol accepts. -/
structure Signer where
  /-- `presign_get`. -/
  presignGet : String → Except String PresignedRequest
  downloadable : ∀ key r, presignGet key = .ok r → Downloadable r

/-- The inputs of a submission, from memory or from the store. -/
def readInputs (artifact : String → Option ArtifactRow) :
    List String → Except HubError (List ArtifactRow)
  | [] => .ok []
  | id :: rest =>
    match artifact id with
    | none => .error (.notFound ("input artifact " ++ id))
    | some a =>
      if a.state ≠ .ready ∨ a.jobId.isSome then
        .error (.conflict ("input artifact " ++ id ++ " is not ready"))
      else (readInputs artifact rest).map fun more => a :: more

/-- Their downloads. -/
def signInputs (signer : Signer) : List ArtifactRow → Except HubError Unit
  | [] => .ok ()
  | a :: rest =>
    ((signer.presignGet a.objectKey).mapError HubError.objectStore).bind
      fun _ => signInputs signer rest

/-- The worker `reserve_capacity` has chosen. -/
structure ReservedWorker where
  organizationId : String
  workerId : String
  sessionId : String

/-- The row of the job. -/
def jobUpsert (principal : Principal) (q : SubmitJobRequest) (jobId : Uuid)
    (worker : ReservedWorker) (now : Int) : JobUpsert where
  organizationId := principal.organizationId
  id := jobId.text
  workflowId := q.workflowId
  workflowVersion := q.workflowVersion
  parameters := q.parameters
  inputArtifactIds := q.inputArtifactIds
  workerId := worker.workerId
  workerOrganizationId := worker.organizationId
  sessionId := worker.sessionId
  attempt := 1
  now := now

/-- `submit_job_for_principal`, up to the commit. -/
def submitJobForPrincipal (s : Store) (principal : Principal) (q : SubmitJobRequest) (jobId : Uuid)
    (idempotency : Option IdempotencyRow) (accessible : Except HubError Unit)
    (artifact : String → Option ArtifactRow) (signer : Signer)
    (reserved : Option ReservedWorker) (admission : Except StoreError Unit)
    (now : Int) : Except HubError (Store × CommitResult) :=
  if q.parameters.isObject = false then
    .error (.invalidRequest "parameters must be a JSON object")
  else if blank q.workflowId = true ∨ blank q.workflowVersion = true then
    .error (.invalidRequest "workflow_id and workflow_version are required")
  else if q.deviceId.isSome ≠ q.deviceOrganizationId.isSome then
    .error (.invalidRequest "device_id and device_organization_id must be provided together")
  else
  ((replayed s.idempotency "idempotency key was already used for a different request"
    idempotency).mapError mapStoreError).bind fun existing =>
  match existing with
  | some id => .ok (s, .existing id)
  | none =>
    accessible.bind fun _ =>
    (readInputs artifact q.inputArtifactIds).bind fun inputs =>
    (signInputs signer inputs).bind fun _ =>
    match reserved with
    | none => .error (.unavailable
        "no accessible connected device has the requested workflow and capacity")
    | some worker =>
      if principal.userId.isNone then
        .error (.forbidden "device access requires a user identity")
      else (commitNewJob s (jobUpsert principal q jobId worker now)
        idempotency admission).mapError mapStoreError

/-! ## What an accepted request has stored -/

theorem mergeParameters_isObject (base overrides : Json) :
    (mergeParameters base overrides).isObject = base.isObject := by
  unfold mergeParameters
  split
  · rfl
  · rfl

/-- Overrides make no object of anything else. -/
theorem childParameters_isObject (q : CreateBatchApiRequest) (index : Nat) :
    (childParameters q index).isObject = q.baseParameters.isObject := by
  rw [childParameters]
  split
  · exact mergeParameters_isObject _ _
  · rfl

/-- What a job is about: this never changes. -/
structure Content where
  workflowId : String
  workflowVersion : String
  parameters : Json
  inputArtifactIds : List String
  deriving DecidableEq

/-- The content of a row. -/
def content (j : JobRow) : Content :=
  ⟨j.workflowId, j.workflowVersion, j.parameters, j.inputArtifactIds⟩

/-- A job whose texts the protocol accepts. -/
structure Stored (k : Key) (c : Content) (s : Store) : Prop where
  row : ∃ j, s.jobs.find? k = some j ∧ content j = c
  jobId : blank k.2 = false
  workflowId : blank c.workflowId = false
  workflowVersion : blank c.workflowVersion = false

variable {s t : Store} {principal : Principal}
  {idempotency : Option IdempotencyRow} {admission : Except StoreError Unit}
  {now : Int} {k : Key} {c : Content}

/-- An accepted batch names a workflow the device offers, and is committed. -/
theorem createBatch_ok {answers : DeviceAnswers} {q : CreateBatchApiRequest}
    {batchId : Uuid} {jobIds : Nat → Uuid} {r : CommitResult}
    (hok : createBatch s (.ok principal) answers q batchId jobIds idempotency
      admission now = .ok (t, r)) :
    blank q.workflowId = false ∧ blank q.workflowVersion = false
      ∧ commitNewBatch s (batchRow principal q batchId)
        (batchChildren q jobIds) q.sharedInputArtifactIds idempotency
        admission now = .ok (t, r) := by
  obtain ⟨-, hok⟩ := check_eq_ok hok
  obtain ⟨-, hok⟩ := check_eq_ok hok
  obtain ⟨-, hok⟩ := check_eq_ok hok
  obtain ⟨usable, -, hok⟩ := bind_eq_ok hok
  obtain ⟨-, hok⟩ := check_eq_ok hok
  obtain ⟨device, -, hok⟩ := bind_eq_ok hok
  cases device with
  | none => cases hok
  | some capabilities =>
    obtain ⟨hoffers, hok⟩ := check_eq_ok hok
    obtain ⟨-, hok⟩ := check_eq_ok hok
    rw [Bool.not_eq_false, offers, List.any_eq_true] at hoffers
    obtain ⟨workflow, -, hworkflow⟩ := hoffers
    rw [Bool.and_eq_true, decide_eq_true_eq, decide_eq_true_eq] at hworkflow
    exact ⟨hworkflow.1 ▸ workflow.id_present,
      hworkflow.2 ▸ workflow.version_present, mapError_eq_ok hok⟩

/-- **AN ACCEPTED BATCH** has stored every child with its own parameters. -/
theorem createBatch_stored {answers : DeviceAnswers}
    {q : CreateBatchApiRequest} {batchId : Uuid} {jobIds : Nat → Uuid}
    (hok : createBatch s (.ok principal) answers q batchId jobIds idempotency
      admission now = .ok (t, .created)) {index : Nat}
    (hindex : index < q.count.toNat) :
    Stored (principal.organizationId, (jobIds index).text)
      ⟨q.workflowId, q.workflowVersion, childParameters q index, q.sharedInputArtifactIds⟩ t := by
  obtain ⟨hid, hversion, hcommit⟩ := createBatch_ok hok
  refine ⟨?_, (jobIds index).present, hid, hversion⟩
  refine ⟨_, find?_insertChildren (commitNewBatch_created hcommit).children ⟨(jobIds index).text,
    childParameters q index, q.sharedInputArtifactIds⟩ ?_, rfl⟩
  exact List.mem_map.mpr ⟨index, List.mem_range.mpr hindex, rfl⟩

section Submission

variable {q : SubmitJobRequest} {jobId : Uuid} {accessible : Except HubError Unit}
  {artifact : String → Option ArtifactRow} {signer : Signer} {reserved : Option ReservedWorker}

/-- An accepted submission has an object for parameters, names a workflow, and is committed. -/
theorem submitJobForPrincipal_ok
    (hok : submitJobForPrincipal s principal q jobId idempotency accessible
      artifact signer reserved admission now = .ok (t, .created)) :
    q.parameters.isObject = true ∧ blank q.workflowId = false ∧ blank q.workflowVersion = false
      ∧ ∃ worker, commitNewJob s (jobUpsert principal q jobId worker now)
        idempotency admission = .ok (t, .created) := by
  obtain ⟨hobject, hok⟩ := check_eq_ok hok
  obtain ⟨hworkflow, hok⟩ := check_eq_ok hok
  obtain ⟨-, hok⟩ := check_eq_ok hok
  obtain ⟨existing, -, hok⟩ := bind_eq_ok hok
  rw [not_or, Bool.not_eq_true, Bool.not_eq_true] at hworkflow
  cases existing with
  | some id =>
    obtain ⟨-, hcreated⟩ := Prod.mk.inj (Except.ok.inj hok)
    cases hcreated
  | none =>
    obtain ⟨-, -, hok⟩ := bind_eq_ok hok
    obtain ⟨inputs, -, hok⟩ := bind_eq_ok hok
    obtain ⟨-, -, hok⟩ := bind_eq_ok hok
    cases reserved with
    | none => cases hok
    | some worker =>
      obtain ⟨-, hok⟩ := check_eq_ok hok
      exact ⟨(Bool.not_eq_false _).mp hobject, hworkflow.1, hworkflow.2, worker, mapError_eq_ok hok⟩

/-- **AN ACCEPTED SUBMISSION** has stored its job. -/
theorem submitJobForPrincipal_stored
    (hok : submitJobForPrincipal s principal q jobId idempotency accessible
      artifact signer reserved admission now = .ok (t, .created)) :
    Stored (principal.organizationId, jobId.text)
      ⟨q.workflowId, q.workflowVersion, q.parameters, q.inputArtifactIds⟩
      t := by
  obtain ⟨-, hid, hversion, worker, hcommit⟩ := submitJobForPrincipal_ok hok
  refine ⟨?_, jobId.present, hid, hversion⟩
  exact ⟨_, (find?_insert (commitNewJob_created hcommit).jobs _).trans (if_pos rfl), rfl⟩

end Submission

/-- A request was accepted: the parameters it was made with, one job it has
    created and what that job is about, and the tables afterwards. -/
inductive Accepted (s : Store) : Json → Key → Content → Store → Prop
  | batch {principal : Principal} {answers : DeviceAnswers}
      {q : CreateBatchApiRequest} {batchId : Uuid} {jobIds : Nat → Uuid}
      {idempotency : Option IdempotencyRow}
      {admission : Except StoreError Unit} {now : Int} {t : Store}
      (hok : createBatch s (.ok principal) answers q batchId jobIds
        idempotency admission now = .ok (t, .created)) {index : Nat}
      (hindex : index < q.count.toNat) :
      Accepted s q.baseParameters (principal.organizationId, (jobIds index).text)
        ⟨q.workflowId, q.workflowVersion, childParameters q index, q.sharedInputArtifactIds⟩ t
  | submission {principal : Principal} {q : SubmitJobRequest} {jobId : Uuid}
      {idempotency : Option IdempotencyRow}
      {accessible : Except HubError Unit}
      {artifact : String → Option ArtifactRow} {signer : Signer}
      {reserved : Option ReservedWorker}
      {admission : Except StoreError Unit} {now : Int} {t : Store}
      (hok : submitJobForPrincipal s principal q jobId idempotency accessible
        artifact signer reserved admission now = .ok (t, .created)) :
      Accepted s q.parameters (principal.organizationId, jobId.text)
        ⟨q.workflowId, q.workflowVersion, q.parameters, q.inputArtifactIds⟩ t

theorem Accepted.stored {base : Json} (h : Accepted s base k c t) : Stored k c t := by
  cases h with
  | batch hok hindex => exact createBatch_stored hok hindex
  | submission hok => exact submitJobForPrincipal_stored hok

/-- What is sent is an object when what was asked for is. -/
theorem Accepted.isObject {base : Json} (h : Accepted s base k c t) :
    c.parameters.isObject = base.isObject := by
  cases h with
  | batch hok hindex => exact childParameters_isObject _ _
  | submission hok => rfl

/-- An accepted request is one transaction of the store. -/
theorem Accepted.performed {base : Json} (h : Accepted s base k c t) : ∃ op, perform s op = t := by
  cases h with
  | batch hok hindex =>
    obtain ⟨-, -, hcommit⟩ := createBatch_ok hok
    exact ⟨.commitNewBatch _ _ _ _ _ _, congrArg (commit s) hcommit⟩
  | submission hok =>
    obtain ⟨-, -, -, worker, hcommit⟩ := submitJobForPrincipal_ok hok
    exact ⟨.commitNewJob _ _ _, congrArg (commit s) hcommit⟩

/-! ## What stays stored -/

/-- The rows are rewritten without touching what the jobs are about. -/
def SameContent (j j' : JobRow) : Prop := content j' = content j

theorem SameContent.refl (j : JobRow) : SameContent j j := rfl

/-- Every job is kept, with its content. -/
def Kept (s t : Store) : Prop :=
  ∀ k j, s.jobs.find? k = some j → ∃ j', t.jobs.find? k = some j' ∧ SameContent j j'

theorem kept_refl (s : Store) : Kept s s :=
  fun _ j hj => ⟨j, hj, SameContent.refl j⟩

theorem Kept.trans {u : Store} (h₁ : Kept s t) (h₂ : Kept t u) : Kept s u := by
  intro k j hj
  obtain ⟨j₁, hj₁, hsame₁⟩ := h₁ k j hj
  obtain ⟨j₂, hj₂, hsame₂⟩ := h₂ k j₁ hj₁
  exact ⟨j₂, hj₂, Eq.trans hsame₂ hsame₁⟩

theorem kept_of_related (h : s.jobs.Related SameContent t.jobs) : Kept s t := h.forth

theorem kept_of_jobs (h : t.jobs = s.jobs) : Kept s t := by
  intro k j hj
  rw [h]
  exact ⟨j, hj, SameContent.refl j⟩

/-- Nothing that is written to a row changes its content. -/
theorem sameContent_of_written {j j' : JobRow} (h : Written j j') : SameContent j j' := by
  cases h <;> rfl

/-- **ONE TRANSACTION** keeps every job and what it is about. -/
theorem kept_step {op : StoreOp} (h : step s op = some t) : Kept s t := by
  cases h
  intro k j hj
  obtain ⟨j', hj', hw⟩ := (rewrites_perform s op).forth k j hj
  exact ⟨j', hj', sameContent_of_written hw⟩

/-- A stored job stays stored. -/
theorem Stored.kept (h : Stored k c s) (hkept : Kept s t) : Stored k c t := by
  obtain ⟨j, hj, hc⟩ := h.row
  obtain ⟨j', hj', hsame⟩ := hkept k j hj
  exact { h with row := ⟨j', hj', Eq.trans hsame hc⟩ }

end Admission
