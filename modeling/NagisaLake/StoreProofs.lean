import NagisaLake.TableProofs
import NagisaLake.TransactionProofs
import NagisaLake.JobStateProofs

/-! # The Hub's store — jobs, quota, backlog and outbox as transactions

`PgStore` keeps jobs, their events, the quota counters, the ledger of
released jobs, the backlog of queued jobs and the dispatch outbox in
PostgreSQL.  Each public operation that writes them is one transaction and
is written here as one: it reads the tables, checks, and returns the new
tables with its answer, or an error that leaves everything as it was.

What the callers promise about their arguments is a field of the argument:
a `ConditionalJobUpdate` expects a live state, a `JobEventUpdate` follows
the transition table. -/

namespace HubStore

open Jobs JsonValue KeyedTable Transactions Table

/-- `StoreError`, as far as these operations return it. -/
inductive StoreError where
  | notFound (what : String)
  | conflict (text : String)
  | quotaExceeded (what : String)
  | database (text : String)
  deriving DecidableEq, Repr

/-- A key `(organization_id, id)`. -/
abbrev Key := String × String

instance : LawfulBEq Key := inferInstance

/-- A row of `jobs`. -/
structure JobRow where
  organizationId : String
  id : String
  workflowId : String
  workflowVersion : String
  parameters : Json
  inputArtifactIds : List String
  outputArtifactIds : List String
  workerId : Option String
  workerOrganizationId : Option String
  sessionId : Option String
  attempt : Nat
  state : JobState
  progress : Option Rat
  promptId : Option String
  error : Option String
  lastEvent : Nat
  createdAt : Int
  updatedAt : Int
  batchId : Option String
  deriving DecidableEq, Repr

def JobRow.key (j : JobRow) : Key := (j.organizationId, j.id)

/-- A row of `job_events`. -/
structure EventRow where
  organizationId : String
  jobId : String
  attempt : Nat
  sequence : Nat
  kind : JobEventKind
  progress : Option Rat
  promptId : Option String
  message : String
  unixMs : Int
  deriving DecidableEq, Repr

/-- The job the event belongs to. -/
def EventRow.jobKey (e : EventRow) : Key := (e.organizationId, e.jobId)

def EventRow.key (e : EventRow) : Key × Nat × Nat :=
  (e.jobKey, e.attempt, e.sequence)

/-- A row of `quota_policies`. -/
structure PolicyRow where
  organizationId : String
  maxConcurrentJobs : Int
  maxJobsPerPeriod : Int
  periodSeconds : Int
  maxBatchJobs : Int
  maxStorageBytes : Int
  deriving DecidableEq, Repr

/-- A row of `quota_usage`. -/
structure UsageRow where
  organizationId : String
  activeJobs : Int
  storageBytes : Int
  periodJobs : Int
  periodStartedAt : Int
  deriving DecidableEq, Repr

/-- A `concurrency_release` row of `usage_ledger`; the idempotency key is the job. -/
structure LedgerRow where
  organizationId : String
  jobId : String
  createdAt : Int
  deriving DecidableEq, Repr

def LedgerRow.key (l : LedgerRow) : Key := (l.organizationId, l.jobId)

/-- A row of `job_dispatch_queue`. -/
structure QueueRow where
  organizationId : String
  jobId : String
  availableAt : Int
  priority : Int
  createdAt : Int
  leaseOwner : Option String
  leaseUntil : Option Int
  deriving DecidableEq, Repr

def QueueRow.key (q : QueueRow) : Key := (q.organizationId, q.jobId)

/-- A row of `dispatch_outbox`. -/
structure OutboxRow where
  organizationId : String
  jobId : String
  attempt : Nat
  status : String
  availableAt : Int
  deriving DecidableEq, Repr

def OutboxRow.key (o : OutboxRow) : Key × Nat :=
  ((o.organizationId, o.jobId), o.attempt)

/-- `ArtifactState`. -/
inductive ArtifactState where
  | pendingUpload
  | ready
  deriving DecidableEq, Repr

/-- A row of `artifacts`. -/
structure ArtifactRow where
  organizationId : String
  id : String
  jobId : Option String
  name : String
  contentType : String
  sizeBytes : Int
  sha256 : String
  state : ArtifactState
  objectKey : String
  expiresAt : Option Int
  deriving DecidableEq, Repr

def ArtifactRow.key (a : ArtifactRow) : Key := (a.organizationId, a.id)

/-- A row of `artifact_upload_requests`. -/
structure UploadRequestRow where
  organizationId : String
  requestId : String
  artifactId : String
  jobId : Option String
  attempt : Option Nat
  completedAt : Option Int
  deriving DecidableEq, Repr

def UploadRequestRow.key (r : UploadRequestRow) : Key :=
  (r.organizationId, r.requestId)

/-- A row of `idempotency_records` or of `job_batch_idempotency_records`; the
    target is the job or the batch. -/
structure IdempotencyRow where
  organizationId : String
  actorKind : String
  actorId : String
  endpoint : String
  idempotencyKey : String
  requestHash : String
  target : String
  deriving DecidableEq, Repr

def IdempotencyRow.key (i : IdempotencyRow) : String × String × String × String × String :=
  (i.organizationId, i.actorKind, i.actorId, i.endpoint, i.idempotencyKey)

/-- A row of `job_batches`. -/
structure BatchRow where
  organizationId : String
  id : String
  workflowId : String
  workflowVersion : String
  baseParameters : Json
  deviceOrganizationId : Option String
  deviceId : Option String
  totalJobs : Int
  deriving DecidableEq, Repr

def BatchRow.key (b : BatchRow) : Key := (b.organizationId, b.id)

/-- The tables. -/
structure Store where
  jobs : Table Key JobRow JobRow.key
  events : Table (Key × Nat × Nat) EventRow EventRow.key
  policies : Table String PolicyRow PolicyRow.organizationId
  usage : Table String UsageRow UsageRow.organizationId
  ledger : Table Key LedgerRow LedgerRow.key
  queue : Table Key QueueRow QueueRow.key
  outbox : Table (Key × Nat) OutboxRow OutboxRow.key
  artifacts : Table Key ArtifactRow ArtifactRow.key
  uploadRequests : Table Key UploadRequestRow UploadRequestRow.key
  batches : Table Key BatchRow BatchRow.key
  idempotency : Table _ IdempotencyRow IdempotencyRow.key
  batchIdempotency : Table _ IdempotencyRow IdempotencyRow.key

/-- The smallest `i64`. -/
def i64Min : Int := -9223372036854775808

/-- The value a saturating `i64` operation gives. -/
def saturate (n : Int) : Int := max i64Min (min n i64Max)

/-- The job is not in a terminal state. -/
def JobRow.live (j : JobRow) : Bool := !j.state.isTerminal

/-- The live jobs of an organization. -/
def liveOf (organizationId : String) (j : JobRow) : Bool :=
  decide (j.organizationId = organizationId) && j.live

/-- An insertion without `ON CONFLICT`: a taken key is a database error. -/
def insertOrFail {κ ρ : Type} {key : ρ → κ} [DecidableEq κ]
    (t : Table κ ρ key) (r : ρ) : Except StoreError (Table κ ρ key) :=
  match t.insert r with
  | some u => .ok u
  | none => .error (.database "duplicate key value")

/-! ## Releasing a finished job -/

/-- `active_jobs=GREATEST(0,active_jobs-1)`. -/
def UsageRow.release (u : UsageRow) : UsageRow :=
  { u with activeJobs := max 0 (u.activeJobs - 1) }

theorem UsageRow.release_key (u : UsageRow) : u.release.organizationId = u.organizationId := rfl

/-- `release_job_for_terminal_tx`: the counter goes down only with the first
    ledger row of the job. -/
def releaseJobForTerminal (s : Store) (k : Key) (now : Int) : Store :=
  if s.jobs.exists? fun j => decide (j.key = k) && j.state.isTerminal then
    match s.ledger.insert ⟨k.1, k.2, now⟩ with
    | some ledger =>
      { s with
        ledger := ledger
        usage := s.usage.update (fun u => u.organizationId = k.1)
          UsageRow.release UsageRow.release_key }
    | none => s
  else s

/-! ## Submitting jobs -/

/-- `JobUpsert`, as `commit_job_record` fills it: the job is `Received` and bound to a worker. -/
structure JobUpsert where
  organizationId : String
  id : String
  workflowId : String
  workflowVersion : String
  parameters : Json
  inputArtifactIds : List String
  workerId : String
  workerOrganizationId : String
  sessionId : String
  attempt : Nat
  now : Int

/-- The inserted row. -/
def JobUpsert.row (i : JobUpsert) : JobRow where
  organizationId := i.organizationId
  id := i.id
  workflowId := i.workflowId
  workflowVersion := i.workflowVersion
  parameters := i.parameters
  inputArtifactIds := i.inputArtifactIds
  outputArtifactIds := []
  workerId := some i.workerId
  workerOrganizationId := some i.workerOrganizationId
  sessionId := some i.sessionId
  attempt := i.attempt
  state := .received
  progress := none
  promptId := none
  error := none
  lastEvent := 0
  createdAt := i.now
  updatedAt := i.now
  batchId := none

/-- `CommitJobResult` and `CommitBatchResult`. -/
inductive CommitResult where
  | created
  | existing (id : String)
  deriving DecidableEq, Repr

/-- `INITIAL_DISPATCH_DELAY_MS`. -/
def initialDispatchDelayMs : Int := 5000

/-- The lookup of an idempotency record: a replay, or a conflict. -/
def replayed (t : Table _ IdempotencyRow IdempotencyRow.key) (conflict : String) :
    Option IdempotencyRow → Except StoreError (Option String)
  | none => .ok none
  | some i =>
    match t.find? i.key with
    | none => .ok none
    | some row =>
      if row.requestHash = i.requestHash then .ok (some row.target)
      else .error (.conflict conflict)

/-- The record of a request that carries an idempotency key. -/
def recordIdempotency (t : Table _ IdempotencyRow IdempotencyRow.key) : Option IdempotencyRow →
      Except StoreError (Table _ IdempotencyRow IdempotencyRow.key)
  | some i => insertOrFail t i
  | none => .ok t

/-- The job counter of the current period. -/
def periodJobs (p : PolicyRow) (u : UsageRow) (now : Int) : Int :=
  if saturate (now - u.periodStartedAt) ≥ saturate (p.periodSeconds * 1000)
  then 0 else u.periodJobs

/-- The policy and the usage row of an organization. -/
def readQuota (s : Store) (organizationId : String) (noPolicy : StoreError) :
    Except StoreError (PolicyRow × UsageRow) :=
  match s.policies.find? organizationId, s.usage.find? organizationId with
  | some p, some u => .ok (p, u)
  | none, _ => .error noPolicy
  | some _, none => .error (.database "no row returned")

/-- The input may be claimed. -/
def claimable (organizationId : String) (ids : List String) (a : ArtifactRow) : Bool :=
  decide (a.organizationId = organizationId) && decide (a.id ∈ ids)
    && decide (a.state = .ready) && decide (a.jobId = none)

/-- The claimed input. -/
def ArtifactRow.claim (jobId : String) (a : ArtifactRow) : ArtifactRow :=
  { a with jobId := some jobId }

theorem ArtifactRow.claim_key (jobId : String) (a : ArtifactRow) :
    (a.claim jobId).key = a.key := rfl

/-- Claim the inputs of a new job, all of them or none. -/
def claimInputs (s : Store) (organizationId jobId : String)
    (ids : List String) : Except StoreError Store :=
  let claimed :=
    (s.artifacts.rows.filter (claimable organizationId ids)).map ArtifactRow.id
  if claimed.length ≠ ids.length then
    match ids.find? fun id => !decide (id ∈ claimed) with
    | some id => .error (.conflict ("input artifact " ++ id
        ++ " is not ready or was claimed concurrently"))
    | none => .error (.conflict "input artifact ids must be unique")
  else .ok { s with
    artifacts := s.artifacts.update (claimable organizationId ids)
      (ArtifactRow.claim jobId) (ArtifactRow.claim_key jobId) }

/-- The counters after `n` more jobs. -/
def UsageRow.charge (u : UsageRow) (n period startedAt : Int) : UsageRow :=
  { u with
    activeJobs := u.activeJobs + n
    periodJobs := period + n
    periodStartedAt := startedAt }

theorem UsageRow.charge_key (n period startedAt : Int) (u : UsageRow) :
    (u.charge n period startedAt).organizationId = u.organizationId := rfl

/-- `quota_usage` after `n` more jobs of an organization. -/
def chargeUsage (usage : Table String UsageRow UsageRow.organizationId)
    (organizationId : String) (n period startedAt : Int) :
    Table String UsageRow UsageRow.organizationId :=
  usage.update (fun u => u.organizationId = organizationId) (fun u => u.charge n period startedAt)
    (UsageRow.charge_key n period startedAt)

/-- `commit_new_job`; `admission` is the answer of the device policy, which is
    only read.  The second look at the idempotency record, under the lock of
    the usage row, reads what the first one read: the transaction is atomic. -/
def commitNewJob (s : Store) (input : JobUpsert) (idempotency : Option IdempotencyRow)
    (admission : Except StoreError Unit) :
    Except StoreError (Store × CommitResult) := do
  let conflict := "idempotency key was used for a different request"
  match ← replayed s.idempotency conflict idempotency with
  | some jobId => return (s, .existing jobId)
  | none =>
    let (policy, usage) ← readQuota s input.organizationId
      (.notFound "quota policy")
    admission
    let period := periodJobs policy usage input.now
    if usage.activeJobs ≥ policy.maxConcurrentJobs
        ∨ period ≥ policy.maxJobsPerPeriod then
      .error (.quotaExceeded "jobs")
    else
      let s ← claimInputs s input.organizationId input.id
        input.inputArtifactIds
      let jobs ← insertOrFail s.jobs input.row
      let startedAt := if period = 0 then input.now else usage.periodStartedAt
      let outbox ← insertOrFail s.outbox
        ⟨input.organizationId, input.id, input.attempt, "pending",
          saturate (input.now + initialDispatchDelayMs)⟩
      let records ← recordIdempotency s.idempotency idempotency
      return ({ s with
        jobs := jobs
        usage := chargeUsage s.usage input.organizationId 1 period startedAt
        outbox := outbox
        idempotency := records }, .created)

/-- `BatchChildJob`. -/
structure BatchChildJob where
  jobId : String
  parameters : Json
  inputArtifactIds : List String

/-- The row of a batch child: queued, bound to no worker. -/
def BatchChildJob.row (batch : BatchRow) (c : BatchChildJob) (now : Int) : JobRow where
  organizationId := batch.organizationId
  id := c.jobId
  workflowId := batch.workflowId
  workflowVersion := batch.workflowVersion
  parameters := c.parameters
  inputArtifactIds := c.inputArtifactIds
  outputArtifactIds := []
  workerId := none
  workerOrganizationId := none
  sessionId := none
  attempt := 1
  state := .queued
  progress := none
  promptId := none
  error := none
  lastEvent := 0
  createdAt := now
  updatedAt := now
  batchId := some batch.id

/-- One child: the job and its place in the backlog. -/
def insertChild (batch : BatchRow) (now : Int) (s : Store)
    (c : BatchChildJob) : Except StoreError Store := do
  let jobs ← insertOrFail s.jobs (c.row batch now)
  let queue ← insertOrFail s.queue
    ⟨batch.organizationId, c.jobId, now, 0, now, none, none⟩
  return { s with jobs := jobs, queue := queue }

/-- All children, in order. -/
def insertChildren (batch : BatchRow) (now : Int) :
    Store → List BatchChildJob → Except StoreError Store
  | s, [] => .ok s
  | s, c :: cs => (insertChild batch now s c).bind fun t =>
    insertChildren batch now t cs

/-- A shared input that is not ready. -/
def missingInput (s : Store) (organizationId : String) (ids : List String) : Option String :=
  ids.find? fun id => !((s.artifacts.find? (organizationId, id)).any
    fun a => decide (a.state = .ready))

/-- `commit_new_batch`, with `total_jobs` the number of children, as the batch API passes it. -/
def commitNewBatch (s : Store) (batch : BatchRow)
    (children : List BatchChildJob) (sharedInputArtifactIds : List String)
    (idempotency : Option IdempotencyRow)
    (admission : Except StoreError Unit) (now : Int) :
    Except StoreError (Store × CommitResult) := do
  let conflict := "idempotency key conflict: request hash mismatch"
  match ← replayed s.batchIdempotency conflict idempotency with
  | some batchId => return (s, .existing batchId)
  | none =>
    let (policy, usage) ← readQuota s batch.organizationId
      (.database "no row returned")
    admission
    let n : Int := children.length
    let period := periodJobs policy usage now
    if n > policy.maxBatchJobs then
      .error (.quotaExceeded "batch_limit")
    else if usage.activeJobs + n > policy.maxConcurrentJobs then
      .error (.quotaExceeded "inflight_limit")
    else if period + n > policy.maxJobsPerPeriod then
      .error (.quotaExceeded "period_limit")
    else
      match missingInput s batch.organizationId sharedInputArtifactIds with
      | some id => .error (.conflict ("shared input artifact " ++ id
          ++ " is not ready or not found"))
      | none =>
        let batches ← insertOrFail s.batches { batch with totalJobs := n }
        let s ← insertChildren batch now s children
        let expired := saturate (now - usage.periodStartedAt)
          ≥ saturate (policy.periodSeconds * 1000)
        let startedAt := if expired then now else usage.periodStartedAt
        let records ← recordIdempotency s.batchIdempotency idempotency
        return ({ s with
          batches := batches
          usage := chargeUsage s.usage batch.organizationId n period startedAt
          batchIdempotency := records }, .created)

/-! ## The backlog -/

/-- `claim_dispatch_queue_job` may take the row. -/
def QueueRow.available (now : Int) (q : QueueRow) : Bool :=
  decide (q.availableAt ≤ now) && q.leaseUntil.all fun l => decide (l < now)

/-- `ORDER BY available_at ASC, priority DESC, created_at ASC, organization_id, job_id`. -/
def QueueRow.before (a b : QueueRow) : Bool :=
  if a.availableAt ≠ b.availableAt then a.availableAt < b.availableAt
  else if a.priority ≠ b.priority then b.priority < a.priority
  else if a.createdAt ≠ b.createdAt then a.createdAt < b.createdAt
  else if a.organizationId ≠ b.organizationId then
    a.organizationId < b.organizationId
  else a.jobId < b.jobId

/-- The first row of that order. -/
def firstOf : List QueueRow → Option QueueRow
  | [] => none
  | q :: qs => match firstOf qs with
      | none => some q
      | some r => some (if r.before q then r else q)

/-- The leased row. -/
def QueueRow.lease (leaseOwner : String) (leaseUntil : Int) (q : QueueRow) :
    QueueRow :=
  { q with leaseOwner := some leaseOwner, leaseUntil := some leaseUntil }

theorem QueueRow.lease_key (leaseOwner : String) (leaseUntil : Int)
    (q : QueueRow) : (q.lease leaseOwner leaseUntil).key = q.key := rfl

/-- `claim_dispatch_queue_job`: lease the first available row.  `locked` are
    the rows `SKIP LOCKED` passes over. -/
def claimDispatchQueueJob (s : Store) (leaseOwner : String)
    (leaseSeconds now : Int) (locked : List Key) : Store × Option Key :=
  let leaseUntil := saturate (now + saturate (max leaseSeconds 0 * 1000))
  let candidate := firstOf (s.queue.rows.filter fun q =>
    q.available now && !decide (q.key ∈ locked))
  match candidate with
  | none => (s, none)
  | some c => ({ s with
      queue := s.queue.update (fun q => q.key = c.key) (QueueRow.lease leaseOwner leaseUntil)
        (QueueRow.lease_key leaseOwner leaseUntil) }, some c.key)

/-- The row a worker is bound to. -/
def JobRow.bind (workerOrganizationId workerId sessionId : String)
    (now : Int) (j : JobRow) : JobRow :=
  { j with
    workerId := some workerId
    workerOrganizationId := some workerOrganizationId
    sessionId := some sessionId
    state := .received
    updatedAt := now }

theorem JobRow.bind_key (workerOrganizationId workerId sessionId : String)
    (now : Int) (j : JobRow) :
    (j.bind workerOrganizationId workerId sessionId now).key = j.key := rfl

/-- The job waits in the backlog. -/
def JobRow.queued (j : JobRow) : Bool := j.state = .queued

/-- `bind_queued_job`: state, outbox and backlog together; `none` when another
    scheduler or a cancellation was first. -/
def bindQueuedJob (s : Store) (k : Key)
    (workerOrganizationId workerId sessionId : String) (now : Int) :
    Option Store :=
  match s.jobs.find? k with
  | none => none
  | some j =>
    match s.jobs.updateKey k JobRow.queued
        (JobRow.bind workerOrganizationId workerId sessionId now)
        (JobRow.bind_key workerOrganizationId workerId sessionId now) with
    | none => none
    | some jobs => some { s with
        jobs := jobs
        outbox := s.outbox.upsert ⟨k.1, k.2, j.attempt, "pending", now⟩ id fun _ => rfl
        queue := s.queue.delete fun q => q.key = k }

/-- The row of a job cancelled in the backlog. -/
def JobRow.cancelQueued (now : Int) (j : JobRow) : JobRow :=
  { j with
    state := .cancelled
    error := some "cancelled before worker dispatch"
    updatedAt := now }

theorem JobRow.cancelQueued_key (now : Int) (j : JobRow) : (j.cancelQueued now).key = j.key := rfl

/-- `cancel_queued_job`. -/
def cancelQueuedJob (s : Store) (k : Key) (now : Int) : Option Store :=
  (s.jobs.updateKey k JobRow.queued (JobRow.cancelQueued now)
    (JobRow.cancelQueued_key now)).map fun jobs =>
      releaseJobForTerminal { s with
        jobs := jobs
        queue := s.queue.delete fun q => q.key = k } k now

/-! ## Moving a bound job -/

/-- `ConditionalJobUpdate`, as `update_job_error` and the cancellation of a job fill it: a live
    state is expected, and a new state is `failed` or `cancelled`. -/
structure ConditionalJobUpdate where
  key : Key
  attempt : Nat
  expectedState : JobState
  expectedLastEvent : Nat
  state : Option JobState
  error : Option String
  now : Int
  expected_live : expectedState.isTerminal = false
  state_terminal : ∀ t, state = some t → t.isTerminal = true

/-- The row the update expects. -/
def ConditionalJobUpdate.expects (u : ConditionalJobUpdate) (j : JobRow) :
    Bool :=
  decide (j.attempt = u.attempt) && decide (j.state = u.expectedState)
    && decide (j.lastEvent = u.expectedLastEvent)

/-- The row it writes. -/
def ConditionalJobUpdate.write (u : ConditionalJobUpdate) (j : JobRow) :
    JobRow :=
  { j with
    state := u.state.getD j.state
    error := u.error
    updatedAt := max j.updatedAt u.now }

theorem ConditionalJobUpdate.write_key (u : ConditionalJobUpdate)
    (j : JobRow) : (u.write j).key = j.key := rfl

/-- `update_job_if_current`: `none` when the job has moved on. -/
def updateJobIfCurrent (s : Store) (u : ConditionalJobUpdate) : Option Store :=
  (s.jobs.updateKey u.key u.expects u.write u.write_key).map fun jobs =>
    if u.state.any JobState.isTerminal then
      releaseJobForTerminal { s with jobs := jobs } u.key u.now
    else { s with jobs := jobs }

/-- `can_recover_forward_transition`: a worker may have advanced while the Hub was away. -/
def canRecoverForwardTransition : JobState → JobState → Bool
  | .received, .running | .received, .uploading | .received, .completed
  | .accepted, .uploading | .accepted, .completed
  | .running, .completed => true
  | _, _ => false

/-- `JobEventUpdate`, as the Hub's `apply_job_event` fills it: the new state
    follows from the expected one. -/
structure JobEventUpdate where
  sessionId : String
  expectedSessionId : String
  expectedState : JobState
  expectedLastEvent : Nat
  state : JobState
  error : Option String
  allowed : expectedState.canTransitionTo state = true
    ∨ canRecoverForwardTransition expectedState state = true

/-- The row the update expects; SQL's `=` never holds of `NULL`. -/
def JobEventUpdate.expects (u : JobEventUpdate) (attempt : Nat) (j : JobRow) :
    Bool :=
  decide (j.attempt = attempt) && decide (j.state = u.expectedState)
    && decide (j.lastEvent = u.expectedLastEvent)
    && (decide (j.sessionId = some u.expectedSessionId)
      || decide (j.sessionId = some u.sessionId))

/-- The row it writes. -/
def JobEventUpdate.write (u : JobEventUpdate) (e : EventRow) (now : Int) (j : JobRow) : JobRow :=
  { j with
    sessionId := some u.sessionId
    state := u.state
    progress := e.progress <|> j.progress
    promptId := e.promptId <|> j.promptId
    error := u.error
    lastEvent := max j.lastEvent e.sequence
    updatedAt := max j.updatedAt now }

theorem JobEventUpdate.write_key (u : JobEventUpdate) (e : EventRow)
    (now : Int) (j : JobRow) : (u.write e now j).key = j.key := rfl

/-- The event is stored, or stored already with the same payload. -/
def recordEvent (events : Table _ EventRow EventRow.key) (e : EventRow) :
    Option (Table _ EventRow EventRow.key) :=
  match events.find? e.key with
  | none => events.insert e
  | some stored => if stored = e then some events else none

/-- `PgStore::apply_job_event`: `false` when the job has moved on. -/
def applyJobEvent (s : Store) (e : EventRow) (u : JobEventUpdate)
    (now : Int) : Except StoreError (Store × Bool) :=
  match recordEvent s.events e with
  | none => .error (.conflict "job event sequence was reused with a different payload")
  | some events =>
    match s.jobs.updateKey e.jobKey (u.expects e.attempt) (u.write e now)
        (u.write_key e now) with
    | none => .ok (s, false)
    | some jobs =>
      if u.state.isTerminal then
        .ok (releaseJobForTerminal { s with events := events, jobs := jobs } e.jobKey now, true)
      else .ok ({ s with events := events, jobs := jobs }, true)

/-! ## Reconciliation -/

/-- A job whose worker has not been seen since the cutoff.  `seen` are the workers with a later
    `last_seen_at`; a job without a worker matches none of them. -/
def JobRow.stale (cutoff : Int) (seen : List Key) (j : JobRow) : Bool :=
  j.live && decide (j.updatedAt ≤ cutoff)
    && !(seen.any fun w => decide (j.workerOrganizationId = some w.1)
      && decide (j.workerId = some w.2))

/-- The row of a job reconciliation gives up. -/
def JobRow.giveUp (now : Int) (j : JobRow) : JobRow :=
  { j with
    state := .failed
    error := some "worker session unavailable during quota reconciliation"
    updatedAt := now }

theorem JobRow.giveUp_key (now : Int) (j : JobRow) : (j.giveUp now).key = j.key := rfl

/-- The ledger rows of the jobs given up; an existing one stays. -/
def recordReleases (now : Int) (ledger : Table Key LedgerRow LedgerRow.key) :
    List JobRow → Table Key LedgerRow LedgerRow.key
  | [] => ledger
  | j :: js => recordReleases now
      (ledger.upsert ⟨j.organizationId, j.id, now⟩ id fun _ => rfl) js

/-- `QuotaReconcileStats`. -/
structure QuotaReconcileStats where
  correctedOrganizations : Nat
  failedJobs : Nat
  activeJobs : Int

/-- `reconcile_active_job_quota`: give stale jobs up, then recount.  The two updates of
    `quota_usage` are for organizations with live jobs and for those without. -/
def reconcileActiveJobQuota (s : Store) (now staleAfterMs : Int)
    (seen : Int → List Key) : Store × QuotaReconcileStats :=
  let cutoff := saturate (now - max staleAfterMs 1000)
  let stale := JobRow.stale cutoff (seen cutoff)
  let jobs := s.jobs.update stale (JobRow.giveUp now) (JobRow.giveUp_key now)
  let ledger := recordReleases now s.ledger (s.jobs.rows.filter stale)
  let actual := fun u : UsageRow => jobs.count (liveOf u.organizationId)
  let wrongNonzero := fun u : UsageRow =>
    decide (actual u ≠ 0) && decide (u.activeJobs ≠ actual u)
  let wrongZero := fun u : UsageRow =>
    decide (u.activeJobs ≠ 0) && decide (actual u = 0)
  let usage := (s.usage.update wrongNonzero
      (fun u => { u with activeJobs := actual u }) fun _ => rfl).update
    wrongZero (fun u => { u with activeJobs := 0 }) fun _ => rfl
  ({ s with jobs := jobs, ledger := ledger, usage := usage },
    { correctedOrganizations :=
        s.usage.count wrongNonzero + s.usage.count wrongZero
      failedJobs := s.jobs.count stale
      activeJobs := usage.total UsageRow.activeJobs })

/-! ## Runs of the store -/

/-- A transaction with its arguments. -/
inductive StoreOp where
  | commitNewJob (input : JobUpsert) (idempotency : Option IdempotencyRow)
      (admission : Except StoreError Unit)
  | commitNewBatch (batch : BatchRow) (children : List BatchChildJob)
      (sharedInputArtifactIds : List String)
      (idempotency : Option IdempotencyRow)
      (admission : Except StoreError Unit) (now : Int)
  | claimDispatchQueueJob (leaseOwner : String) (leaseSeconds now : Int)
      (locked : List Key)
  | bindQueuedJob (k : Key) (workerOrganizationId workerId sessionId : String)
      (now : Int)
  | cancelQueuedJob (k : Key) (now : Int)
  | updateJobIfCurrent (u : ConditionalJobUpdate)
  | applyJobEvent (e : EventRow) (u : JobEventUpdate) (now : Int)
  | releaseJobForTerminal (k : Key) (now : Int)
  | reconcileActiveJobQuota (now staleAfterMs : Int) (seen : Int → List Key)

/-- The transactions that insert jobs. -/
def inserts : StoreOp → Bool
  | .commitNewJob _ _ _ => true
  | .commitNewBatch _ _ _ _ _ _ => true
  | _ => false

/-- The tables after a transaction. -/
def perform (s : Store) : StoreOp → Store
  | .commitNewJob input idempotency admission =>
    commit s (commitNewJob s input idempotency admission)
  | .commitNewBatch batch children shared idempotency admission now =>
    commit s (commitNewBatch s batch children shared idempotency admission now)
  | .claimDispatchQueueJob owner seconds now locked =>
    (claimDispatchQueueJob s owner seconds now locked).1
  | .bindQueuedJob k workerOrg worker session now =>
    (bindQueuedJob s k workerOrg worker session now).getD s
  | .cancelQueuedJob k now => (cancelQueuedJob s k now).getD s
  | .updateJobIfCurrent u => (updateJobIfCurrent s u).getD s
  | .applyJobEvent e u now => commit s (applyJobEvent s e u now)
  | .releaseJobForTerminal k now => releaseJobForTerminal s k now
  | .reconcileActiveJobQuota now staleAfterMs seen =>
    (reconcileActiveJobQuota s now staleAfterMs seen).1

/-- Every transaction may be tried at any time. -/
def step (s : Store) (op : StoreOp) : Option Store := some (perform s op)

/-- A store in which no job has been submitted: the counters stand at zero. -/
structure Fresh (s : Store) : Prop where
  jobs : s.jobs = Table.empty
  ledger : s.ledger = Table.empty
  queue : s.queue = Table.empty
  outbox : s.outbox = Table.empty
  usage : ∀ u ∈ s.usage.rows, u.activeJobs = 0

/-- A store with one organization. -/
def sampleStore : Store where
  jobs := Table.empty
  events := Table.empty
  policies := Table.empty.put ⟨"org", 2, 100, 3600, 10, 1000⟩
  usage := Table.empty.put ⟨"org", 0, 0, 0, 0⟩
  ledger := Table.empty
  queue := Table.empty
  outbox := Table.empty
  artifacts := Table.empty
  uploadRequests := Table.empty
  batches := Table.empty
  idempotency := Table.empty
  batchIdempotency := Table.empty

theorem sampleStore_fresh : Fresh sampleStore where
  jobs := rfl
  ledger := rfl
  queue := rfl
  outbox := rfl
  usage := by
    intro u hu
    rcases mem_put.mp hu with rfl | ⟨hno, -⟩
    · rfl
    · cases hno

/-! ## What a terminal state leaves -/

/-- The tables only a submission writes, and an upload. -/
structure Beside where
  artifacts : Table Key ArtifactRow ArtifactRow.key
  batches : Table Key BatchRow BatchRow.key
  idempotency : Table _ IdempotencyRow IdempotencyRow.key
  batchIdempotency : Table _ IdempotencyRow IdempotencyRow.key

def Store.beside (s : Store) : Beside :=
  ⟨s.artifacts, s.batches, s.idempotency, s.batchIdempotency⟩

theorem releaseJobForTerminal_frame (s : Store) (k : Key) (now : Int) :
    (releaseJobForTerminal s k now).jobs = s.jobs ∧ (releaseJobForTerminal s k now).queue = s.queue
      ∧ (releaseJobForTerminal s k now).outbox = s.outbox
      ∧ (releaseJobForTerminal s k now).events = s.events
      ∧ (releaseJobForTerminal s k now).beside = s.beside := by
  rw [releaseJobForTerminal]
  split
  · split
    all_goals exact ⟨rfl, rfl, rfl, rfl, rfl⟩
  · exact ⟨rfl, rfl, rfl, rfl, rfl⟩

/-- One job is rewritten where it stands; the tables beside it stay. -/
structure Rewrote (s t : Store) (k : Key) (p : JobRow → Bool)
    (f : JobRow → JobRow) (hf : ∀ j, (f j).key = j.key) : Prop where
  jobs : s.jobs.updateKey k p f hf = some t.jobs
  beside : t.beside = s.beside

variable {s t : Store} {now : Int} {batch : BatchRow}

theorem Rewrote.release {k : Key} {p : JobRow → Bool} {f : JobRow → JobRow}
    {hf : ∀ j, (f j).key = j.key} (h : Rewrote s t k p f hf) (k' : Key) (now : Int) :
    Rewrote s (releaseJobForTerminal t k' now) k p f hf := by
  obtain ⟨hjobs, -, -, -, hbeside⟩ := releaseJobForTerminal_frame t k' now
  exact ⟨by rw [hjobs]; exact h.jobs, hbeside.trans h.beside⟩

theorem bindQueuedJob_some {k : Key} {workerOrg worker session : String}
    (h : bindQueuedJob s k workerOrg worker session now = some t) :
    Rewrote s t k JobRow.queued (JobRow.bind workerOrg worker session now)
        (JobRow.bind_key workerOrg worker session now)
      ∧ t.events = s.events ∧ t.queue = (s.queue.delete fun q => q.key = k)
      ∧ t.usage = s.usage ∧ t.ledger = s.ledger
      ∧ ∃ j, s.jobs.find? k = some j
        ∧ t.outbox = s.outbox.upsert ⟨k.1, k.2, j.attempt, "pending", now⟩ id fun _ => rfl := by
  rw [bindQueuedJob] at h
  split at h
  · cases h
  next j hj =>
  split at h
  · cases h
  next jobs hup =>
  cases h
  exact ⟨⟨hup, rfl⟩, rfl, rfl, rfl, rfl, j, hj, rfl⟩

theorem cancelQueuedJob_some {k : Key} (h : cancelQueuedJob s k now = some t) :
    Rewrote s t k JobRow.queued (JobRow.cancelQueued now) (JobRow.cancelQueued_key now)
      ∧ t.events = s.events ∧ t.queue = (s.queue.delete fun q => q.key = k)
      ∧ t.outbox = s.outbox := by
  obtain ⟨jobs, hup, rfl⟩ := Option.map_eq_some_iff.mp h
  have hrow : Rewrote s { s with
      jobs := jobs
      queue := s.queue.delete fun q => q.key = k } k JobRow.queued
      (JobRow.cancelQueued now) (JobRow.cancelQueued_key now) := ⟨hup, rfl⟩
  obtain ⟨-, hqueue, houtbox, hevents, -⟩ := releaseJobForTerminal_frame _ k now
  exact ⟨hrow.release k now, hevents, hqueue, houtbox⟩

theorem updateJobIfCurrent_some {u : ConditionalJobUpdate} (h : updateJobIfCurrent s u = some t) :
    Rewrote s t u.key u.expects u.write u.write_key ∧ t.events = s.events ∧ t.queue = s.queue
      ∧ t.outbox = s.outbox := by
  obtain ⟨jobs, hup, rfl⟩ := Option.map_eq_some_iff.mp h
  have hrow : Rewrote s { s with jobs := jobs } u.key u.expects u.write
      u.write_key := ⟨hup, rfl⟩
  split
  · obtain ⟨-, hqueue, houtbox, hevents, -⟩ := releaseJobForTerminal_frame _ u.key u.now
    exact ⟨hrow.release u.key u.now, hevents, hqueue, houtbox⟩
  · exact ⟨hrow, rfl, rfl, rfl⟩

variable {u : JobEventUpdate}

/-- An event that is not applied leaves no trace, its own row included. -/
theorem applyJobEvent_ok {e : EventRow} {applied : Bool}
    (h : applyJobEvent s e u now = .ok (t, applied)) :
    (t = s ∧ applied = false)
    ∨ (Rewrote s t e.jobKey (u.expects e.attempt) (u.write e now) (u.write_key e now)
      ∧ recordEvent s.events e = some t.events ∧ t.queue = s.queue ∧ t.outbox = s.outbox) := by
  rw [applyJobEvent] at h
  split at h
  · cases h
  next events hevents =>
  split at h
  · cases h
    exact .inl ⟨rfl, rfl⟩
  next jobs hup =>
  have hrow : Rewrote s { s with events := events, jobs := jobs } e.jobKey
      (u.expects e.attempt) (u.write e now) (u.write_key e now) := ⟨hup, rfl⟩
  split at h
  · cases h
    obtain ⟨-, hqueue, houtbox, hstored, -⟩ :=
      releaseJobForTerminal_frame { s with events := events, jobs := jobs } e.jobKey now
    exact .inr ⟨hrow.release e.jobKey now, by rw [hstored]; exact hevents, hqueue, houtbox⟩
  · cases h
    exact .inr ⟨hrow, hevents, rfl, rfl⟩

theorem applyJobEvent_rewrote {e : EventRow} (h : applyJobEvent s e u now = .ok (t, true)) :
    Rewrote s t e.jobKey (u.expects e.attempt) (u.write e now) (u.write_key e now) := by
  rcases applyJobEvent_ok h with ⟨-, hno⟩ | ⟨hrow, -, -⟩
  · cases hno
  · exact hrow

/-- A terminal state is followed by itself only, on either table. -/
theorem JobEventUpdate.state_eq (u : JobEventUpdate)
    (h : u.expectedState.isTerminal = true) : u.state = u.expectedState := by
  rcases u.allowed with hcan | hcan
  · exact JobState.eq_of_isTerminal h hcan
  · revert h hcan
    cases u.expectedState <;> cases u.state <;> decide

/-- The state an event's row had. -/
theorem JobEventUpdate.state_of_expects {attempt : Nat} {j : JobRow}
    (h : u.expects attempt j = true) :
    j.state = u.expectedState := by
  rw [JobEventUpdate.expects] at h
  simp only [Bool.and_eq_true, decide_eq_true_eq] at h
  exact h.1.1.2

/-- An event finds no queued row, which has no session, and leads to none. -/
theorem JobEventUpdate.ne_queued_of_expects {attempt : Nat} {j : JobRow}
    (hwaiting : j.state = .queued → j.sessionId = none) (h : u.expects attempt j = true) :
    j.state ≠ .queued ∧ u.state ≠ .queued := by
  have hnot : j.state ≠ .queued := by
    intro hq
    rw [JobEventUpdate.expects, hwaiting hq] at h
    simp at h
  refine ⟨hnot, ?_⟩
  rw [JobEventUpdate.state_of_expects h] at hnot
  rcases u.allowed with hcan | hrec
  · exact JobState.ne_queued_of_canTransitionTo hnot hcan
  · intro hq
    rw [hq] at hrec
    revert hrec
    cases u.expectedState <;> decide

/-! ## What a successful submission has read and written -/

theorem insertOrFail_ok {κ ρ : Type} {key : ρ → κ} [DecidableEq κ]
    {t u : Table κ ρ key} {r : ρ} (h : insertOrFail t r = .ok u) :
    t.insert r = some u := by
  rw [insertOrFail] at h
  split at h
  · next v hv => rw [hv, Except.ok.inj h]
  · cases h

theorem readQuota_ok {o : String} {e : StoreError} {r : PolicyRow × UsageRow}
    (h : readQuota s o e = .ok r) :
    s.policies.find? o = some r.1 ∧ s.usage.find? o = some r.2 := by
  rw [readQuota] at h
  split at h
  · next p u hp hu => rw [hp, hu, ← Except.ok.inj h]; exact ⟨rfl, rfl⟩
  · cases h
  · cases h

theorem claimInputs_ok {o id : String} {ids : List String} (h : claimInputs s o id ids = .ok t) :
    t = { s with
      artifacts := s.artifacts.update (claimable o ids) (ArtifactRow.claim id)
        (ArtifactRow.claim_key id) } := by
  rw [claimInputs] at h
  split at h
  · split at h
    · cases h
    · cases h
  · exact (Except.ok.inj h).symm

/-- What a submission of `n` jobs has read of the quota, and how it is charged. -/
def Charged (s t : Store) (organizationId : String) (n : Int) : Prop :=
  ∃ p u period startedAt, s.policies.find? organizationId = some p
    ∧ s.usage.find? organizationId = some u ∧ u.activeJobs + n ≤ p.maxConcurrentJobs
    ∧ t.usage = chargeUsage s.usage organizationId n period startedAt

/-- What a new job has read and written: a row, an outbox row and one more on the counter, within
    the limit of the policy that was read. -/
structure JobCreated (s : Store) (input : JobUpsert) (idem : Option IdempotencyRow)
    (adm : Except StoreError Unit) (t : Store) : Prop where
  admitted : adm = .ok ()
  charged : Charged s t input.organizationId 1
  claimed : claimInputs s input.organizationId input.id input.inputArtifactIds
    = .ok { s with artifacts := t.artifacts }
  jobs : s.jobs.insert input.row = some t.jobs
  outbox : ∃ availableAt, s.outbox.insert
    ⟨input.organizationId, input.id, input.attempt, "pending", availableAt⟩ = some t.outbox
  recorded : recordIdempotency s.idempotency idem = .ok t.idempotency
  events : t.events = s.events
  ledger : t.ledger = s.ledger
  queue : t.queue = s.queue
  batches : t.batches = s.batches
  batchIdempotency : t.batchIdempotency = s.batchIdempotency

/-- **ONE NEW JOB**, or a replay. -/
theorem commitNewJob_ok {input : JobUpsert} {idem : Option IdempotencyRow}
    {adm : Except StoreError Unit} {r : CommitResult}
    (h : commitNewJob s input idem adm = .ok (t, r)) :
    (t = s ∧ r ≠ .created) ∨ (r = .created ∧ JobCreated s input idem adm t) := by
  obtain ⟨found, -, h⟩ := bind_eq_ok h
  split at h
  · cases h
    exact .inl ⟨rfl, by simp⟩
  obtain ⟨⟨p, u⟩, hread, h⟩ := bind_eq_ok h
  obtain ⟨⟨⟩, hadm, h⟩ := bind_eq_ok h
  obtain ⟨hquota, h⟩ := check_eq_ok h
  obtain ⟨s₁, hclaim, h⟩ := bind_eq_ok h
  obtain rfl := claimInputs_ok hclaim
  obtain ⟨jobs, hjobs, h⟩ := bind_eq_ok h
  obtain ⟨outbox, houtbox, h⟩ := bind_eq_ok h
  obtain ⟨records, hrecords, h⟩ := bind_eq_ok h
  obtain ⟨hp, hu⟩ := readQuota_ok hread
  cases h
  rw [not_or] at hquota
  exact .inr ⟨rfl, hadm, ⟨p, u, _, _, hp, hu, Int.not_le.mp hquota.1, rfl⟩, hclaim,
    insertOrFail_ok hjobs, ⟨_, insertOrFail_ok houtbox⟩, hrecords, rfl, rfl, rfl, rfl, rfl⟩

theorem commitNewJob_created {input : JobUpsert} {idem : Option IdempotencyRow}
    {adm : Except StoreError Unit} (h : commitNewJob s input idem adm = .ok (t, .created)) :
    JobCreated s input idem adm t := by
  rcases commitNewJob_ok h with ⟨-, hno⟩ | ⟨-, hnew⟩
  · exact absurd rfl hno
  · exact hnew

/-- What the insertion of a batch's children does: `n` more live jobs of the
    organization, all queued and all in the backlog. -/
structure Inserted (batch : BatchRow) (n : Nat) (s t : Store) : Prop where
  count : ∀ o, t.jobs.count (liveOf o)
    = s.jobs.count (liveOf o) + if batch.organizationId = o then n else 0
  old : ∀ k j, s.jobs.find? k = some j → t.jobs.find? k = some j
  new : ∀ k j, t.jobs.find? k = some j → s.jobs.find? k = some j
    ∨ (s.jobs.find? k = none ∧ j.state = .queued ∧ j.sessionId = none ∧ j.workerId = none)
  queue : ∀ k, (t.queue.find? k).isSome = true ↔ (s.queue.find? k).isSome = true
      ∨ (s.jobs.find? k = none ∧ (t.jobs.find? k).isSome = true)
  frame : t = { s with jobs := t.jobs, queue := t.queue }

theorem inserted_refl (batch : BatchRow) (s : Store) : Inserted batch 0 s s where
  count := by
    intro o
    split <;> rfl
  old := fun _ _ h => h
  new := fun _ _ h => .inl h
  queue := by
    intro k
    constructor
    · exact .inl
    rintro (h | ⟨hnone, hsome⟩)
    · exact h
    · rw [hnone] at hsome
      exact Bool.noConfusion hsome
  frame := rfl

theorem inserted_child {c : BatchChildJob} (h : insertChild batch now s c = .ok t) :
    Inserted batch 1 s t := by
  obtain ⟨jobs, hjobs, h⟩ := bind_eq_ok h
  obtain ⟨queue, hqueue, h⟩ := bind_eq_ok h
  cases h
  have hins := insertOrFail_ok hjobs
  have hinsq := insertOrFail_ok hqueue
  have hfresh := (insert_eq_some_iff.mp hins).1
  have hkey : (c.row batch now).key = (batch.organizationId, c.jobId) := rfl
  rw [hkey] at hfresh
  refine ⟨?_, ?_, ?_, ?_, rfl⟩
  · intro o
    rw [show ({ s with jobs := jobs, queue := queue } : Store).jobs = jobs
      from rfl, count_insert hins]
    by_cases ho : batch.organizationId = o
    · simp [liveOf, JobRow.live, BatchChildJob.row, JobState.isTerminal, ho]
    · simp [liveOf, BatchChildJob.row, ho]
  · intro k j hj
    rw [find?_insert hins, hkey]
    split
    · next hk =>
      rw [← hk, hfresh] at hj
      cases hj
    · exact hj
  · intro k j hj
    rw [find?_insert hins, hkey] at hj
    split at hj
    · next hk =>
      rw [← Option.some.inj hj, ← hk]
      exact .inr ⟨hfresh, rfl, rfl, rfl⟩
    · exact .inl hj
  · intro k
    rw [find?_insert hinsq, find?_insert hins, hkey]
    by_cases hk : (batch.organizationId, c.jobId) = k
    · rw [if_pos hk, ← hk]
      simp [hfresh, QueueRow.key]
    rw [if_neg hk, show QueueRow.key ⟨batch.organizationId, c.jobId, now, 0,
      now, none, none⟩ = (batch.organizationId, c.jobId) from rfl,
      if_neg hk]
    constructor
    · exact .inl
    rintro (h | ⟨hnone, hsome⟩)
    · exact h
    · rw [hnone] at hsome
      exact Bool.noConfusion hsome

theorem Inserted.trans {m n : Nat} {u : Store} (h₁ : Inserted batch m s t)
    (h₂ : Inserted batch n t u) :
    Inserted batch (m + n) s u where
  count := by
    intro o
    rw [h₂.count, h₁.count]
    split <;> omega
  old := fun k j h => h₂.old k j (h₁.old k j h)
  new := by
    intro k j h
    rcases h₂.new k j h with h | ⟨hnone, hq⟩
    · exact h₁.new k j h
    refine .inr ⟨?_, hq⟩
    cases hs : s.jobs.find? k with
    | none => rfl
    | some j' =>
      rw [h₁.old k j' hs] at hnone
      cases hnone
  queue := by
    intro k
    rw [h₂.queue, h₁.queue]
    cases hs : s.jobs.find? k with
    | some j =>
      have ht := h₁.old k j hs
      simp [ht]
    | none =>
      cases ht : t.jobs.find? k with
      | none => simp
      | some j =>
        have hu := h₂.old k j ht
        simp [hu]
  frame := by rw [h₂.frame, h₁.frame]

theorem inserted_children : ∀ {cs : List BatchChildJob} {s t : Store},
      insertChildren batch now s cs = .ok t →
      Inserted batch cs.length s t := by
  intro cs
  induction cs with intro s t h
  | nil =>
    cases h
    exact inserted_refl batch s
  | cons c cs ih =>
    obtain ⟨u, hu, h⟩ := bind_eq_ok h
    rw [List.length_cons, Nat.add_comm]
    exact (inserted_child hu).trans (ih h)

/-- The children are there. -/
theorem find?_insertChildren : ∀ {cs : List BatchChildJob} {s t : Store},
      insertChildren batch now s cs = .ok t → ∀ c ∈ cs,
      t.jobs.find? (batch.organizationId, c.jobId) = some (c.row batch now) := by
  intro cs
  induction cs with
  | nil =>
    intro s t _ c hc
    cases hc
  | cons d cs ih =>
    intro s t h c hc
    obtain ⟨u, hu, hrest⟩ := bind_eq_ok h
    rcases List.mem_cons.mp hc with rfl | hc
    · refine (inserted_children hrest).old _ _ ?_
      obtain ⟨jobs, hjobs, hu⟩ := bind_eq_ok hu
      obtain ⟨queue, -, hu⟩ := bind_eq_ok hu
      cases hu
      exact (find?_insert (insertOrFail_ok hjobs) _).trans (if_pos rfl)
    · exact ih hrest c hc

/-- What a new batch has read and written: its row, its children and as many more on the counter,
    within the limit of the policy that was read. -/
structure BatchCreated (s : Store) (batch : BatchRow) (children : List BatchChildJob)
    (idem : Option IdempotencyRow) (adm : Except StoreError Unit) (now : Int) (t : Store) :
    Prop where
  admitted : adm = .ok ()
  charged : Charged s t batch.organizationId children.length
  batches : s.batches.insert { batch with totalJobs := children.length } = some t.batches
  children : insertChildren batch now s children = .ok { s with jobs := t.jobs, queue := t.queue }
  recorded : recordIdempotency s.batchIdempotency idem = .ok t.batchIdempotency
  events : t.events = s.events
  ledger : t.ledger = s.ledger
  outbox : t.outbox = s.outbox
  artifacts : t.artifacts = s.artifacts
  idempotency : t.idempotency = s.idempotency

/-- **ONE NEW BATCH**, or a replay. -/
theorem commitNewBatch_ok {children : List BatchChildJob}
    {shared : List String} {idem : Option IdempotencyRow}
    {adm : Except StoreError Unit} {r : CommitResult}
    (h : commitNewBatch s batch children shared idem adm now = .ok (t, r)) :
    (t = s ∧ r ≠ .created) ∨ (r = .created ∧ BatchCreated s batch children idem adm now t) := by
  obtain ⟨found, -, h⟩ := bind_eq_ok h
  split at h
  · cases h
    exact .inl ⟨rfl, by simp⟩
  obtain ⟨⟨p, u⟩, hread, h⟩ := bind_eq_ok h
  obtain ⟨⟨⟩, hadm, h⟩ := bind_eq_ok h
  obtain ⟨-, h⟩ := check_eq_ok h
  obtain ⟨hactive, h⟩ := check_eq_ok h
  obtain ⟨-, h⟩ := check_eq_ok h
  split at h
  · cases h
  obtain ⟨batches, hbatches, h⟩ := bind_eq_ok h
  obtain ⟨t', hchildren, h⟩ := bind_eq_ok h
  obtain ⟨records, hrecords, h⟩ := bind_eq_ok h
  cases h
  obtain ⟨hp, hu⟩ := readQuota_ok hread
  have hframe := (inserted_children hchildren).frame
  rw [hframe] at hchildren hrecords ⊢
  exact .inr ⟨rfl, hadm, ⟨p, u, _, _, hp, hu, Int.not_lt.mp hactive, rfl⟩,
    insertOrFail_ok hbatches, hchildren, hrecords, rfl, rfl, rfl, rfl, rfl⟩

theorem commitNewBatch_created {children : List BatchChildJob} {shared : List String}
    {idem : Option IdempotencyRow} {adm : Except StoreError Unit}
    (h : commitNewBatch s batch children shared idem adm now = .ok (t, .created)) :
    BatchCreated s batch children idem adm now t := by
  rcases commitNewBatch_ok h with ⟨-, hno⟩ | ⟨-, hnew⟩
  · exact absurd rfl hno
  · exact hnew

/-- Whatever inserts no job leaves what a submission writes beside it. -/
theorem beside_perform (s : Store) {op : StoreOp} (hop : inserts op = false) :
    (perform s op).beside = s.beside := by
  cases op with
  | commitNewJob input idem adm
  | commitNewBatch batch children shared idem adm now => cases hop
  | claimDispatchQueueJob owner seconds now locked =>
    rw [perform, claimDispatchQueueJob]
    split
    · rfl
    · rfl
  | bindQueuedJob k workerOrg worker session now =>
    exact inv_getD (I := fun t => t.beside = s.beside) rfl fun _ hok =>
      (bindQueuedJob_some hok).1.beside
  | cancelQueuedJob k now =>
    exact inv_getD (I := fun t => t.beside = s.beside) rfl fun _ hok =>
      (cancelQueuedJob_some hok).1.beside
  | updateJobIfCurrent u =>
    exact inv_getD (I := fun t => t.beside = s.beside) rfl fun _ hok =>
      (updateJobIfCurrent_some hok).1.beside
  | applyJobEvent e u now =>
    refine inv_commit (I := fun t : Store => t.beside = s.beside) rfl fun t r hok => ?_
    rcases applyJobEvent_ok hok with ⟨rfl, -⟩ | ⟨hrow, -⟩
    · rfl
    · exact hrow.beside
  | releaseJobForTerminal k now => exact (releaseJobForTerminal_frame s k now).2.2.2.2
  | reconcileActiveJobQuota now staleAfterMs seen => rfl

/-- Only a new job touches the artifacts. -/
theorem artifacts_perform (s : Store) (op : StoreOp)
    (hop : ∀ input idem adm, op ≠ .commitNewJob input idem adm) :
    (perform s op).artifacts = s.artifacts := by
  cases hins : inserts op with
  | false => exact congrArg Beside.artifacts (beside_perform s hins)
  | true =>
    cases op with
    | commitNewJob input idem adm => exact absurd rfl (hop input idem adm)
    | commitNewBatch batch children shared idem adm now =>
      refine inv_commit (I := fun t : Store => t.artifacts = s.artifacts) rfl fun t r hok => ?_
      rcases commitNewBatch_ok hok with ⟨rfl, -⟩ | ⟨-, hnew⟩
      · rfl
      · exact hnew.artifacts
    | _ => cases hins

end HubStore
