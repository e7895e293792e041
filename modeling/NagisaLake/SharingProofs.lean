import NagisaLake.InvitesProofs
import NagisaLake.ReconcileProofs

/-! # Shared devices — the grant is checked when a batch is admitted

A device may be lent to a user of another organization: the owner issues an
invitation, `accept_device_invite` turns it into a grant, and
`revoke_device_grant` or the clock ends it.  A batch for such a device is
admitted by `enforce_device_use_policy_tx` inside `commit_new_batch`; its
children wait in the backlog, and a scheduler pass binds them later to the
device the batch row names.

The pass does not look at the grant again.  What it relies on is the
admission (`bound_granted_at_admission`): whoever created the job had, when
the batch was committed, an active grant on this very device for this
version of the workflow.  A grant that ends between the two does not stop
the children that wait. -/

namespace Sharing

open Jobs KeyedTable Runs Pools Transactions HubStore History Option List
open HubEvents (rebindJobSession)
open Invites (DeviceWorkflowRule DeviceInviteRow DeviceGrantRow GrantKey parseWorkflowRules)
open Reconcile (WorkerRow WorkerUpsert upsertWorker)

/-! ## Invitations and grants -/

/-- `device_workflow_allowed`: without rules every workflow is. -/
def deviceWorkflowAllowed (rules : List DeviceWorkflowRule)
    (workflowId workflowVersion : String) : Bool :=
  rules.isEmpty || rules.any fun rule =>
    decide (rule.id = workflowId) && decide (rule.version = workflowVersion)

/-- The tables a shared device is used through; `actorUserId` is the column of `jobs`. -/
structure Tables extends Invites.Tables where
  store : Store
  workers : Table Key WorkerRow WorkerRow.key
  actorUserId : Key → Option String

/-- What `create_device_invite` finds about the device; `member` are the members. -/
def Tables.sharers (t : Tables) (member : String → String → Bool) : Invites.Sharers where
  member := member
  owner := fun o d => (t.workers.find? (o, d)).map WorkerRow.ownerUserId

variable (fromStr : String → Option (List DeviceWorkflowRule))

/-! ## The admission of a batch -/

/-- `DeviceUseAdmission`. -/
structure DeviceUseAdmission where
  organizationId : String
  userId : String
  deviceOrganizationId : String
  deviceId : String
  workflowId : String
  workflowVersion : String
  requestedJobs : Int
  now : Int
  deriving DecidableEq, Repr

/-- A job of the user is bound to the device, or it waits as a child of a batch for it. -/
def occupies (t : Tables) (userId deviceOrganizationId deviceId : String) (j : JobRow) : Bool :=
  decide (t.actorUserId j.key = some userId) && j.live
    && (decide (j.workerOrganizationId = some deviceOrganizationId)
        && decide (j.workerId = some deviceId)
      || decide (j.state = .queued) && (j.batchId.bind fun b =>
          t.store.batches.find? (j.organizationId, b)).any fun batch =>
            decide (batch.deviceOrganizationId = some deviceOrganizationId)
              && decide (batch.deviceId = some deviceId))

/-- The jobs the admission counts are those of the submitting organization. -/
def holdsPlace (t : Tables) (a : DeviceUseAdmission) (j : JobRow) : Bool :=
  decide (j.organizationId = a.organizationId)
    && occupies t a.userId a.deviceOrganizationId a.deviceId j

/-- `enforce_device_use_policy_tx`. -/
def enforceDeviceUsePolicy (t : Tables) (a : DeviceUseAdmission) : Except StoreError Unit :=
  -- a device of the own organization needs no grant
  if a.deviceOrganizationId = a.organizationId then
    if (t.workers.find? (a.deviceOrganizationId, a.deviceId)).isSome then
      .ok ()
    else .error (.notFound "organization device")
  else
    match (t.grants.find?
      (a.deviceOrganizationId, a.deviceId, a.userId)).filter (DeviceGrantRow.active a.now) with
    | none => .error (.conflict "shared pool device grant is not active")
    | some g =>
      if !deviceWorkflowAllowed (parseWorkflowRules fromStr g.allowedWorkflowsJson) a.workflowId
          a.workflowVersion then
        .error (.conflict "shared pool device grant does not allow this workflow version")
      else if g.maxConcurrentJobs.any fun limit => decide (limit
          < saturate (t.store.jobs.count (holdsPlace t a) + max a.requestedJobs 1)) then
        .error (.quotaExceeded "shared_device_concurrency")
      else .ok ()

/-- The column after rows were inserted for a user. -/
def actorsAfter (t : Tables) (s : Store) (userId : Option String) (k : Key) : Option String :=
  if (t.store.jobs.find? k).isNone && (s.jobs.find? k).isSome then userId
  else t.actorUserId k

/-! ## The system -/

/-- A child was admitted: the tables its admission read, and its clock. -/
structure AdmittedJob where
  job : Key
  now : Int
  tables : Tables

/-- A job was bound to a device: the tables at that moment, and the clock. -/
structure Binding where
  job : Key
  deviceOrganizationId : String
  deviceId : String
  now : Int
  tables : Tables

/-- The tables, and what has been admitted and bound so far. -/
structure World where
  tables : Tables
  admitted : List AdmittedJob
  bindings : List Binding

/-- What `queued_job_info` returns. -/
structure QueuedJobInfo where
  workflowId : String
  workflowVersion : String
  deviceOrganizationId : String
  deviceId : String
  attempt : Nat
  deriving DecidableEq, Repr

/-- `queued_job_info`. -/
def queuedJobInfo (s : Store) (k : Key) : Option QueuedJobInfo := do
  let j ← s.jobs.find? k
  guard (j.state = .queued)
  let b ← j.batchId
  let batch ← s.batches.find? (k.1, b)
  let o ← batch.deviceOrganizationId
  let d ← batch.deviceId
  return ⟨j.workflowId, j.workflowVersion, o, d, j.attempt⟩

/-- `SCHEDULER_LEASE_SECONDS`. -/
def schedulerLeaseSeconds : Int := 30

/-- A pass of the scheduler over one job, and the statement it is at. -/
inductive Task where
  | claim
  | info (k : Key) (now : Int)
  | reserve (k : Key) (info : QueuedJobInfo) (now : Int)
  | bind (k : Key) (deviceOrganizationId deviceId sessionId : String)
      (now : Int)
  | done

/-- What a statement gets: the time and the rows other passes hold, the
    session whose capacity was reserved, or an error. -/
inductive Reply where
  | ok (now : Int) (locked : List Key)
  | reserved (sessionId : Option String)
  | failed

/-- `reserve_capacity_on` answers with the session of the device the batch names. -/
def afterReserve (k : Key) (info : QueuedJobInfo) (now : Int) : Option String → Task
  | some sessionId =>
    .bind k info.deviceOrganizationId info.deviceId sessionId now
  | none => .done

/-- One statement of `dispatch_queued_job`. -/
def taskStep (w : World) : Task → Reply → Option (World × Task)
  | .claim, .ok now locked =>
    let r := claimDispatchQueueJob w.tables.store "hub-scheduler"
      schedulerLeaseSeconds now locked
    some ({ w with tables := { w.tables with store := r.1 } },
      match r.2 with
      | some k => .info k now
      | none => .done)
  | .info k now, .ok _ _ => some (w,
      match queuedJobInfo w.tables.store k with
      -- `u32::try_from(attempt)`
      | some info => if info.attempt < 2 ^ 32 then .reserve k info now
          else .done
      | none => .done)
  | .reserve k info now, .reserved r => some (w, afterReserve k info now r)
  -- the grants are not read again
  | .bind k o d sessionId now, .ok _ _ =>
    match bindQueuedJob w.tables.store k o d sessionId now with
    | some s => some ({ w with
        tables := { w.tables with store := s }
        bindings := ⟨k, o, d, now, w.tables⟩ :: w.bindings }, .done)
    | none => some (w, .done)
  | .claim, .failed => some (w, .done)
  | .info _ _, .failed => some (w, .done)
  | .bind _ _ _ _ _, .failed => some (w, .done)
  | _, _ => none

/-- The row of a batch for a device. -/
def targeted (batch : BatchRow) (deviceOrganizationId deviceId : String) :
    BatchRow :=
  { batch with
    deviceOrganizationId := some deviceOrganizationId
    deviceId := some deviceId }

/-- `commit_new_batch`, with the admission `create_batch` passes. -/
def submitBatch (w : World) (userId : String) (batch : BatchRow)
    (deviceOrganizationId deviceId : String) (children : List BatchChildJob)
    (shared : List String) (idempotency : Option IdempotencyRow)
    (now : Int) : World :=
  let admission := enforceDeviceUsePolicy fromStr w.tables
    ⟨batch.organizationId, userId, deviceOrganizationId, deviceId,
      batch.workflowId, batch.workflowVersion, children.length, now⟩
  match commitNewBatch w.tables.store
      (targeted batch deviceOrganizationId deviceId) children shared
      idempotency admission now with
  | .ok (s, .created) => { w with
      tables := { w.tables with
        store := s
        actorUserId := actorsAfter w.tables s (some userId) }
      admitted := children.map (fun c =>
        ⟨(batch.organizationId, c.jobId), now, w.tables⟩) ++ w.admitted }
  | _ => w

/-- `commit_new_job`, with the admission of its caller. -/
def submitJob (t : Tables) (userId : Option String) (input : JobUpsert)
    (idempotency : Option IdempotencyRow)
    (admission : Option DeviceUseAdmission) : Tables :=
  let s := commit t.store (commitNewJob t.store input idempotency
    (match admission with
    | some a => enforceDeviceUsePolicy fromStr t a
    | none => .ok ()))
  { t with store := s, actorUserId := actorsAfter t s userId }

/-- What happens to the tables, and the scheduler passes. -/
inductive Act where
  | commitNewBatch (userId : String) (batch : BatchRow)
      (deviceOrganizationId deviceId : String)
      (children : List BatchChildJob) (shared : List String)
      (idempotency : Option IdempotencyRow) (now : Int)
  | commitNewJob (userId : Option String) (input : JobUpsert)
      (idempotency : Option IdempotencyRow)
      (admission : Option DeviceUseAdmission)
  | createDeviceInvite (input : DeviceInviteRow) (member : String → String → Bool)
  | revokeDeviceInvite (inviteId ownerUserId : String) (now : Int)
  | acceptDeviceInvite (codeHash granteeUserId : String) (now : Int) (uuid : String)
  | revokeDeviceGrant (k : GrantKey) (ownerUserId : String) (now : Int)
  | upsertWorker (i : WorkerUpsert)
  | perform (op : StoreOp)
  | rebindJobSession (k : Key) (attempt : Nat)
      (expectedSessionId newSessionId : String) (now : Int)
  | schedule
  | advance (i : Nat) (reply : Reply)

/-- The transactions of the store that neither submit nor bind. -/
def elsewhere : StoreOp → Bool
  | .bindQueuedJob _ _ _ _ _ => false
  | op => !inserts op

/-- The tables change, the history and the passes stay. -/
def setTables (p : Pool World Task) (t : Tables) : Pool World Task :=
  { p with shared := { p.shared with tables := t } }

/-- A statement on the invitations and the grants. -/
def share (p : Pool World Task) (a : Invites.Act) : Option (Pool World Task) :=
  (Invites.step fromStr p.shared.tables.toTables a).map fun t =>
    setTables p { p.shared.tables with toTables := t }

/-- One transaction, or one statement of a pass. -/
def step (p : Pool World Task) : Act → Option (Pool World Task)
  | .commitNewBatch userId batch o d children inputs idempotency now =>
    some ⟨submitBatch fromStr p.shared userId batch o d children inputs idempotency now, p.tasks⟩
  | .commitNewJob userId input idempotency admission =>
    some (setTables p (submitJob fromStr p.shared.tables userId input idempotency admission))
  | .createDeviceInvite input member =>
    share fromStr p (.create (p.shared.tables.sharers member) input)
  | .revokeDeviceInvite inviteId ownerUserId now =>
    share fromStr p (.revokeInvite inviteId ownerUserId now)
  | .acceptDeviceInvite codeHash granteeUserId now uuid =>
    share fromStr p (.accept codeHash granteeUserId now uuid)
  | .revokeDeviceGrant k ownerUserId now => share fromStr p (.revokeGrant k ownerUserId now)
  | .upsertWorker i =>
    some (setTables p { p.shared.tables with
      workers := (upsertWorker p.shared.tables.workers i).toOption.getD p.shared.tables.workers })
  | .perform op =>
    if elsewhere op then some (setTables p { p.shared.tables with
      store := perform p.shared.tables.store op })
    else none
  | .rebindJobSession k attempt expected sessionId now =>
    some (setTables p { p.shared.tables with
      store := (rebindJobSession p.shared.tables.store k attempt expected
        sessionId now).getD p.shared.tables.store })
  | .schedule => some (p.spawn .claim)
  | .advance i reply => p.advance taskStep i reply

/-! ## Grants at the binding and at the admission -/

/-- The user has an active grant that allows the workflow. -/
def granted (t : Tables) (k : GrantKey) (workflowId workflowVersion : String) (now : Int) : Bool :=
  (t.grants.find? k).any fun g => g.active now
    && deviceWorkflowAllowed (parseWorkflowRules fromStr g.allowedWorkflowsJson) workflowId
      workflowVersion

/-- The job was admitted under a grant on the device. -/
def Sponsored (w : World) (k : Key) (j : JobRow) (u o d : String) : Prop :=
  ∃ a ∈ w.admitted, a.job = k
    ∧ granted fromStr a.tables (o, d, u) j.workflowId j.workflowVersion a.now = true

/-- Every job bound to a device of another organization was admitted under a
    grant that was active then. -/
def GrantedAtAdmission (p : Pool World Task) : Prop :=
  ∀ b ∈ p.shared.bindings, b.deviceOrganizationId ≠ b.job.1 →
    ∃ j u, b.tables.store.jobs.find? b.job = some j ∧ b.tables.actorUserId b.job = some u
      ∧ Sponsored fromStr p.shared b.job j u b.deviceOrganizationId b.deviceId

/-! ## What later states keep -/

/-- A transaction leaves the batch and the workflow of a job. -/
structure Kin (j j' : JobRow) : Prop where
  batchId : j'.batchId = j.batchId
  workflowId : j'.workflowId = j.workflowId
  workflowVersion : j'.workflowVersion = j.workflowVersion

theorem Kin.refl (j : JobRow) : Kin j j := ⟨rfl, rfl, rfl⟩

theorem kin_of_written {j j' : JobRow} (h : Written j j') : Kin j j' := by
  cases h with
  | same => exact Kin.refl j
  | _ => exact ⟨rfl, rfl, rfl⟩

/-- The child of a batch is backed: the batch is there, and if it names a
    device of another organization, the child was admitted under a grant. -/
def Backed (w : World) (k : Key) (j : JobRow) (b : String) : Prop :=
  ∃ batch, w.tables.store.batches.find? (k.1, b) = some batch
    ∧ ∀ o d, batch.deviceOrganizationId = some o → batch.deviceId = some d →
      o ≠ k.1 → ∃ u, w.tables.actorUserId k = some u ∧ Sponsored fromStr w k j u o d

/-- Jobs and batches stay, and what is new is backed. -/
structure Later (w w' : World) : Prop where
  jobs : ∀ k j, w.tables.store.jobs.find? k = some j →
    ∃ j', w'.tables.store.jobs.find? k = some j' ∧ Kin j j'
  batches : ∀ k b, w.tables.store.batches.find? k = some b →
    w'.tables.store.batches.find? k = some b
  actor : ∀ k, (w.tables.store.jobs.find? k).isSome = true →
    w'.tables.actorUserId k = w.tables.actorUserId k
  admitted : ∀ a ∈ w.admitted, a ∈ w'.admitted
  born : ∀ k j b, w.tables.store.jobs.find? k = none →
    w'.tables.store.jobs.find? k = some j → j.batchId = some b →
    Backed fromStr w' k j b

section Later

variable {fromStr} {w w' : World}

/-- Jobs are rewritten, none is inserted. -/
theorem later_of_related (hjobs : w.tables.store.jobs.Related Written w'.tables.store.jobs)
    (hbatches : w'.tables.store.batches = w.tables.store.batches)
    (hactor : w'.tables.actorUserId = w.tables.actorUserId)
    (hadmitted : w'.admitted = w.admitted) : Later fromStr w w' where
  jobs := by
    intro k j hj
    obtain ⟨j', hj', hw⟩ := hjobs.forth k j hj
    exact ⟨j', hj', kin_of_written hw⟩
  batches := by
    intro k b hb
    rw [hbatches]
    exact hb
  actor := fun k _ => congrFun hactor k
  admitted := fun a ha => hadmitted ▸ ha
  born := by
    intro k j b hnone hj
    obtain ⟨i, hi, -⟩ := hjobs.back k j hj
    rw [hnone] at hi
    cases hi

/-- Neither jobs nor batches change. -/
theorem later_of_store (hstore : w'.tables.store = w.tables.store)
    (hactor : w'.tables.actorUserId = w.tables.actorUserId)
    (hadmitted : w'.admitted = w.admitted) : Later fromStr w w' := by
  refine later_of_related ?_ (by rw [hstore]) hactor hadmitted
  rw [hstore]
  exact Table.related_refl Written.same _

theorem Sponsored.later {k : Key} {j j' : JobRow} {u o d : String}
    (hs : Sponsored fromStr w k j u o d) (hl : Later fromStr w w') (hk : Kin j j') :
    Sponsored fromStr w' k j' u o d := by
  obtain ⟨a, ha, hjob, hgrant⟩ := hs
  refine ⟨a, hl.admitted a ha, hjob, ?_⟩
  rw [hk.workflowId, hk.workflowVersion]
  exact hgrant

theorem Backed.later {k : Key} {j j' : JobRow} {b : String}
    (hb : Backed fromStr w k j b) (hl : Later fromStr w w') (hk : Kin j j')
    (hj : w.tables.store.jobs.find? k = some j) : Backed fromStr w' k j' b := by
  obtain ⟨batch, hbatch, hdevice⟩ := hb
  refine ⟨batch, hl.batches _ _ hbatch, ?_⟩
  intro o d ho hd hne
  obtain ⟨u, hu, hs⟩ := hdevice o d ho hd hne
  refine ⟨u, ?_, hs.later hl hk⟩
  rw [hl.actor k (by rw [hj]; rfl)]
  exact hu

/-- The pass is about to bind the job to the device its batch names. -/
def Targets (t : Tables) (k : Key) (o d : String) : Prop :=
  ∃ j b batch, t.store.jobs.find? k = some j ∧ j.batchId = some b
    ∧ t.store.batches.find? (k.1, b) = some batch
    ∧ batch.deviceOrganizationId = some o ∧ batch.deviceId = some d

theorem Targets.later {k : Key} {o d : String} (ht : Targets w.tables k o d)
    (hl : Later fromStr w w') :
    Targets w'.tables k o d := by
  obtain ⟨j, b, batch, hj, hb, hbatch, hdevice⟩ := ht
  obtain ⟨j', hj', hk⟩ := hl.jobs k j hj
  exact ⟨j', b, batch, hj', hk.batchId.trans hb, hl.batches _ _ hbatch, hdevice⟩

end Later

/-- What a pass remembers is what the batch says. -/
def Aimed (t : Tables) : Task → Prop
  | .reserve k info _ =>
    Targets t k info.deviceOrganizationId info.deviceId
  | .bind k o d _ _ => Targets t k o d
  | _ => True

variable {fromStr} {w w' : World} {t : Tables} {p : Pool World Task} {k : Key}

theorem Aimed.later (hl : Later fromStr w w') {t : Task} (ht : Aimed w.tables t) :
    Aimed w'.tables t := by
  cases t with
  | claim | info k now | done => trivial
  | reserve k info now | bind k o d sessionId now => exact Targets.later ht hl

variable (fromStr) in
structure Inv (p : Pool World Task) : Prop where
  children : ∀ k j b, p.shared.tables.store.jobs.find? k = some j →
    j.batchId = some b → Backed fromStr p.shared k j b
  tasks : ∀ t ∈ p.tasks, Aimed p.shared.tables t
  bindings : GrantedAtAdmission fromStr p

/-- The children stay backed. -/
theorem backed_later (hl : Later fromStr w w')
    (hc : ∀ k j b, w.tables.store.jobs.find? k = some j → j.batchId = some b →
      Backed fromStr w k j b) :
    ∀ k j b, w'.tables.store.jobs.find? k = some j → j.batchId = some b →
      Backed fromStr w' k j b := by
  intro k j' b hj' hb
  cases hj : w.tables.store.jobs.find? k with
  | none => exact hl.born k j' b hj hj' hb
  | some j =>
    obtain ⟨i, hi, hk⟩ := hl.jobs k j hj
    cases hi.symm.trans hj'
    exact (hc k j b hj (hk.batchId.symm.trans hb)).later hl hk hj

variable {q : Pool World Task} {userId : Option String}

theorem grantedAtAdmission_later (hl : Later fromStr p.shared q.shared)
    (hb : q.shared.bindings = p.shared.bindings) (h : GrantedAtAdmission fromStr p) :
    GrantedAtAdmission fromStr q := by
  intro b hmem hne
  rw [hb] at hmem
  obtain ⟨j, u, hj, hu, hs⟩ := h b hmem hne
  exact ⟨j, u, hj, hu, hs.later hl (Kin.refl j)⟩

/-- A transaction beside the passes. -/
theorem Inv.later (hi : Inv fromStr p) (hl : Later fromStr p.shared w')
    (hb : w'.bindings = p.shared.bindings) : Inv fromStr ⟨w', p.tasks⟩ where
  children := backed_later hl hi.children
  tasks := fun t ht => (hi.tasks t ht).later hl
  bindings := grantedAtAdmission_later hl hb hi.bindings

/-! ## Submissions -/

/-- A row that was there keeps its actor. -/
theorem actorsAfter_old {s : Store} (hk : (t.store.jobs.find? k).isSome = true) :
    actorsAfter t s userId k = t.actorUserId k := by
  obtain ⟨j, hj⟩ := Option.isSome_iff_exists.mp hk
  rw [actorsAfter, hj]
  rfl

/-- An inserted row has the actor of its submission. -/
theorem actorsAfter_new {s : Store} {j : JobRow}
    (hnone : t.store.jobs.find? k = none) (hj : s.jobs.find? k = some j) :
    actorsAfter t s userId k = userId := by
  rw [actorsAfter, hnone, hj]
  rfl

/-- Rows are inserted; those that are children are backed. -/
theorem later_of_adds {B : JobRow → Prop} (hadds : Adds B w.tables.store.jobs w'.tables.store.jobs)
    (hbatches : ∀ k b, w.tables.store.batches.find? k = some b →
      w'.tables.store.batches.find? k = some b)
    (hactor : w'.tables.actorUserId = actorsAfter w.tables w'.tables.store userId)
    (hadmitted : ∀ a ∈ w.admitted, a ∈ w'.admitted)
    (hborn : ∀ k j b, w.tables.store.jobs.find? k = none →
      w'.tables.store.jobs.find? k = some j → B j → j.batchId = some b →
      Backed fromStr w' k j b) : Later fromStr w w' where
  jobs := fun k j hj => ⟨j, hadds.old k j hj, Kin.refl j⟩
  batches := hbatches
  actor := by
    intro k hk
    rw [hactor]
    exact actorsAfter_old hk
  admitted := hadmitted
  born := by
    intro k j b hnone hj hb
    rcases hadds.new k j hj with hold | ⟨-, hB⟩
    · rw [hnone] at hold
      cases hold
    · exact hborn k j b hnone hj hB hb

/-- A single job is no child of a batch. -/
theorem later_submitJob (w : World) (userId : Option String)
    (input : JobUpsert) (idempotency : Option IdempotencyRow)
    (admission : Option DeviceUseAdmission) :
    Later fromStr w { w with
      tables := submitJob fromStr w.tables userId input idempotency admission } := by
  have hadds : Adds (fun j => j.batchId = none) w.tables.store.jobs
        (submitJob fromStr w.tables userId input idempotency admission).store.jobs
      ∧ (submitJob fromStr w.tables userId input idempotency
          admission).store.batches = w.tables.store.batches := by
    refine inv_commit (I := fun t : Store =>
      Adds (fun j => j.batchId = none) w.tables.store.jobs t.jobs
        ∧ t.batches = w.tables.store.batches) ⟨adds_refl _, rfl⟩ ?_
    intro t r hok
    rcases commitNewJob_ok hok with ⟨rfl, -⟩ | ⟨-, hnew⟩
    · exact ⟨adds_refl _, rfl⟩
    · exact ⟨adds_insert hnew.jobs rfl, hnew.batches⟩
  refine later_of_adds hadds.1 (fun k b hb => ?_) rfl (fun a ha => ha) ?_
  · rw [hadds.2]
    exact hb
  · intro k j b _ _ hB hb
    rw [hB] at hb
    cases hb

/-- **THE ADMISSION**: a batch for a device of another organization passes
    only under a grant that is active and allows its workflow. -/
theorem granted_of_enforced {a : DeviceUseAdmission}
    (hok : enforceDeviceUsePolicy fromStr t a = .ok ())
    (hne : a.deviceOrganizationId ≠ a.organizationId) :
    granted fromStr t (a.deviceOrganizationId, a.deviceId, a.userId) a.workflowId
      a.workflowVersion a.now = true := by
  rw [enforceDeviceUsePolicy, if_neg hne] at hok
  split at hok
  · cases hok
  next g hg =>
  obtain ⟨hfind, hactive⟩ := filter_eq_some_iff.mp hg
  split at hok
  · cases hok
  next hallowed =>
  rw [Bool.not_eq_true, Bool.not_eq_false'] at hallowed
  rw [granted, hfind, any_some, hactive, hallowed]
  rfl

/-- A batch and its children. -/
theorem later_submitBatch (w : World) (userId : String) (batch : BatchRow)
    (o d : String) (children : List BatchChildJob) (inputs : List String)
    (idempotency : Option IdempotencyRow) (now : Int) :
    Later fromStr w (submitBatch fromStr w userId batch o d children inputs idempotency now) := by
  rw [submitBatch]
  split
  · next s hok =>
    have hnew := commitNewBatch_created hok
    have hins := hnew.batches
    have hadds := adds_insertChildren hnew.children
    refine later_of_adds hadds (fun k b hb => Table.find?_insert_old hins hb) rfl
      (fun a ha => mem_append_right _ ha) ?_
    rintro k j b hnone hj ⟨c, hc, rfl⟩ hb
    cases hb
    have hk : k = (batch.organizationId, c.jobId) :=
      (Table.key_of_find? hj).symm
    refine ⟨{ targeted batch o d with totalJobs := children.length }, ?_, ?_⟩
    · rw [Table.find?_insert hins, hk]
      exact if_pos rfl
    intro o' d' ho hd hne
    cases ho
    cases hd
    refine ⟨userId, actorsAfter_new hnone hj, ⟨(batch.organizationId, c.jobId), now, w.tables⟩,
      mem_append_left _ (mem_map_of_mem hc), hk.symm, ?_⟩
    rw [hk] at hne
    exact granted_of_enforced hnew.admitted hne
  · exact later_of_store rfl rfl rfl

/-! ## The passes -/

/-- What `queued_job_info` returns is what the batch says. -/
theorem targets_of_info {info : QueuedJobInfo} (h : queuedJobInfo t.store k = some info) :
    Targets t k info.deviceOrganizationId info.deviceId := by
  obtain ⟨j, hj, h⟩ := bind_eq_some_iff.mp h
  obtain ⟨-, -, h⟩ := bind_eq_some_iff.mp h
  obtain ⟨b, hb, h⟩ := bind_eq_some_iff.mp h
  obtain ⟨batch, hbatch, h⟩ := bind_eq_some_iff.mp h
  obtain ⟨o, ho, h⟩ := bind_eq_some_iff.mp h
  obtain ⟨d, hd, h⟩ := bind_eq_some_iff.mp h
  cases h
  exact ⟨j, b, batch, hj, hb, hbatch, ho, hd⟩

/-- A binding follows the batch, and the batch was admitted. -/
theorem sponsored_of_targets {o d : String} (hc : ∀ k j b, w.tables.store.jobs.find? k = some j →
      j.batchId = some b → Backed fromStr w k j b) (ht : Targets w.tables k o d)
    (hne : o ≠ k.1) :
    ∃ j u, w.tables.store.jobs.find? k = some j
      ∧ w.tables.actorUserId k = some u ∧ Sponsored fromStr w k j u o d := by
  obtain ⟨j, b, batch, hj, hb, hbatch, ho, hd⟩ := ht
  obtain ⟨batch', hbatch', hdevice⟩ := hc k j b hj hb
  cases hbatch.symm.trans hbatch'
  obtain ⟨u, hu, hs⟩ := hdevice o d ho hd hne
  exact ⟨j, u, hj, hu, hs⟩

/-- A statement of a pass: the tables go on, the pass stays aimed, and what it
    binds was aimed at. -/
theorem passes {t t' : Task} {reply : Reply} (ht : Aimed w.tables t)
    (h : taskStep w t reply = some (w', t')) :
    Later fromStr w w' ∧ Aimed w'.tables t' ∧ ∀ b ∈ w'.bindings, b ∈ w.bindings
      ∨ (b.tables = w.tables ∧ Targets w.tables b.job b.deviceOrganizationId b.deviceId) := by
  have hsame : Later fromStr w w := later_of_store rfl rfl rfl
  have hold : ∀ b ∈ w.bindings, b ∈ w.bindings ∨ (b.tables = w.tables
      ∧ Targets w.tables b.job b.deviceOrganizationId b.deviceId) :=
    fun b hb => .inl hb
  rw [taskStep.eq_def] at h
  split at h
  · next now locked =>
    cases h
    have hop : inserts (.claimDispatchQueueJob "hub-scheduler" schedulerLeaseSeconds now locked)
      = false := rfl
    refine ⟨later_of_related (related_perform w.tables.store hop)
      (congrArg Beside.batches (beside_perform w.tables.store hop)) rfl rfl, ?_, hold⟩
    split <;> trivial
  · next k now _ _ =>
    cases h
    refine ⟨hsame, ?_, hold⟩
    split
    · next info hinfo =>
      split
      · exact targets_of_info hinfo
      · trivial
    · trivial
  · next k info now r =>
    cases h
    refine ⟨hsame, ?_, hold⟩
    cases r with
    | none => trivial
    | some sessionId => exact ht
  · next k o d sessionId now _ _ =>
    split at h
    · next s hok =>
      cases h
      refine ⟨later_of_related (related_bind hok)
        (congrArg Beside.batches (bindQueuedJob_some hok).1.beside) rfl rfl, trivial, ?_⟩
      intro b hb
      rcases mem_cons.mp hb with rfl | hb
      · exact .inr ⟨rfl, ht⟩
      · exact .inl hb
    · cases h
      exact ⟨hsame, trivial, hold⟩
  all_goals cases h
  all_goals exact ⟨hsame, trivial, hold⟩

/-! ## Whole runs -/

/-- The transactions beside the passes that rewrite jobs. -/
theorem later_perform (w : World) {op : StoreOp} (hop : elsewhere op = true) :
    Later fromStr w { w with tables := { w.tables with
      store := perform w.tables.store op } } := by
  have hins : inserts op = false := by
    cases op with
    | bindQueuedJob k o d session now | commitNewJob input idem adm
    | commitNewBatch batch children inputs idem adm now => cases hop
    | _ => rfl
  exact later_of_related (related_perform w.tables.store hins)
    (congrArg Beside.batches (beside_perform w.tables.store hins)) rfl rfl

theorem later_rebind (w : World) (k : Key) (attempt : Nat)
    (expected sessionId : String) (now : Int) :
    Later fromStr w { w with tables := { w.tables with
      store := (rebindJobSession w.tables.store k attempt expected sessionId
        now).getD w.tables.store } } := by
  cases hok : rebindJobSession w.tables.store k attempt expected sessionId now with
  | none => exact later_of_store rfl rfl rfl
  | some s =>
    obtain ⟨jobs, -, hs⟩ := map_eq_some_iff.mp hok
    refine later_of_related (related_rebind hok) ?_ rfl rfl
    rw [Option.getD_some, ← hs]

/-- Invitations and grants are not jobs. -/
theorem inv_share {a : Invites.Act} (hi : Inv fromStr p) (h : share fromStr p a = some q) :
    Inv fromStr q := by
  obtain ⟨t, -, rfl⟩ := map_eq_some_iff.mp h
  exact hi.later (later_of_store rfl rfl rfl) rfl

theorem inv_advance {i : Nat} {reply : Reply} (hi : Inv fromStr p)
    (h : p.advance taskStep i reply = some q) : Inv fromStr q := by
  obtain ⟨t, w', t', ht, hstep, rfl⟩ := Pool.advance_eq_some h
  obtain ⟨hl, haimed, hbindings⟩ :=
    passes (hi.tasks t (mem_of_getElem? ht)) hstep
  refine ⟨backed_later hl hi.children,
    forall_tasks_set (fun u hu => (hi.tasks u hu).later hl) haimed, ?_⟩
  intro b hb hne
  rcases hbindings b hb with hold | ⟨htables, htargets⟩
  · obtain ⟨j, u, hj, hu, hs⟩ := hi.bindings b hold hne
    exact ⟨j, u, hj, hu, hs.later hl (Kin.refl j)⟩
  -- the binding of this very statement
  obtain ⟨j, u, hj, hu, hs⟩ :=
    sponsored_of_targets hi.children htargets hne
  rw [htables]
  exact ⟨j, u, hj, hu, hs.later hl (Kin.refl j)⟩

theorem inv_step {act : Act} (hi : Inv fromStr p) (h : step fromStr p act = some q) :
    Inv fromStr q := by
  cases act with
  | commitNewBatch userId batch o d children inputs idempotency now =>
    cases h
    refine hi.later (later_submitBatch p.shared userId batch o d children inputs idempotency now) ?_
    rw [submitBatch]
    split
    · rfl
    · rfl
  | commitNewJob userId input idempotency admission =>
    cases h
    exact hi.later (later_submitJob p.shared userId input idempotency admission) rfl
  | createDeviceInvite input member | revokeDeviceInvite inviteId ownerUserId now
  | acceptDeviceInvite codeHash granteeUserId now uuid | revokeDeviceGrant k ownerUserId now =>
    exact inv_share hi h
  | upsertWorker i =>
    cases h
    exact hi.later (later_of_store rfl rfl rfl) rfl
  | perform op =>
    obtain ⟨hop, rfl⟩ := of_guard h
    exact hi.later (later_perform p.shared hop) rfl
  | rebindJobSession k attempt expected sessionId now =>
    cases h
    exact hi.later (later_rebind p.shared k attempt expected sessionId now) rfl
  | schedule =>
    cases h
    exact ⟨hi.children, forall_tasks_spawn hi.tasks trivial, hi.bindings⟩
  | advance i reply => exact inv_advance hi h

/-- No job was submitted yet, and no pass is in progress. -/
structure Start (p : Pool World Task) : Prop where
  jobs : p.shared.tables.store.jobs = Table.empty
  tasks : p.tasks = []
  bindings : p.shared.bindings = []

theorem inv_start (h : Start p) : Inv fromStr p where
  children := by
    intro k j b hj
    rw [h.jobs] at hj
    cases hj
  tasks := by
    intro t ht
    rw [h.tasks] at ht
    cases ht
  bindings := by
    intro b hb
    rw [h.bindings] at hb
    cases hb

/-- The device of a provider, and an organization with a quota. -/
def samplePool : Pool World Task where
  shared := {
    tables := {
      store := sampleStore
      workers := Table.empty.put ⟨"provider", "gpu", some "owner", none, 0⟩
      actorUserId := fun _ => none }
    admitted := []
    bindings := [] }
  tasks := []

theorem samplePool_start : Start samplePool := ⟨rfl, rfl, rfl⟩

end Sharing
