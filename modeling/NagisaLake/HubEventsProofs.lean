import NagisaLake.UploadProofs

/-! # Job events at the Hub — `apply_job_event` and what runs beside it

The Hub keeps the jobs in progress in memory, each with a copy of what the
store holds, and applies an event in several statements: read the copy,
check the session, judge, write the store, write the copy.  Between them
other events, a rebind after a reconnect, an error of the dispatch, a local
cancellation or a reconciliation may have moved the job.  The store is
asked conditionally (`WHERE state = … AND last_event = …`), and an update
that came too late is reconciled against the row.

As for uploads, a handler is a task and `taskStep` is one statement. -/

namespace HubEvents

open Jobs KeyedTable HubStore
open Uploads (HubError WorkerSession mapStoreError)

/-! ## What the Hub remembers -/

/-- What is resident of a job (`JobRecord` and its view). -/
structure CachedJob where
  organizationId : String
  workerOrganizationId : String
  id : String
  workerId : String
  sessionId : String
  attempt : Nat
  state : JobState
  progress : Option Rat
  promptId : Option String
  error : Option String
  updatedAt : Int
  lastEvent : Nat
  deriving DecidableEq, Repr

/-- The session a worker is connected on. -/
structure Session where
  organizationId : String
  workerId : String
  sessionId : String
  deriving DecidableEq, Repr

def Session.key (s : Session) : Key := (s.organizationId, s.workerId)

/-- The store, the resident jobs and the sessions. -/
structure Hub where
  store : Store
  jobs : Table String CachedJob CachedJob.id
  sessions : Table Key Session Session.key

/-- `current_session_id`. -/
def Hub.currentSessionId (h : Hub) (o workerId : String) : Option String :=
  (h.sessions.find? (o, workerId)).map Session.sessionId

/-- `guard_current_session` succeeds. -/
def Hub.isCurrent (h : Hub) (w : WorkerSession) : Bool :=
  h.currentSessionId w.organizationId w.workerId == some w.sessionId

/-- `hydrate_hub_data`, one job. -/
def ofRow (j : JobRow) : CachedJob where
  organizationId := j.organizationId
  workerOrganizationId := j.workerOrganizationId.getD ""
  id := j.id
  workerId := j.workerId.getD ""
  sessionId := j.sessionId.getD ""
  attempt := j.attempt
  state := j.state
  progress := j.progress
  promptId := j.promptId
  error := j.error
  updatedAt := j.updatedAt
  lastEvent := j.lastEvent

/-- `hydrate_hub_data`: every unfinished job. -/
def hydrate (s : Store) : Table String CachedJob CachedJob.id :=
  (s.jobs.rows.filter JobRow.live).foldl (fun t j => t.put (ofRow j)) Table.empty

/-- `JobEventAck`. -/
structure JobEventAck where
  jobId : String
  sequence : Nat
  deriving DecidableEq, Repr

/-- The acknowledgement of an event. -/
def ackOf (e : JobEvent) : JobEventAck := ⟨e.jobId, e.sequence⟩

/-! ## Judging an event -/

/-- `job_state_name`. -/
def jobStateName : JobState → String
  | .queued => "queued"
  | .received => "received"
  | .accepted => "accepted"
  | .running => "running"
  | .uploading => "uploading"
  | .completed => "completed"
  | .failed => "failed"
  | .cancelled => "cancelled"

/-- The state an event names. -/
def nextState : JobEventKind → JobState
  | .accepted => .accepted
  | .running | .progress => .running
  | .uploading => .uploading
  | .completed => .completed
  | .failed => .failed
  | .cancelled => .cancelled

/-- The transition is in the table, or recovers what the Hub missed. -/
def advances (current next : JobState) : Bool :=
  current.canTransitionTo next || canRecoverForwardTransition current next

/-- `event_error`. -/
def eventError (e : JobEvent) : Option String :=
  match e.kind with
  | .failed | .cancelled => if e.message.isEmpty then none else some e.message
  | _ => none

/-- The row of the event; the sequence is a `BIGINT`. -/
def eventRow (c : CachedJob) (e : JobEvent) : EventRow where
  organizationId := c.organizationId
  jobId := e.jobId
  attempt := e.attempt
  sequence := clampI64 e.sequence
  kind := e.kind
  progress := e.progress
  promptId := e.promptId
  message := e.message
  unixMs := e.unixMs

/-- The conditional update of the job's row, against the copy that was judged. -/
def eventUpdate (c : CachedJob) (e : JobEvent) (sessionId : String)
    (h : advances c.state (nextState e.kind) = true) : JobEventUpdate where
  sessionId := sessionId
  expectedSessionId := c.sessionId
  expectedState := c.state
  expectedLastEvent := clampI64 c.lastEvent
  state := nextState e.kind
  error := eventError e
  allowed := Bool.or_eq_true _ _ ▸ h

/-- The copy after the event; only a new event moves the sequence. -/
def CachedJob.applied (c : CachedJob) (e : JobEvent) (fresh : Bool) (now : Int) : CachedJob :=
  { c with
    state := nextState e.kind
    progress := e.progress <|> c.progress
    promptId := e.promptId <|> c.promptId
    error := eventError e
    updatedAt := now
    lastEvent := if fresh then e.sequence else c.lastEvent }

/-- The same job, as far as a handler that read it earlier can tell. -/
def CachedJob.matches (c cur : CachedJob) : Bool :=
  decide (cur.attempt = c.attempt) && decide (cur.state = c.state)
    && decide (cur.lastEvent = c.lastEvent)

/-! ## The store -/

/-- The row of a job bound to a new session. -/
def JobRow.rebind (sessionId : String) (now : Int) (j : JobRow) : JobRow :=
  { j with sessionId := some sessionId, updatedAt := max j.updatedAt now }

theorem JobRow.rebind_key (sessionId : String) (now : Int) (j : JobRow) :
    (JobRow.rebind sessionId now j).key = j.key := rfl

/-- `rebind_job_session`: `none` when the job is not the expected one. -/
def rebindJobSession (s : Store) (k : Key) (attempt : Nat)
    (expected sessionId : String) (now : Int) : Option Store :=
  (s.jobs.updateKey k (fun j => decide (j.attempt = attempt) && j.live
      && (decide (j.sessionId = some expected)
        || decide (j.sessionId = some sessionId)))
    (JobRow.rebind sessionId now) (JobRow.rebind_key sessionId now)).map
      fun jobs => { s with jobs := jobs }

/-- The update `update_job_error` and `cancel_job_locally` ask for. -/
def settlement (c : CachedJob) (h : c.state.isTerminal = false)
    (target : Option JobState) (message : String) (now : Int)
    (ht : ∀ t, target = some t → t.isTerminal = true) :
    ConditionalJobUpdate where
  key := (c.organizationId, c.id)
  attempt := c.attempt
  expectedState := c.state
  expectedLastEvent := clampI64 c.lastEvent
  state := target
  error := some message
  now := now
  expected_live := h
  state_terminal := ht

/-! ## Statements -/

/-- What the environment answers a call. -/
inductive Reply where
  | ok (now : Int)
  | failed (message : String)

/-- The statement a handler stands at. -/
inductive Task where
  /-- `apply_job_event`. -/
  | lookup (w : WorkerSession) (e : JobEvent)
  | session (w : WorkerSession) (e : JobEvent) (c : CachedJob)
  | adopt (w : WorkerSession) (e : JobEvent) (c : CachedJob)
  | mergeSession (w : WorkerSession) (e : JobEvent) (c : CachedJob)
      (now : Int)
  | apply (w : WorkerSession) (e : JobEvent) (c : CachedJob) (fresh : Bool)
      (u : JobEventUpdate)
  | merge (w : WorkerSession) (e : JobEvent) (c updated : CachedJob)
  /-- `reconcile_persisted_job_event`, and the error when it does not help. -/
  | reconcile (w : WorkerSession) (e : JobEvent) (miss : HubError)
  | releaseTerminal (w : WorkerSession) (e : JobEvent)
  | evict (w : WorkerSession) (e : JobEvent)
  | reconcileMerge (w : WorkerSession) (e : JobEvent) (stored : JobRow)
  /-- The acknowledgement goes out on the session the event came in on. -/
  | answer (w : WorkerSession) (ack : JobEventAck)
  /-- `rebind_jobs_for_session`, one job. -/
  | rebind (w : WorkerSession) (id : String)
  | rebindStore (w : WorkerSession) (c : CachedJob)
  | rebindReload (w : WorkerSession) (c : CachedJob)
  | rebindRetry (w : WorkerSession) (c : CachedJob) (stored : String)
  | rebindMerge (w : WorkerSession) (c : CachedJob) (now : Int)
  /-- `update_job_error`. -/
  | updateError (id message : String) (terminal : Bool)
  /-- `cancel_job_locally`. -/
  | cancel (id : String)
  | cancelQueued (c : CachedJob)
  /-- The conditional update of either, and what it writes to memory; only a
      cancellation tells its caller that it came too late. -/
  | settle (c : CachedJob) (u : ConditionalJobUpdate) (cancelling : Bool)
  | settleMerge (c : CachedJob) (state : Option JobState)
      (error : Option String) (now : Int) (cancelling : Bool)
  /-- `submit_job` after the commit: the new job goes to memory. -/
  | cacheNew (c : CachedJob)
  /-- `dispatch_outbox_entry` when `rebind_cached_outbox_job` found nothing to
      rebind: the row goes to memory (`cache_bound_outbox_job`). -/
  | outbox (k : Key)
  | cacheBound (stored : JobRow)
  | done (result : Except HubError Unit)

/-- The handler returns an error. -/
def Task.err (e : HubError) : Task := .done (.error e)

/-- An event that changes nothing is acknowledged, once the job belongs to the
    session it came in on. -/
def unchanged (w : WorkerSession) (e : JobEvent) (c : CachedJob) : Task :=
  if c.sessionId = w.sessionId then .answer w (ackOf e) else .adopt w e c

/-- `apply_job_event` after the session check. -/
def judge (w : WorkerSession) (e : JobEvent) (c : CachedJob) : Task :=
  if h : advances c.state (nextState e.kind) = true then
    if c.lastEvent < e.sequence then
      .apply w e c true (eventUpdate c e w.sessionId h)
    else if c.state = nextState e.kind then unchanged w e c
    else .apply w e c false (eventUpdate c e w.sessionId h)
  else if c.lastEvent < e.sequence then
    .err (.conflict ("invalid event transition from "
      ++ jobStateName c.state ++ " to " ++ jobStateName (nextState e.kind)))
  else unchanged w e c

/-- `apply_job_event` after the look at the resident job. -/
def afterLookup (w : WorkerSession) (e : JobEvent) : Option CachedJob → Task
  | none => .reconcile w e (.notFound "job")
  | some c =>
    if c.workerOrganizationId = w.organizationId ∧ c.workerId = w.workerId
        ∧ e.attempt = c.attempt then .session w e c
    else .answer w (ackOf e)

/-- `reconcile_persisted_job_event` after the look at the row. -/
def afterRow (w : WorkerSession) (e : JobEvent) (miss : HubError) : Option JobRow → Task
  | none => .err miss
  | some j =>
    if j.state.isTerminal then .releaseTerminal w e
    else if j.lastEvent < e.sequence then .err miss
    else .reconcileMerge w e j

/-- The resident job is behind the row. -/
def CachedJob.behind (cur : CachedJob) (j : JobRow) : Bool :=
  decide (cur.lastEvent < j.lastEvent)
    || (decide (cur.lastEvent = j.lastEvent)
      && !decide (cur.state = j.state) && advances cur.state j.state)

/-- The resident job brought up to the row. -/
def CachedJob.catchUp (cur : CachedJob) (j : JobRow) : CachedJob :=
  { cur with
    state := j.state
    progress := j.progress
    promptId := j.promptId
    error := j.error
    updatedAt := max cur.updatedAt j.updatedAt
    lastEvent := j.lastEvent }

/-- The resident jobs after a handler has written the store: nothing, when the
    job is no longer the one it read. -/
def mergeEvent (h : Hub) (w : WorkerSession) (c updated : CachedJob) : Hub :=
  match (h.jobs.find? c.id).filter c.matches with
  | none => h
  | some cur =>
    if updated.state.isTerminal then
      { h with jobs := h.jobs.delete fun x => x.id = c.id }
    else { h with
      jobs := h.jobs.put { cur with
        sessionId := if h.isCurrent w && decide (cur.sessionId = c.sessionId)
          then w.sessionId else cur.sessionId
        state := updated.state
        progress := updated.progress
        promptId := updated.promptId
        error := updated.error
        updatedAt := max cur.updatedAt updated.updatedAt
        lastEvent := updated.lastEvent } }

/-- The job is bound to the worker. -/
def CachedJob.boundTo (c : CachedJob) (w : WorkerSession) : Bool :=
  decide (c.workerOrganizationId = w.organizationId) && decide (c.workerId = w.workerId)

/-- The resident job moves to the session, unless that has been superseded. -/
def mergeRebind (h : Hub) (w : WorkerSession) (c : CachedJob) (now : Int)
    (owned : CachedJob → Bool) : Hub :=
  match h.jobs.find? c.id with
  | none => h
  | some cur =>
    if h.isCurrent w && owned cur && decide (cur.attempt = c.attempt)
        && !cur.state.isTerminal then
      { h with jobs := h.jobs.put { cur with
        sessionId := w.sessionId
        updatedAt := max cur.updatedAt now } }
    else h

/-- The resident jobs after a settlement. -/
def mergeSettlement (h : Hub) (c : CachedJob) (state : Option JobState)
    (error : Option String) (now : Int) : Hub :=
  match (h.jobs.find? c.id).filter c.matches with
  | none => h
  | some cur =>
    if state.isSome then
      { h with jobs := h.jobs.delete fun x => x.id = c.id }
    else { h with
      jobs := h.jobs.put { cur with
        error := error
        updatedAt := max cur.updatedAt now } }

theorem isTerminal_of_cancelled :
    ∀ t : JobState, some .cancelled = some t → t.isTerminal = true := by
  rintro _ ⟨⟩
  rfl

/-- `cancel_job_locally` after the look at the resident job. -/
def afterCancel (now : Int) : Option CachedJob → Task
  | none => .err (.conflict "job changed while cancellation was pending")
  | some c =>
    if h : c.state.isTerminal = false then
      if c.state = .queued then .cancelQueued c
      else .settle c (settlement c h (some .cancelled)
        "cancelled while the worker was disconnected" now
        isTerminal_of_cancelled) true
    else .done (.ok ())

/-- `update_job_error` after the look at the resident job. -/
def afterError (message : String) (terminal : Bool) (now : Int) : Option CachedJob → Task
  | none => .done (.ok ())
  | some c =>
    if h : c.state.isTerminal = false then
      .settle c (settlement c h (if terminal then some .failed else none)
        message now (fun t ht => by
          cases terminal with
          | true => cases ht; rfl
          | false => cases ht)) false
    else .done (.ok ())

/-- `dispatch_outbox_entry` after the look at the row: an unfinished job with a complete binding. -/
def afterOutbox : Option JobRow → Task
  | none => .done (.ok ())
  | some j =>
    if j.live && j.workerOrganizationId.isSome && j.workerId.isSome
        && j.sessionId.isSome && !decide (j.state = .queued) then
      .cacheBound j
    else .done (.ok ())

/-- `cache_bound_outbox_job`: only an unbound snapshot is replaced. -/
def cacheBoundOutboxJob (h : Hub) (j : JobRow) : Hub :=
  match h.jobs.find? j.id with
  | none => { h with jobs := h.jobs.put (ofRow j) }
  | some c =>
    if c.attempt = j.attempt ∧ c.state = .queued then
      { h with jobs := h.jobs.put (ofRow j) }
    else h

/-- A settlement that did not happen. -/
def tooLate (cancelling : Bool) (e : HubError) : Task :=
  if cancelling then .err e else .done (.ok ())

/-- One statement. -/
def taskStep (h : Hub) : Task → Reply → Option (Hub × Task)
  | .lookup w e, .ok _ => some (h, afterLookup w e (h.jobs.find? e.jobId))
  | .session w e c, .ok _ =>
    some (h, if h.isCurrent w then judge w e c
      else .err (.conflict "stale worker session"))
  | .adopt w e c, .ok now =>
    match rebindJobSession h.store (c.organizationId, c.id) c.attempt
        c.sessionId w.sessionId now with
    | some s => some ({ h with store := s }, .mergeSession w e c now)
    | none => some (h, .err (.conflict "job changed while adopting the worker session"))
  | .adopt _ _ _, .failed m => some (h, .err (.store (.database m)))
  | .mergeSession w e c now, .ok _ =>
    -- `merge_adopted_job_session`: the owner was checked at the start
    some (mergeRebind h w c now (fun _ => true), .answer w (ackOf e))
  | .apply w e c fresh u, .ok now =>
    match applyJobEvent h.store (eventRow c e) u now with
    | .ok (s, true) => some ({ h with store := s },
        .merge w e c (c.applied e fresh now))
    | .ok (_, false) => some (h, .reconcile w e
        (.conflict "job changed while applying an event; retry the event"))
    | .error err => some (h, .err (.store err))
  | .apply _ _ _ _ _, .failed m => some (h, .err (.store (.database m)))
  | .merge w e c updated, .ok _ =>
    some (mergeEvent h w c updated, .answer w (ackOf e))
  | .reconcile w e miss, .ok _ =>
    some (h, afterRow w e miss (h.store.jobs.find? (w.organizationId, e.jobId)))
  | .reconcile _ _ _, .failed m => some (h, .err (.store (.database m)))
  | .releaseTerminal w e, .ok now => some ({ h with
      store := releaseJobForTerminal h.store (w.organizationId, e.jobId) now }, .evict w e)
  | .releaseTerminal _ _, .failed m => some (h, .err (.store (.database m)))
  | .evict w e, .ok _ => some ({ h with
      jobs := h.jobs.delete fun x => x.id = e.jobId }, .answer w (ackOf e))
  | .reconcileMerge w e j, .ok _ =>
    match (h.jobs.find? e.jobId).filter fun cur => cur.behind j with
    | none => some (h, .answer w (ackOf e))
    | some cur => some ({ h with jobs := h.jobs.put (cur.catchUp j) },
        .answer w (ackOf e))
  | .reconcileMerge _ _ _, .failed m => some (h, .err (.store (.database m)))
  | .answer _ _, .ok _ => some (h, .done (.ok ()))
  | .rebind w id, .ok _ =>
    match (h.jobs.find? id).filter fun c =>
        c.boundTo w && !c.state.isTerminal with
    | none => some (h, .done (.ok ()))
    | some c => some (h, .rebindStore w c)
  | .rebind _ _, .failed m => some (h, .err (.objectStore m))
  | .rebindStore w c, .ok now =>
    if h.isCurrent w then
      match rebindJobSession h.store (c.organizationId, c.id) c.attempt
          c.sessionId w.sessionId now with
      | some s => some ({ h with store := s }, .rebindMerge w c now)
      | none => some (h, .rebindReload w c)
    else some (h, .done (.ok ()))
  | .rebindStore _ _, .failed m => some (h, .err (.store (.database m)))
  | .rebindReload w c, .ok _ =>
    if h.isCurrent w then
      match (h.store.jobs.find? (c.organizationId, c.id)).bind
          JobRow.sessionId with
      | some stored => some (h, .rebindRetry w c stored)
      | none => some (h, .done (.ok ()))
    else some (h, .done (.ok ()))
  | .rebindReload _ _, .failed m => some (h, .err (.store (.database m)))
  | .rebindRetry w c stored, .ok now =>
    match rebindJobSession h.store (c.organizationId, c.id) c.attempt
        stored w.sessionId now with
    | some s => some ({ h with store := s }, .rebindMerge w c now)
    | none => some (h, .done (.ok ()))
  | .rebindRetry _ _ _, .failed m => some (h, .err (.store (.database m)))
  | .rebindMerge w c now, .ok _ =>
    some (mergeRebind h w c now (fun cur => cur.boundTo w), .done (.ok ()))
  | .updateError id message terminal, .ok now =>
    some (h, afterError message terminal now (h.jobs.find? id))
  | .cancel id, .ok now => some (h, afterCancel now (h.jobs.find? id))
  | .cancelQueued c, .ok now =>
    match cancelQueuedJob h.store (c.organizationId, c.id) now with
    | some s => some ({ h with store := s }, .settleMerge c
        (some .cancelled) (some "cancelled before worker dispatch") now
        true)
    | none => some (h, .err (.conflict "job advanced while cancellation was being committed"))
  | .cancelQueued _, .failed m => some (h, .err (.store (.database m)))
  | .settle c u cancelling, .ok _ =>
    match updateJobIfCurrent h.store u with
    | some s => some ({ h with store := s },
        .settleMerge c u.state u.error u.now cancelling)
    | none => some (h, tooLate cancelling
        (.conflict "job advanced while cancellation was being committed"))
  | .settle _ _ cancelling, .failed m =>
    some (h, tooLate cancelling (.store (.database m)))
  | .settleMerge c state error now cancelling, .ok _ =>
    some (mergeSettlement h c state error now,
      if ((h.jobs.find? c.id).filter c.matches).isSome then .done (.ok ())
      else tooLate cancelling
        (.conflict "job advanced while cancellation was being applied"))
  | .cacheNew c, .ok _ => some ({ h with jobs := h.jobs.put c }, .done (.ok ()))
  | .outbox k, .ok _ => some (h, afterOutbox (h.store.jobs.find? k))
  | .outbox _, .failed m => some (h, .err (.store (.database m)))
  | .cacheBound j, .ok _ => some (cacheBoundOutboxJob h j, .done (.ok ()))
  | .cacheBound _, .failed m => some (h, .err (.store (.database m)))
  | _, _ => none

/-! ## What a statement writes -/

/-- The state a handler brings to the memory of a job. -/
def brings : Task → Option (String × JobState)
  | .merge _ _ c updated => some (c.id, updated.state)
  | .reconcileMerge _ e j => some (e.jobId, j.state)
  | _ => none

/-- One transaction, or one write to the memory. -/
inductive Writes (h : Hub) (t : Task) : Hub → Prop where
  | nothing : Writes h t h
  | rebound {k : Key} {attempt : Nat} {expected sessionId : String}
      {now : Int} {s : Store}
      (hs : rebindJobSession h.store k attempt expected sessionId now = some s) :
      Writes h t { h with store := s }
  | applied {w : WorkerSession} {e : JobEvent} {c : CachedJob} {fresh : Bool}
      {u : JobEventUpdate} {now : Int} {s : Store}
      (ht : t = .apply w e c fresh u)
      (hs : HubStore.applyJobEvent h.store (eventRow c e) u now = .ok (s, true)) :
      Writes h t { h with store := s }
  | released (k : Key) (now : Int) :
      Writes h t { h with store := releaseJobForTerminal h.store k now }
  | cancelled {c : CachedJob} {now : Int} {s : Store}
      (ht : t = .cancelQueued c)
      (hs : cancelQueuedJob h.store (c.organizationId, c.id) now = some s) :
      Writes h t { h with store := s }
  | settled {c : CachedJob} {u : ConditionalJobUpdate} {cancelling : Bool}
      {s : Store} (ht : t = .settle c u cancelling)
      (hs : updateJobIfCurrent h.store u = some s) : Writes h t { h with store := s }
  | evicted (id : String) : Writes h t { h with jobs := h.jobs.delete fun x => x.id = id }
  | rewritten {id : String} {cur c : CachedJob} (hcur : h.jobs.find? id = some cur)
      (hkey : (c.organizationId, c.id) = (cur.organizationId, cur.id))
      (hstate : c.state = cur.state ∨ brings t = some (id, c.state)) :
      Writes h t { h with jobs := h.jobs.put c }
  | cached {c : CachedJob} (ht : t = .cacheNew c ∨ ∃ j, t = .cacheBound j ∧ c = ofRow j) :
      Writes h t { h with jobs := h.jobs.put c }

section Writes

variable {h h' : Hub} {t t' : Task} {reply : Reply}

theorem writes_of_eq {g : Hub} {u : Task} (hstep : some (g, u) = some (h', t'))
    (hg : Writes h t g) : Writes h t h' := by
  cases hstep
  exact hg

/-- A failed call writes nothing. -/
theorem writes_failed {m : String} (hstep : taskStep h t (.failed m) = some (h', t')) :
    Writes h t h' := by
  cases t <;> first
    | exact writes_of_eq hstep .nothing
    | cases hstep

/-- **ONE STATEMENT** does at most one transaction, or writes one job to the memory. -/
theorem writes_taskStep (hstep : taskStep h t reply = some (h', t')) : Writes h t h' := by
  cases reply with
  | failed m => exact writes_failed hstep
  | ok now =>
    cases t with
    | adopt | rebindStore | rebindRetry =>
      simp only [taskStep] at hstep
      repeat' split at hstep
      all_goals first
        | exact writes_of_eq hstep .nothing
        | next hs => exact writes_of_eq hstep (.rebound hs)
    | mergeSession | rebindMerge =>
      simp only [taskStep, mergeRebind] at hstep
      repeat' split at hstep
      all_goals first
        | exact writes_of_eq hstep .nothing
        | next hcur _ => exact writes_of_eq hstep (.rewritten hcur rfl (.inl rfl))
    | merge | settleMerge =>
      simp only [taskStep, mergeEvent, mergeSettlement] at hstep
      split at hstep
      · exact writes_of_eq hstep .nothing
      next cur hfound =>
      have hcur := (Option.filter_eq_some_iff.mp hfound).1
      split at hstep
      · exact writes_of_eq hstep (.evicted _)
      · first
          | exact writes_of_eq hstep (.rewritten hcur rfl (.inl rfl))
          | exact writes_of_eq hstep (.rewritten hcur rfl (.inr rfl))
    | apply w e c fresh u =>
      rw [taskStep] at hstep
      split at hstep
      · next hs => exact writes_of_eq hstep (.applied rfl hs)
      all_goals exact writes_of_eq hstep .nothing
    | releaseTerminal w e => exact writes_of_eq hstep (.released _ now)
    | evict w e => exact writes_of_eq hstep (.evicted _)
    | reconcileMerge w e j =>
      rw [taskStep] at hstep
      split at hstep
      · exact writes_of_eq hstep .nothing
      next cur hfound =>
      have hcur := (Option.filter_eq_some_iff.mp hfound).1
      exact writes_of_eq hstep (.rewritten hcur rfl (.inr rfl))
    | cancelQueued c =>
      rw [taskStep] at hstep
      split at hstep
      · next hs => exact writes_of_eq hstep (.cancelled rfl hs)
      · exact writes_of_eq hstep .nothing
    | settle c u cancelling =>
      rw [taskStep] at hstep
      split at hstep
      · next hs => exact writes_of_eq hstep (.settled rfl hs)
      · exact writes_of_eq hstep .nothing
    | cacheNew c => exact writes_of_eq hstep (.cached (.inl rfl))
    | cacheBound j =>
      simp only [taskStep, cacheBoundOutboxJob] at hstep
      repeat' split at hstep
      all_goals first
        | exact writes_of_eq hstep .nothing
        | exact writes_of_eq hstep (.cached (.inr ⟨j, rfl, rfl⟩))
    | done result => cases hstep
    | _ =>
      -- the Hub is only read
      simp only [taskStep] at hstep
      repeat' split at hstep
      all_goals exact writes_of_eq hstep .nothing

end Writes

/-! ## One event, start to end -/

/-- What `apply_job_event` has returned. -/
def returned : Task → Option (Except HubError JobEventAck)
  | .answer _ ack => some (.ok ack)
  | .done (.error e) => some (.error e)
  | _ => none

/-- At most `n` statements, with nobody else at work and every call going through. -/
def runTask (now : Int) : Nat → Hub → Task → Option (Hub × Except HubError JobEventAck)
  | 0, h, t => (returned t).map fun r => (h, r)
  | n + 1, h, t =>
    match returned t with
    | some r => some (h, r)
    | none => (taskStep h t (.ok now)).bind fun p => runTask now n p.1 p.2

/-- `apply_job_event`: six statements are enough. -/
def applyJobEvent (now : Int) (h : Hub) (w : WorkerSession) (e : JobEvent) :
    Option (Hub × Except HubError JobEventAck) :=
  runTask now 6 h (.lookup w e)

/-- The handler answers with the acknowledgement. -/
def Acknowledges (now : Int) (h : Hub) (w : WorkerSession) (e : JobEvent) :
    Prop :=
  ∃ h', applyJobEvent now h w e = some (h', .ok (ackOf e))

/-- A job that has left the memory is answered from the row under the organization of the WORKER. -/
theorem acknowledges_iff_row {now : Int} {h : Hub} {w : WorkerSession}
    {e : JobEvent} (hmiss : h.jobs.find? e.jobId = none) :
    Acknowledges now h w e ↔ ∃ j, h.store.jobs.find? (w.organizationId, e.jobId) = some j
        ∧ (j.state.isTerminal = true ∨ e.sequence ≤ j.lastEvent) := by
  have hrun : applyJobEvent now h w e = runTask now 4 h (afterRow w e
      (.notFound "job") (h.store.jobs.find? (w.organizationId, e.jobId))) := by
    show runTask now 5 h (afterLookup w e (h.jobs.find? e.jobId)) = _
    rw [hmiss]
    rfl
  rw [Acknowledges, hrun]
  cases hrow : h.store.jobs.find? (w.organizationId, e.jobId) with
  | none =>
    constructor
    · rintro ⟨h', hack⟩
      cases hack
    · rintro ⟨j, hj, -⟩
      cases hj
  | some j =>
    rw [afterRow]
    by_cases hterm : j.state.isTerminal = true
    · rw [if_pos hterm]
      exact iff_of_true ⟨_, rfl⟩ ⟨j, rfl, .inl hterm⟩
    rw [if_neg hterm]
    by_cases hlt : j.lastEvent < e.sequence
    · rw [if_pos hlt]
      constructor
      · rintro ⟨h', hack⟩
        cases hack
      rintro ⟨i, hi, hor⟩
      cases hi
      exact absurd hlt (Nat.not_lt.mpr (hor.resolve_left hterm))
    · rw [if_neg hlt]
      refine iff_of_true ?_ ⟨j, rfl, .inr (Nat.not_lt.mp hlt)⟩
      cases hcur : (h.jobs.find? e.jobId).filter fun cur => cur.behind j with
      | none =>
        refine ⟨h, ?_⟩
        simp only [runTask, returned, taskStep, hcur]
        rfl
      | some cur =>
        rw [hmiss] at hcur
        cases hcur

/-- A finished job of `o`, run by the worker, and an event of it that comes in
    on the worker's current session after the job has left the memory. -/
structure Replayed (h : Hub) (w : WorkerSession) (e : JobEvent) (o : String)
    (j : JobRow) : Prop where
  row : h.store.jobs.find? (o, e.jobId) = some j
  terminal : j.state.isTerminal = true
  workerOrganization : j.workerOrganizationId = some w.organizationId
  worker : j.workerId = some w.workerId
  attempt : e.attempt = j.attempt
  current : h.isCurrent w = true
  evicted : h.jobs.find? e.jobId = none

/-- **REPLAY OF A FINISHED JOB** is acknowledged if and only if the job belongs
    to the worker's own organization, or that organization happens to have a
    row of the same id which is terminal or has reached the sequence. -/
theorem replay_acknowledged_iff {now : Int} {h : Hub} {w : WorkerSession}
    {e : JobEvent} {o : String} {j : JobRow} (hr : Replayed h w e o j) :
    Acknowledges now h w e ↔ o = w.organizationId
        ∨ ∃ i, h.store.jobs.find? (w.organizationId, e.jobId) = some i
          ∧ (i.state.isTerminal = true ∨ e.sequence ≤ i.lastEvent) := by
  rw [acknowledges_iff_row hr.evicted]
  constructor
  · exact .inr
  rintro (rfl | hother)
  · exact ⟨j, hr.row, .inl hr.terminal⟩
  · exact hother

/-- A completed job of an organization, run by a worker of `provider`. -/
def finishedRow (o : String) : JobRow where
  organizationId := o
  id := "job"
  workflowId := "workflow"
  workflowVersion := "1"
  parameters := .object []
  inputArtifactIds := []
  outputArtifactIds := []
  workerId := some "default/gpu"
  workerOrganizationId := some "provider"
  sessionId := some "session"
  attempt := 1
  state := .completed
  progress := none
  promptId := none
  error := none
  lastEvent := 4
  createdAt := 1
  updatedAt := 9
  batchId := none

/-- The Hub after the job was evicted. -/
def evictedHub (o : String) : Hub where
  store := { sampleStore with jobs := Table.empty.put (finishedRow o) }
  jobs := Table.empty
  sessions := Table.empty.put ⟨"provider", "default/gpu", "session"⟩

def providerSession : WorkerSession := ⟨"provider", "default/gpu", "session"⟩

/-- The event that finished the job, sent again. -/
def lastFrame : JobEvent :=
  ⟨"job", 1, 4, .completed, none, none, "", 8⟩

theorem evictedHub_replayed (o : String) :
    Replayed (evictedHub o) providerSession lastFrame o (finishedRow o) where
  row := by
    show (Table.empty.put (finishedRow o)).find? _ = _
    rw [Table.find?_put]
    exact if_pos rfl
  terminal := rfl
  workerOrganization := rfl
  worker := rfl
  attempt := rfl
  current := rfl
  evicted := rfl

/-- The worker's own organization: the replay is acknowledged. -/
theorem ownJob_acknowledged : Acknowledges 10 (evictedHub "provider") providerSession lastFrame :=
  (replay_acknowledged_iff (evictedHub_replayed "provider")).mpr (.inl rfl)

/-- A shared device: the job is another organization's, the replay gets
    `NotFound` and the worker will send it again. -/
theorem sharedJob_notFound : Replayed (evictedHub "consumer") providerSession lastFrame "consumer"
        (finishedRow "consumer")
      ∧ applyJobEvent 10 (evictedHub "consumer") providerSession lastFrame
        = some (evictedHub "consumer", .error (.notFound "job")) :=
  ⟨evictedHub_replayed "consumer", rfl⟩

end HubEvents
