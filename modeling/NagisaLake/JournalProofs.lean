import NagisaLake.RunProofs
import NagisaLake.TableProofs
import NagisaLake.TransactionProofs
import NagisaLake.JobStateProofs

/-! # The worker's journal — a durable outbox of one event per job

`SqliteJournal` keeps one row per job: its state, the sequence of the last
event and that event itself until the Hub has acknowledged it.  Each
request is one transaction on one row, so each is written here twice: what
it does to a record, and the request on the whole table.

`wellFormed_of_reachable` is what recovery may rely on: in every journal
some sequence of requests leads to, a pending event carries the stored
sequence and no row is `Queued`. -/

namespace Journal

open Jobs KeyedTable Runs Transactions

/-- `JournalError`, less the database's own failures. -/
inductive JournalError where
  | notFound (jobId : String)
  | dispatchConflict (jobId : String)
  | invalidTransition (current next : JobState)
  | staleEventSequence (current received : Nat)
  deriving DecidableEq, Repr

/-- `{:?}` of a state. -/
def stateName : JobState → String
  | .queued => "Queued"
  | .received => "Received"
  | .accepted => "Accepted"
  | .running => "Running"
  | .uploading => "Uploading"
  | .completed => "Completed"
  | .failed => "Failed"
  | .cancelled => "Cancelled"

/-- The error's text. -/
def JournalError.toString : JournalError → String
  | .notFound jobId => "job " ++ jobId ++ " was not found"
  | .dispatchConflict jobId =>
    "job " ++ jobId ++ " was redispatched with different immutable fields"
  | .invalidTransition current next =>
    "invalid job transition from " ++ stateName current ++ " to " ++ stateName next
  | .staleEventSequence current received =>
    "stale job event sequence " ++ Nat.repr received ++ "; current sequence is " ++ Nat.repr current

/-- `validate_event_sequence`: a sequence may only grow, except that the very
    event that is pending may be stored again. -/
def validateEventSequence (currentSequence : Nat)
    (pendingEvent : Option JobEvent) (event : JobEvent) :
    Except JournalError Unit :=
  if event.sequence < currentSequence
      ∨ (event.sequence = currentSequence ∧ pendingEvent ≠ some event) then
    .error (.staleEventSequence currentSequence event.sequence)
  else .ok ()

/-- One pair of inputs of `same_dispatch_identity`. -/
def sameInput (left right : JobInput) : Bool :=
  left.artifactId = right.artifactId && left.name = right.name
    && left.contentType = right.contentType
    && left.sizeBytes = right.sizeBytes
    && eqIgnoreAsciiCase left.sha256 right.sha256

/-- `same_dispatch_identity`: everything but the command and the download. -/
def sameDispatchIdentity (previous next : DispatchJob) : Bool :=
  previous.jobId = next.jobId && previous.attempt = next.attempt
    && previous.workflowId = next.workflowId
    && previous.workflowVersion = next.workflowVersion
    && previous.parameters = next.parameters
    && previous.inputs.length = next.inputs.length
    && (previous.inputs.zip next.inputs).all fun p => sameInput p.1 p.2

/-! ## One record -/

/-- `UpsertDispatch` on an existing record. -/
def redispatch (record : JobRecord) (dispatch : DispatchJob) : Except JournalError JobRecord :=
  if sameDispatchIdentity record.dispatch dispatch then
    if record.state.isTerminal then .ok record
    else .ok { record with dispatch := dispatch }
  else .error (.dispatchConflict dispatch.jobId)

/-- The state check of `SetJobState` and `SetPendingEvent`. -/
def transition (record : JobRecord) (next : JobState) : Except JournalError JobRecord :=
  if record.state.canTransitionTo next then .ok { record with state := next }
  else .error (.invalidTransition record.state next)

/-- `SetPendingEvent`: state, sequence and event in one write. -/
def setPendingEvent (record : JobRecord) (event : JobEvent)
    (state : Option JobState) : Except JournalError JobRecord := do
  validateEventSequence record.eventSequence record.pendingEvent event
  let moved ← match state with
    | some next => transition record next
    | none => .ok record
  return { moved with
    eventSequence := clampI64 event.sequence
    pendingEvent := some event }

/-- `ClearPendingEvent`: a later event's sequence keeps it in place. -/
def clearPendingEvent (record : JobRecord) (sequence : Nat) : JobRecord :=
  if record.eventSequence = clampI64 sequence then
    { record with pendingEvent := none }
  else record

/-- `SetPromptId`. -/
def setPromptId (record : JobRecord) (promptId : String) : JobRecord :=
  { record with promptId := some promptId }

/-! ## The table -/

/-- The primary key of `worker_jobs`. -/
def recordKey (record : JobRecord) : String := record.dispatch.jobId

/-- The table `worker_jobs`. -/
abbrev WorkerJobs := Table String JobRecord recordKey

/-- A writing request to the journal. -/
inductive Request where
  | upsertDispatch (dispatch : DispatchJob)
  | setJobState (jobId : String) (state : JobState)
  | setPromptId (jobId promptId : String)
  | setPendingEvent (event : JobEvent) (state : Option JobState)
  | clearPendingEvent (jobId : String) (sequence : Nat)
  deriving DecidableEq, Repr

/-- The row of a job, or `NotFound`. -/
def lookup (j : WorkerJobs) (jobId : String) : Except JournalError JobRecord :=
  match j.find? jobId with
  | some record => .ok record
  | none => .error (.notFound jobId)

/-- The record a request writes. -/
def written (j : WorkerJobs) : Request → Except JournalError (Option JobRecord)
  | .upsertDispatch dispatch =>
    match j.find? dispatch.jobId with
    | some record => do return some (← redispatch record dispatch)
    | none => .ok (some (.received dispatch))
  | .setJobState jobId state => do
      return some (← transition (← lookup j jobId) state)
  | .setPromptId jobId promptId => do
      return some (setPromptId (← lookup j jobId) promptId)
  | .setPendingEvent event state => do
      return some (← setPendingEvent (← lookup j event.jobId) event state)
  | .clearPendingEvent jobId sequence =>
    .ok ((j.find? jobId).map fun record => clearPendingEvent record sequence)

/-- The journal after a request; a failed one is rolled back. -/
def call (j : WorkerJobs) (request : Request) : WorkerJobs :=
  match written j request with
  | .ok (some record) => j.put record
  | _ => j

/-- Every request may be made at any time. -/
def step (j : WorkerJobs) (request : Request) : Option WorkerJobs :=
  some (call j request)

/-- `ListUnfinished`. -/
def listUnfinished (j : WorkerJobs) : List JobRecord :=
  j.rows.filter fun r => !r.state.isTerminal || r.pendingEvent.isSome

/-! ## What a request does to a record -/

variable {r r' : JobRecord} {e : JobEvent} {j : WorkerJobs}

variable {state : Option JobState} {next : JobState}

/-- **SET PENDING EVENT**: what an accepted event has passed and what it leaves in the row. -/
theorem setPendingEvent_ok (h : setPendingEvent r e state = .ok r') :
    r.eventSequence ≤ e.sequence ∧ (∀ next, state = some next → r.state.canTransitionTo next = true)
      ∧ r' = { r with
          state := state.getD r.state
          eventSequence := clampI64 e.sequence
          pendingEvent := some e } := by
  rw [setPendingEvent, validateEventSequence] at h
  split at h
  · cases h
  next hfresh =>
  have hle : r.eventSequence ≤ e.sequence := by
    by_contra hlt
    exact hfresh (.inl (by omega))
  cases state with
  | none =>
    refine ⟨hle, ?_, (Except.ok.inj h).symm⟩
    intro next hnext
    cases hnext
  | some next =>
    change (transition r next).bind _ = _ at h
    rw [transition] at h
    split at h
    · next hcan =>
      refine ⟨hle, ?_, (Except.ok.inj h).symm⟩
      intro next' hnext
      exact Option.some.inj hnext ▸ hcan
    · cases h

/-- An event that is stored is either later than every stored one, or the pending one again. -/
theorem lt_or_pending_of_setPendingEvent (h : setPendingEvent r e state = .ok r') :
    r.eventSequence < e.sequence ∨ r.pendingEvent = some e := by
  rcases Nat.lt_or_eq_of_le (setPendingEvent_ok h).1 with hlt | heq
  · exact .inl hlt
  by_contra hno
  rw [setPendingEvent, validateEventSequence,
    if_pos (.inr ⟨heq.symm, fun hp => hno (.inr hp)⟩)] at h
  cases h

/-- A larger sequence and an allowed transition are enough. -/
theorem setPendingEvent_of_lt (hlt : r.eventSequence < e.sequence)
    (hcan : r.state.canTransitionTo next = true) :
    setPendingEvent r e (some next) = .ok { r with
      state := next
      eventSequence := clampI64 e.sequence
      pendingEvent := some e } := by
  rw [setPendingEvent, validateEventSequence, if_neg (by omega)]
  change (transition r next).bind _ = _
  rw [transition, if_pos hcan]
  rfl

/-- A transition the table refuses stores nothing. -/
theorem setPendingEvent_of_refused (hlt : r.eventSequence < e.sequence)
    (hcan : r.state.canTransitionTo next = false) :
    setPendingEvent r e (some next) = .error (.invalidTransition r.state next) := by
  rw [setPendingEvent, validateEventSequence, if_neg (by omega)]
  change (transition r next).bind _ = _
  rw [transition, hcan]
  rfl

/-- The pending event may be stored again. -/
theorem setPendingEvent_replay (hpending : r.pendingEvent = some e)
    (hseq : clampI64 e.sequence = r.eventSequence) :
    setPendingEvent r e none = .ok r := by
  have hle := clampI64_le e.sequence
  rw [setPendingEvent, validateEventSequence, if_neg (by
    rintro (hlt | ⟨-, hne⟩)
    · omega
    · exact hne hpending)]
  change Except.ok _ = _
  rw [hseq, ← hpending]

/-- Clearing with the sequence the row holds removes the event. -/
theorem clearPendingEvent_of_eq {n : Nat} (h : r.eventSequence = clampI64 n) :
    clearPendingEvent r n = { r with pendingEvent := none } := by
  rw [clearPendingEvent, if_pos h]

/-! ## Well-formed rows -/

/-- What every row of a journal satisfies. -/
structure WellFormed (r : JobRecord) : Prop where
  notQueued : r.state ≠ .queued
  sequence_le : r.eventSequence ≤ i64Max
  pending_sequence : ∀ e, r.pendingEvent = some e → clampI64 e.sequence = r.eventSequence

theorem wellFormed_received (d : DispatchJob) : WellFormed (.received d) where
  notQueued := nofun
  sequence_le := Nat.zero_le _
  pending_sequence := nofun

theorem WellFormed.redispatch {d : DispatchJob} (h : WellFormed r)
    (hr : redispatch r d = .ok r') : WellFormed r' := by
  rw [Journal.redispatch] at hr
  split at hr
  · split at hr
    · exact Except.ok.inj hr ▸ h
    · cases hr
      exact ⟨h.notQueued, h.sequence_le, h.pending_sequence⟩
  · cases hr

theorem WellFormed.transition (h : WellFormed r)
    (hr : transition r next = .ok r') : WellFormed r' := by
  rw [Journal.transition] at hr
  split at hr
  · next hcan =>
    cases hr
    exact ⟨JobState.ne_queued_of_canTransitionTo h.notQueued hcan,
      h.sequence_le, h.pending_sequence⟩
  · cases hr

theorem WellFormed.setPendingEvent (h : WellFormed r) (hr : setPendingEvent r e state = .ok r') :
    WellFormed r' := by
  obtain ⟨-, hcan, rfl⟩ := setPendingEvent_ok hr
  refine ⟨?_, Nat.min_le_right .., ?_⟩
  · cases state with
    | none => exact h.notQueued
    | some next =>
      exact JobState.ne_queued_of_canTransitionTo h.notQueued (hcan next rfl)
  · intro e' he'
    exact Option.some.inj he' ▸ rfl

theorem WellFormed.clearPendingEvent (h : WellFormed r) (n : Nat) :
    WellFormed (clearPendingEvent r n) := by
  rw [Journal.clearPendingEvent]
  split
  · exact ⟨h.notQueued, h.sequence_le, nofun⟩
  · exact h

private theorem lookup_ok {jobId : String} (h : lookup j jobId = .ok r) : r ∈ j.rows := by
  rw [lookup] at h
  split at h
  · next hfind => exact Except.ok.inj h ▸ Table.mem_of_find? hfind
  · cases h

/-- Whatever a request writes is well formed when the journal is. -/
theorem wellFormed_written {request : Request}
    (hj : ∀ s ∈ j.rows, WellFormed s) (h : written j request = .ok (some r)) :
    WellFormed r := by
  cases request with
  | upsertDispatch d =>
    rw [written] at h
    split at h
    · next record hfind =>
      obtain ⟨r', hr', he⟩ := bind_eq_ok h
      rw [← Option.some.inj (Except.ok.inj he)]
      exact (hj record (Table.mem_of_find? hfind)).redispatch hr'
    · rw [← Option.some.inj (Except.ok.inj h)]
      exact wellFormed_received d
  | setJobState jobId state =>
    obtain ⟨record, hrec, h'⟩ := bind_eq_ok h
    obtain ⟨r', hr', he⟩ := bind_eq_ok h'
    rw [← Option.some.inj (Except.ok.inj he)]
    exact (hj record (lookup_ok hrec)).transition hr'
  | setPromptId jobId promptId =>
    obtain ⟨record, hrec, he⟩ := bind_eq_ok h
    rw [← Option.some.inj (Except.ok.inj he)]
    have hwf := hj record (lookup_ok hrec)
    exact ⟨hwf.notQueued, hwf.sequence_le, hwf.pending_sequence⟩
  | setPendingEvent event state =>
    obtain ⟨record, hrec, h'⟩ := bind_eq_ok h
    obtain ⟨r', hr', he⟩ := bind_eq_ok h'
    rw [← Option.some.inj (Except.ok.inj he)]
    exact (hj record (lookup_ok hrec)).setPendingEvent hr'
  | clearPendingEvent jobId sequence =>
    obtain ⟨record, hrec, he⟩ :=
      Option.map_eq_some_iff.mp (Except.ok.inj h)
    rw [← he]
    exact (hj record (Table.mem_of_find? hrec)).clearPendingEvent sequence

/-- One request keeps every row well formed. -/
theorem wellFormed_step {j' : WorkerJobs} {request : Request}
    (hj : ∀ r ∈ j.rows, WellFormed r) (h : step j request = some j') :
    ∀ r ∈ j'.rows, WellFormed r := by
  rw [← Option.some.inj h, call]
  split
  · next record hw => exact Table.forall_put hj (wellFormed_written hj hw)
  · exact hj

/-- **JOURNALS ARE WELL FORMED**: every row of every journal that requests can lead to. -/
theorem wellFormed_of_reachable (h : Reachable step Table.empty j) : ∀ r ∈ j.rows, WellFormed r :=
  inv_reachable (I := fun j : WorkerJobs => ∀ r ∈ j.rows, WellFormed r)
    (fun _ _ _ hj ht => wellFormed_step hj ht)
    (fun _ hr => absurd hr List.not_mem_nil) h

/-- **WELL FORMED**: whatever requests a journal gets, no row is `Queued`, no sequence is above
    `i64::MAX`, and a pending event has the sequence of its row. -/
theorem journal_wellFormed (requests : List Request) :
    Along step (fun j => ∀ r ∈ j.rows, WellFormed r) Table.empty requests :=
  inv_along_admitted (fun _ _ _ hj _ h => wellFormed_step hj h) requests Table.empty
    (by simp [Table.empty]) (admitted_true requests _)

end Journal
