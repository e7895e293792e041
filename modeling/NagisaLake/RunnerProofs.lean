import NagisaLake.JournalProofs

/-! # The job runner — `JobRunner::execute` cut at its await points

`execute` drives one journal record to the end.  It is written here as a
machine whose program counter is the place the task stands at and whose
locals travel in it; a reply of ComfyUI, of the Hub or of the file system,
a clock value and the arrival of a `CancelJob` are actions.

Two copies of the job's state matter.  `row` is the journal's row, which
`send_job_event` advances before it transmits; `record` is the copy
`execute` keeps and advances only after the acknowledgement.  `Inv` says
how far the two can be apart at each place. -/

namespace Runner

open Jobs Journal Runs Option

/-- `RuntimeError`, as far as a run can meet it; the text is the one
    `to_string` shows behind the fixed part. -/
inductive RuntimeError where
  | connectionClosed
  | cancelled
  | journal (text : String)
  | workflow (text : String)
  | comfy (text : String)
  | artifact (text : String)
  | http (text : String)
  | io (text : String)
  deriving DecidableEq, Repr

/-- `RuntimeError::to_string`. -/
def RuntimeError.toString : RuntimeError → String
  | .connectionClosed => "control connection is closed"
  | .cancelled => "job was cancelled"
  | .journal text => "journal operation failed: " ++ text
  | .workflow text => "workflow operation failed: " ++ text
  | .comfy text => "ComfyUI operation failed: " ++ text
  | .artifact text => "artifact operation failed: " ++ text
  | .http text => "HTTP operation failed: " ++ text
  | .io text => "I/O operation failed: " ++ text

/-- `truncate`. -/
def truncate (value : String) (maxChars : Nat) : String :=
  String.ofList (value.toList.take maxChars)

/-- `ComfyPromptStatus`. -/
inductive ComfyPromptStatus where
  | unknown
  | queued (position : Nat)
  | running
  deriving DecidableEq, Repr

/-- `comfy_status_message`; the time is in milliseconds. -/
def comfyStatusMessage (status : ComfyPromptStatus) (elapsedMs : Nat) :
    String :=
  let elapsed := Nat.repr (elapsedMs / 1000)
  match status with
  | .unknown =>
    "ComfyUI prompt status is unavailable (elapsed " ++ elapsed ++ "s)"
  | .queued position =>
    "ComfyUI queued this prompt at position " ++ Nat.repr position
      ++ " (elapsed " ++ elapsed ++ "s)"
  | .running =>
    "ComfyUI is running this prompt (elapsed " ++ elapsed ++ "s)"

/-- `OutputRef`. -/
structure OutputRef where
  filename : String
  subfolder : String
  storageType : String
  contentType : String
  deriving DecidableEq, Repr

/-- `EventUpdate`, the arguments of `emit`. -/
structure EventUpdate where
  kind : JobEventKind
  progress : Option Rat
  promptId : Option String
  message : String
  state : JobState
  deriving DecidableEq, Repr

/-- `COMFY_STATUS_HEARTBEAT_INTERVAL`, in milliseconds. -/
def comfyStatusHeartbeatInterval : Nat := 10000

/-- The locals of the wait loop. -/
structure Watch where
  promptId : String
  lastStatus : ComfyPromptStatus
  statusSince : Nat
  lastStatusEvent : Option Nat
  statusChannelOpen : Bool
  deriving DecidableEq, Repr

/-- The state of the waiter an event transmission registered. -/
inductive Waiter where
  | registered
  | resolved
  | dropped
  deriving DecidableEq, Repr

/-- Where `send_job_event` stands. -/
inductive Phase where
  | head
  | transmitting (waiter : Waiter)
  | awaiting (waiter : Waiter)
  deriving DecidableEq, Repr

/-- Where `execute` goes on once `send_job_event` has returned. -/
inductive After where
  | replayed
  | accepted
  | running (promptId : String)
  | progress (watch : Watch)
  | uploading (promptId : String) (outputs : List OutputRef)
  | completed
  | final
  deriving DecidableEq, Repr

/-- The places of `execute`. -/
inductive Pc where
  | entry
  | replayed
  | acquire
  | acquired
  | inputs
  | render
  | prompt
  | prompted (promptId : String)
  | watch (promptId : String)
  | waiting (watch : Watch)
  | outputDir (promptId : String) (outputs : List OutputRef)
  | outputs (promptId : String) (remaining : List OutputRef)
  | emit (update : EventUpdate) (after : After)
  | sending (event : JobEvent) (after : After) (phase : Phase)
  | failed (error : RuntimeError)
  | returned
  deriving DecidableEq, Repr

/-- What a run does to an event on the control channel. -/
inductive Trace where
  | transmitted (event : JobEvent)
  | acknowledged (event : JobEvent)
  | aborted (event : JobEvent)
  deriving DecidableEq, Repr

/-- The job's journal row, the locals of `execute` and the job's token. -/
structure RunnerState where
  row : JobRecord
  record : JobRecord
  sequence : Nat
  cancelled : Bool
  trace : List Trace
  pc : Pc
  deriving DecidableEq, Repr

/-- `execute` is called on a record the journal holds, with a fresh token. -/
def start (record : JobRecord) : RunnerState where
  row := record
  record := record
  sequence := record.eventSequence
  cancelled := false
  trace := []
  pc := .entry

/-- What happens next, with what the environment contributes to it. -/
inductive Act where
  /-- the task runs to its next await point -/
  | advance
  /-- `emit` reads the clock and journals its event -/
  | emit (unixMs : Int)
  /-- `cancel_job`, called for a `CancelJob` of the Hub -/
  | cancelJob
  /-- `accept_dispatch` of a dispatch for the job under way -/
  | redispatch (dispatch : DispatchJob)
  | permit
  | permitClosed
  | cancelledWhileQueued
  | inputs (result : Except RuntimeError Unit)
  | rendered (result : Except String Unit)
  | prompted (result : Except String String)
  | waited (result : Except String (List OutputRef))
  | statusClosed
  | status (status : ComfyPromptStatus) (now eventAt : Nat)
  | outputDir (result : Except String Unit)
  | uploaded (result : Except RuntimeError Unit)
  | transmit
  | sendFailed
  /-- `resolve_job_event` for the event in flight -/
  | ack
  | timeout

/-- `?` of `execute_inner` on `send_job_event`; the last emission of `execute`
    ignores its result. -/
def sendErr (s : RunnerState) (after : After) (error : RuntimeError) :
    RunnerState :=
  match after with
  | .final => { s with pc := .returned }
  | _ => { s with pc := .failed error }

/-- `send_job_event` up to its loop: the event is journalled first. -/
def sendJobEvent (s : RunnerState) (event : JobEvent)
    (state : Option JobState) (after : After) : RunnerState :=
  match setPendingEvent s.row event state with
  | .ok row => { s with row := row, pc := .sending event after .head }
  | .error error => sendErr s after (.journal error.toString)

/-- The event `emit` builds. -/
def emitted (s : RunnerState) (update : EventUpdate) (unixMs : Int) : JobEvent where
  jobId := s.record.dispatch.jobId
  attempt := s.record.dispatch.attempt
  sequence := saturatingSucc s.sequence
  kind := update.kind
  progress := update.progress
  promptId := update.promptId
  message := update.message
  unixMs := unixMs

/-- `execute` after `send_job_event` has returned `Ok`. -/
def resume (s : RunnerState) : After → RunnerState
  | .replayed => { s with pc := .replayed }
  | .accepted =>
    { s with record := { s.record with state := .accepted }, pc := .acquire }
  | .running promptId =>
    { s with
      record := { s.record with state := .running }
      pc := .watch promptId }
  | .progress watch => { s with pc := .waiting watch }
  | .uploading promptId outputs =>
    { s with
      record := { s.record with state := .uploading }
      pc := .outputDir promptId outputs }
  | .completed => { s with pc := .returned }
  | .final => { s with pc := .returned }

/-- The `Accepted` emission. -/
def acceptedUpdate : EventUpdate :=
  ⟨.accepted, none, none, "", .accepted⟩

/-- The `Running` emission. -/
def runningUpdate (promptId : String) : EventUpdate :=
  ⟨.running, none, some promptId, "", .running⟩

/-- The `Progress` emission of the wait loop. -/
def progressUpdate (promptId message : String) : EventUpdate :=
  ⟨.progress, none, some promptId, message, .running⟩

/-- The `Uploading` emission; the progress is the `f32` nearest to 0.95. -/
def uploadingUpdate (promptId : String) : EventUpdate :=
  ⟨.uploading, some (15938355 / 16777216), some promptId, "", .uploading⟩

/-- The `Completed` emission. -/
def completedUpdate (promptId : String) : EventUpdate :=
  ⟨.completed, some 1, some promptId, "", .completed⟩

/-- The emission `execute` chooses for an error, from its own copy of the state. -/
def finalUpdate (s : RunnerState) (error : RuntimeError) : EventUpdate :=
  if s.cancelled ∧ s.record.state ≠ .uploading then
    ⟨.cancelled, none, s.record.promptId, "job cancelled", .cancelled⟩
  else
    ⟨.failed, none, s.record.promptId, truncate error.toString 1000, .failed⟩

/-- The wait loop on a new status. -/
def observe (s : RunnerState) (w : Watch) (status : ComfyPromptStatus)
    (now eventAt : Nat) : RunnerState :=
  if status = .unknown then s
  else
    let changed := status ≠ w.lastStatus
    let seen := if changed then
        { w with lastStatus := status, statusSince := now }
      else w
    let due := w.lastStatusEvent.all fun last =>
      decide (now - last ≥ comfyStatusHeartbeatInterval)
    if changed ∨ due = true then
      let message := comfyStatusMessage status (now - seen.statusSince)
      { s with
        pc := .emit (progressUpdate w.promptId message)
          (.progress { seen with lastStatusEvent := some eventAt }) }
    else { s with pc := .waiting seen }

/-- `cancellable` of `send_job_event`. -/
def cancellable (event : JobEvent) : Bool := event.kind ≠ .cancelled

/-- `cancel_job` drops the waiter of the event in flight. -/
def dropWaiter : Pc → Pc
  | .sending e after (.transmitting .registered) =>
    .sending e after (.transmitting .dropped)
  | .sending e after (.awaiting .registered) =>
    .sending e after (.awaiting .dropped)
  | pc => pc

/-- One move of the runner's own task. -/
def move (s : RunnerState) : Pc → Act → Option RunnerState
  | .entry, .advance =>
    if s.record.state.isTerminal then some { s with pc := .returned }
    else match s.record.pendingEvent with
      | some pending => some (sendJobEvent s pending none .replayed)
      | none => some { s with pc := .replayed }
  | .replayed, .advance =>
    if s.record.state = .received then
      some { s with pc := .emit acceptedUpdate .accepted }
    else some { s with pc := .acquire }
  | .acquire, .permit => some { s with pc := .acquired }
  | .acquire, .permitClosed => some { s with pc := .failed .connectionClosed }
  | .acquire, .cancelledWhileQueued =>
    if s.cancelled then some { s with pc := .failed .cancelled } else none
  | .acquired, .advance =>
    if s.cancelled then some { s with pc := .failed .cancelled }
    else match s.record.promptId with
      | some promptId => some { s with pc := .prompted promptId }
      | none => some { s with pc := .inputs }
  | .inputs, .inputs (.ok _) => some { s with pc := .render }
  | .inputs, .inputs (.error e) => some { s with pc := .failed e }
  | .render, .rendered (.error e) =>
    some { s with pc := .failed (.workflow e) }
  | .render, .rendered (.ok _) =>
    if s.cancelled then some { s with pc := .failed .cancelled }
    else some { s with pc := .prompt }
  | .prompt, .prompted (.error e) => some { s with pc := .failed (.comfy e) }
  | .prompt, .prompted (.ok promptId) =>
    some { s with
      row := setPromptId s.row promptId
      pc := .prompted promptId }
  | .prompted promptId, .advance =>
    if s.record.state ≠ .running ∧ s.record.state ≠ .uploading then
      some { s with
        pc := .emit (runningUpdate promptId) (.running promptId) }
    else some { s with pc := .watch promptId }
  | .watch promptId, .advance =>
    if s.cancelled then some { s with pc := .failed .cancelled }
    else some { s with pc := .waiting ⟨promptId, .unknown, 0, none, true⟩ }
  | .waiting w, .waited (.ok outputs) =>
    some { s with
      pc := .emit (uploadingUpdate w.promptId) (.uploading w.promptId outputs) }
  | .waiting _, .waited (.error e) => some { s with pc := .failed (.comfy e) }
  | .waiting w, .statusClosed =>
    if w.statusChannelOpen then
      some { s with pc := .waiting { w with statusChannelOpen := false } }
    else none
  | .waiting w, .status status now eventAt =>
    if w.statusChannelOpen then some (observe s w status now eventAt)
    else none
  | .outputDir promptId outputs, .outputDir (.ok _) =>
    some { s with pc := .outputs promptId outputs }
  | .outputDir _ _, .outputDir (.error e) =>
    some { s with pc := .failed (.io e) }
  | .outputs promptId [], .advance =>
    some { s with pc := .emit (completedUpdate promptId) .completed }
  | .outputs promptId (_ :: rest), .uploaded (.ok _) =>
    some { s with pc := .outputs promptId rest }
  | .outputs _ (_ :: _), .uploaded (.error e) =>
    some { s with pc := .failed e }
  | .emit update after, .emit unixMs =>
    some (sendJobEvent { s with sequence := saturatingSucc s.sequence }
      (emitted s update unixMs) (some update.state) after)
  | .sending e after .head, .advance =>
    if cancellable e ∧ s.cancelled then
      some (sendErr { s with trace := s.trace ++ [.aborted e] } after .cancelled)
    else some { s with pc := .sending e after (.transmitting .registered) }
  | .sending e after (.transmitting w), .transmit =>
    some { s with
      trace := s.trace ++ [.transmitted e]
      pc := .sending e after (.awaiting w) }
  | .sending e after (.transmitting _), .sendFailed =>
    some { s with pc := .sending e after .head }
  | .sending e after (.transmitting .registered), .ack =>
    some { s with pc := .sending e after (.transmitting .resolved) }
  | .sending e after (.awaiting .registered), .ack =>
    some { s with pc := .sending e after (.awaiting .resolved) }
  | .sending e after (.awaiting .registered), .timeout =>
    some { s with pc := .sending e after .head }
  | .sending e after (.awaiting .dropped), .advance =>
    some { s with pc := .sending e after .head }
  | .sending e after (.awaiting .resolved), .advance =>
    some (resume { s with
      row := clearPendingEvent s.row e.sequence
      trace := s.trace ++ [.acknowledged e] } after)
  | .failed error, .advance =>
    some { s with pc := .emit (finalUpdate s error) .final }
  | _, _ => none

/-- One move of the runner or of a task beside it. -/
def step (s : RunnerState) : Act → Option RunnerState
  | .cancelJob =>
    -- a job that has finished is no longer registered
    if s.pc = .returned then some s
    else some { s with cancelled := true, pc := dropWaiter s.pc }
  | .redispatch dispatch =>
    match Journal.redispatch s.row dispatch with
    | .ok row => some { s with row := row }
    | .error _ => some s
  | a => move s s.pc a

/-- A run whose journal call fails. -/
def ioFailed (s : RunnerState) (error : String) : Option RunnerState :=
  match s.pc with
  | .entry =>
    if s.record.state.isTerminal ∨ s.record.pendingEvent = none then none
    else some (sendErr s .replayed (.journal error))
  | .emit _ after =>
    some (sendErr { s with sequence := saturatingSucc s.sequence } after (.journal error))
  | .prompt => some { s with pc := .failed (.journal error) }
  | .sending e after (.awaiting .resolved) =>
    -- the acknowledgement is there, `ClearPendingEvent` fails
    some (sendErr { s with trace := s.trace ++ [.acknowledged e] } after (.journal error))
  | _ => none

variable {s t : RunnerState} {e : JobEvent} {after : After}

/-- The send loop gives a cancellable event up. -/
theorem step_abort (hpc : s.pc = .sending e after .head)
    (hcan : cancellable e = true) (hc : s.cancelled = true) :
    step s .advance = some (sendErr
      { s with trace := s.trace ++ [.aborted e] } after .cancelled) := by
  show move s s.pc .advance = _
  rw [hpc]
  exact if_pos ⟨hcan, hc⟩

/-! ## What a move leaves of the trace and of the token -/

/-- The trace has grown and the token is the one before. -/
def Extends (s t : RunnerState) : Prop :=
  s.trace <+: t.trace ∧ t.cancelled = s.cancelled

theorem extends_of_eq (ht : t.trace = s.trace) (hc : t.cancelled = s.cancelled) : Extends s t :=
  ⟨ht ▸ List.prefix_rfl, hc⟩

theorem extends_sendErr {error : RuntimeError} (h : Extends s t) :
    Extends s (sendErr t after error) := by
  cases after <;> exact h

theorem extends_sendJobEvent {state : Option JobState} (h : Extends s t) :
    Extends s (sendJobEvent t e state after) := by
  rw [sendJobEvent]
  split
  · exact h
  · exact extends_sendErr h

theorem extends_resume (h : Extends s t) : Extends s (resume t after) := by
  cases after <;> exact h

theorem extends_observe {w : Watch} {status : ComfyPromptStatus}
    {now eventAt : Nat} :
    Extends s (observe s w status now eventAt) := by
  rw [observe]
  split
  · exact extends_of_eq rfl rfl
  dsimp only
  split
  all_goals exact extends_of_eq rfl rfl

/-- Moves only append to the trace and never touch the token. -/
theorem extends_move {pc : Pc} {a : Act} (h : move s pc a = some t) : Extends s t := by
  have hself : Extends s s := extends_of_eq rfl rfl
  have happ : ∀ x : Trace, Extends s { s with trace := s.trace ++ [x] } :=
    fun x => ⟨List.prefix_append _ _, rfl⟩
  unfold move at h
  repeat' split at h
  all_goals first
    | rw [← some.inj h]
      first
        | exact hself
        | exact happ _
        | exact extends_sendJobEvent hself
        | exact extends_observe
        | exact extends_sendErr (happ _)
        | exact extends_resume (happ _)
    | cases h

/-! ## How far the journal's row and the runner's copy can be apart -/

/-- A job a worker is working on. -/
def Live (state : JobState) : Prop :=
  state ≠ .queued ∧ state.isTerminal = false

/-- `send_job_event` is about to give up an `Uploading` event the journal has
    already taken, while the runner's own copy is still behind. -/
def AbortsUploading (s : RunnerState) : Act → Prop
  | .advance => ∃ e promptId outputs, s.pc = .sending e (.uploading promptId outputs) .head
        ∧ cancellable e = true ∧ s.cancelled = true
        ∧ s.record.state ≠ .uploading
  | _ => False

/-- `send_job_event` is about to give up an event whose terminal state the
    journal has already taken. -/
def AbortsTerminal (s : RunnerState) : Act → Prop
  | .advance => ∃ e after, s.pc = .sending e after .head ∧ cancellable e = true ∧ s.cancelled = true
      ∧ s.row.state.isTerminal = true
  | _ => False

/-- The runner's copy and the journal's row after an error: equal, or the row one transition ahead.
    `U` and `T` stand for the two kinds of abort having happened. -/
def Apart (U T : Prop) (record row : JobState) : Prop :=
  (row = record ∧ Live row) ∨ (record = .received ∧ row = .accepted)
    ∨ (record = .accepted ∧ row = .running)
    ∨ (U ∧ record = .running ∧ row = .uploading)
    ∨ (T ∧ record = .uploading ∧ row = .completed)

/-- The emission before it is journalled. -/
def Emitting (U T : Prop) (u : EventUpdate) (record row : JobState) : After → Prop
  | .replayed => False
  | .accepted => u.state = .accepted ∧ record = .received ∧ row = .received
  | .running _ => u.state = .running ∧ record = .accepted ∧ row = .accepted
  | .progress _ => u.state = .running ∧ row = record ∧ (record = .running ∨ record = .uploading)
  | .uploading _ _ => u.state = .uploading ∧ row = record
      ∧ (record = .running ∨ record = .uploading)
  | .completed => u.state = .completed ∧ record = .uploading ∧ row = .uploading
  | .final => Apart U T record row
      ∧ ((u.kind = .cancelled ∧ u.state = .cancelled ∧ record ≠ .uploading) ∨ u.state = .failed)

/-- The event after it is journalled. -/
def Sending (e : JobEvent) (record row : JobState) : After → Prop
  | .replayed => row = record ∧ Live row
  | .accepted => record = .received ∧ row = .accepted
  | .running _ => record = .accepted ∧ row = .running
  | .progress _ => record = .running ∧ row = .running
  | .uploading _ _ => row = .uploading ∧ (record = .running ∨ record = .uploading)
  | .completed => record = .uploading ∧ row = .completed
  | .final => (row = .cancelled ∧ e.kind = .cancelled) ∨ row = .failed

/-- What holds at each place of `execute`. -/
def Control (U T : Prop) (s : RunnerState) : Prop :=
  let record := s.record.state
  let row := s.row.state
  match s.pc with
  | .entry => row = record ∧ Live row ∧ s.row.pendingEvent = s.record.pendingEvent
  | .replayed => row = record ∧ Live row
  | .acquire | .acquired | .inputs | .render | .prompt | .prompted _ =>
    row = record ∧ Live row ∧ record ≠ .received
  | .watch _ | .waiting _ =>
    row = record ∧ (record = .running ∨ record = .uploading)
  | .outputDir _ _ | .outputs _ _ => record = .uploading ∧ row = .uploading
  | .emit u after => Emitting U T u record row after
  | .sending e after _ =>
    Sending e record row after ∧ s.row.pendingEvent = some e
  | .failed _ => Apart U T record row
  | .returned => (row.isTerminal = true ∧ (s.row.pendingEvent = none ∨ T)) ∨ (U ∧ row = .uploading)

/-- The invariant of a run. -/
structure Inv (U T : Prop) (s : RunnerState) : Prop where
  wellFormed : WellFormed s.row
  sequence_le : s.row.eventSequence ≤ clampI64 s.sequence
  control : Control U T s

variable {U T : Prop}

theorem live_running : Live .running := ⟨nofun, rfl⟩

theorem live_uploading : Live .uploading := ⟨nofun, rfl⟩

theorem live_of_or {state : JobState} (h : state = .running ∨ state = .uploading) : Live state := by
  rcases h with rfl | rfl
  · exact live_running
  · exact live_uploading

/-- Equal copies are the first way of being apart. -/
theorem apart_of_eq {record row : JobState} (h : row = record)
    (hl : Live row) : Apart U T record row := .inl ⟨h, hl⟩

theorem inv_start {r : JobRecord} (hwf : WellFormed r)
    (ht : r.state.isTerminal = false) : Inv U T (start r) where
  wellFormed := hwf
  sequence_le := by
    show r.eventSequence ≤ clampI64 r.eventSequence
    have := hwf.sequence_le
    simp only [clampI64]
    omega
  control := ⟨rfl, ⟨hwf.notQueued, ht⟩, rfl⟩

/-- A step that only moves the program counter keeps what the journal holds. -/
theorem Inv.goto (h : Inv U T s) (pc : Pc)
    (hc : Control U T { s with pc := pc }) : Inv U T { s with pc := pc } :=
  ⟨h.wellFormed, h.sequence_le, hc⟩

/-- What holds at the place where the job stands. -/
theorem Inv.at {pc : Pc} (h : Inv U T s) (hpc : s.pc = pc) : Control U T { s with pc := pc } := by
  subst hpc
  exact h.control

/-! ## Emission -/

variable {u : EventUpdate}

/-- A refused emission leaves the journal as it was. -/
private theorem control_sendErr_refused {error : RuntimeError}
    (h : Emitting U T u s.record.state s.row.state after)
    (hcan : s.row.state.canTransitionTo u.state = false) :
    Control U T (sendErr s after error) := by
  have hrefused : ∀ state, s.row.state = state → state.canTransitionTo u.state ≠ true := by
    rintro _ rfl hyes
    cases hcan.symm.trans hyes
  cases after with
  | replayed => exact h.elim
  | accepted | running p | completed =>
    obtain ⟨hu, -, hr⟩ := h
    rw [hu] at hrefused
    exact absurd rfl (hrefused _ hr)
  | progress w | uploading p outs =>
    obtain ⟨-, hr, hrec⟩ := h
    exact apart_of_eq hr (live_of_or (hr ▸ hrec))
  | final =>
    obtain ⟨hapart, hu⟩ := h
    show (s.row.state.isTerminal = true ∧ (s.row.pendingEvent = none ∨ T))
      ∨ (U ∧ s.row.state = .uploading)
    rcases hu with ⟨-, hu, hne⟩ | hu
    · -- a refused `Cancelled`: the row is uploading, the copy is not
      rw [hu] at hrefused
      rcases hapart with ⟨hr, hl⟩ | ⟨-, hr⟩ | ⟨-, hr⟩ | ⟨hU, -, hr⟩ | ⟨-, hrec, -⟩
      · exact absurd (JobState.canTransitionTo_cancelled (hr ▸ hne) hl.2) (hrefused _ rfl)
      · exact absurd rfl (hrefused _ hr)
      · exact absurd rfl (hrefused _ hr)
      · exact .inr ⟨hU, hr⟩
      · exact absurd hrec hne
    · -- a refused `Failed`: the row is completed
      rw [hu] at hrefused
      rcases hapart with ⟨-, hl⟩ | ⟨-, hr⟩ | ⟨-, hr⟩ | ⟨-, -, hr⟩ | ⟨hT, -, hr⟩
      · exact absurd (JobState.canTransitionTo_failed hl.1 hl.2) (hrefused _ rfl)
      · exact absurd rfl (hrefused _ hr)
      · exact absurd rfl (hrefused _ hr)
      · exact absurd rfl (hrefused _ hr)
      · exact .inl ⟨by rw [hr]; rfl, .inr hT⟩

/-- An accepted emission has moved the row to the event's state. -/
private theorem sending_of_emitting {record row : JobState}
    (hkind : e.kind = u.kind) (h : Emitting U T u record row after)
    (hcan : row.canTransitionTo u.state = true) :
    Sending e record u.state after := by
  cases after with
  | replayed => exact h.elim
  | accepted | running p | completed => exact ⟨h.2.1, h.1⟩
  | progress w =>
    obtain ⟨hu, hr, hrec | hrec⟩ := h
    · exact ⟨hrec, hu⟩
    -- a resumed upload cannot go back to `Running`
    rw [hu, hr, hrec] at hcan
    exact Bool.noConfusion hcan
  | uploading p outs => exact ⟨h.1, h.2.2⟩
  | final =>
    rcases h.2 with ⟨hk, hu, -⟩ | hu
    · exact .inl ⟨hu, hkind.trans hk⟩
    · exact .inr hu

/-- `emit` keeps the invariant, whether the journal takes the event or not;
    its sequence is never stale. -/
theorem inv_emit (unixMs : Int) (h : Inv U T s) (hpc : s.pc = .emit u after) :
    Inv U T (sendJobEvent { s with sequence := saturatingSucc s.sequence }
      (emitted s u unixMs) (some u.state) after) := by
  have hcontrol : Emitting U T u s.record.state s.row.state after := h.at hpc
  have hlt : s.row.eventSequence < (emitted s u unixMs).sequence :=
    Nat.lt_of_le_of_lt h.sequence_le (clampI64_lt_saturatingSucc s.sequence)
  have hgrow : s.row.eventSequence ≤ clampI64 (saturatingSucc s.sequence) := by
    have hseq := clampI64_lt_saturatingSucc s.sequence
    have hle := h.sequence_le
    simp only [clampI64] at *
    omega
  rw [sendJobEvent]
  cases hcan : s.row.state.canTransitionTo u.state with
  | true =>
    rw [setPendingEvent_of_lt hlt hcan]
    refine ⟨?_, Nat.le_refl _, ?_, rfl⟩
    · exact h.wellFormed.setPendingEvent (setPendingEvent_of_lt hlt hcan)
    · exact sending_of_emitting rfl hcontrol hcan
  | false =>
    rw [setPendingEvent_of_refused hlt hcan]
    refine ⟨?_, ?_, control_sendErr_refused hcontrol hcan⟩
    · cases after <;> exact h.wellFormed
    · cases after <;> exact hgrow

/-! ## The end of a transmission -/

section

variable (h : Inv U T s)
include h

/-- Giving an event up: the copy stays behind the row. -/
theorem inv_abort {phase : Phase} {trace : List Trace}
    (hpc : s.pc = .sending e after phase) (hcan : cancellable e = true)
    (hU : ∀ promptId outputs, after = .uploading promptId outputs → s.record.state ≠ .uploading → U)
    (hT : s.row.state.isTerminal = true → T) :
    Inv U T (sendErr { s with trace := trace } after .cancelled) := by
  obtain ⟨hsend, -⟩ := h.at hpc
  refine ⟨?_, ?_, ?_⟩
  · cases after <;> exact h.wellFormed
  · cases after <;> exact h.sequence_le
  cases after with
  | replayed => exact apart_of_eq hsend.1 hsend.2
  | accepted => exact .inr (.inl hsend)
  | running p => exact .inr (.inr (.inl hsend))
  | progress w =>
    obtain ⟨hrec, hrow⟩ := hsend
    exact apart_of_eq (hrow.trans hrec.symm) (hrow ▸ live_running)
  | uploading p outs =>
    obtain ⟨hrow, hrec | hrec⟩ := hsend
    · have hne : s.record.state ≠ .uploading := by
        rw [hrec]
        exact nofun
      exact .inr (.inr (.inr (.inl ⟨hU p outs rfl hne, hrec, hrow⟩)))
    · exact apart_of_eq (hrow.trans hrec.symm) (hrow ▸ live_uploading)
  | completed =>
    obtain ⟨hrec, hrow⟩ := hsend
    have hterm : s.row.state.isTerminal = true := by
      rw [hrow]
      rfl
    exact .inr (.inr (.inr (.inr ⟨hT hterm, hrec, hrow⟩)))
  | final =>
    rcases hsend with ⟨-, hkind⟩ | hrow
    · -- `Cancelled` is the one event that is not cancellable
      rw [cancellable, hkind] at hcan
      exact Bool.noConfusion hcan
    have hterm : s.row.state.isTerminal = true := by
      rw [hrow]
      rfl
    exact .inl ⟨hterm, .inr (hT hterm)⟩

/-- The acknowledgement clears the row's event: it carries its sequence. -/
theorem clear_pending (hpending : s.row.pendingEvent = some e) :
    clearPendingEvent s.row e.sequence = { s.row with pendingEvent := none } :=
  clearPendingEvent_of_eq (h.wellFormed.pending_sequence e hpending).symm

/-- An acknowledged event: the copy catches up with the row. -/
theorem inv_resume {phase : Phase} {trace : List Trace} (hpc : s.pc = .sending e after phase) :
    Inv U T (resume { s with
      row := clearPendingEvent s.row e.sequence
      trace := trace } after) := by
  obtain ⟨hsend, hpending⟩ := h.at hpc
  have hwf := h.wellFormed.clearPendingEvent e.sequence
  rw [clear_pending h hpending] at hwf ⊢
  cases after with
  | replayed => exact ⟨hwf, h.sequence_le, hsend⟩
  | accepted =>
    obtain ⟨-, hrow⟩ := hsend
    refine ⟨hwf, h.sequence_le, hrow, ?_, nofun⟩
    show Live s.row.state
    rw [hrow]
    exact ⟨nofun, rfl⟩
  | running p => exact ⟨hwf, h.sequence_le, hsend.2, .inl rfl⟩
  | progress w =>
    obtain ⟨hrec, hrow⟩ := hsend
    exact ⟨hwf, h.sequence_le, hrow.trans hrec.symm, .inl hrec⟩
  | uploading p outs => exact ⟨hwf, h.sequence_le, rfl, hsend.1⟩
  | completed =>
    refine ⟨hwf, h.sequence_le, .inl ⟨?_, .inl rfl⟩⟩
    show s.row.state.isTerminal = true
    rw [hsend.2]
    rfl
  | final =>
    refine ⟨hwf, h.sequence_le, .inl ⟨?_, .inl rfl⟩⟩
    show s.row.state.isTerminal = true
    rcases hsend with ⟨hrow, -⟩ | hrow
    · rw [hrow]
      rfl
    · rw [hrow]
      rfl

/-- The replay of the pending event is accepted and changes nothing. -/
theorem inv_replay (hpc : s.pc = .entry) (hpending : s.record.pendingEvent = some e) :
    sendJobEvent s e none .replayed = { s with pc := .sending e .replayed .head }
      ∧ Inv U T { s with pc := .sending e .replayed .head } := by
  obtain ⟨hrow, hl, hsame⟩ := h.at hpc
  have hp : s.row.pendingEvent = some e := hsame.trans hpending
  have hset := setPendingEvent_replay hp (h.wellFormed.pending_sequence e hp)
  refine ⟨?_, h.goto _ ⟨⟨hrow, hl⟩, hp⟩⟩
  rw [sendJobEvent, hset]

/-! ## The other places -/

/-- The wait loop moves between its own place and its emission. -/
theorem inv_observe {w : Watch} {status : ComfyPromptStatus}
    {now eventAt : Nat} (hpc : s.pc = .waiting w) :
    Inv U T (observe s w status now eventAt) := by
  have hcontrol := h.at hpc
  rw [observe]
  split
  · exact h
  dsimp only
  split
  · exact h.goto _ ⟨rfl, hcontrol⟩
  · exact h.goto _ hcontrol

/-- The error branch of `execute` chooses its event. -/
theorem inv_final {error : RuntimeError} (hpc : s.pc = .failed error) :
    Inv U T { s with pc := .emit (finalUpdate s error) .final } := by
  refine h.goto _ ⟨h.at hpc, ?_⟩
  rw [finalUpdate]
  split
  · next hc => exact .inl ⟨rfl, rfl, hc.2⟩
  · exact .inr rfl

/-- The runner's own moves keep the invariant; an abort of one of the two
    kinds makes its letter true. -/
theorem inv_move {a : Act} (hU : AbortsUploading s a → U)
    (hT : AbortsTerminal s a → T) (hmove : move s s.pc a = some t) :
    Inv U T t := by
  have hcontrol := h.control
  rw [Control] at hcontrol
  unfold move at hmove
  split at hmove
  -- every branch knows where the job stood, and what held there
  all_goals try (rename_i hpc; rw [hpc] at hcontrol)
  -- `entry`
  · split at hmove
    · next hterm =>
      rw [← hcontrol.1, hcontrol.2.1.2] at hterm
      exact Bool.noConfusion hterm
    split at hmove
    · next e hpending =>
      obtain ⟨heq, hinv⟩ := inv_replay h hpc hpending
      rw [← some.inj hmove, heq]
      exact hinv
    · cases hmove
      exact h.goto _ ⟨hcontrol.1, hcontrol.2.1⟩
  -- `replayed`
  · split at hmove
    · next hrec =>
      cases hmove
      exact h.goto _ ⟨rfl, hrec, hcontrol.1.trans hrec⟩
    · next hrec =>
      cases hmove
      exact h.goto _ ⟨hcontrol.1, hcontrol.2, hrec⟩
  -- `acquire`
  · cases hmove
    exact h.goto _ hcontrol
  · cases hmove
    exact h.goto _ (apart_of_eq hcontrol.1 hcontrol.2.1)
  · obtain ⟨-, rfl⟩ := of_guard hmove
    exact h.goto _ (apart_of_eq hcontrol.1 hcontrol.2.1)
  -- `acquired`
  · split at hmove
    · cases hmove
      exact h.goto _ (apart_of_eq hcontrol.1 hcontrol.2.1)
    split at hmove
    all_goals
      cases hmove
      exact h.goto _ hcontrol
  -- `inputs`
  · cases hmove
    exact h.goto _ hcontrol
  · cases hmove
    exact h.goto _ (apart_of_eq hcontrol.1 hcontrol.2.1)
  -- `render`
  · cases hmove
    exact h.goto _ (apart_of_eq hcontrol.1 hcontrol.2.1)
  · split at hmove
    · cases hmove
      exact h.goto _ (apart_of_eq hcontrol.1 hcontrol.2.1)
    · cases hmove
      exact h.goto _ hcontrol
  -- `prompt`
  · cases hmove
    exact h.goto _ (apart_of_eq hcontrol.1 hcontrol.2.1)
  · cases hmove
    have hwf := h.wellFormed
    exact ⟨⟨hwf.notQueued, hwf.sequence_le, hwf.pending_sequence⟩, h.sequence_le, hcontrol⟩
  -- `prompted`
  · obtain ⟨hrow, hl, hrec⟩ := hcontrol
    split at hmove
    · next hne =>
      cases hmove
      have hacc : s.record.state = .accepted := by
        rw [hrow] at hl
        obtain ⟨hq, ht⟩ := hl
        revert hq ht hrec hne
        cases s.record.state <;> decide
      exact h.goto _ ⟨rfl, hacc, hrow.trans hacc⟩
    · next hne =>
      cases hmove
      refine h.goto _ ⟨hrow, ?_⟩
      rw [not_and_or, not_not, not_not] at hne
      exact hne
  -- `watch`
  · split at hmove
    · cases hmove
      exact h.goto _ (apart_of_eq hcontrol.1 (hcontrol.1 ▸ live_of_or hcontrol.2))
    · cases hmove
      exact h.goto _ hcontrol
  -- `waiting`
  · cases hmove
    exact h.goto _ ⟨rfl, hcontrol⟩
  · cases hmove
    exact h.goto _ (apart_of_eq hcontrol.1 (hcontrol.1 ▸ live_of_or hcontrol.2))
  · obtain ⟨-, rfl⟩ := of_guard hmove
    exact h.goto _ hcontrol
  · obtain ⟨-, rfl⟩ := of_guard hmove
    exact inv_observe h hpc
  -- `outputDir`
  · cases hmove
    exact h.goto _ hcontrol
  · cases hmove
    exact h.goto _ (apart_of_eq (hcontrol.2.trans hcontrol.1.symm) (hcontrol.2 ▸ live_uploading))
  -- `outputs`
  · cases hmove
    exact h.goto _ ⟨rfl, hcontrol⟩
  · cases hmove
    exact h.goto _ hcontrol
  · cases hmove
    exact h.goto _ (apart_of_eq (hcontrol.2.trans hcontrol.1.symm) (hcontrol.2 ▸ live_uploading))
  -- `emit`
  · cases hmove
    exact inv_emit _ h hpc
  -- `sending`
  · split at hmove
    · next hc =>
      cases hmove
      refine inv_abort h hpc hc.1 ?_ fun hterm =>
        hT ⟨_, _, hpc, hc.1, hc.2, hterm⟩
      rintro p outs rfl hne
      exact hU ⟨_, p, outs, hpc, hc.1, hc.2, hne⟩
    · cases hmove
      exact h.goto _ hcontrol
  · cases hmove
    exact ⟨h.wellFormed, h.sequence_le, hcontrol⟩
  iterate 5
    · cases hmove
      exact h.goto _ hcontrol
  · cases hmove
    exact inv_resume h hpc
  -- `failed`
  · cases hmove
    exact inv_final h hpc
  · cases hmove

end

/-! ## The tasks beside the runner -/

theorem redispatch_frame {r r' : JobRecord} {d : DispatchJob}
    (h : Journal.redispatch r d = .ok r') :
    r'.state = r.state ∧ r'.eventSequence = r.eventSequence ∧ r'.pendingEvent = r.pendingEvent := by
  rw [Journal.redispatch] at h
  split at h
  · split at h
    all_goals
      cases h
      exact ⟨rfl, rfl, rfl⟩
  · cases h

/-- What holds at a place does not depend on the row's dispatch. -/
theorem control_redispatch {row : JobRecord} (hstate : row.state = s.row.state)
    (hpending : row.pendingEvent = s.row.pendingEvent) (h : Control U T s) :
    Control U T { s with row := row } := by
  unfold Control at h ⊢
  rw [hstate, hpending]
  exact h

/-- Nor on the waiter of the event in flight. -/
theorem control_dropWaiter {c : Bool} (h : Control U T s) :
    Control U T { s with cancelled := c, pc := dropWaiter s.pc } := by
  unfold dropWaiter
  split
  case h_3 => exact h
  all_goals
    next hpc =>
    unfold Control at h ⊢
    rw [hpc] at h
    exact h

/-- **ONE STEP**: the invariant, with the letters of the aborts that have happened. -/
theorem inv_step {a : Act} (h : Inv U T s) (hU : AbortsUploading s a → U)
    (hT : AbortsTerminal s a → T) (hstep : step s a = some t) :
    Inv U T t := by
  cases a with
  | cancelJob =>
    rw [step] at hstep
    split at hstep
    · exact some.inj hstep ▸ h
    · cases hstep
      exact ⟨h.wellFormed, h.sequence_le, control_dropWaiter h.control⟩
  | redispatch d =>
    rw [step] at hstep
    split at hstep
    · next row hrow =>
      cases hstep
      obtain ⟨hstate, hseq, hpending⟩ := redispatch_frame hrow
      refine ⟨h.wellFormed.redispatch hrow, ?_, control_redispatch hstate hpending h.control⟩
      rw [hseq]
      exact h.sequence_le
    · exact some.inj hstep ▸ h
  | _ => exact inv_move h hU hT hstep

end Runner
