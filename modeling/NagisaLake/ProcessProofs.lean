import NagisaLake.RunnerProofs

/-! # The worker process — one job between the connection loop and its runs

`RunnerProofs` follows one `execute` from its record to its end.  Here the
worker around it is added, seen from one job: the journal's row, the
job's entry in the registry of cancellation tokens, the runs that
`spawn_registered_record` has started, and the task that owns the Hub
connection, which handles one Hub message at a time.

  * `accept_dispatch` reads the row, writes it, and only then asks the
    registry for the job's entry: three awaits, so three steps;
  * `cancel_job` looks the token up, fires it and sweeps the waiters;
  * `resume_unfinished` lists the row once, when the process starts;
  * a crash leaves the row and takes everything else.

Other jobs share only the semaphore and the capacity with this one: both
are answers of the environment. -/

namespace Process

open Jobs Journal Runner Runs Option List

/-! ## The state -/

/-- The locals of one `execute`. -/
structure Run where
  record : JobRecord
  token : Nat
  sequence : Nat
  pc : Pc
  deriving DecidableEq, Repr

/-- Where the task of the Hub connection stands. -/
inductive Loop where
  /-- `resume_unfinished` has not listed the journal yet -/
  | boot
  /-- `spawn_record` is about to call `restore_job` -/
  | restoring (record : JobRecord)
  /-- the next Hub message -/
  | idle
  /-- `accept_dispatch` of a job the journal knows -/
  | known (dispatch : DispatchJob)
  /-- `accept_dispatch` is about to call `register_job` -/
  | claiming (dispatch : DispatchJob)
  /-- another task holds the reservation -/
  | joined (dispatch : DispatchJob)
  /-- the reservation is this task's -/
  | owned (dispatch : DispatchJob) (token : Nat)
  /-- `finish_job` of a reservation nothing was started for -/
  | releasing
  /-- `cancel_job` has looked the token up -/
  | cancelling (token : Nat)
  /-- `cancel_job` is about to drop the job's waiters -/
  | sweeping
  deriving DecidableEq, Repr

/-- The worker, as far as it concerns one job.  `log` holds what the runs of every process did on
    the control channel, `prompts` counts the `ComfyPromptRequest`s of the present process. -/
structure Worker where
  row : Option JobRecord
  cancellations : Option Nat
  tokens : List Bool
  runs : List Run
  loop : Loop
  log : List Trace
  prompts : Nat
  deriving DecidableEq, Repr

/-- A worker that has never seen the job. -/
def fresh : Worker where
  row := none
  cancellations := none
  tokens := []
  runs := []
  loop := .boot
  log := []
  prompts := 0

/-- `CancellationToken::is_cancelled`. -/
def Worker.fired (w : Worker) (token : Nat) : Bool := w.tokens.getD token false

/-- `WorkerRuntime::is_cancelled`: through the registry. -/
def Worker.isCancelled (w : Worker) : Bool := w.cancellations.any w.fired

/-- The token a run reads at its place: `send_job_event` asks the registry,
    `execute` has its own. -/
def Worker.flag (w : Worker) (r : Run) : Bool :=
  match r.pc with
  | .sending _ _ .head => w.isCancelled
  | _ => w.fired r.token

/-- A run as `Runner.move` sees it. -/
def Worker.view (w : Worker) (row : JobRecord) (r : Run) : RunnerState where
  row := row
  record := r.record
  sequence := r.sequence
  cancelled := w.flag r
  trace := w.log
  pc := r.pc

/-- What a move of the run at `i` leaves behind.  The request to ComfyUI goes
    out when the run leaves `render`. -/
def Worker.put (w : Worker) (i : Nat) (r : Run) (t : RunnerState) : Worker :=
  { w with
    row := some t.row
    runs := w.runs.set i
      { r with record := t.record, sequence := t.sequence, pc := t.pc }
    log := t.trace
    prompts := if r.pc = .render ∧ t.pc = .prompt then w.prompts + 1
      else w.prompts }

/-! ## The steps -/

/-- What happens next. -/
inductive Act where
  /-- a run goes on -/
  | run (i : Nat) (act : Runner.Act)
  /-- the journal call of a run fails -/
  | runError (i : Nat) (error : String)
  /-- `finish_job` at the end of `execute` -/
  | finish (i : Nat)
  /-- the connection's task runs to its next await point -/
  | loop
  /-- the journal call of the connection's task fails -/
  | loopError
  /-- `register_job` finds the worker full -/
  | exhausted
  | dispatch (dispatch : DispatchJob)
  | cancelJob
  /-- a `JobEventAck` that finds the waiter of the run -/
  | eventAck (i : Nat)
  | crash

/-- Acknowledgements come from the connection's task only. -/
def isAck : Runner.Act → Bool
  | .ack => true
  | _ => false

/-- One step of the run at `i`, by whatever moves it. -/
def Worker.moved (w : Worker) (i : Nat) (move : RunnerState → Option RunnerState) : Option Worker :=
  (w.runs[i]?).bind fun r => w.row.bind fun row =>
    (move (w.view row r)).map fun t => w.put i r t

/-- `spawn_registered_record`. -/
def Run.new (record : JobRecord) (token : Nat) : Run where
  record := record
  token := token
  sequence := record.eventSequence
  pc := .entry

/-- `UpsertDispatch`. -/
def upsertDispatch (row : Option JobRecord) (dispatch : DispatchJob) :
    Except JournalError JobRecord :=
  match row with
  | some record => redispatch record dispatch
  | none => .ok (.received dispatch)

/-- The rows `ListUnfinished` returns. -/
def unfinished (record : JobRecord) : Bool :=
  !record.state.isTerminal || record.pendingEvent.isSome

/-- `resume_unfinished`, `accept_dispatch` and `cancel_job`, await by await. -/
def Worker.advance (w : Worker) : Option Worker :=
  match w.loop with
  | .boot =>
    some { w with
      loop := match w.row.filter unfinished with
        | some record => .restoring record
        | none => .idle }
  | .restoring record =>
    match w.cancellations with
    | some _ => some { w with loop := .idle }
    | none =>
      some { w with
        cancellations := some w.tokens.length
        tokens := w.tokens ++ [false]
        runs := w.runs ++ [.new record w.tokens.length]
        loop := .idle }
  | .idle => none
  | .known dispatch =>
    match upsertDispatch w.row dispatch with
    | .ok record =>
      some { w with
        row := some record
        loop := if record.state.isTerminal then .idle
          else .restoring record }
    | .error _ => some { w with loop := .idle }
  | .claiming dispatch =>
    match w.cancellations with
    | some _ => some { w with loop := .joined dispatch }
    | none =>
      some { w with
        cancellations := some w.tokens.length
        tokens := w.tokens ++ [false]
        loop := .owned dispatch w.tokens.length }
  | .joined dispatch =>
    match upsertDispatch w.row dispatch with
    | .ok record => some { w with row := some record, loop := .idle }
    | .error _ => some { w with loop := .idle }
  | .owned dispatch token =>
    match upsertDispatch w.row dispatch with
    | .ok record =>
      if record.state.isTerminal then
        some { w with row := some record, loop := .releasing }
      else some { w with
        row := some record
        runs := w.runs ++ [.new record token]
        loop := .idle }
    | .error _ => some { w with loop := .releasing }
  | .releasing => some { w with cancellations := none, loop := .idle }
  | .cancelling token =>
    some { w with tokens := w.tokens.set token true, loop := .sweeping }
  | .sweeping =>
    some { w with
      runs := w.runs.map fun r => { r with pc := dropWaiter r.pc }
      loop := .idle }

/-- The connection's task after a failed journal call. -/
def Loop.failed : Loop → Option Loop
  | .known _ => some .idle
  | .joined _ => some .idle
  | .owned _ _ => some .releasing
  | _ => none

/-- One step of the worker. -/
def step (w : Worker) : Act → Option Worker
  | .run i act =>
    if isAck act then none
    else w.moved i fun s => move s s.pc act
  | .runError i error => w.moved i fun s => ioFailed s error
  | .finish i =>
    (w.runs[i]?).bind fun r =>
      if r.pc = .returned then
        some { w with runs := w.runs.eraseIdx i, cancellations := none }
      else none
  | .loop => w.advance
  | .loopError => w.loop.failed.map fun loop => { w with loop := loop }
  | .exhausted =>
    match w.loop, w.cancellations with
    | .claiming _, none => some { w with loop := .idle }
    | _, _ => none
  | .dispatch dispatch =>
    if w.loop = .idle then
      -- `GetJob` decides which way the dispatch goes
      some { w with
        loop := if w.row.isSome then .known dispatch
          else .claiming dispatch }
    else none
  | .cancelJob =>
    if w.loop = .idle then
      match w.cancellations with
      | some token => some { w with loop := .cancelling token }
      | none => some w
    else none
  | .eventAck i =>
    if w.loop = .idle then w.moved i fun s => move s s.pc .ack else none
  | .crash => some { fresh with row := w.row, log := w.log }

variable {w w' : Worker} {i : Nat}

theorem moved_eq_some {move : RunnerState → Option RunnerState} (h : w.moved i move = some w') :
    ∃ r row t, w.runs[i]? = some r ∧ w.row = some row
      ∧ move (w.view row r) = some t ∧ w' = w.put i r t := by
  obtain ⟨r, hr, h⟩ := bind_eq_some_iff.mp h
  obtain ⟨row, hrow, h⟩ := bind_eq_some_iff.mp h
  obtain ⟨t, ht, rfl⟩ := map_eq_some_iff.mp h
  exact ⟨r, row, t, hr, hrow, ht, rfl⟩

theorem finish_eq_some (h : step w (.finish i) = some w') :
    ∃ r, w.runs[i]? = some r ∧ r.pc = .returned
      ∧ w' = { w with runs := w.runs.eraseIdx i, cancellations := none } := by
  obtain ⟨r, hr, h⟩ := bind_eq_some_iff.mp h
  split at h
  · next hpc => exact ⟨r, hr, hpc, (some.inj h).symm⟩
  · cases h

/-! ## One entry, one run -/

/-- What the connection's task may say about the registry at its place. -/
def Loop.Holds (runs : List Run) (entry : Option Nat) : Loop → Prop
  | .boot => runs = [] ∧ entry = none
  | .owned _ token => runs = [] ∧ entry = some token
  | .releasing => runs = []
  | _ => runs = [] → entry = none

/-- The registry's entry belongs to the one run there is, or to the
    connection's task while it has not started one yet. -/
structure Registered (w : Worker) : Prop where
  one : w.runs = [] ∨ ∃ r, w.runs = [r] ∧ w.cancellations = some r.token
  loop : w.loop.Holds w.runs w.cancellations

/-- While there is a run, only the places that say nothing are left. -/
theorem Loop.Holds.of_cons {loop : Loop} {r r' : Run} {rs rs' : List Run}
    {entry entry' : Option Nat} (h : loop.Holds (r :: rs) entry) :
    loop.Holds (r' :: rs') entry' := by
  cases loop with
  | boot | owned d token => cases h.1
  | releasing => cases h
  | _ => exact fun hno => nomatch hno

/-- A task that has a run to move is the only one. -/
theorem Registered.run {r : Run} (h : Registered w) (hr : w.runs[i]? = some r) :
    i = 0 ∧ w.runs = [r] ∧ w.cancellations = some r.token := by
  rcases h.one with hnil | ⟨r', hone, hentry⟩
  · rw [hnil] at hr
    cases hr
  rw [hone] at hr
  cases i with
  | zero =>
    cases hr
    exact ⟨rfl, hone, hentry⟩
  | succ i => cases hr

/-- A free entry means that no run is left. -/
theorem Registered.runs_of_free (h : Registered w)
    (hfree : w.cancellations = none) : w.runs = [] := by
  rcases h.one with hnil | ⟨r, -, hentry⟩
  · exact hnil
  · rw [hfree] at hentry
    cases hentry

theorem registered_put {r : Run} (t : RunnerState) (h : Registered w) (hr : w.runs[i]? = some r) :
    Registered (w.put i r t) := by
  obtain ⟨rfl, hone, hentry⟩ := h.run hr
  have hruns : (w.put 0 r t).runs
      = [{ r with record := t.record, sequence := t.sequence, pc := t.pc }] := by
    show w.runs.set 0 _ = _
    rw [hone]
    rfl
  refine ⟨.inr ⟨_, hruns, hentry⟩, ?_⟩
  have hloop := h.loop
  rw [hone] at hloop
  rw [hruns]
  exact hloop.of_cons

/-- The connection's task keeps the registry in order. -/
theorem registered_advance (h : Registered w) (hstep : w.advance = some w') : Registered w' := by
  have hloop := h.loop
  unfold Worker.advance at hstep
  split at hstep
  -- `resume_unfinished`
  · next hl =>
    rw [hl] at hloop
    cases hstep
    refine ⟨.inl hloop.1, ?_⟩
    split
    all_goals exact fun _ => hloop.2
  -- `spawn_record`
  · next record hl =>
    rw [hl] at hloop
    split at hstep
    · cases hstep
      exact ⟨h.one, hloop⟩
    next hfree =>
    cases hstep
    have hnil := h.runs_of_free hfree
    refine ⟨.inr ⟨.new record w.tokens.length, ?_, rfl⟩, ?_⟩
    · rw [hnil]
      rfl
    intro hno
    exact absurd hno (append_ne_nil_of_right_ne_nil _ (cons_ne_nil _ _))
  · cases hstep
  -- `accept_dispatch`
  · next d hl =>
    rw [hl] at hloop
    split at hstep
    · cases hstep
      refine ⟨h.one, ?_⟩
      split
      · exact hloop
      · exact hloop
    · cases hstep
      exact ⟨h.one, hloop⟩
  · next d hl =>
    rw [hl] at hloop
    split at hstep
    · cases hstep
      exact ⟨h.one, hloop⟩
    next hfree =>
    cases hstep
    exact ⟨.inl (h.runs_of_free hfree), h.runs_of_free hfree, rfl⟩
  · next d hl =>
    rw [hl] at hloop
    split at hstep
    all_goals
      cases hstep
      exact ⟨h.one, hloop⟩
  · next d token hl =>
    rw [hl] at hloop
    split at hstep
    · next record _ =>
      split at hstep
      · cases hstep
        exact ⟨h.one, hloop.1⟩
      cases hstep
      refine ⟨.inr ⟨.new record token, ?_, hloop.2⟩, ?_⟩
      · rw [hloop.1]
        rfl
      intro hno
      exact absurd hno (append_ne_nil_of_right_ne_nil _ (cons_ne_nil _ _))
    · cases hstep
      exact ⟨h.one, hloop.1⟩
  · next hl =>
    rw [hl] at hloop
    cases hstep
    exact ⟨.inl hloop, fun _ => rfl⟩
  -- `cancel_job`
  · next token hl =>
    rw [hl] at hloop
    cases hstep
    exact ⟨h.one, hloop⟩
  · next hl =>
    rw [hl] at hloop
    cases hstep
    refine ⟨?_, fun hnil => hloop (map_eq_nil_iff.mp hnil)⟩
    rcases h.one with hnil | ⟨r, hone, hentry⟩
    · exact .inl (map_eq_nil_iff.mpr hnil)
    refine .inr ⟨{ r with pc := dropWaiter r.pc }, ?_, hentry⟩
    rw [hone]
    rfl

/-- **ONE STEP** keeps the registry in order, whoever takes it. -/
theorem registered_step {a : Act} (h : Registered w)
    (hstep : step w a = some w') : Registered w' := by
  have hloop := h.loop
  cases a with rw [step] at hstep
  | run i act =>
    split at hstep
    · cases hstep
    · obtain ⟨r, row, t, hr, -, -, rfl⟩ := moved_eq_some hstep
      exact registered_put t h hr
  | runError i error =>
    obtain ⟨r, row, t, hr, -, -, rfl⟩ := moved_eq_some hstep
    exact registered_put t h hr
  | finish i =>
    obtain ⟨r, hr, -, rfl⟩ := finish_eq_some hstep
    obtain ⟨rfl, hone, -⟩ := h.run hr
    have hnil : w.runs.eraseIdx 0 = [] := by
      rw [hone]
      rfl
    refine ⟨.inl hnil, ?_⟩
    rw [hone] at hloop
    revert hloop
    cases w.loop with
    | boot | owned d token => exact fun hno => nomatch hno.1
    | releasing => exact fun hno => nomatch hno
    | _ => exact fun _ _ => rfl
  | loop => exact registered_advance h hstep
  | loopError =>
    obtain ⟨loop, hfailed, rfl⟩ := map_eq_some_iff.mp hstep
    refine ⟨h.one, ?_⟩
    unfold Loop.failed at hfailed
    split at hfailed
    case h_1 hl | h_2 hl =>
      rw [hl] at hloop
      exact some.inj hfailed ▸ hloop
    case h_3 hl =>
      rw [hl] at hloop
      exact some.inj hfailed ▸ hloop.1
    case h_4 => cases hfailed
  | exhausted =>
    split at hstep
    · next hl hfree =>
      cases hstep
      exact ⟨h.one, fun _ => hfree⟩
    · cases hstep
  | dispatch d =>
    split at hstep
    · next hl =>
      rw [hl] at hloop
      cases hstep
      refine ⟨h.one, ?_⟩
      split
      · exact hloop
      · exact hloop
    · cases hstep
  | cancelJob =>
    split at hstep
    · next hl =>
      rw [hl] at hloop
      split at hstep
      · cases hstep
        exact ⟨h.one, hloop⟩
      · exact some.inj hstep ▸ h
    · cases hstep
  | eventAck i =>
    split at hstep
    · obtain ⟨r, row, t, hr, -, -, rfl⟩ := moved_eq_some hstep
      exact registered_put t h hr
    · cases hstep
  | crash =>
    cases hstep
    exact ⟨.inl rfl, rfl, rfl⟩

theorem registered_fresh : Registered fresh := ⟨.inl rfl, rfl, rfl⟩

/-- **ONE TASK A JOB**: in every run of the process, crashes, duplicate dispatches and cancellations
    included, at most one task executes the job, and the registry has its token. -/
theorem one_run (as : List Act) : Along step
    (fun w => w.runs = [] ∨ ∃ r, w.runs = [r] ∧ w.cancellations = some r.token) fresh as :=
  (inv_along_admitted (fun _ _ _ h _ hs => registered_step h hs) as fresh registered_fresh
    (admitted_true as fresh)).mono (fun _ h => h.one)

/-! ### A job on its way -/

/-- The process starts, the dispatch arrives, and the run journals its first event. -/
def accepting : List Act :=
  [.loop, .dispatch plainDispatch, .loop, .loop, .run 0 .advance, .run 0 .advance, .run 0 (.emit 1)]

/-- `send_job_event` with a Hub that acknowledges at once. -/
def acknowledged : List Act :=
  [.run 0 .advance, .run 0 .transmit, .eventAck 0, .run 0 .advance]

end Process
