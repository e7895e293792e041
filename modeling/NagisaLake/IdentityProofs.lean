import NagisaLake.ProcessProofs

/-! # Event identity — a sequence names one event, whatever crashes

The sequence counter lives in a run and dies with it; the next run starts
again from the journal's `event_sequence`.  Nothing but the validation in
`SetPendingEvent` keeps a number from being used twice, and it is enough:
an event is journalled before it is sent, and the journal takes a sequence
only if it is new or if the very same event is pending.

  * `quiet_or_journals` — what a move of a run can do to events: send the
    one in flight, or journal one;
  * `event_identity` — so the events ever sent agree wherever their
    sequences do, up to `i64::MAX`, and the journal's counter only grows;
  * `sequence_reused` — above `i64::MAX` the journal's column stands
    still, and a crash makes a run count the same number again. -/

namespace Identity

open Jobs Journal Runner Runs Process List Option

/-! ## What a move does to events -/

/-- The event `send_job_event` is busy with. -/
def inFlight : Pc → Option JobEvent
  | .sending e _ _ => some e
  | _ => none

/-- A move that journals no event: what it sends was in flight. -/
structure Quiet (s t : RunnerState) : Prop where
  sequence : t.row.eventSequence = s.row.eventSequence
  pending : ∀ e, t.row.pendingEvent = some e → s.row.pendingEvent = some e
  sent : ∀ e, .transmitted e ∈ t.trace → .transmitted e ∈ s.trace ∨ inFlight s.pc = some e
  flying : ∀ e, inFlight t.pc = some e → inFlight s.pc = some e

/-- A move that journals an event and puts it in flight. -/
def Journals (s t : RunnerState) : Prop :=
  ∃ e state, setPendingEvent s.row e state = .ok t.row ∧ t.trace = s.trace ∧ inFlight t.pc = some e

variable {s t : RunnerState} {e : JobEvent} {w w' : Worker}

theorem Quiet.of_eq (hrow : t.row = s.row) (htrace : t.trace = s.trace)
    (hpc : ∀ e, inFlight t.pc = some e → inFlight s.pc = some e) :
    Quiet s t where
  sequence := by rw [hrow]
  pending := by
    intro e he
    rwa [hrow] at he
  sent := by
    intro e he
    rw [htrace] at he
    exact .inl he
  flying := hpc

/-- The usual move: to another place, with no event in hand. -/
theorem Quiet.goto (hrow : t.row = s.row) (htrace : t.trace = s.trace)
    (hpc : inFlight t.pc = none) : Quiet s t := by
  refine .of_eq hrow htrace ?_
  intro e he
  rw [hpc] at he
  cases he

theorem sendErr_frame (s : RunnerState) (after : After) (error : RuntimeError) :
    (sendErr s after error).row = s.row ∧ (sendErr s after error).trace = s.trace
      ∧ inFlight (sendErr s after error).pc = none := by
  cases after <;> exact ⟨rfl, rfl, rfl⟩

theorem resume_frame (s : RunnerState) (after : After) :
    (resume s after).row = s.row ∧ (resume s after).trace = s.trace
      ∧ inFlight (resume s after).pc = none := by
  cases after <;> exact ⟨rfl, rfl, rfl⟩

theorem quiet_observe (s : RunnerState) (w : Watch)
    (status : ComfyPromptStatus) (now eventAt : Nat) :
    Quiet s (observe s w status now eventAt) := by
  rw [observe]
  split
  · exact .of_eq rfl rfl fun _ => id
  dsimp only
  split
  all_goals exact .goto rfl rfl rfl

theorem quiet_sendErr {s' : RunnerState} (after : After)
    (error : RuntimeError) (hrow : s'.row = s.row)
    (htrace : s'.trace = s.trace) : Quiet s (sendErr s' after error) := by
  obtain ⟨hr, ht, hpc⟩ := sendErr_frame s' after error
  exact .goto (hr.trans hrow) (ht.trans htrace) hpc

/-- `send_job_event` journals the event or goes nowhere. -/
theorem sendJobEvent_or {s' : RunnerState} (e : JobEvent)
    (state : Option JobState) (after : After) (hrow : s'.row = s.row)
    (htrace : s'.trace = s.trace) :
    Quiet s (sendJobEvent s' e state after) ∨ Journals s (sendJobEvent s' e state after) := by
  rw [sendJobEvent]
  split
  · next row hok =>
    rw [hrow] at hok
    exact .inr ⟨e, state, hok, htrace, rfl⟩
  · exact .inl (quiet_sendErr after _ hrow htrace)

/-- `send_job_event` goes on with its event. -/
theorem quiet_phase {after : After} {phase : Phase} (phase' : Phase)
    (hpc : s.pc = .sending e after phase) :
    Quiet s { s with pc := .sending e after phase' } := by
  refine .of_eq rfl rfl ?_
  intro e' he'
  rw [hpc]
  exact he'

/-- A transmission sends the event in flight. -/
theorem quiet_transmit {after : After} {w : Waiter}
    (hpc : s.pc = .sending e after (.transmitting w)) :
    Quiet s { s with
      trace := s.trace ++ [.transmitted e]
      pc := .sending e after (.awaiting w) } where
  sequence := rfl
  pending := fun _ => id
  sent := by
    intro e' he'
    rw [hpc]
    rcases mem_append.mp he' with he' | he'
    · exact .inl he'
    · have := Trace.transmitted.inj (mem_singleton.mp he')
      exact .inr (congrArg some this.symm)
  flying := by
    intro e' he'
    rw [hpc]
    exact he'

/-- ComfyUI's prompt id is no event. -/
theorem quiet_prompted (s : RunnerState) (promptId : String) : Quiet s { s with
      row := setPromptId s.row promptId
      pc := .prompted promptId } where
  sequence := rfl
  pending := fun _ => id
  sent := fun _ he => .inl he
  flying := nofun

/-- Nor do the other entries of the trace send anything. -/
theorem mem_transmitted_append {l : List Trace} {x : Trace}
    (hx : x ≠ .transmitted e) (h : .transmitted e ∈ l ++ [x]) :
    .transmitted e ∈ l := by
  rcases mem_append.mp h with h | h
  · exact h
  · exact absurd (mem_singleton.mp h).symm hx

theorem quiet_gaveUp (s : RunnerState) {x : Trace} (hx : ∀ e, x ≠ .transmitted e) (after : After)
    (error : RuntimeError) : Quiet s (sendErr { s with trace := s.trace ++ [x] } after error) := by
  obtain ⟨hr, ht, hpc⟩ := sendErr_frame { s with trace := s.trace ++ [x] } after error
  constructor
  · rw [hr]
  · intro e' he'
    rwa [hr] at he'
  · intro e' he'
    rw [ht] at he'
    exact .inl (mem_transmitted_append (hx e') he')
  intro e' he'
  rw [hpc] at he'
  cases he'

theorem quiet_acknowledged (s : RunnerState) (e : JobEvent) (after : After) :
    Quiet s (resume { s with
      row := clearPendingEvent s.row e.sequence
      trace := s.trace ++ [.acknowledged e] } after) := by
  obtain ⟨hr, ht, hpc⟩ := resume_frame { s with
      row := clearPendingEvent s.row e.sequence
      trace := s.trace ++ [.acknowledged e] } after
  have hclear : (clearPendingEvent s.row e.sequence).eventSequence = s.row.eventSequence
      ∧ ∀ e', (clearPendingEvent s.row e.sequence).pendingEvent = some e' →
          s.row.pendingEvent = some e' := by
    rw [clearPendingEvent]
    split
    · exact ⟨rfl, by simp⟩
    · exact ⟨rfl, fun _ => id⟩
  constructor
  · rw [hr]
    exact hclear.1
  · intro e' he'
    rw [hr] at he'
    exact hclear.2 e' he'
  · intro e' he'
    rw [ht] at he'
    exact .inl (mem_transmitted_append (x := .acknowledged e) (by simp) he')
  intro e' he'
  rw [hpc] at he'
  cases he'

/-- **A MOVE AND EVENTS**: it is quiet, or it journals one event. -/
theorem quiet_or_journals {a : Runner.Act} (h : move s s.pc a = some t) :
    Quiet s t ∨ Journals s t := by
  unfold move at h
  repeat' split at h
  all_goals first
    | rw [← some.inj h]
      first
        | exact .inl (.goto rfl rfl rfl)
        | exact sendJobEvent_or _ _ _ rfl rfl
        | exact .inl (quiet_phase _ ‹_›)
        | exact .inl (quiet_transmit ‹_›)
        | exact .inl (quiet_prompted s _)
        | exact .inl (quiet_gaveUp s (by simp) _ _)
        | exact .inl (quiet_acknowledged s _ _)
        | exact .inl (quiet_observe s _ _ _ _)
    | cases h

/-- A failed journal call leaves the events alone. -/
theorem quiet_ioFailed {error : String} (h : ioFailed s error = some t) : Quiet s t := by
  unfold ioFailed at h
  split at h
  · obtain ⟨-, rfl⟩ := of_guard_not h
    exact quiet_sendErr .replayed _ rfl rfl
  · next after _ =>
    cases h
    exact quiet_sendErr after _ rfl rfl
  · cases h
    exact .goto rfl rfl rfl
  · cases h
    exact quiet_gaveUp s (by simp) _ _
  · cases h

/-! ## What a step of the worker does to events -/

/-- The journal's `event_sequence` of the job. -/
def eventSequence (w : Worker) : Nat := w.row.elim 0 (·.eventSequence)

/-- The events the worker has sent or may still send as they are. -/
inductive Carried (w : Worker) (e : JobEvent) : Prop where
  | sent (h : .transmitted e ∈ w.log)
  | flying {r : Run} (hr : r ∈ w.runs) (h : inFlight r.pc = some e)
  | pending {row : JobRecord} (hrow : w.row = some row)
      (h : row.pendingEvent = some e)

/-- What a step may do: carry no new event, or journal one. -/
inductive Effect (w w' : Worker) : Prop where
  | quiet (hseq : eventSequence w' = eventSequence w)
      (hsub : ∀ e, Carried w' e → Carried w e)
  | journals {row row' : JobRecord} {e : JobEvent} {state : Option JobState}
      (hrow : w.row = some row) (hrow' : w'.row = some row')
      (hset : setPendingEvent row e state = .ok row')
      (hsub : ∀ e', Carried w' e' → Carried w e' ∨ e' = e)

variable {row : JobRecord}

/-- A move of a run, seen from the worker. -/
theorem effect_put {i : Nat} {r : Run} (hr : w.runs[i]? = some r) (hrow : w.row = some row)
    (h : Quiet (w.view row r) t ∨ Journals (w.view row r) t) :
    Effect w (w.put i r t) := by
  have hmem := mem_of_getElem? hr
  rcases h with hq | ⟨e, state, hset, htrace, hpc⟩
  · refine .quiet ?_ ?_
    · show t.row.eventSequence = w.row.elim 0 (·.eventSequence)
      rw [hq.sequence, hrow]
      rfl
    intro e he
    cases he with
    | sent he =>
      rcases hq.sent e he with he | he
      · exact .sent he
      · exact .flying hmem he
    | flying hr' he =>
      rcases mem_or_eq_of_mem_set hr' with hr' | rfl
      · exact .flying hr' he
      · exact .flying hmem (hq.flying e he)
    | pending hrow' he =>
      cases hrow'
      exact .pending hrow (hq.pending e he)
  · refine .journals hrow rfl hset ?_
    intro e' he'
    cases he' with
    | sent he' =>
      change _ ∈ t.trace at he'
      rw [htrace] at he'
      exact .inl (.sent he')
    | flying hr' he' =>
      rcases mem_or_eq_of_mem_set hr' with hr' | rfl
      · exact .inl (.flying hr' he')
      rw [hpc] at he'
      exact .inr (some.inj he').symm
    | pending hrow' he' =>
      cases hrow'
      rw [(setPendingEvent_ok hset).2.2] at he'
      exact .inr (some.inj he').symm

/-- The row keeps its sequence and its pending event. -/
def RowKept (row row' : Option JobRecord) : Prop :=
  row'.elim 0 (·.eventSequence) = row.elim 0 (·.eventSequence)
    ∧ row'.bind (·.pendingEvent) = row.bind (·.pendingEvent)

/-- `UpsertDispatch` keeps what the journal knows of events. -/
theorem rowKept_upsertDispatch {row : Option JobRecord} {d : DispatchJob}
    {record : JobRecord} (h : upsertDispatch row d = .ok record) :
    RowKept row (some record) := by
  cases row with
  | none =>
    cases h
    exact ⟨rfl, rfl⟩
  | some r =>
    obtain ⟨-, hseq, hpending⟩ := redispatch_frame h
    exact ⟨hseq, hpending⟩

/-- A step that moves no run carries nothing new. -/
theorem effect_of_kept (hlog : w'.log = w.log) (hrow : RowKept w.row w'.row)
    (hruns : ∀ r' ∈ w'.runs, ∀ e, inFlight r'.pc = some e →
      ∃ r ∈ w.runs, inFlight r.pc = some e) : Effect w w' := by
  refine .quiet hrow.1 ?_
  intro e he
  cases he with
  | sent he =>
    rw [hlog] at he
    exact .sent he
  | flying hr' he =>
    obtain ⟨r, hr, he⟩ := hruns _ hr' e he
    exact .flying hr he
  | pending hrow' he =>
    have hbind := hrow.2
    rw [hrow'] at hbind
    obtain ⟨row, hrow, he⟩ :=
      bind_eq_some_iff.mp (hbind.symm.trans he)
    exact .pending hrow he

/-- Nor does one that starts a run: it has no event yet. -/
theorem flying_new {rs : List Run} {record : JobRecord} {token : Nat} :
    ∀ r' ∈ rs ++ [.new record token], ∀ e, inFlight r'.pc = some e →
      ∃ r ∈ rs, inFlight r.pc = some e := by
  intro r' hr' e he
  rcases mem_append.mp hr' with hr' | hr'
  · exact ⟨r', hr', he⟩
  · rw [mem_singleton.mp hr'] at he
    cases he

theorem inFlight_dropWaiter (pc : Pc) : inFlight (dropWaiter pc) = inFlight pc := by
  unfold dropWaiter
  split <;> rfl

theorem effect_advance (h : w.advance = some w') : Effect w w' := by
  have hself : RowKept w.row w.row := ⟨rfl, rfl⟩
  have hall : ∀ r' ∈ w.runs, ∀ e, inFlight r'.pc = some e →
      ∃ r ∈ w.runs, inFlight r.pc = some e := fun r hr _ he => ⟨r, hr, he⟩
  unfold Worker.advance at h
  repeat' split at h
  all_goals cases h
  -- a branch keeps the row or upserts it, and keeps the runs or adds one
  all_goals try first
    | exact effect_of_kept rfl hself hall
    | exact effect_of_kept rfl hself flying_new
    | exact effect_of_kept rfl (rowKept_upsertDispatch (by assumption)) hall
    | exact effect_of_kept rfl (rowKept_upsertDispatch (by assumption)) flying_new
  refine effect_of_kept rfl hself ?_
  intro r' hr' e he
  obtain ⟨r, hr, rfl⟩ := mem_map.mp hr'
  rw [inFlight_dropWaiter] at he
  exact ⟨r, hr, he⟩

/-- **ONE STEP AND EVENTS**: every step of the worker, crashes included. -/
theorem effect_step {a : Process.Act} (h : Process.step w a = some w') : Effect w w' := by
  have hself : RowKept w.row w.row := ⟨rfl, rfl⟩
  have hall : ∀ r' ∈ w.runs, ∀ e, inFlight r'.pc = some e →
      ∃ r ∈ w.runs, inFlight r.pc = some e := fun r hr _ he => ⟨r, hr, he⟩
  cases a with rw [Process.step] at h
  | run i act =>
    split at h
    · cases h
    · obtain ⟨r, row, t, hr, hrow, ht, rfl⟩ := moved_eq_some h
      exact effect_put hr hrow (quiet_or_journals ht)
  | runError i error =>
    obtain ⟨r, row, t, hr, hrow, ht, rfl⟩ := moved_eq_some h
    exact effect_put hr hrow (.inl (quiet_ioFailed ht))
  | finish i =>
    obtain ⟨r, -, -, rfl⟩ := finish_eq_some h
    exact effect_of_kept rfl hself fun r' hr' => hall r' (mem_of_mem_eraseIdx hr')
  | loop => exact effect_advance h
  | loopError =>
    obtain ⟨loop, -, rfl⟩ := map_eq_some_iff.mp h
    exact effect_of_kept rfl hself hall
  | exhausted | dispatch d =>
    split at h
    · cases h
      exact effect_of_kept rfl hself hall
    · cases h
  | cancelJob =>
    split at h
    · split at h
      all_goals
        cases h
        exact effect_of_kept rfl hself hall
    · cases h
  | eventAck i =>
    split at h
    · obtain ⟨r, row, t, hr, hrow, ht, rfl⟩ := moved_eq_some h
      exact effect_put hr hrow (quiet_or_journals ht)
    · cases h
  | crash =>
    cases h
    exact effect_of_kept rfl hself fun r' hr' => absurd hr' not_mem_nil

/-! ## A sequence names one event -/

/-- The journal's counter is ahead of every event the worker carries, and
    below `i64::MAX` no two of them share a sequence. -/
structure Identified (w : Worker) : Prop where
  bounded : eventSequence w ≤ i64Max
  journalled : ∀ e, Carried w e → clampI64 e.sequence ≤ eventSequence w
  identical : ∀ e e', Carried w e → Carried w e' →
    e.sequence = e'.sequence → e.sequence ≤ i64Max → e = e'

/-- A journalled event moves the counter up to itself. -/
theorem eventSequence_journals {row' : JobRecord} {state : Option JobState}
    (hrow : w.row = some row) (hrow' : w'.row = some row')
    (hset : setPendingEvent row e state = .ok row') :
    eventSequence w = row.eventSequence ∧ eventSequence w' = clampI64 e.sequence := by
  rw [eventSequence, eventSequence, hrow, hrow', (setPendingEvent_ok hset).2.2]
  exact ⟨rfl, rfl⟩

theorem eventSequence_effect (h : Effect w w') (hle : eventSequence w ≤ i64Max) :
    eventSequence w ≤ eventSequence w' ∧ eventSequence w' ≤ i64Max := by
  cases h with
  | quiet hseq _ =>
    rw [hseq]
    exact ⟨Nat.le_refl _, hle⟩
  | journals hrow hrow' hset _ =>
    obtain ⟨heq, heq'⟩ := eventSequence_journals hrow hrow' hset
    have hmono := (setPendingEvent_ok hset).1
    rw [← heq] at hmono
    rw [heq', clampI64]
    exact ⟨Nat.le_min.mpr ⟨hmono, hle⟩, Nat.min_le_right ..⟩

/-- The event a step journals is new, or it was carried already. -/
theorem eq_of_journals {row' : JobRecord} {e' : JobEvent}
    {state : Option JobState} (h : Identified w) (hrow : w.row = some row)
    (hrow' : w'.row = some row')
    (hset : setPendingEvent row e state = .ok row') (he' : Carried w e')
    (hseq : e'.sequence = e.sequence) (hle : e.sequence ≤ i64Max) :
    e' = e := by
  rcases lt_or_pending_of_setPendingEvent hset with hlt | hpending
  · -- the journal has passed every sequence the worker carries
    have hold := h.journalled e' he'
    rw [(eventSequence_journals hrow hrow' hset).1, clampI64, hseq, Nat.min_eq_left hle] at hold
    omega
  · exact h.identical e' e he' (.pending hrow hpending) hseq (hseq ▸ hle)

/-- **ONE STEP** keeps sequences names. -/
theorem identified_effect (h : Identified w) (heff : Effect w w') : Identified w' := by
  obtain ⟨hmono, hbound⟩ := eventSequence_effect heff h.bounded
  cases heff with
  | quiet hseq hsub =>
    refine ⟨hbound, ?_, ?_⟩
    · intro e he
      rw [hseq]
      exact h.journalled e (hsub e he)
    · intro e e' he he'
      exact h.identical e e' (hsub e he) (hsub e' he')
  | @journals row row' e state hrow hrow' hset hsub =>
    refine ⟨hbound, ?_, ?_⟩
    · intro e' he'
      rcases hsub e' he' with he' | rfl
      · exact Nat.le_trans (h.journalled e' he') hmono
      · exact Nat.le_of_eq (eventSequence_journals hrow hrow' hset).2.symm
    · intro e₁ e₂ h₁ h₂ hseq hle
      rcases hsub e₁ h₁ with h₁ | rfl
      · rcases hsub e₂ h₂ with h₂ | rfl
        · exact h.identical e₁ e₂ h₁ h₂ hseq hle
        · exact eq_of_journals h hrow hrow' hset h₁ hseq (hseq ▸ hle)
      rcases hsub e₂ h₂ with h₂ | rfl
      · exact (eq_of_journals h hrow hrow' hset h₂ hseq.symm hle).symm
      · rfl

theorem identified_step {a : Process.Act} (h : Identified w)
    (hstep : Process.step w a = some w') : Identified w' :=
  identified_effect h (effect_step hstep)

theorem identified_fresh : Identified fresh where
  bounded := Nat.zero_le _
  journalled := by
    intro e he
    cases he with
    | sent he => exact absurd he not_mem_nil
    | flying hr _ => exact absurd hr not_mem_nil
    | pending hrow _ => cases hrow
  identical := by
    intro e e' he
    cases he with
    | sent he => exact absurd he not_mem_nil
    | flying hr _ => exact absurd hr not_mem_nil
    | pending hrow _ => cases hrow

theorem identified_of_reachable (h : Reachable Process.step fresh w) : Identified w :=
  inv_reachable (fun _ _ _ h hstep => identified_step h hstep) identified_fresh h

/-- **EVENT IDENTITY**: however often the process crashes and whatever the Hub sends, the events
    ever transmitted for the job with one attempt and one sequence up to `i64::MAX` are one event,
    and the journal's `event_sequence` never decreases. -/
theorem event_identity {w : Worker} (hw : Reachable Process.step fresh w) :
    (∀ e e', .transmitted e ∈ w.log → .transmitted e' ∈ w.log →
      e.attempt = e'.attempt → e.sequence = e'.sequence →
      e.sequence ≤ i64Max → e = e')
    ∧ ∀ acts w', run Process.step w acts = some w' → eventSequence w ≤ eventSequence w' := by
  have hid := identified_of_reachable hw
  constructor
  · intro e e' he he' _
    exact hid.identical e e' (.sent he) (.sent he')
  intro acts w' hrun
  have hgrown : Identified w' ∧ eventSequence w ≤ eventSequence w' :=
    inv_run (I := fun v => Identified v ∧ eventSequence w ≤ eventSequence v)
      (fun u a v h hstep => ⟨identified_step h.1 hstep, Nat.le_trans h.2
          (eventSequence_effect (effect_step hstep) h.1.bounded).1⟩)
      ⟨hid, Nat.le_refl _⟩ hrun
  exact hgrown.2

/-! ### A retransmission and a replay -/

/-- `Accepted` is sent, sent again after the time limit, and a third time by
    the process that follows a crash. -/
def resent : List Process.Act :=
  accepting ++ [.run 0 .advance, .run 0 .transmit, .run 0 .timeout,
    .run 0 .advance, .run 0 .transmit, .crash, .loop, .loop,
    .run 0 .advance, .run 0 .advance, .run 0 .transmit]

theorem resent_identity : ∃ w, Reachable Process.step fresh w ∧ w.log.length = 3
    ∧ (∀ e e', .transmitted e ∈ w.log → .transmitted e' ∈ w.log →
      e.attempt = e'.attempt → e.sequence = e'.sequence →
      e.sequence ≤ i64Max → e = e') :=
  ⟨_, ⟨resent, rfl⟩, rfl, (event_identity ⟨resent, rfl⟩).1⟩

/-! ## Beyond `i64::MAX`

The run below reports progress `2 ^ 63 - 2` times.  Its last event has the
sequence `2 ^ 63`, which the journal stores as `i64::MAX`; after a crash
the next run counts from there. -/

/-- The row of a job that is running and has nothing pending. -/
def quietRow (n : Nat) : JobRecord :=
  { JobRecord.received plainDispatch with
    state := .running
    promptId := some "prompt"
    eventSequence := clampI64 n }

/-- A worker with one run, at the place `pc`. -/
def placed (copy : JobRecord) (prompts : Nat) (log : List Trace) (n : Nat)
    (row : JobRecord) (pc : Pc) : Worker where
  row := some row
  cancellations := some 0
  tokens := [false]
  runs := [⟨copy, 0, n, pc⟩]
  loop := .idle
  log := log
  prompts := prompts

/-- The `Progress` event of a run. -/
def progressEvent (copy : JobRecord) (n : Nat) (promptId message : String)
    (unixMs : Int) : JobEvent where
  jobId := copy.dispatch.jobId
  attempt := copy.dispatch.attempt
  sequence := n
  kind := .progress
  progress := none
  promptId := some promptId
  message := message
  unixMs := unixMs

section Rounds

variable {copy : JobRecord} {prompts n : Nat} {log : List Trace} {w : Watch}

/-- A status other than the last one. -/
def otherStatus : ComfyPromptStatus → ComfyPromptStatus
  | .running => .queued 0
  | _ => .running

theorem observe_changed {status : ComfyPromptStatus} (now eventAt : Nat)
    (hknown : status ≠ .unknown) (hne : status ≠ w.lastStatus) :
    observe s w status now eventAt = { s with
      pc := .emit (progressUpdate w.promptId (comfyStatusMessage status (now - now)))
        (.progress { w with
          lastStatus := status
          statusSince := now
          lastStatusEvent := some eventAt }) } := by
  rw [observe, if_neg hknown]
  dsimp only
  rw [if_pos hne, if_pos (.inl hne)]

/-- ComfyUI reports another status, and the wait loop wants to tell. -/
theorem step_status (hopen : w.statusChannelOpen = true) :
    ∃ message w', w'.statusChannelOpen = true ∧
      Process.step (placed copy prompts log n (quietRow n) (.waiting w))
          (.run 0 (.status (otherStatus w.lastStatus) 0 0))
        = some (placed copy prompts log n (quietRow n)
          (.emit (progressUpdate w.promptId message) (.progress w'))) := by
  have hother : otherStatus w.lastStatus ≠ .unknown ∧ otherStatus w.lastStatus ≠ w.lastStatus := by
    cases w.lastStatus <;> exact ⟨nofun, nofun⟩
  refine ⟨comfyStatusMessage (otherStatus w.lastStatus) 0,
    { w with
      lastStatus := otherStatus w.lastStatus
      statusSince := 0
      lastStatusEvent := some 0 }, hopen, ?_⟩
  show (if w.statusChannelOpen then some (observe _ w _ 0 0)
    else none).map _ = _
  rw [if_pos hopen, observe_changed 0 0 hother.1 hother.2]
  rfl

/-- The event is journalled under the next number, which the journal's column
    may not be able to hold. -/
theorem step_emit (promptId message : String) (unixMs : Int) (hn : n + 1 ≤ u64Max) :
    Process.step (placed copy prompts log n (quietRow n)
        (.emit (progressUpdate promptId message) (.progress w)))
        (.run 0 (.emit unixMs))
      = some (placed copy prompts log (n + 1)
        { quietRow (n + 1) with
          pendingEvent := some (progressEvent copy (n + 1) promptId message unixMs) }
        (.sending (progressEvent copy (n + 1) promptId message unixMs) (.progress w) .head)) := by
  have hsucc : saturatingSucc n = n + 1 := Nat.min_eq_left hn
  have hset : setPendingEvent (quietRow n)
      (progressEvent copy (n + 1) promptId message unixMs) (some .running)
      = .ok { quietRow (n + 1) with
          pendingEvent := some (progressEvent copy (n + 1) promptId message unixMs) } :=
    setPendingEvent_of_lt (Nat.lt_succ_of_le (clampI64_le n)) rfl
  show (some (sendJobEvent
    { row := quietRow n
      record := copy
      sequence := saturatingSucc n
      cancelled := false
      trace := log
      pc := .emit (progressUpdate promptId message) (.progress w) }
    (progressEvent copy (saturatingSucc n) promptId message unixMs)
    (some .running) (.progress w))).map _ = _
  rw [hsucc, sendJobEvent]
  simp only [hset]
  rfl

/-- It is sent, acknowledged and cleared. -/
theorem run_deliver (promptId message : String) (unixMs : Int) :
    let e := progressEvent copy n promptId message unixMs
    run Process.step (placed copy prompts log n
          { quietRow n with pendingEvent := some e }
          (.sending e (.progress w) .head))
        [.run 0 .advance, .run 0 .transmit, .eventAck 0, .run 0 .advance]
      = some (placed copy prompts (log ++ [.transmitted e] ++ [.acknowledged e]) n (quietRow n)
        (.waiting w)) := by
  intro e
  have hclear : clearPendingEvent { quietRow n with pendingEvent := some e } n
      = quietRow n := clearPendingEvent_of_eq rfl
  show some (placed copy prompts (log ++ [.transmitted e] ++ [.acknowledged e]) n
    (clearPendingEvent { quietRow n with pendingEvent := some e } n)
    (.waiting w)) = _
  rw [hclear]

/-- **ONE ROUND**: one more event is sent, under the next number. -/
theorem reachable_round (unixMs : Int) (hn : n + 1 ≤ u64Max) (hopen : w.statusChannelOpen = true)
    (hr : Reachable Process.step fresh (placed copy prompts log n (quietRow n) (.waiting w))) :
    ∃ e log' w', w'.statusChannelOpen = true ∧ Reachable Process.step fresh
        (placed copy prompts log' (n + 1) (quietRow (n + 1)) (.waiting w'))
      ∧ e.attempt = copy.dispatch.attempt ∧ e.sequence = n + 1
      ∧ e.unixMs = unixMs ∧ .transmitted e ∈ log' ∧ log ⊆ log' := by
  obtain ⟨message, w', hopen', hstatus⟩ := step_status hopen
  have hr' := (hr.tail hstatus).tail (step_emit w.promptId message unixMs hn)
  refine ⟨progressEvent copy (n + 1) w.promptId message unixMs, _, w', hopen',
    hr'.trans ⟨_, run_deliver _ _ _⟩, rfl, rfl, rfl, ?_, ?_⟩
  · exact mem_append_left _ (mem_append_right _ mem_cons_self)
  · intro x hx
    exact mem_append_left _ (mem_append_left _ hx)

/-- Progress may be reported any number of times. -/
theorem reachable_rounds (hopen : w.statusChannelOpen = true) (hr : Reachable Process.step fresh
      (placed copy prompts log n (quietRow n) (.waiting w))) :
    ∀ m, n + m ≤ u64Max → ∃ log' w', w'.statusChannelOpen = true ∧ Reachable Process.step fresh
        (placed copy prompts log' (n + m) (quietRow (n + m)) (.waiting w')) := by
  intro m
  induction m with
  | zero =>
    intro _
    exact ⟨log, w, hopen, hr⟩
  | succ m ih =>
    intro hm
    obtain ⟨log₁, w₁, hopen₁, hr₁⟩ := ih (by omega)
    obtain ⟨-, log₂, w₂, hopen₂, hr₂, -⟩ :=
      reachable_round 0 hm hopen₁ hr₁
    exact ⟨log₂, w₂, hopen₂, hr₂⟩

end Rounds

/-- A run up to its wait loop. -/
def waitingRun : List Process.Act :=
  accepting ++ acknowledged ++ [.run 0 .permit, .run 0 .advance, .run 0 (.inputs (.ok ())),
      .run 0 (.rendered (.ok ())), .run 0 (.prompted (.ok "prompt")),
      .run 0 .advance, .run 0 (.emit 1)] ++ acknowledged
    ++ [.run 0 .advance]

/-- The run's own copy of the record. -/
def firstCopy : JobRecord :=
  { JobRecord.received plainDispatch with state := .running }

/-- The locals of the wait loop when it begins. -/
def firstWatch : Watch := ⟨"prompt", .unknown, 0, none, true⟩

theorem waitingRun_reachable : ∃ log, Reachable Process.step fresh
    (placed firstCopy 1 log 2 (quietRow 2) (.waiting firstWatch)) :=
  ⟨_, waitingRun, rfl⟩

/-- The process crashes, and the next one takes the job up again. -/
def resumed : List Process.Act :=
  [.crash, .loop, .loop, .run 0 .advance, .run 0 .advance, .run 0 .permit,
    .run 0 .advance, .run 0 .advance, .run 0 .advance]

/-- It counts from the journal's number. -/
theorem run_resumed (copy : JobRecord) (prompts n : Nat) (log : List Trace) (w : Watch) :
    run Process.step (placed copy prompts log n (quietRow n) (.waiting w)) resumed
      = some (placed (quietRow n) 0 log (clampI64 n) (quietRow n) (.waiting firstWatch)) := rfl

/-- **A NUMBER USED TWICE**: after `2 ^ 63` events and one crash, two events
    with the same attempt and sequence have been sent. -/
theorem sequence_reused : ¬ ∀ w, Reachable Process.step fresh w →
      ∀ e e', .transmitted e ∈ w.log → .transmitted e' ∈ w.log →
        e.attempt = e'.attempt → e.sequence = e'.sequence → e = e' := by
  intro hall
  obtain ⟨log₁, hr₁⟩ := waitingRun_reachable
  obtain ⟨log₂, w₂, hopen₂, hr₂⟩ :=
    reachable_rounds rfl hr₁ (i64Max - 2) (by decide)
  obtain ⟨e, log₃, w₃, -, hr₃, hattempt, hseq, hms, hsent, -⟩ :=
    reachable_round 1 (by decide) hopen₂ hr₂
  -- the crash takes the counter back to `i64::MAX`
  have hr₄ : Reachable Process.step fresh
      (placed (quietRow (i64Max + 1)) 0 log₃ i64Max (quietRow i64Max)
        (.waiting firstWatch)) := hr₃.trans ⟨resumed, run_resumed ..⟩
  obtain ⟨e', log₅, w₅, -, hr₅, hattempt', hseq', hms', hsent', hsub⟩ :=
    reachable_round 2 (by decide) rfl hr₄
  have heq := hall _ hr₅ e e' (hsub hsent) hsent'
    (hattempt.trans hattempt'.symm) (hseq.trans hseq'.symm)
  rw [heq, hms'] at hms
  exact absurd hms (by decide)

end Identity
