import NagisaLake.ProcessProofs

/-! # One prompt for a job — and the stale record that asks again

A job must be submitted to ComfyUI at most once by one worker process.
`accept_dispatch` reads the journal before it asks the registry, so the
record it hands to `spawn_record` may be old by the time the entry is
free.  What protects it is that a run can hardly end in between: its last
event needs an acknowledgement, and the task that would deliver it is the
very one that is busy.

  * `Shift` — how a move changes the place of a run with respect to its
    request to ComfyUI;
  * `Young` — a run that has asked while the connection's task is busy
    cannot get past its `Running` event;
  * `prompted_once` — so no second request is made unless a run ends
    without an acknowledgement, which leaves the row terminal;
  * `overtaken_prompts_twice` — `Failed`, given up by a cancelled job's
    send loop, is such an end. -/

namespace Prompts

open Jobs Journal Runner Runs Process List Option

/-! ## Places of a run -/

/-- Where a run is with respect to its request to ComfyUI. -/
inductive Place where
  /-- before it looks for a prompt id -/
  | early
  /-- it has none and prepares a request -/
  | preparing
  /-- the request is out -/
  | asking
  /-- it has a prompt id -/
  | past
  /-- it is over or about to report an error -/
  | ended
  deriving DecidableEq

/-- The place of an emission. -/
def afterPlace : After → Place
  | .replayed => .early
  | .accepted => .early
  | .final => .ended
  | _ => .past

/-- The place of a program counter. -/
def place : Pc → Place
  | .entry => .early
  | .replayed => .early
  | .acquire => .early
  | .acquired => .early
  | .inputs => .preparing
  | .render => .preparing
  | .prompt => .asking
  | .emit _ after => afterPlace after
  | .sending _ after _ => afterPlace after
  | .failed _ => .ended
  | .returned => .ended
  | _ => .past

/-- What the row keeps in every move but the one that stores a prompt id. -/
structure Kept (s t : RunnerState) : Prop where
  promptId : t.row.promptId = s.row.promptId
  wellFormed : WellFormed s.row → WellFormed t.row
  state : t.row.state = s.row.state ∨ ∃ u after, s.pc = .emit u after ∧ t.row.state = u.state
        ∧ s.row.state.canTransitionTo u.state = true

/-- What a move does to the place. -/
inductive Shift (s t : RunnerState) : Prop where
  | stay (hplace : place t.pc = place s.pc) (hkept : Kept s t)
  | ended (hplace : place t.pc = .ended) (hkept : Kept s t)
  | prepare (hnone : s.record.promptId = none)
      (hfrom : place s.pc = .early) (hplace : place t.pc = .preparing)
      (hkept : Kept s t)
  | ask (hfrom : s.pc = .render) (hpc : t.pc = .prompt) (hkept : Kept s t)
  | answered {promptId : String} (hfrom : s.pc = .prompt)
      (hpc : t.pc = .prompted promptId)
      (hrow : t.row = setPromptId s.row promptId)
  | known (hsome : s.record.promptId ≠ none) (hplace : place t.pc = .past)
      (hkept : Kept s t)

variable {s t : RunnerState} {e : JobEvent} {a : Runner.Act}

theorem Kept.of_eq (h : t.row = s.row) : Kept s t where
  promptId := by rw [h]
  wellFormed := by
    intro hwf
    rwa [h]
  state := .inl (by rw [h])

theorem sendErr_ended (s : RunnerState) (after : After) (error : RuntimeError) :
    (sendErr s after error).row = s.row ∧ place (sendErr s after error).pc = .ended := by
  cases after <;> exact ⟨rfl, rfl⟩

theorem shift_sendErr {s' : RunnerState} (after : After)
    (error : RuntimeError) (hrow : s'.row = s.row) :
    Shift s (sendErr s' after error) := by
  obtain ⟨hr, hplace⟩ := sendErr_ended s' after error
  exact .ended hplace (.of_eq (hr.trans hrow))

/-- The replay of a pending event does not touch the state. -/
theorem shift_replay (hplace : place s.pc = .early) :
    Shift s (sendJobEvent s e none .replayed) := by
  rw [sendJobEvent]
  split
  · next row hok =>
    refine .stay hplace.symm ?_
    have hwf := fun hwf : WellFormed s.row => hwf.setPendingEvent hok
    obtain ⟨-, -, rfl⟩ := setPendingEvent_ok hok
    exact ⟨rfl, hwf, .inl rfl⟩
  · exact shift_sendErr .replayed _ rfl

/-- An emission takes the row to the state it announces. -/
theorem shift_emit {u : EventUpdate} {after : After} {n : Nat} (hpc : s.pc = .emit u after) :
    Shift s (sendJobEvent { s with sequence := n } e (some u.state) after) := by
  rw [sendJobEvent]
  split
  · next row hok =>
    have hplace : place s.pc = afterPlace after := by rw [hpc]; rfl
    refine .stay hplace.symm ?_
    have hwf := fun hwf : WellFormed s.row => hwf.setPendingEvent hok
    obtain ⟨-, hcan, rfl⟩ := setPendingEvent_ok hok
    exact ⟨rfl, hwf, .inr ⟨u, after, hpc, rfl, hcan _ rfl⟩⟩
  · exact shift_sendErr after _ rfl

theorem kept_cleared {n : Nat} (h : t.row = clearPendingEvent s.row n) : Kept s t := by
  have hclear : (clearPendingEvent s.row n).promptId = s.row.promptId
      ∧ (clearPendingEvent s.row n).state = s.row.state := by
    rw [clearPendingEvent]
    split <;> exact ⟨rfl, rfl⟩
  constructor
  · rw [h]
    exact hclear.1
  · intro hwf
    rw [h]
    exact hwf.clearPendingEvent n
  · rw [h]
    exact .inl hclear.2

/-- After an acknowledgement the run goes on at the same place, or it is over. -/
theorem shift_resume {after : After} {phase : Phase} {trace : List Trace}
    (hpc : s.pc = .sending e after phase) :
    Shift s (resume { s with
      row := clearPendingEvent s.row e.sequence
      trace := trace } after) := by
  have hplace : place s.pc = afterPlace after := by rw [hpc]; rfl
  cases after with
  | completed | final => exact .ended rfl (kept_cleared rfl)
  | _ => exact .stay hplace.symm (kept_cleared rfl)

theorem shift_observe {w : Watch} {status : ComfyPromptStatus}
    {now eventAt : Nat} (hpc : s.pc = .waiting w) :
    Shift s (observe s w status now eventAt) := by
  have hplace : place s.pc = .past := by rw [hpc]; rfl
  rw [observe]
  split
  · exact .stay rfl (.of_eq rfl)
  dsimp only
  split
  all_goals exact .stay hplace.symm (.of_eq rfl)

/-- **ONE MOVE**: where a run may go from where it is. -/
theorem shift_move (h : move s s.pc a = some t) : Shift s t := by
  unfold move at h
  repeat' split at h
  all_goals first
    | rw [← some.inj h]
      first
        | exact .ended rfl (.of_eq rfl)
        | exact .stay (by rw [‹s.pc = _›]; rfl) (.of_eq rfl)
        | exact shift_emit ‹_›
        | exact shift_observe ‹_›
        | exact shift_resume ‹_›
        | exact shift_sendErr _ _ rfl
        | exact .ask ‹_› rfl (.of_eq rfl)
        | exact .answered ‹_› rfl rfl
        | exact shift_replay (by rw [‹s.pc = _›]; rfl)
        | exact .prepare ‹_› (by rw [‹s.pc = _›]; rfl) rfl (.of_eq rfl)
        | exact .known (by rw [‹s.record.promptId = _›]; nofun) rfl (.of_eq rfl)
    | cases h

/-- What a move does to the run's own copy of the record. -/
inductive Copied (s t : RunnerState) : Prop where
  | same (h : t.record = s.record)
  | accepted {e : JobEvent}
      (hpc : s.pc = .sending e .accepted (.awaiting .resolved))
      (h : t.record = { s.record with state := .accepted })
  | running {e : JobEvent} {promptId : String}
      (hpc : s.pc = .sending e (.running promptId) (.awaiting .resolved))
      (h : t.record = { s.record with state := .running })
  | uploading {e : JobEvent} {promptId : String} {outputs : List OutputRef}
      (hpc : s.pc = .sending e (.uploading promptId outputs) (.awaiting .resolved))
      (h : t.record = { s.record with state := .uploading })

theorem record_sendErr (s : RunnerState) (after : After)
    (error : RuntimeError) : (sendErr s after error).record = s.record := by
  cases after <;> rfl

theorem record_sendJobEvent (s : RunnerState) (e : JobEvent)
    (state : Option JobState) (after : After) :
    (sendJobEvent s e state after).record = s.record := by
  rw [sendJobEvent]
  split
  · rfl
  · exact record_sendErr ..

theorem record_observe (s : RunnerState) (w : Watch)
    (status : ComfyPromptStatus) (now eventAt : Nat) :
    (observe s w status now eventAt).record = s.record := by
  rw [observe]
  split
  · rfl
  · dsimp only
    split <;> rfl

theorem copied_resume {after : After} {row : JobRecord} {trace : List Trace}
    (hpc : s.pc = .sending e after (.awaiting .resolved)) :
    Copied s (resume { s with row := row, trace := trace } after) := by
  cases after with
  | accepted => exact .accepted hpc rfl
  | running p => exact .running hpc rfl
  | uploading p outs => exact .uploading hpc rfl
  | _ => exact .same rfl

theorem copied_move (h : move s s.pc a = some t) : Copied s t := by
  unfold move at h
  repeat' split at h
  all_goals first
    | rw [← some.inj h]
      first
        | exact .same rfl
        | exact .same (record_sendErr ..)
        | exact .same (record_sendJobEvent ..)
        | exact .same (record_observe ..)
        | exact copied_resume ‹_›
    | cases h

theorem Copied.promptId (h : Copied s t) : t.record.promptId = s.record.promptId := by
  cases h with
  | same h | accepted _ h | running _ h | uploading _ h => rw [h]

/-- A copy never becomes terminal. -/
theorem Copied.live (h : Copied s t) (ht : t.record.state.isTerminal = true) :
    s.record.state.isTerminal = true := by
  cases h with
  | same h => rwa [h] at ht
  | accepted _ h | running _ h | uploading _ h =>
    rw [h] at ht
    cases ht

/-! ## What every run keeps -/

/-- A row that says the job runs or uploads has a prompt id. -/
def Backed (row : JobRecord) : Prop :=
  row.state = .running ∨ row.state = .uploading → row.promptId ≠ none

/-- A run, its copy and the row.  A copy with a prompt id may be older than
    the row; one without is in step with it. -/
structure Safe (s : RunnerState) : Prop where
  wellFormed : WellFormed s.row
  backed : Backed s.row
  past : place s.pc = .past → s.row.promptId ≠ none
  known : s.record.promptId ≠ none →
    s.row.promptId ≠ none ∧ place s.pc ≠ .preparing ∧ place s.pc ≠ .asking
  finished : s.record.state.isTerminal = true →
    s.row.state.isTerminal = true ∧ (s.pc = .entry ∨ s.pc = .returned)
  inv : s.record.promptId = none → s.record.state.isTerminal = false → Inv True True s

/-- Terminal rows stay terminal. -/
theorem Kept.terminal (h : Kept s t) (hterm : s.row.state.isTerminal = true) :
    t.row.state.isTerminal = true := by
  rcases h.state with heq | ⟨u, after, -, heq, hcan⟩
  · rw [heq]
    exact hterm
  · rw [heq, JobState.eq_of_isTerminal hterm hcan]
    exact hterm

/-- An emission of a run in step that is not past its request never says
    `Running` or `Uploading`. -/
theorem emitting_place {U T : Prop} {u : EventUpdate} {after : After}
    {record row : JobState}
    (h : Emitting U T u record row after)
    (hplace : afterPlace after ≠ .past) :
    u.state ≠ .running ∧ u.state ≠ .uploading := by
  cases after with
  | replayed => exact h.elim
  | accepted =>
    rw [h.1]
    exact ⟨nofun, nofun⟩
  | final =>
    rcases h.2 with ⟨-, hu, -⟩ | hu
    all_goals
      rw [hu]
      exact ⟨nofun, nofun⟩
  | _ => exact absurd rfl hplace

theorem Safe.backed_kept (h : Safe s) (hk : Kept s t)
    (hlive : s.record.state.isTerminal = false) : Backed t.row := by
  intro hstate
  rw [hk.promptId]
  intro hnone
  rcases hk.state with heq | ⟨u, after, hpc, heq, -⟩
  · rw [heq] at hstate
    exact h.backed hstate hnone
  -- a run without a prompt id, in step with its row
  have hcopy : s.record.promptId = none := by
    by_contra hsome
    exact (h.known hsome).1 hnone
  have hcontrol := (h.inv hcopy hlive).at hpc
  have hplace : afterPlace after ≠ .past := by
    intro hpast
    exact h.past (by rw [hpc]; exact hpast) hnone
  obtain ⟨hrun, hup⟩ := emitting_place hcontrol hplace
  rw [heq] at hstate
  exact hstate.elim hrun hup

theorem Shift.promptId (h : Shift s t) (hsome : s.row.promptId ≠ none) : t.row.promptId ≠ none := by
  cases h with
  | answered _ _ hrow =>
    rw [hrow]
    exact nofun
  | stay _ hk | ended _ hk | prepare _ _ _ hk | ask _ _ hk | known _ _ hk =>
    rwa [hk.promptId]

/-- A terminal record is looked at once. -/
theorem move_of_over (hterm : s.record.state.isTerminal = true)
    (hpc : s.pc = .entry ∨ s.pc = .returned) (h : move s s.pc a = some t) :
    t = { s with pc := .returned } := by
  rcases hpc with hpc | hpc
  · rw [hpc] at h
    cases a with
    | advance =>
      rw [move, if_pos hterm] at h
      exact (some.inj h).symm
    | _ => cases h
  · rw [hpc] at h
    cases a <;> cases h

/-- **ONE MOVE** keeps a run safe. -/
theorem safe_move (h : Safe s) (hmove : move s s.pc a = some t) : Safe t := by
  by_cases hterm : s.record.state.isTerminal = true
  · obtain ⟨hrow, hpc⟩ := h.finished hterm
    rw [move_of_over hterm hpc hmove]
    refine ⟨h.wellFormed, h.backed, nofun, ?_, fun _ => ⟨hrow, .inr rfl⟩, ?_⟩
    · intro hsome
      exact ⟨(h.known hsome).1, nofun, nofun⟩
    · intro _ hno
      exact absurd hterm (by rw [hno]; nofun)
  · have hlive := Bool.eq_false_iff.mpr hterm
    have hshift := shift_move hmove
    have hcopied := copied_move hmove
    have hover : t.record.state.isTerminal = true →
        t.row.state.isTerminal = true ∧ (t.pc = .entry ∨ t.pc = .returned) :=
      fun ht => absurd (hcopied.live ht) hterm
    have hinv : t.record.promptId = none → t.record.state.isTerminal = false → Inv True True t := by
      intro hnone _
      rw [hcopied.promptId] at hnone
      exact inv_move (h.inv hnone hlive) (fun _ => trivial) (fun _ => trivial) hmove
    have hsame := hcopied.promptId
    cases hshift with
    | stay hplace hk =>
      refine ⟨hk.wellFormed h.wellFormed, h.backed_kept hk hlive, ?_, ?_, hover, hinv⟩
      · rw [hplace, hk.promptId]
        exact h.past
      · rw [hplace, hk.promptId, hsame]
        exact h.known
    | ended hplace hk =>
      refine ⟨hk.wellFormed h.wellFormed, h.backed_kept hk hlive, ?_, ?_, hover, hinv⟩
      · rw [hplace]
        exact nofun
      rw [hplace, hk.promptId, hsame]
      intro hsome
      exact ⟨(h.known hsome).1, nofun, nofun⟩
    | prepare hnone _ hplace hk =>
      refine ⟨hk.wellFormed h.wellFormed, h.backed_kept hk hlive, ?_, ?_, hover, hinv⟩
      · rw [hplace]
        exact nofun
      · intro hsome
        exact absurd (hsame.trans hnone) hsome
    | ask hfrom hpc hk =>
      refine ⟨hk.wellFormed h.wellFormed, h.backed_kept hk hlive, ?_, ?_, hover, hinv⟩
      · rw [hpc]
        exact nofun
      rw [hsame]
      intro hsome
      exact absurd (by rw [hfrom]; rfl) (h.known hsome).2.1
    | answered hfrom hpc hrow =>
      have hsome : t.row.promptId ≠ none := by
        rw [hrow]
        exact nofun
      refine ⟨?_, fun _ => hsome, fun _ => hsome, ?_, hover, hinv⟩
      · rw [hrow]
        exact ⟨h.wellFormed.notQueued, h.wellFormed.sequence_le, h.wellFormed.pending_sequence⟩
      rw [hsame]
      intro hcopy
      exact absurd (by rw [hfrom]; rfl) (h.known hcopy).2.2
    | known hcopy hplace hk =>
      have hsome : t.row.promptId ≠ none := by
        rw [hk.promptId]
        exact (h.known hcopy).1
      refine ⟨hk.wellFormed h.wellFormed, h.backed_kept hk hlive, fun _ => hsome, ?_, hover, hinv⟩
      rw [hplace]
      exact fun _ => ⟨hsome, nofun, nofun⟩

/-- A run that is over has left a prompt id or a terminal row. -/
theorem Safe.spent (h : Safe s) (hpc : s.pc = .returned) :
    s.row.promptId ≠ none ∨ s.row.state.isTerminal = true := by
  by_cases hterm : s.record.state.isTerminal = true
  · exact .inr (h.finished hterm).1
  by_cases hcopy : s.record.promptId = none
  · rcases (h.inv hcopy (Bool.eq_false_iff.mpr hterm)).at hpc with ⟨hrow, -⟩ | ⟨-, hrow⟩
    · exact .inr hrow
    · exact .inl (h.backed (.inr hrow))
  · exact .inl (h.known hcopy).1

/-- A run on a record that is still the journal's. -/
theorem safe_start {record : JobRecord} (hwf : WellFormed record)
    (hbacked : Backed record) (cancelled : Bool) (trace : List Trace) :
    Safe { row := record
           record := record
           sequence := record.eventSequence
           cancelled := cancelled
           trace := trace
           pc := .entry } where
  wellFormed := hwf
  backed := hbacked
  past := nofun
  known := fun hsome => ⟨hsome, nofun, nofun⟩
  finished := fun hterm => ⟨hterm, .inl rfl⟩
  inv := by
    intro _ hlive
    obtain ⟨h₁, h₂, h₃⟩ := inv_start (U := True) (T := True) hwf hlive
    exact ⟨h₁, h₂, h₃⟩

/-- A run on an older record, which has its prompt id. -/
theorem safe_start_old {row record : JobRecord} (hwf : WellFormed row)
    (hbacked : Backed row) (hrow : row.promptId ≠ none)
    (hcopy : record.promptId ≠ none)
    (hlive : record.state.isTerminal = false) (cancelled : Bool)
    (trace : List Trace) :
    Safe { row := row
           record := record
           sequence := record.eventSequence
           cancelled := cancelled
           trace := trace
           pc := .entry } where
  wellFormed := hwf
  backed := hbacked
  past := nofun
  known := fun _ => ⟨hrow, nofun, nofun⟩
  finished := fun hterm => absurd hterm (by rw [hlive]; nofun)
  inv := fun hnone => absurd hnone hcopy

/-! ## A run that asks while the connection's task is busy -/

/-- The acknowledgement of the `Running` event has come. -/
def runningAcked : Pc → Bool
  | .sending _ (.running _) (.transmitting .resolved) => true
  | .sending _ (.running _) (.awaiting .resolved) => true
  | _ => false

/-- A run that has not got past its `Running` event. -/
structure Young (s : RunnerState) : Prop where
  inv : Inv False True s
  copy : s.record.state = .received ∨ s.record.state = .accepted
  waits : runningAcked s.pc = false

theorem runningAcked_sendErr (s : RunnerState) (after : After) (error : RuntimeError) :
    runningAcked (sendErr s after error).pc = false := by
  cases after <;> rfl

theorem runningAcked_sendJobEvent (s : RunnerState) (e : JobEvent)
    (state : Option JobState) (after : After) :
    runningAcked (sendJobEvent s e state after).pc = false := by
  rw [sendJobEvent]
  split
  · cases after <;> rfl
  · exact runningAcked_sendErr ..

theorem runningAcked_resume (s : RunnerState) (after : After) :
    runningAcked (resume s after).pc = false := by
  cases after <;> rfl

theorem runningAcked_observe {w : Watch} {status : ComfyPromptStatus}
    {now eventAt : Nat} (h : runningAcked s.pc = false) :
    runningAcked (observe s w status now eventAt).pc = false := by
  rw [observe]
  split
  · exact h
  · dsimp only
    split <;> rfl

/-- A transmission leaves the waiter as it is. -/
theorem runningAcked_transmit {after : After} {w : Waiter}
    (hpc : s.pc = .sending e after (.transmitting w))
    (h : runningAcked s.pc = false) :
    runningAcked (.sending e after (.awaiting w)) = false := by
  rw [hpc] at h
  cases after with
  | running p =>
    cases w with
    | resolved => exact h
    | _ => rfl
  | _ => rfl

/-- Only the connection's task brings acknowledgements. -/
theorem runningAcked_move (hack : isAck a = false)
    (h : runningAcked s.pc = false) (hmove : move s s.pc a = some t) :
    runningAcked t.pc = false := by
  unfold move at hmove
  repeat' split at hmove
  all_goals first
    | rw [← some.inj hmove]
      first
        | rfl
        | exact runningAcked_sendErr ..
        | exact runningAcked_sendJobEvent ..
        | exact runningAcked_resume ..
        | exact runningAcked_observe h
        | exact runningAcked_transmit ‹_› h
        | exact Bool.noConfusion hack
        | (dsimp only; cases ‹After› <;> rfl)
    | cases hmove

/-- A request answered while the row has no prompt id: the job is just accepted. -/
theorem young_answered {p : String} (h : Safe s)
    (hnone : s.row.promptId = none) (hmove : move s s.pc a = some t)
    (hfrom : s.pc = .prompt) (hpc : t.pc = .prompted p)
    (hrow : t.row = setPromptId s.row p) :
    Young t := by
  have hcopy : s.record.promptId = none := by
    by_contra hsome
    exact (h.known hsome).1 hnone
  have hlive : s.record.state.isTerminal = false := by
    by_contra hno
    rcases (h.finished (eq_true_of_ne_false hno)).2 with hentry | hret
    · rw [hfrom] at hentry
      cases hentry
    · rw [hfrom] at hret
      cases hret
  have hinv := inv_move (h.inv hcopy hlive) (fun _ => trivial) (fun _ => trivial) hmove
  have hcontrol := hinv.at hpc
  refine ⟨⟨hinv.wellFormed, hinv.sequence_le, ?_⟩, ?_, ?_⟩
  · rw [Control, hpc]
    exact hcontrol
  · obtain ⟨heq, ⟨hq, hterm⟩, -⟩ := hcontrol
    have hback : ¬ (s.row.state = .running ∨ s.row.state = .uploading) :=
      fun hno => h.backed hno hnone
    have hstate : t.row.state = s.row.state := by
      rw [hrow]
      rfl
    rw [← hstate, heq] at hback
    rw [heq] at hq hterm
    revert hback hq hterm
    cases t.record.state <;> simp [JobState.isTerminal]
  · rw [hpc]
    rfl

/-- **WHILE THE TASK IS BUSY** a young run stays young. -/
theorem young_move (h : Young s) (hack : isAck a = false)
    (hmove : move s s.pc a = some t) : Young t := by
  have hrun : s.record.state ≠ .running := by
    rcases h.copy with heq | heq <;> rw [heq] <;> exact nofun
  have hup : s.record.state ≠ .uploading := by
    rcases h.copy with heq | heq <;> rw [heq] <;> exact nofun
  refine ⟨inv_move h.inv ?_ (fun _ => trivial) hmove, ?_, runningAcked_move hack h.waits hmove⟩
  · -- an `Uploading` event belongs to a run that is running
    intro habort
    cases a with
    | advance =>
      obtain ⟨e, p, outs, hpc, -⟩ := habort
      exact (h.inv.at hpc).1.2.elim hrun hup
    | _ => exact habort
  · cases copied_move hmove with
    | same heq => exact heq ▸ h.copy
    | accepted _ heq =>
      rw [heq]
      exact .inr rfl
    | running hpc _ =>
      have hwaits := h.waits
      rw [hpc] at hwaits
      cases hwaits
    | uploading hpc _ =>
      exact ((h.inv.at hpc).1.2.elim hrun hup).elim

/-- When it ends, the row is terminal. -/
theorem Young.terminal (h : Young s) (hpc : s.pc = .returned) : s.row.state.isTerminal = true := by
  rcases h.inv.at hpc with ⟨hterm, -⟩ | ⟨hno, -⟩
  · exact hterm
  · exact hno.elim

/-! ## The worker -/

/-- What is said of a run does not depend on the tokens or on the log. -/
theorem Safe.reflag (h : Safe s) (cancelled : Bool) (trace : List Trace) :
    Safe { s with cancelled := cancelled, trace := trace } where
  wellFormed := h.wellFormed
  backed := h.backed
  past := h.past
  known := h.known
  finished := h.finished
  inv := fun hnone hlive =>
    ⟨(h.inv hnone hlive).wellFormed, (h.inv hnone hlive).sequence_le, (h.inv hnone hlive).control⟩

theorem Young.reflag (h : Young s) (cancelled : Bool) (trace : List Trace) :
    Young { s with cancelled := cancelled, trace := trace } :=
  ⟨⟨h.inv.wellFormed, h.inv.sequence_le, h.inv.control⟩, h.copy, h.waits⟩

/-- Runs that may still make a request. -/
def MayAsk (r : Run) : Prop :=
  r.record.promptId = none ∧ r.record.state.isTerminal = false
    ∧ (place r.pc = .early ∨ place r.pc = .preparing)

/-- What may have happened since `spawn_record` was handed the record. -/
inductive Window (w : Worker) (record row : JobRecord) : Prop where
  /-- nothing: there is no run that could have moved the row -/
  | same (hruns : w.runs = []) (heq : row = record)
  /-- both have a prompt id, so no request will be made -/
  | prompted (hlive : record.state.isTerminal = false)
      (hcopy : record.promptId ≠ none) (hrow : row.promptId ≠ none)
  /-- the run has ended the job -/
  | terminal (hlive : record.state.isTerminal = false)
      (hrow : row.state.isTerminal = true)
  /-- the run has no answer yet -/
  | unanswered (hlive : record.state.isTerminal = false)
      (hruns : w.runs ≠ []) (hrow : row.promptId = none)
  /-- the run has its answer and cannot end without ending the job -/
  | young (hlive : record.state.isTerminal = false) {r : Run}
      (hr : r ∈ w.runs) (hyoung : Young (w.view row r))

/-- What the connection's task may rely on at its place. -/
def Relies (w : Worker) : Loop → Prop
  | .boot => w.prompts = 0
  | .restoring record => ∃ row, w.row = some row ∧ Window w record row
  | .claiming _ => w.row = none
  | .joined _ => w.row = none
  | .owned _ _ => w.row = none
  | _ => True

/-- The invariant of a process. -/
structure Once (w : Worker) : Prop where
  registered : Registered w
  rows : ∀ row, w.row = some row → WellFormed row ∧ Backed row
  safe : ∀ r ∈ w.runs, ∃ row, w.row = some row ∧ Safe (w.view row r)
  budget : w.prompts ≤ 1
  unasked : ∀ r ∈ w.runs, MayAsk r → w.prompts = 0
  spent : w.runs = [] → w.prompts ≠ 0 → ∃ row, w.row = some row
    ∧ (row.promptId ≠ none ∨ row.state.isTerminal = true)
  relies : Relies w w.loop

theorem once_fresh : Once fresh where
  registered := registered_fresh
  rows := fun _ hrow => nomatch hrow
  safe := fun _ hr => absurd hr not_mem_nil
  budget := Nat.zero_le _
  unasked := fun _ hr => absurd hr not_mem_nil
  spent := fun _ hno => absurd rfl hno
  relies := rfl

/-! ### A run moves -/

section Moves

variable {w : Worker} {r : Run} {row : JobRecord} {t : RunnerState}
  {a : Runner.Act}

/-- The run after its move. -/
def after (r : Run) (t : RunnerState) : Run :=
  { r with record := t.record, sequence := t.sequence, pc := t.pc }

/-- A run that may ask after a move could ask before. -/
theorem mayAsk_of_move (hs : Safe (w.view row r)) (hmove : move (w.view row r) r.pc a = some t)
    (hask : MayAsk (after r t)) : MayAsk r := by
  obtain ⟨hnone, hlive, hplace⟩ := hask
  change place t.pc = .early ∨ place t.pc = .preparing at hplace
  have hcopy : r.record.promptId = none :=
    (copied_move hmove).promptId.symm.trans hnone
  have hkeep : r.record.state.isTerminal = false := by
    by_contra hno
    have hterm := eq_true_of_ne_false hno
    rw [move_of_over hterm (hs.finished hterm).2 hmove] at hplace
    exact hplace.elim nofun nofun
  refine ⟨hcopy, hkeep, ?_⟩
  cases shift_move hmove with
  | stay heq _ =>
    rw [heq] at hplace
    exact hplace
  | ended heq _ =>
    rw [heq] at hplace
    exact hplace.elim nofun nofun
  | prepare _ hfrom _ _ => exact .inl hfrom
  | ask _ hpc _ | answered _ hpc _ =>
    rw [hpc] at hplace
    exact hplace.elim nofun nofun
  | known hsome _ _ => exact absurd hcopy hsome

/-- A run that makes its request could ask. -/
theorem mayAsk_of_render (hs : Safe (w.view row r)) (hpc : r.pc = .render) : MayAsk r := by
  have hplace : place r.pc = .preparing := by rw [hpc]; rfl
  refine ⟨?_, ?_, .inr hplace⟩
  · by_contra hsome
    exact (hs.known hsome).2.1 hplace
  by_contra hno
  rcases (hs.finished (eq_true_of_ne_false hno)).2 with heq | heq
  all_goals cases hpc.symm.trans heq

/-- The row stays terminal. -/
theorem terminal_of_move {s : RunnerState} (hmove : move s s.pc a = some t)
    (hterm : s.row.state.isTerminal = true) :
    t.row.state.isTerminal = true := by
  cases shift_move hmove with
  | answered _ _ hrow =>
    rw [hrow]
    exact hterm
  | stay _ hk | ended _ hk | prepare _ _ _ hk | ask _ _ hk | known _ _ hk =>
    exact hk.terminal hterm

/-- The worker sees the run as the run sees itself. -/
theorem view_put (w : Worker) (i : Nat) (r : Run) (t : RunnerState) :
    (w.put i r t).view t.row (after r t) = { t with
          cancelled := (w.put i r t).flag (after r t)
          trace := t.trace } := rfl

/-- The window stays as it is while the one run moves without an acknowledgement. -/
theorem window_put {record : JobRecord} {i : Nat} (h : Once w)
    (hr : w.runs[i]? = some r) (hs : Safe (w.view row r))
    (hmove : move (w.view row r) r.pc a = some t) (hack : isAck a = false)
    (hw : Window w record row) : Window (w.put i r t) record t.row := by
  obtain ⟨rfl, hone, -⟩ := h.registered.run hr
  have hruns : (w.put 0 r t).runs = [after r t] := by
    show w.runs.set 0 _ = _
    rw [hone]
    rfl
  have hne : (w.put 0 r t).runs ≠ [] := by
    rw [hruns]
    exact nofun
  have hmem : after r t ∈ (w.put 0 r t).runs := by
    rw [hruns]
    exact mem_cons_self
  cases hw with
  | same hnil _ =>
    rw [hone] at hnil
    cases hnil
  | prompted hlive hcopy hrow =>
    exact .prompted hlive hcopy ((shift_move hmove).promptId hrow)
  | terminal hlive hrow =>
    exact .terminal hlive (terminal_of_move hmove hrow)
  | unanswered hlive _ hrow =>
    by_cases hnone : t.row.promptId = none
    · exact .unanswered hlive hne hnone
    -- only an answer brings a prompt id
    have hyoung : Young t := by
      cases shift_move hmove with
      | answered hfrom hpc heq =>
        exact young_answered hs hrow hmove hfrom hpc heq
      | stay _ hk | ended _ hk | prepare _ _ _ hk | ask _ _ hk
      | known _ _ hk => exact absurd (hk.promptId.trans hrow) hnone
    refine .young hlive hmem ?_
    exact hyoung.reflag _ _
  | young hlive hr' hyoung =>
    rw [hone] at hr'
    rw [mem_singleton.mp hr'] at hyoung
    refine .young hlive hmem ?_
    rw [view_put]
    exact (young_move hyoung hack hmove).reflag _ _

/-- A run moves, and the process stays in order. -/
theorem once_put {i : Nat} (h : Once w) (hr : w.runs[i]? = some r) (hrow : w.row = some row)
    (hmove : move (w.view row r) r.pc a = some t)
    (hack : isAck a = true → w.loop = .idle) : Once (w.put i r t) := by
  have hmem := mem_of_getElem? hr
  have hs : Safe (w.view row r) := by
    obtain ⟨row', hrow', hs⟩ := h.safe r hmem
    cases hrow.symm.trans hrow'
    exact hs
  have hst := safe_move hs hmove
  obtain ⟨rfl, hone, -⟩ := h.registered.run hr
  have hruns : (w.put 0 r t).runs = [after r t] := by
    show w.runs.set 0 _ = _
    rw [hone]
    rfl
  have hprompts : (w.put 0 r t).prompts = if r.pc = .render ∧ t.pc = .prompt then w.prompts + 1
        else w.prompts := rfl
  refine ⟨registered_put t h.registered hr, ?_, ?_, ?_, ?_, ?_, ?_⟩
  · intro row' hrow'
    cases hrow'
    exact ⟨hst.wellFormed, hst.backed⟩
  · intro r' hr'
    rw [hruns] at hr'
    rw [mem_singleton.mp hr']
    refine ⟨t.row, rfl, ?_⟩
    exact hst.reflag _ _
  · rw [hprompts]
    split
    · next hask =>
      have hzero := h.unasked r hmem (mayAsk_of_render hs hask.1)
      omega
    · exact h.budget
  · intro r' hr' hask
    rw [hruns] at hr'
    rw [mem_singleton.mp hr'] at hask
    rw [hprompts, if_neg]
    · exact h.unasked r hmem (mayAsk_of_move hs hmove hask)
    intro hno
    have hplace := hask.2.2
    change place t.pc = .early ∨ place t.pc = .preparing at hplace
    rw [hno.2] at hplace
    exact hplace.elim nofun nofun
  · intro hnil
    rw [hruns] at hnil
    cases hnil
  · have hrelies := h.relies
    have hregistered := h.registered.loop
    show Relies (w.put 0 r t) w.loop
    cases hloop : w.loop with rw [hloop] at hrelies
    | boot =>
      rw [hloop, hone] at hregistered
      cases hregistered.1
    | restoring record =>
      obtain ⟨row', hrow', hw⟩ := hrelies
      cases hrow.symm.trans hrow'
      refine ⟨t.row, rfl, window_put h hr hs hmove ?_ hw⟩
      by_contra hno
      cases hloop.symm.trans (hack (eq_true_of_ne_false hno))
    | claiming d | joined d | owned d token =>
      cases hrow.symm.trans hrelies
    | _ => trivial

/-- A run that is over leaves the registry. -/
theorem once_finish {i : Nat} (h : Once w) (hr : w.runs[i]? = some r) (hpc : r.pc = .returned)
    (hreg : Registered
      { w with runs := w.runs.eraseIdx i, cancellations := none }) :
    Once { w with runs := w.runs.eraseIdx i, cancellations := none } := by
  obtain ⟨row, hrow, hs⟩ := h.safe r (mem_of_getElem? hr)
  obtain ⟨rfl, hone, -⟩ := h.registered.run hr
  have hnil : w.runs.eraseIdx 0 = [] := by
    rw [hone]
    rfl
  have hempty : ∀ r', r' ∉ w.runs.eraseIdx 0 := by
    intro r' hr'
    rw [hnil] at hr'
    exact not_mem_nil hr'
  refine ⟨hreg, h.rows, fun r' hr' => absurd hr' (hempty r'), h.budget,
    fun r' hr' => absurd hr' (hempty r'), fun _ _ => ⟨row, hrow, hs.spent hpc⟩,
    ?_⟩
  have hrelies := h.relies
  cases hloop : w.loop with rw [hloop] at hrelies
  | restoring record =>
    obtain ⟨row', hrow', hw⟩ := hrelies
    cases hrow.symm.trans hrow'
    refine ⟨row, hrow, ?_⟩
    cases hw with
    | same hno _ =>
      rw [hone] at hno
      cases hno
    | prompted hlive hcopy hsome => exact .prompted hlive hcopy hsome
    | terminal hlive hterm => exact .terminal hlive hterm
    | unanswered hlive _ hnone =>
      rcases hs.spent hpc with hsome | hterm
      · exact absurd hnone hsome
      · exact .terminal hlive hterm
    | young hlive hr' hyoung =>
      rw [hone] at hr'
      rw [mem_singleton.mp hr'] at hyoung
      exact .terminal hlive (hyoung.terminal hpc)
  | _ =>
    exact hrelies

end Moves

/-! ### The connection's task moves -/

section Task

variable {w w' : Worker}

/-- Without a row there is no run, and nothing has been asked. -/
theorem Once.unknown (h : Once w) (hrow : w.row = none) : w.runs = [] ∧ w.prompts = 0 := by
  have hnil : w.runs = [] := by
    rcases h.registered.one with hnil | ⟨r, hone, -⟩
    · exact hnil
    · obtain ⟨row, hsome, -⟩ := h.safe r (by rw [hone]; exact mem_cons_self)
      cases hrow.symm.trans hsome
  refine ⟨hnil, ?_⟩
  by_contra hne
  obtain ⟨row, hsome, -⟩ := h.spent hnil hne
  cases hrow.symm.trans hsome

/-- A step that leaves row, runs and count alone. -/
theorem Once.frame (h : Once w) (hreg : Registered w')
    (hrow : w'.row = w.row) (hruns : w'.runs = w.runs)
    (hprompts : w'.prompts = w.prompts) (hrel : Relies w' w'.loop) :
    Once w' where
  registered := hreg
  rows := hrow ▸ h.rows
  safe := by
    rw [hruns, hrow]
    intro r hr
    obtain ⟨row, hsome, hs⟩ := h.safe r hr
    exact ⟨row, hsome, hs.reflag (w'.flag r) w'.log⟩
  budget := hprompts ▸ h.budget
  unasked := by
    rw [hruns, hprompts]
    exact h.unasked
  spent := by
    rw [hruns, hprompts, hrow]
    exact h.spent
  relies := hrel

variable {d : DispatchJob}

theorem redispatch_promptId {r r' : JobRecord} (h : redispatch r d = .ok r') :
    r'.promptId = r.promptId := by
  rw [redispatch] at h
  split at h
  · split at h
    all_goals rw [← Except.ok.inj h]
  · cases h

theorem Backed.redispatch {r r' : JobRecord} (h : Backed r)
    (hr : redispatch r d = .ok r') : Backed r' := by
  rw [Backed, redispatch_promptId hr, (redispatch_frame hr).1]
  exact h

/-- A duplicate dispatch under a run. -/
theorem Safe.redispatch {s : RunnerState} {row : JobRecord} (h : Safe s)
    (hr : redispatch s.row d = .ok row) :
    Safe { s with row := row } := by
  obtain ⟨hstate, -, -⟩ := redispatch_frame hr
  have hid := redispatch_promptId hr
  refine ⟨h.wellFormed.redispatch hr, h.backed.redispatch hr, ?_, ?_, ?_, ?_⟩
  · rw [hid]
    exact h.past
  · rw [hid]
    exact h.known
  · rw [hstate]
    exact h.finished
  intro hnone hlive
  refine inv_step (a := .redispatch d) (h.inv hnone hlive) (fun _ => trivial) (fun _ => trivial) ?_
  rw [Runner.step, hr]

/-- `UpsertDispatch` keeps the process in order. -/
theorem Once.upserted {record : JobRecord} (h : Once w)
    (hup : upsertDispatch w.row d = .ok record) (hreg : Registered w')
    (hrow : w'.row = some record) (hruns : w'.runs = w.runs)
    (hprompts : w'.prompts = w.prompts) (hrel : Relies w' w'.loop) :
    Once w' := by
  cases hw : w.row with
  | none =>
    obtain ⟨hnil, hzero⟩ := h.unknown hw
    rw [hw] at hup
    cases hup
    have hempty : ∀ r, r ∉ w'.runs := by
      rw [hruns, hnil]
      exact fun r => not_mem_nil
    refine ⟨hreg, ?_, fun r hr => absurd hr (hempty r), hprompts ▸ h.budget,
      fun r hr => absurd hr (hempty r), ?_, hrel⟩
    · intro row' hrow'
      cases hrow.symm.trans hrow'
      exact ⟨wellFormed_received d, fun hno => hno.elim nofun nofun⟩
    · intro _ hne
      exact absurd (hprompts.trans hzero) hne
  | some row =>
    rw [hw] at hup
    obtain ⟨hwf, hbacked⟩ := h.rows row hw
    refine ⟨hreg, ?_, ?_, hprompts ▸ h.budget, ?_, ?_, hrel⟩
    · intro row' hrow'
      cases hrow.symm.trans hrow'
      exact ⟨hwf.redispatch hup, hbacked.redispatch hup⟩
    · rw [hruns]
      intro r hr
      obtain ⟨row', hrow', hs⟩ := h.safe r hr
      cases hw.symm.trans hrow'
      refine ⟨record, hrow, ?_⟩
      exact (hs.redispatch hup).reflag (w'.flag r) w'.log
    · rw [hruns, hprompts]
      exact h.unasked
    · rw [hruns, hprompts]
      intro hnil hne
      obtain ⟨row', hrow', hspent⟩ := h.spent hnil hne
      cases hw.symm.trans hrow'
      refine ⟨record, hrow, ?_⟩
      rw [redispatch_promptId hup, (redispatch_frame hup).1]
      exact hspent

/-- A run is started: on a record that is the journal's, or with a prompt id. -/
theorem Once.spawned {row record : JobRecord} {token : Nat}
    (hreg : Registered w') (hrow : w'.row = some row)
    (hruns : w'.runs = [.new record token]) (hbudget : w'.prompts ≤ 1)
    (hwf : WellFormed row) (hbacked : Backed row)
    (hs : Safe (w'.view row (.new record token)))
    (hzero : record.promptId = none → record.state.isTerminal = false → w'.prompts = 0)
    (hrel : Relies w' w'.loop) : Once w' := by
  refine ⟨hreg, ?_, ?_, hbudget, ?_, ?_, hrel⟩
  · intro row' hrow'
    cases hrow.symm.trans hrow'
    exact ⟨hwf, hbacked⟩
  · rw [hruns]
    intro r hr
    rw [mem_singleton.mp hr]
    exact ⟨row, hrow, hs⟩
  · rw [hruns]
    intro r hr hask
    rw [mem_singleton.mp hr] at hask
    exact hzero hask.1 hask.2.1
  · rw [hruns]
    exact nofun

/-- `restore_job` finds the entry free for a record whose job the journal has meanwhile ended. -/
def overtaken (w : Worker) : Process.Act → Bool
  | .loop =>
    match w.loop, w.cancellations, w.row with
    | .restoring record, none, some row =>
      !record.state.isTerminal && row.state.isTerminal
    | _, _, _ => false
  | _ => false

/-- `restore_job` on a free entry, with a record that has not been overtaken. -/
theorem once_restored {record row : JobRecord} (h : Once w)
    (hrow : w.row = some row) (hw : Window w record row)
    (hfree : w.cancellations = none)
    (hok : (!record.state.isTerminal && row.state.isTerminal) = false)
    (hreg : Registered w') (hrow' : w'.row = w.row)
    (hruns : w'.runs = [.new record w.tokens.length])
    (hprompts : w'.prompts = w.prompts) (hrel : Relies w' w'.loop) :
    Once w' := by
  obtain ⟨hwf, hbacked⟩ := h.rows row hrow
  have hnil := h.registered.runs_of_free hfree
  have hstart : ∀ (hs : Safe (w'.view row (.new record w.tokens.length)))
      (hzero : record.promptId = none → record.state.isTerminal = false →
        w.prompts = 0), Once w' := by
    intro hs hzero
    exact .spawned hreg (hrow'.trans hrow) hruns (hprompts ▸ h.budget) hwf
      hbacked hs (fun hnone hlive => hprompts.trans (hzero hnone hlive)) hrel
  cases hw with
  | same _ heq =>
    subst heq
    refine hstart (safe_start hwf hbacked _ _) ?_
    intro hnone hlive
    by_contra hne
    obtain ⟨row', hsome, hspent⟩ := h.spent hnil hne
    cases hrow.symm.trans hsome
    rcases hspent with hid | hterm
    · exact hid hnone
    · rw [hlive] at hterm
      cases hterm
  | prompted hlive hcopy hsome =>
    exact hstart (safe_start_old hwf hbacked hsome hcopy hlive _ _)
      (fun hnone => absurd hnone hcopy)
  | terminal hlive hterm =>
    rw [hlive, hterm] at hok
    cases hok
  | unanswered _ hne _ => exact absurd hnil hne
  | young _ hr _ =>
    rw [hnil] at hr
    cases hr

theorem place_dropWaiter (pc : Pc) : place (dropWaiter pc) = place pc := by
  unfold dropWaiter
  split <;> rfl

/-- `cancel_job` sweeps the waiter of a run. -/
theorem Safe.dropWaiter {s : RunnerState} (h : Safe s) : Safe { s with pc := dropWaiter s.pc } :=
  { h with
  past := by
    rw [place_dropWaiter]
    exact h.past
  known := by
    rw [place_dropWaiter]
    exact h.known
  finished := by
    intro hterm
    obtain ⟨hrow, hpc⟩ := h.finished hterm
    refine ⟨hrow, ?_⟩
    rcases hpc with hpc | hpc
    · rw [hpc]
      exact .inl rfl
    · rw [hpc]
      exact .inr rfl
  inv := fun hnone hlive =>
    ⟨(h.inv hnone hlive).wellFormed, (h.inv hnone hlive).sequence_le,
      control_dropWaiter (h.inv hnone hlive).control⟩ }

theorem once_swept (h : Once w) (hreg : Registered w') (hrow : w'.row = w.row)
    (hruns : w'.runs = w.runs.map fun r => { r with pc := dropWaiter r.pc })
    (hprompts : w'.prompts = w.prompts) (hrel : Relies w' w'.loop) :
    Once w' := by
  refine ⟨hreg, hrow ▸ h.rows, ?_, hprompts ▸ h.budget, ?_, ?_, hrel⟩
  · rw [hruns, hrow]
    intro r' hr'
    obtain ⟨r, hr, rfl⟩ := mem_map.mp hr'
    obtain ⟨row, hsome, hs⟩ := h.safe r hr
    exact ⟨row, hsome, hs.dropWaiter.reflag _ w'.log⟩
  · rw [hruns, hprompts]
    intro r' hr' hask
    obtain ⟨r, hr, rfl⟩ := mem_map.mp hr'
    refine h.unasked r hr ⟨hask.1, hask.2.1, ?_⟩
    have hplace := hask.2.2
    rw [place_dropWaiter] at hplace
    exact hplace
  · rw [hruns, hprompts, hrow]
    intro hnil
    exact h.spent (map_eq_nil_iff.mp hnil)

/-- **THE CONNECTION'S TASK** keeps the process in order unless its record has been overtaken. -/
theorem once_advance (h : Once w) (hok : overtaken w .loop = false)
    (hstep : w.advance = some w') : Once w' := by
  have hreg := registered_advance h.registered hstep
  have hrelies := h.relies
  unfold Worker.advance at hstep
  split at hstep
  · next hl =>
    have hnil : w.runs = [] := by
      have hloop := h.registered.loop
      rw [hl] at hloop
      exact hloop.1
    cases hstep
    refine h.frame hreg rfl rfl rfl ?_
    split
    · next record hfilter =>
      exact ⟨record, (filter_eq_some_iff.mp hfilter).1, .same hnil rfl⟩
    · trivial
  · next record hl =>
    rw [hl] at hrelies
    split at hstep
    · cases hstep
      exact h.frame hreg rfl rfl rfl trivial
    next hfree =>
    cases hstep
    obtain ⟨row, hrow, hw⟩ := hrelies
    rw [overtaken, hl, hfree, hrow] at hok
    refine once_restored h hrow hw hfree hok hreg rfl ?_ rfl trivial
    rw [h.registered.runs_of_free hfree]
    rfl
  · cases hstep
  · next d hl =>
    split at hstep
    · next record hup =>
      cases hstep
      refine h.upserted hup hreg rfl rfl rfl ?_
      split
      · trivial
      next hterm =>
      have hlive := Bool.eq_false_iff.mpr hterm
      refine ⟨record, rfl, ?_⟩
      by_cases hnil : w.runs = []
      · exact .same hnil rfl
      by_cases hnone : record.promptId = none
      · exact .unanswered hlive hnil hnone
      · exact .prompted hlive hnone hnone
    · cases hstep
      exact h.frame hreg rfl rfl rfl trivial
  · next d hl =>
    rw [hl] at hrelies
    split at hstep
    all_goals
      cases hstep
      exact h.frame hreg rfl rfl rfl hrelies
  · next d hl =>
    split at hstep
    · next record hup =>
      cases hstep
      exact h.upserted hup hreg rfl rfl rfl trivial
    · cases hstep
      exact h.frame hreg rfl rfl rfl trivial
  · next d token hl =>
    rw [hl] at hrelies
    obtain ⟨hnil, hzero⟩ := h.unknown hrelies
    rw [hrelies] at hstep
    cases hstep
    have hwf := wellFormed_received d
    have hbacked : Backed (.received d) := fun hno => hno.elim nofun nofun
    have hruns : w.runs ++ [.new (.received d) token] = [.new (.received d) token] := by
      rw [hnil]
      rfl
    exact .spawned hreg rfl hruns h.budget hwf hbacked
      (safe_start hwf hbacked _ _) (fun _ _ => hzero) trivial
  · cases hstep
    exact h.frame hreg rfl rfl rfl trivial
  · cases hstep
    exact h.frame hreg rfl rfl rfl trivial
  · cases hstep
    exact once_swept h hreg rfl rfl rfl trivial

end Task

/-! ## At most one request -/

/-- The journal does what it is asked to. -/
def journalWorks : Process.Act → Bool
  | .runError _ _ => false
  | .loopError => false
  | _ => true

/-- **ONE STEP** keeps the process in order, if the journal works and no
    record has been overtaken. -/
theorem once_step {w w' : Worker} {a : Process.Act} (h : Once w)
    (hworks : journalWorks a = true) (hok : overtaken w a = false)
    (hstep : Process.step w a = some w') : Once w' := by
  have hreg := registered_step h.registered hstep
  cases a with rw [Process.step] at hstep
  | run i act =>
    split at hstep
    · cases hstep
    next hack =>
    obtain ⟨r, row, t, hr, hrow, hmove, rfl⟩ := moved_eq_some hstep
    exact once_put h hr hrow hmove fun hno => absurd hno hack
  | runError i error | loopError => cases hworks
  | finish i =>
    obtain ⟨r, hr, hpc, rfl⟩ := finish_eq_some hstep
    exact once_finish h hr hpc hreg
  | loop => exact once_advance h hok hstep
  | exhausted =>
    split at hstep
    · cases hstep
      exact h.frame hreg rfl rfl rfl trivial
    · cases hstep
  | dispatch d =>
    obtain ⟨-, rfl⟩ := of_guard hstep
    refine h.frame hreg rfl rfl rfl ?_
    split
    · trivial
    · next hnone => exact not_isSome_iff_eq_none.mp hnone
  | cancelJob =>
    split at hstep
    · split at hstep
      · cases hstep
        exact h.frame hreg rfl rfl rfl trivial
      · exact some.inj hstep ▸ h
    · cases hstep
  | eventAck i =>
    split at hstep
    · next hidle =>
      obtain ⟨r, row, t, hr, hrow, hmove, rfl⟩ := moved_eq_some hstep
      exact once_put h hr hrow hmove fun _ => hidle
    · cases hstep
  | crash =>
    cases hstep
    exact ⟨hreg, h.rows, fun _ hr => absurd hr not_mem_nil,
      Nat.zero_le _, fun _ hr => absurd hr not_mem_nil,
      fun _ hno => absurd rfl hno, rfl⟩

theorem Once.single {w : Worker} (h : Once w) : w.runs.length ≤ 1 := by
  rcases h.registered.one with hnil | ⟨r, hone, -⟩
  · rw [hnil]
    exact Nat.zero_le _
  · rw [hone]
    exact Nat.le_refl _

/-- **PROMPTED ONCE**: in every run of the worker in which the journal works and no record is
    overtaken between `UpsertDispatch` and `restore_job`, every process has at most one `execute` at
    a time for the job and makes at most one `ComfyPromptRequest` for it. -/
theorem prompted_once (acts : List Process.Act) (hok : Admitted Process.step
      (fun w a => journalWorks a = true ∧ overtaken w a = false) fresh acts) :
    Along Process.step (fun w => w.runs.length ≤ 1 ∧ w.prompts ≤ 1) fresh acts :=
  Along.mono (fun _ h => ⟨h.single, h.budget⟩) acts fresh (inv_along_admitted
      (fun _ _ _ h hgood hstep => once_step h hgood.1 hgood.2 hstep) acts fresh
      once_fresh hok)

/-! ### A duplicate in time and a duplicate too late -/

/-- A run up to its request to ComfyUI. -/
def asking : List Process.Act :=
  accepting ++ acknowledged ++ [.run 0 .permit, .run 0 .advance, .run 0 (.inputs (.ok ())),
      .run 0 (.rendered (.ok ()))]

/-- The duplicate finds the run in the registry. -/
def duplicated : List Process.Act :=
  asking ++ [.dispatch plainDispatch, .loop, .loop, .run 0 (.prompted (.ok "prompt"))]

theorem duplicated_admitted : Admitted Process.step
    (fun w a => journalWorks a = true ∧ overtaken w a = false) fresh
    duplicated := by
  refine admitted_of_admits (fun w a => journalWorks a && !overtaken w a) ?_
    duplicated fresh (by decide +kernel)
  intro w a h
  simpa using h

theorem duplicated_prompts_once : (run Process.step fresh duplicated).map (·.prompts) = some 1
      ∧ Along Process.step (fun w => w.runs.length ≤ 1 ∧ w.prompts ≤ 1) fresh duplicated :=
  ⟨by decide +kernel, prompted_once duplicated duplicated_admitted⟩

/-- ComfyUI refuses the prompt and the run decides for `Failed`.  Then the job is cancelled, and a
    duplicate reads the journal before the run writes it: the send loop gives `Failed` up, the run
    ends, and the old record is started once more. -/
def overtakenDuplicate : List Process.Act :=
  asking ++ [.run 0 (.prompted (.error "connection reset")), .run 0 .advance,
    .cancelJob, .loop, .loop, .dispatch plainDispatch, .loop,
    .run 0 (.emit 2), .run 0 .advance, .finish 0, .loop,
    .run 0 .advance, .run 0 .advance, .run 0 .permit, .run 0 .advance,
    .run 0 (.inputs (.ok ())), .run 0 (.rendered (.ok ()))]

/-- Two requests for one job from one process, with a journal that works. -/
theorem overtaken_prompts_twice : ¬ ∀ acts w, (∀ a ∈ acts, journalWorks a = true) →
      run Process.step fresh acts = some w →
      w.runs.length ≤ 1 ∧ w.prompts ≤ 1 := by
  intro hall
  have hmap : (run Process.step fresh overtakenDuplicate).map (·.prompts)
      = some 2 := by decide +kernel
  obtain ⟨w, hrun, htwo⟩ := map_eq_some_iff.mp hmap
  have hone := (hall _ w (by decide) hrun).2
  rw [htwo] at hone
  exact absurd hone (by decide)

end Prompts
