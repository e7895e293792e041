import NagisaLake.RunnerProofs

/-! # Delivery — what a run of the job runner leaves behind

Three questions about `execute`, each answered for every record a journal
can hold, every behaviour of the environment and every moment at which
cancellation may arrive.

*Does it end in a terminal state?*  Exactly when no `Uploading` event is
given up while the runner's copy is behind the journal
(`returned_terminal_iff`).

*Is the last event delivered?*  Exactly when no event of a terminal state
is given up after the journal has taken it (`terminal_delivered_iff`).

*Is the outbox drained on recovery?*  As long as the journal takes the
replayed event once more, exactly for the records that are not terminal
(`pending_drained_iff`): `execute_inner` returns on a terminal record before
it looks at the pending event.  Here the calls of the journal may fail. -/

namespace Delivery

open Jobs KeyedTable Runs Runner List Option
open Journal hiding step

/-! ## Runs that can no longer change their row -/

/-- A cancelled run whose only remaining emission the row refuses: state and
    pending event stay what they are. -/
def Doomed (state : JobState) (pending : Option JobEvent) (s : RunnerState) :
    Prop :=
  s.row.state = state ∧ s.row.pendingEvent = pending ∧ (s.pc = .returned
      ∨ s.cancelled = true ∧ ((∃ error, s.pc = .failed error
            ∧ state.canTransitionTo (finalUpdate s error).state = false)
          ∨ ∃ u, s.pc = .emit u .final ∧ state.canTransitionTo u.state = false))

variable {s t : RunnerState} {a : Act} {e : JobEvent}

variable {state : JobState} {pending : Option JobEvent}

private theorem dropWaiter_of_doomed (h : Doomed state pending s) : dropWaiter s.pc = s.pc := by
  obtain ⟨-, -, hpc | ⟨-, ⟨e, hpc, -⟩ | ⟨u, hpc, -⟩⟩⟩ := h
  all_goals
    rw [hpc]
    rfl

private theorem finalUpdate_cancel {error : RuntimeError} {pc : Pc} (h : s.cancelled = true) :
    finalUpdate { s with cancelled := true, pc := pc } error = finalUpdate s error := by
  rw [finalUpdate, finalUpdate, h]

/-- The moves a doomed run has left: choose the last event, see it refused. -/
private theorem doomed_move (h : Doomed state pending s) (hmove : move s s.pc a = some t) :
    Doomed state pending t := by
  obtain ⟨hrow, hpending, hpc⟩ := h
  rcases hpc with hpc | ⟨hc, ⟨error, hpc, hno⟩ | ⟨u, hpc, hno⟩⟩
  · rw [hpc] at hmove
    cases a <;> cases hmove
  · rw [hpc] at hmove
    cases a with
    | advance =>
      cases hmove
      exact ⟨hrow, hpending, .inr ⟨hc, .inr ⟨_, rfl, hno⟩⟩⟩
    | _ => cases hmove
  · rw [hpc] at hmove
    cases a with
    | emit unixMs =>
      rw [move, sendJobEvent] at hmove
      split at hmove
      · next row hok =>
        have hcan := (setPendingEvent_ok hok).2.1 _ rfl
        rw [hrow, hno] at hcan
        exact Bool.noConfusion hcan
      · cases hmove
        exact ⟨hrow, hpending, .inl rfl⟩
    | _ => cases hmove

/-- **DOOM IS FINAL**: no step of any task revives the run. -/
theorem doomed_step (h : Doomed state pending s) (hstep : step s a = some t) :
    Doomed state pending t := by
  cases a with
  | cancelJob =>
    have hdrop := dropWaiter_of_doomed h
    rw [step] at hstep
    split at hstep
    · exact some.inj hstep ▸ h
    next hne =>
    rw [← some.inj hstep, hdrop]
    obtain ⟨hrow, hpending, hpc⟩ := h
    refine ⟨hrow, hpending, .inr ⟨rfl, ?_⟩⟩
    obtain ⟨hc, ⟨error, hpc, hno⟩ | hemit⟩ := hpc.resolve_left hne
    · exact .inl ⟨error, hpc, by rw [finalUpdate_cancel hc]; exact hno⟩
    · exact .inr hemit
  | redispatch d =>
    rw [step] at hstep
    split at hstep
    · next row hr =>
      cases hstep
      obtain ⟨hrow, hpending, hpc⟩ := h
      obtain ⟨hstate, -, hsame⟩ := redispatch_frame hr
      exact ⟨hstate.trans hrow, hsame.trans hpending, hpc⟩
    · exact some.inj hstep ▸ h
  | _ => exact doomed_move h hstep

/-! ## Ending terminal -/

/-- The run has given up an `Uploading` event, and an uploading row takes no `Cancelled`. -/
def Stuck (s : RunnerState) : Prop := ∃ pending, Doomed .uploading pending s

private theorem stuck_of_abort (h : Inv True True s)
    (ha : AbortsUploading s a) (hstep : step s a = some t) : Stuck t := by
  cases a with
  | advance =>
    obtain ⟨e, p, outs, hpc, hcan, hc, hne⟩ := ha
    obtain ⟨⟨hrow, -⟩, hpending⟩ := h.at hpc
    rw [step_abort hpc hcan hc] at hstep
    cases hstep
    refine ⟨_, hrow, hpending, .inr ⟨hc, .inl ⟨_, rfl, ?_⟩⟩⟩
    rw [finalUpdate, if_pos ⟨hc, hne⟩]
    rfl
  | _ => exact ha.elim

/-- **A RUN ENDS TERMINAL, EXACTLY**: for every record of every journal, every environment and every
    time of cancellation, a run that returns leaves the journal in a terminal state if and only if
    it never gave up an `Uploading` event with its own copy still behind. -/
theorem returned_terminal_iff {j : WorkerJobs} {r : JobRecord}
    (hj : Reachable Journal.step Table.empty j) (hr : r ∈ j.rows)
    (hlive : r.state.isTerminal = false) {acts : List Act} {s : RunnerState}
    (hrun : run step (start r) acts = some s) (hret : s.pc = .returned) :
    s.row.state.isTerminal = true
      ↔ Admitted step (fun s a => ¬ AbortsUploading s a) (start r) acts := by
  have hwf := wellFormed_of_reachable hj r hr
  constructor
  · intro hterm
    refine admitted_of_not_doomed (I := Inv True True) (D := Stuck)
      (fun s a t h ht => inv_step h (fun _ => trivial) (fun _ => trivial) ht)
      (fun s a t h hno ht => stuck_of_abort h (not_not.mp hno) ht)
      (fun s a t h ht => h.imp fun _ hd => doomed_step hd ht)
      acts _ s (inv_start hwf hlive) hrun ?_
    rintro ⟨pending, hrow, -⟩
    rw [hrow] at hterm
    exact Bool.noConfusion hterm
  · intro hok
    have hinv : Inv False True s :=
      inv_run_admitted (I := Inv False True)
        (fun s a t h hk ht => inv_step h hk (fun _ => trivial) ht)
        (inv_start hwf hlive) hok hrun
    rcases hinv.at hret with ⟨hterm, -⟩ | ⟨hno, -⟩
    · exact hterm
    · exact hno.elim

/-! ### A run of each kind -/

/-- A journal that holds one freshly received job. -/
def sampleJournal : WorkerJobs := Table.empty.put (.received plainDispatch)

theorem sampleJournal_reachable : Reachable Journal.step Table.empty sampleJournal :=
  ⟨[.upsertDispatch plainDispatch], rfl⟩

theorem received_mem_sampleJournal : JobRecord.received plainDispatch ∈ sampleJournal.rows :=
  Table.mem_put.mpr (.inl rfl)

/-- `send_job_event` with a Hub that acknowledges at once. -/
def delivered : List Act := [.advance, .transmit, .ack, .advance]

/-- A run up to the moment ComfyUI has produced its outputs. -/
def untilOutputs : List Act :=
  [.advance, .advance, .emit 1] ++ delivered
    ++ [.permit, .advance, .inputs (.ok ()), .rendered (.ok ()),
      .prompted (.ok "prompt"), .advance, .emit 2] ++ delivered
    ++ [.advance, .waited (.ok [])]

/-- The token fires while the `Uploading` event is in the send loop. -/
def cancelledUpload : List Act :=
  untilOutputs ++ [.emit 3, .cancelJob, .advance, .advance, .emit 4]

/-- A run the semaphore ends: `Failed` is journalled and acknowledged. -/
def closedPermit : List Act :=
  [.advance, .advance, .emit 1] ++ delivered ++ [.permitClosed, .advance, .emit 2] ++ delivered

theorem closedPermit_ends_terminal :
    ∃ s, run step (start (.received plainDispatch)) closedPermit = some s ∧ s.pc = .returned
      ∧ (s.row.state.isTerminal = true ↔ Admitted step (fun s a => ¬ AbortsUploading s a)
          (start (.received plainDispatch)) closedPermit) :=
  ⟨_, rfl, rfl, returned_terminal_iff sampleJournal_reachable
    received_mem_sampleJournal rfl rfl rfl⟩

/-- The journal says `Uploading` for ever: the copy says `Running`, so
    `Cancelled` is chosen, and the row refuses it. -/
theorem cancelledUpload_not_terminal :
    ¬ ∀ (j : WorkerJobs) (r : JobRecord) (acts : List Act) (s : RunnerState),
      Reachable Journal.step Table.empty j → r ∈ j.rows →
      r.state.isTerminal = false → run step (start r) acts = some s →
      s.pc = .returned → s.row.state.isTerminal = true := by
  intro h
  obtain ⟨s, hrun, hret, hrow⟩ : ∃ s,
      run step (start (.received plainDispatch)) cancelledUpload = some s
        ∧ s.pc = .returned ∧ s.row.state = .uploading := ⟨_, rfl, rfl, rfl⟩
  have hterm := h _ _ _ s sampleJournal_reachable received_mem_sampleJournal rfl hrun hret
  rw [hrow] at hterm
  exact Bool.noConfusion hterm

/-! ## Delivering the last event -/

/-- The row is terminal and its event has no task left to deliver it. -/
def Lost (s : RunnerState) : Prop :=
  ∃ state e, state.isTerminal = true ∧ Doomed state (some e) s

private theorem lost_of_abort (h : Inv True True s) (ha : AbortsTerminal s a)
    (hstep : step s a = some t) : Lost t := by
  cases a with
  | advance =>
    obtain ⟨e, after, hpc, hcan, hc, hterm⟩ := ha
    obtain ⟨hsend, hpending⟩ := h.at hpc
    rw [step_abort hpc hcan hc] at hstep
    cases hstep
    cases after with
    | completed =>
      obtain ⟨hrec, hrow⟩ := hsend
      refine ⟨_, e, hterm, rfl, hpending, .inr ⟨hc, .inl ⟨_, rfl, ?_⟩⟩⟩
      -- the copy says `Uploading`, so `Failed` is chosen
      rw [finalUpdate, if_neg (fun hno => hno.2 hrec), hrow]
      rfl
    | final => exact ⟨_, e, hterm, rfl, hpending, .inl rfl⟩
    | replayed =>
      rw [hsend.2.2] at hterm
      exact Bool.noConfusion hterm
    | accepted | running p | progress w =>
      rw [hsend.2] at hterm
      exact Bool.noConfusion hterm
    | uploading p outs =>
      rw [hsend.1] at hterm
      exact Bool.noConfusion hterm
  | _ => exact ha.elim

/-- **THE LAST EVENT, EXACTLY**: a run that returns after it has journalled a terminal state leaves
    no pending event if and only if it never gave up the event of a terminal state. -/
theorem terminal_delivered_iff {j : WorkerJobs} {r : JobRecord}
    (hj : Reachable Journal.step Table.empty j) (hr : r ∈ j.rows)
    (hlive : r.state.isTerminal = false) {acts : List Act} {s : RunnerState}
    (hrun : run step (start r) acts = some s) (hret : s.pc = .returned)
    (hterm : s.row.state.isTerminal = true) :
    s.row.pendingEvent = none ↔ Admitted step (fun s a => ¬ AbortsTerminal s a) (start r) acts := by
  have hwf := wellFormed_of_reachable hj r hr
  constructor
  · intro hnone
    refine admitted_of_not_doomed (I := Inv True True) (D := Lost)
      (fun s a t h ht => inv_step h (fun _ => trivial) (fun _ => trivial) ht)
      (fun s a t h hno ht => lost_of_abort h (not_not.mp hno) ht)
      ?_ acts _ s (inv_start hwf hlive) hrun ?_
    · rintro s a t ⟨state, e, hst, hd⟩ ht
      exact ⟨state, e, hst, doomed_step hd ht⟩
    rintro ⟨state, e, -, -, hsome, -⟩
    rw [hnone] at hsome
    cases hsome
  · intro hok
    have hinv : Inv True False s :=
      inv_run_admitted (I := Inv True False)
        (fun s a t h hk ht => inv_step h (fun _ => trivial) hk ht)
        (inv_start hwf hlive) hok hrun
    rcases hinv.at hret with ⟨-, hnone | hno⟩ | ⟨-, hrow⟩
    · exact hnone
    · exact hno.elim
    · rw [hrow] at hterm
      exact Bool.noConfusion hterm

/-- The token fires while the `Completed` event is in the send loop. -/
def cancelledCompletion : List Act :=
  untilOutputs ++ [.emit 3] ++ delivered
    ++ [.outputDir (.ok ()), .advance, .emit 4, .cancelJob, .advance, .advance, .emit 5]

theorem closedPermit_delivers :
    ∃ s, run step (start (.received plainDispatch)) closedPermit = some s
      ∧ s.pc = .returned ∧ s.row.state = .failed
      ∧ (s.row.pendingEvent = none ↔ Admitted step (fun s a => ¬ AbortsTerminal s a)
          (start (.received plainDispatch)) closedPermit) :=
  ⟨_, rfl, rfl, rfl, terminal_delivered_iff sampleJournal_reachable
    received_mem_sampleJournal rfl rfl rfl rfl⟩

/-- `Completed` is journalled, given up, and left to no task. -/
theorem cancelledCompletion_undelivered :
    ¬ ∀ (j : WorkerJobs) (r : JobRecord) (acts : List Act) (s : RunnerState),
      Reachable Journal.step Table.empty j → r ∈ j.rows →
      r.state.isTerminal = false → run step (start r) acts = some s →
      s.pc = .returned → s.row.state.isTerminal = true →
      s.row.pendingEvent = none := by
  intro h
  obtain ⟨s, hrun, hret, hrow, hpending⟩ : ∃ s,
      run step (start (.received plainDispatch)) cancelledCompletion = some s
        ∧ s.pc = .returned ∧ s.row.state = .completed
        ∧ s.row.pendingEvent.isSome = true := ⟨_, rfl, rfl, rfl, rfl⟩
  have hnone := h _ _ _ s sampleJournal_reachable received_mem_sampleJournal
    rfl hrun hret (by rw [hrow]; rfl)
  rw [hnone] at hpending
  exact Bool.noConfusion hpending

/-! ## Draining the outbox on recovery -/

/-- The event was transmitted and acknowledged, or given up because the job was cancelled. -/
def Settled (e : JobEvent) (s : RunnerState) : Prop :=
  (.transmitted e ∈ s.trace ∧ .acknowledged e ∈ s.trace)
    ∨ (.aborted e ∈ s.trace ∧ s.cancelled = true)

/-- What happens to a run whose journal may fail. -/
inductive Event where
  | act (a : Act)
  | journalFailed (error : String)

def stepOrFail (s : RunnerState) : Event → Option RunnerState
  | .act a => step s a
  | .journalFailed error => ioFailed s error

/-- `SetPendingEvent` of the replay, the first call of a run on a pending event, does not fail. -/
def Rejournals (s : RunnerState) : Event → Prop
  | .act _ => True
  | .journalFailed _ => s.pc ≠ .entry

/-- A run on a record with a pending event has not looked at it yet, is
    sending it, or has settled it. -/
def Draining (e : JobEvent) (s : RunnerState) : Prop :=
  (Inv True True s ∧ s.pc = .entry ∧ s.record.pendingEvent = some e)
    ∨ (∃ phase, s.pc = .sending e .replayed phase
      ∧ ∀ w, phase = .awaiting w → .transmitted e ∈ s.trace)
    ∨ Settled e s

theorem Settled.extend (h : Settled e s) (hsub : s.trace ⊆ t.trace)
    (hc : s.cancelled = true → t.cancelled = true) :
    Settled e t := by
  rcases h with ⟨h₁, h₂⟩ | ⟨h₁, h₂⟩
  · exact .inl ⟨hsub h₁, hsub h₂⟩
  · exact .inr ⟨hsub h₁, hc h₂⟩

/-- The replay goes round its loop until it is settled. -/
private theorem draining_sending {phase : Phase} (hpc : s.pc = .sending e .replayed phase)
    (hsent : ∀ w, phase = .awaiting w → .transmitted e ∈ s.trace)
    (hmove : move s s.pc a = some t) : Draining e t := by
  rw [hpc] at hmove
  cases phase with
  | head =>
    cases a with
    | advance =>
      rw [move] at hmove
      split at hmove
      · next hc =>
        cases hmove
        refine .inr (.inr (.inr ⟨?_, hc.2⟩))
        exact mem_append_right _ (mem_singleton_self _)
      · cases hmove
        exact .inr (.inl ⟨_, rfl, nofun⟩)
    | _ => cases hmove
  | transmitting w =>
    cases a with
    | transmit =>
      cases hmove
      refine .inr (.inl ⟨_, rfl, fun _ _ => ?_⟩)
      exact mem_append_right _ (mem_singleton_self _)
    | sendFailed =>
      cases hmove
      exact .inr (.inl ⟨_, rfl, nofun⟩)
    | ack =>
      cases w with
      | registered =>
        cases hmove
        exact .inr (.inl ⟨_, rfl, nofun⟩)
      | _ => cases hmove
    | _ => cases hmove
  | awaiting w =>
    have hmem := hsent w rfl
    cases w with
    | registered =>
      cases a with
      | ack =>
        cases hmove
        exact .inr (.inl ⟨_, rfl, fun _ _ => hmem⟩)
      | timeout =>
        cases hmove
        exact .inr (.inl ⟨_, rfl, nofun⟩)
      | _ => cases hmove
    | resolved =>
      cases a with
      | advance =>
        cases hmove
        refine .inr (.inr (.inl ⟨?_, ?_⟩))
        · exact mem_append_left _ hmem
        · exact mem_append_right _ (mem_singleton_self _)
      | _ => cases hmove
    | dropped =>
      cases a with
      | advance =>
        cases hmove
        exact .inr (.inl ⟨_, rfl, nofun⟩)
      | _ => cases hmove

/-- At its entry the run journals the event again, and the row takes it. -/
private theorem draining_entry (hinv : Inv True True s) (hpc : s.pc = .entry)
    (hpending : s.record.pendingEvent = some e) (hstep : step s a = some t) : Draining e t := by
  have hinv' := inv_step hinv (fun _ => trivial) (fun _ => trivial) hstep
  cases a with
  | cancelJob =>
    rw [step, if_neg (by simp [hpc])] at hstep
    cases hstep
    exact .inl ⟨hinv', by rw [hpc]; rfl, hpending⟩
  | redispatch d =>
    rw [step] at hstep
    split at hstep
    all_goals
      cases hstep
      exact .inl ⟨hinv', hpc, hpending⟩
  | advance =>
    obtain ⟨hrow, hl, -⟩ := hinv.at hpc
    have hmove : move s s.pc .advance = some t := hstep
    rw [hpc, move, ← hrow, hl.2, hpending] at hmove
    change some (sendJobEvent s e none .replayed) = some t at hmove
    rw [(inv_replay hinv hpc hpending).1] at hmove
    cases hmove
    exact .inr (.inl ⟨_, rfl, by simp⟩)
  | _ =>
    have hmove : move s s.pc _ = some t := hstep
    rw [hpc] at hmove
    cases hmove

/-- Dropping the waiter sends the loop back to its head, nothing else. -/
private theorem draining_cancel {phase : Phase} (hpc : s.pc = .sending e .replayed phase)
    (hsent : ∀ w, phase = .awaiting w → .transmitted e ∈ s.trace) :
    Draining e { s with cancelled := true, pc := dropWaiter s.pc } := by
  refine .inr (.inl ?_)
  rw [hpc]
  cases phase with
  | head => exact ⟨_, rfl, nofun⟩
  | transmitting w => cases w <;> exact ⟨_, rfl, nofun⟩
  | awaiting w => cases w <;> exact ⟨_, rfl, fun _ _ => hsent _ rfl⟩

theorem extends_ioFailed {error : String} (h : ioFailed s error = some t) : Extends s t := by
  unfold ioFailed at h
  split at h
  · obtain ⟨-, rfl⟩ := of_guard_not h
    exact extends_sendErr (extends_of_eq rfl rfl)
  · cases h
    exact extends_sendErr (extends_of_eq rfl rfl)
  · cases h
    exact extends_of_eq rfl rfl
  · cases h
    exact extends_sendErr ⟨prefix_append _ _, rfl⟩
  · cases h

theorem Settled.step (h : Settled e s) {a : Event} (hstep : stepOrFail s a = some t) :
    Settled e t := by
  have hmove : Extends s t → Settled e t := fun ⟨hpre, hc⟩ =>
    h.extend hpre.subset fun hs => hc.trans hs
  cases a with
  | journalFailed error => exact hmove (extends_ioFailed hstep)
  | act a =>
    cases a with
    | cancelJob =>
      rw [stepOrFail, Runner.step] at hstep
      split at hstep
      · exact some.inj hstep ▸ h
      · exact some.inj hstep ▸ h.extend (List.Subset.refl _) fun _ => rfl
    | redispatch d =>
      rw [stepOrFail, Runner.step] at hstep
      split at hstep
      all_goals exact some.inj hstep ▸ h
    | _ => exact hmove (extends_move hstep)

private theorem draining_step {a : Event} (h : Draining e s) (hok : Rejournals s a)
    (hstep : stepOrFail s a = some t) : Draining e t := by
  rcases h with ⟨hinv, hpc, hpending⟩ | ⟨phase, hpc, hsent⟩ | hset
  · cases a with
    | act a => exact draining_entry hinv hpc hpending hstep
    | journalFailed error => exact absurd hpc hok
  · cases a with
    | journalFailed error =>
      -- only the call after the acknowledgement can fail here
      rw [stepOrFail, ioFailed, hpc] at hstep
      cases phase with
      | awaiting w =>
        cases w with
        | resolved =>
          cases hstep
          exact .inr (.inr (.inl ⟨mem_append_left _ (hsent _ rfl),
            mem_append_right _ (mem_singleton_self _)⟩))
        | _ => cases hstep
      | _ => cases hstep
    | act a =>
      cases a with
      | cancelJob =>
        rw [stepOrFail, step, if_neg (by simp [hpc])] at hstep
        exact some.inj hstep ▸ draining_cancel hpc hsent
      | redispatch d =>
        rw [stepOrFail, step] at hstep
        split at hstep
        all_goals exact some.inj hstep ▸ .inr (.inl ⟨phase, hpc, hsent⟩)
      | _ => exact draining_sending hpc hsent hstep
  · exact .inr (.inr (hset.step hstep))

/-- A run that has returned has settled the event it started with. -/
private theorem settled_of_live {r : JobRecord} (hwf : WellFormed r)
    (hlive : r.state.isTerminal = false) (hpending : r.pendingEvent = some e)
    {acts : List Event} (hok : Admitted stepOrFail Rejournals (start r) acts)
    (hrun : run stepOrFail (start r) acts = some s) (hret : s.pc = .returned) :
    Settled e s := by
  have h := inv_run_admitted (I := Draining e) (fun s a t h hk ht => draining_step h hk ht)
    (.inl ⟨inv_start hwf hlive, rfl, hpending⟩) hok hrun
  rcases h with ⟨-, hpc, -⟩ | ⟨phase, hpc, -⟩ | hset
  · rw [hret] at hpc
    cases hpc
  · rw [hret] at hpc
    cases hpc
  · exact hset

/-- **THE OUTBOX ON RECOVERY, EXACTLY**: for every record `ListUnfinished`
    returns with a pending event, every run of `execute` that journals the event again settles it
    before it returns, whatever journal calls fail after that, if and only if the record is not
    terminal. -/
theorem pending_drained_iff {j : WorkerJobs} {r : JobRecord} {e : JobEvent}
    (hj : Reachable Journal.step Table.empty j) (hr : r ∈ listUnfinished j)
    (hpending : r.pendingEvent = some e) :
    (∀ acts s, Admitted stepOrFail Rejournals (start r) acts →
      run stepOrFail (start r) acts = some s → s.pc = .returned →
      Settled e s) ↔ r.state.isTerminal = false := by
  have hmem : r ∈ j.rows := (mem_filter.mp hr).1
  constructor
  · intro h
    by_contra hterm
    rw [Bool.not_eq_false] at hterm
    -- a terminal record: the first move returns
    have hfirst : stepOrFail (start r) (.act .advance) = some { start r with pc := .returned } :=
      if_pos hterm
    have hset := h [.act .advance] _ (.cons trivial hfirst trivial)
      (run_cons_eq_some.mpr ⟨_, hfirst, rfl⟩) rfl
    rcases hset with ⟨hmem, -⟩ | ⟨hmem, -⟩
    · cases hmem
    · cases hmem
  · intro hlive acts s hok hrun hret
    exact settled_of_live (wellFormed_of_reachable hj r hmem) hlive hpending hok hrun hret

/-- The event of a job the semaphore ended, journalled before a crash. -/
def crashedEvent : JobEvent where
  jobId := "job"
  attempt := 1
  sequence := 1
  kind := .failed
  progress := none
  promptId := none
  message := "control connection is closed"
  unixMs := 1

/-- The journal after a crash between `SetPendingEvent` and the acknowledgement. -/
def crashedJournal (state : JobState) : WorkerJobs :=
  call sampleJournal (.setPendingEvent crashedEvent (some state))

/-- The record that journal holds. -/
def crashedRecord (state : JobState) : JobRecord :=
  { JobRecord.received plainDispatch with
    state := state, eventSequence := 1, pendingEvent := some crashedEvent }

theorem crashedJournal_reachable (state : JobState) :
    Reachable Journal.step Table.empty (crashedJournal state) :=
  sampleJournal_reachable.tail rfl

theorem accepted_record_drained :
    (∀ acts s, Admitted stepOrFail Rejournals (start (crashedRecord .accepted)) acts →
      run stepOrFail (start (crashedRecord .accepted)) acts = some s →
      s.pc = .returned → Settled crashedEvent s)
      ↔ (crashedRecord .accepted).state.isTerminal = false :=
  pending_drained_iff (crashedJournal_reachable .accepted) (mem_singleton.mpr rfl) rfl

/-- `ListUnfinished` returns the failed record; `execute` returns on it without a word. -/
theorem failed_record_not_drained :
    ¬ ∀ (j : WorkerJobs) (r : JobRecord) (e : JobEvent) (acts : List Event)
      (s : RunnerState), Reachable Journal.step Table.empty j →
      r ∈ listUnfinished j → r.pendingEvent = some e →
      run stepOrFail (start r) acts = some s → s.pc = .returned → Settled e s := by
  intro h
  have hset := h (crashedJournal .failed) (crashedRecord .failed) crashedEvent
    [.act .advance] _ (crashedJournal_reachable .failed)
    (mem_singleton.mpr rfl) rfl rfl rfl
  rcases hset with ⟨hmem, -⟩ | ⟨hmem, -⟩
  · cases hmem
  · cases hmem

/-- The journal does not take the replayed event: `Failed` is journalled and sent in its place. -/
example : (run stepOrFail (start (crashedRecord .accepted))
    ([.journalFailed "disk I/O error", .act .advance, .act (.emit 2)]
      ++ delivered.map .act)).map (fun s => (s.pc, s.trace.contains (.transmitted crashedEvent)))
    = some (.returned, false) := by
  decide +kernel

end Delivery
