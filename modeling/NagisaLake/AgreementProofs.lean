import NagisaLake.JournalProofs
import NagisaLake.HubRowsProofs

/-! # Agreement — the worker's journal and the Hub's row of one job

The worker files an event in its journal, sends it until an acknowledgement
comes back and only then clears it.  Between the journal and the row stand
the connection, which may be lost with everything on it, the handlers of the
Hub, which run side by side, and the Hub's memory, which a crash empties.

`agrees_of_reachable` is the contract in every interleaving: an event the
worker has cleared is accounted for by the row, and a row that says
`Completed` has the journal's word for it.  The row counts in `i64`, the
worker in `u64`, so "accounted for" ends at `i64::MAX`:
`cleared_beyond_i64` is a run in which the worker has cleared an event that
the row does not reach. -/

namespace Agreement

open Jobs KeyedTable Runs Pools HubStore HubEvents Table List Journal Option
open Uploads (WorkerSession)

/-! ## The worker -/

/-- The waiter of an event in `Waiters::events`. -/
inductive Waiter where
  | registered
  | resolved
  /-- `cancel_job` has dropped it. -/
  | dropped
  deriving DecidableEq, Repr

/-- Where `send_job_event` stands. -/
inductive Sender where
  | idle
  /-- The head of the loop; the event is in the journal. -/
  | head (e : JobEvent)
  /-- The waiter is registered; the frame is on the connection once `sent`. -/
  | waiting (e : JobEvent) (sent : Bool) (waiter : Waiter)
  deriving DecidableEq

/-- `resolve_job_event`: an acknowledgement nobody waits for is dropped. -/
def Sender.resolve (s : Sender) (ack : JobEventAck) : Sender :=
  match s with
  | .waiting e sent .registered =>
    if (e.jobId, e.sequence) = (ack.jobId, ack.sequence) then
      .waiting e sent .resolved
    else s
  | _ => s

/-- The Hub with its handlers, the worker with its journal, and the control
    connection between them. -/
structure World where
  hub : Pool Hub Task
  journal : Option JobRecord
  /-- The runner's own count of events. -/
  sequence : Nat
  sender : Sender
  /-- The session of the connection. -/
  link : Option String
  uplink : List JobEvent
  downlink : List JobEventAck
  /-- The sequences of the events the worker has cleared. -/
  cleared : List Nat

/-- The connection is gone, with what was on it. -/
def World.cut (w : World) (link : Option String) : World :=
  { w with link := link, uplink := [], downlink := [] }

/-- The start of `send_job_event`; an error of the journal ends it. -/
def World.file (w : World) (r : JobRecord) (e : JobEvent) (state : Option JobState) : World :=
  match setPendingEvent r e state with
  | .ok r' => { w with journal := some r', sender := .head e }
  | .error _ => w

/-- The event `emit` builds. -/
def World.emitted (b : Binding) (w : World) (kind : JobEventKind)
    (progress : Option Rat) (promptId : Option String) (message : String)
    (unixMs : Int) : JobEvent :=
  ⟨b.jobId, b.attempt, saturatingSucc w.sequence, kind, progress, promptId, message, unixMs⟩

/-! ## What can happen -/

/-- An action of the worker, of the Hub or of the connection. -/
inductive Act where
  /-- `UpsertDispatch`. -/
  | dispatch (d : DispatchJob)
  /-- The runner takes the job up, from the journal's sequence. -/
  | execute
  /-- `emit`, up to the journal. -/
  | emit (kind : JobEventKind) (progress : Option Rat)
      (promptId : Option String) (message : String) (unixMs : Int)
  /-- The pending event is sent again. -/
  | replay
  /-- `send_job_event` sees the cancellation at the head of the loop. -/
  | cancelled
  | register
  | transmit
  | cancelJob
  | timeout
  /-- An acknowledgement arrives. -/
  | resolve
  /-- `ClearPendingEvent`. -/
  | clear
  /-- The worker's process is lost. -/
  | crash
  | connect (sessionId : String)
  | disconnect
  /-- The Hub notices that the worker is gone. -/
  | unregister
  /-- A frame arrives. -/
  | receive
  | advance (i : Nat) (reply : Reply)
  /-- A handler sends its acknowledgement. -/
  | answer (i : Nat)
  | rebind (sessionId : String)
  | updateError (message : String) (terminal : Bool)
  | cancel
  | outbox
  | reconcile (now staleAfterMs : Int) (seen : Int → List Key)
  /-- The Hub's process is lost and starts again. -/
  | restart

/-- What a session of the worker finds registered. -/
def registered (b : Binding) (sessionId : String) : Session :=
  ⟨b.workerOrganizationId, b.workerId, sessionId⟩

/-- A handler more. -/
def World.spawn (w : World) (t : Task) : World :=
  { w with hub := w.hub.spawn t }

/-- The Hub's sessions. -/
def World.setSessions (w : World) (sessions : Table Key Session Session.key) : World :=
  { w with hub := { w.hub with
      shared := { w.hub.shared with sessions := sessions } } }

/-- One action. -/
def step (b : Binding) (w : World) : Act → Option World
  | .dispatch d =>
    -- the Hub dispatches the job with the attempt of its row
    if d.jobId = b.jobId ∧ d.attempt = b.attempt then
      match w.journal with
      | none => some { w with journal := some (.received d) }
      | some r =>
        match redispatch r d with
        | .ok r' => some { w with journal := some r' }
        | .error _ => some w
    else none
  | .execute =>
    match w.sender, w.journal with
    | .idle, some r => some { w with sequence := r.eventSequence }
    | _, _ => none
  | .emit kind progress promptId message unixMs =>
    match w.sender, w.journal with
    | .idle, some r => some ({ w with
        sequence := saturatingSucc w.sequence }.file r
          (w.emitted b kind progress promptId message unixMs)
          (some (nextState kind)))
    | _, _ => none
  | .replay =>
    match w.sender, w.journal with
    | .idle, some r => r.pendingEvent.map fun e => w.file r e none
    | _, _ => none
  | .cancelled =>
    match w.sender with
    | .head e => if e.kind = .cancelled then none
      else some { w with sender := .idle }
    | _ => none
  | .register =>
    match w.sender with
    | .head e => some { w with sender := .waiting e false .registered }
    | _ => none
  | .transmit =>
    match w.sender, w.link with
    | .waiting e false waiter, some _ => some { w with
        sender := .waiting e true waiter
        uplink := w.uplink ++ [e] }
    | _, _ => none
  | .cancelJob =>
    match w.sender with
    | .waiting e sent .registered =>
      some { w with sender := .waiting e sent .dropped }
    | _ => some w
  | .timeout =>
    match w.sender with
    | .waiting _ true .resolved => none
    | .waiting e true _ => some { w with sender := .head e }
    | _ => none
  | .resolve =>
    match w.downlink with
    | ack :: rest => some { w with
        sender := w.sender.resolve ack
        downlink := rest }
    | [] => none
  | .clear =>
    match w.sender with
    | .waiting e true .resolved => some { w with
        sender := .idle
        journal := w.journal.map fun r => clearPendingEvent r e.sequence
        cleared := e.sequence :: w.cleared }
    | _ => none
  | .crash => some ({ w with sender := .idle, sequence := 0 }.cut none)
  | .connect sessionId =>
    some ((w.setSessions (w.hub.shared.sessions.put (registered b sessionId))).cut (some sessionId))
  | .disconnect => some (w.cut none)
  | .unregister => some (w.setSessions (w.hub.shared.sessions.delete
      fun s => s.key = (b.workerOrganizationId, b.workerId)))
  | .receive =>
    match w.uplink, w.link with
    | e :: rest, some sessionId => some
        ({ w with uplink := rest }.spawn (.lookup (b.session sessionId) e))
    | _, _ => none
  | .advance i reply =>
    (w.hub.advance taskStep i reply).map fun hub => { w with hub := hub }
  | .answer i =>
    match w.hub.tasks[i]? with
    | some (.answer s ack) => some { w with
        hub := { w.hub with tasks := w.hub.tasks.set i (.done (.ok ())) }
        downlink := if w.link = some s.sessionId then w.downlink ++ [ack]
          else w.downlink }
    | _ => none
  | .rebind sessionId => some (w.spawn (.rebind (b.session sessionId) b.jobId))
  | .updateError message terminal =>
    some (w.spawn (.updateError b.jobId message terminal))
  | .cancel => some (w.spawn (.cancel b.jobId))
  | .outbox => some (w.spawn (.outbox b.key))
  | .reconcile now staleAfterMs seen => some { w with
      hub := { w.hub with shared := { w.hub.shared with
        store := (reconcileActiveJobQuota w.hub.shared.store now staleAfterMs seen).1 } } }
  | .restart => some ({ w with
      hub := ⟨⟨w.hub.shared.store, hydrate w.hub.shared.store, Table.empty⟩, []⟩ }.cut none)

/-! ## What holds throughout -/

/-- The worker has filed the job as completed. -/
def Completed (journal : Option JobRecord) : Prop :=
  ∃ r, journal = some r ∧ r.state = .completed

/-- What `send_job_event` works on; a resolved waiter has the row's word. -/
def Sender.Holds (b : Binding) (final : Prop) (j : JobRow) : Sender → Prop
  | .idle => True
  | .head e => Ours b final e
  | .waiting e _ waiter => Ours b final e ∧ (waiter = .resolved → Acked j e.sequence)

/-- The invariant, with the row of the job. -/
structure Inv (b : Binding) (j : JobRow) (w : World) : Prop where
  hub : HubInv b (Completed w.journal) j w.hub.shared
  tasks : ∀ t ∈ w.hub.tasks, t.Holds b (Completed w.journal) j
  pending : ∀ r e, w.journal = some r → r.pendingEvent = some e → Ours b (Completed w.journal) e
  sender : w.sender.Holds b (Completed w.journal) j
  uplink : ∀ e ∈ w.uplink, Ours b (Completed w.journal) e
  downlink : ∀ a ∈ w.downlink, Acked j a.sequence
  cleared : ∀ n ∈ w.cleared, Acked j n

section Invariant

variable {b : Binding} {final final' : Prop} {j j' : JobRow} {w : World}

theorem Sender.Holds.move {s : Sender} (h : s.Holds b final j)
    (hm : Moves final j j') (hf : final → final') :
    s.Holds b final' j' := by
  cases s with
  | idle => exact trivial
  | head e => exact Ours.mono h hf
  | waiting e sent waiter =>
    exact ⟨h.1.mono hf, fun hr => (h.2 hr).move hm⟩

section

variable (h : Inv b j w)
include h

/-- The Hub takes a step and the row moves. -/
theorem Inv.moveHub {hub : Pool Hub Task} (hm : Moves (Completed w.journal) j j')
    (hhub : HubInv b (Completed w.journal) j' hub.shared)
    (htasks : ∀ t ∈ hub.tasks, t.Holds b (Completed w.journal) j') :
    Inv b j' { w with hub := hub } :=
  { h with
    hub := hhub
    tasks := htasks
    sender := h.sender.move hm id
    downlink := fun a ha => (h.downlink a ha).move hm
    cleared := fun n hn => (h.cleared n hn).move hm }

/-- The row moves under handlers that are not at work. -/
theorem Inv.moveStore {s : Store}
    (hs : w.hub.shared.store.jobs.Related (Moves (Completed w.journal)) s.jobs) :
    ∃ j', Inv b j' { w with hub := { w.hub with
      shared := { w.hub.shared with store := s } } } := by
  obtain ⟨j', hm, hi⟩ := h.hub.store hs
  exact ⟨j', h.moveHub hm hi fun t ht => (h.tasks t ht).move hm id⟩

/-- The journal is written; what it says of completion stays said. -/
theorem Inv.moveJournal {r : JobRecord} (sender : Sender)
    (hf : Completed w.journal → Completed (some r))
    (hr : ∀ e, r.pendingEvent = some e → Ours b (Completed (some r)) e)
    (hs : sender.Holds b (Completed (some r)) j) :
    Inv b j { w with journal := some r, sender := sender } :=
  { h with
    hub := h.hub.mono hf
    tasks := fun t ht => (h.tasks t ht).move (Moves.refl j) hf
    pending := fun _ e hr' he => hr e (some.inj hr' ▸ he)
    sender := hs
    uplink := fun e he => (h.uplink e he).mono hf }

/-- `send_job_event` goes on. -/
theorem Inv.moveSender {sender : Sender} (hs : sender.Holds b (Completed w.journal) j) :
    Inv b j { w with sender := sender } :=
  ⟨h.hub, h.tasks, h.pending, hs, h.uplink, h.downlink, h.cleared⟩

/-- A handler more. -/
theorem Inv.spawn {t : Task} (ht : t.Holds b (Completed w.journal) j) : Inv b j (w.spawn t) :=
  h.moveHub (Moves.refl j) h.hub (forall_tasks_spawn h.tasks ht)

/-- Sessions come and go. -/
theorem Inv.setSessions (sessions : Table Key Session Session.key) :
    Inv b j (w.setSessions sessions) :=
  h.moveHub (Moves.refl j) (h.hub.sessions sessions) h.tasks

/-- Losing what was on the connection loses nothing else. -/
theorem Inv.cut (link : Option String) : Inv b j (w.cut link) := { h with
  uplink := nofun
  downlink := nofun }

/-- **FILING AN EVENT**: a completion is in the journal before it is on the wire. -/
theorem Inv.file {r : JobRecord} {e : JobEvent} {state : Option JobState} (hr : w.journal = some r)
    (he : ∀ r', setPendingEvent r e state = .ok r' →
      Ours b (Completed (some r')) e) : Inv b j (w.file r e state) := by
  rw [World.file]
  split
  · next r' hok =>
    obtain ⟨-, hcan, hr'⟩ := setPendingEvent_ok hok
    refine h.moveJournal _ ?_ ?_ (he r' hok)
    · rintro ⟨i, hi, hdone⟩
      cases hi.symm.trans hr
      refine ⟨r', rfl, ?_⟩
      rw [hr']
      cases state with
      | none => exact hdone
      | some next =>
        have hstay := JobState.eq_of_isTerminal (by rw [hdone]; rfl) (hcan next rfl)
        exact hstay.trans hdone
    · intro e' he'
      rw [hr'] at he'
      exact some.inj he' ▸ he r' hok
  · exact h

/-- The runner's count is its own affair. -/
theorem Inv.setSequence (n : Nat) : Inv b j { w with sequence := n } :=
  ⟨h.hub, h.tasks, h.pending, h.sender, h.uplink, h.downlink, h.cleared⟩

end

/-! ## The actions of the worker -/

variable {w' : World}

theorem inv_dispatch {d : DispatchJob} (h : Inv b j w)
    (hstep : step b w (.dispatch d) = some w') : Inv b j w' := by
  rw [step] at hstep
  split at hstep
  · split at hstep
    · next hnone =>
      cases hstep
      refine h.moveJournal w.sender ?_ nofun ?_
      · rintro ⟨r, hr, -⟩
        rw [hnone] at hr
        cases hr
      refine h.sender.move (Moves.refl j) ?_
      rintro ⟨r, hr, -⟩
      rw [hnone] at hr
      cases hr
    · next r hr =>
      split at hstep
      · next r' hok =>
        cases hstep
        have hsame : r'.state = r.state ∧ r'.pendingEvent = r.pendingEvent := by
          rw [redispatch] at hok
          split at hok
          · split at hok
            all_goals exact Except.ok.inj hok ▸ ⟨rfl, rfl⟩
          · cases hok
        have hf : Completed w.journal → Completed (some r') := by
          rintro ⟨i, hi, hdone⟩
          cases hi.symm.trans hr
          exact ⟨r', rfl, hsame.1.trans hdone⟩
        refine h.moveJournal w.sender hf ?_ (h.sender.move (Moves.refl j) hf)
        intro e he
        exact (h.pending r e hr (hsame.2 ▸ he)).mono hf
      · cases hstep
        exact h
  · cases hstep

theorem inv_emit {kind : JobEventKind} {progress : Option Rat}
    {promptId : Option String} {message : String} {unixMs : Int}
    (h : Inv b j w)
    (hstep : step b w (.emit kind progress promptId message unixMs) = some w') : Inv b j w' := by
  rw [step] at hstep
  split at hstep
  · next r hidle hr =>
    cases hstep
    refine (h.setSequence _).file hr fun r' hok => ⟨rfl, rfl, ?_⟩
    intro hkind
    obtain ⟨-, -, rfl⟩ := setPendingEvent_ok hok
    refine ⟨_, rfl, ?_⟩
    rw [show kind = .completed from hkind]
    rfl
  · cases hstep

theorem inv_replay (h : Inv b j w) (hstep : step b w .replay = some w') : Inv b j w' := by
  rw [step] at hstep
  split at hstep
  · next r hidle hr =>
    obtain ⟨e, he, rfl⟩ := map_eq_some_iff.mp hstep
    refine h.file hr fun r' hok => ?_
    obtain ⟨-, -, rfl⟩ := setPendingEvent_ok hok
    refine (h.pending r e hr he).mono ?_
    rintro ⟨i, hi, hdone⟩
    cases hi.symm.trans hr
    exact ⟨_, rfl, hdone⟩
  · cases hstep

theorem Sender.Holds.resolve {s : Sender} {ack : JobEventAck}
    (h : s.Holds b final j) (hack : Acked j ack.sequence) :
    (s.resolve ack).Holds b final j := by
  unfold Sender.resolve
  split
  · split
    · next heq =>
      refine ⟨h.1, fun _ => ?_⟩
      rw [(Prod.mk.inj heq).2]
      exact hack
    · exact h
  · exact h

section

variable (h : Inv b j w)
include h

/-- **CLEARING**: the acknowledgement that was resolved has the row's word, and
    so has the cleared sequence from now on. -/
theorem inv_clear (hstep : step b w .clear = some w') : Inv b j w' := by
  rw [step] at hstep
  split at hstep
  · next e hs =>
    cases hstep
    have hsender := h.sender
    rw [hs] at hsender
    have hf : Completed w.journal →
        Completed (w.journal.map fun r => clearPendingEvent r e.sequence) := by
      rintro ⟨r, hr, hdone⟩
      refine ⟨clearPendingEvent r e.sequence, by rw [hr]; rfl, ?_⟩
      rw [clearPendingEvent]
      split
      · exact hdone
      · exact hdone
    refine ⟨h.hub.mono hf, ?_, ?_, trivial, ?_, h.downlink, ?_⟩
    · intro t ht
      exact (h.tasks t ht).move (Moves.refl j) hf
    · intro r' e' hr' he'
      obtain ⟨r, hr, rfl⟩ := map_eq_some_iff.mp hr'
      rw [clearPendingEvent] at he'
      split at he'
      · cases he'
      · exact (h.pending r e' hr he').mono hf
    · intro e' he'
      exact (h.uplink e' he').mono hf
    · intro n hn
      rcases mem_cons.mp hn with rfl | hn
      · exact hsender.2 rfl
      · exact h.cleared n hn
  · cases hstep

/-! ## The actions of the Hub -/

theorem inv_receive (hstep : step b w .receive = some w') : Inv b j w' := by
  rw [step] at hstep
  split at hstep
  · next e rest sessionId huplink hlink =>
    cases hstep
    have he : Ours b (Completed w.journal) e := by
      refine h.uplink e ?_
      rw [huplink]
      exact mem_cons_self
    have hrest : Inv b j { w with uplink := rest } := by
      refine { h with uplink := fun e' he' => h.uplink e' ?_ }
      rw [huplink]
      exact mem_cons_of_mem e he'
    exact hrest.spawn ⟨⟨rfl, rfl⟩, he⟩
  · cases hstep

/-- **ONE STATEMENT OF A HANDLER**, beside all the others. -/
theorem inv_advance {i : Nat} {reply : Reply} (hstep : step b w (.advance i reply) = some w') :
    ∃ j', Inv b j' w' := by
  obtain ⟨hub, hadv, rfl⟩ := map_eq_some_iff.mp hstep
  obtain ⟨t, s, t', ht, htask, rfl⟩ := Pool.advance_eq_some hadv
  obtain ⟨j', hm, hi, ht'⟩ := leads_taskStep h.hub (h.tasks t (mem_of_getElem? ht)) htask
  refine ⟨j', h.moveHub hm hi (forall_tasks_set ?_ ht')⟩
  intro u hu
  exact (h.tasks u hu).move hm id

theorem inv_answer {i : Nat} (hstep : step b w (.answer i) = some w') : Inv b j w' := by
  rw [step] at hstep
  split at hstep
  · next s ack ht =>
    cases hstep
    have hack : Acked j ack.sequence := h.tasks _ (mem_of_getElem? ht)
    have hhub : Inv b j { w with
        hub := { w.hub with tasks := w.hub.tasks.set i (.done (.ok ())) } } :=
      h.moveHub (Moves.refl j) h.hub (forall_tasks_set h.tasks trivial)
    refine { hhub with downlink := ?_ }
    intro a ha
    split at ha
    · rcases mem_append.mp ha with ha | ha
      · exact h.downlink a ha
      · rw [mem_singleton.mp ha]
        exact hack
    · exact h.downlink a ha
  · cases hstep

/-- **ONE ACTION** keeps the invariant. -/
theorem inv_step {a : Act} (hstep : step b w a = some w') : ∃ j', Inv b j' w' := by
  cases a with rw [step] at hstep
  | dispatch d => exact ⟨j, inv_dispatch h hstep⟩
  | execute =>
    split at hstep
    · cases hstep
      exact ⟨j, h.setSequence _⟩
    · cases hstep
  | emit kind progress promptId message unixMs => exact ⟨j, inv_emit h hstep⟩
  | replay => exact ⟨j, inv_replay h hstep⟩
  | cancelled =>
    split at hstep
    · obtain ⟨-, rfl⟩ := of_guard_not hstep
      exact ⟨j, h.moveSender trivial⟩
    · cases hstep
  | register =>
    split at hstep
    · next e hs =>
      cases hstep
      have hsender := h.sender
      rw [hs] at hsender
      exact ⟨j, h.moveSender ⟨hsender, nofun⟩⟩
    · cases hstep
  | transmit =>
    split at hstep
    · next e waiter _ hs _ =>
      cases hstep
      have hsender := h.sender
      rw [hs] at hsender
      have hsent : Inv b j { w with sender := .waiting e true waiter } :=
        h.moveSender hsender
      exact ⟨j, { hsent with
        uplink := forall_tasks_spawn h.uplink hsender.1 }⟩
    · cases hstep
  | cancelJob =>
    split at hstep
    · next e sent hs =>
      cases hstep
      have hsender := h.sender
      rw [hs] at hsender
      exact ⟨j, h.moveSender ⟨hsender.1, nofun⟩⟩
    · cases hstep
      exact ⟨j, h⟩
  | timeout =>
    split at hstep
    · cases hstep
    · next e waiter _ hs =>
      cases hstep
      have hsender := h.sender
      rw [hs] at hsender
      exact ⟨j, h.moveSender hsender.1⟩
    · cases hstep
  | resolve =>
    split at hstep
    · next ack rest hdown =>
      cases hstep
      have hack := h.downlink ack (by rw [hdown]; exact mem_cons_self)
      refine ⟨j, { h.moveSender (h.sender.resolve hack) with
        downlink := fun a ha => h.downlink a ?_ }⟩
      rw [hdown]
      exact mem_cons_of_mem ack ha
    · cases hstep
  | clear => exact ⟨j, inv_clear h hstep⟩
  | crash =>
    cases hstep
    have hidle : Inv b j { w with sender := .idle } := h.moveSender trivial
    exact ⟨j, (hidle.setSequence 0).cut none⟩
  | connect sessionId =>
    cases hstep
    exact ⟨j, (h.setSessions _).cut _⟩
  | disconnect =>
    cases hstep
    exact ⟨j, h.cut none⟩
  | unregister =>
    cases hstep
    exact ⟨j, h.setSessions _⟩
  | receive => exact ⟨j, inv_receive h hstep⟩
  | advance i reply => exact inv_advance h hstep
  | answer i => exact ⟨j, inv_answer h hstep⟩
  | reconcile now staleAfterMs seen =>
    cases hstep
    exact h.moveStore (related_reconcileActiveJobQuota _ _ _ _)
  | restart =>
    cases hstep
    refine ⟨j, Inv.cut (h.moveHub (Moves.refl j) ?_ ?_) none⟩
    · exact h.hub.restart empty
    · intro t ht
      cases ht
  | _ =>
    cases hstep
    exact ⟨j, h.spawn rfl⟩

end

end Invariant

/-! ## The contract -/

/-- The job has just been committed and bound: the worker does not know of it,
    and the submission may still be about to put it in memory. -/
structure Start (b : Binding) (j : JobRow) (w : World) : Prop where
  row : w.hub.shared.store.jobs.find? b.key = some j
  bound : Bound b j
  state : j.state = .received
  lastEvent : j.lastEvent = 0
  other : ∀ o, o ≠ b.organizationId → w.hub.shared.store.jobs.find? (o, b.jobId) = none
  cached : ∀ c, w.hub.shared.jobs.find? b.jobId = some c → c = ofRow j
  tasks : ∀ t ∈ w.hub.tasks, t = .cacheNew (ofRow j)
  journal : w.journal = none
  sender : w.sender = .idle
  uplink : w.uplink = []
  downlink : w.downlink = []
  cleared : w.cleared = []

theorem inv_start {b : Binding} {j : JobRow} {w : World} (h : Start b j w) : Inv b j w := by
  have hcopy := copy_ofRow h.bound (key_of_find? h.row)
  refine ⟨⟨h.row, h.bound, h.other, ?_, ?_⟩, ?_, ?_, ?_, ?_, ?_, ?_⟩
  · intro c hc
    rw [h.cached c hc]
    exact hcopy
  · intro hdone
    rw [h.state] at hdone
    cases hdone
  · intro t ht
    rw [h.tasks t ht]
    exact hcopy
  · intro r e hr
    rw [h.journal] at hr
    cases hr
  · rw [h.sender]
    exact trivial
  · rw [h.uplink]
    exact nofun
  · rw [h.downlink]
    exact nofun
  · rw [h.cleared]
    exact nofun

/-- Journal and row agree. -/
structure Agrees (b : Binding) (w : World) : Prop where
  /-- What the worker has cleared, the row accounts for. -/
  cleared : ∀ n ∈ w.cleared, ∃ j, w.hub.shared.store.jobs.find? b.key = some j
      ∧ (j.state.isTerminal = true ∨ min n i64Max ≤ j.lastEvent)
  /-- What the row says is completed, the worker has completed. -/
  completed : ∀ j, w.hub.shared.store.jobs.find? b.key = some j →
    j.state = .completed → ∃ r, w.journal = some r ∧ r.state = .completed

theorem Inv.agrees {b : Binding} {j : JobRow} {w : World} (h : Inv b j w) : Agrees b w where
  cleared := fun n hn => ⟨j, h.hub.row, h.cleared n hn⟩
  completed := by
    intro i hi hdone
    cases hi.symm.trans h.hub.row
    exact h.hub.completed hdone

theorem inv_of_reachable {b : Binding} {j : JobRow} {w₀ w : World}
    (hstart : Start b j w₀) (hreach : Reachable (step b) w₀ w) : ∃ i, Inv b i w := by
  refine inv_reachable (I := fun w => ∃ i, Inv b i w) ?_ ⟨j, inv_start hstart⟩ hreach
  rintro w₁ a w₂ ⟨i, hi⟩ hstep
  exact inv_step hi hstep

/-- **AGREEMENT**: in every interleaving, an event the worker has cleared is accounted for by a row
    that is terminal or has reached its sequence, as far as `i64` goes; and a row that says
    `Completed` has a journal that says so. -/
theorem agrees_of_reachable {b : Binding} {j : JobRow} {w₀ w : World}
    (hstart : Start b j w₀) (hreach : Reachable (step b) w₀ w) :
    Agrees b w := by
  obtain ⟨i, hi⟩ := inv_of_reachable hstart hreach
  exact hi.agrees

/-- **COHERENCE**: in every interleaving the job keeps its row, worker and attempt, and what goes to
    the Hub is of the job.  Clamped to `i64::MAX`, the last event of the copy in memory is never
    ahead of the row's, and a sequence that comes back is one the row has reached unless the row is
    terminal. -/
theorem coherent_of_reachable {b : Binding} {j : JobRow} {w₀ w : World}
    (hstart : Start b j w₀) (hreach : Reachable (step b) w₀ w) :
    ∃ i, w.hub.shared.store.jobs.find? b.key = some i ∧ Bound b i
      ∧ (∀ c, w.hub.shared.jobs.find? b.jobId = some c → Copy b i c)
      ∧ (∀ e ∈ w.uplink, e.jobId = b.jobId ∧ e.attempt = b.attempt)
      ∧ ∀ a ∈ w.downlink, Acked i a.sequence := by
  obtain ⟨i, hi⟩ := inv_of_reachable hstart hreach
  refine ⟨i, hi.hub.row, hi.hub.bound, hi.hub.cached, fun e he => ?_, hi.downlink⟩
  exact ⟨(hi.uplink e he).jobId, (hi.uplink e he).attempt⟩

/-! ## Counting past `i64::MAX`

The worker counts its events in `u64`; journal, event table and row store
the sequence clamped to `i64::MAX`.  An event with the next sequence and the
same payload is then taken for the one that is stored. -/

/-- A job of the worker's own organization. -/
def sampleBinding : Binding := ⟨"org", "job", "org", "default/gpu", 1⟩

/-- Its row, as committed. -/
def sampleRow : JobRow :=
  { finishedRow "org" with
    workerOrganizationId := some "org"
    state := .received
    lastEvent := 0 }

/-- The job has been committed; the worker is connected. -/
def sampleWorld : World where
  hub := ⟨{ store := { sampleStore with jobs := Table.empty.put sampleRow }
            jobs := Table.empty
            sessions := Table.empty.put (registered sampleBinding "session") },
    [.cacheNew (ofRow sampleRow)]⟩
  journal := none
  sequence := 0
  sender := .idle
  link := some "session"
  uplink := []
  downlink := []
  cleared := []

theorem sampleWorld_start : Start sampleBinding sampleRow sampleWorld where
  row := rfl
  bound := ⟨rfl, rfl, rfl⟩
  state := rfl
  lastEvent := rfl
  other := by
    intro o ho
    show (empty.put sampleRow).find? (o, "job") = none
    rw [find?_put, if_neg]
    · rfl
    · intro h
      exact ho (congrArg Prod.fst h).symm
  cached := nofun
  tasks := by
    intro t ht
    exact mem_singleton.mp ht
  journal := rfl
  sender := rfl
  uplink := rfl
  downlink := rfl
  cleared := rfl

/-- One event all the way: filed, sent, applied by the handler `i`, acknowledged and cleared. -/
def sampleRound (kind : JobEventKind) (i : Nat) : List Act :=
  [.emit kind none none "" 0, .register, .transmit, .receive, .advance i (.ok 0),
    .advance i (.ok 0), .advance i (.ok 0), .advance i (.ok 0), .answer i, .resolve, .clear]

/-- The job is in memory and the worker has accepted it. -/
def sampleActs : List Act :=
  [.advance 0 (.ok 0), .dispatch plainDispatch, .execute] ++ sampleRound .accepted 1

/-- The first event goes all the way, and journal and row agree. -/
theorem sampleWorld_agrees : ∃ w, Start sampleBinding sampleRow sampleWorld
      ∧ Reachable (step sampleBinding) sampleWorld w ∧ w.cleared = [1]
      ∧ Agrees sampleBinding w := by
  obtain ⟨w, hrun, hcleared⟩ : ∃ w, run (step sampleBinding) sampleWorld sampleActs = some w
      ∧ w.cleared = [1] := ⟨_, rfl, rfl⟩
  exact ⟨w, sampleWorld_start, ⟨_, hrun⟩, hcleared, agrees_of_reachable sampleWorld_start ⟨_, hrun⟩⟩

/-- The row at the end of it is the job's. -/
theorem sampleWorld_coherent : ∃ w i, Reachable (step sampleBinding) sampleWorld w
    ∧ w.hub.shared.store.jobs.find? sampleBinding.key = some i ∧ Bound sampleBinding i := by
  have hreach : Reachable (step sampleBinding) sampleWorld _ := ⟨sampleActs, rfl⟩
  obtain ⟨i, hi, hbound, -⟩ := coherent_of_reachable sampleWorld_start hreach
  exact ⟨_, i, hreach, hi, hbound⟩

section Rounds

variable {n : Nat} {h : Hub} {ts : List Task} {cl : List Nat}

/-- A report of progress with nothing else to say. -/
def frame (n : Nat) : JobEvent := ⟨"job", 1, n, .progress, none, none, "", 0⟩

/-- Its row. -/
def stored (n : Nat) : EventRow := ⟨"org", "job", 1, clampI64 n, .progress, none, none, "", 0⟩

/-- The running job at event `n`, in the store, … -/
def rowAt (n : Nat) : JobRow := { sampleRow with state := .running, lastEvent := clampI64 n }

/-- … in memory … -/
def copyAt (n : Nat) : CachedJob := { ofRow sampleRow with state := .running, lastEvent := n }

/-- … and in the journal. -/
def recordAt (n : Nat) : JobRecord :=
  { JobRecord.received plainDispatch with state := .running, eventSequence := clampI64 n }

/-- The worker is connected and nothing is under way. -/
def quiet (h : Hub) (ts : List Task) (n : Nat) (cl : List Nat) : World :=
  ⟨⟨h, ts⟩, some (recordAt n), n, .idle, some "session", [], [], cl⟩

/-- The event `n` is with the Hub. -/
def sent (h : Hub) (ts : List Task) (n : Nat) (acks : List JobEventAck) (cl : List Nat) : World :=
  ⟨⟨h, ts⟩, some { recordAt n with pendingEvent := some (frame n) }, n,
    .waiting (frame n) true .registered, some "session", [], acks, cl⟩

/-- The session of the connection. -/
def session : WorkerSession := sampleBinding.session "session"

/-- Memory and row stand at event `n`. -/
structure Even (n : Nat) (h : Hub) : Prop where
  memory : h.jobs.find? "job" = some (copyAt n)
  row : h.store.jobs.find? sampleBinding.key = some (rowAt n)
  current : h.isCurrent session = true
  unused : ∀ m, clampI64 n < m → h.store.events.find? (sampleBinding.key, 1, m) = none
  last : i64Max ≤ n → h.store.events.find? (sampleBinding.key, 1, i64Max) = some (stored n)

/-- The event table takes the next event: its sequence is unused, or the clamped
    one holds the same payload. -/
theorem Even.record (he : Even n h) :
    ∃ events, recordEvent h.store.events (stored (n + 1)) = some events
      ∧ (∀ m, clampI64 (n + 1) < m → events.find? (sampleBinding.key, 1, m) = none)
      ∧ (i64Max ≤ n + 1 → events.find? (sampleBinding.key, 1, i64Max) = some (stored (n + 1))) := by
  have hkey : (stored (n + 1)).key = (sampleBinding.key, 1, clampI64 (n + 1)) := rfl
  by_cases hn : i64Max ≤ n
  · -- the table already has the event
    have hclamp : clampI64 (n + 1) = i64Max ∧ clampI64 n = i64Max := by
      simp only [clampI64]
      omega
    have hsame : stored n = stored (n + 1) := by
      rw [stored, stored, hclamp.1, hclamp.2]
    have hlast := he.last hn
    rw [hsame] at hlast
    refine ⟨h.store.events, ?_, ?_, fun _ => hlast⟩
    · rw [recordEvent, hkey, hclamp.1, hlast]
      exact if_pos rfl
    · rw [hclamp.1, ← hclamp.2]
      exact he.unused
  · have hlt : clampI64 n < clampI64 (n + 1) := by
      simp only [clampI64]
      omega
    have hnone : h.store.events.find? (stored (n + 1)).key = none := he.unused _ hlt
    obtain ⟨events, hevents⟩ := exists_insert hnone
    refine ⟨events, ?_, ?_, ?_⟩
    · rw [recordEvent, hnone]
      exact hevents
    · intro m hm
      rw [find?_insert hevents, if_neg, he.unused m (hlt.trans hm)]
      intro heq
      exact absurd (congrArg (fun k => k.2.2) heq) (Nat.ne_of_lt hm)
    · intro hle
      rw [find?_insert hevents, if_pos]
      rw [hkey, clampI64, Nat.min_eq_right hle]

/-- Statements of one handler, with every call going through. -/
def Handled : Hub × Task → Hub × Task → Prop :=
  Relation.ReflTransGen fun p q => taskStep p.1 p.2 (.ok 0) = some q

/-- A handler at work is an interleaving like any other. -/
theorem reachable_handled {p q : Hub × Task} (hpq : Handled p q)
    (hr : Reachable (step sampleBinding) sampleWorld (sent p.1 (ts ++ [p.2]) n [] cl)) :
    Reachable (step sampleBinding) sampleWorld (sent q.1 (ts ++ [q.2]) n [] cl) := by
  induction hpq with
  | refl => exact hr
  | tail _ hstep ih =>
    refine ih.tail (a := .advance ts.length (.ok 0)) ?_
    show Option.map _ (Pool.advance _ (Pool.mk _ _) _ _) = _
    rw [Pool.advance_last, hstep]
    rfl

/-- The update the event asks for. -/
def progressed (n : Nat) : JobEventUpdate :=
  eventUpdate (copyAt n) (frame (n + 1)) "session" rfl

/-- The transaction finds the row the copy was made of. -/
theorem Even.applied (he : Even n h) :
    ∃ s, HubStore.applyJobEvent h.store (stored (n + 1)) (progressed n) 0 = .ok (s, true)
      ∧ s.jobs.find? sampleBinding.key = some (rowAt (n + 1))
      ∧ (∀ m, clampI64 (n + 1) < m → s.events.find? (sampleBinding.key, 1, m) = none)
      ∧ (i64Max ≤ n + 1 →
        s.events.find? (sampleBinding.key, 1, i64Max) = some (stored (n + 1))) := by
  obtain ⟨events, hevents, hunused, hlast⟩ := he.record
  have hexp : (progressed n).expects 1 (rowAt n) = true := by
    rw [JobEventUpdate.expects]
    simp [progressed, eventUpdate, rowAt, copyAt, sampleRow, finishedRow]
  obtain ⟨jobs, hjobs⟩ := exists_updateKey ((progressed n).write (stored (n + 1)) 0)
    ((progressed n).write_key (stored (n + 1)) 0) he.row hexp
  refine ⟨{ h.store with events := events, jobs := jobs }, ?_, ?_, hunused, hlast⟩
  · rw [HubStore.applyJobEvent, hevents]
    simp only
    split
    · next hnone => cases hjobs.symm.trans hnone
    next jobs' hsome =>
    cases hjobs.symm.trans hsome
    rfl
  · rw [find?_updateKey hjobs he.row, if_pos rfl]
    show some { rowAt (n + 1) with lastEvent := max (clampI64 n) (clampI64 (n + 1)) } = _
    rw [Nat.max_eq_right (clampI64_mono (Nat.le_succ n))]
    rfl

/-- **THE HUB'S PART** of a round: look the job up, check the session, write
    the store, write the memory. -/
theorem Even.handled (he : Even n h) : ∃ h', Handled (h, .lookup session (frame (n + 1)))
        (h', .answer session (ackOf (frame (n + 1))))
      ∧ Even (n + 1) h' := by
  obtain ⟨s, happly, hrow, hunused, hlast⟩ := he.applied
  have hlookup : taskStep h (.lookup session (frame (n + 1))) (.ok 0)
      = some (h, .session session (frame (n + 1)) (copyAt n)) := by
    rw [taskStep, show (frame (n + 1)).jobId = "job" from rfl, he.memory]
    rfl
  have hsession : taskStep h (.session session (frame (n + 1)) (copyAt n)) (.ok 0)
      = some (h, .apply session (frame (n + 1)) (copyAt n) true (progressed n)) := by
    have hadv : advances (copyAt n).state (nextState (frame (n + 1)).kind) = true := rfl
    rw [taskStep, he.current, if_pos rfl, judge, dif_pos hadv, if_pos]
    · rfl
    · exact Nat.lt_succ_self n
  have hwrite : taskStep h (.apply session (frame (n + 1)) (copyAt n) true (progressed n)) (.ok 0)
      = some ({ h with store := s }, .merge session (frame (n + 1)) (copyAt n)
        ((copyAt n).applied (frame (n + 1)) true 0)) := by
    rw [taskStep, show eventRow (copyAt n) (frame (n + 1)) = stored (n + 1) from rfl, happly]
  have hmerge : mergeEvent { h with store := s } session (copyAt n)
      ((copyAt n).applied (frame (n + 1)) true 0)
        = ⟨s, h.jobs.put (copyAt (n + 1)), h.sessions⟩ := by
    have hmatch : (h.jobs.find? "job").filter (copyAt n).matches = some (copyAt n) := by
      rw [he.memory]
      simp [CachedJob.matches]
    have hcurrent : ({ h with store := s } : Hub).isCurrent session = true := he.current
    rw [mergeEvent, show (copyAt n).id = "job" from rfl, hmatch, hcurrent]
    rfl
  refine ⟨_, .head hlookup (.head hsession (.head hwrite (.single rfl))), ?_⟩
  rw [hmerge]
  refine ⟨?_, hrow, he.current, hunused, hlast⟩
  rw [find?_put]
  exact if_pos rfl

/-- The worker files the next event. -/
theorem emit_progress (hn : n + 1 ≤ u64Max) :
    step sampleBinding (quiet h ts n cl) (.emit .progress none none "" 0)
      = some { sent h ts (n + 1) [] cl with sender := .head (frame (n + 1)) } := by
  have hsucc : saturatingSucc n = n + 1 := by
    simp only [saturatingSucc]
    omega
  have hfile : setPendingEvent (recordAt n) (frame (n + 1)) (some .running)
      = .ok { recordAt (n + 1) with pendingEvent := some (frame (n + 1)) } :=
    setPendingEvent_of_lt (Nat.lt_succ_of_le (clampI64_le n)) rfl
  show some (World.file ⟨⟨h, ts⟩, some (recordAt n), saturatingSucc n, .idle, some "session",
    [], [], cl⟩ (recordAt n) (frame (saturatingSucc n)) (some .running)) = _
  rw [hsucc, World.file, hfile]
  rfl

/-- **ONE ROUND**: an event is filed, sent, applied, acknowledged and cleared. -/
theorem Even.round (he : Even n h) (hn : n + 1 ≤ u64Max)
    (hr : Reachable (step sampleBinding) sampleWorld (quiet h ts n cl)) :
    ∃ h' ts', Reachable (step sampleBinding) sampleWorld (quiet h' ts' (n + 1) ((n + 1) :: cl))
      ∧ Even (n + 1) h' := by
  obtain ⟨h', hhandled, heven⟩ := he.handled
  have hsent : Reachable (step sampleBinding) sampleWorld
      (sent h (ts ++ [.lookup session (frame (n + 1))]) (n + 1) [] cl) :=
    (((hr.tail (emit_progress hn)).tail (a := .register) rfl).tail (a := .transmit)
      rfl).tail (a := .receive) rfl
  have hanswered : Reachable (step sampleBinding) sampleWorld
      (sent h' (ts ++ [.done (.ok ())]) (n + 1) [ackOf (frame (n + 1))] cl) := by
    refine (reachable_handled hhandled hsent).tail (a := .answer ts.length) ?_
    simp [step, sent, session, Binding.session]
  have hresolved : Reachable (step sampleBinding) sampleWorld { sent h'
      (ts ++ [.done (.ok ())]) (n + 1) [] cl with
        sender := .waiting (frame (n + 1)) true .resolved } := by
    refine hanswered.tail (a := .resolve) ?_
    simp [step, sent, Sender.resolve, ackOf]
  refine ⟨h', ts ++ [.done (.ok ())], hresolved.tail (a := .clear) ?_, heven⟩
  show some (World.mk _ (some (clearPendingEvent _ (n + 1))) _ _ _ _ _ _) = _
  rw [clearPendingEvent_of_eq rfl]
  rfl

/-- Progress may be reported any number of times. -/
theorem Even.rounds (hr : Reachable (step sampleBinding) sampleWorld (quiet h ts n cl))
    (he : Even n h) : ∀ m, n + m ≤ u64Max → ∃ h' ts' cl',
      Reachable (step sampleBinding) sampleWorld (quiet h' ts' (n + m) cl')
        ∧ Even (n + m) h' ∧ (0 < m → n + m ∈ cl') := by
  intro m
  induction m with
  | zero =>
    intro _
    exact ⟨h, ts, cl, hr, he, nofun⟩
  | succ m ih =>
    intro hm
    obtain ⟨h₁, ts₁, cl₁, hr₁, he₁, -⟩ := ih (by omega)
    obtain ⟨h₂, ts₂, hr₂, he₂⟩ := he₁.round hm hr₁
    exact ⟨h₂, ts₂, _, hr₂, he₂, fun _ => mem_cons_self⟩

end Rounds

/-- The job runs. -/
theorem sampleWorld_running : ∃ h ts cl,
    Reachable (step sampleBinding) sampleWorld (quiet h ts 2 cl) ∧ Even 2 h := by
  refine ⟨_, _, _, ⟨sampleActs ++ sampleRound .running 2, rfl⟩, rfl, rfl, rfl, ?_, ?_⟩
  · intro m hm
    rw [find?_eq_none_iff]
    show (sampleBinding.key, 1, m) ∉ [(sampleBinding.key, 1, 2), (sampleBinding.key, 1, 1)]
    simp [clampI64, i64Max] at hm ⊢
    omega
  · intro hle
    exact absurd hle (by decide)

/-- **BEYOND `i64::MAX`** the row cannot follow: after `2 ^ 63` events the
    worker has cleared a sequence that a job still running has not reached. -/
theorem cleared_beyond_i64 : ∃ w j, Start sampleBinding sampleRow sampleWorld
      ∧ Reachable (step sampleBinding) sampleWorld w
      ∧ i64Max + 1 ∈ w.cleared
      ∧ w.hub.shared.store.jobs.find? sampleBinding.key = some j
      ∧ j.state.isTerminal = false ∧ j.lastEvent < i64Max + 1 := by
  obtain ⟨h₂, ts₂, cl₂, hr₂, he₂⟩ := sampleWorld_running
  obtain ⟨h, ts, cl, hreach, heven, hmem⟩ := he₂.rounds hr₂ (i64Max - 1) (by decide)
  exact ⟨_, _, sampleWorld_start, hreach, hmem (by decide), heven.row, rfl,
    Nat.lt_succ_of_le (Nat.min_le_right ..)⟩

end Agreement
