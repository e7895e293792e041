import NagisaLake.RegistrationProofs

/-! # Rejected dispatches — outbox, replay and acknowledgements

A row of the outbox is delivered in two ways.  `dispatch_outbox_entry`
sends the command, waits for the answer, fails the job when the answer is
a rejection, and only then marks the row.  `serve_worker` sends the
unfinished jobs of a worker again when it registers and marks their rows
as soon as the frame is in the channel; nobody waits for the answer.

So a job whose worker rejects every dispatch is never left delivered and
unfinished, as long as the replay marks no unfinished job of the worker's
own organization and the failure reaches the database
(`rejected_never_silent`). -/

namespace Rejections

open Jobs KeyedTable Runs HubStore Table List Option
open HubEvents (Hub CachedJob Session ofRow rebindJobSession mergeRebind
  mergeSettlement cacheBoundOutboxJob Reply)
open Uploads (WorkerSession)
open Registration (Dispatch rebindRow unfinished)

/-! ## The outbox -/

/-- The row of an attempt. -/
abbrev Entry := Key × Nat

def delivered : String := "delivered"

def OutboxRow.setStatus (status : String) (o : OutboxRow) : OutboxRow :=
  { o with status := status }

theorem OutboxRow.setStatus_key (status : String) (o : OutboxRow) :
    (OutboxRow.setStatus status o).key = o.key := rfl

/-- `UPDATE dispatch_outbox SET status=…` of one row. -/
def setOutboxStatus (h : Hub) (e : Entry) (p : OutboxRow → Bool) (status : String) : Hub :=
  { h with store := { h.store with
    outbox := h.store.outbox.update (fun o => decide (o.key = e) && p o)
      (OutboxRow.setStatus status) (OutboxRow.setStatus_key status) } }

/-- `claim_dispatches`, one row: pending, or claimed too long ago. -/
def claimDispatch (h : Hub) (e : Entry) : Hub :=
  setOutboxStatus h e (fun o => !decide (o.status = delivered)) "claimed"

/-- `mark_dispatch_delivered`. -/
def markDispatchDelivered (h : Hub) (e : Entry) : Hub :=
  setOutboxStatus h e (fun _ => true) delivered

/-- `record_dispatch_error` of the store. -/
def recordDispatchError (h : Hub) (e : Entry) : Hub :=
  setOutboxStatus h e (fun _ => true) "pending"

/-! ## Links -/

/-- A `DispatchJob` on its way.  The outbox derives the id of the command from
    job and attempt; the replay draws a fresh one. -/
inductive Command where
  | outbox (jobId : String) (attempt : Nat)
  | replay (uuid : Nat) (jobId : String) (attempt : Nat)
  deriving DecidableEq, Repr

def Command.jobId : Command → String
  | .outbox jobId _ => jobId
  | .replay _ jobId _ => jobId

/-- `CommandAck`. -/
structure CommandAck where
  command : Command
  accepted : Bool
  message : String
  deriving DecidableEq, Repr

/-- The connection of one session: what is on its way in either direction, and
    which task waits for the answer to which command. -/
structure Link where
  sessionId : String
  downlink : List Command
  uplink : List CommandAck
  waiters : List (Command × Nat)
  deriving DecidableEq, Repr

/-! ## Tasks -/

/-- Where `dispatch_outbox_entry` or `serve_worker` is. -/
inductive Task where
  | outbox (e : Entry)
  /-- `rebind_cached_outbox_job`, with the row as it was read. -/
  | rebind (e : Entry) (sid : String) (j : JobRow)
  | rebindStore (e : Entry) (sid : String) (j : JobRow) (c : CachedJob)
  | rebindReload (e : Entry) (sid : String) (j : JobRow) (c : CachedJob)
  | rebindRetry (e : Entry) (sid : String) (j : JobRow) (c : CachedJob)
      (stored : String)
  | rebindMerge (e : Entry) (sid : String) (j : JobRow) (c : CachedJob)
      (now : Int)
  | cacheBound (e : Entry) (sid : String) (j : JobRow)
  | ensure (e : Entry) (sid : String)
  | send (e : Entry) (sid : String)
  | wait (e : Entry) (sid : String)
  /-- `mark_job_failed`. -/
  | failing (e : Entry) (t : HubEvents.Task)
  | deliver (e : Entry)
  /-- `record_dispatch_error` of the Hub. -/
  | noting (e : Entry) (t : HubEvents.Task)
  | reschedule (e : Entry)
  /-- `rebind_jobs_for_session`. -/
  | rebindJobs (w : WorkerSession) (ids : List String)
      (replay : List Dispatch)
  | replay (w : WorkerSession) (todo : List Dispatch)
  | replaySend (w : WorkerSession) (d : Dispatch) (todo : List Dispatch)
  | replayConfirm (w : WorkerSession) (d : Dispatch) (todo : List Dispatch)
  | replayMark (w : WorkerSession) (d : Dispatch) (todo : List Dispatch)
  | mainLoop (w : WorkerSession)
  | done

/-- The Hub, its tasks and the links of the sessions. -/
structure World where
  hub : Hub
  tasks : List Task
  links : List Link
  uuids : Nat

/-- A command goes into the channel of its session. -/
def push (links : List Link) (sid : String) (c : Command) : List Link :=
  links.map fun l =>
    if l.sessionId = sid then { l with downlink := l.downlink ++ [c] } else l

/-- A task waits for the answer; a waiter of the same command is replaced. -/
def await (links : List Link) (sid : String) (c : Command) (i : Nat) : List Link :=
  links.map fun l =>
    if l.sessionId = sid then
      { l with waiters := (c, i) :: l.waiters.filter fun p =>
          decide (p.1 ≠ c) }
    else l

/-- The deadline has passed. -/
def forget (links : List Link) (sid : String) (c : Command) : List Link :=
  links.map fun l =>
    if l.sessionId = sid then
      { l with waiters := l.waiters.filter fun p => decide (p.1 ≠ c) }
    else l

/-! ## Steps of the outbox consumer -/

/-- `dispatch_outbox_entry` after the look at the row. -/
def afterRow (h : Hub) (e : Entry) : Option JobRow → Task
  | none => .deliver e
  | some j =>
    if j.state.isTerminal then .deliver e
    else match j.workerOrganizationId, j.workerId, j.sessionId with
      | some o, some worker, some _ =>
        match h.currentSessionId o worker with
        | some sid => .rebind e sid j
        | none => .reschedule e
      | _, _, _ => .reschedule e

/-- `rebind_cached_outbox_job` after the look at the resident job. -/
def afterCopy (h : Hub) (e : Entry) (sid : String) (j : JobRow) : Option CachedJob → Task
  | none => .cacheBound e sid j
  | some c =>
    if c.attempt = e.2
        ∧ h.currentSessionId c.workerOrganizationId c.workerId = some sid then
      .rebindStore e sid j c
    else .cacheBound e sid j

/-- `merge_cached_outbox_job`, under the guard of the session. -/
def mergeCachedOutboxJob (h : Hub) (sid : String) (c : CachedJob) (now : Int) : Option Hub :=
  if h.currentSessionId c.workerOrganizationId c.workerId = some sid then
    match h.jobs.find? c.id with
    | none => none
    | some cur =>
      if cur.state.isTerminal = true ∨ cur.attempt ≠ c.attempt then none
      else some { h with jobs := h.jobs.put { cur with
        sessionId := sid
        updatedAt := max cur.updatedAt now } }
  else none

/-- `cache_bound_outbox_job` says whether the job is in memory as the row has it. -/
def cachesBound (h : Hub) (j : JobRow) : Bool :=
  if j.state = .queued then false
  else match h.jobs.find? j.id with
    | none => true
    | some c =>
      if c.attempt = j.attempt ∧ c.state = .queued then true
      else !c.state.isTerminal && decide (c.attempt = j.attempt)
        && decide (c.organizationId = j.organizationId)
        && decide (some c.workerOrganizationId = j.workerOrganizationId)
        && decide (some c.workerId = j.workerId)
        && decide (some c.sessionId = j.sessionId)

/-- The send failed or was not answered. -/
def unanswered (e : Entry) (m : String) : Task :=
  .noting e (.updateError e.1.2 m false)

/-- The answer has come. -/
def answered (e : Entry) (ack : CommandAck) : Task :=
  if ack.accepted then .deliver e
  else .failing e (.updateError e.1.2 ack.message true)

/-- The Hub after a statement of a task, and where the task is then. -/
def hubStep (h : Hub) : Task → Reply → Option (Hub × Task)
  | .outbox e, .ok _ => some (h, afterRow h e (h.store.jobs.find? e.1))
  | .outbox _, .failed _ => some (h, .done)
  | .rebind e sid j, .ok _ => some (h, afterCopy h e sid j (h.jobs.find? j.id))
  -- the parameters or the inputs cannot be read
  | .rebind e _ _, .failed _ => some (h, .reschedule e)
  | .rebindStore e sid j c, .ok now =>
    match rebindJobSession h.store (c.organizationId, c.id) c.attempt
        c.sessionId sid now with
    | some s => some ({ h with store := s }, .rebindMerge e sid j c now)
    | none => some (h, .rebindReload e sid j c)
  | .rebindStore e _ _ _, .failed _ => some (h, .reschedule e)
  | .rebindReload e sid j c, .ok _ =>
    if h.currentSessionId c.workerOrganizationId c.workerId = some sid then
      match (h.store.jobs.find? (c.organizationId, c.id)).bind
          JobRow.sessionId with
      | some stored => some (h, .rebindRetry e sid j c stored)
      | none => some (h, .cacheBound e sid j)
    else some (h, .cacheBound e sid j)
  | .rebindReload e _ _ _, .failed _ => some (h, .reschedule e)
  | .rebindRetry e sid j c stored, .ok now =>
    match rebindJobSession h.store (c.organizationId, c.id) c.attempt stored
        sid now with
    | some s => some ({ h with store := s }, .rebindMerge e sid j c now)
    | none => some (h, .cacheBound e sid j)
  | .rebindRetry e _ _ _ _, .failed _ => some (h, .reschedule e)
  | .rebindMerge e sid j c now, .ok _ =>
    match mergeCachedOutboxJob h sid c now with
    | some h' => some (h', .ensure e sid)
    | none => some (h, .cacheBound e sid j)
  | .cacheBound e sid j, .ok _ =>
    if cachesBound h j then some (cacheBoundOutboxJob h j, .ensure e sid)
    else some (h, .reschedule e)
  | .cacheBound e _ _, .failed _ => some (h, .reschedule e)
  | .ensure e sid, .ok _ => some (h, .send e sid)
  -- no capacity
  | .ensure e _, .failed _ => some (h, .reschedule e)
  | .failing e t, reply =>
    match t with
    | .done _ => some (h, .deliver e)
    | t => (HubEvents.taskStep h t reply).map fun r => (r.1, .failing e r.2)
  | .deliver e, .ok _ => some (markDispatchDelivered h e, .done)
  | .deliver _, .failed _ => some (h, .done)
  | .noting e t, reply =>
    match t with
    | .done _ => some (h, .reschedule e)
    | t => (HubEvents.taskStep h t reply).map fun r => (r.1, .noting e r.2)
  | .reschedule e, .ok _ => some (recordDispatchError h e, .done)
  | .reschedule _, .failed _ => some (h, .done)
  | .rebindJobs w [] replay, .ok _ => some (h, .replay w replay)
  | .rebindJobs w (id :: ids) replay, .ok now =>
    match h.jobs.find? id with
    | none => some (h, .rebindJobs w ids replay)
    | some c =>
      if h.isCurrent w = false then some (h, .replay w replay)
      else match rebindRow h w now c with
        | none => some (h, .rebindJobs w ids replay)
        | some s => some ( mergeRebind { h with store := s } w c now
              fun cur => cur.boundTo w,
            .rebindJobs w ids (if c.boundTo w && !c.state.isTerminal then
              replay ++ [⟨c.id, c.attempt⟩] else replay))
  | .rebindJobs _ _ _, .failed _ => some (h, .done)
  | .replay w [], .ok _ => some (h, .mainLoop w)
  | .replay w (d :: todo), .ok _ =>
    some (h, if h.isCurrent w then .replaySend w d todo else .done)
  | .replayConfirm w d todo, .ok _ =>
    some (h, if h.isCurrent w then .replayMark w d todo else .done)
  | .replayMark w d todo, .ok _ =>
    -- the organization is the worker's, not the job's
    some (markDispatchDelivered h ((w.organizationId, d.jobId), d.attempt), .replay w todo)
  | .replayMark w _ todo, .failed _ => some (h, .replay w todo)
  | _, _ => none

/-- A statement of task `i`, with what it sends. -/
def taskStep (w : World) (i : Nat) : Task → Reply → Option (World × Task)
  | .send e sid, .ok _ =>
    -- `send_command` looks for the session first
    if w.links.any fun l => decide (l.sessionId = sid) then
      some ({ w with
        links := push (await w.links sid (.outbox e.1.2 e.2) i) sid
          (.outbox e.1.2 e.2) }, .wait e sid)
    else some (w, unanswered e "worker session is not connected")
  | .send e _, .failed m => some (w, unanswered e m)
  | .wait e sid, .failed m => some ({ w with
      links := forget w.links sid (.outbox e.1.2 e.2) }, unanswered e m)
  | .replaySend s d todo, .ok _ =>
    if w.links.any fun l => decide (l.sessionId = s.sessionId) then
      some ({ w with
        links := push w.links s.sessionId (.replay w.uuids d.jobId d.attempt)
        uuids := w.uuids + 1 }, .replayConfirm s d todo)
    else some (w, .done)
  | t, reply => (hubStep w.hub t reply).map fun r => ({ w with hub := r.1 }, r.2)

/-! ## The system -/

inductive Act where
  /-- The consumer claims a row. -/
  | claim (e : Entry)
  /-- A worker registers. -/
  | serveWorker (w : WorkerSession)
  /-- The worker answers the first command of a link. -/
  | answer (l : Nat) (accepted : Bool) (message : String)
  /-- The Hub reads the first answer of a link. -/
  | commandAck (l : Nat)
  | lose (l : Nat)
  | advance (i : Nat) (reply : Reply)

/-- `WorkerMessage::CommandAck`: the task that waits gets the answer. -/
def resolve (w : World) (l : Nat) (link : Link) (ack : CommandAck)
    (rest : List CommandAck) : World :=
  match link.waiters.find? fun p => decide (p.1 = ack.command) with
  | none => { w with links := w.links.set l { link with uplink := rest } }
  | some (_, i) => { w with
      links := w.links.set l { link with
        uplink := rest
        waiters := link.waiters.filter fun p => decide (p.1 ≠ ack.command) }
      tasks := match w.tasks[i]? with
        | some (.wait e _) => w.tasks.set i (answered e ack)
        | _ => w.tasks }

def step (w : World) : Act → Option World
  | .claim e =>
    match w.hub.store.outbox.find? e with
    | none => none
    | some o =>
      if o.status = delivered then none
      else some { w with
        hub := claimDispatch w.hub e
        tasks := w.tasks ++ [.outbox e] }
  | .serveWorker s =>
    -- a registered worker has a name
    if s.workerId = "" then none
    else
      let h := { w.hub with
        sessions := w.hub.sessions.put ⟨s.organizationId, s.workerId, s.sessionId⟩ }
      some { w with
        hub := h
        links := w.links ++ [⟨s.sessionId, [], [], []⟩]
        tasks := w.tasks ++ [.rebindJobs s ((unfinished h s).map CachedJob.id) []] }
  | .answer l accepted message =>
    match w.links[l]? with
    | none => none
    | some link =>
      match link.downlink with
      | [] => none
      | c :: rest => some { w with links := w.links.set l { link with
          downlink := rest
          uplink := link.uplink ++ [⟨c, accepted, message⟩] } }
  | .commandAck l =>
    match w.links[l]? with
    | none => none
    | some link =>
      match link.uplink with
      | [] => none
      | ack :: rest => some (resolve w l link ack rest)
  | .lose l =>
    match w.links[l]? with
    | none => none
    | some link => some { w with
        hub := { w.hub with
          sessions := w.hub.sessions.delete fun s =>
            decide (s.sessionId = link.sessionId) }
        links := w.links.eraseIdx l }
  | .advance i reply =>
    (w.tasks[i]?).bind fun t => (taskStep w i t reply).map fun r =>
      { r.1 with tasks := w.tasks.set i r.2 }

/-- Every row of the job in the outbox is delivered, nothing of it is on its
    way, and it is not finished. -/
def Silent (k : Key) (w : World) : Prop :=
  (∃ j, w.hub.store.jobs.find? k = some j ∧ j.state.isTerminal = false)
    ∧ (∃ o ∈ w.hub.store.outbox.rows, o.key.1 = k)
    ∧ (∀ o ∈ w.hub.store.outbox.rows, o.key.1 = k → o.status = delivered)
    ∧ ∀ l ∈ w.links, (∀ c ∈ l.downlink, c.jobId ≠ k.2) ∧ ∀ a ∈ l.uplink, a.command.jobId ≠ k.2

/-- The worker rejects every dispatch of the job. -/
def Rejects (k : Key) (w : World) : Act → Prop
  | .answer l accepted _ => ∀ link c rest, w.links[l]? = some link →
      link.downlink = c :: rest → c.jobId = k.2 → accepted = false
  | _ => True

/-- The row is terminal, if there is one. -/
def Over (h : Hub) (k : Key) : Prop :=
  ∀ j, h.store.jobs.find? k = some j → j.state.isTerminal = true

/-- The replay marks the job only when it is finished or belongs to another organization than the
    worker; the failure of a rejected job does not fail itself. -/
def Minds (k : Key) (w : World) : Act → Prop
  | .advance i (.ok _) => ∀ s d todo, w.tasks[i]? = some (.replayMark s d todo) →
      (s.organizationId, d.jobId) = k → Over w.hub k
  | .advance i (.failed _) => ∀ e c u cancelling,
      w.tasks[i]? = some (.failing e (.settle c u cancelling)) → e.1 = k →
      Over w.hub k
  | _ => True

/-! ## What a statement does to one job -/

/-- The copy is what the row says, as far as an update asks. -/
def Shows (c : CachedJob) (j : JobRow) : Prop :=
  j.attempt = c.attempt ∧ j.state = c.state ∧ j.lastEvent = clampI64 c.lastEvent

/-- A snapshot from before the job was bound to a worker. -/
def Unbound (c : CachedJob) : Prop := c.state = .queued ∧ c.workerId = ""

/-- An unfinished job is in memory as it is in the database, so that a rejection can fail it. -/
def Held (h : Hub) (k : Key) : Prop :=
  ∀ j, h.store.jobs.find? k = some j → j.state.isTerminal = false →
    ∃ c, h.jobs.find? k.2 = some c ∧ Shows c j

/-- The row as it was read is the row as it is, until the job is finished. -/
def Snap (h : Hub) (k : Key) (j : JobRow) : Prop :=
  j.state.isTerminal = false ∧ j.lastEvent ≤ i64Max
    ∧ ∀ i, h.store.jobs.find? k = some i → i.state.isTerminal = true
      ∨ i.attempt = j.attempt ∧ i.state = j.state ∧ i.lastEvent = j.lastEvent

structure HubInv (k : Key) (h : Hub) : Prop where
  entries : ∀ o ∈ h.store.outbox.rows, o.jobId = k.2 → o.organizationId = k.1
  bigint : ∀ j, h.store.jobs.find? k = some j → j.lastEvent ≤ i64Max
  copy : ∀ c, h.jobs.find? k.2 = some c → c.organizationId = k.1
    ∧ ∀ j, h.store.jobs.find? k = some j → j.state.isTerminal = true ∨ Shows c j ∨ Unbound c
  named : ∀ o, h.sessions.find? (o, "") = none
  marked : ∀ o ∈ h.store.outbox.rows, o.key.1 = k → o.status = delivered → Over h k

/-- A row changes its state only to end. -/
structure RowKept (j j' : JobRow) : Prop where
  attempt : j'.attempt = j.attempt
  lastEvent : j'.lastEvent = j.lastEvent
  state : j'.state = j.state ∨ j.state.isTerminal = false ∧ j'.state.isTerminal = true

theorem RowKept.refl (j : JobRow) : RowKept j j := ⟨rfl, rfl, .inl rfl⟩

theorem RowKept.over {j j' : JobRow} (hk : RowKept j j')
    (hj : j.state.isTerminal = true) : j'.state.isTerminal = true := by
  rcases hk.state with hsame | ⟨hlive, -⟩
  · rw [hsame]
    exact hj
  · cases hlive.symm.trans hj

theorem RowKept.shows {j j' : JobRow} {c : CachedJob} (hk : RowKept j j')
    (hc : Shows c j) : j'.state.isTerminal = true ∨ Shows c j' := by
  rcases hk.state with hsame | ⟨-, hover⟩
  · exact .inr ⟨hk.attempt.trans hc.1, hsame.trans hc.2.1, hk.lastEvent.trans hc.2.2⟩
  · exact .inl hover

/-- What the tasks know of the job stays true. -/
structure Keeps (k : Key) (h h' : Hub) : Prop where
  rows : h.store.jobs.Related RowKept h'.store.jobs
  held : Held h k → Held h' k
  inv : HubInv k h'

variable {k : Key} {h h' : Hub} {j : JobRow} {c : CachedJob}

theorem Over.kept (ho : Over h k)
    (hr : h.store.jobs.Related RowKept h'.store.jobs) : Over h' k := by
  intro j' hj'
  obtain ⟨j, hj, hkept⟩ := hr.back k j' hj'
  exact hkept.over (ho j hj)

theorem Snap.kept (hs : Snap h k j)
    (hr : h.store.jobs.Related RowKept h'.store.jobs) : Snap h' k j := by
  refine ⟨hs.1, hs.2.1, ?_⟩
  intro i' hi'
  obtain ⟨i, hi, hkept⟩ := hr.back k i' hi'
  rcases hs.2.2 i hi with hover | ⟨hattempt, hstate, hlast⟩
  · exact .inl (hkept.over hover)
  rcases hkept.state with hsame | ⟨-, hover⟩
  · exact .inr ⟨hkept.attempt.trans hattempt, hsame.trans hstate, hkept.lastEvent.trans hlast⟩
  · exact .inl hover

theorem Over.held (ho : Over h k) : Held h k := by
  intro j hj hlive
  cases hlive.symm.trans (ho j hj)

theorem keeps_refl (hi : HubInv k h) : Keeps k h h :=
  ⟨related_refl RowKept.refl _, id, hi⟩

variable {s : Store} {e : Entry} {now : Int} {sid : String} {t t' : Task}
  {reply : Reply} {links : List Link} {i : Nat}

/-- A transaction that rewrites rows of jobs. -/
theorem keeps_store (hi : HubInv k h) (hr : h.store.jobs.Related RowKept s.jobs)
    (houtbox : s.outbox = h.store.outbox) :
    Keeps k h { h with store := s } where
  rows := hr
  held hheld j' hj' hlive := by
    obtain ⟨j, hj, hkept⟩ := hr.back k j' hj'
    have hjlive : j.state.isTerminal = false := by
      cases hterm : j.state.isTerminal with
      | false => rfl
      | true => cases hlive.symm.trans (hkept.over hterm)
    obtain ⟨c, hc, hshows⟩ := hheld j hj hjlive
    refine ⟨c, hc, (hkept.shows hshows).resolve_left ?_⟩
    rw [hlive]
    exact Bool.false_ne_true
  inv :=
    { entries := by
        rw [houtbox]
        exact hi.entries
      bigint := by
        intro j' hj'
        obtain ⟨j, hj, hkept⟩ := hr.back k j' hj'
        rw [hkept.lastEvent]
        exact hi.bigint j hj
      copy := by
        intro c hc
        obtain ⟨horg, hrow⟩ := hi.copy c hc
        refine ⟨horg, ?_⟩
        intro j' hj'
        obtain ⟨j, hj, hkept⟩ := hr.back k j' hj'
        rcases hrow j hj with hover | hshows | hun
        · exact .inl (hkept.over hover)
        · exact (hkept.shows hshows).imp_right .inl
        · exact .inr (.inr hun)
      named := hi.named
      marked := by
        show ∀ o ∈ s.outbox.rows, _
        rw [houtbox]
        intro o ho hkey hstatus
        exact Over.kept (hi.marked o ho hkey hstatus) hr }

/-- What the invariants read of a copy is the same. -/
structure Alike (c c' : CachedJob) : Prop where
  id : c'.id = c.id
  organizationId : c'.organizationId = c.organizationId
  workerId : c'.workerId = c.workerId
  attempt : c'.attempt = c.attempt
  state : c'.state = c.state
  lastEvent : c'.lastEvent = c.lastEvent

theorem Alike.shows {c' : CachedJob} (ha : Alike c c') (hc : Shows c j) : Shows c' j := by
  rw [Shows, ha.attempt, ha.state, ha.lastEvent]
  exact hc

/-- A copy of the job is put; it shows the row wherever the old one did. -/
theorem HubInv.put (hi : HubInv k h) (hnew : c.id = k.2 → c.organizationId = k.1
      ∧ ∀ j, h.store.jobs.find? k = some j → j.state.isTerminal = true ∨ Shows c j ∨ Unbound c) :
    HubInv k { h with jobs := h.jobs.put c } :=
  { hi with
    copy := by
      intro d hd
      rw [find?_put] at hd
      split at hd
      · next hid =>
        cases hd
        exact hnew hid
      · exact hi.copy d hd }

/-- A resident job is written over in fields that do not matter. -/
theorem keeps_put {cur : CachedJob} (hi : HubInv k h)
    (hcur : h.jobs.find? c.id = some cur) (ha : Alike cur c) :
    Keeps k h { h with jobs := h.jobs.put c } where
  rows := related_refl RowKept.refl _
  held hheld j hj hlive := by
    obtain ⟨d, hd, hshows⟩ := hheld j hj hlive
    rw [find?_put]
    split
    · next hid =>
      obtain rfl : d = cur :=
        some.inj (hd.symm.trans (hid ▸ hcur))
      exact ⟨c, rfl, ha.shows hshows⟩
    · exact ⟨d, hd, hshows⟩
  inv := by
    refine hi.put ?_
    intro hid
    obtain ⟨horg, hrow⟩ := hi.copy cur (hid ▸ hcur)
    refine ⟨ha.organizationId.trans horg, ?_⟩
    intro j hj
    rcases hrow j hj with hover | hshows | hun
    · exact .inl hover
    · exact .inr (.inl (ha.shows hshows))
    · exact .inr (.inr ⟨ha.state.trans hun.1, ha.workerId.trans hun.2⟩)

/-- A job leaves the memory: another one, or one that is finished. -/
theorem keeps_delete {id : String} (hi : HubInv k h) (hover : id = k.2 → Over h k) :
    Keeps k h { h with jobs := h.jobs.delete fun x => x.id = id } where
  rows := related_refl RowKept.refl _
  held hheld := by
    by_cases hid : id = k.2
    · exact Over.held (hover hid)
    intro j hj hlive
    obtain ⟨c, hc, hshows⟩ := hheld j hj hlive
    exact ⟨c, (find?_delete_ne _ (Ne.symm hid)).trans hc, hshows⟩
  inv :=
    { hi with
      copy := by
        intro c hc
        rw [find?_delete] at hc
        exact hi.copy c (filter_eq_some_iff.mp hc).1 }

/-- `cache_bound_outbox_job`, with a row that is still as it was read. -/
theorem keeps_cacheBound {e : Key} (hi : HubInv k h) (hkey : j.key = e)
    (hmine : e.2 = k.2 → e = k) (hsnap : e = k → Snap h k j)
    (hcaches : cachesBound h j = true) :
    Keeps k h (cacheBoundOutboxJob h j) ∧ (e = k → Held (cacheBoundOutboxJob h j) k) := by
  have hid : (ofRow j).id = k.2 → e = k := by
    intro hid
    apply hmine
    rw [← hkey]
    exact hid
  have hshow : e = k → ∀ i, h.store.jobs.find? k = some i →
      i.state.isTerminal = true ∨ Shows (ofRow j) i := by
    intro he i hi'
    obtain ⟨-, hbig, hrow⟩ := hsnap he
    rcases hrow i hi' with hover | ⟨hattempt, hstate, hlast⟩
    · exact .inl hover
    refine .inr ⟨hattempt, hstate, ?_⟩
    rw [hlast]
    exact (Nat.min_eq_left hbig).symm
  have hput : HubInv k { h with jobs := h.jobs.put (ofRow j) } := by
    refine hi.put ?_
    intro hjid
    have he := hid hjid
    refine ⟨?_, fun i hi' => (hshow he i hi').imp_right .inl⟩
    rw [← he, ← hkey]
    rfl
  have hheld : e = k → Held { h with jobs := h.jobs.put (ofRow j) } k := by
    intro he i hi' hlive
    refine ⟨ofRow j, ?_, (hshow he i hi').resolve_left ?_⟩
    · rw [find?_put, if_pos]
      rw [← he, ← hkey]
      rfl
    · rw [hlive]
      exact Bool.false_ne_true
  have hkeeps : Keeps k h { h with jobs := h.jobs.put (ofRow j) } := by
    refine ⟨related_refl RowKept.refl _, ?_, hput⟩
    by_cases he : e = k
    · exact fun _ => hheld he
    intro hold i hi' hlive
    obtain ⟨c, hc, hshows⟩ := hold i hi' hlive
    refine ⟨c, ?_, hshows⟩
    rw [find?_put, if_neg fun hjid => he (hid hjid)]
    exact hc
  rw [cachesBound] at hcaches
  rw [cacheBoundOutboxJob]
  split at hcaches
  · cases hcaches
  next hqueued =>
  split
  · exact ⟨hkeeps, hheld⟩
  next c hc =>
  split
  · exact ⟨hkeeps, hheld⟩
  next hother =>
  refine ⟨keeps_refl hi, ?_⟩
  intro he i hi' hlive
  rw [hc] at hcaches
  dsimp only at hcaches
  rw [if_neg hother] at hcaches
  simp only [Bool.and_eq_true, decide_eq_true_eq] at hcaches
  have hjid : j.id = k.2 := by
    rw [← he, ← hkey]
    rfl
  refine ⟨c, hjid ▸ hc, ?_⟩
  rcases (hi.copy c (hjid ▸ hc)).2 i hi' with hover | hshows | hun
  · cases hlive.symm.trans hover
  · exact hshows
  -- a snapshot from before the binding would have been replaced
  · exact absurd ⟨hcaches.1.1.1.1.2, hun.1⟩ hother

theorem mem_setOutboxStatus {p : OutboxRow → Bool} {status : String}
    {o : OutboxRow} :
    o ∈ (setOutboxStatus h e p status).store.outbox.rows
      ↔ ∃ o' ∈ h.store.outbox.rows, o = if decide (o'.key = e) && p o' then
          OutboxRow.setStatus status o' else o' := by
  show o ∈ (h.store.outbox.update _ _ (OutboxRow.setStatus_key status)).rows ↔ _
  exact mem_update

section

variable (hi : HubInv k h)
include hi

/-- The status of a row changes; `delivered` only for a finished job. -/
theorem keeps_status {p : OutboxRow → Bool} {status : String}
    (hover : status = delivered → e.1 = k → Over h k) :
    Keeps k h (setOutboxStatus h e p status) where
  rows := related_refl RowKept.refl _
  held := id
  inv :=
    { hi with
      entries := by
        intro o ho
        obtain ⟨o', ho', rfl⟩ := mem_setOutboxStatus.mp ho
        split
        all_goals exact hi.entries o' ho'
      marked := by
        intro o ho hkey hstatus
        obtain ⟨o', ho', rfl⟩ := mem_setOutboxStatus.mp ho
        by_cases hp : (decide (o'.key = e) && p o') = true
        · rw [if_pos hp] at hkey hstatus
          rw [Bool.and_eq_true, decide_eq_true_eq] at hp
          exact hover hstatus (hp.1 ▸ hkey)
        · rw [if_neg hp] at hkey hstatus
          exact hi.marked o' ho' hkey hstatus }

/-- Sessions come and go; none is of a worker without a name. -/
theorem keeps_sessions {sessions : Table Key Session Session.key}
    (hnamed : ∀ o, sessions.find? (o, "") = none) :
    Keeps k h { h with sessions := sessions } where
  rows := related_refl RowKept.refl _
  held := id
  inv := { hi with named := hnamed }

/-! ## The transactions -/

theorem keeps_rebindJobSession {key : Key} {attempt : Nat}
    {expected sessionId : String}
    (hs : rebindJobSession h.store key attempt expected sessionId now
      = some s) : Keeps k h { h with store := s } := by
  obtain ⟨jobs, hup, rfl⟩ := map_eq_some_iff.mp hs
  refine keeps_store hi ?_ rfl
  exact related_updateKey RowKept.refl hup fun j _ _ =>
    ⟨rfl, rfl, .inl rfl⟩

theorem keeps_rebindRow {w : WorkerSession} (hs : rebindRow h w now c = some s) :
    Keeps k h { h with store := s } := by
  rw [rebindRow] at hs
  split at hs
  · next hfirst => exact keeps_rebindJobSession hi (hfirst.trans hs)
  split at hs
  · cases hs
  · exact keeps_rebindJobSession hi hs

/-- A resident job is written over under its own id. -/
theorem keeps_rewrite {cur c' : CachedJob} {id : String}
    (hcur : h.jobs.find? id = some cur) (ha : Alike cur c') :
    Keeps k h { h with jobs := h.jobs.put c' } := by
  refine keeps_put hi ?_ ha
  rw [ha.id, key_of_find? hcur]
  exact hcur

theorem keeps_mergeRebind {w : WorkerSession} {owned : CachedJob → Bool} :
    Keeps k h (mergeRebind h w c now owned) := by
  rw [mergeRebind]
  split
  · exact keeps_refl hi
  next cur hcur =>
  split
  · exact keeps_rewrite hi hcur ⟨rfl, rfl, rfl, rfl, rfl, rfl⟩
  · exact keeps_refl hi

end

theorem mergeRebind_store (h : Hub) (w : WorkerSession) (c : CachedJob)
    (now : Int) (owned : CachedJob → Bool) :
    (mergeRebind h w c now owned).store = h.store := by
  rw [mergeRebind]
  split
  · rfl
  · split <;> rfl

/-- A job is rebound in the database and then in memory. -/
theorem keeps_rebound {w : WorkerSession} {owned : CachedJob → Bool}
    (hi : HubInv k h) (hs : rebindRow h w now c = some s) :
    Keeps k h (mergeRebind { h with store := s } w c now owned) := by
  have hstore := keeps_rebindRow hi hs
  have hmerge : Keeps k { h with store := s } (mergeRebind { h with store := s } w c now owned) :=
    keeps_mergeRebind hstore.inv
  refine ⟨?_, hmerge.held ∘ hstore.held, hmerge.inv⟩
  rw [mergeRebind_store]
  exact hstore.rows

theorem keeps_mergeCachedOutboxJob (hi : HubInv k h)
    (hm : mergeCachedOutboxJob h sid c now = some h') :
    Keeps k h h' := by
  rw [mergeCachedOutboxJob] at hm
  split at hm
  · split at hm
    · cases hm
    next cur hcur =>
    obtain ⟨-, rfl⟩ := of_guard_not hm
    exact keeps_rewrite hi hcur ⟨rfl, rfl, rfl, rfl, rfl, rfl⟩
  · cases hm

theorem keeps_mergeSettlement {state : Option JobState}
    {error : Option String} (hi : HubInv k h)
    (hover : state.isSome = true → c.id = k.2 → Over h k) :
    Keeps k h (mergeSettlement h c state error now) := by
  rw [mergeSettlement]
  split
  · exact keeps_refl hi
  next cur hcur =>
  have hfound := (filter_eq_some_iff.mp hcur).1
  split
  · next hsome => exact keeps_delete hi (hover hsome)
  · exact keeps_rewrite hi hfound ⟨rfl, rfl, rfl, rfl, rfl, rfl⟩

variable {u : ConditionalJobUpdate} {l : Link}

/-- `update_job_if_current` ends the job or changes its text only. -/
theorem keeps_updateJobIfCurrent (hi : HubInv k h) (hs : updateJobIfCurrent h.store u = some s) :
    Keeps k h { h with store := s } := by
  obtain ⟨hrow, -, -, houtbox⟩ := updateJobIfCurrent_some hs
  refine keeps_store hi ?_ houtbox
  refine related_updateKey RowKept.refl hrow.jobs fun j _ hexp => ?_
  refine ⟨rfl, rfl, ?_⟩
  show u.state.getD j.state = j.state ∨ _
  cases hstate : u.state with
  | none => exact .inl rfl
  | some target =>
    refine .inr ⟨?_, ?_⟩
    · rw [ConditionalJobUpdate.expects] at hexp
      simp only [Bool.and_eq_true, decide_eq_true_eq] at hexp
      rw [hexp.1.2]
      exact u.expected_live
    · show (u.state.getD j.state).isTerminal = true
      rw [hstate]
      exact u.state_terminal target hstate

/-! ## What the tasks know -/

/-- `mark_job_failed` of the job: the update it asks for will go through. -/
inductive Fails (h : Hub) (k : Key) : HubEvents.Task → Prop where
  | start (message : String) (hheld : Held h k) :
      Fails h k (.updateError k.2 message true)
  | settle (c : CachedJob) (u : ConditionalJobUpdate)
      (hkey : u.key = k) (hid : c.id = k.2) (hstate : u.state.isSome = true)
      (hexp : ∀ j, h.store.jobs.find? k = some j → j.state.isTerminal = true ∨ u.expects j = true) :
      Fails h k (.settle c u false)
  | merge (c : CachedJob) (state : Option JobState) (error : Option String)
      (now : Int) (hover : Over h k) :
      Fails h k (.settleMerge c state error now false)
  | done (result : Except Uploads.HubError Unit) (hover : Over h k) :
      Fails h k (.done result)

/-- `update_job_error` that does not end this job: of another one, or without a new state. -/
inductive Notes (k : Key) : HubEvents.Task → Prop where
  | start (id message : String) (terminal : Bool)
      (hother : terminal = true → id ≠ k.2) :
      Notes k (.updateError id message terminal)
  | settle (c : CachedJob) (u : ConditionalJobUpdate)
      (hother : u.state.isSome = true → c.id ≠ k.2) :
      Notes k (.settle c u false)
  | merge (c : CachedJob) (state : Option JobState) (error : Option String)
      (now : Int) (hother : state.isSome = true → c.id ≠ k.2) :
      Notes k (.settleMerge c state error now false)
  | done (result : Except Uploads.HubError Unit) : Notes k (.done result)

/-- What a task relies on. -/
def Knows (h : Hub) (k : Key) : Task → Prop
  | .outbox e | .reschedule e => e.1.2 = k.2 → e.1 = k
  | .rebind e _ j | .cacheBound e _ j =>
    (e.1.2 = k.2 → e.1 = k) ∧ j.key = e.1 ∧ (e.1 = k → Snap h k j)
  | .rebindStore e _ j _ | .rebindReload e _ j _ | .rebindRetry e _ j _ _
  | .rebindMerge e _ j _ _ =>
    (e.1.2 = k.2 → e.1 = k) ∧ j.key = e.1 ∧ (e.1 = k → Snap h k j ∧ Held h k)
  | .ensure e _ | .send e _ | .wait e _ =>
    (e.1.2 = k.2 → e.1 = k) ∧ (e.1 = k → Held h k)
  | .failing e t => (e.1.2 = k.2 → e.1 = k) ∧ (e.1 = k → Fails h k t) ∧ (e.1 ≠ k → Notes k t)
  | .deliver e => (e.1.2 = k.2 → e.1 = k) ∧ (e.1 = k → Over h k)
  | .noting e t => (e.1.2 = k.2 → e.1 = k) ∧ Notes k t
  | _ => True

theorem Fails.kept {t : HubEvents.Task} (ht : Fails h k t) (hk : Keeps k h h') : Fails h' k t := by
  cases ht with
  | start message hheld => exact .start message (hk.held hheld)
  | settle c u hkey hid hstate hexp =>
    refine .settle c u hkey hid hstate ?_
    intro j' hj'
    obtain ⟨j, hj, hkept⟩ := hk.rows.back k j' hj'
    rcases hexp j hj with hover | hexp
    · exact .inl (hkept.over hover)
    rcases hkept.state with hsame | ⟨-, hover⟩
    · refine .inr ?_
      rw [ConditionalJobUpdate.expects] at hexp ⊢
      rw [hkept.attempt, hsame, hkept.lastEvent]
      exact hexp
    · exact .inl hover
  | merge c state error now hover =>
    exact .merge c state error now (hover.kept hk.rows)
  | done result hover => exact .done result (hover.kept hk.rows)

/-- What a task knows it goes on knowing. -/
theorem Knows.kept (ht : Knows h k t) (hk : Keeps k h h') : Knows h' k t := by
  cases t with
  | outbox e | reschedule e | noting e t => exact ht
  | rebind e sid j | cacheBound e sid j =>
    exact ⟨ht.1, ht.2.1, fun he => (ht.2.2 he).kept hk.rows⟩
  | rebindStore e sid j c | rebindReload e sid j c
  | rebindRetry e sid j c stored | rebindMerge e sid j c now =>
    exact ⟨ht.1, ht.2.1, fun he =>
      ⟨(ht.2.2 he).1.kept hk.rows, hk.held (ht.2.2 he).2⟩⟩
  | ensure e sid | send e sid | wait e sid =>
    exact ⟨ht.1, fun he => hk.held (ht.2 he)⟩
  | failing e t => exact ⟨ht.1, fun he => (ht.2.1 he).kept hk, ht.2.2⟩
  | deliver e => exact ⟨ht.1, fun he => (ht.2 he).kept hk.rows⟩
  | _ => exact trivial

/-! ## One statement -/

/-- The statement keeps what is known of the job, and the task knows what it needs next. -/
def Leads (k : Key) (h h' : Hub) (t' : Task) : Prop :=
  Keeps k h h' ∧ Knows h' k t'

theorem leads_of_read (hi : HubInv k h) (ht : Knows h k t') : Leads k h h t' := ⟨keeps_refl hi, ht⟩

/-- An unfinished job that is in memory can be failed. -/
theorem fails_afterError (hi : HubInv k h) (hheld : Held h k) (message : String) (now : Int) :
    Fails h k (HubEvents.afterError message true now (h.jobs.find? k.2)) := by
  cases hc : h.jobs.find? k.2 with
  | none =>
    refine .done _ ?_
    intro j hj
    cases hlive : j.state.isTerminal with
    | true => rfl
    | false =>
      obtain ⟨c, hc', -⟩ := hheld j hj hlive
      cases hc.symm.trans hc'
  | some c =>
    have hcid : c.id = k.2 := key_of_find? hc
    have hshows : ∀ j, h.store.jobs.find? k = some j → j.state.isTerminal = true ∨ Shows c j := by
      intro j hj
      cases hlive : j.state.isTerminal with
      | true => exact .inl rfl
      | false =>
        obtain ⟨d, hd, hshows⟩ := hheld j hj hlive
        cases hc.symm.trans hd
        exact .inr hshows
    rw [HubEvents.afterError]
    split
    · refine .settle c _ ?_ hcid rfl ?_
      · show (c.organizationId, c.id) = k
        rw [(hi.copy c hc).1, hcid]
      intro j hj
      refine (hshows j hj).imp_right ?_
      rintro ⟨hattempt, hstate, hlast⟩
      rw [ConditionalJobUpdate.expects]
      simp only [Bool.and_eq_true, decide_eq_true_eq]
      exact ⟨⟨hattempt, hstate⟩, hlast⟩
    · next hterm =>
      refine .done _ ?_
      intro j hj
      rcases hshows j hj with hover | hshows
      · exact hover
      · rw [hshows.2.1]
        exact Bool.not_eq_false _ ▸ hterm

/-- An update that ends the job has ended it. -/
theorem over_of_updated (hkey : u.key = k) (hstate : u.state.isSome = true)
    (hs : updateJobIfCurrent h.store u = some s) :
    Over { h with store := s } k := by
  obtain ⟨target, htarget⟩ := Option.isSome_iff_exists.mp hstate
  have hup := (updateJobIfCurrent_some hs).1.jobs
  obtain ⟨j, hj, -, -⟩ := updateKey_eq_some hup
  intro j' hj'
  rw [find?_updateKey hup hj, if_pos hkey.symm] at hj'
  cases hj'
  show (u.state.getD j.state).isTerminal = true
  rw [htarget]
  exact u.state_terminal target htarget

/-- An update that was expected to match finds the job ended. -/
theorem over_of_not_updated (hkey : u.key = k)
    (hexp : ∀ j, h.store.jobs.find? k = some j → j.state.isTerminal = true ∨ u.expects j = true)
    (hs : updateJobIfCurrent h.store u = none) : Over h k := by
  intro j hj
  rcases hexp j hj with hover | hexp
  · exact hover
  obtain ⟨jobs, hjobs⟩ := exists_updateKey u.write u.write_key (hkey.symm ▸ hj) hexp
  rw [updateJobIfCurrent, hjobs] at hs
  cases hs

section

variable (hi : HubInv k h)
include hi

/-- One statement of `mark_job_failed` of the job. -/
theorem Fails.step {t t' : HubEvents.Task}
    (ht : Fails h k t) (hmind : ∀ m c u cancelling, reply = .failed m →
      t = .settle c u cancelling → Over h k)
    (hs : HubEvents.taskStep h t reply = some (h', t')) :
    Keeps k h h' ∧ Fails h' k t' := by
  cases ht with
  | start message hheld =>
    cases reply with
    | failed m => cases hs
    | ok now =>
      cases hs
      exact ⟨keeps_refl hi, fails_afterError hi hheld message now⟩
  | settle c u hkey hid hstate hexp =>
    cases reply with
    | failed m =>
      cases hs
      exact ⟨keeps_refl hi, .done _ (hmind m c u false rfl rfl)⟩
    | ok now =>
      simp only [HubEvents.taskStep] at hs
      split at hs
      · next s hup =>
        cases hs
        exact ⟨keeps_updateJobIfCurrent hi hup, .merge c _ _ _ (over_of_updated hkey hstate hup)⟩
      · next hup =>
        cases hs
        exact ⟨keeps_refl hi, .done _ (over_of_not_updated hkey hexp hup)⟩
  | merge c state error now hover =>
    cases reply with
    | failed m => cases hs
    | ok now' =>
      cases hs
      have hk : Keeps k h (mergeSettlement h c state error now) :=
        keeps_mergeSettlement hi fun _ _ => hover
      refine ⟨hk, ?_⟩
      split
      all_goals exact .done _ (hover.kept hk.rows)
  | done result hover => cases hs

/-- One statement of `update_job_error` that does not end the job. -/
theorem Notes.step {t t' : HubEvents.Task} (ht : Notes k t)
    (hs : HubEvents.taskStep h t reply = some (h', t')) :
    Keeps k h h' ∧ Notes k t' := by
  cases ht with
  | start id message terminal hother =>
    cases reply with
    | failed m => cases hs
    | ok now =>
      cases hs
      refine ⟨keeps_refl hi, ?_⟩
      cases hc : h.jobs.find? id with
      | none => exact .done _
      | some c =>
        rw [HubEvents.afterError]
        split
        · refine .settle c _ ?_
          intro hsome hid
          have hterminal : terminal = true := by
            cases terminal with
            | true => rfl
            | false => cases hsome
          apply hother hterminal
          rw [← key_of_find? hc]
          exact hid
        · exact .done _
  | settle c u hother =>
    cases reply with
    | failed m =>
      cases hs
      exact ⟨keeps_refl hi, .done _⟩
    | ok now =>
      simp only [HubEvents.taskStep] at hs
      split at hs
      · next s hup =>
        cases hs
        exact ⟨keeps_updateJobIfCurrent hi hup, .merge c _ _ _ hother⟩
      · cases hs
        exact ⟨keeps_refl hi, .done _⟩
  | merge c state error now hother =>
    cases reply with
    | failed m => cases hs
    | ok now' =>
      cases hs
      refine ⟨keeps_mergeSettlement hi fun hsome hid =>
        absurd hid (hother hsome), ?_⟩
      split
      · exact .done _
      · exact .done _
  | done result => cases hs

theorem knows_afterRow (hmine : e.1.2 = k.2 → e.1 = k) :
    Knows h k (afterRow h e (h.store.jobs.find? e.1)) := by
  cases hj : h.store.jobs.find? e.1 with
  | none =>
    refine ⟨hmine, ?_⟩
    intro he j hj'
    rw [he] at hj
    cases hj.symm.trans hj'
  | some j =>
    rw [afterRow]
    split
    · next hterm =>
      refine ⟨hmine, ?_⟩
      intro he i hi'
      cases hj.symm.trans (he ▸ hi')
      exact hterm
    · next hlive =>
      split
      · split
        · refine ⟨hmine, key_of_find? hj, ?_⟩
          intro he
          refine ⟨Bool.eq_false_iff.mpr hlive, hi.bigint j (he ▸ hj), ?_⟩
          intro i hi'
          cases hj.symm.trans (he ▸ hi')
          exact .inr ⟨rfl, rfl, rfl⟩
        · exact hmine
      · exact hmine

/-- A copy whose worker is connected is no snapshot from before the binding. -/
theorem held_of_connected (hc : h.jobs.find? k.2 = some c)
    (hcur : h.currentSessionId c.workerOrganizationId c.workerId = some sid) : Held h k := by
  intro j hj hlive
  refine ⟨c, hc, ?_⟩
  rcases (hi.copy c hc).2 j hj with hover | hshows | hun
  · cases hlive.symm.trans hover
  · exact hshows
  · rw [Hub.currentSessionId, hun.2, hi.named] at hcur
    cases hcur

theorem knows_afterCopy (ht : Knows h k (.rebind e sid j)) :
    Knows h k (afterCopy h e sid j (h.jobs.find? j.id)) := by
  obtain ⟨hmine, hkey, hsnap⟩ := ht
  cases hc : h.jobs.find? j.id with
  | none => exact ⟨hmine, hkey, hsnap⟩
  | some c =>
    rw [afterCopy]
    split
    · next hcur =>
      refine ⟨hmine, hkey, fun he => ⟨hsnap he, ?_⟩⟩
      have hjid : j.id = k.2 := by
        rw [← he, ← hkey]
        rfl
      exact held_of_connected hi (hjid ▸ hc) hcur.2
    · exact ⟨hmine, hkey, hsnap⟩

/-- One statement of `rebind_cached_outbox_job` that writes the row. -/
theorem leads_rebound {key : Key} {attempt : Nat} {expected : String}
    (hmine : e.1.2 = k.2 → e.1 = k) (hkey : j.key = e.1)
    (hknown : e.1 = k → Snap h k j ∧ Held h k)
    (hs : rebindJobSession h.store key attempt expected sid now = some s) :
    Leads k h { h with store := s } (.rebindMerge e sid j c now) := by
  have hk := keeps_rebindJobSession hi hs
  exact ⟨hk, hmine, hkey, fun he =>
    ⟨(hknown he).1.kept hk.rows, hk.held (hknown he).2⟩⟩

/-- `update_job_error` inside a dispatch: what it knows of the job, and the
    statement that follows it. -/
theorem leads_failing {u : HubEvents.Task} (ht : Knows h k (.failing e u))
    (hfail : ∀ m c v cancelling, reply = .failed m → u = .settle c v cancelling →
      e.1 = k → Over h k)
    (hs : hubStep h (.failing e u) reply = some (h', t')) : Leads k h h' t' := by
  obtain ⟨hmine, hown, hother⟩ := ht
  simp only [hubStep] at hs
  split at hs
  · cases hs
    refine leads_of_read hi ⟨hmine, ?_⟩
    intro he
    cases hown he with
    | done result hover => exact hover
  · obtain ⟨⟨h₁, t₁⟩, hstep, hr⟩ := map_eq_some_iff.mp hs
    cases hr
    by_cases he : e.1 = k
    · obtain ⟨hk, hfails⟩ := (hown he).step hi
        (fun m c v cancelling hm hu => hfail m c v cancelling hm hu he) hstep
      exact ⟨hk, hmine, fun _ => hfails, fun hne => absurd he hne⟩
    · obtain ⟨hk, hnotes⟩ := (hother he).step hi hstep
      exact ⟨hk, hmine, fun he' => absurd he' he, fun _ => hnotes⟩

theorem leads_noting {u : HubEvents.Task} (ht : Knows h k (.noting e u))
    (hs : hubStep h (.noting e u) reply = some (h', t')) : Leads k h h' t' := by
  simp only [hubStep] at hs
  split at hs
  · cases hs
    exact leads_of_read hi ht.1
  obtain ⟨⟨h₁, t₁⟩, hstep, hr⟩ := map_eq_some_iff.mp hs
  cases hr
  obtain ⟨hk, hnotes⟩ := ht.2.step hi hstep
  exact ⟨hk, ht.1, hnotes⟩

/-- A failed statement changes nothing: the dispatch is put off, or the handler returns. -/
theorem leads_failed {m : String} (ht : Knows h k t)
    (hfail : ∀ e c u cancelling, t = .failing e (.settle c u cancelling) → e.1 = k → Over h k)
    (hs : hubStep h t (.failed m) = some (h', t')) : Leads k h h' t' := by
  cases t with
  | outbox | deliver | reschedule | replayMark =>
    cases hs
    exact leads_of_read hi trivial
  | rebind | rebindStore | rebindReload | rebindRetry | cacheBound | ensure =>
    cases hs
    exact leads_of_read hi ht.1
  | failing e u =>
    exact leads_failing hi ht (fun _ c v cancelling _ hu =>
      hfail e c v cancelling (congrArg _ hu)) hs
  | noting e u => exact leads_noting hi ht hs
  | rebindJobs w ids replay =>
    cases ids <;> (
      cases hs
      exact leads_of_read hi trivial)
  | replay w todo => cases todo <;> cases hs
  | _ => cases hs

theorem leads_ok (ht : Knows h k t)
    (hmark : ∀ w d todo, t = .replayMark w d todo → (w.organizationId, d.jobId) = k → Over h k)
    (hs : hubStep h t (.ok now) = some (h', t')) : Leads k h h' t' := by
  cases t with
  | outbox e =>
    cases hs
    exact leads_of_read hi (knows_afterRow hi ht)
  | rebind e sid j =>
    cases hs
    exact leads_of_read hi (knows_afterCopy hi ht)
  | rebindStore e sid j c =>
    simp only [hubStep] at hs
    split at hs
    · next s hup =>
      cases hs
      exact leads_rebound hi ht.1 ht.2.1 ht.2.2 hup
    · cases hs
      exact leads_of_read hi ht
  | rebindReload e sid j c =>
    have hback : Knows h k (.cacheBound e sid j) :=
      ⟨ht.1, ht.2.1, fun he => (ht.2.2 he).1⟩
    simp only [hubStep] at hs
    split at hs
    · split at hs
      · cases hs
        exact leads_of_read hi ht
      · cases hs
        exact leads_of_read hi hback
    · cases hs
      exact leads_of_read hi hback
  | rebindRetry e sid j c stored =>
    simp only [hubStep] at hs
    split at hs
    · next s hup =>
      cases hs
      exact leads_rebound hi ht.1 ht.2.1 ht.2.2 hup
    · cases hs
      exact leads_of_read hi ⟨ht.1, ht.2.1, fun he => (ht.2.2 he).1⟩
  | rebindMerge e sid j c now' =>
    simp only [hubStep] at hs
    split at hs
    · next h₁ hm =>
      cases hs
      have hk := keeps_mergeCachedOutboxJob hi hm
      exact ⟨hk, ht.1, fun he => hk.held (ht.2.2 he).2⟩
    · cases hs
      exact leads_of_read hi ⟨ht.1, ht.2.1, fun he => (ht.2.2 he).1⟩
  | cacheBound e sid j =>
    simp only [hubStep] at hs
    split at hs
    · next hcaches =>
      cases hs
      obtain ⟨hk, hheld⟩ := keeps_cacheBound hi ht.2.1 ht.1 ht.2.2 hcaches
      exact ⟨hk, ht.1, hheld⟩
    · cases hs
      exact leads_of_read hi ht.1
  | ensure e sid =>
    cases hs
    exact leads_of_read hi ht
  | failing e u => exact leads_failing hi ht (by rintro m c v cancelling ⟨⟩) hs
  | deliver e =>
    cases hs
    exact ⟨keeps_status hi fun _ => ht.2, trivial⟩
  | noting e u => exact leads_noting hi ht hs
  | reschedule e =>
    cases hs
    exact ⟨keeps_status hi fun hbad => absurd hbad (by decide), trivial⟩
  | rebindJobs w ids replay =>
    cases ids with
    | nil =>
      cases hs
      exact leads_of_read hi trivial
    | cons id ids =>
      simp only [hubStep] at hs
      split at hs
      · cases hs
        exact leads_of_read hi trivial
      split at hs
      · cases hs
        exact leads_of_read hi trivial
      split at hs
      · cases hs
        exact leads_of_read hi trivial
      next hrow =>
      cases hs
      exact ⟨keeps_rebound hi hrow, trivial⟩
  | replay w todo =>
    cases todo with cases hs
    | nil =>
      exact leads_of_read hi trivial
    | cons d todo =>
      refine leads_of_read hi ?_
      split <;> exact trivial
  | replayConfirm w d todo =>
    cases hs
    refine leads_of_read hi ?_
    split <;> exact trivial
  | replayMark w d todo =>
    cases hs
    exact ⟨keeps_status hi fun _ => hmark w d todo rfl, trivial⟩
  | _ => cases hs

end

/-! ## One action -/

/-- The task has sent the command, and waits for its answer if it still waits. -/
def Asked (c : Command) : Task → Prop
  | .wait e _ => c = .outbox e.1.2 e.2
  | .failing _ _ | .deliver _ | .noting _ _ | .reschedule _ | .done => True
  | _ => False

/-- Who waits at the link has asked, and every answer on it rejects the job. -/
structure LinkInv (k : Key) (tasks : List Task) (l : Link) : Prop where
  waiters : ∀ p ∈ l.waiters, ∃ t, tasks[p.2]? = some t ∧ Asked p.1 t
  rejected : ∀ a ∈ l.uplink, a.command.jobId = k.2 → a.accepted = false

structure Inv (k : Key) (w : World) : Prop where
  hub : HubInv k w.hub
  tasks : ∀ t ∈ w.tasks, Knows w.hub k t
  links : ∀ l ∈ w.links, LinkInv k w.tasks l

variable {w w' : World}

/-- A task that has sent its command does not send it again. -/
theorem Asked.step {c : Command} (ha : Asked c t) (hs : hubStep h t reply = some (h', t')) :
    Asked c t' := by
  cases t with
  | wait e sid | done => cases reply <;> cases hs
  | failing e t | noting e t =>
    simp only [hubStep] at hs
    split at hs
    · cases hs
      exact trivial
    obtain ⟨⟨h₁, t₁⟩, -, hr⟩ := map_eq_some_iff.mp hs
    cases hr
    exact trivial
  | deliver e | reschedule e =>
    cases reply <;> (
      cases hs
      exact trivial)
  | _ => exact ha.elim

/-- A link that waits for less and carries less. -/
theorem LinkInv.fewer {tasks : List Task} {l' : Link} (hl : LinkInv k tasks l)
    (hwaiters : ∀ p ∈ l'.waiters, p ∈ l.waiters) (huplink : ∀ a ∈ l'.uplink, a ∈ l.uplink) :
    LinkInv k tasks l' :=
  ⟨fun p hp => hl.waiters p (hwaiters p hp), fun a ha => hl.rejected a (huplink a ha)⟩

/-- The link of one session changes. -/
theorem forall_links {P : Link → Prop} {f : Link → Link} (hlinks : ∀ l ∈ links, P l)
    (hf : ∀ l, P l → P (f l)) :
    ∀ l ∈ links.map fun l => if l.sessionId = sid then f l else l, P l := by
  intro l hl
  obtain ⟨l₀, hl₀, rfl⟩ := mem_map.mp hl
  split
  · exact hf l₀ (hlinks l₀ hl₀)
  · exact hlinks l₀ hl₀

theorem forall_push {tasks : List Task} {c : Command} (hlinks : ∀ l ∈ links, LinkInv k tasks l) :
    ∀ l ∈ push links sid c, LinkInv k tasks l :=
  forall_links hlinks fun _ hl => hl.fewer (fun _ => id) fun _ => id

/-- A task begins. -/
theorem Inv.spawn (hI : Inv k w) (hk : Keeps k w.hub h') (ht : Knows h' k t) :
    Inv k { w with hub := h', tasks := w.tasks ++ [t] } where
  hub := hk.inv
  tasks := Pools.forall_tasks_spawn (fun u hu => (hI.tasks u hu).kept hk) ht
  links l hl := by
    refine ⟨fun p hp => ?_, (hI.links l hl).rejected⟩
    obtain ⟨u, hu, hasked⟩ := (hI.links l hl).waiters p hp
    have hlt := (List.getElem?_eq_some_iff.mp hu).1
    exact ⟨u, (getElem?_append_left hlt).trans hu, hasked⟩

/-- A task goes on. -/
theorem Inv.advance (hI : Inv k w) (hk : Keeps k w.hub h')
    (hi : w.tasks[i]? = some t) (ht' : Knows h' k t')
    (hasked : ∀ c, Asked c t → Asked c t') :
    Inv k { w with hub := h', tasks := w.tasks.set i t' } where
  hub := hk.inv
  tasks := Pools.forall_tasks_set (fun u hu => (hI.tasks u hu).kept hk) ht'
  links l hl := by
    refine ⟨fun p hp => ?_, (hI.links l hl).rejected⟩
    obtain ⟨u, hu, ha⟩ := (hI.links l hl).waiters p hp
    by_cases heq : i = p.2
    · rw [heq] at hi ⊢
      cases hi.symm.trans hu
      exact ⟨t', getElem?_set_self (List.getElem?_eq_some_iff.mp hi).1, hasked p.1 ha⟩
    · exact ⟨u, (getElem?_set_ne heq).trans hu, ha⟩

/-- `send_command` puts the command into the channel and waits. -/
theorem Inv.send (hI : Inv k w) (hi : w.tasks[i]? = some (.send e sid)) : Inv k { w with
      links := push (await w.links sid (.outbox e.1.2 e.2) i) sid (.outbox e.1.2 e.2)
      tasks := w.tasks.set i (.wait e sid) } := by
  have hknows : Knows w.hub k (.wait e sid) := (hI.tasks _ (mem_of_getElem? hi) :)
  have hlt : i < w.tasks.length := (List.getElem?_eq_some_iff.mp hi).1
  -- a task that is about to send has no waiter yet
  have hadv := hI.advance (keeps_refl hI.hub) hi hknows fun c hc => hc.elim
  refine { hadv with links := forall_push (forall_links hadv.links fun l hl => ?_) }
  refine ⟨fun p hp => ?_, hl.rejected⟩
  rcases mem_cons.mp hp with rfl | hp
  · exact ⟨_, getElem?_set_self hlt, rfl⟩
  · exact hl.waiters p (mem_filter.mp hp).1

theorem knows_unanswered (hmine : e.1.2 = k.2 → e.1 = k) (m : String) :
    Knows h k (unanswered e m) :=
  ⟨hmine, .start _ _ _ fun hbad => nomatch hbad⟩

/-- The answer reaches the task that waits for it. -/
theorem knows_answered {ack : CommandAck} (ht : Knows h k (.wait e sid))
    (hcommand : ack.command = .outbox e.1.2 e.2)
    (hrejected : ack.command.jobId = k.2 → ack.accepted = false) :
    Knows h k (answered e ack) := by
  obtain ⟨hmine, hheld⟩ := ht
  rw [answered]
  split
  · next haccepted =>
    refine ⟨hmine, ?_⟩
    intro he
    have hjob : ack.command.jobId = k.2 := by
      rw [hcommand, ← he]
      rfl
    cases haccepted.symm.trans (hrejected hjob)
  · refine ⟨hmine, ?_, ?_⟩
    · rintro rfl
      exact .start ack.message (hheld rfl)
    · intro hne
      exact .start _ _ _ fun _ hid => hne (hmine hid)

/-- A task that is not at the link takes a statement of the Hub. -/
theorem taskStep_hub (ht : ∀ e sid, t ≠ .send e sid) (ht' : ∀ e sid, t ≠ .wait e sid)
    (ht'' : ∀ s d todo, t ≠ .replaySend s d todo) :
    taskStep w i t reply = (hubStep w.hub t reply).map fun r => ({ w with hub := r.1 }, r.2) := by
  cases t with
  | send e sid => exact absurd rfl (ht e sid)
  | wait e sid => exact absurd rfl (ht' e sid)
  | replaySend s d todo => exact absurd rfl (ht'' s d todo)
  | _ => rfl

theorem inv_taskStep (hI : Inv k w) (hi : w.tasks[i]? = some t)
    (hminds : Minds k w (.advance i reply))
    (hs : taskStep w i t reply = some (w', t')) :
    Inv k { w' with tasks := w.tasks.set i t' } := by
  have hknows := hI.tasks t (mem_of_getElem? hi)
  have hstay : ∀ u, Knows w.hub k u → (∀ c, Asked c t → Asked c u) →
      Inv k { w with tasks := w.tasks.set i u } := fun u hu ha =>
    hI.advance (keeps_refl hI.hub) hi hu ha
  by_cases hsend : ∃ e sid, t = .send e sid
  · obtain ⟨e, sid, rfl⟩ := hsend
    cases reply with
    | ok now =>
      simp only [taskStep] at hs
      split at hs
      · cases hs
        exact hI.send hi
      · cases hs
        exact hstay _ (knows_unanswered hknows.1 _) fun c hc => hc.elim
    | failed m =>
      cases hs
      exact hstay _ (knows_unanswered hknows.1 _) fun c hc => hc.elim
  by_cases hwait : ∃ e sid, t = .wait e sid
  · obtain ⟨e, sid, rfl⟩ := hwait
    cases reply with
    | ok now => cases hs
    | failed m =>
      cases hs
      have hgone := hstay (unanswered e m) (knows_unanswered hknows.1 _) fun c _ => trivial
      exact { hgone with
        links := forall_links hgone.links fun l hl =>
          hl.fewer (fun p hp => (mem_filter.mp hp).1) fun _ => id }
  by_cases hreplay : ∃ s d todo, t = .replaySend s d todo
  · obtain ⟨s, d, todo, rfl⟩ := hreplay
    cases reply with
    | ok now =>
      simp only [taskStep] at hs
      split at hs
      · cases hs
        have hsent := hstay (.replayConfirm s d todo) trivial fun c hc => hc.elim
        exact { hsent with links := forall_push hsent.links }
      · cases hs
        exact hstay .done trivial fun c hc => hc.elim
    | failed m => cases hs
  rw [taskStep_hub (fun e sid he => hsend ⟨e, sid, he⟩) (fun e sid he => hwait ⟨e, sid, he⟩)
    (fun s d todo he => hreplay ⟨s, d, todo, he⟩)] at hs
  obtain ⟨⟨h', u⟩, hstep, hr⟩ := map_eq_some_iff.mp hs
  cases hr
  have hleads : Leads k w.hub h' u := by
    cases reply with
    | ok now => exact leads_ok hI.hub hknows (by
        rintro s d todo rfl hkey
        exact hminds s d todo hi hkey) hstep
    | failed m => exact leads_failed hI.hub hknows (by
        rintro e c u cancelling rfl he
        exact hminds e c u cancelling hi he) hstep
  exact hI.advance hleads.1 hi hleads.2 fun c hc => hc.step hstep

/-- The answer of the worker to the first command of a link. -/
theorem Inv.answer (hI : Inv k w) {l : Nat} {link : Link} {c : Command}
    {rest : List Command} {accepted : Bool} {message : String}
    (hl : w.links[l]? = some link)
    (hrejects : c.jobId = k.2 → accepted = false) :
    Inv k { w with links := w.links.set l { link with
      downlink := rest
      uplink := link.uplink ++ [⟨c, accepted, message⟩] } } := by
  have hlink := hI.links link (mem_of_getElem? hl)
  refine { hI with links := Pools.forall_tasks_set hI.links ⟨hlink.waiters, ?_⟩ }
  refine Pools.forall_tasks_spawn hlink.rejected ?_
  exact hrejects

/-- The Hub reads an answer. -/
theorem Inv.resolve (hI : Inv k w) {l : Nat} {link : Link} {ack : CommandAck}
    {rest : List CommandAck} (hl : w.links[l]? = some link)
    (hup : link.uplink = ack :: rest) :
    Inv k (resolve w l link ack rest) := by
  have hlink := hI.links link (mem_of_getElem? hl)
  have hshrink : ∀ (link' : Link), (∀ p ∈ link'.waiters, p ∈ link.waiters) →
      link'.uplink = rest → Inv k { w with links := w.links.set l link' } := by
    intro link' hwait hrest
    refine { hI with links := Pools.forall_tasks_set hI.links (hlink.fewer hwait ?_) }
    rw [hrest, hup]
    exact fun a ha => mem_cons_of_mem _ ha
  rw [Rejections.resolve]
  split
  · exact hshrink _ (fun p hp => hp) rfl
  next c i hfind =>
  obtain ⟨hcommand, hwaiter⟩ : c = ack.command ∧ (c, i) ∈ link.waiters :=
    ⟨of_decide_eq_true (find?_some hfind :), mem_of_find?_eq_some hfind⟩
  have hgone := hshrink { link with
      uplink := rest
      waiters := link.waiters.filter fun p =>
        decide (p.1 ≠ ack.command) }
    (fun p hp => (mem_filter.mp hp).1) rfl
  split
  · next e sid hi =>
    obtain ⟨_, hi', hasked⟩ := hlink.waiters (c, i) hwaiter
    cases hi.symm.trans hi'
    have hknows := hI.tasks _ (mem_of_getElem? hi)
    have hanswered := knows_answered hknows (hcommand.symm.trans hasked)
      (hlink.rejected ack (hup ▸ mem_cons_self))
    refine hgone.advance (keeps_refl hI.hub) hi hanswered ?_
    intro c' _
    rw [answered]
    split <;> exact trivial
  · exact hgone

/-- What every action keeps. -/
theorem inv_step {a : Act} (hI : Inv k w) (hrejects : Rejects k w a)
    (hminds : Minds k w a) (hs : step w a = some w') : Inv k w' := by
  cases a with simp only [step] at hs
  | claim e =>
    split at hs
    · cases hs
    next o ho =>
    obtain ⟨-, rfl⟩ := of_guard_not hs
    refine hI.spawn (keeps_status hI.hub fun hbad =>
      absurd hbad (by decide)) ?_
    intro hid
    have hkey : o.key = e := key_of_find? ho
    subst hkey
    have horg := hI.hub.entries o (mem_of_find? ho) hid
    exact Prod.ext horg hid
  | serveWorker s =>
    obtain ⟨hname, rfl⟩ := of_guard_not hs
    have hnamed : ∀ o, (w.hub.sessions.put
        ⟨s.organizationId, s.workerId, s.sessionId⟩).find? (o, "") = none := by
      intro o
      rw [find?_put, if_neg]
      · exact hI.hub.named o
      · exact fun hkey => hname (congrArg Prod.snd hkey)
    have hlinked : Inv k { w with links := w.links ++ [⟨s.sessionId, [], [], []⟩] } :=
      { hI with links := Pools.forall_tasks_spawn hI.links ⟨by simp, by simp⟩ }
    exact hlinked.spawn (keeps_sessions hI.hub hnamed) trivial
  | answer l accepted message =>
    split at hs
    · cases hs
    next link hl =>
    split at hs
    · cases hs
    next c rest hdown =>
    cases hs
    exact hI.answer hl (hrejects link c rest hl hdown)
  | commandAck l =>
    split at hs
    · cases hs
    next link hl =>
    split at hs
    · cases hs
    next ack rest hup =>
    cases hs
    exact hI.resolve hl hup
  | lose l =>
    split at hs
    · cases hs
    next link hl =>
    cases hs
    have hk : Keeps k w.hub { w.hub with
        sessions := w.hub.sessions.delete fun s =>
          decide (s.sessionId = link.sessionId) } := by
      refine keeps_sessions hI.hub ?_
      intro o
      rw [find?_delete, hI.hub.named o]
      rfl
    exact ⟨hk.inv, fun t ht => (hI.tasks t ht).kept hk,
      fun m hm => hI.links m (mem_of_mem_eraseIdx hm)⟩
  | advance i reply =>
    obtain ⟨t, hi, hs⟩ := bind_eq_some_iff.mp hs
    obtain ⟨⟨w₁, t'⟩, hstep, rfl⟩ := map_eq_some_iff.mp hs
    exact inv_taskStep hI hi hminds hstep

/-- No dispatch is in progress; the rows of the job in the outbox are its own
    and none is delivered before it is finished. -/
structure Start (k : Key) (w : World) : Prop where
  hub : HubInv k w.hub
  tasks : w.tasks = []
  links : w.links = []

theorem Start.inv (hs : Start k w) : Inv k w where
  hub := hs.hub
  tasks := by
    rw [hs.tasks]
    exact fun t ht => absurd ht not_mem_nil
  links := by
    rw [hs.links]
    exact fun l hl => absurd hl not_mem_nil

/-- A delivered row is the row of a finished job. -/
theorem Inv.not_silent (hI : Inv k w) : ¬ Silent k w := by
  rintro ⟨⟨j, hj, hlive⟩, ⟨o, ho, hkey⟩, hall, -⟩
  have hover := hI.hub.marked o ho hkey (hall o ho hkey) j hj
  cases hlive.symm.trans hover

/-- **REJECTED, NEVER SILENT**: in every run in which the worker rejects every dispatch of the job,
    the replay marks it only when it is finished or of another organization, and its failure reaches
    the database, it is never left delivered and unfinished. -/
theorem rejected_never_silent (hstart : Start k w) {as : List Act}
    (hok : Admitted step (fun w a => Rejects k w a ∧ Minds k w a) w as) :
    Along step (fun w => ¬ Silent k w) w as := by
  have hinv := inv_along_admitted
    (fun _ _ _ hI hok hs => inv_step hI hok.1 hok.2 hs) as w hstart.inv hok
  exact Along.mono (fun _ hI => hI.not_silent) as w hinv

/-! ## A worker that does not know the workflow any more -/

/-- The job is bound to the worker; its row in the outbox is pending. -/
def sampleRow : JobRow :=
  { HubEvents.finishedRow "org" with
    workerOrganizationId := some "org"
    state := .received
    lastEvent := 0 }

def sampleWorld : World where
  hub :=
    { store := { sampleStore with
        jobs := Table.empty.put sampleRow
        outbox := Table.empty.put ⟨"org", "job", 1, "pending", 0⟩ }
      jobs := Table.empty.put (ofRow sampleRow)
      sessions := Table.empty }
  tasks := []
  links := []
  uuids := 0

def sampleSession : WorkerSession := ⟨"org", "default/gpu", "session-2"⟩

theorem sampleWorld_start : Start ("org", "job") sampleWorld where
  hub :=
    { entries := by
        intro o ho _
        rw [mem_singleton.mp ho]
      bigint := by
        intro j hj
        obtain rfl : sampleRow = j := some.inj hj
        decide
      copy := by
        intro c hc
        obtain rfl : ofRow sampleRow = c := some.inj hc
        refine ⟨rfl, ?_⟩
        intro j hj
        obtain rfl : sampleRow = j := some.inj hj
        exact .inr (.inl ⟨rfl, rfl, rfl⟩)
      named := fun _ => rfl
      marked := by
        intro o ho _ hstatus
        rw [mem_singleton.mp ho] at hstatus
        exact absurd hstatus (by decide) }
  tasks := rfl
  links := rfl

/-- The worker registers again, the job is replayed, the worker rejects it. -/
def replayedAndRejected : List Act :=
  [.serveWorker sampleSession, .advance 0 (.ok 1), .advance 0 (.ok 2),
    .advance 0 (.ok 3), .advance 0 (.ok 4), .advance 0 (.ok 5),
    .advance 0 (.ok 6), .advance 0 (.ok 7),
    .answer 0 false "workflow is unknown", .commandAck 0]

/-- **SILENTLY DELIVERED**: the row was marked when the frame was sent, nobody
    waits for the answer, and the job stays as it is. -/
theorem replayedAndRejected_silent : ∃ w, Start ("org", "job") sampleWorld
      ∧ Admitted step (Rejects ("org", "job")) sampleWorld replayedAndRejected
      ∧ run step sampleWorld replayedAndRejected = some w
      ∧ w.tasks = [.mainLoop sampleSession] ∧ Silent ("org", "job") w := by
  refine ⟨_, sampleWorld_start, ?_, rfl, rfl, ⟨_, rfl, rfl⟩, ⟨_, mem_cons_self, rfl⟩, ?_, ?_⟩
  · exact .cons trivial rfl (.cons trivial rfl (.cons trivial rfl
      (.cons trivial rfl (.cons trivial rfl (.cons trivial rfl
      (.cons trivial rfl (.cons trivial rfl
      (.cons (fun _ _ _ _ _ _ => rfl) rfl (.cons trivial rfl trivial)))))))))
  · intro o ho _
    rw [mem_singleton.mp ho]
    rfl
  · intro l hl
    rw [mem_singleton.mp hl]
    exact ⟨fun c hc => absurd hc not_mem_nil, fun a ha => absurd ha not_mem_nil⟩

/-- A statement of a task that is not about to mark a replay. -/
theorem minds_advance (hi : w.tasks[i]? = some t) (hne : ∀ s d todo, t ≠ .replayMark s d todo) :
    Minds k w (.advance i (.ok now)) := by
  intro s d todo hmark
  exact absurd (some.inj (hi.symm.trans hmark)) (hne s d todo)

/-- The outbox sends the job, the worker rejects it, the job fails and its row is delivered. -/
def sentAndRejected : List Act :=
  [.serveWorker sampleSession, .claim (("org", "job"), 1), .advance 1 (.ok 1),
    .advance 1 (.ok 2), .advance 1 (.ok 3), .advance 1 (.ok 4),
    .advance 1 (.ok 5), .advance 1 (.ok 6),
    .answer 0 false "workflow is unknown", .commandAck 0, .advance 1 (.ok 7),
    .advance 1 (.ok 8), .advance 1 (.ok 9), .advance 1 (.ok 10),
    .advance 1 (.ok 11)]

theorem sentAndRejected_admitted : Admitted step (fun w a => Rejects ("org", "job") w a
      ∧ Minds ("org", "job") w a) sampleWorld sentAndRejected := by
  have hgo : ∀ {w : World} {t : Task} {now : Int}, w.tasks[1]? = some t →
      (∀ s d todo, t ≠ .replayMark s d todo) →
      Rejects ("org", "job") w (.advance 1 (.ok now))
        ∧ Minds ("org", "job") w (.advance 1 (.ok now)) :=
    fun ht hne => ⟨trivial, minds_advance ht hne⟩
  exact .cons ⟨trivial, trivial⟩ rfl (.cons ⟨trivial, trivial⟩ rfl
    (.cons (hgo rfl nofun) rfl (.cons (hgo rfl nofun) rfl
    (.cons (hgo rfl nofun) rfl (.cons (hgo rfl nofun) rfl
    (.cons (hgo rfl nofun) rfl (.cons (hgo rfl nofun) rfl
    (.cons ⟨fun _ _ _ _ _ _ => rfl, trivial⟩ rfl
    (.cons ⟨trivial, trivial⟩ rfl
    (.cons (hgo rfl nofun) rfl (.cons (hgo rfl nofun) rfl
    (.cons (hgo rfl nofun) rfl (.cons (hgo rfl nofun) rfl
    (.cons (hgo rfl nofun) rfl trivial))))))))))))))

theorem sentAndRejected_not_silent : Along step (fun w => ¬ Silent ("org", "job") w) sampleWorld
      sentAndRejected :=
  rejected_never_silent sampleWorld_start sentAndRejected_admitted

end Rejections
