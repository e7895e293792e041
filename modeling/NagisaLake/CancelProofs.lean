import NagisaLake.HistoryProofs

/-! # Cancelling a job — `cancel_job_for_principal` beside everything else

A cancellation looks at the resident job, refuses one that is finished or
uploading, and sends `CancelJob` to the session the worker holds.  When
nobody answers, or nobody is connected, it cancels the job here
(`cancel_job_locally`).  The wait for the answer takes up to the ack
timeout, and the worker's events go on being applied meanwhile.

`HubEvents.Writes` says which transaction a statement may have done.
The local cancellation looks at the job again, but refuses only a finished
one: `ReadsUploading` is the look that finds it uploading. -/

namespace Cancel

open Jobs KeyedTable Runs Pools HubStore History Table HubEvents Option
open Uploads (HubError WorkerSession)

/-! ## `cancel_job_for_principal` -/

/-- What a cancellation reads of `Principal`. -/
structure Principal where
  organizationId : String
  userId : Option String
  cancelOwn : Bool
  cancelAny : Bool

/-- `principal_can_cancel_job`, with the `actor_user_id` of the job. -/
def Principal.canCancel (p : Principal) (actorUserId : Option String) :
    Bool :=
  p.cancelAny || (p.cancelOwn && decide (p.userId = actorUserId))

/-- How `send_command` ends: an ack, or nobody read the frame in time. -/
inductive CommandReply where
  | accepted
  | rejected (message : String)
  | lost

/-- What the environment answers. -/
inductive Reply where
  | ok (now : Int)
  | failed (message : String)
  | answered (r : CommandReply)

/-- The statement a cancellation stands at; `hub` is any other handler, and `cancel_job_locally`. -/
inductive Task where
  | call (p : Principal) (id : String)
  /-- The job is not resident. -/
  | stored (p : Principal) (id : String)
  | cancelQueued (p : Principal) (id : String)
  /-- `send_job_cancellation`. -/
  | session (c : CachedJob)
  | command (c : CachedJob)
  | hub (t : HubEvents.Task)

/-- The handler returns an error. -/
def Task.err (e : HubError) : Task := .hub (.err e)

def Task.ok : Task := .hub (.done (.ok ()))

/-- The refusals of a cancellation. -/
def notOwner : HubError :=
  .forbidden "role can only cancel jobs created by the same user"

def tooFar : HubError :=
  .conflict "job cannot be cancelled after output upload begins"

def advanced : HubError :=
  .conflict "job advanced while cancellation was being committed"

section Statements

variable (actorUserId : Key → Option String)

/-- `cancel_job_for_principal` after the look at the resident jobs.  A queued
    one is not with a worker yet. -/
def afterCall (p : Principal) (id : String) : Option CachedJob → Task
  | none => .stored p id
  | some c =>
    if !p.canCancel (actorUserId (c.organizationId, c.id)) then
      .err notOwner
    else if c.state.isTerminal ∨ c.state = .uploading then .err tooFar
    else if c.state = .queued then .hub (.cancel c.id)
    else .session c

/-- `cancel_job_for_principal` after the look at the row. -/
def afterStored (p : Principal) (id : String) : Option JobRow → Task
  | none => .err (.notFound "job")
  | some j =>
    if j.state = .queued then
      if !p.canCancel (actorUserId j.key) then .err notOwner
      else .cancelQueued p id
    else .err tooFar

/-- `send_job_cancellation` after the ack. -/
def afterCommand (c : CachedJob) : CommandReply → Task
  | .accepted => .ok
  | .rejected m => .err (.conflict (if m.isEmpty then "worker rejected cancellation" else m))
  | .lost => .hub (.cancel c.id)

/-- The resident job, when it is this organization's. -/
def residentOf (h : Hub) (o id : String) : Option CachedJob :=
  (h.jobs.find? id).filter fun c => decide (c.organizationId = o)

/-- One statement. -/
def taskStep (h : Hub) : Task → Reply → Option (Hub × Task)
  | .call p id, .ok _ => some (h, afterCall actorUserId p id (residentOf h p.organizationId id))
  | .stored p id, .ok _ => some (h, afterStored actorUserId p id
      (h.store.jobs.find? (p.organizationId, id)))
  | .stored _ _, .failed m => some (h, .err (.store (.database m)))
  | .cancelQueued p id, .ok now =>
    match cancelQueuedJob h.store (p.organizationId, id) now with
    | some s => some ({ h with store := s }, .ok)
    | none => some (h, .err advanced)
  | .cancelQueued _ _, .failed m => some (h, .err (.store (.database m)))
  | .session c, .ok _ => some (h,
      if (h.currentSessionId c.workerOrganizationId c.workerId).isSome then
        .command c
      else .hub (.cancel c.id))
  | .command c, .answered r => some (h, afterCommand c r)
  | .hub t, .ok now =>
    (HubEvents.taskStep h t (.ok now)).map fun r => (r.1, .hub r.2)
  | .hub t, .failed m =>
    (HubEvents.taskStep h t (.failed m)).map fun r => (r.1, .hub r.2)
  | _, _ => none

end Statements

/-! ## Whole runs -/

/-- The jobs that a transaction moves from `uploading` to `cancelled`. -/
def turnedBy (s s' : Store) : List Key :=
  (s.jobs.rows.filter fun j => decide (j.state = .uploading)
    && (s'.jobs.find? j.key).any fun j' => decide (j'.state = .cancelled)).map JobRow.key

/-- The Hub with its handlers, and the jobs that went from `uploading` to
    `cancelled` (a history variable). -/
structure World where
  hub : Pool Hub Task
  turned : List Key

/-- A handler begins or takes its next step, or sessions come and go. -/
inductive Act where
  | cancelJobForPrincipal (p : Principal) (id : String)
  | applyJobEvent (w : WorkerSession) (e : JobEvent)
  | rebindJob (w : WorkerSession) (id : String)
  | updateJobError (id message : String) (terminal : Bool)
  | setSessions (sessions : Table Key Session Session.key)
  | advance (i : Nat) (reply : Reply)

/-- One action. -/
def step (actorUserId : Key → Option String) (w : World) : Act → Option World
  | .cancelJobForPrincipal p id =>
    some { w with hub := w.hub.spawn (.call p id) }
  | .applyJobEvent s e => some { w with hub := w.hub.spawn (.hub (.lookup s e)) }
  | .rebindJob s id => some { w with hub := w.hub.spawn (.hub (.rebind s id)) }
  | .updateJobError id message terminal => some { w with
      hub := w.hub.spawn (.hub (.updateError id message terminal)) }
  | .setSessions sessions => some { w with
      hub := { w.hub with
        shared := { w.hub.shared with sessions := sessions } } }
  | .advance i reply =>
    (w.hub.advance (taskStep actorUserId) i reply).map fun hub =>
      ⟨hub, turnedBy w.hub.shared.store hub.shared.store ++ w.turned⟩

/-- Nobody is at work. -/
structure Start (w : World) : Prop where
  tasks : w.hub.tasks = []
  turned : w.turned = []

/-- `cancel_job_locally` looks at the resident job again and finds it uploading. -/
def ReadsUploading (w : World) : Act → Prop
  | .advance i (.ok _) => ∃ id c, w.hub.tasks[i]? = some (.hub (.cancel id))
      ∧ w.hub.shared.jobs.find? id = some c ∧ c.state = .uploading
  | _ => False

/-! ## Which rows a transaction may turn -/

/-- Not from `uploading` to `cancelled`. -/
def Steady (j j' : JobRow) : Prop :=
  j.state = .uploading → j'.state ≠ .cancelled

theorem steady_refl (j : JobRow) : Steady j j := by
  intro hup
  rw [hup]
  exact nofun

/-- The state stays, or it was not `uploading`. -/
theorem steady_of_ne {j j' : JobRow} (h : j.state ≠ .uploading) :
    Steady j j' := fun hup => absurd hup h

variable {s t : Store}

theorem steady_rebind {k : Key} {attempt : Nat} {expected sessionId : String}
    {now : Int}
    (hs : rebindJobSession s k attempt expected sessionId now = some t) :
    s.jobs.Related Steady t.jobs := by
  obtain ⟨jobs, hup, rfl⟩ := map_eq_some_iff.mp hs
  exact related_updateKey steady_refl hup fun j _ _ => steady_refl j

/-- After `uploading` the tables admit no cancellation. -/
theorem JobEventUpdate.ne_cancelled (u : JobEventUpdate)
    (h : u.expectedState = .uploading) : u.state ≠ .cancelled := by
  intro hstate
  have hallowed := u.allowed
  rw [h, hstate] at hallowed
  revert hallowed
  decide

theorem steady_event {e : EventRow} {u : JobEventUpdate} {now : Int}
    (hs : HubStore.applyJobEvent s e u now = .ok (t, true)) :
    s.jobs.Related Steady t.jobs := by
  refine related_updateKey steady_refl (applyJobEvent_rewrote hs).jobs fun j _ hexp => ?_
  have hwas := JobEventUpdate.state_of_expects hexp
  intro huploading
  exact JobEventUpdate.ne_cancelled u (hwas ▸ huploading)

theorem steady_cancelQueued {k : Key} {now : Int} (hs : cancelQueuedJob s k now = some t) :
    s.jobs.Related Steady t.jobs := by
  refine related_updateKey steady_refl (cancelQueuedJob_some hs).1.jobs fun j _ hqueued => ?_
  refine steady_of_ne ?_
  rw [of_decide_eq_true hqueued]
  exact nofun

/-- A settlement that does not cancel what it expects to be uploading. -/
def Spares (u : ConditionalJobUpdate) : Prop :=
  u.state = some .cancelled → u.expectedState ≠ .uploading

theorem steady_update {u : ConditionalJobUpdate} (hspares : Spares u)
    (hs : updateJobIfCurrent s u = some t) :
    s.jobs.Related Steady t.jobs := by
  refine related_updateKey steady_refl (updateJobIfCurrent_some hs).1.jobs fun j _ hexp => ?_
  rw [ConditionalJobUpdate.expects] at hexp
  simp only [Bool.and_eq_true, decide_eq_true_eq] at hexp
  intro huploading hcancelled
  change u.state.getD j.state = .cancelled at hcancelled
  cases hstate : u.state with rw [hstate] at hcancelled
  | none =>
    cases huploading.symm.trans hcancelled
  | some target =>
    refine hspares (hstate.trans (congrArg some hcancelled)) ?_
    rw [← hexp.1.2, huploading]

/-! ## What the handlers are about to settle -/

/-- A handler that is about to settle a job spares an uploading one. -/
def Spared : HubEvents.Task → Prop
  | .settle _ u _ => Spares u
  | _ => True

section Spared

variable {h h' : Hub} {t t' : HubEvents.Task}

theorem spared_of_eq {g : Hub} {u : HubEvents.Task}
    (hstep : some (g, u) = some (h', t')) (hu : Spared u) : Spared t' := by
  cases hstep
  exact hu

/-- `update_job_error` fails a job, or only writes the error. -/
theorem spared_afterError (message : String) (terminal : Bool) (now : Int)
    (found : Option CachedJob) :
    Spared (afterError message terminal now found) := by
  cases found with
  | none => trivial
  | some c =>
    rw [afterError]
    split
    · intro hcancelled
      cases terminal with
      | true | false => cases hcancelled
    · trivial

/-- `cancel_job_locally` on a job that is not uploading. -/
theorem spared_afterCancel {now : Int} {found : Option CachedJob}
    (hread : ∀ c, found = some c → c.state ≠ .uploading) :
    Spared (afterCancel now found) := by
  cases found with
  | none => trivial
  | some c =>
    rw [afterCancel]
    split
    · split
      · trivial
      · exact fun _ => hread c rfl
    · trivial

theorem spared_failed {m : String} (hstep : HubEvents.taskStep h t (.failed m) = some (h', t')) :
    Spared t' := by
  cases t with
  | settle c u cancelling =>
    cases hstep
    cases cancelling with
    | true | false => trivial
  | _ => first
    | exact spared_of_eq hstep trivial
    | cases hstep

theorem spared_ok {now : Int}
    (hread : ∀ id c, t = .cancel id → h.jobs.find? id = some c → c.state ≠ .uploading)
    (hstep : HubEvents.taskStep h t (.ok now) = some (h', t')) :
    Spared t' := by
  cases t with
  | updateError id message terminal =>
    exact spared_of_eq hstep (spared_afterError message terminal now _)
  | cancel id =>
    exact spared_of_eq hstep (spared_afterCancel fun c hc => hread id c rfl hc)
  | done result => cases hstep
  | _ =>
    -- no other statement is followed by a settlement
    simp only [HubEvents.taskStep, afterLookup, judge, unchanged, afterRow, afterOutbox,
      tooLate] at hstep
    repeat' split at hstep
    all_goals exact spared_of_eq hstep trivial

end Spared

/-! ## The invariant -/

/-- The same of any handler. -/
def Task.spared : Task → Prop
  | .hub t => Spared t
  | _ => True

/-- Nothing was turned, and no handler is about to. -/
structure Inv (w : World) : Prop where
  turned : w.turned = []
  tasks : ∀ t ∈ w.hub.tasks, t.spared

theorem inv_start {w : World} (h : Start w) : Inv w where
  turned := h.turned
  tasks := by
    intro t ht
    rw [h.tasks] at ht
    cases ht

theorem turnedBy_eq_nil (h : s.jobs.Related Steady t.jobs) : turnedBy s t = [] := by
  rw [turnedBy, List.map_eq_nil_iff, List.filter_eq_nil_iff]
  intro j hj hturned
  rw [Bool.and_eq_true, decide_eq_true_eq, any_eq_true] at hturned
  obtain ⟨hup, j', hj', hcancelled⟩ := hturned
  obtain ⟨j'', hj'', hsteady⟩ := h.forth j.key j (find?_of_mem hj)
  cases hj'.symm.trans hj''
  exact hsteady hup (of_decide_eq_true hcancelled)

/-- The transaction of a handler that spares. -/
theorem steady_writes {h h' : Hub} {t : HubEvents.Task} (hw : Writes h t h') (hspared : Spared t) :
    h.store.jobs.Related Steady h'.store.jobs := by
  cases hw with
  | rebound hs => exact steady_rebind hs
  | applied ht hs => exact steady_event hs
  | released k now =>
    show h.store.jobs.Related Steady (releaseJobForTerminal h.store k now).jobs
    rw [(releaseJobForTerminal_frame h.store k now).1]
    exact related_refl steady_refl _
  | cancelled ht hs => exact steady_cancelQueued hs
  | settled ht hs =>
    subst ht
    exact steady_update hspared hs
  | _ => exact related_refl steady_refl _

section Steps

variable {actorUserId : Key → Option String} {h h' : Hub} {t t' : Task}
  {reply : Reply}

theorem spared_afterCall (p : Principal) (id : String) (found : Option CachedJob) :
    (afterCall actorUserId p id found).spared := by
  rw [afterCall.eq_def]
  repeat' split
  all_goals trivial

theorem spared_afterStored (p : Principal) (id : String) (found : Option JobRow) :
    (afterStored actorUserId p id found).spared := by
  rw [afterStored.eq_def]
  repeat' split
  all_goals trivial

theorem spared_afterCommand (c : CachedJob) (r : CommandReply) : (afterCommand c r).spared := by
  cases r with
  | accepted | rejected m | lost => trivial

/-- What a statement leaves: no row turned, and no handler about to. -/
structure Leaves (h h' : Hub) (t' : Task) : Prop where
  steady : h.store.jobs.Related Steady h'.store.jobs
  spared : t'.spared

/-- A statement that only reads. -/
theorem leaves_of_read {u : Task} (hstep : some (h, u) = some (h', t'))
    (hu : u.spared) : Leaves h h' t' := by
  cases hstep
  exact ⟨related_refl steady_refl _, hu⟩

theorem leaves_hub {u : HubEvents.Task} {r : HubEvents.Reply} (hspared : Spared u)
    (hread : ∀ id c now, u = .cancel id → r = .ok now →
      h.jobs.find? id = some c → c.state ≠ .uploading)
    (hstep : (HubEvents.taskStep h u r).map (fun x => (x.1, Task.hub x.2))
      = some (h', t')) : Leaves h h' t' := by
  obtain ⟨⟨g, v⟩, hg, heq⟩ := map_eq_some_iff.mp hstep
  cases heq
  refine ⟨steady_writes (writes_taskStep hg) hspared, ?_⟩
  cases r with
  | ok now => exact spared_ok (fun id c hid hc => hread id c now hid rfl hc) hg
  | failed m => exact spared_failed hg

theorem leaves_taskStep (ht : t.spared)
    (hread : ∀ id c now, t = .hub (.cancel id) → reply = .ok now →
      h.jobs.find? id = some c → c.state ≠ .uploading)
    (hstep : taskStep actorUserId h t reply = some (h', t')) :
    Leaves h h' t' := by
  cases t with
  | call p id =>
    cases reply with
    | ok now => exact leaves_of_read hstep (spared_afterCall p id _)
    | _ => cases hstep
  | stored p id =>
    cases reply with
    | ok now => exact leaves_of_read hstep (spared_afterStored p id _)
    | failed m => exact leaves_of_read hstep trivial
    | answered r => cases hstep
  | cancelQueued p id =>
    cases reply with
    | ok now =>
      rw [taskStep] at hstep
      split at hstep
      · next s hs =>
        cases hstep
        exact ⟨steady_cancelQueued hs, trivial⟩
      · exact leaves_of_read hstep trivial
    | failed m => exact leaves_of_read hstep trivial
    | answered r => cases hstep
  | session c =>
    cases reply with
    | ok now =>
      refine leaves_of_read hstep ?_
      split
      · trivial
      · trivial
    | _ => cases hstep
  | command c =>
    cases reply with
    | answered r => exact leaves_of_read hstep (spared_afterCommand c r)
    | _ => cases hstep
  | hub u =>
    cases reply with
    | ok now =>
      refine leaves_hub ht (fun id c now' hu hr hc => ?_) hstep
      exact hread id c now (congrArg Task.hub hu) rfl hc
    | failed m =>
      refine leaves_hub ht (fun id c now' hu hr hc => ?_) hstep
      cases hr
    | answered r => cases hstep

end Steps

theorem inv_step {actorUserId : Key → Option String} {w w' : World}
    {act : Act} (hi : Inv w) (hread : ¬ ReadsUploading w act)
    (hstep : step actorUserId w act = some w') : Inv w' := by
  cases act with
  | setSessions sessions =>
    cases hstep
    exact ⟨hi.turned, hi.tasks⟩
  | advance i reply =>
    obtain ⟨hub, hadv, rfl⟩ := map_eq_some_iff.mp hstep
    obtain ⟨t, h', t', ht, htask, rfl⟩ := Pool.advance_eq_some hadv
    have hl := leaves_taskStep (hi.tasks t (List.mem_of_getElem? ht))
      (fun id c now hcancel hreply hc huploading => by
        subst hcancel hreply
        exact hread ⟨id, c, ht, hc, huploading⟩) htask
    refine ⟨?_, forall_tasks_set hi.tasks hl.spared⟩
    rw [turnedBy_eq_nil hl.steady, hi.turned]
    rfl
  | _ =>
    cases hstep
    exact ⟨hi.turned, forall_tasks_spawn hi.tasks trivial⟩

/-- **UPLOADING IS NOT CANCELLED**: along every run in which no local cancellation finds the
    resident job uploading, no job goes from `uploading` to `cancelled`. -/
theorem uploading_never_cancelled {actorUserId : Key → Option String}
    {w₀ : World} (h₀ : Start w₀) (acts : List Act)
    (hok : Admitted (step actorUserId) (fun w act => ¬ ReadsUploading w act) w₀ acts) :
    Along (step actorUserId) (fun w => w.turned = []) w₀ acts :=
  Along.mono (fun _ h => h.turned) acts w₀
    (inv_along_admitted (fun _ _ _ h hk hs => inv_step h hk hs) acts w₀ (inv_start h₀) hok)

/-- A job that runs on a connected worker. -/
def runningRow : JobRow :=
  { HubEvents.finishedRow "provider" with state := .running, lastEvent := 2 }

def runningHub (sessions : Table Key Session Session.key) : Hub where
  store := { sampleStore with jobs := Table.empty.put runningRow }
  jobs := Table.empty.put (HubEvents.ofRow runningRow)
  sessions := sessions

def sampleWorld (sessions : Table Key Session Session.key) : World :=
  ⟨⟨runningHub sessions, []⟩, []⟩

theorem sampleWorld_start (sessions : Table Key Session Session.key) :
    Start (sampleWorld sessions) := ⟨rfl, rfl⟩

/-- Somebody who may cancel every job of the organization. -/
def sampleCancel : Act :=
  .cancelJobForPrincipal ⟨"provider", none, true, true⟩ "job"

/-- The worker is not connected: the running job is cancelled here. -/
theorem disconnectedJob_cancelled :
    let acts := [sampleCancel, .advance 0 (.ok 10), .advance 0 (.ok 10),
      .advance 0 (.ok 11), .advance 0 (.ok 11), .advance 0 (.ok 12)]
    ((run (step fun _ => none) (sampleWorld empty) acts).bind fun w =>
        w.hub.shared.store.jobs.find? ("provider", "job")).map JobRow.state
        = some .cancelled
      ∧ Along (step fun _ => none) (fun w => w.turned = []) (sampleWorld empty) acts := by
  have hcall : ∀ (w : World) (i : Nat) (now : Int) (t : Task),
      w.hub.tasks[i]? = some t → (∀ id, t ≠ .hub (.cancel id)) →
      ¬ ReadsUploading w (.advance i (.ok now)) := by
    rintro w i now t ht hne ⟨id, c, hcancel, -⟩
    exact hne id (some.inj (ht.symm.trans hcancel))
  refine ⟨rfl, uploading_never_cancelled (sampleWorld_start _) _ ?_⟩
  refine .cons id rfl (.cons (hcall _ 0 10 _ rfl nofun) rfl
    (.cons (hcall _ 0 10 _ rfl nofun) rfl (.cons ?_ rfl (.cons (hcall _ 0 11 _ rfl nofun) rfl
        (.cons (hcall _ 0 12 _ rfl nofun) rfl trivial)))))
  -- the look of the local cancellation finds the job running
  rintro ⟨id, c, hcancel, hc, huploading⟩
  cases hcancel
  cases hc
  cases huploading

/-- The worker reports that it uploads while the cancellation waits for its answer. -/
def sampleUploading : Act :=
  .applyJobEvent ⟨"provider", "default/gpu", "session"⟩ ⟨"job", 1, 3, .uploading, none, none, "", 8⟩

/-- The answer never comes: the local cancellation finds the job uploading and cancels it. -/
theorem uploadingJob_cancelled :
    let acts := [sampleCancel, .advance 0 (.ok 10), .advance 0 (.ok 10),
      sampleUploading, .advance 1 (.ok 11), .advance 1 (.ok 11),
      .advance 1 (.ok 11), .advance 1 (.ok 11), .advance 1 (.ok 11),
      .advance 0 (.answered .lost), .advance 0 (.ok 20), .advance 0 (.ok 20)]
    let sessions := empty.put ⟨"provider", "default/gpu", "session"⟩
    (run (step fun _ => none) (sampleWorld sessions) acts).map World.turned
        = some [("provider", "job")]
      ∧ ¬ Along (step fun _ => none) (fun w => w.turned = []) (sampleWorld sessions) acts := by
  intro acts sessions
  refine ⟨rfl, fun halong => ?_⟩
  cases Along.last halong rfl

end Cancel
