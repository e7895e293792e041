import NagisaLake.CancelProofs
import NagisaLake.ResidentProofs

/-! # Refused cancellations — what the memory does not say about a job

`cancel_job_for_principal` refuses a job that is finished or uploading.
For a resident job it looks at the copy; for any other it looks at the row
and takes every state but `queued` for a finished one, since only
unfinished jobs are resident.

The first look is right: a state that is late stays late, and a copy is
never ahead of its row (`Backed`).  The second is not: a job the scheduler
has bound is resident only once the outbox consumer has cached it, and
until then its row is neither queued nor late.  `Careful` is the read that
does not find such a row, and it is the exact condition
(`refusals_truthful_iff`). -/

namespace Refusals

open Jobs KeyedTable Runs Pools HubStore History Table List HubEvents
open Uploads (HubError WorkerSession)
open Cancel (Principal tooFar residentOf afterCall afterStored afterCommand)

/-! ## The system -/

/-- Too late to cancel: uploading, or finished. -/
def late (s : JobState) : Bool := s.isTerminal || decide (s = .uploading)

/-- A handler; of a cancellation also what was asked for. -/
structure Call where
  asked : Option (Principal × String)
  task : Cancel.Task

/-- The Hub with its handlers. -/
abbrev World := Pool Hub Call

/-- The ids of the jobs a transaction inserts. -/
def mints : StoreOp → List String
  | .commitNewJob input _ _ => [input.id]
  | .commitNewBatch _ children _ _ _ _ => children.map BatchChildJob.jobId
  | _ => []

/-- No job has one of the ids. -/
def unused (s : Store) (ids : List String) : Bool :=
  ids.all fun id => !(s.jobs.rows.any fun j => decide (j.id = id))

/-- What the environment may answer; a worker rejects a cancellation with one text. -/
def plausibleReply : Cancel.Reply → Bool
  | .answered (.rejected m) => m == "job is unknown"
  | _ => true

/-- A handler begins or goes on, a transaction of the store is done, the Hub
    restarts, sessions come and go. -/
inductive Act where
  | cancelJobForPrincipal (p : Principal) (id : String)
  | applyJobEvent (w : WorkerSession) (e : JobEvent)
  | rebindJob (w : WorkerSession) (id : String)
  | updateJobError (id message : String) (terminal : Bool)
  | dispatchOutboxEntry (k : Key)
  | submitJob (input : JobUpsert) (idempotency : Option IdempotencyRow)
      (admission : Except StoreError Unit)
  /-- Any other transaction: the scheduler's, the reconciler's, a batch. -/
  | transact (op : StoreOp)
  | setSessions (sessions : Table Key Session Session.key)
  | restart
  | advance (i : Nat) (reply : Cancel.Reply)

/-- Another handler begins. -/
def spawnHub (w : World) (t : HubEvents.Task) : World :=
  w.spawn ⟨none, .hub t⟩

/-- `submit_job`: a job that is created goes to memory afterwards. -/
def submitJob (w : World) (input : JobUpsert) (idempotency : Option IdempotencyRow)
    (admission : Except StoreError Unit) : World :=
  match commitNewJob w.shared.store input idempotency admission with
  | .ok (s, .created) =>
    spawnHub { w with shared := { w.shared with store := s } } (.cacheNew (ofRow input.row))
  | _ => w

section System

variable (actorUserId : Key → Option String)

/-- One statement of a handler. -/
def callStep (h : Hub) (c : Call) (reply : Cancel.Reply) : Option (Hub × Call) :=
  (Cancel.taskStep actorUserId h c.task reply).map fun r =>
    (r.1, { c with task := r.2 })

/-- One action.  The ids of new jobs are drawn at random and are new. -/
def step (w : World) : Act → Option World
  | .cancelJobForPrincipal p id =>
    some (w.spawn ⟨some (p, id), .call p id⟩)
  | .applyJobEvent s e => some (spawnHub w (.lookup s e))
  | .rebindJob s id => some (spawnHub w (.rebind s id))
  | .updateJobError id message terminal =>
    some (spawnHub w (.updateError id message terminal))
  | .dispatchOutboxEntry k => some (spawnHub w (.outbox k))
  | .submitJob input idempotency admission =>
    if unused w.shared.store [input.id] then
      some (submitJob w input idempotency admission)
    else none
  | .transact op =>
    if unused w.shared.store (mints op) then
      some { w with shared :=
        { w.shared with store := perform w.shared.store op } }
    else none
  | .setSessions sessions =>
    some { w with shared := { w.shared with sessions := sessions } }
  -- the handlers are gone, the memory is read from the store
  | .restart => some ⟨⟨w.shared.store, hydrate w.shared.store, Table.empty⟩, []⟩
  | .advance i reply =>
    if plausibleReply reply then w.advance (callStep actorUserId) i reply
    else none

/-- A principal that may cancel the job is refused only when it is late. -/
def Truthful (w : World) : Prop :=
  ∀ c ∈ w.tasks, ∀ p id, c.asked = some (p, id) →
    p.canCancel (actorUserId (p.organizationId, id)) = true →
    c.task = Cancel.Task.err tooFar →
    ∃ j, w.shared.store.jobs.find? (p.organizationId, id) = some j ∧ late j.state = true

/-- A call that has not found the job in memory does not find it bound and not late in the store. -/
def Careful (w : World) : Act → Prop
  | .advance i (.ok _) => ∀ asked p id j, w.tasks[i]? = some ⟨asked, .stored p id⟩ →
      w.shared.store.jobs.find? (p.organizationId, id) = some j →
      p.canCancel (actorUserId (p.organizationId, id)) = true →
      j.state = .queued ∨ late j.state = true
  | _ => True

end System

/-- The Hub has just come up; ids of jobs are UUIDs, so they name one row. -/
structure Start (w : World) : Prop where
  tasks : w.tasks = []
  jobs : w.shared.jobs = hydrate w.shared.store
  ids : ∀ i ∈ w.shared.store.jobs.rows, ∀ j ∈ w.shared.store.jobs.rows, i.id = j.id → i.key = j.key

/-! ## What is late stays late -/

theorem late_of_advances {s t : JobState} (hs : late s = true)
    (h : advances s t = true) : late t = true := by
  revert hs h
  cases s <;> cases t <;> decide

/-- A row that is rewritten stays late. -/
theorem late_of_written {j j' : JobRow} (h : Written j j')
    (hlate : late j.state = true) : late j'.state = true := by
  cases h with
  | same | rebound session now hlive hbound => exact hlate
  | bound workerOrg worker session now hq | cancelled now hq =>
    rw [hq] at hlate
    cases hlate
  | settled u hexp =>
    show late (u.state.getD j.state) = true
    cases hstate : u.state with
    | none => exact hlate
    | some t =>
      rw [Option.getD_some, late, u.state_terminal t hstate]
      rfl
  | moved u e now hexp =>
    have hwas := JobEventUpdate.state_of_expects hexp
    refine late_of_advances (s := u.expectedState) (hwas ▸ hlate) ?_
    rw [advances, Bool.or_eq_true]
    exact u.allowed
  | givenUp cutoff now seen hstale => rfl

/-- An id names one row. -/
def Unique (s : Store) : Prop :=
  ∀ i ∈ s.jobs.rows, ∀ j ∈ s.jobs.rows, i.id = j.id → i.key = j.key

/-- The job of the id is late. -/
def Late (s : Store) (id : String) : Prop :=
  ∃ j ∈ s.jobs.rows, j.id = id ∧ late j.state = true

/-- No row is lost and none becomes early again; ids go on naming one row. -/
structure Grows (s t : Store) : Prop where
  rows : ∀ k j, s.jobs.find? k = some j →
    ∃ j', t.jobs.find? k = some j' ∧ (late j.state = true → late j'.state = true)
  unique : Unique s → Unique t

section Grows

variable {s t : Store}

theorem grows_of_related (h : s.jobs.Related Written t.jobs) : Grows s t where
  rows := by
    intro k j hj
    obtain ⟨j', hj', hwritten⟩ := h.forth k j hj
    exact ⟨j', hj', late_of_written hwritten⟩
  unique := by
    intro hs i hi j hj hid
    obtain ⟨i₀, hi₀, -⟩ := h.back i.key i (find?_of_mem hi)
    obtain ⟨j₀, hj₀, -⟩ := h.back j.key j (find?_of_mem hj)
    have hki := key_of_find? hi₀
    have hkj := key_of_find? hj₀
    rw [← hki, ← hkj]
    refine hs i₀ (mem_of_find? hi₀) j₀ (mem_of_find? hj₀) ?_
    exact (congrArg Prod.snd hki).trans (hid.trans (congrArg Prod.snd hkj).symm)

theorem grows_refl (s : Store) : Grows s s :=
  grows_of_related (related_refl Written.same _)

theorem grows_of_jobs (h : t.jobs = s.jobs) : Grows s t := by
  refine grows_of_related ?_
  rw [h]
  exact related_refl Written.same _

variable {j : JobRow}

theorem ne_of_unused {ids : List String} (h : unused s ids = true)
    (hj : j ∈ s.jobs.rows) : j.id ∉ ids := by
  intro hmem
  have hid := all_eq_true.mp h j.id hmem
  rw [Bool.not_eq_true', any_eq_false] at hid
  exact hid j hj (decide_eq_true rfl)

/-- New jobs of one organization with new ids. -/
theorem grows_of_adds {ids : List String} {o : String} (hfresh : unused s ids = true)
    (h : Adds (fun j => j.id ∈ ids ∧ j.organizationId = o) s.jobs t.jobs) :
    Grows s t where
  rows := fun k j hj => ⟨j, h.old k j hj, id⟩
  unique := by
    intro hs i hi j hj hid
    rcases h.new i.key i (find?_of_mem hi) with hold | ⟨-, hnew, ho⟩
    · have hmem := mem_of_find? hold
      rcases h.new j.key j (find?_of_mem hj) with hold' | ⟨-, hnew', -⟩
      · exact hs i hmem j (mem_of_find? hold') hid
      · exact absurd (hid ▸ hnew') (ne_of_unused hfresh hmem)
    · rcases h.new j.key j (find?_of_mem hj) with hold' | ⟨-, -, ho'⟩
      · have hmem := mem_of_find? hold'
        exact absurd (hid ▸ hnew) (ne_of_unused hfresh hmem)
      · exact Prod.ext (ho.trans ho'.symm) hid

theorem adds_newJob {input : JobUpsert} {idem : Option IdempotencyRow}
    {adm : Except StoreError Unit} {r : CommitResult}
    (hok : commitNewJob s input idem adm = .ok (t, r)) :
    Adds (fun j => j.id ∈ [input.id] ∧ j.organizationId = input.organizationId) s.jobs t.jobs := by
  rcases commitNewJob_ok hok with ⟨rfl, -⟩ | ⟨-, hnew⟩
  · exact adds_refl _
  · exact adds_insert hnew.jobs ⟨mem_singleton_self _, rfl⟩

/-- Every transaction, as long as the ids it brings are new. -/
theorem grows_perform {op : StoreOp} (h : unused s (mints op) = true) : Grows s (perform s op) := by
  cases hop : inserts op with
  | false => exact grows_of_related (related_perform s hop)
  | true =>
    cases op with
    | commitNewJob input idem adm =>
      exact Transactions.inv_commit (I := Grows s) (grows_refl s)
        fun t r hok => grows_of_adds h (adds_newJob hok)
    | commitNewBatch batch children shared idem adm now =>
      refine Transactions.inv_commit (I := Grows s) (grows_refl s) fun t r hok => ?_
      rcases commitNewBatch_ok hok with ⟨rfl, -⟩ | ⟨-, hnew⟩
      · exact grows_refl _
      refine grows_of_adds (o := batch.organizationId) h
        ((adds_insertChildren hnew.children).mono ?_)
      rintro j ⟨c, hc, rfl⟩
      exact ⟨mem_map_of_mem hc, rfl⟩
    | _ => cases hop

/-- A statement of a handler. -/
theorem grows_writes {h h' : Hub} {u : HubEvents.Task} (hw : Writes h u h') :
    Grows h.store h'.store := by
  cases hw with
  | rebound hs => exact grows_of_related (related_rebind hs)
  | applied _ hs => exact grows_of_related (related_event hs)
  | released k now =>
    exact grows_of_jobs (releaseJobForTerminal_frame h.store k now).1
  | cancelled _ hs => exact grows_of_related (related_cancelQueued hs)
  | settled _ hs => exact grows_of_related (related_update hs)
  | _ => exact grows_refl _

theorem Late.grows {id : String} (h : Late s id) (hg : Grows s t) : Late t id := by
  obtain ⟨j, hj, hid, hlate⟩ := h
  obtain ⟨j', hj', hstays⟩ := hg.rows j.key j (find?_of_mem hj)
  refine ⟨j', mem_of_find? hj', ?_, hstays hlate⟩
  exact (congrArg Prod.snd (key_of_find? hj')).trans hid

theorem late_of_find? {k : Key} (hj : s.jobs.find? k = some j)
    (hlate : late j.state = true) : Late s k.2 := by
  refine ⟨j, mem_of_find? hj, ?_, hlate⟩
  exact congrArg Prod.snd (key_of_find? hj)

/-- The row of a job whose id is late. -/
theorem Late.row {id : String} (h : Late s id) (hunique : Unique s)
    {o : String} (hj : s.jobs.find? (o, id) = some j) :
    late j.state = true := by
  obtain ⟨i, hi, hid, hlate⟩ := h
  have hkey := key_of_find? hj
  have hsame := hunique i hi j (mem_of_find? hj) (hid.trans (congrArg Prod.snd hkey).symm)
  have hfind := find?_of_mem hi
  rw [hsame, hkey, hj] at hfind
  exact Option.some.inj hfind ▸ hlate

end Grows

/-! ## Copies are not ahead of their rows -/

/-- The job has a row, and the copy is late only when it is. -/
structure Backed (s : Store) (c : CachedJob) : Prop where
  row : ∃ j, s.jobs.find? (c.organizationId, c.id) = some j
  late : late c.state = true → Late s c.id

/-- What a handler is about to write to memory is backed too. -/
def Sound (s : Store) : HubEvents.Task → Prop
  | .session _ e c => c.id = e.jobId
  | .apply _ e c _ u => c.id = e.jobId ∧ u.state = nextState e.kind
  | .merge _ _ c updated => late updated.state = true → Late s c.id
  | .reconcileMerge _ e j => late j.state = true → Late s e.jobId
  | .cacheBound j => Backed s (ofRow j)
  | .cacheNew c => Backed s c
  | _ => True

/-- So is all there is in memory. -/
def Memory (h : Hub) : Prop := ∀ c ∈ h.jobs.rows, Backed h.store c

section Memory

variable {s t : Store} {h h' : Hub} {u u' : HubEvents.Task} {c : CachedJob}

/-- A copy of a row, when it is read. -/
theorem backed_ofRow {k : Key} {j : JobRow} (hj : s.jobs.find? k = some j) :
    Backed s (ofRow j) := by
  obtain rfl : j.key = k := key_of_find? hj
  exact ⟨⟨j, hj⟩, fun hlate => late_of_find? hj hlate⟩

theorem Backed.grows (hc : Backed s c) (hg : Grows s t) : Backed t c where
  row := by
    obtain ⟨j, hj⟩ := hc.row
    obtain ⟨j', hj', -⟩ := hg.rows _ j hj
    exact ⟨j', hj'⟩
  late := fun hlate => (hc.late hlate).grows hg

theorem Sound.grows (hu : Sound s u) (hg : Grows s t) : Sound t u := by
  cases u with
  | merge w e c updated | reconcileMerge w e j =>
    exact fun hlate => (hu hlate).grows hg
  | cacheBound j | cacheNew c => exact Backed.grows hu hg
  | session w e c | apply w e c fresh v => exact hu
  | _ => trivial

section

variable (hm : Memory h)
include hm

theorem Memory.grows (hg : Grows h.store t) : Memory { h with store := t } :=
  fun c hc => (hm c hc).grows hg

/-- What a statement writes. -/
theorem Memory.writes (hu : Sound h.store u) (hw : Writes h u h') : Memory h' := by
  have hg := grows_writes hw
  cases hw with
  | nothing => exact hm
  | evicted id => exact forall_delete hm
  | @rewritten id cur c hcur hkey hstate =>
    have hbacked := hm cur (mem_of_find? hcur)
    have hid : c.id = cur.id := congrArg Prod.snd hkey
    refine forall_put hm ⟨hkey ▸ hbacked.row, fun hlate => ?_⟩
    rcases hstate with hsame | hbrings
    · exact hid ▸ hbacked.late (hsame ▸ hlate)
    · rw [hid, key_of_find? hcur]
      cases u with
      | merge | reconcileMerge =>
        obtain ⟨rfl, hstate⟩ := Prod.mk.inj (Option.some.inj hbrings)
        exact hu (hstate ▸ hlate)
      | _ => cases hbrings
  | cached hc =>
    refine forall_put hm ?_
    rcases hc with rfl | ⟨j, rfl, rfl⟩
    all_goals exact hu
  | _ => exact hm.grows hg

end

theorem sound_of_quiet (hq : Residents.quiet u = true) : Sound s u := by
  cases u <;> first
    | exact trivial
    | cases hq

/-- The row of an event that has been applied. -/
theorem late_applied {w : WorkerSession} {e : JobEvent} {fresh : Bool}
    {v : JobEventUpdate} {now : Int}
    (hu : Sound h.store (.apply w e c fresh v))
    (hs : HubStore.applyJobEvent h.store (HubEvents.eventRow c e) v now = .ok (s, true)) :
    Sound s (.merge w e c (c.applied e fresh now)) := by
  intro hlate
  obtain ⟨hid, hstate⟩ := hu
  obtain ⟨j, hj, -, hjobs⟩ := updateKey_eq_some (applyJobEvent_rewrote hs).jobs
  have hrow := find?_updateKey (applyJobEvent_rewrote hs).jobs hj (eventRow c e).jobKey
  rw [if_pos rfl] at hrow
  rw [hid]
  refine late_of_find? (k := (eventRow c e).jobKey) hrow ?_
  show late v.state = true
  rw [hstate]
  exact hlate

/-- What the Hub makes of an event for a job it has. -/
theorem sound_judge (w : WorkerSession) (e : JobEvent) (hc : c.id = e.jobId) :
    Sound s (HubEvents.judge w e c) := by
  unfold judge unchanged
  repeat' split
  all_goals first
    | exact trivial
    | exact ⟨hc, rfl⟩

/-- What a handler does next. -/
theorem sound_next {now : Int} (hu : Sound h.store u)
    (hstep : HubEvents.taskStep h u (.ok now) = some (h', u')) : Sound h'.store u' := by
  cases u with
  | lookup w e =>
    cases hstep
    cases hc : h.jobs.find? e.jobId with
    | none => trivial
    | some c =>
      rw [afterLookup]
      split
      · exact key_of_find? hc
      · trivial
  | session w e c =>
    cases hstep
    split
    · exact sound_judge w e hu
    · trivial
  | reconcile w e miss =>
    cases hstep
    cases hj : h.store.jobs.find? (w.organizationId, e.jobId) with
    | none => trivial
    | some j =>
      simp only [afterRow]
      repeat' split
      all_goals first
        | exact trivial
        | exact fun hlate => late_of_find? hj hlate
  | outbox k =>
    cases hstep
    cases hj : h.store.jobs.find? k with
    | none => trivial
    | some j =>
      simp only [afterOutbox]
      split
      · exact backed_ofRow hj
      · trivial
  | apply w e c fresh v =>
    rw [taskStep] at hstep
    split at hstep <;> cases hstep
    · next hok => exact late_applied hu hok
    all_goals exact trivial
  | done result => cases hstep
  | _ =>
    -- the next statement writes nothing that has to be backed
    simp only [taskStep, afterError, afterCancel, tooLate] at hstep
    repeat' split at hstep
    all_goals
      cases hstep
      exact trivial

/-- **ONE STATEMENT** of a handler keeps the memory backed. -/
theorem memory_taskStep {reply : HubEvents.Reply} (hm : Memory h) (hu : Sound h.store u)
    (hstep : HubEvents.taskStep h u reply = some (h', u')) :
    Grows h.store h'.store ∧ Memory h' ∧ Sound h'.store u' := by
  have hw := writes_taskStep hstep
  refine ⟨grows_writes hw, hm.writes hu hw, ?_⟩
  cases reply with
  | failed m =>
    obtain ⟨rfl, -, hq⟩ := Residents.quiet_failed hstep
    exact sound_of_quiet hq
  | ok now => exact sound_next hu hstep

end Memory

/-! ## Cancellations -/

/-- The statements of `cancel_job_locally`. -/
def cancels : HubEvents.Task → Bool
  | .cancel _ | .cancelQueued _ | .settle _ _ _ | .settleMerge _ _ _ _ _
  | .done _ => true
  | _ => false

/-- They end with another error. -/
theorem cancels_taskStep {h h' : Hub} {u u' : HubEvents.Task}
    {reply : HubEvents.Reply} (hu : cancels u = true)
    (hstep : HubEvents.taskStep h u reply = some (h', u')) :
    cancels u' = true ∧ u' ≠ .done (.error tooFar) := by
  have htooLate : ∀ b (e : HubError), e ≠ tooFar → cancels (tooLate b e) = true
        ∧ tooLate b e ≠ .done (.error tooFar) := by
    intro b e he
    cases b with
    | true =>
      refine ⟨rfl, fun h => he ?_⟩
      exact Except.error.inj (HubEvents.Task.done.inj h)
    | false => exact ⟨rfl, by rintro ⟨⟩⟩
  cases u with
  | cancel id =>
    cases reply with
    | failed m => cases hstep
    | ok now =>
      cases hstep
      cases h.jobs.find? id with
      | none => exact ⟨rfl, by simp [afterCancel, HubEvents.Task.err, tooFar]⟩
      | some c =>
        rw [afterCancel]
        split
        · split
          all_goals exact ⟨rfl, by rintro ⟨⟩⟩
        · exact ⟨rfl, by rintro ⟨⟩⟩
  | cancelQueued c =>
    cases reply with
    | failed m =>
      cases hstep
      exact ⟨rfl, by rintro ⟨⟩⟩
    | ok now =>
      rw [taskStep] at hstep
      split at hstep
      · cases hstep
        exact ⟨rfl, by rintro ⟨⟩⟩
      · cases hstep
        exact ⟨rfl, by simp [HubEvents.Task.err, tooFar]⟩
  | settle c v cancelling =>
    cases reply with
    | failed m =>
      cases hstep
      exact htooLate _ _ (by rintro ⟨⟩)
    | ok now =>
      rw [taskStep] at hstep
      split at hstep
      · cases hstep
        exact ⟨rfl, by rintro ⟨⟩⟩
      · cases hstep
        exact htooLate _ _ (by simp [tooFar])
  | settleMerge c state error now' cancelling =>
    cases reply with
    | failed m => cases hstep
    | ok now =>
      cases hstep
      split
      · exact ⟨rfl, by rintro ⟨⟩⟩
      · exact htooLate _ _ (by simp [tooFar])
  | done result => cases hstep
  | _ => cases hu

section Calls

variable (actorUserId : Key → Option String)

/-- The row the call was about is late. -/
def LateRow (s : Store) (p : Principal) (id : String) : Prop :=
  ∃ j, s.jobs.find? (p.organizationId, id) = some j ∧ late j.state = true

/-- What holds of a cancellation, by the statement it is at. -/
def Asked (s : Store) (p : Principal) (id : String) : Cancel.Task → Prop
  | .call p' id' | .stored p' id' | .cancelQueued p' id' =>
    p' = p ∧ id' = id
  | .session _ | .command _ => True
  | .hub u => cancels u = true ∧ (u = .done (.error tooFar) →
      p.canCancel (actorUserId (p.organizationId, id)) = true →
      LateRow s p id)

/-- What holds of any handler. -/
structure CallInv (s : Store) (c : Call) : Prop where
  asked : ∀ p id, c.asked = some (p, id) → Asked actorUserId s p id c.task
  looks : ∀ p id, c.task = .call p id ∨ c.task = .stored p id → c.asked = some (p, id)
  sound : ∀ u, c.task = .hub u → Sound s u

/-- The memory is backed, the ids are unique, and so on for the handlers. -/
structure Inv (w : World) : Prop where
  unique : Unique w.shared.store
  memory : Memory w.shared
  calls : ∀ c ∈ w.tasks, CallInv actorUserId w.shared.store c

variable {actorUserId}

variable {s : Store} {p : Principal} {id : String} {c : Call} {w : World}
  {h : Hub}

variable {t : Store} {u : Cancel.Task}

theorem LateRow.grows (h : LateRow s p id) (hg : Grows s t) : LateRow t p id := by
  obtain ⟨j, hj, hlate⟩ := h
  obtain ⟨j', hj', hstays⟩ := hg.rows _ j hj
  exact ⟨j', hj', hstays hlate⟩

theorem Asked.grows (h : Asked actorUserId s p id u) (hg : Grows s t) :
    Asked actorUserId t p id u := by
  cases u with
  | hub u => exact ⟨h.1, fun hu hcan => (h.2 hu hcan).grows hg⟩
  | _ => exact h

theorem CallInv.grows (h : CallInv actorUserId s c) (hg : Grows s t) : CallInv actorUserId t c where
  asked := fun p id hc => (h.asked p id hc).grows hg
  looks := h.looks
  sound := fun u hu => (h.sound u hu).grows hg

theorem Inv.truthful (h : Inv actorUserId w) : Truthful actorUserId w := by
  intro c hc p id hasked hcan htask
  have h' := (h.calls c hc).asked p id hasked
  rw [htask] at h'
  exact h'.2 rfl hcan

/-- A handler without a question. -/
theorem callInv_hub {u : HubEvents.Task} (hu : Sound s u) :
    CallInv actorUserId s ⟨none, .hub u⟩ where
  asked := nofun
  looks := fun _ _ h => h.elim nofun nofun
  sound := by
    intro v hv
    obtain rfl := Cancel.Task.hub.inj hv
    exact hu

/-- A cancellation goes on with a statement of its own. -/
theorem callInv_asked (hasked : Asked actorUserId s p id u) (hsound : ∀ v, u = .hub v → Sound s v) :
    CallInv actorUserId s ⟨some (p, id), u⟩ where
  asked := by
    intro p' id' heq
    cases heq
    exact hasked
  looks := by
    rintro p' id' (rfl | rfl)
    all_goals
      obtain ⟨rfl, rfl⟩ := hasked
      rfl
  sound := hsound

/-- It returns an error that is not the refusal. -/
theorem asked_err {e : HubError} (he : e ≠ tooFar) : Asked actorUserId s p id (Cancel.Task.err e) :=
  ⟨rfl, fun h => absurd (Except.error.inj (HubEvents.Task.done.inj h)) he⟩

theorem sound_err (e : HubError) : ∀ v, Cancel.Task.err e = .hub v → Sound s v := by
  intro v hv
  obtain rfl := Cancel.Task.hub.inj hv
  trivial

/-- It refuses a job that is late. -/
theorem asked_tooFar (h : p.canCancel (actorUserId (p.organizationId, id)) = true →
      LateRow s p id) :
    Asked actorUserId s p id (Cancel.Task.err tooFar) :=
  ⟨rfl, fun _ => h⟩

/-- The first look: the copy is not ahead of the row. -/
theorem asked_afterCall (hm : Memory h) (hunique : Unique h.store) (p : Principal) (id : String) :
    CallInv actorUserId h.store ⟨some (p, id), afterCall actorUserId p id
      (residentOf h p.organizationId id)⟩ := by
  cases hfound : residentOf h p.organizationId id with
  | none => exact callInv_asked ⟨rfl, rfl⟩ fun v hv => by cases hv
  | some c =>
    obtain ⟨hc, horg⟩ := Option.filter_eq_some_iff.mp hfound
    have horg : c.organizationId = p.organizationId := of_decide_eq_true horg
    have hid : c.id = id := key_of_find? hc
    rw [afterCall]
    split
    · exact callInv_asked (asked_err (by rintro ⟨⟩)) (sound_err _)
    split
    · next hlate =>
      refine callInv_asked (asked_tooFar fun _ => ?_) (sound_err _)
      have hbacked := hm c (mem_of_find? hc)
      obtain ⟨j, hj⟩ := hbacked.row
      have hlate' : late c.state = true := by
        rw [late, Bool.or_eq_true, decide_eq_true_eq]
        exact hlate
      have hrow := (hbacked.late hlate').row hunique hj
      rw [horg, hid] at hj
      exact ⟨j, hj, hrow⟩
    · split
      · refine callInv_asked ⟨rfl, by rintro ⟨⟩⟩ fun v hv => ?_
        obtain rfl := Cancel.Task.hub.inj hv
        trivial
      · exact callInv_asked trivial fun v hv => by cases hv

/-- The second look, when it is careful. -/
theorem asked_afterStored (p : Principal) (id : String)
    (hcareful : ∀ j, s.jobs.find? (p.organizationId, id) = some j →
      p.canCancel (actorUserId (p.organizationId, id)) = true →
      j.state = .queued ∨ late j.state = true) :
    CallInv actorUserId s ⟨some (p, id), afterStored actorUserId p id
      (s.jobs.find? (p.organizationId, id))⟩ := by
  cases hj : s.jobs.find? (p.organizationId, id) with
  | none => exact callInv_asked (asked_err (by rintro ⟨⟩)) (sound_err _)
  | some j =>
    rw [afterStored]
    split
    · split
      · exact callInv_asked (asked_err (by rintro ⟨⟩)) (sound_err _)
      · exact callInv_asked ⟨rfl, rfl⟩ fun v hv => by cases hv
    next hqueued =>
    refine callInv_asked (asked_tooFar fun hcan => ?_) (sound_err _)
    exact ⟨j, hj, (hcareful j hj hcan).resolve_left hqueued⟩

/-- What a statement leaves. -/
structure Leaves (actor : Key → Option String) (h h' : Hub) (c' : Call) :
    Prop where
  grows : Grows h.store h'.store
  memory : Memory h'
  call : CallInv actor h'.store c'

/-- A statement of a cancellation that only reads. -/
theorem leaves_read {c' : Call} (hm : Memory h) (hc : CallInv actorUserId h.store c') :
    Leaves actorUserId h h c' :=
  ⟨grows_refl _, hm, hc⟩

/-- A statement that goes on with a task of `cancel_job_locally`, or ends. -/
theorem callInv_then {u : HubEvents.Task} (hcancels : cancels u = true)
    (hne : u ≠ .done (.error tooFar)) :
    CallInv actorUserId s { c with task := .hub u } where
  asked := fun _ _ _ => ⟨hcancels, fun h => absurd h hne⟩
  looks := fun _ _ h => h.elim nofun nofun
  sound := by
    intro v hv
    obtain rfl := Cancel.Task.hub.inj hv
    cases u <;> first
      | exact trivial
      | cases hcancels

theorem callInv_err {e : HubError} (he : e ≠ tooFar) :
    CallInv actorUserId s { c with task := Cancel.Task.err e } := by
  refine callInv_then (u := .err e) rfl fun h => he ?_
  exact Except.error.inj (HubEvents.Task.done.inj h)

theorem callInv_quiet (hu : (∃ x, u = .session x) ∨ ∃ x, u = .command x) :
    CallInv actorUserId s { c with task := u } := by
  rcases hu with ⟨x, rfl⟩ | ⟨x, rfl⟩
  all_goals exact ⟨fun _ _ _ => trivial, fun _ _ h => h.elim nofun nofun, fun v hv => by cases hv⟩

/-- One statement of any other handler, or of `cancel_job_locally`. -/
theorem leaves_hub {h' : Hub} {u u' : HubEvents.Task} {r : HubEvents.Reply}
    (hm : Memory h) (hc : CallInv actorUserId h.store c)
    (htask : c.task = .hub u)
    (hstep : HubEvents.taskStep h u r = some (h', u')) :
    Leaves actorUserId h h' { c with task := .hub u' } := by
  obtain ⟨hg, hm', hsound⟩ := memory_taskStep hm (hc.sound u htask) hstep
  refine ⟨hg, hm', ?_, fun _ _ h => h.elim nofun nofun, ?_⟩
  · intro p id hasked
    have hold := hc.asked p id hasked
    rw [htask] at hold
    obtain ⟨hcancels, hne⟩ := cancels_taskStep hold.1 hstep
    exact ⟨hcancels, fun h => absurd h hne⟩
  · intro v hv
    obtain rfl := Cancel.Task.hub.inj hv
    exact hsound

/-- **ONE STATEMENT** of any handler. -/
theorem leaves_callStep {h' : Hub} {c' : Call} {reply : Cancel.Reply}
    (hm : Memory h) (hunique : Unique h.store)
    (hc : CallInv actorUserId h.store c)
    (hreply : plausibleReply reply = true)
    (hcareful : ∀ p id j now, c.task = .stored p id → reply = .ok now →
      h.store.jobs.find? (p.organizationId, id) = some j →
      p.canCancel (actorUserId (p.organizationId, id)) = true →
      j.state = .queued ∨ late j.state = true)
    (hstep : callStep actorUserId h c reply = some (h', c')) :
    Leaves actorUserId h h' c' := by
  obtain ⟨⟨g, u'⟩, hg, heq⟩ := Option.map_eq_some_iff.mp hstep
  cases heq
  obtain ⟨asked, task⟩ := c
  cases task with
  | call p id =>
    obtain rfl : asked = some (p, id) := hc.looks p id (.inl rfl)
    cases reply with
    | ok now =>
      cases hg
      exact leaves_read hm (asked_afterCall hm hunique p id)
    | _ => cases hg
  | stored p id =>
    obtain rfl : asked = some (p, id) := hc.looks p id (.inr rfl)
    cases reply with
    | ok now =>
      cases hg
      exact leaves_read hm (asked_afterStored p id fun j hj hcan =>
        hcareful p id j now rfl rfl hj hcan)
    | failed m =>
      cases hg
      exact leaves_read hm (callInv_then rfl (by rintro ⟨⟩))
    | answered r => cases hg
  | cancelQueued p id =>
    cases reply with
    | ok now =>
      rw [Cancel.taskStep] at hg
      split at hg
      · next s hs =>
        cases hg
        have hgrows : Grows h.store s :=
          grows_of_related (related_cancelQueued hs)
        exact ⟨hgrows, hm.grows hgrows, callInv_then rfl (by rintro ⟨⟩)⟩
      · cases hg
        exact leaves_read hm (callInv_err (by simp [Cancel.advanced, tooFar]))
    | failed m =>
      cases hg
      exact leaves_read hm (callInv_then rfl (by rintro ⟨⟩))
    | answered r => cases hg
  | session x =>
    cases reply with
    | ok now =>
      cases hg
      refine leaves_read hm ?_
      split
      · exact callInv_quiet (.inr ⟨x, rfl⟩)
      · exact callInv_then rfl (by rintro ⟨⟩)
    | _ => cases hg
  | command x =>
    cases reply with
    | answered r =>
      cases hg
      refine leaves_read hm ?_
      cases r with
      | accepted | lost => exact callInv_then rfl (by rintro ⟨⟩)
      | rejected m =>
        obtain rfl : m = "job is unknown" := eq_of_beq hreply
        exact callInv_err (by simp [tooFar])
    | _ => cases hg
  | hub u =>
    cases reply with
    | ok now | failed m =>
      obtain ⟨⟨g', v⟩, hv, heq⟩ := Option.map_eq_some_iff.mp hg
      cases heq
      exact leaves_hub hm hc rfl hv
    | answered r => cases hg

/-! ## Whole runs -/

theorem Inv.spawn (h : Inv actorUserId w) (hc : CallInv actorUserId w.shared.store c) :
    Inv actorUserId (w.spawn c) :=
  ⟨h.unique, h.memory, forall_tasks_spawn h.calls hc⟩

theorem Inv.transact (h : Inv actorUserId w) (hg : Grows w.shared.store s) :
    Inv actorUserId { w with shared := { w.shared with store := s } } where
  unique := hg.unique h.unique
  memory := h.memory.grows hg
  calls := fun c hc => (h.calls c hc).grows hg

theorem Inv.submit (h : Inv actorUserId w) {input : JobUpsert}
    (hfresh : unused w.shared.store [input.id] = true)
    (idem : Option IdempotencyRow) (adm : Except StoreError Unit) :
    Inv actorUserId (submitJob w input idem adm) := by
  rw [submitJob]
  split
  · next s hok =>
    have hg := grows_of_adds hfresh (adds_newJob hok)
    refine (h.transact hg).spawn (callInv_hub ?_)
    refine backed_ofRow (k := input.row.key) ?_
    rw [find?_insert (commitNewJob_created hok).jobs, if_pos rfl]
  · exact h

/-- A Hub that has just come up. -/
theorem memory_hydrate (s : Store) (sessions : Table Key Session Session.key) :
    Memory ⟨s, hydrate s, sessions⟩ := by
  intro c hc
  rcases mem_foldl_put ofRow _ _ hc with hnone | ⟨j, hj, rfl⟩
  · cases hnone
  · have hmem := (mem_filter.mp hj).1
    exact backed_ofRow (find?_of_mem hmem)

theorem inv_start (h : Start w) : Inv actorUserId w where
  unique := h.ids
  memory := by
    have hm := memory_hydrate w.shared.store w.shared.sessions
    rw [← h.jobs] at hm
    exact hm
  calls := by
    intro c hc
    rw [h.tasks] at hc
    cases hc

/-- **EVERY CAREFUL ACTION** keeps the invariant. -/
theorem inv_step (w : World) (a : Act) (w' : World)
    (h : Inv actorUserId w) (ha : Careful actorUserId w a)
    (hstep : step actorUserId w a = some w') : Inv actorUserId w' := by
  cases a with
  | cancelJobForPrincipal p id =>
    cases hstep
    exact h.spawn (callInv_asked ⟨rfl, rfl⟩ fun v hv => by cases hv)
  | submitJob input idem adm =>
    obtain ⟨hfresh, rfl⟩ := of_guard hstep
    exact h.submit hfresh idem adm
  | transact op =>
    obtain ⟨hfresh, rfl⟩ := of_guard hstep
    exact h.transact (grows_perform hfresh)
  | setSessions sessions =>
    cases hstep
    exact ⟨h.unique, h.memory, h.calls⟩
  | restart =>
    cases hstep
    exact ⟨h.unique, memory_hydrate _ _, fun c hc => absurd hc not_mem_nil⟩
  | advance i reply =>
    rw [step] at hstep
    split at hstep
    · next hreply =>
      obtain ⟨c, g, c', hc, hcall, rfl⟩ := Pool.advance_eq_some hstep
      have hmem := mem_of_getElem? hc
      have hleaves := leaves_callStep h.memory h.unique (h.calls c hmem) hreply (by
          rintro p id j now htask rfl hj hcan
          obtain ⟨asked, task⟩ := c
          obtain rfl : task = .stored p id := htask
          exact ha asked p id j hc hj hcan) hcall
      refine ⟨hleaves.grows.unique h.unique, hleaves.memory, ?_⟩
      refine forall_tasks_set ?_ hleaves.call
      exact fun d hd => (h.calls d hd).grows hleaves.grows
    · cases hstep
  | _ =>
    cases hstep
    exact h.spawn (callInv_hub trivial)

/-- A careless read is answered with the refusal at once. -/
theorem not_truthful_of_careless {a : Act} (h : Inv actorUserId w)
    (ha : ¬ Careful actorUserId w a) :
    ∃ w', step actorUserId w a = some w' ∧ ¬ Truthful actorUserId w' := by
  cases a with
  | advance i reply =>
    cases reply with
    | ok now =>
      rw [Careful] at ha
      push Not at ha
      obtain ⟨asked, p, id, j, hi, hj, hcan, hqueued, hlate⟩ := ha
      obtain rfl : asked = some (p, id) :=
        (h.calls _ (mem_of_getElem? hi)).looks p id (.inr rfl)
      have hrefused : Cancel.taskStep actorUserId w.shared (.stored p id)
          (.ok now) = some (w.shared, Cancel.Task.err tooFar) := by
        rw [Cancel.taskStep, hj, afterStored, if_neg hqueued]
      refine ⟨⟨w.shared, w.tasks.set i
        ⟨some (p, id), Cancel.Task.err tooFar⟩⟩, ?_, fun htruth => ?_⟩
      · show w.advance (callStep actorUserId) i (.ok now) = _
        rw [Pool.advance, hi, Option.bind_some, callStep, hrefused]
        rfl
      obtain ⟨hlt, -⟩ := List.getElem?_eq_some_iff.mp hi
      obtain ⟨j', hj', hlate'⟩ := htruth _ (mem_set hlt _) p id rfl hcan rfl
      cases hj.symm.trans hj'
      exact hlate hlate'
    | _ => exact absurd trivial ha
  | _ => exact absurd trivial ha

end Calls

/-- **REFUSALS ARE TRUTHFUL** in a run if and only if no call that has missed
    the job in memory finds it bound and not late in the store. -/
theorem refusals_truthful_iff (actorUserId : Key → Option String) {w : World}
    (hstart : Start w) (as : List Act) :
    Along (step actorUserId) (Truthful actorUserId) w as
      ↔ Admitted (step actorUserId) (Careful actorUserId) w as :=
  along_iff_admitted (fun _ h => h.truthful) inv_step
    (fun _ _ h ha => not_truthful_of_careless h ha) as w (inv_start hstart)

/-- Any user may cancel their own jobs. -/
def samplePrincipal : Principal := ⟨"org", some "user", true, false⟩

def sampleActor (_ : Key) : Option String := some "user"

/-- An empty Hub. -/
def sampleHub : World := ⟨⟨sampleStore, hydrate sampleStore, Table.empty⟩, []⟩

theorem sampleHub_start : Start sampleHub where
  tasks := rfl
  jobs := rfl
  ids := fun _ hi => absurd hi not_mem_nil

/-- A batch of one job. -/
def sampleBatch : StoreOp :=
  .commitNewBatch ⟨"org", "b", "flow", "1", .object [], none, none, 1⟩
    [⟨"j", .object [], []⟩] [] none (.ok ()) 0

/-- A call that looks at the memory and then at the row. -/
def sampleCancel : List Act :=
  [.cancelJobForPrincipal samplePrincipal "j", .advance 0 (.ok 0), .advance 0 (.ok 0)]

/-- A job that still waits in the backlog is cancelled. -/
theorem waitingChild_not_refused : Admitted (step sampleActor) (Careful sampleActor) sampleHub
        (.transact sampleBatch :: sampleCancel)
      ∧ Along (step sampleActor) (Truthful sampleActor) sampleHub
        (.transact sampleBatch :: sampleCancel) := by
  have hcareful : Admitted (step sampleActor) (Careful sampleActor) sampleHub
      (.transact sampleBatch :: sampleCancel) := by
    refine .cons trivial rfl (.cons trivial rfl (.cons ?_ rfl (.cons ?_ rfl trivial)))
    · intro asked p id j htask
      cases htask
    intro asked p id j htask hj _
    obtain ⟨rfl, rfl⟩ : samplePrincipal = p ∧ "j" = id := by
      obtain ⟨-, ht⟩ := Call.mk.inj (Option.some.inj htask)
      exact Cancel.Task.stored.inj ht
    cases hj
    exact .inl rfl
  exact ⟨hcareful, (refusals_truthful_iff sampleActor sampleHub_start _).mpr hcareful⟩

/-- **A BOUND JOB IS REFUSED**: the scheduler has bound it, the outbox
    consumer has not cached it yet. -/
theorem boundChild_refused : ∃ w, run (step sampleActor) sampleHub (.transact sampleBatch
        :: .transact (.bindQueuedJob ("org", "j") "org" "w" "s" 1)
        :: sampleCancel) = some w
      ∧ w.tasks.map Call.task = [Cancel.Task.err tooFar]
      ∧ (w.shared.store.jobs.find? ("org", "j")).map JobRow.state = some .received
      ∧ ¬ Truthful sampleActor w := by
  refine ⟨_, rfl, rfl, rfl, fun htruth => ?_⟩
  obtain ⟨j, hj, hlate⟩ := htruth _ mem_cons_self samplePrincipal "j" rfl rfl rfl
  cases hj
  cases hlate

end Refusals
