import NagisaLake.CancelProofs

/-! # Cancelling a batch — a loop that stops at the first refusal

`cancel_batch` reads the children in the order of `batch_index`, passes
over the finished ones and calls the cancellation of a single job for each
of the others.  The first error ends the loop, and some errors are normal
states of a batch that has begun to run: a child that uploads, one that a
worker does not want to cancel.  The children behind it stay as they are,
queued ones included.

The cancellation of one job is written here as a function: what its
statements do with nobody else at work (`statements_of_cancel`). -/

namespace BatchCancel

open Jobs KeyedTable HubStore Cancel Table List Option
open HubEvents (Hub CachedJob settlement)
open Uploads (HubError)

/-! ## One job -/

/-- What the rows of the model leave out: who created a job or a batch, and
    the place of a child in its batch. -/
structure Columns where
  actorUserId : Key → Option String
  batchActorUserId : Key → Option String
  batchIndex : Key → Int

/-- The store cancels the job and it leaves the memory, or it has advanced. -/
def settled (h : Hub) (c : CachedJob) : Option Store → Hub × Except HubError Unit
  | some s => ({ h with
      store := s
      jobs := h.jobs.delete fun x => x.id = c.id }, .ok ())
  | none => (h, .error advanced)

/-- `cancel_job_locally`. -/
def cancelJobLocally (now : Int) (h : Hub) (id : String) : Hub × Except HubError Unit :=
  match h.jobs.find? id with
  | none => (h, .error (.conflict "job changed while cancellation was pending"))
  | some c =>
    if hlive : c.state.isTerminal = false then
      settled h c (if c.state = .queued
        then cancelQueuedJob h.store (c.organizationId, c.id) now
        else updateJobIfCurrent h.store (settlement c hlive (some .cancelled)
          "cancelled while the worker was disconnected" now
          HubEvents.isTerminal_of_cancelled))
    else (h, .ok ())

/-- `send_job_cancellation`; `reply` is how a command to the worker of a job ends. -/
def sendJobCancellation (now : Int) (reply : String → CommandReply) (h : Hub)
    (c : CachedJob) : Hub × Except HubError Unit :=
  if c.state = .queued then cancelJobLocally now h c.id
  else if (h.currentSessionId c.workerOrganizationId c.workerId).isSome then
    match reply c.id with
    -- the worker's `Cancelled` event will end the job
    | .accepted => (h, .ok ())
    | .rejected m => (h, .error (.conflict
        (if m.isEmpty then "worker rejected cancellation" else m)))
    -- the connection went away with the command
    | .lost => cancelJobLocally now h c.id
  else cancelJobLocally now h c.id

/-- `cancel_job_for_principal`. -/
def cancelJobForPrincipal (cols : Columns) (now : Int)
    (reply : String → CommandReply) (p : Principal) (h : Hub) (id : String) :
    Hub × Except HubError Unit :=
  match residentOf h p.organizationId id with
  | some c =>
    if !p.canCancel (cols.actorUserId (c.organizationId, c.id)) then
      (h, .error notOwner)
    else if c.state.isTerminal ∨ c.state = .uploading then (h, .error tooFar)
    else sendJobCancellation now reply h c
  | none =>
    match h.store.jobs.find? (p.organizationId, id) with
    | none => (h, .error (.notFound "job"))
    | some j =>
      if j.state = .queued then
        if !p.canCancel (cols.actorUserId j.key) then (h, .error notOwner)
        else match cancelQueuedJob h.store (p.organizationId, id) now with
          | some s => ({ h with store := s }, .ok ())
          | none => (h, .error advanced)
      else (h, .error tooFar)

/-- The statements of a cancellation from one of them to the end: every call goes through, the
    worker answers the command, and nobody else is at work. -/
inductive Statements (cols : Columns) (now : Int) (reply : String → CommandReply) :
    Hub → Task → Hub × Except HubError Unit → Prop where
  | done (h : Hub) (r : Except HubError Unit) : Statements cols now reply h (.hub (.done r)) (h, r)
  | call {h h' : Hub} {t t' : Task} {x : Hub × Except HubError Unit}
      (hstep : taskStep cols.actorUserId h t (.ok now) = some (h', t'))
      (hrest : Statements cols now reply h' t' x) : Statements cols now reply h t x
  | command {h h' : Hub} {c : CachedJob} {t' : Task} {x : Hub × Except HubError Unit}
      (hstep : taskStep cols.actorUserId h (.command c) (.answered (reply c.id)) = some (h', t'))
      (hrest : Statements cols now reply h' t' x) : Statements cols now reply h (.command c) x

section Statements

variable {cols : Columns} {now : Int} {reply : String → CommandReply}

theorem statements_settled {h : Hub} {c : CachedJob} {t : HubEvents.Task} {found : Option Store}
    {error : Option String} {at' : Int} (hfind : h.jobs.find? c.id = some c)
    (hstep : HubEvents.taskStep h t (.ok now) = match found with
      | some s => some ({ h with store := s }, .settleMerge c (some .cancelled) error at' true)
      | none => some (h, .err advanced)) :
    Statements cols now reply h (.hub t) (settled h c found) := by
  cases found with
  | none => exact .call (by rw [taskStep, hstep]; rfl) (.done h _)
  | some s =>
    -- the memory still has the copy that was settled
    have hmatch : (h.jobs.find? c.id).filter c.matches = some c := by
      rw [hfind]
      simp [HubEvents.CachedJob.matches]
    refine .call (by rw [taskStep, hstep]; rfl) (.call ?_ (.done _ _))
    rw [taskStep, HubEvents.taskStep, HubEvents.mergeSettlement, hmatch]
    rfl

theorem statements_locally (h : Hub) (id : String) :
    Statements cols now reply h (.hub (.cancel id)) (cancelJobLocally now h id) := by
  refine .call rfl ?_
  rw [cancelJobLocally]
  cases hfind : h.jobs.find? id with
  | none => exact .done h _
  | some c =>
    rw [← show c.id = id from key_of_find? hfind] at hfind
    show Statements cols now reply h (.hub (if hlive : _ then _ else _))
      (if hlive : _ then _ else _)
    split
    · split
      · exact statements_settled hfind rfl
      · exact statements_settled hfind rfl
    · exact .done h _

/-- **ONE CANCELLATION**: with nobody else at work its statements compute the function. -/
theorem statements_of_cancel (p : Principal) (h : Hub) (id : String) :
    Statements cols now reply h (.call p id) (cancelJobForPrincipal cols now reply p h id) := by
  refine .call rfl ?_
  rw [cancelJobForPrincipal]
  cases residentOf h p.organizationId id with
  | none =>
    refine .call rfl ?_
    cases h.store.jobs.find? (p.organizationId, id) with
    | none => exact .done h _
    | some j =>
      rw [afterStored]
      show Statements cols now reply h _ (if _ then _ else _)
      split
      · split
        · exact .done h _
        · cases hs : cancelQueuedJob h.store (p.organizationId, id) now with
          | none => exact .call (by rw [taskStep, hs]; rfl) (.done h _)
          | some s => exact .call (by rw [taskStep, hs]; rfl) (.done _ _)
      · exact .done h _
  | some c =>
    rw [afterCall]
    show Statements cols now reply h _ (if _ then _ else _)
    split
    · exact .done h _
    split
    · exact .done h _
    rw [sendJobCancellation]
    split
    · exact statements_locally h c.id
    refine .call rfl ?_
    split
    · refine .command rfl ?_
      cases reply c.id with
      | accepted | rejected m => exact .done h _
      | lost => exact statements_locally h c.id
    · exact statements_locally h c.id

end Statements

/-! ## The batch -/

/-- `BATCH_PAGE_MAX`. -/
def batchPageMax : Nat := 100

/-- The job is a child of the batch. -/
def childOf (o b : String) (j : JobRow) : Bool :=
  decide (j.organizationId = o) && decide (j.batchId = some b)

/-- `ORDER BY batch_index`. -/
def sooner (cols : Columns) (i j : JobRow) : Prop :=
  cols.batchIndex i.key ≤ cols.batchIndex j.key

instance (cols : Columns) : DecidableRel (sooner cols) :=
  fun i j => inferInstanceAs (Decidable (cols.batchIndex i.key ≤ cols.batchIndex j.key))

/-- The children of a batch, in their order. -/
def children (cols : Columns) (s : Store) (o b : String) : List JobRow :=
  (s.jobs.rows.filter (childOf o b)).insertionSort (sooner cols)

/-- `batch_jobs_page` from the start. -/
def batchJobsPage (cols : Columns) (s : Store) (o b : String) (limit : Nat) : List JobRow :=
  (children cols s o b).take (max limit 1)

section Batch

variable (cols : Columns) (now : Int) (reply : String → CommandReply) (p : Principal)

/-- The loop of `cancel_batch`. -/
def cancelChildren : Hub → List JobRow → Hub × Except HubError Unit
  | h, [] => (h, .ok ())
  | h, j :: js =>
    if j.state.isTerminal then cancelChildren h js
    else match cancelJobForPrincipal cols now reply p h j.id with
      | (h', .ok ()) => cancelChildren h' js
      | (h', .error e) => (h', .error e)

/-- `cancel_batch`. -/
def cancelBatch (h : Hub) (b : String) : Hub × Except HubError Unit :=
  if !p.cancelOwn then
    (h, .error (.forbidden "missing permission jobs:cancel"))
  else if (h.store.batches.find? (p.organizationId, b)).isNone then
    (h, .error (.notFound "batch"))
  else if !p.canCancel (cols.batchActorUserId (p.organizationId, b)) then
    (h, .error (.forbidden "role can only cancel batches created by the same user"))
  else
    let jobs := batchJobsPage cols h.store p.organizationId b
      (batchPageMax + 1)
    if jobs.length ≤ batchPageMax then
      cancelChildren cols now reply p h jobs
    else (h, .error (.conflict "batch is too large to cancel atomically"))

end Batch

/-! ## Which children refuse -/

/-- The row has moved on since the resident copy was made. -/
def Stale (c : CachedJob) (j : JobRow) : Prop :=
  ¬ (j.attempt = c.attempt ∧ j.state = c.state ∧ j.lastEvent = clampI64 c.lastEvent)

/-- The resident copy of a child stands against its cancellation: it is finished or uploading; it is
    queued and the row is not; its worker is connected and rejects the command; or the job has to be
    cancelled here and the row has moved on. -/
def ResidentRefuses (reply : String → CommandReply) (h : Hub) (c : CachedJob) (j : JobRow) : Prop :=
  c.state.isTerminal = true ∨ c.state = .uploading ∨ (c.state = .queued ∧ j.state ≠ .queued)
    ∨ (c.state ≠ .queued ∧ Stale c j ∧ (h.currentSessionId c.workerOrganizationId c.workerId = none
        ∨ reply j.id = .lost))
    ∨ (c.state ≠ .queued ∧ (h.currentSessionId c.workerOrganizationId c.workerId).isSome = true
      ∧ ∃ m, reply j.id = .rejected m)

/-- The cancellation of an unfinished child ends with an error: its resident
    copy stands against it, or it is not resident and not queued. -/
def Refuses (reply : String → CommandReply) (h : Hub) (j : JobRow) : Prop :=
  j.state.isTerminal = false ∧ match residentOf h j.organizationId j.id with
      | some c => ResidentRefuses reply h c j
      | none => j.state ≠ .queued

/-- The resident copy of a child has left the queue its row still waits in. -/
def Ahead (h : Hub) (j : JobRow) : Prop :=
  j.state = .queued ∧ ∃ c, residentOf h j.organizationId j.id = some c ∧ c.state ≠ .queued

/-! ## What one cancellation does -/

/-- Only the job's row was written, and it does not wait any more. -/
structure Settles (k : Key) (s t : Store) : Prop where
  other : ∀ k', k' ≠ k → t.jobs.find? k' = s.jobs.find? k'
  row : ∀ j, t.jobs.find? k = some j → j.state ≠ .queued

variable {s : Store} {j : JobRow}

theorem settles_of_rewrote {t : Store} {k : Key} {p : JobRow → Bool} {f : JobRow → JobRow}
    {hf : ∀ j, (f j).key = j.key} (h : Rewrote s t k p f hf) (hne : ∀ j, (f j).state ≠ .queued) :
    Settles k s t := by
  obtain ⟨j, hj, -⟩ := updateKey_eq_some h.jobs
  have hfind := find?_updateKey h.jobs hj
  refine ⟨fun k' hk' => (hfind k').trans (if_neg hk'), fun j' hj' => ?_⟩
  rw [hfind, if_pos rfl] at hj'
  cases hj'
  exact hne j

theorem settles_cancelQueued {k : Key} (now : Int)
    (hj : s.jobs.find? k = some j) (hq : j.state = .queued) :
    ∃ t, cancelQueuedJob s k now = some t ∧ Settles k s t := by
  obtain ⟨jobs, hup⟩ := exists_updateKey (JobRow.cancelQueued now)
    (JobRow.cancelQueued_key now) hj (p := JobRow.queued) (decide_eq_true hq)
  obtain ⟨t, ht⟩ : ∃ t, cancelQueuedJob s k now = some t := by
    rw [cancelQueuedJob, hup]
    exact ⟨_, rfl⟩
  exact ⟨t, ht, settles_of_rewrote (cancelQueuedJob_some ht).1 fun _ => nofun⟩

theorem cancelQueuedJob_eq_none {k : Key} (now : Int)
    (hj : s.jobs.find? k = some j) (hq : j.state ≠ .queued) :
    cancelQueuedJob s k now = none := by
  cases hs : cancelQueuedJob s k now with
  | none => rfl
  | some t =>
    obtain ⟨jobs, hup, -⟩ := map_eq_some_iff.mp hs
    obtain ⟨i, hi, hqueued, -⟩ := updateKey_eq_some hup
    cases hi.symm.trans hj
    exact absurd (of_decide_eq_true hqueued) hq

theorem settles_update {u : ConditionalJobUpdate}
    (hj : s.jobs.find? u.key = some j) (hexp : u.expects j = true)
    (hu : u.state = some .cancelled) :
    ∃ t, updateJobIfCurrent s u = some t ∧ Settles u.key s t := by
  obtain ⟨jobs, hup⟩ := exists_updateKey u.write u.write_key hj hexp
  obtain ⟨t, ht⟩ : ∃ t, updateJobIfCurrent s u = some t := by
    rw [updateJobIfCurrent, hup]
    exact ⟨_, rfl⟩
  refine ⟨t, ht, settles_of_rewrote (updateJobIfCurrent_some ht).1 fun j => ?_⟩
  show u.state.getD j.state ≠ .queued
  rw [hu]
  exact nofun

theorem updateJobIfCurrent_eq_none {u : ConditionalJobUpdate}
    (hj : s.jobs.find? u.key = some j) (hexp : u.expects j = false) :
    updateJobIfCurrent s u = none := by
  cases hs : updateJobIfCurrent s u with
  | none => rfl
  | some t =>
    obtain ⟨jobs, hup, -⟩ := map_eq_some_iff.mp hs
    obtain ⟨i, hi, hexpects, -⟩ := updateKey_eq_some hup
    cases hi.symm.trans hj
    rw [hexp] at hexpects
    cases hexpects

/-- What a cancellation leaves of the other jobs, and how it ends. -/
structure Ends (reply : String → CommandReply) (h : Hub) (j : JobRow)
    (r : Hub × Except HubError Unit) : Prop where
  rows : ∀ k, k ≠ j.key → r.1.store.jobs.find? k = h.store.jobs.find? k
  memory : ∀ id, id ≠ j.id → r.1.jobs.find? id = h.jobs.find? id
  sessions : r.1.sessions = h.sessions
  result : (Refuses reply h j ∧ ∃ e, r = (h, .error e))
    ∨ (¬ Refuses reply h j ∧ r.2 = .ok () ∧ ((∀ j',
      r.1.store.jobs.find? j.key = some j' → j'.state ≠ .queued) ↔ ¬ Ahead h j))

section One

variable {reply : String → CommandReply} {h : Hub} {j : JobRow}
  {c : CachedJob} {now : Int}

theorem ends_refused {e : HubError} (hr : Refuses reply h j) : Ends reply h j (h, .error e) :=
  ⟨fun _ _ => rfl, fun _ _ => rfl, rfl, .inl ⟨hr, e, rfl⟩⟩

/-- The store has settled the job. -/
theorem ends_settled {jobs : Table String CachedJob CachedJob.id}
    (hr : ¬ Refuses reply h j) (hahead : ¬ Ahead h j)
    (hs : Settles j.key h.store s)
    (hjobs : ∀ id, id ≠ j.id → jobs.find? id = h.jobs.find? id) :
    Ends reply h j (⟨s, jobs, h.sessions⟩, .ok ()) :=
  ⟨hs.other, hjobs, rfl, .inr ⟨hr, rfl, iff_of_true hs.row hahead⟩⟩

/-- The settlement a local cancellation asks for fits the row unless the row has moved on. -/
theorem expects_settlement (hlive : c.state.isTerminal = false)
    {message : String} {target : Option JobState}
    {ht : ∀ t, target = some t → t.isTerminal = true} :
    (settlement c hlive target message now ht).expects j = true ↔ ¬ Stale c j := by
  rw [ConditionalJobUpdate.expects, Stale, not_not]
  simp only [Bool.and_eq_true, decide_eq_true_eq]
  exact and_assoc

theorem residentOf_eq_some {o id : String} (hres : residentOf h o id = some c) :
    h.jobs.find? id = some c ∧ c.organizationId = o := by
  obtain ⟨hfind, ho⟩ := filter_eq_some_iff.mp hres
  exact ⟨hfind, of_decide_eq_true ho⟩

theorem not_ahead (hres : residentOf h j.organizationId j.id = some c)
    (hq : c.state = .queued ∨ j.state ≠ .queued) : ¬ Ahead h j := by
  rintro ⟨hrow, c', hc', hne⟩
  cases hres.symm.trans hc'
  exact hq.elim hne fun hrow' => hrow' hrow

/-- A local cancellation, when it decides whether the child refuses. -/
theorem ends_locally (hj : h.store.jobs.find? j.key = some j)
    (hres : residentOf h j.organizationId j.id = some c)
    (hlive : c.state.isTerminal = false)
    (hrefuses : Refuses reply h j ↔ if c.state = .queued then j.state ≠ .queued else Stale c j) :
    Ends reply h j (cancelJobLocally now h c.id) := by
  obtain ⟨hc, ho⟩ := residentOf_eq_some hres
  have hid : c.id = j.id := key_of_find? hc
  have hkey : (c.organizationId, c.id) = j.key := Prod.ext ho hid
  rw [cancelJobLocally, hid, hc]
  show Ends reply h j (if hlive : _ then _ else _)
  rw [dif_pos hlive, hkey]
  by_cases hq : c.state = .queued
  · rw [if_pos hq] at hrefuses ⊢
    by_cases hrow : j.state = .queued
    · obtain ⟨s, hs, hset⟩ := settles_cancelQueued now hj hrow
      rw [hs]
      refine ends_settled (fun hr => hrefuses.mp hr hrow)
        (not_ahead hres (.inl hq)) hset fun id hne => ?_
      exact find?_delete_ne _ (hid ▸ hne)
    · rw [cancelQueuedJob_eq_none now hj hrow]
      exact ends_refused (hrefuses.mpr hrow)
  · rw [if_neg hq] at hrefuses ⊢
    have hrow : h.store.jobs.find? (c.organizationId, c.id) = some j := by
      rw [hkey]
      exact hj
    by_cases hstale : Stale c j
    · rw [updateJobIfCurrent_eq_none hrow (Bool.not_eq_true _ ▸
        fun hexp => (expects_settlement hlive).mp hexp hstale)]
      exact ends_refused (hrefuses.mpr hstale)
    obtain ⟨s, hs, hset⟩ := settles_update hrow ((expects_settlement hlive).mpr hstale) rfl
    rw [hs]
    -- the row is as the copy: it has left the queue too
    have hsame : j.state = c.state := (not_not.mp hstale).2.1
    refine ends_settled (fun hr => hstale (hrefuses.mp hr))
      (not_ahead hres (.inr (hsame ▸ hq))) (hkey ▸ hset) fun id hne => ?_
    exact find?_delete_ne _ (hid ▸ hne)

theorem refuses_resident (hlive : j.state.isTerminal = false)
    (hres : residentOf h j.organizationId j.id = some c) :
    Refuses reply h j ↔ ResidentRefuses reply h c j := by
  rw [Refuses, hres]
  exact and_iff_right hlive

theorem refuses_stored (hlive : j.state.isTerminal = false)
    (hres : residentOf h j.organizationId j.id = none) :
    Refuses reply h j ↔ j.state ≠ .queued := by
  rw [Refuses, hres]
  exact and_iff_right hlive

/-- A child that is cancelled here. -/
theorem residentRefuses_locally (hlive : c.state.isTerminal = false) (hup : c.state ≠ .uploading)
    (hhere : c.state = .queued ∨ h.currentSessionId c.workerOrganizationId c.workerId = none
      ∨ reply j.id = .lost) :
    ResidentRefuses reply h c j ↔ if c.state = .queued then j.state ≠ .queued else Stale c j := by
  by_cases hq : c.state = .queued
  · simp [ResidentRefuses, hq, JobState.isTerminal]
  rcases hhere with hq' | hnone | hlost
  · exact absurd hq' hq
  · simp [ResidentRefuses, hlive, hup, hq, hnone]
  · simp [ResidentRefuses, hlive, hup, hq, hlost]

/-- `send_job_cancellation`, when the resident copy is neither finished nor uploading. -/
theorem ends_send (hj : h.store.jobs.find? j.key = some j) (hlive : j.state.isTerminal = false)
    (hres : residentOf h j.organizationId j.id = some c)
    (hclive : c.state.isTerminal = false) (hup : c.state ≠ .uploading) :
    Ends reply h j (sendJobCancellation now reply h c) := by
  have hid : c.id = j.id := key_of_find? (residentOf_eq_some hres).1
  have hrefuses : Refuses reply h j ↔ ResidentRefuses reply h c j :=
    refuses_resident hlive hres
  have hhere : (c.state = .queued ∨ h.currentSessionId c.workerOrganizationId c.workerId = none
      ∨ reply j.id = .lost) → Ends reply h j (cancelJobLocally now h c.id) :=
    fun hh => ends_locally hj hres hclive (hrefuses.trans (residentRefuses_locally hclive hup hh))
  rw [sendJobCancellation]
  split
  · next hq => exact hhere (.inl hq)
  next hq =>
  split
  · next hsome =>
    rw [hid]
    cases hreply : reply j.id with
    | accepted =>
      -- the job runs on until the worker reports it cancelled
      refine ⟨fun _ _ => rfl, fun _ _ => rfl, rfl, .inr ⟨?_, rfl, ?_⟩⟩
      · rw [hrefuses]
        rintro (hterm | huploading | ⟨hq', -⟩ | ⟨-, -, hnone | hlost⟩
          | ⟨-, -, m, hrej⟩)
        · rw [hclive] at hterm
          cases hterm
        · exact hup huploading
        · exact hq hq'
        · rw [hnone] at hsome
          cases hsome
        · cases hreply.symm.trans hlost
        · cases hreply.symm.trans hrej
      · rw [hj]
        constructor
        · rintro hall ⟨hrow, -⟩
          exact hall j rfl hrow
        intro hahead j' hj' hrow
        cases hj'
        exact hahead ⟨hrow, c, hres, hq⟩
    | rejected m =>
      exact ends_refused (hrefuses.mpr (.inr (.inr (.inr (.inr ⟨hq, hsome, m, hreply⟩)))))
    | lost =>
      have hlocal := hhere (.inr (.inr hreply))
      rw [hid] at hlocal
      exact hlocal
  · next hnone =>
    rw [not_isSome_iff_eq_none] at hnone
    exact hhere (.inr (.inl hnone))

/-- **ONE CHILD**: the cancellation touches no other job; it ends with an
    error exactly when the child refuses, and otherwise the child does not
    wait any more, unless its copy was ahead of its row. -/
theorem ends_cancelJobForPrincipal {cols : Columns} {p : Principal}
    (hj : h.store.jobs.find? j.key = some j)
    (hlive : j.state.isTerminal = false)
    (hp : p.organizationId = j.organizationId)
    (hallowed : p.canCancel (cols.actorUserId j.key) = true) :
    Ends reply h j (cancelJobForPrincipal cols now reply p h j.id) := by
  rw [cancelJobForPrincipal, hp]
  cases hres : residentOf h j.organizationId j.id with
  | some c =>
    obtain ⟨hc, ho⟩ := residentOf_eq_some hres
    have hid : c.id = j.id := key_of_find? hc
    have hkey : (c.organizationId, c.id) = j.key := Prod.ext ho hid
    show Ends reply h j (if _ then _ else _)
    rw [hkey, hallowed, if_neg nofun]
    split
    · next hfar =>
      refine ends_refused ((refuses_resident hlive hres).mpr ?_)
      exact hfar.elim .inl fun hup => .inr (.inl hup)
    next hfar =>
    rw [not_or, Bool.not_eq_true] at hfar
    exact ends_send hj hlive hres hfar.1 hfar.2
  | none =>
    have hkey : (j.organizationId, j.id) = j.key := rfl
    rw [hkey, hj]
    show Ends reply h j (if _ then _ else _)
    have hrefuses : Refuses reply h j ↔ j.state ≠ .queued :=
      refuses_stored hlive hres
    split
    · next hq =>
      rw [hallowed, if_neg nofun]
      obtain ⟨s, hs, hset⟩ := settles_cancelQueued now hj hq
      rw [hs]
      refine ends_settled (fun hr => hrefuses.mp hr hq) ?_ hset fun _ _ => rfl
      rintro ⟨-, c, hc, -⟩
      cases hres.symm.trans hc
    · next hq => exact ends_refused (hrefuses.mpr hq)

end One

/-! ## The loop -/

/-- What the loop meets: rows as they were read, with distinct ids, of the
    principal's organization and within their permission. -/
structure Listed (cols : Columns) (p : Principal) (h : Hub)
    (js : List JobRow) : Prop where
  rows : ∀ j ∈ js, h.store.jobs.find? j.key = some j
  distinct : (js.map JobRow.id).Nodup
  organization : ∀ j ∈ js, p.organizationId = j.organizationId
  allowed : ∀ j ∈ js, p.canCancel (cols.actorUserId j.key) = true

section Loop

variable {cols : Columns} {now : Int} {reply : String → CommandReply}
  {p : Principal} {h h' : Hub} {j : JobRow} {js : List JobRow}

theorem Listed.tail (hl : Listed cols p h (j :: js)) : Listed cols p h js :=
  ⟨fun i hi => hl.rows i (mem_cons_of_mem j hi), (nodup_cons.mp hl.distinct).2,
    fun i hi => hl.organization i (mem_cons_of_mem j hi),
    fun i hi => hl.allowed i (mem_cons_of_mem j hi)⟩

variable {i : JobRow}

theorem Listed.id_ne (hl : Listed cols p h (j :: js)) (hi : i ∈ js) : i.id ≠ j.id := by
  intro hid
  refine (nodup_cons.mp hl.distinct).1 ?_
  rw [← hid]
  exact mem_map_of_mem hi

theorem key_ne_of_id_ne (hid : i.id ≠ j.id) : i.key ≠ j.key :=
  fun hkey => hid (congrArg Prod.snd hkey)

theorem residentOf_congr {o id : String} (hmem : h'.jobs.find? id = h.jobs.find? id) :
    residentOf h' o id = residentOf h o id := by
  rw [residentOf, residentOf, hmem]

/-- Refusing depends on the job's own copy and on the sessions. -/
theorem refuses_congr (hmem : h'.jobs.find? i.id = h.jobs.find? i.id)
    (hsessions : h'.sessions = h.sessions) :
    Refuses reply h' i ↔ Refuses reply h i := by
  have hcurrent : ∀ o w, h'.currentSessionId o w = h.currentSessionId o w := by
    intro o w
    rw [HubEvents.Hub.currentSessionId, hsessions, HubEvents.Hub.currentSessionId]
  rw [Refuses, Refuses, residentOf_congr hmem]
  cases residentOf h i.organizationId i.id with
  | none => exact Iff.rfl
  | some c => simp only [ResidentRefuses, hcurrent]

/-- The children behind the one that was cancelled. -/
theorem Listed.after {r : Hub × Except HubError Unit}
    (hl : Listed cols p h (j :: js)) (he : Ends reply h j r) :
    Listed cols p r.1 js where
  rows := by
    intro i hi
    rw [he.rows i.key (key_ne_of_id_ne (hl.id_ne hi))]
    exact hl.tail.rows i hi
  distinct := hl.tail.distinct
  organization := hl.tail.organization
  allowed := hl.tail.allowed

/-- The head of the list, when it is not finished. -/
theorem Listed.ends (hl : Listed cols p h (j :: js)) (hlive : j.state.isTerminal = false) :
    Ends reply h j (cancelJobForPrincipal cols now reply p h j.id) :=
  ends_cancelJobForPrincipal (hl.rows j mem_cons_self) hlive (hl.organization j mem_cons_self)
    (hl.allowed j mem_cons_self)

/-- A child that refuses does not wait in the queue, unless its copy is ahead. -/
theorem Refuses.ne_queued (hr : Refuses reply h j) (hahead : ¬ Ahead h j) : j.state ≠ .queued := by
  obtain ⟨-, hwhy⟩ := hr
  cases hres : residentOf h j.organizationId j.id with rw [hres] at hwhy
  | none =>
    exact hwhy
  | some c =>
    have hleft : c.state ≠ .queued → j.state ≠ .queued :=
      fun hne hrow => hahead ⟨hrow, c, hres, hne⟩
    rcases hwhy with hterm | hup | ⟨-, hne⟩ | ⟨hne, -⟩ | ⟨hne, -⟩
    · refine hleft fun hq => ?_
      rw [hq] at hterm
      cases hterm
    · exact hleft (hup ▸ nofun)
    · exact hne
    · exact hleft hne
    · exact hleft hne

/-- The loop writes the rows of its children only. -/
theorem cancelChildren_rows (hl : Listed cols p h js) {k : Key} (hk : ∀ j ∈ js, k ≠ j.key) :
    (cancelChildren cols now reply p h js).1.store.jobs.find? k = h.store.jobs.find? k := by
  induction js generalizing h with
  | nil => rfl
  | cons j js ih =>
    have hrest : ∀ i ∈ js, k ≠ i.key :=
      fun i hi => hk i (mem_cons_of_mem j hi)
    rw [cancelChildren]
    split
    · exact ih hl.tail hrest
    next hterm =>
    rw [Bool.not_eq_true] at hterm
    have he : Ends reply h j (cancelJobForPrincipal cols now reply p h j.id) := hl.ends hterm
    split
    · next h' heq =>
      rw [heq] at he
      exact (ih (hl.after he) hrest).trans (he.rows k (hk j mem_cons_self))
    · next h' e heq =>
      rw [heq] at he
      exact he.rows k (hk j mem_cons_self)

/-- No listed child waits in the queue. -/
def NoneQueued (s : Store) (js : List JobRow) : Prop :=
  ∀ j ∈ js, ∀ j', s.jobs.find? j.key = some j' → j'.state ≠ .queued

theorem noneQueued_cons : NoneQueued s (j :: js)
      ↔ (∀ j', s.jobs.find? j.key = some j' → j'.state ≠ .queued) ∧ NoneQueued s js :=
  forall_mem_cons

/-- No child that refuses stands before one that waits in the queue, and no
    child's copy is ahead of its row. -/
def Unobstructed (reply : String → CommandReply) (h : Hub) (js : List JobRow) : Prop :=
  (js.Pairwise fun d c => c.state = .queued → ¬ Refuses reply h d) ∧ ∀ j ∈ js, ¬ Ahead h j

theorem unobstructed_nil : Unobstructed reply h [] :=
  ⟨List.Pairwise.nil, fun _ hj => absurd hj not_mem_nil⟩

theorem unobstructed_cons : Unobstructed reply h (j :: js)
      ↔ ((∀ c ∈ js, c.state = .queued → ¬ Refuses reply h j) ∧ ¬ Ahead h j)
        ∧ Unobstructed reply h js := by
  rw [Unobstructed, pairwise_cons, forall_mem_cons]
  exact and_and_and_comm

theorem unobstructed_congr (hmem : ∀ i ∈ js, h'.jobs.find? i.id = h.jobs.find? i.id)
    (hsessions : h'.sessions = h.sessions) :
    Unobstructed reply h' js ↔ Unobstructed reply h js := by
  induction js with
  | nil => exact iff_of_true unobstructed_nil unobstructed_nil
  | cons j js ih =>
    have hj := hmem j mem_cons_self
    rw [unobstructed_cons, unobstructed_cons, ih fun i hi => hmem i (mem_cons_of_mem j hi),
      refuses_congr hj hsessions, Ahead, Ahead, residentOf_congr hj]

/-- Nothing was done: the children wait or not as before. -/
theorem noneQueued_unchanged (hl : Listed cols p h js) :
    NoneQueued h.store js ↔ ∀ j ∈ js, j.state ≠ .queued := by
  refine forall₂_congr fun j hj => ?_
  rw [hl.rows j hj]
  constructor
  · intro hall
    exact hall j rfl
  intro hne j' hj'
  cases hj'
  exact hne

theorem unobstructed_of_noneQueued (hnone : ∀ j ∈ js, j.state ≠ .queued) :
    Unobstructed reply h js := by
  constructor
  · refine List.Pairwise.imp_of_mem (R := fun _ _ => True) ?_
      (pairwise_of_forall fun _ _ => trivial)
    intro d c _ hc _ hq
    exact absurd hq (hnone c hc)
  · intro j hj hahead
    exact hnone j hj hahead.1

/-- The loop stops at a child: the ones behind it stay as they were. -/
theorem noneQueued_stopped (hl : Listed cols p h (j :: js)) (hr : Refuses reply h j) :
    NoneQueued h.store (j :: js) ↔ Unobstructed reply h (j :: js) := by
  rw [noneQueued_unchanged hl]
  constructor
  · exact unobstructed_of_noneQueued
  intro hun i hi
  obtain ⟨⟨hfirst, hahead⟩, -⟩ := unobstructed_cons.mp hun
  rcases mem_cons.mp hi with rfl | hi
  · exact hr.ne_queued hahead
  · exact fun hq => hfirst i hi hq hr

/-- The loop goes on behind a child that was cancelled. -/
theorem noneQueued_passed {r : Hub × Except HubError Unit}
    (hl : Listed cols p h (j :: js)) (he : Ends reply h j r)
    (hr : ¬ Refuses reply h j)
    (hrow : (∀ j', r.1.store.jobs.find? j.key = some j' → j'.state ≠ .queued) ↔ ¬ Ahead h j)
    (ih : NoneQueued (cancelChildren cols now reply p r.1 js).1.store js
      ↔ Unobstructed reply r.1 js) :
    NoneQueued (cancelChildren cols now reply p r.1 js).1.store (j :: js)
      ↔ Unobstructed reply h (j :: js) := by
  have hkept : (cancelChildren cols now reply p r.1 js).1.store.jobs.find?
      j.key = r.1.store.jobs.find? j.key :=
    cancelChildren_rows (hl.after he) fun i hi =>
      (key_ne_of_id_ne (hl.id_ne hi)).symm
  have hsame : Unobstructed reply r.1 js ↔ Unobstructed reply h js :=
    unobstructed_congr (fun i hi => he.memory i.id (hl.id_ne hi)) he.sessions
  rw [noneQueued_cons, hkept, ih, hsame, hrow, unobstructed_cons]
  refine and_congr_left fun _ => ?_
  exact ⟨fun hahead => ⟨fun _ _ _ => hr, hahead⟩, fun hhead => hhead.2⟩

/-- **THE LOOP**: it leaves no child in the queue if and only if no child that
    refuses stands before one in the queue and no copy is ahead of its row. -/
theorem noneQueued_cancelChildren (hl : Listed cols p h js) :
    NoneQueued (cancelChildren cols now reply p h js).1.store js ↔ Unobstructed reply h js := by
  induction js generalizing h with
  | nil =>
    refine iff_of_true ?_ unobstructed_nil
    intro j hj
    cases hj
  | cons j js ih =>
    rw [cancelChildren]
    split
    · next hterm =>
      -- a finished child is passed over
      have hdone : ¬ Refuses reply h j := by
        rintro ⟨hlive, -⟩
        rw [hterm] at hlive
        cases hlive
      have hne : j.state ≠ .queued := by
        intro hq
        rw [hq] at hterm
        cases hterm
      have hrow : (∀ j', h.store.jobs.find? j.key = some j' →
          j'.state ≠ .queued) ↔ ¬ Ahead h j := by
        refine iff_of_true (fun j' hj' => ?_) fun hahead => hne hahead.1
        rw [hl.rows j mem_cons_self] at hj'
        exact some.inj hj' ▸ hne
      exact noneQueued_passed (r := (h, .ok ())) hl ⟨fun _ _ => rfl, fun _ _ => rfl, rfl,
          .inr ⟨hdone, rfl, hrow⟩⟩ hdone hrow (ih hl.tail)
    · next hterm =>
      rw [Bool.not_eq_true] at hterm
      have he : Ends reply h j (cancelJobForPrincipal cols now reply p h j.id) := hl.ends hterm
      rcases he.result with ⟨hr, e, heq⟩ | ⟨hr, hok, hrow⟩
      · rw [heq]
        exact noneQueued_stopped hl hr
      have heq : cancelJobForPrincipal cols now reply p h j.id
          = ((cancelJobForPrincipal cols now reply p h j.id).1, .ok ()) := Prod.ext rfl hok
      rw [heq]
      exact noneQueued_passed hl he hr hrow (ih (hl.after he))

end Loop

/-! ## `cancel_batch` -/

/-- The batch is there and the principal may cancel it and all of its children. -/
structure MayCancel (cols : Columns) (p : Principal) (h : Hub) (b : String) :
    Prop where
  own : p.cancelOwn = true
  batch : (h.store.batches.find? (p.organizationId, b)).isSome = true
  allowed : p.canCancel (cols.batchActorUserId (p.organizationId, b)) = true
  jobs : ∀ j ∈ children cols h.store p.organizationId b, p.canCancel (cols.actorUserId j.key) = true

theorem mem_children {cols : Columns} {o b : String} :
    j ∈ children cols s o b ↔ j ∈ s.jobs.rows ∧ childOf o b j = true := by
  rw [children, mem_insertionSort, mem_filter]

theorem distinct_children (cols : Columns) (s : Store) (o b : String) :
    ((children cols s o b).map JobRow.id).Nodup := by
  have hperm := (perm_insertionSort (sooner cols) (s.jobs.rows.filter (childOf o b))).map JobRow.id
  refine hperm.nodup_iff.mpr (s.jobs.nodup_map_filter ?_)
  intro i j hi hj hid
  rw [childOf, Bool.and_eq_true, decide_eq_true_eq] at hi hj
  exact Prod.ext (hi.1.trans hj.1.symm) hid

theorem MayCancel.listed {cols : Columns} {p : Principal} {h : Hub}
    {b : String} (hm : MayCancel cols p h b) :
    Listed cols p h (children cols h.store p.organizationId b) where
  rows := by
    intro j hj
    exact find?_of_mem (mem_children.mp hj).1
  distinct := distinct_children cols h.store p.organizationId b
  organization := by
    intro j hj
    have hchild := (mem_children.mp hj).2
    rw [childOf, Bool.and_eq_true, decide_eq_true_eq] at hchild
    exact hchild.1.symm
  allowed := hm.jobs

/-- **CANCELLING A BATCH** leaves none of its children in the queue, whatever it returns, if and
    only if none was, or the batch fits on one page, no child that refuses stands before one in the
    queue and no child's resident copy is ahead of its row. -/
theorem cancelBatch_noneQueued_iff {cols : Columns} {p : Principal} {h : Hub}
    {b : String} (now : Int) (reply : String → CommandReply)
    (hm : MayCancel cols p h b) :
    NoneQueued (cancelBatch cols now reply p h b).1.store (children cols h.store p.organizationId b)
      ↔ (∀ j ∈ children cols h.store p.organizationId b, j.state ≠ .queued)
        ∨ ((children cols h.store p.organizationId b).length ≤ batchPageMax
          ∧ Unobstructed reply h (children cols h.store p.organizationId b)) := by
  have hsome : (h.store.batches.find? (p.organizationId, b)).isNone = false := by
    rw [isNone_eq_false_iff]
    exact hm.batch
  rw [cancelBatch, hm.own, hsome, hm.allowed, if_neg nofun, if_neg nofun,
    if_neg nofun, batchJobsPage]
  by_cases hpage : (children cols h.store p.organizationId b).length ≤ batchPageMax
  · -- the page is the whole batch
    have htake : (children cols h.store p.organizationId b).take (max (batchPageMax + 1) 1)
        = children cols h.store p.organizationId b :=
      take_of_length_le (by rw [batchPageMax] at *; omega)
    simp only [htake, if_pos hpage]
    rw [noneQueued_cancelChildren hm.listed]
    constructor
    · intro hun
      exact .inr ⟨hpage, hun⟩
    rintro (hnone | ⟨-, hun⟩)
    · exact unobstructed_of_noneQueued hnone
    · exact hun
  · have htake : ¬ ((children cols h.store p.organizationId b).take
        (max (batchPageMax + 1) 1)).length ≤ batchPageMax := by
      rw [length_take, batchPageMax] at *
      omega
    simp only [if_neg htake]
    rw [noneQueued_unchanged hm.listed]
    constructor
    · exact .inl
    rintro (hnone | ⟨hle, -⟩)
    · exact hnone
    · exact absurd hle hpage

/-- A child that waits in the queue. -/
def waitingRow (id : String) : JobRow :=
  { HubEvents.finishedRow "provider" with
    id := id
    workerId := none
    workerOrganizationId := none
    sessionId := none
    state := .queued
    lastEvent := 0
    batchId := some "batch" }

/-- A child that uploads. -/
def uploadingRow (id : String) : JobRow :=
  { HubEvents.finishedRow "provider" with
    id := id
    state := .uploading
    batchId := some "batch" }

/-- A batch of two jobs, the second one in the queue. -/
def sampleHub (first : JobRow) (jobs : Table String CachedJob CachedJob.id) : Hub where
  store := { sampleStore with
    jobs := (Table.empty.put first).put (waitingRow "second")
    batches := Table.empty.put ⟨"provider", "batch", "workflow", "1", .object [], none, none, 2⟩ }
  jobs := jobs
  sessions := Table.empty.put ⟨"provider", "default/gpu", "session"⟩

def sampleColumns : Columns where
  actorUserId := fun _ => none
  batchActorUserId := fun _ => none
  batchIndex := fun k => if k.2 = "second" then 1 else 0

/-- Somebody who may cancel every job of the organization. -/
def samplePrincipal : Principal := ⟨"provider", none, true, true⟩

theorem sampleHub_mayCancel (first : JobRow) (jobs : Table String CachedJob CachedJob.id) :
    MayCancel sampleColumns samplePrincipal (sampleHub first jobs) "batch" where
  own := rfl
  batch := rfl
  allowed := rfl
  jobs := fun _ _ => rfl

/-- Both children wait in the queue, and both are cancelled. -/
theorem waitingBatch_noneQueued : NoneQueued (cancelBatch sampleColumns 9 (fun _ => .accepted)
        samplePrincipal (sampleHub (waitingRow "first") Table.empty)
        "batch").1.store
      [waitingRow "first", waitingRow "second"] := by
  refine (cancelBatch_noneQueued_iff 9 (fun _ => .accepted)
    (sampleHub_mayCancel _ _)).mpr (.inr ⟨by decide, ?_, ?_⟩)
  · refine .cons (fun c _ _ hr => hr.2 rfl) (.cons ?_ .nil)
    intro c hc
    cases hc
  · rintro j - ⟨-, c, hc, -⟩
    cases hc

/-- The first child uploads: the cancellation ends with its refusal, and the
    second child stays in the queue. -/
theorem uploadingChild_stops_cancelBatch :
    let h := sampleHub (uploadingRow "first")
      (empty.put (HubEvents.ofRow (uploadingRow "first")))
    let r := cancelBatch sampleColumns 9 (fun _ => .accepted) samplePrincipal
      h "batch"
    r.2 = .error tooFar ∧ ¬ NoneQueued r.1.store
        (children sampleColumns h.store "provider" "batch") := by
  intro h r
  refine ⟨rfl, fun hnone => ?_⟩
  exact hnone (waitingRow "second") (by decide) _ rfl rfl

end BatchCancel
