import NagisaLake.RunProofs
import NagisaLake.StoreProofs

/-! # The backlog — queue membership against the state of the job

A batch child waits in `job_dispatch_queue` while it is `queued` and gets
its `dispatch_outbox` row when it is bound to a worker.  Binding and
cancelling touch the three tables in one transaction.  Two transactions
change `jobs.state` without a word about the queue: `Strands` says when
that hits a queued job.  Reconciliation is one of them: a queued job has no
worker, so no worker of it has been seen lately.

`backlog_iff` is exact: the backlog is consistent in every state of a run
if and only if no step of the run strands a queued job. -/

namespace Backlog

open Jobs KeyedTable Runs Transactions HubStore Table Option

/-- The store, with the jobs that left `queued` by binding and those that left
    it by cancellation (history variables). -/
structure World where
  store : Store
  bound : List Key
  cancelled : List Key

/-- The jobs a transaction binds. -/
def newlyBound (s : Store) : StoreOp → List Key
  | .bindQueuedJob k o w i now =>
    if (bindQueuedJob s k o w i now).isSome then [k] else []
  | _ => []

/-- The jobs a transaction cancels in the backlog. -/
def newlyCancelled (s : Store) : StoreOp → List Key
  | .cancelQueuedJob k now =>
    if (cancelQueuedJob s k now).isSome then [k] else []
  | _ => []

/-- One transaction. -/
def step (w : World) (op : StoreOp) : Option World :=
  some {
    store := perform w.store op
    bound := newlyBound w.store op ++ w.bound
    cancelled := newlyCancelled w.store op ++ w.cancelled }

/-- The outbox row belongs to the job. -/
def OutboxRow.of (k : Key) (o : OutboxRow) : Bool :=
  decide ((o.organizationId, o.jobId) = k)

/-- The backlog is consistent. -/
structure Consistent (w : World) : Prop where
  queue : ∀ k, (w.store.queue.find? k).isSome = true
    ↔ ∃ j, w.store.jobs.find? k = some j ∧ j.state = .queued
  bound : ∀ k ∈ w.bound, ∃ j, w.store.jobs.find? k = some j
    ∧ w.store.outbox.count (fun o => decide (o.key = (k, j.attempt))) = 1
  cancelled : ∀ k ∈ w.cancelled, w.store.outbox.count (OutboxRow.of k) = 0

/-- The step takes a queued job out of its state and leaves it in the queue. -/
def Strands (s : Store) : StoreOp → Prop
  | .reconcileActiveJobQuota now staleAfterMs _ =>
    ∃ k j, s.jobs.find? k = some j ∧ j.state = .queued
      ∧ j.updatedAt ≤ saturate (now - max staleAfterMs 1000)
  | .updateJobIfCurrent u => ∃ j, s.jobs.find? u.key = some j
      ∧ j.state = .queued ∧ u.expects j = true ∧ u.state.isSome = true
  | _ => False

/-- The invariant behind it. -/
structure BacklogInv (w : World) : Prop where
  queue : ∀ k, (w.store.queue.find? k).isSome = true
    ↔ ∃ j, w.store.jobs.find? k = some j ∧ j.state = .queued
  unbound : ∀ k j, w.store.jobs.find? k = some j → j.state = .queued →
    j.sessionId = none ∧ j.workerId = none
  outbox : ∀ o ∈ w.store.outbox.rows, ∃ j,
    w.store.jobs.find? (o.organizationId, o.jobId) = some j ∧ j.state ≠ .queued
  bound : ∀ k ∈ w.bound, ∃ j, w.store.jobs.find? k = some j ∧ j.state ≠ .queued
    ∧ (w.store.outbox.find? (k, j.attempt)).isSome = true
  cancelled : ∀ k ∈ w.cancelled, (∃ j, w.store.jobs.find? k = some j ∧ j.state ≠ .queued)
    ∧ ∀ o ∈ w.store.outbox.rows, (o.organizationId, o.jobId) ≠ k

/-- A primary key counts at most once. -/
theorem count_key_eq_one {outbox : Table (Key × Nat) OutboxRow OutboxRow.key}
    {k : Key × Nat} (h : (outbox.find? k).isSome = true) :
    outbox.count (fun o => decide (o.key = k)) = 1 := by
  obtain ⟨o, ho⟩ := Option.isSome_iff_exists.mp h
  exact count_key ho

variable {k : Key} {w : World} {t : Store} {now : Int}

theorem BacklogInv.consistent (h : BacklogInv w) : Consistent w where
  queue := h.queue
  bound := by
    intro k hk
    obtain ⟨j, hj, -, hsome⟩ := h.bound k hk
    exact ⟨j, hj, count_key_eq_one hsome⟩
  cancelled := by
    intro k hk
    refine count_eq_zero fun o ho => ?_
    have hne := (h.cancelled k hk).2 o ho
    exact decide_eq_false hne

/-! ## Rewriting rows that stay where they are -/

/-- The row is rewritten without entering or leaving the backlog. -/
structure Follows (j j' : JobRow) : Prop where
  attempt : j'.attempt = j.attempt
  queued : j'.state = .queued ↔ j.state = .queued
  unbound : j.state = .queued → j'.sessionId = j.sessionId ∧ j'.workerId = j.workerId

theorem Follows.refl (j : JobRow) : Follows j j :=
  ⟨rfl, Iff.rfl, fun _ => ⟨rfl, rfl⟩⟩

/-- The invariant survives when no job changes place. -/
theorem BacklogInv.follow (h : BacklogInv w) (hjobs : w.store.jobs.Related Follows t.jobs)
    (hqueue : ∀ k, (t.queue.find? k).isSome = (w.store.queue.find? k).isSome)
    (houtbox : t.outbox = w.store.outbox) :
    BacklogInv ⟨t, w.bound, w.cancelled⟩ where
  queue := by
    intro k
    rw [hqueue, h.queue]
    constructor
    · rintro ⟨j, hj, hq⟩
      obtain ⟨j', hj', hfol⟩ := hjobs.forth k j hj
      exact ⟨j', hj', hfol.queued.mpr hq⟩
    rintro ⟨j', hj', hq⟩
    obtain ⟨j, hj, hfol⟩ := hjobs.back k j' hj'
    exact ⟨j, hj, hfol.queued.mp hq⟩
  unbound := by
    intro k j' hj' hq
    obtain ⟨j, hj, hfol⟩ := hjobs.back k j' hj'
    have hqj := hfol.queued.mp hq
    rw [(hfol.unbound hqj).1, (hfol.unbound hqj).2]
    exact h.unbound k j hj hqj
  outbox := by
    intro o ho
    rw [houtbox] at ho
    obtain ⟨j, hj, hq⟩ := h.outbox o ho
    obtain ⟨j', hj', hfol⟩ := hjobs.forth _ j hj
    exact ⟨j', hj', fun e => hq (hfol.queued.mp e)⟩
  bound := by
    intro k hk
    obtain ⟨j, hj, hq, hsome⟩ := h.bound k hk
    obtain ⟨j', hj', hfol⟩ := hjobs.forth k j hj
    refine ⟨j', hj', fun e => hq (hfol.queued.mp e), ?_⟩
    rw [houtbox, hfol.attempt]
    exact hsome
  cancelled := by
    intro k hk
    obtain ⟨⟨j, hj, hq⟩, hno⟩ := h.cancelled k hk
    obtain ⟨j', hj', hfol⟩ := hjobs.forth k j hj
    refine ⟨⟨j', hj', fun e => hq (hfol.queued.mp e)⟩, ?_⟩
    rw [houtbox]
    exact hno

/-! ## Jobs that enter and jobs that leave -/

/-- The invariant survives new jobs, each in the backlog when it is queued and
    each without outbox rows unless it is bound from the start. -/
theorem BacklogInv.extend (h : BacklogInv w)
    (hold : ∀ k j, w.store.jobs.find? k = some j → t.jobs.find? k = some j)
    (hnew : ∀ k j, t.jobs.find? k = some j → w.store.jobs.find? k = some j
      ∨ (w.store.jobs.find? k = none
        ∧ (j.state = .queued → j.sessionId = none ∧ j.workerId = none)))
    (hqueue : ∀ k, (t.queue.find? k).isSome = true
      ↔ (w.store.queue.find? k).isSome = true ∨ (w.store.jobs.find? k = none
          ∧ ∃ j, t.jobs.find? k = some j ∧ j.state = .queued))
    (houtbox : ∀ o ∈ t.outbox.rows, o ∈ w.store.outbox.rows
      ∨ (w.store.jobs.find? (o.organizationId, o.jobId) = none
        ∧ ∃ j, t.jobs.find? (o.organizationId, o.jobId) = some j ∧ j.state ≠ .queued))
    (hkept : ∀ c, (w.store.outbox.find? c).isSome = true → (t.outbox.find? c).isSome = true) :
    BacklogInv ⟨t, w.bound, w.cancelled⟩ where
  queue := by
    intro k
    rw [hqueue, h.queue]
    constructor
    · rintro (⟨j, hj, hq⟩ | ⟨-, hq⟩)
      · exact ⟨j, hold k j hj, hq⟩
      · exact hq
    rintro ⟨j, hj, hq⟩
    rcases hnew k j hj with hj' | ⟨hnone, -⟩
    · exact .inl ⟨j, hj', hq⟩
    · exact .inr ⟨hnone, j, hj, hq⟩
  unbound := by
    intro k j hj hq
    rcases hnew k j hj with hj' | ⟨-, hun⟩
    · exact h.unbound k j hj' hq
    · exact hun hq
  outbox := by
    intro o ho
    rcases houtbox o ho with ho' | ⟨-, hj⟩
    · obtain ⟨j, hj, hq⟩ := h.outbox o ho'
      exact ⟨j, hold _ j hj, hq⟩
    · exact hj
  bound := by
    intro k hk
    obtain ⟨j, hj, hq, hsome⟩ := h.bound k hk
    exact ⟨j, hold k j hj, hq, hkept _ hsome⟩
  cancelled := by
    intro k hk
    obtain ⟨⟨j, hj, hq⟩, hno⟩ := h.cancelled k hk
    refine ⟨⟨j, hold k j hj, hq⟩, ?_⟩
    rintro o ho rfl
    rcases houtbox o ho with ho' | ⟨hnone, -⟩
    · exact hno o ho' rfl
    · rw [hj] at hnone
      cases hnone

/-- The invariant survives a job that leaves its state and the queue at once;
    only this job may get an outbox row. -/
theorem BacklogInv.leave {j r : JobRow} (h : BacklogInv w)
    (hj : w.store.jobs.find? k = some j) (hwas : j.state = .queued)
    (hleft : r.state ≠ .queued) (hjobs : ∀ k', t.jobs.find? k'
      = if k' = k then some r else w.store.jobs.find? k')
    (hqueue : t.queue = w.store.queue.delete fun q => q.key = k)
    (houtbox : ∀ o ∈ t.outbox.rows, o ∈ w.store.outbox.rows ∨ (o.organizationId, o.jobId) = k)
    (hkept : ∀ c, (w.store.outbox.find? c).isSome = true → (t.outbox.find? c).isSome = true) :
    BacklogInv ⟨t, w.bound, w.cancelled⟩ := by
  -- a job that left the backlog earlier is another one
  have hother : ∀ k' i, w.store.jobs.find? k' = some i → i.state ≠ .queued →
      t.jobs.find? k' = some i ∧ k' ≠ k := by
    intro k' i hi hq
    have hne : k' ≠ k := by
      rintro rfl
      rw [hj] at hi
      exact hq (some.inj hi ▸ hwas)
    rw [hjobs, if_neg hne]
    exact ⟨hi, hne⟩
  refine ⟨?_, ?_, ?_, ?_, ?_⟩
  · intro k'
    rw [hqueue, find?_delete, hjobs]
    by_cases hk : k' = k
    · rw [if_pos hk]
      constructor
      · intro hsome
        obtain ⟨q, hq⟩ := Option.isSome_iff_exists.mp hsome
        obtain ⟨hfound, hkeep⟩ := filter_eq_some_iff.mp hq
        rw [key_of_find? hfound, hk] at hkeep
        simp at hkeep
      · rintro ⟨i, hi, hq⟩
        rw [← some.inj hi] at hq
        exact absurd hq hleft
    · rw [if_neg hk, ← h.queue]
      cases hq : w.store.queue.find? k' with
      | none => exact Iff.rfl
      | some q => simp [Option.filter, key_of_find? hq, hk]
  · intro k' i hi hq
    rw [hjobs] at hi
    split at hi
    · rw [← some.inj hi] at hq
      exact absurd hq hleft
    · exact h.unbound k' i hi hq
  · intro o ho
    rcases houtbox o ho with ho' | hk
    · obtain ⟨i, hi, hq⟩ := h.outbox o ho'
      exact ⟨i, (hother _ i hi hq).1, hq⟩
    refine ⟨r, ?_, hleft⟩
    rw [hjobs, if_pos hk]
  · intro k' hk'
    obtain ⟨i, hi, hq, hsome⟩ := h.bound k' hk'
    exact ⟨i, (hother k' i hi hq).1, hq, hkept _ hsome⟩
  · intro k' hk'
    obtain ⟨⟨i, hi, hq⟩, hno⟩ := h.cancelled k' hk'
    obtain ⟨hi', hne⟩ := hother k' i hi hq
    refine ⟨⟨i, hi', hq⟩, ?_⟩
    intro o ho hk
    rcases houtbox o ho with ho' | hk'
    · exact hno o ho' hk
    · exact hne (hk.symm.trans hk')

/-! ## The transactions one by one -/

theorem backlogInv_fresh {s : Store} (h : Fresh s) : BacklogInv ⟨s, [], []⟩ where
  queue := by
    intro k
    simp [h.queue, h.jobs]
  unbound := by
    intro k j hj
    simp [h.jobs] at hj
  outbox := by
    intro o ho
    simp [h.outbox, empty] at ho
  bound := nofun
  cancelled := nofun

section

variable (h : BacklogInv w)
include h

/-- Nothing of the backlog is touched. -/
theorem BacklogInv.frame (hjobs : t.jobs = w.store.jobs)
    (hqueue : t.queue = w.store.queue) (houtbox : t.outbox = w.store.outbox) :
    BacklogInv ⟨t, w.bound, w.cancelled⟩ := by
  refine h.follow ?_ ?_ houtbox
  · rw [hjobs]
    exact related_refl Follows.refl _
  · rw [hqueue]
    exact fun _ => rfl

theorem backlogInv_newJob {input : JobUpsert} {idem : Option IdempotencyRow}
    {adm : Except StoreError Unit} {r : CommitResult}
    (hok : commitNewJob w.store input idem adm = .ok (t, r)) :
    BacklogInv ⟨t, w.bound, w.cancelled⟩ := by
  rcases commitNewJob_ok hok with ⟨rfl, -⟩ | ⟨-, hnew⟩
  · exact h
  have hjobs := hnew.jobs
  obtain ⟨at', hout⟩ := hnew.outbox
  have hfresh := (insert_eq_some_iff.mp hjobs).1
  have hrows := (insert_eq_some_iff.mp hout).2
  have hfind : ∀ k, t.jobs.find? k = if input.row.key = k
      then some input.row else w.store.jobs.find? k :=
    find?_insert hjobs
  refine h.extend ?_ ?_ ?_ ?_ ?_
  · intro k j hj
    rw [hfind]
    split
    · next hk =>
      rw [← hk, hfresh] at hj
      cases hj
    · exact hj
  · intro k j hj
    rw [hfind] at hj
    split at hj
    · next hk =>
      rw [← hk, ← some.inj hj]
      exact .inr ⟨hfresh, by rintro ⟨⟩⟩
    · exact .inl hj
  · intro k
    rw [hnew.queue]
    constructor
    · exact .inl
    rintro (hq | ⟨hnone, j, hj, hq⟩)
    · exact hq
    -- a submitted job starts as received
    rw [hfind, hnone] at hj
    split at hj
    · rw [← some.inj hj] at hq
      cases hq
    · cases hj
  · intro o ho
    rw [hrows, List.mem_cons] at ho
    rcases ho with rfl | ho
    · exact .inr ⟨hfresh, input.row, by rw [hfind]; exact if_pos rfl, by rintro ⟨⟩⟩
    · exact .inl ho
  · intro c hc
    rw [find?_insert hout]
    split
    · rfl
    · exact hc

theorem backlogInv_newBatch {batch : BatchRow} {children : List BatchChildJob}
    {shared : List String} {idem : Option IdempotencyRow}
    {adm : Except StoreError Unit} {r : CommitResult}
    (hok : commitNewBatch w.store batch children shared idem adm now = .ok (t, r)) :
    BacklogInv ⟨t, w.bound, w.cancelled⟩ := by
  rcases commitNewBatch_ok hok with ⟨rfl, -⟩ | ⟨-, hnew⟩
  · exact h
  have hins := inserted_children hnew.children
  refine h.extend hins.old ?_ ?_ ?_ ?_
  · intro k j hj
    rcases hins.new k j hj with hj' | ⟨hnone, -, hun⟩
    · exact .inl hj'
    · exact .inr ⟨hnone, fun _ => hun⟩
  · intro k
    refine (hins.queue k).trans (or_congr_right (and_congr_right fun hnone => ?_))
    constructor
    · intro hsome
      obtain ⟨j, hj⟩ := Option.isSome_iff_exists.mp hsome
      rcases hins.new k j hj with hj' | ⟨-, hq, -⟩
      · rw [hnone] at hj'
        cases hj'
      · exact ⟨j, hj, hq⟩
    · rintro ⟨j, hj, -⟩
      rw [hj]
      rfl
  · intro o ho
    rw [hnew.outbox] at ho
    exact .inl ho
  · intro c hc
    rw [hnew.outbox]
    exact hc

theorem backlogInv_claim (owner : String) (seconds now : Int) (locked : List Key) :
    BacklogInv ⟨(claimDispatchQueueJob w.store owner seconds now locked).1,
      w.bound, w.cancelled⟩ := by
  rw [claimDispatchQueueJob]
  split
  · exact h
  refine h.follow (related_refl Follows.refl _) ?_ rfl
  intro k
  rw [find?_update, Option.isSome_map]

/-- Binding: out of the queue, into the outbox. -/
theorem backlogInv_bind {workerOrg worker session : String}
    (hok : bindQueuedJob w.store k workerOrg worker session now = some t) :
    BacklogInv ⟨t, k :: w.bound, w.cancelled⟩ := by
  obtain ⟨hrow, -, hqueue, -, -, j, hj, hout⟩ := bindQueuedJob_some hok
  obtain ⟨i, hi, hqi, -⟩ := updateKey_eq_some hrow.jobs
  obtain rfl : i = j := some.inj (hi.symm.trans hj)
  have hwas : i.state = .queued := of_decide_eq_true hqi
  have hfind := find?_updateKey hrow.jobs hj
  have hleave := h.leave hj hwas (r := i.bind workerOrg worker session now) (by rintro ⟨⟩) hfind
    hqueue
    (by
      intro o ho
      have hfound := find?_of_mem ho
      rw [hout, find?_upsert] at hfound
      split at hfound
      · next hkey => exact .inr (congrArg Prod.fst hkey).symm
      · exact .inl (mem_of_find? hfound))
    (by
      intro c hc
      rw [hout, find?_upsert]
      split
      · rfl
      · exact hc)
  refine ⟨hleave.queue, hleave.unbound, hleave.outbox, ?_, hleave.cancelled⟩
  intro k' hk'
  rcases List.mem_cons.mp hk' with rfl | hk'
  · refine ⟨_, (hfind k').trans (if_pos rfl), by rintro ⟨⟩, ?_⟩
    rw [hout, find?_upsert]
    split
    · rfl
    · next hne => exact absurd rfl hne
  · exact hleave.bound k' hk'

/-- Cancelling: out of the queue, and the job never had an outbox row. -/
theorem backlogInv_cancel (hok : cancelQueuedJob w.store k now = some t) :
    BacklogInv ⟨t, w.bound, k :: w.cancelled⟩ := by
  obtain ⟨hrow, -, hqueue, houtbox⟩ := cancelQueuedJob_some hok
  obtain ⟨j, hj, hqj, -⟩ := updateKey_eq_some hrow.jobs
  have hwas : j.state = .queued := of_decide_eq_true hqj
  have hfind := find?_updateKey hrow.jobs hj
  have hleave := h.leave hj hwas (r := j.cancelQueued now) nofun hfind hqueue
    (fun o ho => .inl (by rw [houtbox] at ho; exact ho))
    (fun c hc => by rw [houtbox]; exact hc)
  refine ⟨hleave.queue, hleave.unbound, hleave.outbox, hleave.bound, ?_⟩
  intro k' hk'
  rcases List.mem_cons.mp hk' with rfl | hk'
  · refine ⟨⟨j.cancelQueued now, ?_, nofun⟩, ?_⟩
    · exact (hfind k').trans (if_pos rfl)
    intro o ho hk
    rw [houtbox] at ho
    obtain ⟨i, hi, hq⟩ := h.outbox o ho
    rw [hk, hj] at hi
    exact hq (some.inj hi ▸ hwas)
  · exact hleave.cancelled k' hk'

/-- A conditional update that strands nothing. -/
theorem backlogInv_update {u : ConditionalJobUpdate}
    (hkeeps : ¬ Strands w.store (.updateJobIfCurrent u))
    (hok : updateJobIfCurrent w.store u = some t) :
    BacklogInv ⟨t, w.bound, w.cancelled⟩ := by
  obtain ⟨hrow, -, hqueue, houtbox⟩ := updateJobIfCurrent_some hok
  have hfol : w.store.jobs.Related Follows t.jobs := by
    refine related_updateKey Follows.refl hrow.jobs fun j hj hexp =>
      ⟨rfl, ?_, fun _ => ⟨rfl, rfl⟩⟩
    show u.state.getD j.state = .queued ↔ _
    cases hst : u.state with
    | none => exact Iff.rfl
    | some st =>
      have hterm := u.state_terminal st hst
      constructor
      · rintro rfl
        cases hterm
      · intro hq
        exact absurd ⟨j, hj, hq, hexp, by rw [hst]; rfl⟩ hkeeps
  exact h.follow hfol (fun _ => by rw [hqueue]) houtbox

/-- An event moves no queued job: SQL finds no session in its row. -/
theorem backlogInv_event {e : EventRow} {u : JobEventUpdate} {moved : Bool}
    (hok : applyJobEvent w.store e u now = .ok (t, moved)) :
    BacklogInv ⟨t, w.bound, w.cancelled⟩ := by
  rcases applyJobEvent_ok hok with ⟨rfl, -⟩ | ⟨hrow, -, hqueue, houtbox⟩
  · exact h
  have hfol : w.store.jobs.Related Follows t.jobs := by
    refine related_updateKey Follows.refl hrow.jobs fun j hj hexp => ?_
    obtain ⟨hnot, hne⟩ :=
      JobEventUpdate.ne_queued_of_expects (fun hq => (h.unbound _ j hj hq).1) hexp
    exact ⟨rfl, iff_of_false hne hnot, fun hq => absurd hq hnot⟩
  exact h.follow hfol (fun _ => by rw [hqueue]) houtbox

/-- A reconciliation that strands nothing. -/
theorem backlogInv_reconcile {staleAfterMs : Int} {seen : Int → List Key}
    (hkeeps : ¬ Strands w.store (.reconcileActiveJobQuota now staleAfterMs seen)) :
    BacklogInv ⟨(reconcileActiveJobQuota w.store now staleAfterMs seen).1,
      w.bound, w.cancelled⟩ := by
  refine h.follow (related_update Follows.refl (JobRow.giveUp_key now) fun j hj hstale => ?_)
    (fun _ => rfl) rfl
  have hnot : j.state ≠ .queued := by
    intro hq
    rw [JobRow.stale, Bool.and_eq_true, Bool.and_eq_true] at hstale
    exact hkeeps ⟨j.key, j, find?_of_mem hj, hq, of_decide_eq_true hstale.1.2⟩
  exact ⟨rfl, iff_of_false nofun hnot, fun hq => absurd hq hnot⟩

/-! ## Whole runs -/

/-- **ONE TRANSACTION** that strands no queued job keeps the invariant. -/
theorem backlogInv_step {w' : World} {op : StoreOp}
    (hkeeps : ¬ Strands w.store op) (hstep : step w op = some w') :
    BacklogInv w' := by
  cases hstep
  cases op with
  | commitNewJob input idem adm =>
    exact inv_commit (I := fun t => BacklogInv ⟨t, w.bound, w.cancelled⟩) h
      fun t r hok => backlogInv_newJob h hok
  | commitNewBatch batch children shared idem adm now =>
    exact inv_commit (I := fun t => BacklogInv ⟨t, w.bound, w.cancelled⟩) h
      fun t r hok => backlogInv_newBatch h hok
  | claimDispatchQueueJob owner seconds now locked =>
    exact backlogInv_claim h owner seconds now locked
  | bindQueuedJob k workerOrg worker session now =>
    simp only [perform, newlyBound, newlyCancelled]
    cases hok : bindQueuedJob w.store k workerOrg worker session now with
    | none => exact h
    | some t => exact backlogInv_bind h hok
  | cancelQueuedJob k now =>
    simp only [perform, newlyBound, newlyCancelled]
    cases hok : cancelQueuedJob w.store k now with
    | none => exact h
    | some t => exact backlogInv_cancel h hok
  | updateJobIfCurrent u =>
    simp only [perform, newlyBound, newlyCancelled]
    cases hok : updateJobIfCurrent w.store u with
    | none => exact h
    | some t => exact backlogInv_update h hkeeps hok
  | applyJobEvent e u now =>
    exact inv_commit (I := fun t => BacklogInv ⟨t, w.bound, w.cancelled⟩) h
      fun t r hok => backlogInv_event h hok
  | releaseJobForTerminal k now =>
    obtain ⟨hj, hq, ho, -⟩ := releaseJobForTerminal_frame w.store k now
    exact h.frame hj hq ho
  | reconcileActiveJobQuota now staleAfterMs seen =>
    exact backlogInv_reconcile h hkeeps

/-- A job taken out of `queued` in a transaction that leaves the queue alone breaks the backlog. -/
theorem not_consistent_of_left {w' : World} {j r : JobRow}
    (hj : w.store.jobs.find? k = some j) (hwas : j.state = .queued)
    (hqueue : w'.store.queue = w.store.queue)
    (hr : w'.store.jobs.find? k = some r) (hleft : r.state ≠ .queued) :
    ¬ Consistent w' := by
  intro hcon
  have hsome := (h.queue k).mpr ⟨j, hj, hwas⟩
  rw [← hqueue] at hsome
  obtain ⟨i, hi, hq⟩ := (hcon.queue k).mp hsome
  rw [hr] at hi
  exact hleft (some.inj hi ▸ hq)

/-- **STRANDING IS VISIBLE AT ONCE**: the state after such a step is not consistent. -/
theorem not_consistent_of_strands {w' : World} {op : StoreOp} (hstrands : Strands w.store op)
    (hstep : step w op = some w') : ¬ Consistent w' := by
  cases hstep
  cases op with
  | updateJobIfCurrent u =>
    obtain ⟨j, hj, hq, hexp, hst⟩ := hstrands
    obtain ⟨st, hst⟩ := Option.isSome_iff_exists.mp hst
    have hterm := u.state_terminal st hst
    obtain ⟨jobs, hup⟩ := exists_updateKey u.write u.write_key hj hexp
    have hfind := (find?_updateKey hup hj u.key).trans (if_pos rfl)
    obtain ⟨hj', hq', -⟩ := releaseJobForTerminal_frame
      { w.store with jobs := jobs } u.key u.now
    have hperform : perform w.store (.updateJobIfCurrent u)
        = releaseJobForTerminal { w.store with jobs := jobs } u.key u.now := by
      rw [perform, updateJobIfCurrent, hup, hst]
      show (if st.isTerminal then _ else _) = _
      rw [if_pos hterm]
    refine not_consistent_of_left h hj hq (r := u.write j) ?_ ?_ ?_
    · rw [hperform, hq']
    · rw [hperform, hj']
      exact hfind
    show u.state.getD j.state ≠ .queued
    rw [hst]
    rintro rfl
    cases hterm
  | reconcileActiveJobQuota now staleAfterMs seen =>
    obtain ⟨k, j, hj, hq, hold⟩ := hstrands
    -- no worker in the row, so none of the workers seen lately is in it
    have hstale : ∀ ws, j.stale (saturate (now - max staleAfterMs 1000)) ws = true := by
      intro ws
      rw [JobRow.stale, JobRow.live, hq, (h.unbound k j hj hq).2]
      simp [hold, JobState.isTerminal]
    refine not_consistent_of_left h hj hq (r := j.giveUp now) rfl ?_ (by rintro ⟨⟩)
    show (w.store.jobs.update _ _ (JobRow.giveUp_key now)).find? k = _
    rw [find?_update, hj, map_some, hstale, if_pos rfl]
  | _ => exact hstrands.elim

end

/-- **THE BACKLOG, EXACTLY**: along a run of the store the queue holds the queued jobs, every bound
    job has its one outbox row and every cancelled job none, if and only if no step of the run takes
    a queued job out of its state behind the queue's back. -/
theorem backlog_iff {s₀ : Store} (h₀ : Fresh s₀) (ops : List StoreOp) :
    Along step Consistent ⟨s₀, [], []⟩ ops
      ↔ Admitted step (fun w op => ¬ Strands w.store op) ⟨s₀, [], []⟩ ops := by
  refine along_iff_admitted (fun _ h => h.consistent)
    (fun _ _ _ h hk ht => backlogInv_step h hk ht) ?_ ops _
    (backlogInv_fresh h₀)
  intro w op h hno
  exact ⟨_, rfl, not_consistent_of_strands h (not_not.mp hno) rfl⟩

/-- A batch for the sample organization. -/
def sampleBatch : BatchRow :=
  ⟨"org", "batch", "workflow", "1", .object [], none, none, 1⟩

/-- It is submitted with one child. -/
def submitBatch : StoreOp :=
  .commitNewBatch sampleBatch [⟨"job", .object [], []⟩] [] none (.ok ()) 1

/-- A child is submitted, claimed and bound: the backlog stays consistent. -/
theorem boundChild_consistent : Along step Consistent ⟨sampleStore, [], []⟩ [submitBatch,
      .claimDispatchQueueJob "hub" 30 2 [],
      .bindQueuedJob ("org", "job") "org" "default/gpu" "session" 3] :=
  (backlog_iff sampleStore_fresh _).mpr ⟨id, fun _ _ => ⟨id, fun _ _ => ⟨id, fun _ _ => trivial⟩⟩⟩

/-- A child that waits for the grace period of the quota reconciliation is
    given up: it is `failed`, and it stays in the queue. -/
theorem waitingChild_stranded :
    let s := perform (perform sampleStore submitBatch)
      (.reconcileActiveJobQuota 1800001 1800000 fun _ => [])
    (s.jobs.find? ("org", "job")).map JobRow.state = some .failed
      ∧ (s.queue.find? ("org", "job")).isSome = true
      ∧ ¬ Along step Consistent ⟨sampleStore, [], []⟩ [submitBatch,
        .reconcileActiveJobQuota 1800001 1800000 fun _ => []] := by
  refine ⟨rfl, rfl, fun halong => ?_⟩
  obtain ⟨j, hj, hq⟩ :=
    ((Along.head ((halong.2 _ rfl).2 _ rfl)).queue ("org", "job")).mp rfl
  have hfailed : j.state = .failed :=
    some.inj (congrArg (Option.map JobRow.state) hj).symm
  rw [hfailed] at hq
  cases hq

end Backlog
