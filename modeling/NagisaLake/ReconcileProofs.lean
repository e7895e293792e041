import NagisaLake.HistoryProofs

/-! # Reconciliation against the workers — which jobs are given up

`reconcile_active_job_quota` fails the live jobs that have not moved since
the cutoff and for which `NOT EXISTS` finds no worker seen after it.  The
worker is joined on two nullable columns.  A bound job has both; a queued
child of a batch has neither, so SQL's `=` matches no worker for it and
`NOT EXISTS` holds however many workers are connected.

`placed_reachable` is the invariant the argument needs: the live rows
without a worker are exactly the queued ones. -/

namespace Reconcile

open Jobs KeyedTable Runs HubStore History
open HubEvents (rebindJobSession)

/-! ## The workers -/

/-- A row of `workers`. -/
structure WorkerRow where
  organizationId : String
  id : String
  ownerUserId : Option String
  lastSessionId : Option String
  lastSeenAt : Int
  deriving DecidableEq, Repr

def WorkerRow.key (w : WorkerRow) : Key := (w.organizationId, w.id)

/-- `WorkerUpsert`. -/
structure WorkerUpsert where
  organizationId : String
  id : String
  ownerUserId : Option String
  sessionId : Option String
  now : Int

/-- The inserted row. -/
def WorkerUpsert.row (i : WorkerUpsert) : WorkerRow :=
  ⟨i.organizationId, i.id, i.ownerUserId, i.sessionId, i.now⟩

/-- `upsert_worker`: the identity stays with its first owner. -/
def upsertWorker (workers : Table Key WorkerRow WorkerRow.key) (i : WorkerUpsert) :
    Except StoreError (Table Key WorkerRow WorkerRow.key) :=
  match workers.find? i.row.key with
  | none => .ok (workers.put i.row)
  | some w =>
    if w.ownerUserId = i.ownerUserId then .ok (workers.put i.row)
    else .error (.conflict "worker identity belongs to another user")

/-- The row of a worker that was heard of. -/
def WorkerRow.seen (now : Int) (w : WorkerRow) : WorkerRow :=
  { w with lastSeenAt := now }

theorem WorkerRow.seen_key (now : Int) (w : WorkerRow) : (w.seen now).key = w.key := rfl

/-- `touch_worker_heartbeat`: only the session that registered last. -/
def touchWorkerHeartbeat (workers : Table Key WorkerRow WorkerRow.key)
    (k : Key) (sessionId : String) (now : Int) :
    Table Key WorkerRow WorkerRow.key :=
  workers.update (fun w => decide (w.key = k) && decide (w.lastSessionId = some sessionId))
    (WorkerRow.seen now) (WorkerRow.seen_key now)

/-- The workers with `last_seen_at` after the cutoff. -/
def seenAfter (workers : Table Key WorkerRow WorkerRow.key) (cutoff : Int) : List Key :=
  (workers.rows.filter fun w => decide (cutoff < w.lastSeenAt)).map WorkerRow.key

/-- The store and the workers. -/
structure World where
  store : Store
  workers : Table Key WorkerRow WorkerRow.key

/-- `now.saturating_sub(stale_after_ms.max(1_000))`. -/
def cutoffOf (now staleAfterMs : Int) : Int :=
  saturate (now - max staleAfterMs 1000)

/-- `reconcile_active_job_quota` with the workers it joins. -/
def reconcile (w : World) (now staleAfterMs : Int) : Store :=
  (reconcileActiveJobQuota w.store now staleAfterMs (seenAfter w.workers)).1

/-- What changes the jobs and the workers; a reconciliation may have been
    another one's, with workers registered since. -/
inductive Act where
  | perform (op : StoreOp)
  | rebindJobSession (k : Key) (attempt : Nat)
      (expectedSessionId newSessionId : String) (now : Int)
  | upsertWorker (i : WorkerUpsert)
  | touchWorkerHeartbeat (k : Key) (sessionId : String) (now : Int)

/-- One transaction. -/
def step (w : World) : Act → Option World
  | .perform op => some { w with store := perform w.store op }
  | .rebindJobSession k attempt expected sessionId now =>
    some { w with
      store := (rebindJobSession w.store k attempt expected sessionId now).getD w.store }
  | .upsertWorker i => some { w with
      workers := (upsertWorker w.workers i).toOption.getD w.workers }
  | .touchWorkerHeartbeat k sessionId now => some { w with
      workers := touchWorkerHeartbeat w.workers k sessionId now }

/-! ## Which rows have a worker -/

/-- A queued row has no worker and no session, every other live row has
    both columns of its worker. -/
structure Placed (j : JobRow) : Prop where
  waiting : j.state = .queued → j.sessionId = none ∧ j.workerId = none
  bound : j.state.isTerminal = false → j.state ≠ .queued →
    j.workerOrganizationId.isSome = true ∧ j.workerId.isSome = true

variable {j : JobRow} {w : World}

theorem placed_of_born (h : Born j) : Placed j := by
  cases h with
  | job input => exact ⟨nofun, fun _ _ => ⟨rfl, rfl⟩⟩
  | child batch c now =>
    exact ⟨fun _ => ⟨rfl, rfl⟩, fun _ hq => absurd rfl hq⟩

/-- A terminal row may have a worker or not. -/
theorem placed_of_terminal (h : j.state.isTerminal = true) : Placed j where
  waiting := by
    intro hq
    rw [hq] at h
    cases h
  bound := by
    intro hlive
    rw [h] at hlive
    cases hlive

theorem Placed.written {j' : JobRow} (hp : Placed j) (h : Written j j') : Placed j' := by
  cases h with
  | same => exact hp
  | bound => exact ⟨nofun, fun _ _ => ⟨rfl, rfl⟩⟩
  | cancelled | givenUp => exact placed_of_terminal rfl
  | settled u hexp =>
    cases hstate : u.state with
    | none =>
      have hsame : (u.write j).state = j.state := by
        show u.state.getD j.state = j.state
        rw [hstate]
        rfl
      refine ⟨fun hq => hp.waiting (hsame ▸ hq), fun hlive hq => ?_⟩
      exact hp.bound (hsame ▸ hlive) (hsame ▸ hq)
    | some target =>
      refine placed_of_terminal ?_
      show (u.state.getD j.state).isTerminal = true
      rw [hstate]
      exact u.state_terminal target hstate
  | moved u e now hexp =>
    obtain ⟨hq, hne⟩ := JobEventUpdate.ne_queued_of_expects (fun h => (hp.waiting h).1) hexp
    have hwas := JobEventUpdate.state_of_expects hexp
    refine ⟨fun hnext => ?_, fun hlive _ => ?_⟩
    · exact absurd hnext hne
    refine hp.bound ?_ hq
    cases hterm : j.state.isTerminal with
    | false => rfl
    | true =>
      have hstay := u.state_eq (hwas ▸ hterm)
      rw [show (u.write e now j).state = u.state from rfl, hstay, ← hwas, hterm] at hlive
      cases hlive
  | rebound session now hlive hbound =>
    refine ⟨fun hq => ?_, hp.bound⟩
    rw [(hp.waiting hq).1] at hbound
    cases hbound

/-- Every row of the table. -/
def AllPlaced (w : World) : Prop :=
  ∀ k j, w.store.jobs.find? k = some j → Placed j

theorem allPlaced_of_rewrites {s t : Table Key JobRow JobRow.key}
    (h : ∀ k j, s.find? k = some j → Placed j) (hrw : Rewrites s t) :
    ∀ k j, t.find? k = some j → Placed j := by
  intro k j' hj'
  rcases hrw.back k j' hj' with ⟨j, hj, hw⟩ | ⟨-, hborn⟩
  · exact (h k j hj).written hw
  · exact placed_of_born hborn

theorem allPlaced_step {w' : World} {a : Act} (h : AllPlaced w)
    (hstep : step w a = some w') : AllPlaced w' := by
  cases a with cases hstep
  | perform op =>
    exact allPlaced_of_rewrites h (rewrites_perform w.store op)
  | rebindJobSession k attempt expected sessionId now =>
    cases hok : rebindJobSession w.store k attempt expected sessionId now with
    | none => exact h
    | some t =>
      exact allPlaced_of_rewrites h (rewrites_of_related (related_rebind hok))
  | upsertWorker i | touchWorkerHeartbeat k sessionId now =>
    exact h

theorem placed_reachable {w₀ : World} (h₀ : w₀.store.jobs = Table.empty)
    (hr : Reachable step w₀ w) : AllPlaced w := by
  refine inv_reachable (fun _ _ _ h hs => allPlaced_step h hs) ?_ hr
  intro k j hj
  rw [h₀] at hj
  cases hj

/-! ## Who is given up -/

/-- The worker of the job has no row, or one that was not seen after the cutoff. -/
def Disappeared (w : World) (cutoff : Int) (j : JobRow) : Prop :=
  ∃ o i, j.workerOrganizationId = some o ∧ j.workerId = some i
    ∧ ∀ r, w.workers.find? (o, i) = some r → r.lastSeenAt ≤ cutoff

/-- Reconciliation moves the job to `failed`. -/
def GivenUp (w : World) (now staleAfterMs : Int) (k : Key) (j : JobRow) :
    Prop :=
  w.store.jobs.find? k = some j ∧ j.state ≠ .failed
    ∧ ((reconcile w now staleAfterMs).jobs.find? k).map JobRow.state = some .failed

/-- Every job that reconciliation moves to `failed` had a worker, and the worker has disappeared. -/
def GivesUpOnlyDisappeared (w : World) (now staleAfterMs : Int) : Prop :=
  ∀ k j, GivenUp w now staleAfterMs k j → Disappeared w (cutoffOf now staleAfterMs) j

/-- Reconciliation gives up the rows its `WHERE` clause selects. -/
theorem givenUp_iff {now staleAfterMs : Int} {k : Key} (hj : w.store.jobs.find? k = some j) :
    GivenUp w now staleAfterMs k j ↔ j.stale (cutoffOf now staleAfterMs)
          (seenAfter w.workers (cutoffOf now staleAfterMs)) = true := by
  have hfind : (reconcile w now staleAfterMs).jobs.find? k
      = some (if j.stale (cutoffOf now staleAfterMs)
            (seenAfter w.workers (cutoffOf now staleAfterMs))
          then j.giveUp now else j) := by
    show (w.store.jobs.update _ _ (JobRow.giveUp_key now)).find? k = _
    rw [Table.find?_update, hj]
    rfl
  rw [GivenUp, hfind]
  constructor
  · rintro ⟨-, hnot, hfailed⟩
    split at hfailed
    · next hstale => exact hstale
    · exact absurd (Option.some.inj hfailed) hnot
  · intro hstale
    refine ⟨hj, ?_, ?_⟩
    · intro hfailed
      have hlive := live_of_stale hstale
      rw [hfailed] at hlive
      cases hlive
    · rw [if_pos hstale]
      rfl

/-- The worker of a bound job is among those seen if and only if it has not disappeared. -/
theorem disappeared_of_unseen {cutoff : Int} {o i : String}
    (ho : j.workerOrganizationId = some o) (hi : j.workerId = some i)
    (hunseen : ((seenAfter w.workers cutoff).any fun s =>
      decide (j.workerOrganizationId = some s.1) && decide (j.workerId = some s.2)) = false) :
    Disappeared w cutoff j := by
  refine ⟨o, i, ho, hi, fun r hr => ?_⟩
  by_contra hlate
  rw [List.any_eq_false] at hunseen
  obtain ⟨hmem, hkey⟩ := Table.find?_eq_some_iff.mp hr
  have hin : (o, i) ∈ seenAfter w.workers cutoff := by
    rw [← hkey]
    refine List.mem_map_of_mem (List.mem_filter.mpr ⟨hmem, ?_⟩)
    exact decide_eq_true (Int.not_le.mp hlate)
  refine hunseen _ hin ?_
  simp [ho, hi]

/-- **WHO IS GIVEN UP**: in every reachable store, every job that reconciliation fails was bound to
    a worker that has disappeared, if and only if no queued job has waited since the cutoff. -/
theorem givesUpOnlyDisappeared_iff {w₀ w : World}
    (h₀ : w₀.store.jobs = Table.empty) (hr : Reachable step w₀ w)
    (now staleAfterMs : Int) :
    GivesUpOnlyDisappeared w now staleAfterMs
      ↔ ∀ k j, w.store.jobs.find? k = some j → j.state = .queued →
        cutoffOf now staleAfterMs < j.updatedAt := by
  have hplaced := placed_reachable h₀ hr
  constructor
  · intro honly k j hj hq
    by_contra hold
    -- no worker in the row, so none of the workers seen lately is in it
    have hnone := ((hplaced k j hj).waiting hq).2
    have hstale : j.stale (cutoffOf now staleAfterMs)
        (seenAfter w.workers (cutoffOf now staleAfterMs)) = true := by
      rw [JobRow.stale, JobRow.live, hq, hnone]
      simp [Int.not_lt.mp hold, JobState.isTerminal]
    obtain ⟨o, i, -, hi, -⟩ := honly k j ((givenUp_iff hj).mpr hstale)
    rw [hnone] at hi
    cases hi
  · intro hyoung k j hgiven
    have hj := hgiven.1
    have hstale := (givenUp_iff hj).mp hgiven
    have hlive := live_of_stale hstale
    rw [JobRow.stale, Bool.and_eq_true, Bool.and_eq_true,
      decide_eq_true_eq, Bool.not_eq_true'] at hstale
    obtain ⟨⟨-, hold⟩, hunseen⟩ := hstale
    have hq : j.state ≠ .queued := by
      intro hq
      exact absurd (hyoung k j hj hq) (Int.not_lt.mpr hold)
    obtain ⟨ho, hi⟩ := (hplaced k j hj).bound hlive hq
    obtain ⟨o, ho⟩ := Option.isSome_iff_exists.mp ho
    obtain ⟨i, hi⟩ := Option.isSome_iff_exists.mp hi
    exact disappeared_of_unseen ho hi hunseen

/-- A worker is registered, no job has been submitted. -/
def connectedWorld : World where
  store := sampleStore
  workers := Table.empty.put ⟨"org", "default/gpu", none, some "session", 1⟩

/-- A batch of one child. -/
def submitChild : Act :=
  .perform (.commitNewBatch ⟨"org", "batch", "workflow", "1", .object [], none, none, 1⟩
    [⟨"job", .object [], []⟩] [] none (.ok ()) 1)

def bindChild : Act :=
  .perform (.bindQueuedJob ("org", "job") "org" "default/gpu" "session" 2)

/-- The child was bound, and nothing was heard of its worker since. -/
def silentWorld : World :=
  ((run step connectedWorld [submitChild, bindChild]).getD connectedWorld)

/-- A worker went silent half an hour ago: the job that is given up was its. -/
theorem silentWorker_givesUpOnlyDisappeared : Reachable step connectedWorld silentWorld
      ∧ GivesUpOnlyDisappeared silentWorld 1800002 1800000 := by
  have hr : Reachable step connectedWorld silentWorld :=
    ⟨[submitChild, bindChild], rfl⟩
  refine ⟨hr, (givesUpOnlyDisappeared_iff rfl hr 1800002 1800000).mpr ?_⟩
  intro k j hj hq
  have hstate : ∀ i ∈ silentWorld.store.jobs.rows, i.state ≠ .queued := by
    decide
  exact absurd hq (hstate j (Table.mem_of_find? hj))

/-- The child waits, and its organization's worker is connected and heard of. -/
def waitingWorld : World :=
  ((run step connectedWorld [submitChild,
    .touchWorkerHeartbeat ("org", "default/gpu") "session" 1800000]).getD connectedWorld)

/-- A child that has waited for the grace period is failed, although it never
    had a worker and every worker is connected. -/
theorem waitingChild_givenUp : Reachable step connectedWorld waitingWorld
      ∧ (waitingWorld.store.jobs.find? ("org", "job")).map JobRow.state = some .queued
      ∧ ((reconcile waitingWorld 1800001 1800000).jobs.find?
          ("org", "job")).map JobRow.state = some .failed
      ∧ ¬ GivesUpOnlyDisappeared waitingWorld 1800001 1800000 := by
  refine ⟨⟨[submitChild, .touchWorkerHeartbeat ("org", "default/gpu") "session" 1800000], rfl⟩,
    rfl, rfl, fun honly => ?_⟩
  obtain ⟨o, i, ho, -⟩ := honly ("org", "job") _ ⟨rfl, by decide, rfl⟩
  cases ho

end Reconcile
