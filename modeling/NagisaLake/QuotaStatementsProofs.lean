import NagisaLake.LockingProofs
import NagisaLake.PoolProofs
import NagisaLake.QuotaProofs

/-! # Repairing the quota — the reconciler among the other transactions

`reconcile_active_job_quota` runs while jobs are submitted, cancelled and
finished.  Here every transaction is the sequence of its statements, under
READ COMMITTED: a statement reads the snapshot taken when it starts, a row
lock is held to the end of the transaction, and an `UPDATE` that had to
wait looks again at the row it waited for and at nothing else.

The others move `active_jobs` by one, relative to the row they have locked.
The reconciler writes the number it counted when its statement started, so
the number must still be right when the lock is granted. -/

namespace QuotaRepair

open Jobs KeyedTable Locking Pools Runs HubStore Quota Option Locked

/-! ## The tables -/

/-- The tables the transactions share.  Nobody here writes the policies. -/
structure Db where
  policies : Table String PolicyRow PolicyRow.organizationId
  jobs : Locked Key JobRow JobRow.key
  ledger : Locked Key LedgerRow LedgerRow.key
  usage : Locked String UsageRow UsageRow.organizationId

/-- The tables of a store, while no transaction is open. -/
def Db.ofStore (s : Store) : Db where
  policies := s.policies
  jobs := .committed s.jobs
  ledger := .committed s.ledger
  usage := .committed s.usage

def Db.writeJob (db : Db) (i : Nat) (j : JobRow) : Db :=
  { db with jobs := db.jobs.write i j }

def Db.writeLedger (db : Db) (i : Nat) (l : LedgerRow) : Db :=
  { db with ledger := db.ledger.write i l }

def Db.writeUsage (db : Db) (i : Nat) (u : UsageRow) : Db :=
  { db with usage := db.usage.write i u }

def Db.commit (db : Db) (i : Nat) : Db :=
  { db with
    jobs := db.jobs.commit i
    ledger := db.ledger.commit i
    usage := db.usage.commit i }

def Db.rollback (db : Db) (i : Nat) : Db :=
  { db with
    jobs := db.jobs.rollback i
    ledger := db.ledger.rollback i
    usage := db.usage.rollback i }

/-! ## The transactions -/

/-- The next statement of a transaction, with what it has read so far.  An `UPDATE` whose condition
    looks at more than the key is two steps: its snapshot, and the rows it then waits for. -/
inductive Tx where
  | lockUsage (input : JobUpsert)
  | insertJob (input : JobUpsert) (policy : PolicyRow) (usage : UsageRow)
  | chargeUsage (input : JobUpsert) (period startedAt : Int)
  | cancelQueued (k : Key) (now : Int)
  | cancelWait (k : Key) (now : Int)
  | applyEvent (e : EventRow) (u : JobEventUpdate) (now : Int)
  | applyWait (e : EventRow) (u : JobEventUpdate) (now : Int)
  | releaseLedger (k : Key) (now : Int)
  | releaseUsage (organizationId : String)
  | findStale (now staleAfterMs : Int) (seen : Int → List Key)
  | giveUp (now cutoff : Int) (seen waiting failed : List Key)
  | recordReleases (now : Int) (failed : List Key)
  | recount
  | recountWait (actual : List (String × Nat))
  | zero
  | zeroWait (organizations : List String)
  | commit
  | committed
  | rolledBack

/-- What the statements on other tables answer: the idempotency record is new, or another request
    has stored it.  Where such a statement fails the transaction is rolled back. -/
inductive Reply where
  | ok
  | existing

/-- An error: what the transaction wrote is gone. -/
def abort (db : Db) (i : Nat) : Db × Tx := (db.rollback i, .rolledBack)

/-! ### `commit_new_job` -/

/-- The policy, and the usage row `FOR UPDATE`. -/
def lockUsage (db : Db) (i : Nat) (input : JobUpsert) : Option (Db × Tx) :=
  match db.policies.find? input.organizationId with
  -- `NotFound("quota policy")`
  | none => some (abort db i)
  | some policy => (db.usage.await i input.organizationId).map fun
      | none => abort db i
      | some u => (db.writeUsage i u, .insertJob input policy u)

/-- The second look at the idempotency record, the limits, and the new row. -/
def insertJob (db : Db) (i : Nat) (input : JobUpsert) (policy : PolicyRow)
    (usage : UsageRow) : Reply → Option (Db × Tx)
  -- a replay: the commit gives the lock back and writes nothing
  | .existing => some (db, .commit)
  | .ok =>
    let period := periodJobs policy usage input.now
    let startedAt := if period = 0 then input.now else usage.periodStartedAt
    if usage.activeJobs ≥ policy.maxConcurrentJobs
        ∨ period ≥ policy.maxJobsPerPeriod then some (abort db i)
    else (db.jobs.await i input.row.key).map fun
      -- the primary key is taken
      | some _ => abort db i
      | none => (db.writeJob i input.row, .chargeUsage input period startedAt)

/-- `UPDATE quota_usage … WHERE organization_id`: the latest version of the row, once it is free. -/
def updateUsage (db : Db) (i : Nat) (organizationId : String)
    (f : UsageRow → UsageRow) (next : Tx) : Option (Db × Tx) :=
  (db.usage.await i organizationId).map fun
    | none => (db, next)
    | some u => (db.writeUsage i (f u), next)

/-! ### `cancel_queued_job` and `apply_job_event` -/

/-- An `UPDATE` of one job starts: no row of its snapshot, nothing to do. -/
def startUpdate (db : Db) (i : Nat) (k : Key) (p : JobRow → Bool) (wait : Tx) : Option (Db × Tx) :=
  some (if (db.jobs.read i k).any p then (db, wait) else abort db i)

/-- The row is free: the condition is looked at again. -/
def finishUpdate (db : Db) (i : Nat) (k : Key) (p : JobRow → Bool)
    (f : JobRow → JobRow) (next : Tx) : Option (Db × Tx) :=
  (db.jobs.await i k).map fun row =>
    match row.filter p with
    -- `rows_affected() != 1`: the caller rolls back
    | none => abort db i
    | some j => (db.writeJob i (f j), next)

/-- After the event: only a job that has ended is released. -/
def afterEvent (e : EventRow) (u : JobEventUpdate) (now : Int) : Tx :=
  if u.state.isTerminal then .releaseLedger e.jobKey now else .commit

/-- `release_job_for_terminal_tx`: the ledger row of a job that has ended, and
    with a new one the counter. -/
def releaseLedger (db : Db) (i : Nat) (k : Key) (now : Int) : Option (Db × Tx) :=
  if (db.jobs.read i k).any fun j => j.state.isTerminal then
    (db.ledger.await i k).map fun
      | some _ => (db, .commit)
      | none => (db.writeLedger i ⟨k.1, k.2, now⟩, .releaseUsage k.1)
  else some (db, .commit)

/-! ### `reconcile_active_job_quota` -/

/-- The stale jobs of the snapshot. -/
def findStale (db : Db) (i : Nat) (now staleAfterMs : Int)
    (seen : Int → List Key) : Option (Db × Tx) :=
  let cutoff := saturate (now - max staleAfterMs 1000)
  let stale := (db.jobs.view i).rows.filter
    (JobRow.stale cutoff (seen cutoff))
  some (db, .giveUp now cutoff (seen cutoff) (stale.map JobRow.key) [])

/-- One job after the other fails, if it is still stale once it is free. -/
def giveUp (db : Db) (i : Nat) (now cutoff : Int) (seen : List Key) :
    List Key → List Key → Option (Db × Tx)
  | [], failed => some (db, .recordReleases now failed)
  | k :: ks, failed => (db.jobs.await i k).map fun
      | none => (db, .giveUp now cutoff seen ks failed)
      | some j =>
        if j.stale cutoff seen then
          (db.writeJob i (j.giveUp now), .giveUp now cutoff seen ks (failed ++ [k]))
        -- looked at again in vain, the row stays locked
        else (db.writeJob i j, .giveUp now cutoff seen ks failed)

/-- `ON CONFLICT DO NOTHING`, for each of the failed jobs. -/
def recordReleases (db : Db) (i : Nat) (now : Int) : List Key → Option (Db × Tx)
  | [] => some (db, .recount)
  | k :: ks => (db.ledger.await i k).map fun
      | some _ => (db, .recordReleases now ks)
      | none => (db.writeLedger i ⟨k.1, k.2, now⟩, .recordReleases now ks)

/-- The number of live jobs a transaction sees. -/
def liveSeen (db : Db) (i : Nat) (organizationId : String) : Nat :=
  (db.jobs.view i).count (liveOf organizationId)

/-- The organizations with live jobs whose counter differs, and the number. -/
def miscounted (db : Db) (i : Nat) : List (String × Nat) :=
  ((db.usage.view i).rows.filter fun u =>
    decide (liveSeen db i u.organizationId ≠ 0)
      && decide (u.activeJobs ≠ (liveSeen db i u.organizationId : Int))).map
    fun u => (u.organizationId, liveSeen db i u.organizationId)

/-- The organizations without live jobs whose counter is not zero. -/
def leftOver (db : Db) (i : Nat) : List String :=
  ((db.usage.view i).rows.filter fun u =>
    decide (u.activeJobs ≠ 0) && decide (liveSeen db i u.organizationId = 0)).map
    UsageRow.organizationId

/-- The counter is set, if it still differs once the row is free. -/
def correct (n : Int) (u : UsageRow) : UsageRow :=
  if u.activeJobs ≠ n then { u with activeJobs := n } else u

theorem correct_key (n : Int) (u : UsageRow) : (correct n u).organizationId = u.organizationId := by
  rw [correct]
  split <;> rfl

/-- Either way the counter is the number. -/
theorem correct_active (n : Int) (u : UsageRow) : (correct n u).activeJobs = n := by
  rw [correct]
  split
  · rfl
  · next h => exact not_not.mp h

/-- The counters of organizations with live jobs. -/
def recountWait (db : Db) (i : Nat) : List (String × Nat) → Option (Db × Tx)
  | [] => some (db, .zero)
  | (o, n) :: rest => updateUsage db i o (correct n) (.recountWait rest)

/-- The counters of organizations without; the sum that is read after them is only reported. -/
def zeroWait (db : Db) (i : Nat) : List String → Option (Db × Tx)
  | [] => some (db, .commit)
  | o :: rest => updateUsage db i o (correct 0) (.zeroWait rest)

/-- One step of a transaction; `none` while it waits, and after its end. -/
def taskStep (db : Db) (i : Nat) : Tx → Reply → Option (Db × Tx)
  | .lockUsage input, _ => lockUsage db i input
  | .insertJob input policy usage, reply =>
    insertJob db i input policy usage reply
  | .chargeUsage input period startedAt, _ =>
    updateUsage db i input.organizationId (fun u => u.charge 1 period startedAt) .commit
  | .cancelQueued k now, _ =>
    startUpdate db i k JobRow.queued (.cancelWait k now)
  | .cancelWait k now, _ =>
    finishUpdate db i k JobRow.queued (JobRow.cancelQueued now) (.releaseLedger k now)
  | .applyEvent e u now, _ =>
    startUpdate db i e.jobKey (u.expects e.attempt) (.applyWait e u now)
  | .applyWait e u now, _ =>
    finishUpdate db i e.jobKey (u.expects e.attempt) (u.write e now) (afterEvent e u now)
  | .releaseLedger k now, _ => releaseLedger db i k now
  | .releaseUsage o, _ => updateUsage db i o UsageRow.release .commit
  | .findStale now staleAfterMs seen, _ => findStale db i now staleAfterMs seen
  | .giveUp now cutoff seen waiting failed, _ =>
    giveUp db i now cutoff seen waiting failed
  | .recordReleases now failed, _ => recordReleases db i now failed
  -- the snapshot: the numbers are not taken again
  | .recount, _ => some (db, .recountWait (miscounted db i))
  | .recountWait actual, _ => recountWait db i actual
  | .zero, _ => some (db, .zeroWait (leftOver db i))
  | .zeroWait organizations, _ => zeroWait db i organizations
  | .commit, _ => some (db.commit i, .committed)
  | .committed, _ | .rolledBack, _ => none

/-- A transaction that has not ended may be lost: a deadlock, a failed
    statement, a broken connection. -/
def lose (db : Db) (i : Nat) : Tx → Option (Db × Tx)
  | .committed | .rolledBack => none
  | _ => some (abort db i)

/-- A transaction begins, takes a step, or is lost. -/
inductive Act where
  | commitNewJob (input : JobUpsert)
  | cancelQueuedJob (k : Key) (now : Int)
  | applyJobEvent (e : EventRow) (u : JobEventUpdate) (now : Int)
  | next (i : Nat) (reply : Reply)
  | lose (i : Nat)

/-- The transactions are numbered as they begin. -/
def step (p : Pool Db Tx) : Act → Option (Pool Db Tx)
  | .commitNewJob input => some (p.spawn (.lockUsage input))
  | .cancelQueuedJob k now => some (p.spawn (.cancelQueued k now))
  | .applyJobEvent e u now => some (p.spawn (.applyEvent e u now))
  | .next i reply => p.advance (fun db t r => taskStep db i t r) i reply
  | .lose i => p.advance (fun db t (_ : Reply) => lose db i t) i .ok

/-- `reconcile_active_job_quota` is the first. -/
def reconciling (s : Store) (now staleAfterMs : Int) (seen : Int → List Key) : Pool Db Tx :=
  ⟨.ofStore s, [.findStale now staleAfterMs seen]⟩

/-- The transaction with a number; one that has not begun holds as little as one that has ended. -/
def txAt (p : Pool Db Tx) (i : Nat) : Tx := p.tasks.getD i .committed

/-- The counter of the organization is the number of its live jobs, as everybody sees them. -/
def Exact (o : String) (db : Db) : Prop :=
  ∃ u, db.usage.rows.find? o = some u ∧ u.activeJobs = (db.jobs.rows.count (liveOf o) : Int)

/-! ## What a step can do -/

section Steps

variable {db : Db} {i : Nat} {r : Db × Tx} {next : Tx}

theorem lockUsage_cases {input : JobUpsert} (h : lockUsage db i input = some r) :
    r = abort db i ∨ ∃ policy u, db.usage.free i input.organizationId = true
      ∧ db.usage.read i input.organizationId = some u
      ∧ r = (db.writeUsage i u, .insertJob input policy u) := by
  rw [lockUsage] at h
  split at h
  · exact .inl (some.inj h).symm
  next policy _ =>
  obtain ⟨row, hfree, hread, rfl⟩ := map_await_eq_some h
  cases row with
  | none => exact .inl rfl
  | some u => exact .inr ⟨policy, u, hfree, hread, rfl⟩

theorem insertJob_cases {input : JobUpsert} {policy : PolicyRow}
    {usage : UsageRow} {reply : Reply}
    (h : insertJob db i input policy usage reply = some r) :
    r = abort db i ∨ r = (db, .commit) ∨ ∃ period startedAt, db.jobs.free i input.row.key = true
      ∧ db.jobs.read i input.row.key = none
      ∧ r = (db.writeJob i input.row, .chargeUsage input period startedAt) := by
  cases reply with
  | existing => exact .inr (.inl (some.inj h).symm)
  | ok =>
    simp only [insertJob] at h
    split at h
    · exact .inl (some.inj h).symm
    obtain ⟨row, hfree, hread, rfl⟩ := map_await_eq_some h
    cases row with
    | some _ => exact .inl rfl
    | none => exact .inr (.inr ⟨_, _, hfree, hread, rfl⟩)

theorem updateUsage_cases {o : String} {f : UsageRow → UsageRow}
    (h : updateUsage db i o f next = some r) :
    (db.usage.read i o = none ∧ r = (db, next))
    ∨ ∃ u, db.usage.free i o = true ∧ db.usage.read i o = some u
      ∧ r = (db.writeUsage i (f u), next) := by
  obtain ⟨row, hfree, hread, rfl⟩ := map_await_eq_some h
  cases row with
  | none => exact .inl ⟨hread, rfl⟩
  | some u => exact .inr ⟨u, hfree, hread, rfl⟩

variable {k : Key} {p : JobRow → Bool} {now : Int}

theorem startUpdate_cases (h : startUpdate db i k p next = some r) :
    r = abort db i ∨ r = (db, next) := by
  rw [startUpdate] at h
  split at h
  · exact .inr (some.inj h).symm
  · exact .inl (some.inj h).symm

theorem finishUpdate_cases {f : JobRow → JobRow} (h : finishUpdate db i k p f next = some r) :
    r = abort db i ∨ ∃ j, db.jobs.free i k = true ∧ db.jobs.read i k = some j ∧ p j = true
      ∧ r = (db.writeJob i (f j), next) := by
  obtain ⟨row, hfree, hread, rfl⟩ := map_await_eq_some h
  split
  · exact .inl rfl
  next j hj =>
  obtain ⟨hsome, hp⟩ := filter_eq_some_iff.mp hj
  exact .inr ⟨j, hfree, hread.trans hsome, hp, rfl⟩

theorem releaseLedger_cases (h : releaseLedger db i k now = some r) :
    (r = (db, .commit) ∧ ∀ j, db.jobs.read i k = some j →
      j.state.isTerminal = true → (db.ledger.read i k).isSome = true)
    ∨ (db.ledger.free i k = true ∧ db.ledger.read i k = none
      ∧ r = (db.writeLedger i ⟨k.1, k.2, now⟩, .releaseUsage k.1)) := by
  rw [releaseLedger] at h
  split at h
  · obtain ⟨row, hfree, hread, rfl⟩ := map_await_eq_some h
    cases row with
    | none => exact .inr ⟨hfree, hread, rfl⟩
    | some l => exact .inl ⟨rfl, fun _ _ _ => by rw [hread]; rfl⟩
  · next hlive =>
    refine .inl ⟨(some.inj h).symm, fun j hj hterm => ?_⟩
    rw [hj] at hlive
    exact absurd hterm hlive

theorem giveUp_cons_cases {cutoff : Int} {seen ks failed : List Key}
    (h : giveUp db i now cutoff seen (k :: ks) failed = some r) :
    r = (db, .giveUp now cutoff seen ks failed)
    ∨ ∃ j, db.jobs.free i k = true ∧ db.jobs.read i k = some j
      ∧ ((j.stale cutoff seen = true ∧ r = (db.writeJob i (j.giveUp now),
          .giveUp now cutoff seen ks (failed ++ [k])))
        ∨ r = (db.writeJob i j, .giveUp now cutoff seen ks failed)) := by
  obtain ⟨row, hfree, hread, rfl⟩ := map_await_eq_some h
  cases row with
  | none => exact .inl rfl
  | some j =>
    refine .inr ⟨j, hfree, hread, ?_⟩
    cases hs : j.stale cutoff seen with
    | true => exact .inl ⟨rfl, by simp [hs]⟩
    | false => exact .inr (by simp [hs])

theorem recordReleases_cons_cases {ks : List Key} (h : recordReleases db i now (k :: ks) = some r) :
    ((db.ledger.read i k).isSome = true ∧ r = (db, .recordReleases now ks))
    ∨ (db.ledger.free i k = true ∧ r = (db.writeLedger i ⟨k.1, k.2, now⟩,
        .recordReleases now ks)) := by
  obtain ⟨row, hfree, hread, rfl⟩ := map_await_eq_some h
  cases row with
  | none => exact .inr ⟨hfree, rfl⟩
  | some l => exact .inl ⟨by rw [hread]; rfl, rfl⟩

/-- What a step does to the tables, a commit apart. -/
inductive Quiet (db : Db) (i : Nat) : Db → Prop where
  | same : Quiet db i db
  | job (j : JobRow) (hfree : db.jobs.free i j.key = true) :
      Quiet db i (db.writeJob i j)
  | ledger (l : LedgerRow) (hfree : db.ledger.free i l.key = true) :
      Quiet db i (db.writeLedger i l)
  | usage (u : UsageRow) (hfree : db.usage.free i u.organizationId = true) :
      Quiet db i (db.writeUsage i u)
  | rollback : Quiet db i (db.rollback i)

theorem quiet_updateUsage {o : String} {f : UsageRow → UsageRow}
    (hf : ∀ u, (f u).organizationId = u.organizationId)
    (h : updateUsage db i o f next = some r) : Quiet db i r.1 := by
  rcases updateUsage_cases h with ⟨-, rfl⟩ | ⟨u, hfree, hread, rfl⟩
  · exact .same
  refine .usage _ ?_
  rw [hf, key_of_read hread]
  exact hfree

theorem quiet_startUpdate (h : startUpdate db i k p next = some r) : Quiet db i r.1 := by
  rcases startUpdate_cases h with rfl | rfl
  · exact .rollback
  · exact .same

theorem quiet_finishUpdate {f : JobRow → JobRow} (hf : ∀ j, (f j).key = j.key)
    (h : finishUpdate db i k p f next = some r) : Quiet db i r.1 := by
  rcases finishUpdate_cases h with rfl | ⟨j, hfree, hread, -, rfl⟩
  · exact .rollback
  refine .job _ ?_
  rw [hf, key_of_read hread]
  exact hfree

theorem quiet_giveUp {cutoff : Int} {seen waiting failed : List Key}
    (h : giveUp db i now cutoff seen waiting failed = some r) :
    Quiet db i r.1 := by
  cases waiting with
  | nil =>
    cases h
    exact .same
  | cons k ks =>
    rcases giveUp_cons_cases h with
      rfl | ⟨j, hfree, hread, ⟨-, rfl⟩ | rfl⟩
    · exact .same
    · refine .job _ ?_
      rw [JobRow.giveUp_key, key_of_read hread]
      exact hfree
    refine .job _ ?_
    rw [key_of_read hread]
    exact hfree

theorem quiet_recordReleases {failed : List Key}
    (h : recordReleases db i now failed = some r) : Quiet db i r.1 := by
  cases failed with
  | nil =>
    cases h
    exact .same
  | cons k ks =>
    rcases recordReleases_cons_cases h with ⟨-, rfl⟩ | ⟨hfree, rfl⟩
    · exact .same
    · exact .ledger _ hfree

/-- **WHAT A STEP DOES**: a commit, or at most one row that was free. -/
theorem taskStep_quiet {t : Tx} {reply : Reply} (h : taskStep db i t reply = some r) :
    (t = .commit ∧ r = (db.commit i, .committed)) ∨ Quiet db i r.1 := by
  cases t with
  | lockUsage input =>
    rcases lockUsage_cases h with rfl | ⟨policy, u, hfree, hread, rfl⟩
    · exact .inr .rollback
    refine .inr (.usage u ?_)
    rw [key_of_read hread]
    exact hfree
  | insertJob input policy usage =>
    rcases insertJob_cases h with rfl | rfl | ⟨_, _, hfree, -, rfl⟩
    · exact .inr .rollback
    · exact .inr .same
    · exact .inr (.job _ hfree)
  | chargeUsage input period startedAt =>
    exact .inr (quiet_updateUsage (UsageRow.charge_key 1 period startedAt) h)
  | cancelQueued k now | applyEvent e u now =>
    exact .inr (quiet_startUpdate h)
  | cancelWait k now =>
    exact .inr (quiet_finishUpdate (JobRow.cancelQueued_key now) h)
  | applyWait e u now =>
    exact .inr (quiet_finishUpdate (u.write_key e now) h)
  | releaseLedger k now =>
    rcases releaseLedger_cases h with ⟨rfl, -⟩ | ⟨hfree, -, rfl⟩
    · exact .inr .same
    · exact .inr (.ledger _ hfree)
  | releaseUsage o =>
    exact .inr (quiet_updateUsage UsageRow.release_key h)
  | findStale now staleAfterMs seen | recount | zero =>
    cases h
    exact .inr .same
  | giveUp now cutoff seen waiting failed => exact .inr (quiet_giveUp h)
  | recordReleases now failed => exact .inr (quiet_recordReleases h)
  | recountWait actual =>
    cases actual with
    | nil =>
      cases h
      exact .inr .same
    | cons c rest => exact .inr (quiet_updateUsage (correct_key c.2) h)
  | zeroWait organizations =>
    cases organizations with
    | nil =>
      cases h
      exact .inr .same
    | cons o rest => exact .inr (quiet_updateUsage (correct_key 0) h)
  | commit => exact .inl ⟨rfl, (some.inj h).symm⟩
  | committed | rolledBack => cases h

end Steps

end QuotaRepair
