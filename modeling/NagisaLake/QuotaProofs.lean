import NagisaLake.RunProofs
import NagisaLake.StoreProofs

/-! # The concurrency quota — the counter is the number of live jobs

`quota_usage.active_jobs` is charged when jobs are submitted and released
when they end, in five different transactions and by the reconciler.  What
keeps the two in step is the ledger: a job has its `concurrency_release`
row exactly when it is terminal, and the counter moves only with the first
such row.  With that, the clamp `GREATEST(0, …)` never acts and releasing a
job again does nothing. -/

namespace Quota

open Jobs KeyedTable Runs Transactions HubStore Table Option

/-- The job exists and has ended. -/
def Terminal (jobs : Table Key JobRow JobRow.key) (k : Key) : Prop :=
  ∃ j, jobs.find? k = some j ∧ j.state.isTerminal = true

/-- Counter and ledger agree with the jobs. -/
structure QuotaInv (s : Store) : Prop where
  counter : ∀ u ∈ s.usage.rows, u.activeJobs = (s.jobs.count (liveOf u.organizationId) : Int)
  ledger : ∀ k, (s.ledger.find? k).isSome = true ↔ Terminal s.jobs k

variable {s t : Store} {idem : Option IdempotencyRow}
  {adm : Except StoreError Unit} {now : Int}

/-- Only three tables matter. -/
theorem QuotaInv.congr (h : QuotaInv s) (hjobs : t.jobs = s.jobs)
    (husage : t.usage = s.usage) (hledger : t.ledger = s.ledger) :
    QuotaInv t where
  counter := by
    rw [hjobs, husage]
    exact h.counter
  ledger := by
    rw [hjobs, hledger]
    exact h.ledger

theorem quotaInv_fresh (h : Fresh s) : QuotaInv s where
  counter := by
    intro u hu
    rw [h.jobs, h.usage u hu]
    rfl
  ledger := by
    intro k
    rw [h.jobs, h.ledger]
    constructor
    · exact nofun
    · rintro ⟨j, hj, -⟩
      cases hj

/-! ## One job moves -/

section Move

variable {s t : Store} {k : Key} {p : JobRow → Bool} {f : JobRow → JobRow}
  {hf : ∀ r, (f r).key = r.key} {jobs : Table Key JobRow JobRow.key}
  {j : JobRow}

theorem organizationId_of_key (hf : ∀ r, (f r).key = r.key) (j : JobRow) :
    (f j).organizationId = j.organizationId :=
  congrArg Prod.fst (hf j)

/-- A move that neither ends a job nor revives one. -/
theorem quotaInv_move (h : QuotaInv s)
    (hup : s.jobs.updateKey k p f hf = some jobs) (hj : s.jobs.find? k = some j)
    (hsame : (f j).state.isTerminal = j.state.isTerminal)
    (hjobs : t.jobs = jobs) (husage : t.usage = s.usage)
    (hledger : t.ledger = s.ledger) : QuotaInv t where
  counter := by
    intro u hu
    rw [husage] at hu
    rw [hjobs, h.counter u hu]
    have hcount := count_updateKey hup hj (liveOf u.organizationId)
    have hlive : liveOf u.organizationId (f j) = liveOf u.organizationId j := by
      rw [liveOf, liveOf, organizationId_of_key hf, JobRow.live, JobRow.live, hsame]
    rw [hlive] at hcount
    omega
  ledger := by
    intro k'
    rw [hledger, hjobs, h.ledger, Terminal, Terminal, find?_updateKey hup hj]
    by_cases hk : k' = k
    · rw [if_pos hk, hk, hj]
      simp [hsame]
    · rw [if_neg hk]

/-- A live job has no ledger row. -/
theorem ledger_none_of_live (h : QuotaInv s) (hj : s.jobs.find? k = some j)
    (hlive : j.state.isTerminal = false) : s.ledger.find? k = none := by
  cases hl : s.ledger.find? k with
  | none => rfl
  | some row =>
    obtain ⟨j', hj', hterm⟩ := (h.ledger k).mp (by rw [hl]; rfl)
    cases hj.symm.trans hj'
    rw [hlive] at hterm
    exact Bool.noConfusion hterm

/-- **A JOB ENDS**: the state change and the release, in one transaction. -/
theorem quotaInv_finish (h : QuotaInv s) (now : Int)
    (hup : s.jobs.updateKey k p f hf = some jobs) (hj : s.jobs.find? k = some j)
    (hlive : j.state.isTerminal = false)
    (hterm : (f j).state.isTerminal = true)
    (hjobs : t.jobs = jobs) (husage : t.usage = s.usage)
    (hledger : t.ledger = s.ledger) :
    QuotaInv (releaseJobForTerminal t k now) := by
  have hfind := find?_updateKey hup hj
  have hexists : t.jobs.exists? (fun j => decide (j.key = k) && j.state.isTerminal) = true := by
    rw [hjobs, exists?_iff]
    have hk : jobs.find? k = some (f j) := by
      rw [hfind, if_pos rfl]
    refine ⟨f j, mem_of_find? hk, ?_⟩
    rw [key_of_find? hk, hterm]
    simp
  obtain ⟨ledger, hins⟩ := exists_insert (r := (⟨k.1, k.2, now⟩ : LedgerRow))
    (show t.ledger.find? k = none by
      rw [hledger]
      exact ledger_none_of_live h hj hlive)
  rw [releaseJobForTerminal, if_pos hexists, hins]
  refine ⟨?_, ?_⟩
  · intro u' hu'
    change u' ∈ (t.usage.update (fun u => decide (u.organizationId = k.1))
      UsageRow.release UsageRow.release_key).rows at hu'
    obtain ⟨u, hu, rfl⟩ := mem_update.mp hu'
    rw [husage] at hu
    have hactive := h.counter u hu
    have hcount := count_updateKey hup hj (liveOf u.organizationId)
    have horg : j.organizationId = k.1 :=
      congrArg Prod.fst (key_of_find? hj)
    have hdead : liveOf u.organizationId (f j) = false := by
      rw [liveOf, JobRow.live, hterm, Bool.not_true, Bool.and_false]
    rw [hdead] at hcount
    by_cases hu₁ : u.organizationId = k.1
    · have hwas : liveOf u.organizationId j = true := by
        rw [liveOf, JobRow.live, hlive, horg, hu₁]
        simp
      rw [hwas] at hcount
      simp only [hu₁, decide_true, if_true, UsageRow.release, hjobs]
      rw [hu₁] at hcount hactive
      simp only [if_true, Bool.false_eq_true, if_false] at hcount
      omega
    · have hwas : liveOf u.organizationId j = false := by
        have hne : ¬ k.1 = u.organizationId := fun e => hu₁ e.symm
        rw [liveOf, horg]
        simp [hne]
      rw [hwas] at hcount
      simp only [hu₁, decide_false, Bool.false_eq_true, if_false, hjobs] at hcount ⊢
      omega
  · intro k'
    rw [find?_insert hins, hjobs, Terminal, hfind]
    by_cases hk : k' = k
    · rw [if_pos hk, show LedgerRow.key ⟨k.1, k.2, now⟩ = k from rfl, if_pos hk.symm]
      simp [hterm]
    rw [if_neg hk, show LedgerRow.key ⟨k.1, k.2, now⟩ = k from rfl,
      if_neg fun e => hk e.symm, hledger]
    exact h.ledger k'

end Move

/-- Releasing a job again, or one that has not ended, does nothing. -/
theorem releaseJobForTerminal_eq (h : QuotaInv s) (k : Key) (now : Int) :
    releaseJobForTerminal s k now = s := by
  rw [releaseJobForTerminal]
  split
  · next hexists =>
    obtain ⟨j, hj, hp⟩ := exists?_iff.mp hexists
    rw [Bool.and_eq_true, decide_eq_true_eq] at hp
    have hfind : s.jobs.find? k = some j :=
      find?_eq_some_iff.mpr ⟨hj, hp.1⟩
    have hsome := (h.ledger k).mpr ⟨j, hfind, hp.2⟩
    split
    · next ledger hins =>
      have hnone := (insert_eq_some_iff.mp hins).1
      rw [show LedgerRow.key ⟨k.1, k.2, now⟩ = k from rfl] at hnone
      rw [hnone] at hsome
      exact Bool.noConfusion hsome
    · rfl
  · rfl

/-! ## New jobs -/

/-- New live jobs, and as many more on the counter of their organization. -/
theorem quotaInv_charge {o : String} {n : Nat} (h : QuotaInv s)
    (hcount : ∀ o', t.jobs.count (liveOf o') = s.jobs.count (liveOf o') + if o = o' then n else 0)
    (hterm : ∀ k, Terminal t.jobs k ↔ Terminal s.jobs k)
    (hcharged : Charged s t o n) (hledger : t.ledger = s.ledger) : QuotaInv t where
  counter := by
    intro u' hu'
    obtain ⟨-, -, period, startedAt, -, -, -, husage⟩ := hcharged
    rw [husage, chargeUsage] at hu'
    obtain ⟨u, hu, rfl⟩ := mem_update.mp hu'
    have hactive := h.counter u hu
    by_cases ho : u.organizationId = o
    · simp only [ho, decide_true, if_true, UsageRow.charge]
      rw [hcount, if_pos rfl, ← ho]
      omega
    simp only [ho, decide_false, Bool.false_eq_true, if_false]
    rw [hcount, if_neg fun e => ho e.symm]
    omega
  ledger := by
    intro k
    rw [hledger, hterm]
    exact h.ledger k

/-- A new live job ends no job. -/
theorem terminal_insert {jobs jobs' : Table Key JobRow JobRow.key}
    {j : JobRow} (hins : jobs.insert j = some jobs')
    (hlive : j.state.isTerminal = false) (k : Key) :
    Terminal jobs' k ↔ Terminal jobs k := by
  have hnone := (insert_eq_some_iff.mp hins).1
  rw [Terminal, Terminal, find?_insert hins]
  by_cases hk : j.key = k
  · rw [if_pos hk, ← hk, hnone]
    simp [hlive]
  · rw [if_neg hk]

theorem quotaInv_commitNewJob {input : JobUpsert} {r : CommitResult}
    (h : QuotaInv s) (hok : commitNewJob s input idem adm = .ok (t, r)) :
    QuotaInv t := by
  rcases commitNewJob_ok hok with ⟨rfl, -⟩ | ⟨-, hnew⟩
  · exact h
  refine quotaInv_charge (n := 1) h (fun o => ?_) (terminal_insert hnew.jobs rfl) hnew.charged
    hnew.ledger
  rw [count_insert hnew.jobs]
  by_cases ho : input.organizationId = o
  · simp [liveOf, JobRow.live, JobUpsert.row, JobState.isTerminal, ho]
  · simp [liveOf, JobUpsert.row, ho]

theorem quotaInv_commitNewBatch {batch : BatchRow}
    {children : List BatchChildJob} {shared : List String} {r : CommitResult}
    (h : QuotaInv s)
    (hok : commitNewBatch s batch children shared idem adm now = .ok (t, r)) :
    QuotaInv t := by
  rcases commitNewBatch_ok hok with ⟨rfl, -⟩ | ⟨-, hnew⟩
  · exact h
  have hins := inserted_children hnew.children
  refine quotaInv_charge h hins.count (fun k => ?_) hnew.charged hnew.ledger
  constructor
  · rintro ⟨j, hj, hterm⟩
    rcases hins.new k j hj with hold | ⟨-, hq, -⟩
    · exact ⟨j, hold, hterm⟩
    · rw [hq] at hterm
      exact Bool.noConfusion hterm
  · rintro ⟨j, hj, hterm⟩
    exact ⟨j, hins.old k j hj, hterm⟩

/-! ## Reconciliation -/

/-- The ledger after the jobs given up have been recorded. -/
theorem find?_recordReleases (now : Int) (k : Key) :
    ∀ (js : List JobRow) (ledger : Table Key LedgerRow LedgerRow.key),
      ((recordReleases now ledger js).find? k).isSome = true
        ↔ (ledger.find? k).isSome = true ∨ ∃ j ∈ js, j.key = k := by
  intro js
  induction js with intro ledger
  | nil =>
    simp [recordReleases]
  | cons j js ih =>
    rw [recordReleases, ih, find?_upsert,
      show LedgerRow.key ⟨j.organizationId, j.id, now⟩ = j.key from rfl]
    by_cases hk : j.key = k
    · simp [hk]
    · simp [hk]

/-- The two corrections leave the count in every row. -/
theorem activeJobs_corrected (actual : String → Nat)
    (usage : Table String UsageRow UsageRow.organizationId) :
    ∀ u ∈ ((usage.update (fun u => decide (actual u.organizationId ≠ 0)
          && decide (u.activeJobs ≠ actual u.organizationId))
        (fun u => { u with activeJobs := actual u.organizationId })
        fun _ => rfl).update
        (fun u => decide (u.activeJobs ≠ 0) && decide (actual u.organizationId = 0))
        (fun u => { u with activeJobs := 0 }) fun _ => rfl).rows,
      u.activeJobs = (actual u.organizationId : Int) := by
  intro u₂ hu₂
  obtain ⟨u₁, hu₁, rfl⟩ := mem_update.mp hu₂
  obtain ⟨u, hu, rfl⟩ := mem_update.mp hu₁
  by_cases hz : actual u.organizationId = 0
  · by_cases ha : u.activeJobs = 0
    · simp [hz, ha]
    · simp [hz, ha]
  by_cases ha : u.activeJobs = actual u.organizationId
  · simp [hz, ha]
  · simp [hz, ha]

/-- Giving jobs up ends exactly them. -/
theorem terminal_giveUp (jobs : Table Key JobRow JobRow.key)
    (stale : JobRow → Bool) (now : Int) (k : Key) :
    Terminal (jobs.update stale (JobRow.giveUp now) (JobRow.giveUp_key now)) k
      ↔ Terminal jobs k ∨ ∃ j ∈ jobs.rows.filter stale, j.key = k := by
  rw [Terminal, Terminal, find?_update]
  constructor
  · rintro ⟨j', hj', hterm⟩
    obtain ⟨j, hj, rfl⟩ := map_eq_some_iff.mp hj'
    by_cases hs : stale j = true
    · obtain ⟨hmem, hkey⟩ := find?_eq_some_iff.mp hj
      exact .inr ⟨j, List.mem_filter.mpr ⟨hmem, hs⟩, hkey⟩
    · rw [if_neg hs] at hterm
      exact .inl ⟨j, hj, hterm⟩
  · rintro (⟨j, hj, hterm⟩ | ⟨j, hj, hkey⟩)
    · refine ⟨_, by rw [hj]; rfl, ?_⟩
      by_cases hs : stale j = true
      · simp only [hs, if_true]
        rfl
      · simp only [hs, if_false, Bool.false_eq_true]
        exact hterm
    · obtain ⟨hmem, hs⟩ := List.mem_filter.mp hj
      have hfind : jobs.find? k = some j :=
        find?_eq_some_iff.mpr ⟨hmem, hkey⟩
      refine ⟨_, by rw [hfind]; rfl, ?_⟩
      simp only [hs, if_true]
      rfl

section

variable (h : QuotaInv s)
include h

theorem quotaInv_reconcile (now staleAfterMs : Int) (seen : Int → List Key) :
    QuotaInv (reconcileActiveJobQuota s now staleAfterMs seen).1 where
  counter := activeJobs_corrected (fun o => count _ (liveOf o)) _
  ledger := by
    intro k
    rw [reconcileActiveJobQuota]
    rw [find?_recordReleases, terminal_giveUp, h.ledger]

/-! ## Every transaction -/

theorem quotaInv_bind {k : Key} {o w i : String} (hok : bindQueuedJob s k o w i now = some t) :
    QuotaInv t := by
  obtain ⟨hrow, -, -, husage, hledger, -⟩ := bindQueuedJob_some hok
  obtain ⟨j, hj, hq, -⟩ := updateKey_eq_some hrow.jobs
  refine quotaInv_move h hrow.jobs hj ?_ rfl husage hledger
  rw [JobRow.queued, decide_eq_true_eq] at hq
  rw [hq]
  rfl

theorem quotaInv_cancelQueued {k : Key} (hok : cancelQueuedJob s k now = some t) : QuotaInv t := by
  obtain ⟨jobs, hup, rfl⟩ := map_eq_some_iff.mp hok
  obtain ⟨j, hj, hq, -⟩ := updateKey_eq_some hup
  rw [JobRow.queued, decide_eq_true_eq] at hq
  exact quotaInv_finish h now hup hj (by rw [hq]; rfl) rfl rfl rfl rfl

theorem quotaInv_updateJobIfCurrent {u : ConditionalJobUpdate}
    (hok : updateJobIfCurrent s u = some t) :
    QuotaInv t := by
  obtain ⟨jobs, hup, rfl⟩ := map_eq_some_iff.mp hok
  obtain ⟨j, hj, hexp, -⟩ := updateKey_eq_some hup
  have hlive : j.state.isTerminal = false := by
    rw [ConditionalJobUpdate.expects] at hexp
    simp only [Bool.and_eq_true, decide_eq_true_eq] at hexp
    rw [hexp.1.2]
    exact u.expected_live
  cases hstate : u.state with
  | none =>
    refine quotaInv_move h hup hj ?_ rfl rfl rfl
    rw [ConditionalJobUpdate.write, hstate]
    rfl
  | some next =>
    have hterm := u.state_terminal next hstate
    rw [any_some, if_pos hterm]
    refine quotaInv_finish h u.now hup hj hlive ?_ rfl rfl rfl
    rw [ConditionalJobUpdate.write, hstate]
    exact hterm

theorem quotaInv_applyJobEvent {e : EventRow} {u : JobEventUpdate} {b : Bool}
    (hok : applyJobEvent s e u now = .ok (t, b)) :
    QuotaInv t := by
  rw [applyJobEvent] at hok
  split at hok
  · cases hok
  next events hev =>
  split at hok
  · cases hok
    exact h
  next jobs hup =>
  obtain ⟨j, hj, hexp, -⟩ := updateKey_eq_some hup
  have hstate := JobEventUpdate.state_of_expects hexp
  split at hok
  · next hterm =>
    cases hok
    cases hwas : j.state.isTerminal with
    | false => exact quotaInv_finish h now hup hj hwas hterm rfl rfl rfl
    | true =>
      have hmoved : QuotaInv { s with
          events := events, jobs := jobs } :=
        quotaInv_move h hup hj (hterm.trans hwas.symm) rfl rfl rfl
      rw [releaseJobForTerminal_eq hmoved]
      exact hmoved
  · next hterm =>
    cases hok
    refine quotaInv_move h hup hj ?_ rfl rfl rfl
    rw [Bool.not_eq_true] at hterm
    cases hwas : j.state.isTerminal with
    | false => exact hterm
    | true =>
      rw [hstate] at hwas
      rw [u.state_eq hwas, hwas] at hterm
      cases hterm

/-- **ONE TRANSACTION** keeps counter and ledger in step with the jobs. -/
theorem quotaInv_step {op : StoreOp} (hstep : step s op = some t) : QuotaInv t := by
  cases hstep
  cases op with
  | commitNewJob input idem adm =>
    exact inv_commit h fun _ _ hok => quotaInv_commitNewJob h hok
  | commitNewBatch batch children shared idem adm now =>
    exact inv_commit h fun _ _ hok => quotaInv_commitNewBatch h hok
  | claimDispatchQueueJob owner seconds now locked =>
    rw [perform, claimDispatchQueueJob]
    split
    · exact h
    · exact h.congr rfl rfl rfl
  | bindQueuedJob k o w i now => exact inv_getD h fun _ hok => quotaInv_bind h hok
  | cancelQueuedJob k now => exact inv_getD h fun _ hok => quotaInv_cancelQueued h hok
  | updateJobIfCurrent u => exact inv_getD h fun _ hok => quotaInv_updateJobIfCurrent h hok
  | applyJobEvent e u now =>
    exact inv_commit h fun _ _ hok => quotaInv_applyJobEvent h hok
  | releaseJobForTerminal k now =>
    rw [perform, releaseJobForTerminal_eq h]
    exact h
  | reconcileActiveJobQuota now staleAfterMs seen =>
    exact quotaInv_reconcile h now staleAfterMs seen

end

/-! ## The limit -/

/-- The usage row of the organization after `n` more jobs. -/
theorem find?_charge {o : String} {u : UsageRow} {n period startedAt : Int}
    (hu : s.usage.find? o = some u) :
    (chargeUsage s.usage o n period startedAt).find? o = some (u.charge n period startedAt) := by
  rw [chargeUsage, find?_update, hu]
  simp [show u.organizationId = o from key_of_find? hu]

/-- The counter of the organization is within the limit of the policy. -/
def WithinLimit (s t : Store) (o : String) : Prop :=
  ∃ p u, s.policies.find? o = some p ∧ t.usage.find? o = some u ∧ u.activeJobs ≤ p.maxConcurrentJobs

theorem withinLimit_of_charged {o : String} {n : Int} (h : Charged s t o n) :
    WithinLimit s t o := by
  obtain ⟨p, u, period, startedAt, hp, hu, hle, husage⟩ := h
  exact ⟨p, _, hp, by rw [husage, find?_charge hu], hle⟩

theorem withinLimit_commitNewJob {input : JobUpsert}
    (hok : commitNewJob s input idem adm = .ok (t, .created)) :
    WithinLimit s t input.organizationId :=
  withinLimit_of_charged (commitNewJob_created hok).charged

theorem withinLimit_commitNewBatch {batch : BatchRow}
    {children : List BatchChildJob} {shared : List String}
    (hok : commitNewBatch s batch children shared idem adm now
      = .ok (t, .created)) : WithinLimit s t batch.organizationId :=
  withinLimit_of_charged (commitNewBatch_created hok).charged

/-- **THE COUNTER IS EXACT**: after every sequence of transactions, `active_jobs`
    of every organization is the number of its live jobs, and a submission
    that succeeds there stays within the limit it read. -/
theorem active_jobs_exact {s₀ s : Store} (hfresh : Fresh s₀) (hreach : Reachable step s₀ s) :
    (∀ u ∈ s.usage.rows, u.activeJobs = (s.jobs.count (liveOf u.organizationId) : Int))
    ∧ (∀ input idem adm t, commitNewJob s input idem adm = .ok (t, .created) →
      WithinLimit s t input.organizationId)
    ∧ ∀ batch children shared idem adm now t, commitNewBatch s batch children shared idem adm now
        = .ok (t, .created) → WithinLimit s t batch.organizationId := by
  have hinv : QuotaInv s :=
    inv_reachable (fun _ _ _ h ht => quotaInv_step h ht) (quotaInv_fresh hfresh) hreach
  refine ⟨hinv.counter, ?_, ?_⟩
  · intro input idem adm t hok
    exact withinLimit_commitNewJob hok
  · intro batch children shared idem adm now t hok
    exact withinLimit_commitNewBatch hok

/-- One job for that organization. -/
def sampleJob : JobUpsert where
  organizationId := "org"
  id := "job"
  workflowId := "workflow"
  workflowVersion := "1"
  parameters := .object []
  inputArtifactIds := []
  workerId := "default/gpu"
  workerOrganizationId := "org"
  sessionId := "session"
  attempt := 1
  now := 1

/-- One submission: one live job, one on the counter. -/
theorem sampleJob_counted :
    let s := perform sampleStore (.commitNewJob sampleJob none (.ok ()))
    ∀ u ∈ s.usage.rows, u.activeJobs = (s.jobs.count (liveOf u.organizationId) : Int) :=
  (active_jobs_exact sampleStore_fresh ⟨[.commitNewJob sampleJob none (.ok ())], rfl⟩).1

/-- **RELEASED ONCE**: after every sequence of transactions the ledger has a row for a job exactly
    when the job has ended, and to release a job again changes nothing. -/
theorem released_once {s₀ s : Store} (hfresh : Fresh s₀) (hreach : Reachable step s₀ s) :
    (∀ k, (s.ledger.find? k).isSome = true ↔ Terminal s.jobs k)
    ∧ ∀ k now, releaseJobForTerminal s k now = s := by
  have hinv : QuotaInv s :=
    inv_reachable (fun _ _ _ h ht => quotaInv_step h ht) (quotaInv_fresh hfresh) hreach
  exact ⟨hinv.ledger, releaseJobForTerminal_eq hinv⟩

/-- The job is given up, and is released by that. -/
theorem sampleJob_released : ∃ s, Reachable step sampleStore s ∧ Terminal s.jobs ("org", "job")
    ∧ ∀ k now, releaseJobForTerminal s k now = s := by
  have hreach : Reachable step sampleStore _ := ⟨[.commitNewJob sampleJob none (.ok ()),
    .reconcileActiveJobQuota 10000 1000 fun _ => []], rfl⟩
  have h := released_once sampleStore_fresh hreach
  exact ⟨_, hreach, (h.1 _).mp rfl, h.2⟩

end Quota
