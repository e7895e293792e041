import NagisaLake.HistoryProofs
import NagisaLake.QuotaProofs

/-! # Runs of the store — jobs and limits

`Written` lists what a transaction may do to the row of a job.  Read along a
run it says that a job only moves forward and stays with its worker.  The
live jobs of an organization only grow by an admission, which has read the
limit. -/

namespace StoreRuns

open Jobs KeyedTable Runs Transactions HubStore History Quota Table List

/-! ## One way -/

/-- How far a job has come; the terminal states are one stage. -/
def stage : JobState → Nat
  | .queued => 0
  | .received => 1
  | .accepted => 2
  | .running => 3
  | .uploading => 4
  | .completed | .failed | .cancelled => 5

/-- A later row of the same job. -/
structure Forward (j j' : JobRow) : Prop where
  stage : stage j.state ≤ stage j'.state
  attempt : j'.attempt = j.attempt
  worker : j.state ≠ .queued → j'.workerId = j.workerId
    ∧ j'.workerOrganizationId = j.workerOrganizationId

section Rows

variable {i j j' : JobRow} {s t : Store}

theorem Forward.refl (j : JobRow) : Forward j j :=
  ⟨Nat.le_refl _, rfl, fun _ => ⟨rfl, rfl⟩⟩

/-- Only the backlog is stage zero. -/
theorem queued_iff_stage (state : JobState) : state = .queued ↔ StoreRuns.stage state = 0 := by
  cases state <;> decide

theorem Forward.left (h : Forward j j') (hq : j.state ≠ .queued) : j'.state ≠ .queued := by
  have hstage := h.stage
  rw [Ne, queued_iff_stage] at hq ⊢
  omega

theorem Forward.trans (h₁ : Forward i j) (h₂ : Forward j j') : Forward i j' where
  stage := h₁.stage.trans h₂.stage
  attempt := h₂.attempt.trans h₁.attempt
  worker := by
    intro hq
    obtain ⟨hworker, horg⟩ := h₂.worker (h₁.left hq)
    exact ⟨hworker.trans (h₁.worker hq).1, horg.trans (h₁.worker hq).2⟩

/-- A terminal state is the last stage. -/
theorem stage_le_of_terminal {state next : JobState} (h : next.isTerminal = true) :
    stage state ≤ stage next := by
  revert h
  cases next <;> cases state <;> decide

/-- Both transition tables lead forward. -/
theorem JobEventUpdate.stage_le (u : JobEventUpdate) : stage u.expectedState ≤ stage u.state := by
  have hallowed := u.allowed
  revert hallowed
  cases u.expectedState <;> cases u.state <;> decide

theorem forward_of_written (h : Written j j') : Forward j j' := by
  cases h with
  | same => exact Forward.refl j
  | bound _ _ _ _ hq | cancelled _ hq =>
    refine ⟨?_, rfl, fun hno => absurd hq hno⟩
    rw [hq]
    exact Nat.zero_le _
  | settled u hexp =>
    refine ⟨?_, rfl, fun _ => ⟨rfl, rfl⟩⟩
    rw [ConditionalJobUpdate.write]
    cases hstate : u.state with
    | none => exact Nat.le_refl _
    | some next => exact stage_le_of_terminal (u.state_terminal next hstate)
  | moved u e now hexp =>
    refine ⟨?_, rfl, fun _ => ⟨rfl, rfl⟩⟩
    rw [JobEventUpdate.state_of_expects hexp]
    exact JobEventUpdate.stage_le u
  | givenUp => exact ⟨stage_le_of_terminal rfl, rfl, fun _ => ⟨rfl, rfl⟩⟩
  | rebound => exact ⟨Nat.le_refl _, rfl, fun _ => ⟨rfl, rfl⟩⟩

/-- Every job is still there, and has moved forward. -/
def Advances (s t : Store) : Prop :=
  ∀ k j, s.jobs.find? k = some j → ∃ j', t.jobs.find? k = some j' ∧ Forward j j'

theorem advances_step {a : Act} (h : History.step s a = some t) : Advances s t := by
  have hrewrites : Rewrites s.jobs t.jobs := by
    cases a with
    | perform op =>
      cases h
      exact rewrites_perform s op
    | rebindJobSession k attempt expected sessionId now =>
      cases h
      exact inv_getD (I := fun t => Rewrites s.jobs t.jobs) (rewrites_refl _)
        fun _ hok => rewrites_of_related (related_rebind hok)
  intro k j hj
  obtain ⟨j', hj', hw⟩ := hrewrites.forth k j hj
  exact ⟨j', hj', forward_of_written hw⟩

/-- **ONE WAY**: whatever transactions run, no job is lost, goes back a stage, changes its attempt
    or, once it has left the backlog, its worker. -/
theorem forward_only (s : Store) (as : List Act) : Along History.step (Advances s) s as := by
  refine inv_along_admitted (fun _ _ _ hI _ hstep k i hi => ?_) as s
    (fun _ j hj => ⟨j, hj, Forward.refl j⟩) (admitted_true as s)
  obtain ⟨j, hj, hij⟩ := hI k i hi
  obtain ⟨j', hj', hjj'⟩ := advances_step hstep k j hj
  exact ⟨j', hj', hij.trans hjj'⟩

end Rows

/-! ## The limit -/

/-- A transaction, or a write to `quota_policies`. -/
inductive QuotaAct where
  | perform (op : StoreOp)
  | policies (next : Table String PolicyRow PolicyRow.organizationId)

def quotaStep (s : Store) : QuotaAct → Option Store
  | .perform op => some (perform s op)
  | .policies next => some { s with policies := next }

/-- No policy of the organization allows more. -/
def Allows (o : String) (limit : Int) (s : Store) : Prop :=
  ∀ p, s.policies.find? o = some p → p.maxConcurrentJobs ≤ limit

/-- The organization has so many live jobs at the most. -/
def Within (o : String) (limit : Int) (s : Store) : Prop := s.jobs.count (liveOf o) ≤ limit

section Limit

variable {s t : Store} {o o' : String} {limit : Int}

/-- An admission stays within the limit it has read. -/
theorem live_charge {n : Int} (ht : QuotaInv t) (hallows : Allows o limit s)
    (hlive : Within o limit s) (hcharged : Charged s t o' n)
    (hother : o' ≠ o → t.jobs.count (liveOf o) = s.jobs.count (liveOf o)) : Within o limit t := by
  by_cases ho : o' = o
  · subst ho
    obtain ⟨p, u, hp, hrow, hle⟩ := withinLimit_of_charged hcharged
    have hcount := ht.counter _ (mem_of_find? hrow)
    rw [show u.organizationId = o' from key_of_find? hrow] at hcount
    rw [Within, ← hcount]
    exact hle.trans (hallows p hp)
  · rw [Within, hother ho]
    exact hlive

theorem liveOf_of_written {j j' : JobRow} (h : Written j j') (hlive : liveOf o j' = true) :
    liveOf o j = true := by
  have horg : j'.organizationId = j.organizationId := by cases h <;> rfl
  rw [liveOf, horg, Bool.and_eq_true] at hlive
  rw [liveOf, hlive.1, Bool.true_and, JobRow.live]
  cases hterm : j.state.isTerminal with
  | false => rfl
  | true =>
    rw [JobRow.live, (onward_of_written h).terminal hterm, hterm] at hlive
    cases hlive.2

/-- **ONE TRANSACTION** adds live jobs only within the limit. -/
theorem live_perform {op : StoreOp} (hs : QuotaInv s) (hallows : Allows o limit s)
    (hlive : Within o limit s) : Within o limit (perform s op) := by
  cases hop : inserts op with
  | false =>
    have hle := (related_perform s hop).count_le (q := liveOf o) fun _ _ hw => liveOf_of_written hw
    exact (Int.ofNat_le.mpr hle).trans hlive
  | true =>
    cases op with
    | commitNewJob input idem adm =>
      refine inv_commit hlive fun t r hok => ?_
      have ht := quotaInv_commitNewJob hs hok
      rcases commitNewJob_ok hok with ⟨rfl, -⟩ | ⟨-, hnew⟩
      · exact hlive
      refine live_charge ht hallows hlive hnew.charged fun ho => ?_
      rw [count_insert hnew.jobs]
      simp [liveOf, JobUpsert.row, ho]
    | commitNewBatch batch children shared idem adm now =>
      refine inv_commit hlive fun t r hok => ?_
      have ht := quotaInv_commitNewBatch hs hok
      rcases commitNewBatch_ok hok with ⟨rfl, -⟩ | ⟨-, hnew⟩
      · exact hlive
      refine live_charge ht hallows hlive hnew.charged fun ho => ?_
      exact ((inserted_children hnew.children).count o).trans (by rw [if_neg ho]; rfl)
    | _ => cases hop

/-- **WITHIN THE LIMIT**: along every run from a store without jobs, policies being changed on the
    way, an organization never has more live jobs than its policy has allowed at the most. -/
theorem live_within_limit {s₀ : Store} (h : Fresh s₀) (hlimit : 0 ≤ limit) {as : List QuotaAct}
    (hallows : Admitted quotaStep (fun s _ => Allows o limit s) s₀ as) :
    Along quotaStep (Within o limit) s₀ as := by
  refine Along.mono (fun _ h => h.2) as s₀ (inv_along_admitted
    (I := fun s => QuotaInv s ∧ Within o limit s)
    ?_ as s₀ ⟨quotaInv_fresh h, ?_⟩ hallows)
  · rintro s a t ⟨hs, hlive⟩ hallow hstep
    cases a with
    | perform op =>
      cases hstep
      exact ⟨quotaInv_step hs rfl, live_perform hs hallow hlive⟩
    | policies next =>
      cases hstep
      exact ⟨hs.congr rfl rfl rfl, hlive⟩
  · rw [Within, h.jobs]
    exact hlimit

end Limit

/-- A job is admitted under a limit of two. -/
theorem sampleJob_within : Along quotaStep (Within "org" 2) sampleStore
    [.perform (.commitNewJob sampleJob none (.ok ()))] :=
  live_within_limit sampleStore_fresh (by decide) ⟨by rintro p ⟨⟩; decide, fun _ _ => trivial⟩

end StoreRuns
