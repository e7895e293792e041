import NagisaLake.CapacityProofs

/-! # Exits — what a run of `execute` leaves behind

An accepted job is counted twice: by its `JobSlot`, which is dropped however
its task ends, and by its entry in the registry, which `execute` removes in
its last statement.  A task that panics does not come to that statement, and
the entry counts against `max_jobs` until the worker starts again
(`panic_refused`).  Without panics the two agree (`exits_restored`).

`activate` takes a slot off one counter and then adds it to the other, with
no lock around the two: in between it is on neither. -/

namespace Exits

open Runs Capacity List

/-- `register_job_inner`; the error is `CapacityExhausted`. -/
def registerJobInner (maxJobs : Nat) (r : WorkerRuntime) (jobId : String)
    (enforceCapacity : Bool) : Except Nat (Option WorkerRuntime) :=
  if jobId ∈ r.jobs then .ok none
  else if enforceCapacity = true ∧ maxJobs ≤ r.jobs.card then .error maxJobs
  else .ok (some (r.registerJob jobId))

/-- A panic at an await point of `execute`: the slot is dropped, `finish_job` is not called. -/
def unwind (r : WorkerRuntime) (i : Nat) : Option WorkerRuntime :=
  (r.slots[i]?).bind fun s => if s.finished then none
    else { r with slots := r.slots.set i { s with finished := true } }.dropSlot i

/-- What happens to the runtime: each change of the registry or of a counter is a step. -/
inductive Act where
  | registerJob (jobId : String)
  | restoreJob (jobId : String)
  /-- The slot `i` has its permit, and is taken off the queued ones. -/
  | activate (i : Nat)
  /-- It is added to the active ones. -/
  | activated (i : Nat)
  /-- `execute` returns: `finish_job`, and then the slot is dropped. -/
  | finishJob (i : Nat)
  | dropSlot (i : Nat)
  | panicked (i : Nat)

/-- The runtime after `register_job_inner`: a refusal changes nothing. -/
def register (maxJobs : Nat) (r : WorkerRuntime) (jobId : String) (enforceCapacity : Bool) :
    WorkerRuntime :=
  match registerJobInner maxJobs r jobId enforceCapacity with
  | .ok (some r') => r'
  | _ => r

def step (maxJobs : Nat) (r : WorkerRuntime) : Act → Option WorkerRuntime
  | .registerJob jobId => some (register maxJobs r jobId true)
  | .restoreJob jobId => some (register maxJobs r jobId false)
  | .activate i => r.activate i
  | .activated i => r.activated i
  | .finishJob i => r.finishJob i
  | .dropSlot i => r.dropSlot i
  | .panicked i => unwind r i

/-- No task panics. -/
def Calm (_ : WorkerRuntime) (a : Act) : Prop := ∀ i, a ≠ .panicked i

def idle : WorkerRuntime := ⟨∅, [], 0, 0, none⟩

/-- The tasks that have not ended. -/
def running (r : WorkerRuntime) : List JobSlot := r.slots.filter fun s => !s.finished

/-- Only tasks that have not ended stand in the way of a dispatch, and the
    counters count the slots, unless one is between them. -/
structure Restored (maxJobs : Nat) (r : WorkerRuntime) : Prop where
  accepted : ∀ jobId, registerJobInner maxJobs r jobId true = .ok none →
    ∃ s ∈ running r, s.jobId = jobId
  exhausted : ∀ jobId e, registerJobInner maxJobs r jobId true = .error e →
    maxJobs ≤ (running r).length
  counters : (∀ s ∈ r.slots, s.phase ≠ .moving) → r.activeJobs + r.queuedJobs = r.slots.length

/-- The counters count, and nobody is reading them. -/
structure Inv (r : WorkerRuntime) : Prop where
  counted : Counted r
  unread : r.loaded = none

section Steps

variable {maxJobs : Nat} {r r' : WorkerRuntime}

theorem Inv.restored (h : Inv r) : Restored maxJobs r where
  accepted jobId hnone := by
    obtain ⟨s, hs, hjob, hrun⟩ := h.counted.owned jobId (by
      by_contra hno
      rw [registerJobInner, if_neg hno] at hnone
      split at hnone <;> cases hnone)
    exact ⟨s, mem_filter.mpr ⟨hs, by simp [hrun]⟩, hjob⟩
  exhausted jobId e herr := by
    have hfull : maxJobs ≤ r.jobs.card := by
      rw [registerJobInner] at herr
      split at herr
      · cases herr
      split at herr
      · next hfull => exact hfull.2
      · cases herr
    have hsub : r.jobs ⊆ ((running r).map JobSlot.jobId).toFinset := by
      intro j hj
      obtain ⟨s, hs, hjob, hrun⟩ := h.counted.owned j hj
      have hmem : s ∈ running r := mem_filter.mpr ⟨hs, by simp [hrun]⟩
      exact mem_toFinset.mpr (hjob ▸ mem_map_of_mem hmem)
    calc maxJobs ≤ r.jobs.card := hfull
      _ ≤ ((running r).map JobSlot.jobId).toFinset.card := Finset.card_le_card hsub
      _ ≤ ((running r).map JobSlot.jobId).length := toFinset_card_le _
      _ = (running r).length := length_map ..
  counters := by
    intro hstill
    rw [length_slots hstill, h.counted.active, h.counted.queued]

theorem Inv.register (h : Inv r) (jobId : String) (enforce : Bool) :
    Inv (register maxJobs r jobId enforce) := by
  unfold Exits.register registerJobInner
  split_ifs
  · exact h
  · exact h
  · exact ⟨counted_registerJob h.counted h.unread jobId, h.unread⟩

/-- **ONE STEP** of a run without panics. -/
theorem inv_step {a : Act} (h : Inv r) (hcalm : Calm r a) (hs : step maxJobs r a = some r') :
    Inv r' := by
  cases a with
  | registerJob jobId | restoreJob jobId =>
    cases hs
    exact h.register jobId _
  | activate i =>
    have hm := moved_activate h.counted h.unread hs
    exact ⟨hm.counted, hm.loaded.trans h.unread⟩
  | activated i =>
    have hm := moved_activated h.counted hs
    exact ⟨hm.counted, hm.loaded.trans h.unread⟩
  | finishJob i =>
    have hm := moved_finishJob h.counted hs
    exact ⟨hm.counted, hm.loaded.trans h.unread⟩
  | dropSlot i =>
    have hm := moved_dropSlot h.counted hs
    exact ⟨hm.counted, hm.loaded.trans h.unread⟩
  | panicked i => exact absurd rfl (hcalm i)

end Steps

/-- **WITHOUT PANICS** every exit restores the worker's capacity. -/
theorem exits_restored (maxJobs : Nat) (as : List Act)
    (hcalm : Admitted (step maxJobs) Calm idle as) :
    Along (step maxJobs) (Restored maxJobs) idle as := by
  have hidle : Inv idle := ⟨⟨rfl, rfl, by simp [idle], by simp [idle]⟩, rfl⟩
  exact Along.mono (fun _ h => h.restored) as idle
    (inv_along_admitted (fun _ _ _ => inv_step) as idle hidle hcalm)

/-- A job comes and goes, and its place is free again. -/
theorem exit_restored : Along (step 1) (Restored 1) idle
    [.registerJob "first", .activate 0, .activated 0, .finishJob 0, .dropSlot 0,
      .registerJob "second"] := by
  refine exits_restored 1 _ ?_
  repeat refine .cons (by simp [Calm]) rfl ?_
  exact trivial

/-- Between the two halves of `activate` a slot is on neither counter. -/
example : (run (step 1) idle [.registerJob "first", .activate 0]).map
    (fun r => (r.activeJobs + r.queuedJobs, r.slots.length)) = some (0, 1) := rfl

/-- After a panic no task is left, and yet neither this job nor another one is taken. -/
theorem panic_refused : ∃ r, run (step 1) idle [.registerJob "first", .panicked 0] = some r
    ∧ r.slots = [] ∧ registerJobInner 1 r "first" true = .ok none
    ∧ registerJobInner 1 r "second" true = .error 1 ∧ ¬ Restored 1 r := by
  refine ⟨_, rfl, rfl, rfl, rfl, fun h => ?_⟩
  cases h.exhausted "second" 1 rfl

end Exits
