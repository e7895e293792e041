import NagisaLake.PoolProofs
import NagisaLake.ReservationProofs
import NagisaLake.RunProofs

/-! # Capacity — reservations of the Hub and jobs of the worker

The Hub sends a worker no more jobs than its parallelism and queue depth
allow.  It adds the counts of the last heartbeat to the reservations it
holds: a `pending` one for a command without an answer, a `confirmed` one
for a command whose job the next heartbeat is expected to show.  Every
heartbeat clears the confirmed ones.

A command that timed out is among the confirmed, too, and the next
heartbeat may be older than its arrival; a rejection or a failed send
drops a reservation another send of the same job depends on; and
`metrics` reads the two counters one after the other.  Where none of this
happens, no dispatch meets a worker without room
(`dispatches_find_room`). -/

namespace Capacity

open Runs Reservations List Pools

/-! ## The session of the Hub -/

/-- `u16::MAX` and `u32::MAX`. -/
def u16Max : Nat := 2 ^ 16 - 1

def u32Max : Nat := 2 ^ 32 - 1

/-- `WorkerCapabilities`, as far as they bound what is admitted. -/
structure Capabilities where
  parallelism : Nat
  queueDepth : Nat
  parallelism_le : parallelism ≤ u16Max
  queueDepth_le : queueDepth ≤ u16Max

def Capabilities.totalCapacity (c : Capabilities) : Nat :=
  c.parallelism + c.queueDepth

/-- `DispatchJob`: its command id and its job.  A job has one command from
    the request that submitted it and one from the outbox. -/
structure Command where
  commandId : String
  jobId : String
  deriving DecidableEq, Repr

/-- `WorkerSession`, as far as capacity depends on it. -/
structure Session where
  activeJobs : Nat
  queuedJobs : Nat
  pending : Finset Command
  confirmed : Finset Command
  deriving DecidableEq

namespace Session

/-- `capacity_reservation_count`. -/
def capacityReservationCount (s : Session) : Nat :=
  min (s.pending.card + s.confirmed.card) u32Max

/-- `worker_capacity_load`, with its saturating additions. -/
def workerCapacityLoad (s : Session) : Nat :=
  min (min (s.activeJobs + s.queuedJobs) u32Max + s.capacityReservationCount) u32Max

/-- `reserve_capacity` and `reserve_capacity_on`, once a worker is chosen. -/
def reserveCapacity (s : Session) (total : Nat) (c : Command) : Option Session :=
  if s.workerCapacityLoad < total then
    if c ∈ s.pending then none
    else some { s with pending := insert c s.pending }
  else none

/-- `ensure_capacity_reservation`. -/
def ensureCapacityReservation (s : Session) (total : Nat) (c : Command) : Option Session :=
  if c ∈ s.pending ∨ c ∈ s.confirmed then some s
  else if s.workerCapacityLoad < total then
    some { s with pending := insert c s.pending }
  else none

/-- `release_capacity_reservation`. -/
def releaseCapacityReservation (s : Session) (c : Command) : Session :=
  { s with pending := s.pending.erase c, confirmed := s.confirmed.erase c }

/-- `mark_capacity_reservation_uncertain`. -/
def markCapacityReservationUncertain (s : Session) (c : Command) : Session :=
  if c ∈ s.pending then
    { s with
      pending := s.pending.erase c
      confirmed := insert c s.confirmed }
  else s

/-- `settle_capacity_reservation`. -/
def settleCapacityReservation (s : Session) (c : Command) (accepted : Bool) :
    Session :=
  if c ∈ s.pending ∧ accepted = true then
    { s with
      pending := s.pending.erase c
      confirmed := insert c s.confirmed }
  else if accepted = false then
    { s with pending := s.pending.erase c, confirmed := s.confirmed.erase c }
  else s

/-- `update_heartbeat`. -/
def updateHeartbeat (s : Session) (active queued : Nat) : Session :=
  { s with activeJobs := active, queuedJobs := queued, confirmed := ∅ }

end Session

/-! ## The runtime of the worker -/

/-- `SlotPhase`; `moving` is a slot between the two counters. -/
inductive SlotPhase where
  | queued
  | moving
  | active
  deriving DecidableEq, Repr

/-- `JobSlot`, with the run of `execute` that owns it. -/
structure JobSlot where
  jobId : String
  phase : SlotPhase
  /-- `finish_job` has been called; the slot is dropped next. -/
  finished : Bool
  deriving DecidableEq, Repr

/-- `WorkerRuntime`: the registry of jobs, the slots and their counters. -/
structure WorkerRuntime where
  jobs : Finset String
  slots : List JobSlot
  activeJobs : Nat
  queuedJobs : Nat
  /-- What `metrics` has loaded so far. -/
  loaded : Option Nat
  deriving DecidableEq

namespace WorkerRuntime

/-- `register_job`, for a job that is not registered. -/
def registerJob (r : WorkerRuntime) (jobId : String) : WorkerRuntime :=
  { r with
    jobs := insert jobId r.jobs
    slots := r.slots ++ [⟨jobId, .queued, false⟩]
    queuedJobs := r.queuedJobs + 1 }

/-- `JobSlot::activate`, first half. -/
def activate (r : WorkerRuntime) (i : Nat) : Option WorkerRuntime :=
  match r.slots[i]? with
  | some ⟨jobId, .queued, false⟩ => some { r with
      slots := r.slots.set i ⟨jobId, .moving, false⟩
      queuedJobs := r.queuedJobs - 1 }
  | _ => none

/-- `JobSlot::activate`, second half. -/
def activated (r : WorkerRuntime) (i : Nat) : Option WorkerRuntime :=
  match r.slots[i]? with
  | some ⟨jobId, .moving, false⟩ => some { r with
      slots := r.slots.set i ⟨jobId, .active, false⟩
      activeJobs := r.activeJobs + 1 }
  | _ => none

/-- `finish_job`, at the end of `execute`. -/
def finishJob (r : WorkerRuntime) (i : Nat) : Option WorkerRuntime :=
  match r.slots[i]? with
  | some ⟨_, .moving, _⟩ => none
  | some ⟨jobId, phase, false⟩ => some { r with
      jobs := r.jobs.erase jobId
      slots := r.slots.set i ⟨jobId, phase, true⟩ }
  | _ => none

/-- `Drop for JobSlot`. -/
def dropSlot (r : WorkerRuntime) (i : Nat) : Option WorkerRuntime :=
  match r.slots[i]? with
  | some ⟨_, .queued, true⟩ => some { r with
      slots := r.slots.eraseIdx i, queuedJobs := r.queuedJobs - 1 }
  | some ⟨_, .active, true⟩ => some { r with
      slots := r.slots.eraseIdx i, activeJobs := r.activeJobs - 1 }
  | _ => none

/-- `metrics` loads the active jobs. -/
def loadActive (r : WorkerRuntime) : Option WorkerRuntime :=
  match r.loaded with
  | none => some { r with loaded := some (min r.activeJobs u16Max) }
  | some _ => none

/-- `metrics` loads the queued jobs and returns both. -/
def loadQueued (r : WorkerRuntime) : Option (Nat × Nat × WorkerRuntime) :=
  r.loaded.map fun active =>
    (active, min r.queuedJobs u16Max, { r with loaded := none })

end WorkerRuntime

/-! ## Sends, channels, the connection loop -/

/-- Where a task of the Hub that holds a reservation is. -/
inductive Send where
  | ready (c : Command)
  /-- In the channel; the answer is awaited. -/
  | waiting (c : Command)
  /-- The deadline has passed, or the waiter was dropped. -/
  | expiring (c : Command)
  /-- The send failed, or the job was not committed. -/
  | releasing (c : Command)
  | done
  deriving DecidableEq, Repr

def Send.readyJob : Send → Option String
  | .ready c => some c.jobId
  | _ => none

inductive WorkerMessage where
  | commandAck (c : Command) (accepted : Bool)
  | heartbeat (active queued : Nat)
  deriving DecidableEq, Repr

/-- A message on its way, and what was registered when it was sent: the latter
    is for the proofs only, the Hub reads the message. -/
structure Sent where
  message : WorkerMessage
  registered : Finset String
  deriving DecidableEq

def Sent.report (m : Sent) : Option (Finset String) :=
  match m.message with
  | .heartbeat .. => some m.registered
  | .commandAck .. => none

/-- What `accept_dispatch` meets besides the registry. -/
inductive Outcome where
  | ok
  /-- The catalog or the journal refuses the dispatch before it is registered. -/
  | refused
  /-- The journal fails to store the dispatch. -/
  | upsertFails
  deriving DecidableEq, Repr

/-- One session.  `reported` is what was registered when the heartbeat in force
    was sent, `exhausted` the commands answered with `CapacityExhausted`. -/
structure World where
  session : Session
  sends : List Send
  downlink : List Command
  uplink : List Sent
  journal : Finset String
  runtime : WorkerRuntime
  reported : Finset String
  exhausted : List Command

inductive Act where
  /-- `reserve_capacity` or `reserve_capacity_on`. -/
  | reserve (c : Command)
  | ensure (c : Command)
  /-- The message is put into the channel. -/
  | enqueue (i : Nat)
  /-- The channel stays full, or the job is not committed. -/
  | fail (i : Nat)
  /-- The reservation is left to the outbox. -/
  | leave (i : Nat)
  | release (i : Nat)
  | timeout (i : Nat)
  | markUncertain (i : Nat)
  | receive
  | handle (outcome : Outcome)
  | loadActive
  | loadQueued
  | activate (i : Nat)
  | activated (i : Nat)
  | finish (i : Nat)
  | drop (i : Nat)
  deriving DecidableEq, Repr

/-- `accept_dispatch` and its answer.  A job the journal knows is not
    restored: no run of it ends without a terminal record here. -/
def World.acceptDispatch (w : World) (capacity : Nat) (c : Command)
    (outcome : Outcome) : World × Bool :=
  if outcome = .refused then (w, false)
  else if c.jobId ∈ w.journal then (w, decide (outcome = .ok))
  else if c.jobId ∈ w.runtime.jobs then (w, decide (outcome = .ok))
  else if capacity ≤ w.runtime.jobs.card then
    ({ w with exhausted := w.exhausted ++ [c] }, false)
  else if outcome = .upsertFails then (w, false)
  else ({ w with
    journal := insert c.jobId w.journal
    runtime := w.runtime.registerJob c.jobId }, true)

/-- A step of one of the sends. -/
def World.advance (w : World) (i : Nat) (f : Send → Option (World × Send)) : Option World :=
  (w.sends[i]?).bind fun t => (f t).map fun r =>
    { r.1 with sends := w.sends.set i r.2 }

def step (capabilities : Capabilities) (w : World) : Act → Option World
  | .reserve c =>
    (w.session.reserveCapacity capabilities.totalCapacity c).map fun s =>
      { w with session := s, sends := w.sends ++ [.ready c] }
  | .ensure c =>
    (w.session.ensureCapacityReservation capabilities.totalCapacity c).map
      fun s => { w with session := s, sends := w.sends ++ [.ready c] }
  | .enqueue i => w.advance i fun
      | .ready c => some ({ w with downlink := w.downlink ++ [c] }, .waiting c)
      | _ => none
  | .fail i => w.advance i fun
      | .ready c => some (w, .releasing c)
      | _ => none
  | .leave i => w.advance i fun
      | .ready _ | .waiting _ => some (w, .done)
      | _ => none
  | .release i => w.advance i fun
      | .releasing c => some ({ w with
          session := w.session.releaseCapacityReservation c }, .done)
      | _ => none
  | .timeout i => w.advance i fun
      | .waiting c => some (w, .expiring c)
      | _ => none
  | .markUncertain i => w.advance i fun
      | .expiring c => some ({ w with
          session := w.session.markCapacityReservationUncertain c }, .done)
      | _ => none
  | .receive =>
    match w.uplink with
    | [] => none
    | ⟨.commandAck c accepted, _⟩ :: rest => some { w with
        session := w.session.settleCapacityReservation c accepted
        uplink := rest }
    | ⟨.heartbeat active queued, registered⟩ :: rest => some { w with
        session := w.session.updateHeartbeat active queued
        uplink := rest
        reported := registered }
  | .handle outcome =>
    -- the connection loop does one thing at a time
    match w.downlink, w.runtime.loaded with
    | c :: rest, none =>
      let r := { w with downlink := rest }.acceptDispatch
        capabilities.totalCapacity c outcome
      some { r.1 with uplink := r.1.uplink
        ++ [⟨.commandAck c r.2, r.1.runtime.jobs⟩] }
    | _, _ => none
  | .loadActive => w.runtime.loadActive.map fun r => { w with runtime := r }
  | .loadQueued => w.runtime.loadQueued.map fun (active, queued, r) =>
    { w with
      runtime := r
      uplink := w.uplink ++ [⟨.heartbeat active queued, r.jobs⟩] }
  | .activate i => (w.runtime.activate i).map fun r => { w with runtime := r }
  | .activated i => (w.runtime.activated i).map fun r => { w with runtime := r }
  | .finish i => (w.runtime.finishJob i).map fun r => { w with runtime := r }
  | .drop i => (w.runtime.dropSlot i).map fun r => { w with runtime := r }

/-- The worker has just registered; its journal knows earlier jobs. -/
def registered (journal : Finset String) : World where
  session := ⟨0, 0, ∅, ∅⟩
  sends := []
  downlink := []
  uplink := []
  journal := journal
  runtime := ⟨∅, [], 0, 0, none⟩
  reported := ∅
  exhausted := []

/-! ## When a reservation may go -/

/-- The jobs with a reservation. -/
def Session.charged (s : Session) : Finset String :=
  (s.pending ∪ s.confirmed).image Command.jobId

/-- The jobs on their way to the worker. -/
def World.flying (w : World) : Finset String :=
  (w.downlink.map Command.jobId ++ w.sends.filterMap Send.readyJob).toFinset

def World.reports (w : World) : List (Finset String) :=
  w.reported :: w.uplink.filterMap Sent.report

/-- What the reservations are about. -/
def World.book (w : World) : Book String where
  running := w.runtime.jobs
  seen := w.journal
  charged := w.session.charged
  flying := w.flying
  reports := w.reports

/-- The job is in the worker's registry but was not when the report was sent,
    or its dispatch is on its way to a worker that does not know it. -/
def World.InNeed (w : World) (report : Finset String) (jobId : String) : Prop :=
  w.book.InNeed report jobId

/-- Another reservation of the job is left, or none is needed. -/
def World.Spare (w : World) (c : Command) : Prop :=
  w.InNeed w.reported c.jobId → ∃ d ∈ w.session.pending ∪ w.session.confirmed,
      d ≠ c ∧ d.jobId = c.jobId

/-- A reservation is only dropped where the job does not need it, the counters
    fit 16 bits, and no slot changes its counter while they are read. -/
def Kept (w : World) : Act → Prop
  | .release i => ∀ c, w.sends[i]? = some (.releasing c) → w.Spare c
  | .receive =>
    (∀ c registered rest, w.uplink = ⟨.commandAck c false, registered⟩ :: rest → w.Spare c)
    ∧ ∀ active queued registered rest, w.uplink = ⟨.heartbeat active queued, registered⟩ :: rest →
      ∀ c ∈ w.session.confirmed, w.InNeed registered c.jobId →
        ∃ d ∈ w.session.pending, d.jobId = c.jobId
  | .loadActive => w.runtime.activeJobs ≤ u16Max ∧ ∀ s ∈ w.runtime.slots, s.phase ≠ .moving
  | .loadQueued => w.runtime.queuedJobs ≤ u16Max
  | .activate _ => w.runtime.loaded = none
  | _ => True

/-! ## The counters -/

def JobSlot.isActive (s : JobSlot) : Bool := decide (s.phase = .active)

def JobSlot.isQueued (s : JobSlot) : Bool := decide (s.phase = .queued)

/-- The counters count, every registered job has a slot of its own, and what
    `metrics` has loaded is not too small. -/
structure Counted (r : WorkerRuntime) : Prop where
  active : r.activeJobs = r.slots.countP JobSlot.isActive
  queued : r.queuedJobs = r.slots.countP JobSlot.isQueued
  owned : ∀ j ∈ r.jobs, ∃ s ∈ r.slots, s.jobId = j ∧ s.finished = false
  loaded : ∀ active, r.loaded = some active → (∀ s ∈ r.slots, s.phase ≠ .moving)
      ∧ r.slots.countP JobSlot.isActive ≤ active

variable {r r' : WorkerRuntime} {i : Nat}

/-- A slot that changes neither job nor owner leaves every job its slot. -/
theorem Counted.owned_set (hc : Counted r) {s t : JobSlot}
    (hs : r.slots[i]? = some s) (hjob : t.jobId = s.jobId)
    (hfin : t.finished = s.finished) :
    ∀ j ∈ r.jobs, ∃ u ∈ r.slots.set i t, u.jobId = j ∧ u.finished = false := by
  intro j hj
  refine exists_tasks_set hs (hc.owned j hj) ?_
  rintro ⟨rfl, hrun⟩
  exact ⟨hjob, hfin.trans hrun⟩

theorem counted_registerJob (hc : Counted r) (hloaded : r.loaded = none)
    (jobId : String) : Counted (r.registerJob jobId) where
  active := by
    show r.activeJobs = (r.slots ++ [_]).countP _
    rw [countP_append, hc.active]
    rfl
  queued := by
    show r.queuedJobs + 1 = (r.slots ++ [_]).countP _
    rw [countP_append, hc.queued]
    rfl
  owned j hj := by
    rcases Finset.mem_insert.mp hj with rfl | hj
    · exact ⟨_, mem_append_right _ mem_cons_self, rfl, rfl⟩
    · obtain ⟨s, hs, hown⟩ := hc.owned j hj
      exact ⟨s, mem_append_left _ hs, hown⟩
  loaded active ha := nomatch hloaded.symm.trans ha

/-- A run moves on: the counters count, no job comes, and nobody begins or
    ends to read them. -/
structure Moved (r r' : WorkerRuntime) : Prop where
  counted : Counted r'
  jobs : r'.jobs ⊆ r.jobs
  loaded : r'.loaded = r.loaded

theorem moved_activate (hc : Counted r) (hloaded : r.loaded = none)
    (h : r.activate i = some r') : Moved r r' := by
  rw [WorkerRuntime.activate] at h
  split at h
  · next jobId hs =>
    cases h
    have hactive := countP_set JobSlot.isActive hs ⟨jobId, .moving, false⟩
    have hqueued := countP_set JobSlot.isQueued hs ⟨jobId, .moving, false⟩
    refine ⟨⟨hc.active.trans hactive.symm, ?_, hc.owned_set hs rfl rfl, ?_⟩,
      Finset.Subset.refl _, rfl⟩
    · have hcount := hc.queued
      simp only [JobSlot.isQueued] at hqueued hcount ⊢
      simp at hqueued
      omega
    · exact fun active ha => nomatch hloaded.symm.trans ha
  · cases h

theorem moved_activated (hc : Counted r) (h : r.activated i = some r') : Moved r r' := by
  rw [WorkerRuntime.activated] at h
  split at h
  · next jobId hs =>
    cases h
    have hactive := countP_set JobSlot.isActive hs ⟨jobId, .active, false⟩
    have hqueued := countP_set JobSlot.isQueued hs ⟨jobId, .active, false⟩
    refine ⟨⟨?_, hc.queued.trans hqueued.symm, hc.owned_set hs rfl rfl, ?_⟩,
      Finset.Subset.refl _, rfl⟩
    · rw [hc.active]
      exact hactive.symm
    intro active ha
    -- no slot is between the counters while they are read
    exact absurd rfl ((hc.loaded active ha).1 _ (mem_of_getElem? hs))
  · cases h

/-- A slot whose run is over keeps its phase until it is dropped. -/
theorem Counted.finished (hc : Counted r) {jobId : String} {phase : SlotPhase}
    (hs : r.slots[i]? = some ⟨jobId, phase, false⟩) : Counted { r with
      jobs := r.jobs.erase jobId
      slots := r.slots.set i ⟨jobId, phase, true⟩ } := by
  have hactive := countP_set JobSlot.isActive hs ⟨jobId, phase, true⟩
  have hqueued := countP_set JobSlot.isQueued hs ⟨jobId, phase, true⟩
  have hactive : (r.slots.set i ⟨jobId, phase, true⟩).countP JobSlot.isActive
      = r.slots.countP JobSlot.isActive := Nat.add_right_cancel hactive
  have hqueued : (r.slots.set i ⟨jobId, phase, true⟩).countP JobSlot.isQueued
      = r.slots.countP JobSlot.isQueued := Nat.add_right_cancel hqueued
  refine ⟨hc.active.trans hactive.symm, hc.queued.trans hqueued.symm, ?_, ?_⟩
  · intro j hj
    obtain ⟨hne, hj⟩ := Finset.mem_erase.mp hj
    refine exists_tasks_set hs (hc.owned j hj) ?_
    rintro ⟨rfl, -⟩
    exact absurd rfl hne
  · intro active ha
    obtain ⟨hmoving, hle⟩ := hc.loaded active ha
    refine ⟨?_, hactive.trans_le hle⟩
    have hphase : phase ≠ .moving := hmoving _ (mem_of_getElem? hs)
    exact forall_tasks_set hmoving hphase

theorem moved_finishJob (hc : Counted r) (h : r.finishJob i = some r') : Moved r r' := by
  rw [WorkerRuntime.finishJob] at h
  split at h
  · cases h
  · next hs =>
    cases h
    exact ⟨hc.finished hs, Finset.erase_subset _ _, rfl⟩
  · cases h

/-- A slot that is dropped is one a run has left. -/
theorem dropSlot_eq_some (h : r.dropSlot i = some r') :
    ∃ s, r.slots[i]? = some s ∧ s.finished = true ∧ (s.phase = .queued ∧ r' = { r with
            slots := r.slots.eraseIdx i, queuedJobs := r.queuedJobs - 1 }
        ∨ s.phase = .active ∧ r' = { r with
            slots := r.slots.eraseIdx i, activeJobs := r.activeJobs - 1 }) := by
  rw [WorkerRuntime.dropSlot] at h
  split at h
  · next hs => exact ⟨_, hs, rfl, .inl ⟨rfl, (Option.some.inj h).symm⟩⟩
  · next hs => exact ⟨_, hs, rfl, .inr ⟨rfl, (Option.some.inj h).symm⟩⟩
  · cases h

theorem moved_dropSlot (hc : Counted r) (h : r.dropSlot i = some r') : Moved r r' := by
  obtain ⟨s, hs, hfin, hr'⟩ := dropSlot_eq_some h
  have hactive := countP_eraseIdx JobSlot.isActive hs
  have hqueued := countP_eraseIdx JobSlot.isQueued hs
  have howned : ∀ j ∈ r.jobs, ∃ u ∈ r.slots.eraseIdx i, u.jobId = j ∧ u.finished = false := by
    intro j hj
    obtain ⟨u, hu, hown⟩ := hc.owned j hj
    obtain ⟨k, hk⟩ := mem_iff_getElem?.mp hu
    refine ⟨u, mem_eraseIdx_iff_getElem?.mpr ⟨k, ?_, hk⟩, hown⟩
    rintro rfl
    cases hs.symm.trans hk
    cases hfin.symm.trans hown.2
  have hloaded : ∀ active, r.loaded = some active → (∀ u ∈ r.slots.eraseIdx i, u.phase ≠ .moving)
        ∧ (r.slots.eraseIdx i).countP JobSlot.isActive ≤ active := by
    intro active ha
    obtain ⟨hmoving, hle⟩ := hc.loaded active ha
    exact ⟨fun u hu => hmoving u (mem_of_mem_eraseIdx hu), by omega⟩
  rcases hr' with ⟨hphase, rfl⟩ | ⟨hphase, rfl⟩
  all_goals
    refine ⟨⟨?_, ?_, howned, hloaded⟩, Finset.Subset.refl _, rfl⟩
    · rw [hc.active, ← hactive, JobSlot.isActive, hphase]
      rfl
    rw [hc.queued, ← hqueued, JobSlot.isQueued, hphase]
    rfl

theorem counted_loadActive (hc : Counted r) (hsmall : r.activeJobs ≤ u16Max)
    (hmoving : ∀ s ∈ r.slots, s.phase ≠ .moving)
    (h : r.loadActive = some r') : Counted r' ∧ r'.jobs = r.jobs := by
  rw [WorkerRuntime.loadActive] at h
  split at h
  · cases h
    refine ⟨⟨hc.active, hc.queued, hc.owned, ?_⟩, rfl⟩
    intro active ha
    cases ha
    refine ⟨hmoving, ?_⟩
    rw [Nat.min_eq_left hsmall, hc.active]
  · cases h

/-- A slot that is not between the counters is in one of them. -/
theorem length_slots (hmoving : ∀ s ∈ r.slots, s.phase ≠ .moving) :
    r.slots.length = r.slots.countP JobSlot.isActive + r.slots.countP JobSlot.isQueued := by
  rw [length_eq_countP_add_countP JobSlot.isActive]
  congr 1
  apply countP_congr
  intro s hs
  obtain ⟨jobId, phase, finished⟩ := s
  cases phase with
  | queued => exact iff_of_true rfl rfl
  | moving => exact absurd rfl (hmoving _ hs)
  | active => exact iff_of_false nofun nofun

/-- **A HEARTBEAT** that is read without a slot moving reports every registered job. -/
theorem jobs_le_metrics (hc : Counted r) (hsmall : r.queuedJobs ≤ u16Max)
    {active queued : Nat} (h : r.loadQueued = some (active, queued, r')) :
    Counted r' ∧ r'.jobs = r.jobs ∧ r.jobs.card ≤ active + queued := by
  obtain ⟨a, ha, hr⟩ := Option.map_eq_some_iff.mp h
  obtain ⟨rfl, rfl, rfl⟩ : a = active ∧ min r.queuedJobs u16Max = queued
      ∧ { r with loaded := none } = r' := by
    rw [Prod.mk.injEq, Prod.mk.injEq] at hr
    exact hr
  refine ⟨⟨hc.active, hc.queued, hc.owned, nofun⟩, rfl, ?_⟩
  obtain ⟨hmoving, hle⟩ := hc.loaded a ha
  have hslots : r.jobs ⊆ (r.slots.map JobSlot.jobId).toFinset := by
    intro j hj
    obtain ⟨s, hs, hjob, -⟩ := hc.owned j hj
    exact mem_toFinset.mpr (hjob ▸ mem_map_of_mem hs)
  calc r.jobs.card ≤ (r.slots.map JobSlot.jobId).toFinset.card :=
        Finset.card_le_card hslots
    _ ≤ (r.slots.map JobSlot.jobId).length := toFinset_card_le _
    _ = r.slots.countP JobSlot.isActive + r.slots.countP JobSlot.isQueued := by
        rw [length_map, length_slots hmoving]
    _ ≤ a + min r.queuedJobs u16Max := by
        rw [Nat.min_eq_left hsmall, hc.queued]
        exact Nat.add_le_add_right hle _

/-! ## What each statement does to the charges -/

section Charges

variable {s s' : Session} {c : Command} {j : String}

theorem mem_charged : j ∈ s.charged ↔ ∃ c ∈ s.pending ∪ s.confirmed, c.jobId = j :=
  Finset.mem_image

theorem charged_card_le (s : Session) : s.charged.card ≤ s.pending.card + s.confirmed.card :=
  Finset.card_image_le.trans (Finset.card_union_le _ _)

/-- A load under the capacity has not been saturated. -/
theorem load_lt {total : Nat} (htotal : total ≤ u32Max) (h : s.workerCapacityLoad < total) :
    s.activeJobs + s.queuedJobs + (s.pending.card + s.confirmed.card) < total := by
  rw [Session.workerCapacityLoad, Session.capacityReservationCount] at h
  omega

theorem charged_insert (s : Session) (c : Command) :
    Session.charged { s with pending := insert c s.pending } = insert c.jobId s.charged := by
  show (insert c s.pending ∪ s.confirmed).image Command.jobId = _
  rw [Finset.insert_union, Finset.image_insert]
  rfl

theorem moved_union {p q : Finset Command} (hc : c ∈ p) : p.erase c ∪ insert c q = p ∪ q := by
  rw [Finset.union_insert, ← Finset.insert_union, Finset.insert_erase hc]

theorem charged_markUncertain (s : Session) (c : Command) :
    (s.markCapacityReservationUncertain c).charged = s.charged := by
  rw [Session.markCapacityReservationUncertain]
  split
  · next hc => exact congrArg (Finset.image Command.jobId) (moved_union hc)
  · rfl

theorem charged_settle_accepted (s : Session) (c : Command) :
    (s.settleCapacityReservation c true).charged = s.charged := by
  rw [Session.settleCapacityReservation]
  split
  · next hc => exact congrArg (Finset.image Command.jobId) (moved_union hc.1)
  · rfl

/-- A rejection is a release. -/
theorem settle_rejected (s : Session) (c : Command) :
    s.settleCapacityReservation c false = s.releaseCapacityReservation c := by
  have hnot : ¬ (c ∈ s.pending ∧ false = true) := fun h => nomatch h.2
  rw [Session.settleCapacityReservation, if_neg hnot]
  rfl

/-- The command's own reservation goes, every other one stays. -/
theorem mem_charged_release : j ∈ (s.releaseCapacityReservation c).charged
      ↔ ∃ d ∈ s.pending ∪ s.confirmed, d ≠ c ∧ d.jobId = j := by
  rw [mem_charged]
  show (∃ d ∈ s.pending.erase c ∪ s.confirmed.erase c, d.jobId = j) ↔ _
  rw [← Finset.erase_union_distrib]
  constructor
  · rintro ⟨d, hd, hj⟩
    exact ⟨d, (Finset.mem_erase.mp hd).2, (Finset.mem_erase.mp hd).1, hj⟩
  · rintro ⟨d, hd, hne, hj⟩
    exact ⟨d, Finset.mem_erase.mpr ⟨hne, hd⟩, hj⟩

end Charges

/-! ## One step of the session -/

/-- The book is sound, the counters count, and every heartbeat reports at
    least what was registered when it was sent. -/
structure Inv (total : Nat) (w : World) : Prop where
  sound : Sound total w.book
  counted : Counted w.runtime
  reported : w.reported.card ≤ w.session.activeJobs + w.session.queuedJobs
  reports : ∀ m ∈ w.uplink, ∀ active queued, m.message = .heartbeat active queued →
    m.registered.card ≤ active + queued
  exhausted : w.exhausted = []

variable {total : Nat} {w w' : World} {c : Command}

theorem mem_flying {j : String} : j ∈ w.flying ↔ (∃ c ∈ w.downlink, c.jobId = j)
      ∨ ∃ c, Send.ready c ∈ w.sends ∧ c.jobId = j := by
  rw [World.flying, mem_toFinset, mem_append, mem_map, mem_filterMap]
  apply or_congr_right
  constructor
  · rintro ⟨t, ht, hj⟩
    cases t with
    | ready c => exact ⟨c, ht, Option.some.inj hj⟩
    | _ => cases hj
  · rintro ⟨c, hc, rfl⟩
    exact ⟨_, hc, rfl⟩

section

variable (hI : Inv total w)
include hI

/-- The load is an upper bound of what is running or charged. -/
theorem Inv.room (htotal : total ≤ u32Max) (hload : w.session.workerCapacityLoad < total) :
    (w.book.running ∪ w.book.charged).card < total := by
  have hbook := hI.sound.card_le (R := w.reported) mem_cons_self
  have hcharged : w.book.charged.card ≤ w.session.pending.card + w.session.confirmed.card :=
    charged_card_le w.session
  have hlt := load_lt htotal hload
  have hreported := hI.reported
  omega

/-- The reservations change, the jobs they stand for do not. -/
theorem Inv.recharge {s : Session} (hcharged : s.charged = w.session.charged)
    (hactive : s.activeJobs = w.session.activeJobs)
    (hqueued : s.queuedJobs = w.session.queuedJobs) :
    Inv total { w with session := s } where
  sound := by
    show Sound total { w.book with charged := s.charged }
    rw [hcharged]
    exact hI.sound
  counted := hI.counted
  reported := by
    rw [hactive, hqueued]
    exact hI.reported
  reports := hI.reports
  exhausted := hI.exhausted

/-- Sends go on; what they send is charged, or on its way already. -/
theorem Inv.send (sends : List Send) (downlink : List Command)
    (hdown : ∀ c ∈ downlink, c ∈ w.downlink ∨ .ready c ∈ w.sends)
    (hready : ∀ c, .ready c ∈ sends → .ready c ∈ w.sends ∨ c.jobId ∈ w.session.charged) :
    Inv total { w with sends := sends, downlink := downlink } :=
  { hI with
    sound := by
      refine hI.sound.fly ?_
      intro j hj _
      rcases mem_flying.mp hj with ⟨c, hc, rfl⟩ | ⟨c, hc, rfl⟩
      · refine .inl (mem_flying.mpr ?_)
        exact (hdown c hc).imp (fun h => ⟨c, h, rfl⟩) (fun h => ⟨c, h, rfl⟩)
      · refine (hready c hc).imp_left ?_
        exact fun h => mem_flying.mpr (.inr ⟨c, h, rfl⟩) }

/-- A send begins. -/
theorem Inv.begin (hc : c.jobId ∈ w.session.charged) :
    Inv total { w with sends := w.sends ++ [.ready c] } := by
  refine hI.send _ w.downlink (fun _ => .inl) ?_
  intro d hd
  rcases mem_append.mp hd with hd | hd
  · exact .inl hd
  · cases mem_singleton.mp hd
    exact .inr hc

/-- A send ends. -/
theorem Inv.set {t : Send} (ht : t.readyJob = none) :
    Inv total { w with sends := w.sends.set i t } := by
  refine hI.send _ w.downlink (fun _ => .inl) ?_
  intro d hd
  rcases mem_or_eq_of_mem_set hd with hd | rfl
  · exact .inl hd
  · cases ht

/-- The message goes into the channel. -/
theorem Inv.enqueue (hi : w.sends[i]? = some (.ready c)) : Inv total { w with
      sends := w.sends.set i (.waiting c)
      downlink := w.downlink ++ [c] } := by
  refine hI.send _ _ ?_ ?_
  · intro d hd
    refine (mem_append.mp hd).imp_right ?_
    intro hd
    exact mem_singleton.mp hd ▸ mem_of_getElem? hi
  · intro d hd
    rcases mem_or_eq_of_mem_set hd with hd | hd
    · exact .inl hd
    · cases hd

/-- A new reservation. -/
theorem Inv.reserve (htotal : total ≤ u32Max)
    (hload : w.session.workerCapacityLoad < total) (c : Command) :
    Inv total { w with
      session := { w.session with pending := insert c w.session.pending } } :=
  { hI with
    sound := by
      show Sound total { w.book with charged := Session.charged _ }
      rw [charged_insert]
      exact hI.sound.charge (hI.room htotal hload) c.jobId }

/-- A reservation that is not needed goes. -/
theorem Inv.release (hspare : w.Spare c) :
    Inv total { w with session := w.session.releaseCapacityReservation c } :=
  { hI with
    sound := by
      refine hI.sound.drop rfl ?_ ?_
      · intro j hj
        obtain ⟨d, hd, -, hjob⟩ := mem_charged_release.mp hj
        exact mem_charged.mpr ⟨d, hd, hjob⟩
      intro j hj hneed
      obtain ⟨d, hd, rfl⟩ := mem_charged.mp hj
      by_cases hdc : d = c
      · subst hdc
        exact mem_charged_release.mpr (hspare hneed)
      · exact mem_charged_release.mpr ⟨d, hd, hdc, rfl⟩ }

/-- A heartbeat comes into force. -/
theorem Inv.heartbeat {active queued : Nat}
    {registered : Finset String} {rest : List Sent}
    (hup : w.uplink = ⟨.heartbeat active queued, registered⟩ :: rest)
    (hkept : ∀ c ∈ w.session.confirmed, w.InNeed registered c.jobId →
      ∃ d ∈ w.session.pending, d.jobId = c.jobId) :
    Inv total { w with
      session := w.session.updateHeartbeat active queued
      uplink := rest
      reported := registered } where
  sound := by
    have hreports : w.book.reports = w.reported :: registered :: rest.filterMap Sent.report := by
      show w.reported :: w.uplink.filterMap Sent.report = _
      rw [hup]
      rfl
    refine (hI.sound.tail hreports).drop rfl ?_ ?_
    · intro j hj
      obtain ⟨d, hd, hjob⟩ := mem_charged.mp hj
      refine mem_charged.mpr ⟨d, ?_, hjob⟩
      exact Finset.mem_union_left _ ((Finset.mem_union.mp hd).elim id nofun)
    · intro j hj hneed
      obtain ⟨d, hd, rfl⟩ := mem_charged.mp hj
      rcases Finset.mem_union.mp hd with hd | hd
      · exact mem_charged.mpr ⟨d, Finset.mem_union_left _ hd, rfl⟩
      · obtain ⟨e, he, hjob⟩ := hkept d hd hneed
        exact mem_charged.mpr ⟨e, Finset.mem_union_left _ he, hjob⟩
  counted := hI.counted
  reported := by
    have hmem : (⟨.heartbeat active queued, registered⟩ : Sent) ∈ w.uplink := by
      rw [hup]
      exact mem_cons_self
    exact hI.reports _ hmem active queued rfl
  reports m hm := hI.reports m (hup ▸ mem_cons_of_mem _ hm)
  exhausted := hI.exhausted

/-- An answer has been read. -/
theorem Inv.read {accepted : Bool}
    {registered : Finset String} {rest : List Sent}
    (hup : w.uplink = ⟨.commandAck c accepted, registered⟩ :: rest) :
    Inv total { w with uplink := rest } :=
  { hI with
    sound := by
      have hreports : w.reported :: rest.filterMap Sent.report = w.reports := by
        rw [World.reports, hup]
        rfl
      show Sound total { w.book with reports := w.reported :: rest.filterMap Sent.report }
      rw [hreports]
      exact hI.sound
    reports m hm := hI.reports m (hup ▸ mem_cons_of_mem _ hm) }

/-- A run changes its slot, or ends. -/
theorem Inv.runtime (hc : Counted r) (hjobs : r.jobs ⊆ w.runtime.jobs) :
    Inv total { w with runtime := r } :=
  { hI with
    sound := hI.sound.finish hjobs
    counted := hc }

/-- A message is sent; a heartbeat reports what is registered. -/
theorem Inv.sent {m : Sent}
    (hbook : Sound total { w.book with reports := w.reports ++ m.report.toList })
    (hle : ∀ active queued, m.message = .heartbeat active queued →
      m.registered.card ≤ active + queued) :
    Inv total { w with uplink := w.uplink ++ [m] } :=
  { hI with
    sound := by
      have hreports : World.reports { w with uplink := w.uplink ++ [m] }
          = w.reports ++ m.report.toList := by
        simp only [World.reports, filterMap_append, cons_append]
        cases hm : m.report <;> simp [hm]
      show Sound total { w.book with reports := World.reports _ }
      rw [hreports]
      exact hbook
    reports m hm := by
      rcases mem_append.mp hm with hm | hm
      · exact hI.reports m hm
      · cases mem_singleton.mp hm
        exact hle }

/-- **A DISPATCH ARRIVES**: there is room for it. -/
theorem Inv.handle (hloaded : w.runtime.loaded = none)
    {rest : List Command} (hdown : w.downlink = c :: rest)
    (outcome : Outcome) :
    Inv total (({ w with downlink := rest } : World).acceptDispatch total c outcome).1 := by
  have hrest : ∀ d ∈ rest, d ∈ w.downlink ∨ .ready d ∈ w.sends :=
    fun d hd => .inl (hdown ▸ mem_cons_of_mem _ hd)
  have hgone : Inv total { w with downlink := rest } :=
    hI.send w.sends rest hrest (fun _ => .inl)
  have hc : c.jobId ∈ w.book.flying :=
    mem_flying.mpr (.inl ⟨c, hdown ▸ mem_cons_self, rfl⟩)
  rw [World.acceptDispatch]
  split
  · exact hgone
  split
  · exact hgone
  next hnew =>
  split
  · exact hgone
  split
  -- a job that is on its way is charged, so the registry is not full
  · next hfull => exact absurd (hI.sound.room hc hnew) (Nat.not_lt_of_le hfull)
  split
  · exact hgone
  have htaken : Inv total { w with
      journal := insert c.jobId w.journal, runtime := w.runtime.registerJob c.jobId } :=
    { hI with
      sound := hI.sound.take hc hnew
      counted := counted_registerJob hI.counted hloaded c.jobId }
  exact htaken.send w.sends rest hrest (fun _ => .inl)

end

theorem advance_eq_some {f : Send → Option (World × Send)} (h : w.advance i f = some w') :
    ∃ t r, w.sends[i]? = some t ∧ f t = some r ∧ w' = { r.1 with sends := w.sends.set i r.2 } := by
  obtain ⟨t, ht, h⟩ := Option.bind_eq_some_iff.mp h
  obtain ⟨r, hr, rfl⟩ := Option.map_eq_some_iff.mp h
  exact ⟨t, r, ht, hr, rfl⟩

variable {capabilities : Capabilities}

theorem totalCapacity_le (c : Capabilities) : c.totalCapacity ≤ u32Max := by
  have hp := c.parallelism_le
  have hq := c.queueDepth_le
  simp only [Capabilities.totalCapacity, u16Max, u32Max] at *
  omega

theorem inv_receive (hI : Inv total w) (hkept : Kept w .receive)
    (h : step capabilities w .receive = some w') : Inv total w' := by
  obtain ⟨hack, hbeat⟩ := hkept
  simp only [step] at h
  split at h
  · cases h
  · next c accepted registered rest hup =>
    cases h
    cases accepted with
    | true =>
      refine (hI.read hup).recharge (charged_settle_accepted w.session c) ?_ ?_
      all_goals
        rw [Session.settleCapacityReservation]
        split <;> rfl
    | false =>
      rw [settle_rejected]
      have hspare := hack c registered rest hup
      have hflying := hI.release hspare
      exact hflying.read hup
  · next active queued registered rest hup =>
    cases h
    exact hI.heartbeat hup (hbeat active queued registered rest hup)

/-- The step lemma. -/
theorem inv_step {a : Act} (hI : Inv capabilities.totalCapacity w)
    (hkept : Kept w a) (h : step capabilities w a = some w') :
    Inv capabilities.totalCapacity w' := by
  have htotal := totalCapacity_le capabilities
  cases a with
  | reserve c =>
    obtain ⟨s, hs, rfl⟩ := Option.map_eq_some_iff.mp h
    rw [Session.reserveCapacity] at hs
    split at hs
    · next hload =>
      obtain ⟨-, rfl⟩ := of_guard_not hs
      refine (hI.reserve htotal hload c).begin ?_
      exact charged_insert w.session c ▸ Finset.mem_insert_self _ _
    · cases hs
  | ensure c =>
    obtain ⟨s, hs, rfl⟩ := Option.map_eq_some_iff.mp h
    rw [Session.ensureCapacityReservation] at hs
    split at hs
    · next hheld =>
      cases hs
      exact hI.begin (mem_charged.mpr ⟨c, Finset.mem_union.mpr hheld, rfl⟩)
    obtain ⟨hload, rfl⟩ := of_guard hs
    refine (hI.reserve htotal hload c).begin ?_
    exact charged_insert w.session c ▸ Finset.mem_insert_self _ _
  | enqueue i =>
    obtain ⟨t, r, ht, hr, rfl⟩ := advance_eq_some h
    split at hr
    · cases hr
      exact hI.enqueue ht
    · cases hr
  | fail i | timeout i =>
    obtain ⟨t, r, ht, hr, rfl⟩ := advance_eq_some h
    split at hr
    · cases hr
      exact hI.set rfl
    · cases hr
  | leave i =>
    obtain ⟨t, r, ht, hr, rfl⟩ := advance_eq_some h
    split at hr
    · cases hr
      exact hI.set rfl
    · cases hr
      exact hI.set rfl
    · cases hr
  | release i =>
    obtain ⟨t, r, ht, hr, rfl⟩ := advance_eq_some h
    split at hr
    · next c =>
      cases hr
      exact (hI.release (hkept c ht)).set rfl
    · cases hr
  | markUncertain i =>
    obtain ⟨t, r, ht, hr, rfl⟩ := advance_eq_some h
    split at hr
    · next c =>
      cases hr
      refine Inv.set (hI.recharge (charged_markUncertain w.session c) ?_ ?_) rfl
      all_goals
        rw [Session.markCapacityReservationUncertain]
        split <;> rfl
    · cases hr
  | receive => exact inv_receive hI hkept h
  | handle outcome =>
    simp only [step] at h
    split at h
    · next c rest hdown hloaded =>
      cases h
      have hhandled := hI.handle hloaded hdown outcome
      exact hhandled.sent ((append_nil _).symm ▸ hhandled.sound) nofun
    · cases h
  | loadActive =>
    obtain ⟨r, hr, rfl⟩ := Option.map_eq_some_iff.mp h
    obtain ⟨hc, hjobs⟩ := counted_loadActive hI.counted hkept.1 hkept.2 hr
    exact hI.runtime hc hjobs.subset
  | loadQueued =>
    obtain ⟨⟨active, queued, r⟩, hr, rfl⟩ := Option.map_eq_some_iff.mp h
    obtain ⟨hc, hjobs, hle⟩ := jobs_le_metrics hI.counted hkept hr
    have hread := hI.runtime hc hjobs.subset
    refine hread.sent hread.sound.report ?_
    rintro _ _ ⟨⟩
    exact hjobs ▸ hle
  | activate i =>
    obtain ⟨r, hr, rfl⟩ := Option.map_eq_some_iff.mp h
    have hm := moved_activate hI.counted hkept hr
    exact hI.runtime hm.counted hm.jobs
  | activated i =>
    obtain ⟨r, hr, rfl⟩ := Option.map_eq_some_iff.mp h
    have hm := moved_activated hI.counted hr
    exact hI.runtime hm.counted hm.jobs
  | finish i =>
    obtain ⟨r, hr, rfl⟩ := Option.map_eq_some_iff.mp h
    have hm := moved_finishJob hI.counted hr
    exact hI.runtime hm.counted hm.jobs
  | drop i =>
    obtain ⟨r, hr, rfl⟩ := Option.map_eq_some_iff.mp h
    have hm := moved_dropSlot hI.counted hr
    exact hI.runtime hm.counted hm.jobs

theorem inv_registered (total : Nat) (journal : Finset String) :
    Inv total (registered journal) where
  sound :=
    { running_seen := Finset.empty_subset _
      reports_seen := by
        intro R hR
        rw [mem_singleton.mp hR]
        exact Finset.empty_subset _
      fits := Nat.zero_le _
      fresh := nofun
      covered := nofun
      chain := pairwise_singleton .. }
  counted := ⟨rfl, rfl, nofun, nofun⟩
  reported := Nat.le_refl _
  reports := nofun
  exhausted := rfl

/-- **EVERY DISPATCH FINDS ROOM** in every run in which reservations are kept
    while they are needed and the counters are read without a slot moving:
    the worker never answers with `CapacityExhausted`. -/
theorem dispatches_find_room (capabilities : Capabilities) (journal : Finset String) {as : List Act}
    (hkept : Admitted (step capabilities) Kept (registered journal) as) :
    Along (step capabilities) (fun w => w.exhausted = []) (registered journal) as := by
  have hinv := inv_along_admitted (fun _ _ _ hI hok h => inv_step hI hok h) as _
    (inv_registered capabilities.totalCapacity journal) hkept
  exact Along.mono (fun _ hI => hI.exhausted) as _ hinv

/-! ## A worker with one slot -/

def oneSlot : Capabilities :=
  ⟨1, 0, by decide, by decide⟩

def first : Command := ⟨"dispatch:first:1", "first"⟩

def second : Command := ⟨"dispatch:second:1", "second"⟩

/-- A job is dispatched, acknowledged and reported. -/
def reportedJob : List Act :=
  [.reserve first, .enqueue 0, .handle .ok, .receive, .loadActive, .loadQueued, .receive]

/-- Its reservation goes when the report shows it. -/
theorem reportedJob_kept : Admitted (step oneSlot) Kept (registered ∅) reportedJob := by
  refine .cons trivial rfl (.cons trivial rfl (.cons trivial rfl
    (.cons ?_ rfl (.cons ?_ rfl (.cons ?_ rfl (.cons ?_ rfl trivial))))))
  · constructor
    · intro c registered rest hup
      cases hup
    · intro active queued registered rest hup
      cases hup
  · exact ⟨by decide, by decide⟩
  · show (1 : Nat) ≤ u16Max
    decide
  · constructor
    · intro c registered rest hup
      cases hup
    intro active queued registered rest hup c hc hneed
    cases hup
    obtain rfl : c = first := Finset.mem_singleton.mp hc
    rcases hneed with ⟨-, hnot⟩ | ⟨hfly, -⟩
    · exact absurd (Finset.mem_insert_self _ _) hnot
    · cases hfly

theorem reportedJob_finds_room : Along (step oneSlot) (fun w => w.exhausted = []) (registered ∅)
      reportedJob :=
  dispatches_find_room oneSlot ∅ reportedJob_kept

/-- The first command times out on its way, the worker reports that it is
    idle, and the Hub takes that for an answer. -/
def overtaken : List Act :=
  [.reserve first, .enqueue 0, .timeout 0, .markUncertain 0, .loadActive,
    .loadQueued, .receive, .reserve second, .enqueue 1, .handle .ok,
    .handle .ok]

/-- A retry that does not get into the channel releases what the first send,
    still on its way, depends on. -/
def failedRetry : List Act :=
  [.reserve first, .enqueue 0, .timeout 0, .markUncertain 0, .ensure first,
    .fail 1, .release 1, .reserve second, .enqueue 2, .handle .ok,
    .handle .ok]

/-- A rejection drops what a second send of the command depends on. -/
def rejectedCopy : List Act :=
  [.reserve first, .enqueue 0, .ensure first, .enqueue 1,
    .handle .upsertFails, .receive, .reserve second, .enqueue 2, .handle .ok,
    .handle .ok]

/-- A job that goes from one counter to the other while they are read is in neither. -/
def tornMetrics : List Act :=
  [.reserve first, .enqueue 0, .handle .ok, .receive, .loadActive,
    .activate 0, .activated 0, .loadQueued, .receive, .reserve second,
    .enqueue 1, .handle .ok]

/-- **CAPACITY EXHAUSTED**: in each of these runs the second job, for which the
    Hub holds a reservation, finds the only slot taken. -/
theorem reserved_dispatch_exhausts :
    ([overtaken, failedRetry, rejectedCopy, tornMetrics].map fun as =>
      (run (step oneSlot) (registered ∅) as).map World.exhausted)
        = List.replicate 4 (some [second]) := by
  decide

end Capacity
