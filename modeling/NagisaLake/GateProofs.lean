import NagisaLake.RunProofs
import NagisaLake.PoolProofs
import NagisaLake.TableProofs

/-! # The quota gate — one guard an organization

`QuotaGate::acquire` finds the lock of the organization in a map, under the
lock of the map, and waits for it outside.  Now and then it drops the entries
that nobody else refers to.  Guards are dropped and waits are cancelled at any
time, also between two entries of a sweep, so the argument is not about the
order of events but about references: whoever waits or holds has a clone of
the entry, so a sweep leaves it (`mapped_step`), and all clones of one
organization are of one lock. -/

namespace Gates

open KeyedTable Runs Pools Table List Option

/-- An entry of the map; `lock` is the allocation its `Arc` points to. -/
structure Entry where
  organizationId : String
  lock : Nat

/-- What a call does with its clone of the lock. -/
inductive Phase where
  | waiting
  | holding
  /-- The guard has unlocked and is about to drop its `Arc`. -/
  | leaving
  | gone
  deriving DecidableEq

/-- A call of `acquire` after it has cloned the lock, and then its guard. -/
structure Clone where
  organizationId : String
  lock : Nat
  phase : Phase

/-- The lock that a guard holds. -/
def Clone.held (c : Clone) : Option Nat := if c.phase = .holding then some c.lock else none

/-- Where the call stands that has the lock of the map. -/
inductive Turn where
  /-- `retain` has these entries still to look at. -/
  | sweep (organizationId : String) (rest : List String)
  | take (organizationId : String)

/-- `QuotaLocks`, and who has a clone of which lock. -/
structure Gate where
  entries : Table String Entry Entry.organizationId
  sweepAt : Nat
  turn : Option Turn
  /-- The allocations so far. -/
  allocated : Nat
  clones : List Clone

/-- `QUOTA_GATE_MIN_SWEEP`. -/
def quotaGateMinSweep : Nat := 64

def usizeMax : Nat := 2 ^ 64 - 1

/-- `Arc::strong_count`: the entries and the clones that refer to the lock. -/
def Gate.strongCount (g : Gate) (lock : Nat) : Nat :=
  g.entries.rows.countP (fun e => e.lock = lock)
    + g.clones.countP fun c => c.lock = lock && c.phase != .gone

/-- The call that has the lock of the map goes on. -/
def Gate.proceed (g : Gate) : Turn → Gate
  | .sweep o (k :: rest) => { g with
      entries := g.entries.delete fun e =>
        e.organizationId = k && !(1 < g.strongCount e.lock : Bool)
      turn := some (.sweep o rest) }
  | .sweep o [] => { g with
      sweepAt := min (g.entries.rows.length * 2) usizeMax
      turn := some (.take o) }
  | .take o =>
    match g.entries.find? o with
    | some e => { g with turn := none, clones := g.clones ++ [⟨o, e.lock, .waiting⟩] }
    | none => { g with
        entries := g.entries.put ⟨o, g.allocated⟩
        turn := none
        allocated := g.allocated + 1
        clones := g.clones ++ [⟨o, g.allocated, .waiting⟩] }

inductive Act where
  /-- A call gets the lock of the map. -/
  | acquire (organizationId : String)
  /-- It looks at one entry, or takes its clone. -/
  | proceed
  /-- The lock is free, and a waiting call gets it. -/
  | grant (i : Nat)
  /-- A guard is dropped: it unlocks first. -/
  | unlock (i : Nat)
  /-- The `Arc` of a guard or of a cancelled wait is dropped. -/
  | drop (i : Nat)

/-- A clone in one of the phases comes to the next one. -/
def Gate.turnTo (g : Gate) (i : Nat) (may : Clone → Bool) (phase : Phase) : Option Gate :=
  (g.clones[i]?.filter may).map fun c =>
    { g with clones := g.clones.set i { c with phase := phase } }

def step (g : Gate) : Act → Option Gate
  | .acquire o =>
    if g.turn.isNone then some { g with
      turn := some (if max g.sweepAt quotaGateMinSweep ≤ g.entries.rows.length
        then .sweep o (g.entries.rows.map (·.organizationId)) else .take o) }
    else none
  | .proceed => g.turn.map g.proceed
  | .grant i => g.turnTo i
      (fun c => c.phase = .waiting && g.clones.all (·.held != some c.lock)) .holding
  | .unlock i => g.turnTo i (·.phase = .holding) .leaving
  | .drop i => g.turnTo i (fun c => c.phase = .waiting || c.phase = .leaving) .gone

/-- The Hub starts. -/
def start : Gate := ⟨Table.empty, 0, none, 0, []⟩

/-- The map has the lock the clone is of. -/
def Mapped (g : Gate) (c : Clone) : Prop :=
  g.entries.find? c.organizationId = some ⟨c.organizationId, c.lock⟩

/-- Whoever has a clone has the lock of the map, and a lock has one guard. -/
structure Inv (g : Gate) : Prop where
  mapped : ∀ c ∈ g.clones, c.phase ≠ .gone → Mapped g c
  apart : Apart Clone.held g.clones

section Steps

variable {g g' : Gate} {c : Clone} {i : Nat} {may : Clone → Bool} {phase : Phase}

/-- A clone is one reference and the entry is another. -/
theorem one_lt_strongCount (hc : c ∈ g.clones) (hlive : c.phase ≠ .gone) (hm : Mapped g c) :
    1 < g.strongCount c.lock := by
  have hentry : 0 < g.entries.rows.countP fun e => e.lock = c.lock :=
    countP_pos_iff.mpr ⟨_, mem_of_find? hm, by simp⟩
  have hclone : 0 < g.clones.countP fun d => d.lock = c.lock && d.phase != .gone :=
    countP_pos_iff.mpr ⟨c, hc, by simp [hlive]⟩
  rw [Gate.strongCount]
  omega

/-- **A SWEEP** leaves the entries that are in use, whatever it looks at, and a
    new entry takes nobody's place. -/
theorem mapped_proceed (turn : Turn) (hc : c ∈ g.clones) (hlive : c.phase ≠ .gone)
    (hm : Mapped g c) : Mapped (g.proceed turn) c := by
  cases turn with
  | sweep o rest =>
    cases rest with
    | nil => exact hm
    | cons k rest =>
      have huse := one_lt_strongCount hc hlive hm
      rw [Mapped, Gate.proceed, find?_delete, hm]
      simp [huse]
  | take o =>
    rw [Gate.proceed]
    split
    · exact hm
    next hnone =>
    have hne : o ≠ c.organizationId := by
      rintro rfl
      cases hm.symm.trans hnone
    rw [Mapped, find?_put, if_neg hne]
    exact hm

theorem turnTo_eq_some (h : g.turnTo i may phase = some g') : ∃ c, g.clones[i]? = some c
    ∧ may c = true ∧ g' = { g with clones := g.clones.set i { c with phase := phase } } := by
  obtain ⟨c, hc, rfl⟩ := map_eq_some_iff.mp h
  obtain ⟨hget, hmay⟩ := filter_eq_some_iff.mp hc
  exact ⟨c, hget, hmay, rfl⟩

/-- Whatever happens, an entry in use stays in the map. -/
theorem mapped_step {a : Act} (hs : step g a = some g') (hc : c ∈ g.clones)
    (hlive : c.phase ≠ .gone) (hm : Mapped g c) : Mapped g' c := by
  cases a with
  | acquire o =>
    obtain ⟨-, rfl⟩ := of_guard hs
    exact hm
  | proceed =>
    obtain ⟨turn, -, rfl⟩ := map_eq_some_iff.mp hs
    exact mapped_proceed turn hc hlive hm
  | grant i | unlock i | drop i =>
    obtain ⟨d, -, -, rfl⟩ := turnTo_eq_some hs
    exact hm

/-- A phase that holds nothing. -/
theorem Inv.turnTo (hi : Inv g) (hs : g.turnTo i may phase = some g')
    (hmay : ∀ c, may c = true → c.phase ≠ .gone)
    (hheld : ∀ c, may c = true → phase = .holding → ∀ d ∈ g.clones, d.held ≠ some c.lock) :
    Inv g' := by
  obtain ⟨c, hc, hok, rfl⟩ := turnTo_eq_some hs
  refine ⟨forall_tasks_set hi.mapped fun _ => ?_, hi.apart.take fun d hd l hl => ?_⟩
  · exact hi.mapped c (mem_of_getElem? hc) (hmay c hok)
  · obtain ⟨hphase, rfl⟩ := of_guard hl
    exact hheld c hok hphase d hd

/-- **ONE STEP** keeps the invariant. -/
theorem inv_step {a : Act} (hi : Inv g) (hs : step g a = some g') : Inv g' := by
  cases a with
  | acquire o =>
    obtain ⟨-, rfl⟩ := of_guard hs
    exact ⟨hi.mapped, hi.apart⟩
  | proceed =>
    obtain ⟨turn, -, rfl⟩ := map_eq_some_iff.mp hs
    have hold : ∀ c ∈ g.clones, c.phase ≠ .gone → Mapped (g.proceed turn) c :=
      fun c hc hlive => mapped_proceed turn hc hlive (hi.mapped c hc hlive)
    cases turn with
    | sweep o rest => cases rest <;> exact ⟨hold, hi.apart⟩
    | take o =>
      rw [Gate.proceed] at hold ⊢
      split at hold
      · next e he =>
        have hkey : e.organizationId = o := key_of_find? he
        refine ⟨forall_tasks_spawn hold fun _ => ?_, hi.apart.spawn (by rintro _ _ _ ⟨⟩)⟩
        subst hkey
        exact he
      · refine ⟨forall_tasks_spawn hold fun _ => ?_, hi.apart.spawn (by rintro _ _ _ ⟨⟩)⟩
        rw [Mapped, find?_put]
        exact if_pos rfl
  | grant i =>
    refine hi.turnTo hs (fun c hc => ?_) fun c hc _ d hd => ?_
    · simp [of_decide_eq_true (Bool.and_eq_true_iff.mp hc).1]
    · exact bne_iff_ne.mp (all_eq_true.mp (Bool.and_eq_true_iff.mp hc).2 d hd)
  | unlock i =>
    refine hi.turnTo hs (fun c hc => ?_) (by rintro _ _ ⟨⟩)
    simp [of_decide_eq_true hc]
  | drop i =>
    refine hi.turnTo hs (fun c hc => ?_) (by rintro _ _ ⟨⟩)
    rcases (Bool.or_eq_true ..).mp hc with hc | hc <;> simp [of_decide_eq_true hc]

end Steps

/-- **ONE GUARD AN ORGANIZATION**, in every interleaving of acquires, sweeps, drops and cancelled
    waits; and no step takes from the map the lock that a guard holds or a call waits for. -/
theorem gate_exclusive {g : Gate} (hreach : Reachable step start g) :
    (∀ (i j : Nat) c d, g.clones[i]? = some c → g.clones[j]? = some d → c.phase = .holding →
      d.phase = .holding → c.organizationId = d.organizationId → i = j)
    ∧ ∀ c ∈ g.clones, c.phase = .holding ∨ c.phase = .waiting → ∀ a g', step g a = some g' →
        g'.entries.find? c.organizationId = some ⟨c.organizationId, c.lock⟩ := by
  have hinv : Inv g := inv_reachable (fun _ _ _ => inv_step) ⟨by simp [start], apart_nil _⟩ hreach
  have hlive : ∀ c : Clone, c.phase = .holding ∨ c.phase = .waiting → c.phase ≠ .gone := by
    rintro c (h | h) <;> simp [h]
  refine ⟨fun i j c d hc hd hhc hhd horg => ?_, fun c hc hphase a g' hs => ?_⟩
  · by_contra hij
    have hmc := hinv.mapped c (mem_of_getElem? hc) (hlive c (.inl hhc))
    have hmd := hinv.mapped d (mem_of_getElem? hd) (hlive d (.inl hhd))
    rw [Mapped, horg, hmd] at hmc
    have hlock : d.lock = c.lock := congrArg Entry.lock (some.inj hmc)
    exact hinv.apart i j c d c.lock hij hc hd (if_pos hhc) ((if_pos hhd).trans (hlock ▸ rfl))
  · exact mapped_step hs hc (hlive c hphase) (hinv.mapped c hc (hlive c hphase))

/-- Two calls for one organization; one is served. -/
def sampleActs : List Act := [.acquire "org", .proceed, .acquire "org", .proceed, .grant 1]

theorem sampleActs_exclusive : ∃ g, run step start sampleActs = some g
    ∧ g.clones.map (·.phase) = [.waiting, .holding]
    ∧ ∀ c ∈ g.clones, c.phase = .holding ∨ c.phase = .waiting → ∀ a g', step g a = some g' →
      g'.entries.find? c.organizationId = some ⟨c.organizationId, c.lock⟩ := by
  obtain ⟨g, hrun, hphases⟩ : ∃ g, run step start sampleActs = some g
      ∧ g.clones.map (·.phase) = [.waiting, .holding] := ⟨_, rfl, rfl⟩
  exact ⟨g, hrun, hphases, (gate_exclusive ⟨_, hrun⟩).2⟩

end Gates
