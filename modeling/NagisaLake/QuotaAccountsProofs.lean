import NagisaLake.QuotaStatementsProofs

/-! # The accounts of a transaction — what it holds and what it owes

A transaction that ends a job owes the ledger a row and the counter one
less; one that adds a job owes the counter one more.  Between its
statements it may be in debt; when it commits it is even, the reconciler's
counter apart.  `TaskInv` says for every statement how it stands.

Its own steps lead from one statement to the next (`taskInv_step`).  The
steps of the others leave it where it was (`Kept.taskInv`): the rows it
speaks of are locked, and while it holds the counter nobody else can have
changed the number of live jobs. -/

namespace QuotaRepair

open Jobs KeyedTable Locking Pools Runs HubStore Quota List Option Locked

/-! ## The accounts of a transaction -/

/-- A live job of the organization counts one. -/
def weight (o : String) (j : JobRow) : Int := if liveOf o j then 1 else 0

/-- The live jobs of the organization, as everybody sees them. -/
def live (o : String) (db : Db) : Int := db.jobs.rows.total (weight o)

/-- The live jobs a transaction has added, less those it has ended. -/
def gain (o : String) (db : Db) (i : Nat) : Int := db.jobs.gain i (weight o)

/-- The ledger has the row of exactly the jobs that have ended. -/
def Released (db : Db) : Prop :=
  ∀ k, (db.ledger.rows.find? k).isSome = true ↔ Terminal db.jobs.rows k

/-- The transaction holds nothing. -/
structure Clean (db : Db) (i : Nat) : Prop where
  jobs : ∀ k, ¬ db.jobs.Holds i k
  ledger : ∀ k, ¬ db.ledger.Holds i k
  usage : ∀ o, ¬ db.usage.Holds i o

/-- The transaction has ended the job. -/
def Ended (db : Db) (i : Nat) (k : Key) : Prop :=
  ∃ j, db.jobs.dirty.find? k = some ⟨i, j⟩ ∧ j.state.isTerminal = true

/-- Jobs and ledger rows the transaction holds: it revives no job, its ledger
    rows are of jobs it has ended, and of those all but `due` have theirs. -/
structure Accounts (db : Db) (i : Nat) (due : List Key) : Prop where
  fair : ∀ k j, db.jobs.dirty.find? k = some ⟨i, j⟩ →
    Terminal db.jobs.rows k → j.state.isTerminal = true
  backed : ∀ k, db.ledger.Holds i k → Ended db i k
  settled : ∀ k, Ended db i k → k ∈ due ∨ (db.ledger.read i k).isSome = true

/-- The counter the transaction holds is right with what it has done, but for
    `c`; without the counter it has done nothing to it. -/
structure Square (o : String) (db : Db) (i : Nat) (c : Int) : Prop where
  held : ∀ u, db.usage.dirty.find? o = some ⟨i, u⟩ → u.activeJobs + c = live o db + gain o db i
  clear : ¬ db.usage.Holds i o → gain o db i = 0

/-- What holds of a transaction at each of its statements. -/
def TaskInv (o : String) (db : Db) (i : Nat) : Tx → Prop
  | .lockUsage _ | .cancelQueued .. | .cancelWait .. | .applyEvent ..
  | .applyWait .. | .committed | .rolledBack => Clean db i
  | .insertJob input _ _ =>
    (∀ k, ¬ db.jobs.Holds i k) ∧ (∀ k, ¬ db.ledger.Holds i k)
      ∧ db.usage.Holds i input.organizationId ∧ Square o db i 0
  | .chargeUsage input _ _ =>
    Accounts db i [] ∧ db.usage.Holds i input.organizationId
      ∧ Square o db i (if input.organizationId = o then 1 else 0)
  | .releaseLedger k _ =>
    Accounts db i [k] ∧ Ended db i k ∧ (∀ k, ¬ db.ledger.Holds i k) ∧ ¬ db.usage.Holds i o
      ∧ ∃ j, db.jobs.rows.find? k = some j ∧ gain o db i = - weight o j
  | .releaseUsage o' =>
    Accounts db i [] ∧ ¬ db.usage.Holds i o ∧ gain o db i = - if o' = o then 1 else 0
  | .findStale .. => i = 0 ∧ Clean db i
  | .giveUp _ _ _ _ failed =>
    i = 0 ∧ Accounts db i failed ∧ (∀ k ∈ failed, Ended db i k)
      ∧ (∀ k, ¬ db.ledger.Holds i k) ∧ ¬ db.usage.Holds i o
  | .recordReleases _ failed =>
    i = 0 ∧ Accounts db i failed ∧ (∀ k ∈ failed, Ended db i k) ∧ ¬ db.usage.Holds i o
  | .recount => i = 0 ∧ Accounts db i [] ∧ ¬ db.usage.Holds i o
  | .recountWait actual =>
    i = 0 ∧ Accounts db i [] ∧ (actual.map Prod.fst).Nodup
  | .zero | .zeroWait _ => i = 0 ∧ Accounts db i []
  | .commit => Accounts db i [] ∧ (i ≠ 0 → Square o db i 0)

section Accounts

variable {o : String} {db db' : Db} {i j : Nat} {due due' : List Key}

theorem live_eq (o : String) (db : Db) : live o db = (db.jobs.rows.count (liveOf o) : Int) :=
  Table.total_indicator ..

/-- What a transaction sees is what everybody sees and its gain. -/
theorem liveSeen_eq (o : String) (db : Db) (i : Nat) :
    (liveSeen db i o : Int) = live o db + gain o db i := by
  have hview : (liveSeen db i o : Int) = (db.jobs.view i).total (weight o) :=
    (Table.total_indicator ..).symm
  rw [hview, live, gain, Locked.gain]
  omega

variable {r : JobRow}

theorem weight_of_terminal (h : r.state.isTerminal = true) : weight o r = 0 := by
  rw [weight, liveOf, JobRow.live, h, Bool.not_true, Bool.and_false]
  rfl

theorem weight_of_live (h : r.state.isTerminal = false) :
    weight o r = if r.organizationId = o then 1 else 0 := by
  rw [weight, liveOf, JobRow.live, h, Bool.not_false, Bool.and_true]
  simp

theorem Clean.gain (h : Clean db i) : gain o db i = 0 :=
  gain_of_clean h.jobs

theorem not_ended (h : ∀ k, ¬ db.jobs.Holds i k) (k : Key) : ¬ Ended db i k := by
  rintro ⟨r, hr, -⟩
  exact h k ⟨r, hr⟩

theorem clean_rollback (db : Db) (i : Nat) : Clean (db.rollback i) i :=
  ⟨fun _ => not_holds_rollback, fun _ => not_holds_rollback, fun _ => not_holds_rollback⟩

theorem clean_commit (db : Db) (i : Nat) : Clean (db.commit i) i :=
  ⟨(clean_rollback db i).jobs, (clean_rollback db i).ledger, (clean_rollback db i).usage⟩

/-- A transaction with no jobs and no ledger rows has nothing to account for. -/
theorem accounts_of_none (hjobs : ∀ k, ¬ db.jobs.Holds i k)
    (hledger : ∀ k, ¬ db.ledger.Holds i k) : Accounts db i [] where
  fair := fun k r hr _ => absurd ⟨r, hr⟩ (hjobs k)
  backed := fun k hk => absurd hk (hledger k)
  settled := fun k hk => absurd hk (not_ended hjobs k)

/-- A job is written before any ledger row. -/
theorem Accounts.writeJob (h : Accounts db i due) (hledger : ∀ k, ¬ db.ledger.Holds i k)
    (hfair : Terminal db.jobs.rows r.key → r.state.isTerminal = true)
    (hdue : ∀ k ∈ due, k ∈ due')
    (hnew : r.state.isTerminal = true → r.key ∈ due' ∨ (db.ledger.read i r.key).isSome = true) :
    Accounts (db.writeJob i r) i due' where
  fair := by
    intro k s hs hterm
    rw [Db.writeJob, find?_dirty_write] at hs
    split at hs
    · next hk =>
      obtain rfl : r = s := congrArg Dirty.row (some.inj hs)
      exact hfair (hk ▸ hterm)
    · exact h.fair k s hs hterm
  backed := fun k hk => absurd hk (hledger k)
  settled := by
    rintro k ⟨s, hs, hterm⟩
    rw [Db.writeJob, find?_dirty_write] at hs
    split at hs
    · next hk =>
      obtain rfl : r = s := congrArg Dirty.row (some.inj hs)
      exact hk ▸ hnew hterm
    · exact (h.settled k ⟨s, hs, hterm⟩).imp (hdue k) id

/-- The ledger row of a job that is due. -/
theorem Accounts.writeLedger {l : LedgerRow} (h : Accounts db i due) (hended : Ended db i l.key)
    (hdue : ∀ k ∈ due, k = l.key ∨ k ∈ due') :
    Accounts (db.writeLedger i l) i due' where
  fair := h.fair
  backed := by
    rintro k ⟨s, hs⟩
    rw [Db.writeLedger, find?_dirty_write] at hs
    split at hs
    · next hk => exact hk ▸ hended
    · exact h.backed k ⟨s, hs⟩
  settled := by
    intro k hk
    have hread : (db.writeLedger i l).ledger.read i k
        = if l.key = k then some l else db.ledger.read i k :=
      read_write ..
    by_cases hl : l.key = k
    · rw [hread, if_pos hl]
      exact .inr rfl
    rw [hread, if_neg hl]
    refine (h.settled k hk).imp (fun hmem => ?_) id
    exact (hdue k hmem).resolve_left fun e => hl e.symm

/-- What is due may be settled already. -/
theorem Accounts.drop (h : Accounts db i due)
    (hdue : ∀ k ∈ due, k ∈ due' ∨ (db.ledger.read i k).isSome = true) :
    Accounts db i due' :=
  { h with
    settled := fun k hk => (h.settled k hk).elim (hdue k) .inr }

/-- The counter, for a transaction that does not hold it. -/
theorem read_usage_of_exact (hexact : Exact o db) (hnot : ¬ db.usage.Holds i o) :
    ∃ u, db.usage.read i o = some u ∧ u.activeJobs = live o db := by
  obtain ⟨u, hu, hactive⟩ := hexact
  refine ⟨u, ?_, ?_⟩
  · rw [read_of_not_holds hnot]
    exact hu
  · rw [hactive, live_eq]

end Accounts

/-! ## What the others do -/

/-- What the facts about a transaction speak of is as it was: what it holds, the ledger rows there
    are and, while it holds the counter, the number of live jobs. -/
structure Kept (o : String) (db db' : Db) (i : Nat) : Prop where
  jobs : db.jobs.Kept db'.jobs i
  ledger : db.ledger.Kept db'.ledger i
  usage : db.usage.Kept db'.usage i
  released : ∀ k, (db.ledger.rows.find? k).isSome = true → (db'.ledger.rows.find? k).isSome = true
  live : db.usage.Holds i o → live o db' = live o db

section Kept

variable {o : String} {db db' : Db} {i j : Nat} {due : List Key} {c : Int}

section

variable (h : Kept o db db' i)
include h

theorem Kept.gain : gain o db' i = gain o db i :=
  h.jobs.gain _

theorem Kept.ended (k : Key) : Ended db' i k ↔ Ended db i k :=
  exists_congr fun r => and_congr_left fun _ => h.jobs.dirty k r

theorem Kept.clean (hc : Clean db i) : Clean db' i where
  jobs := fun k hk => hc.jobs k (h.jobs.holds.mp hk)
  ledger := fun k hk => hc.ledger k (h.ledger.holds.mp hk)
  usage := fun k hk => hc.usage k (h.usage.holds.mp hk)

theorem Kept.accounts (ha : Accounts db i due) : Accounts db' i due where
  fair := by
    rintro k r hr ⟨s, hs, hterm⟩
    have hr' := (h.jobs.dirty k r).mp hr
    rw [h.jobs.rows k ⟨r, hr'⟩] at hs
    exact ha.fair k r hr' ⟨s, hs, hterm⟩
  backed := fun k hk => (h.ended k).mpr (ha.backed k (h.ledger.holds.mp hk))
  settled := by
    intro k hk
    refine (ha.settled k ((h.ended k).mp hk)).imp id fun hread => ?_
    rw [Locked.isSome_read] at hread ⊢
    exact hread.imp h.ledger.holds.mpr (h.released k)

theorem Kept.square : Square o db' i c ↔ Square o db i c := by
  constructor
  · intro hs
    refine ⟨fun u hu => ?_, fun hnot => ?_⟩
    · rw [← h.live ⟨u, hu⟩, ← h.gain]
      exact hs.held u ((h.usage.dirty o u).mpr hu)
    · rw [← h.gain]
      exact hs.clear fun hk => hnot (h.usage.holds.mp hk)
  · intro hs
    refine ⟨fun u hu => ?_, fun hnot => ?_⟩
    · have hu' := (h.usage.dirty o u).mp hu
      rw [h.live ⟨u, hu'⟩, h.gain]
      exact hs.held u hu'
    · rw [h.gain]
      exact hs.clear fun hk => hnot (h.usage.holds.mpr hk)

/-- **FRAME**: what the others do leaves a transaction where it was. -/
theorem Kept.taskInv {t : Tx} (ht : TaskInv o db i t) : TaskInv o db' i t := by
  have hledger : (∀ k, ¬ db.ledger.Holds i k) → ∀ k, ¬ db'.ledger.Holds i k :=
    fun hno k hk => hno k (h.ledger.holds.mp hk)
  have husage : ¬ db.usage.Holds i o → ¬ db'.usage.Holds i o :=
    fun hno hk => hno (h.usage.holds.mp hk)
  cases t with
  | lockUsage | cancelQueued | cancelWait | applyEvent | applyWait
  | committed | rolledBack => exact h.clean ht
  | insertJob input policy usage =>
    obtain ⟨hjobs, hl, hheld, hsq⟩ := ht
    exact ⟨fun k hk => hjobs k (h.jobs.holds.mp hk), hledger hl,
      h.usage.holds.mpr hheld, h.square.mpr hsq⟩
  | chargeUsage input period startedAt =>
    obtain ⟨hacc, hheld, hsq⟩ := ht
    exact ⟨h.accounts hacc, h.usage.holds.mpr hheld, h.square.mpr hsq⟩
  | releaseLedger k now =>
    obtain ⟨hacc, hended, hl, hu, r, hr, hgain⟩ := ht
    have ⟨s, hs, _⟩ := hended
    refine ⟨h.accounts hacc, (h.ended k).mpr hended, hledger hl, husage hu, r, ?_, ?_⟩
    · rw [h.jobs.rows k ⟨s, hs⟩]
      exact hr
    · rw [h.gain]
      exact hgain
  | releaseUsage o' =>
    obtain ⟨hacc, hu, hgain⟩ := ht
    refine ⟨h.accounts hacc, husage hu, ?_⟩
    rw [h.gain]
    exact hgain
  | findStale => exact ⟨ht.1, h.clean ht.2⟩
  | giveUp now cutoff seen waiting failed =>
    obtain ⟨hi, hacc, hf, hl, hu⟩ := ht
    exact ⟨hi, h.accounts hacc, fun k hk => (h.ended k).mpr (hf k hk), hledger hl, husage hu⟩
  | recordReleases now failed =>
    obtain ⟨hi, hacc, hf, hu⟩ := ht
    exact ⟨hi, h.accounts hacc, fun k hk => (h.ended k).mpr (hf k hk), husage hu⟩
  | recount => exact ⟨ht.1, h.accounts ht.2.1, husage ht.2.2⟩
  | recountWait => exact ⟨ht.1, h.accounts ht.2.1, ht.2.2⟩
  | zero | zeroWait => exact ⟨ht.1, h.accounts ht.2⟩
  | commit => exact ⟨h.accounts ht.1, fun hi => h.square.mpr (ht.2 hi)⟩

end

section

variable (h : Quiet db j db')
include h

/-- Without a commit everybody sees what they saw. -/
theorem Quiet.rows : db'.jobs.rows = db.jobs.rows ∧ db'.ledger.rows = db.ledger.rows
      ∧ db'.usage.rows = db.usage.rows := by
  cases h <;> exact ⟨rfl, rfl, rfl⟩

theorem Quiet.exact_iff : Exact o db' ↔ Exact o db := by
  obtain ⟨hjobs, -, husage⟩ := h.rows
  rw [Exact, Exact, hjobs, husage]

theorem Quiet.released_iff : Released db' ↔ Released db := by
  obtain ⟨hjobs, hledger, -⟩ := h.rows
  rw [Released, Released, hjobs, hledger]

theorem Quiet.live_eq : live o db' = live o db := by
  rw [live, live, h.rows.1]

theorem Quiet.kept (hij : i ≠ j) : Kept o db db' i := by
  have hledger : ∀ k, (db.ledger.rows.find? k).isSome = true →
      (db'.ledger.rows.find? k).isSome = true := by
    intro k hk
    rw [h.rows.2.1]
    exact hk
  have hlive : db.usage.Holds i o → live o db' = live o db :=
    fun _ => h.live_eq
  cases h with
  | same => exact ⟨.refl .., .refl .., .refl .., hledger, hlive⟩
  | job r hfree =>
    exact ⟨kept_write hfree hij, .refl .., .refl .., hledger, hlive⟩
  | ledger l hfree =>
    exact ⟨.refl .., kept_write hfree hij, .refl .., hledger, hlive⟩
  | usage u hfree =>
    exact ⟨.refl .., .refl .., kept_write hfree hij, hledger, hlive⟩
  | rollback =>
    exact ⟨kept_rollback hij, kept_rollback hij, kept_rollback hij, hledger, hlive⟩

end

/-- A commit.  Whoever holds the counter keeps the committer from changing the
    number of live jobs, as long as the counter is right before and after. -/
theorem kept_commit (hexact : Exact o db) (hafter : Exact o (db.commit j))
    (hij : i ≠ j) : Kept o db (db.commit j) i where
  jobs := Locked.kept_commit hij
  ledger := Locked.kept_commit hij
  usage := Locked.kept_commit hij
  released := by
    intro k hk
    show ((db.ledger.view j).find? k).isSome = true
    rw [Locked.find?_view, Locked.isSome_read]
    exact .inr hk
  live := by
    intro hheld
    obtain ⟨u, hu, hactive⟩ := hexact
    obtain ⟨u', hu', hactive'⟩ := hafter
    -- the committer does not hold the counter, so its row is the old one
    have hrow := (Locked.kept_commit (j := j) hij).rows o hheld
    cases hu'.symm.trans (hrow.trans hu)
    rw [live_eq, live_eq, ← hactive, ← hactive']

end Kept

/-! ## A transaction's own steps -/

section Own

variable {o : String} {db : Db} {i : Nat} {r : Db × Tx} {due : List Key}
  {c : Int}

variable {u : UsageRow} {j : JobRow} {k : Key} {now : Int}

theorem Accounts.writeUsage (h : Accounts db i due) : Accounts (db.writeUsage i u) i due :=
  ⟨h.fair, h.backed, h.settled⟩

theorem Clean.square (h : Clean db i) : Square o db i 0 :=
  ⟨fun u hu => absurd ⟨u, hu⟩ (h.usage o), fun _ => h.gain⟩

/-- The counter is written. -/
theorem square_writeUsage (hu : u.organizationId = o)
    (hactive : u.activeJobs + c = live o db + gain o db i) :
    Square o (db.writeUsage i u) i c := by
  have hdirty : (db.writeUsage i u).usage.dirty.find? o = some ⟨i, u⟩ := by
    rw [Db.writeUsage, find?_dirty_write, if_pos hu]
  refine ⟨fun v hv => ?_, fun hno => absurd ⟨u, hdirty⟩ hno⟩
  obtain rfl : u = v :=
    congrArg Dirty.row (some.inj (hdirty.symm.trans hv))
  exact hactive

/-- The counter of another organization is written. -/
theorem dirty_writeUsage_other (hu : u.organizationId ≠ o) :
    (db.writeUsage i u).usage.dirty.find? o = db.usage.dirty.find? o := by
  rw [Db.writeUsage, find?_dirty_write, if_neg hu]

theorem holds_writeUsage_other (hu : u.organizationId ≠ o) :
    (db.writeUsage i u).usage.Holds i o ↔ db.usage.Holds i o := by
  rw [Locked.Holds, Locked.Holds, dirty_writeUsage_other hu]

theorem Square.writeUsage_other (h : Square o db i c)
    (hu : u.organizationId ≠ o) : Square o (db.writeUsage i u) i c where
  held := by
    intro v hv
    rw [dirty_writeUsage_other hu] at hv
    exact h.held v hv
  clear := fun hno => h.clear fun hk =>
    hno ((holds_writeUsage_other hu).mpr hk)

theorem gain_writeJob (o : String) (db : Db) (i : Nat) (j : JobRow) :
    gain o (db.writeJob i j) i + ((db.jobs.read i j.key).map (weight o)).getD 0
      = gain o db i + weight o j :=
  gain_write ..

theorem ended_writeJob : Ended (db.writeJob i j) i k
      ↔ if j.key = k then j.state.isTerminal = true else Ended db i k := by
  rw [Ended, Db.writeJob, find?_dirty_write]
  split
  · constructor
    · rintro ⟨s, hs, hterm⟩
      obtain rfl : j = s := congrArg Dirty.row (some.inj hs)
      exact hterm
    · exact fun hterm => ⟨j, rfl, hterm⟩
  · exact Iff.rfl

variable {input : JobUpsert}

theorem taskInv_lockUsage (hexact : Exact o db) (h : Clean db i)
    (hstep : lockUsage db i input = some r) :
    TaskInv o r.1 i r.2 := by
  rcases lockUsage_cases hstep with rfl | ⟨policy, u, -, hread, rfl⟩
  · exact clean_rollback db i
  have hkey := key_of_read hread
  refine ⟨h.jobs, h.ledger, ⟨u, ?_⟩, ?_⟩
  · rw [Db.writeUsage, find?_dirty_write, if_pos hkey]
  by_cases ho : input.organizationId = o
  · obtain ⟨v, hv, hactive⟩ := read_usage_of_exact hexact (h.usage o)
    rw [ho, hv] at hread
    obtain rfl : v = u := some.inj hread
    refine square_writeUsage (hkey.trans ho) ?_
    rw [h.gain]
    omega
  · exact h.square.writeUsage_other fun e => ho (hkey.symm.trans e)

theorem taskInv_insertJob {policy : PolicyRow} {usage : UsageRow}
    {reply : Reply} (h : TaskInv o db i (.insertJob input policy usage))
    (hstep : insertJob db i input policy usage reply = some r) :
    TaskInv o r.1 i r.2 := by
  obtain ⟨hjobs, hledger, hheld, hsq⟩ := h
  have hacc := accounts_of_none hjobs hledger
  rcases insertJob_cases hstep with rfl | rfl | ⟨_, _, -, hread, rfl⟩
  · exact clean_rollback db i
  · exact ⟨hacc, fun _ => hsq⟩
  -- the new job counts, the counter does not have it yet
  have hgain := gain_writeJob o db i input.row
  rw [hread, weight_of_live rfl] at hgain
  have hgain' : gain o (db.writeJob i input.row) i
      = gain o db i + if input.organizationId = o then 1 else 0 := by
    exact (Int.add_zero _).symm.trans hgain
  refine ⟨hacc.writeJob hledger ?_ (fun _ => id) nofun, hheld, ?_, ?_⟩
  · rintro ⟨j, hj, -⟩
    rw [read_of_not_holds (hjobs _), hj] at hread
    cases hread
  · intro u hu
    have hactive := hsq.held u hu
    rw [hgain']
    show _ = live o db + _
    omega
  · intro hno
    have ho : input.organizationId ≠ o := fun e => hno (e ▸ hheld)
    rw [hgain', if_neg ho, hsq.clear hno]
    rfl

theorem taskInv_chargeUsage {period startedAt : Int}
    (h : TaskInv o db i (.chargeUsage input period startedAt))
    (hstep : updateUsage db i input.organizationId
      (fun u => u.charge 1 period startedAt) .commit = some r) :
    TaskInv o r.1 i r.2 := by
  obtain ⟨hacc, ⟨v, hv⟩, hsq⟩ := h
  have hread := read_of_holds hv
  rcases updateUsage_cases hstep with ⟨hnone, -⟩ | ⟨u, -, hu, rfl⟩
  · rw [hread] at hnone
    cases hnone
  cases hread.symm.trans hu
  have hkey : v.organizationId = input.organizationId :=
    key_of_read hread
  refine ⟨hacc.writeUsage, fun _ => ?_⟩
  by_cases ho : input.organizationId = o
  · refine square_writeUsage (hkey.trans ho) ?_
    have hactive := hsq.held v (ho ▸ hv)
    rw [if_pos ho] at hactive
    show v.activeJobs + 1 + 0 = _
    omega
  · rw [if_neg ho] at hsq
    exact hsq.writeUsage_other fun e => ho (hkey.symm.trans e)

/-- The job ends; the ledger and the counter are due. -/
theorem taskInv_finish {f : JobRow → JobRow} (now : Int) (h : Clean db i)
    (hf : (f j).key = j.key) (hread : db.jobs.read i k = some j)
    (hterm : (f j).state.isTerminal = true) :
    TaskInv o (db.writeJob i (f j)) i (.releaseLedger k now) := by
  have hkey : (f j).key = k := hf.trans (key_of_read hread)
  have hgain := gain_writeJob o db i (f j)
  rw [hkey, hread, weight_of_terminal hterm, h.gain] at hgain
  refine ⟨?_, ?_, h.ledger, h.usage o, j, ?_, ?_⟩
  · exact (accounts_of_none h.jobs h.ledger).writeJob h.ledger
      (fun _ => hterm) nofun fun _ => .inl (hkey ▸ mem_singleton_self _)
  · exact ended_writeJob.mpr (by rw [if_pos hkey]; exact hterm)
  · rw [read_of_not_holds (h.jobs k)] at hread
    exact hread
  · simp only [map_some, getD_some] at hgain
    omega

/-- A job moves on and stays alive. -/
theorem taskInv_move {f : JobRow → JobRow} (h : Clean db i)
    (hf : (f j).key = j.key) (hread : db.jobs.read i k = some j)
    (hwas : j.state.isTerminal = false)
    (hlive : (f j).state.isTerminal = false) :
    TaskInv o (db.writeJob i (f j)) i .commit := by
  have hkey : (f j).key = k := hf.trans (key_of_read hread)
  have hgain := gain_writeJob o db i (f j)
  have horg : (f j).organizationId = j.organizationId := congrArg Prod.fst hf
  rw [hkey, hread, weight_of_live hlive, horg, h.gain, map_some,
    weight_of_live hwas, getD_some] at hgain
  refine ⟨(accounts_of_none h.jobs h.ledger).writeJob h.ledger ?_ nofun ?_,
    fun _ => ⟨fun u hu => absurd ⟨u, hu⟩ (h.usage o), fun _ => by omega⟩⟩
  · rintro ⟨s, hs, hterm⟩
    rw [hkey, ← read_of_not_holds (h.jobs k), hread] at hs
    rw [some.inj hs, hterm] at hwas
    cases hwas
  · intro hterm
    rw [hlive] at hterm
    cases hterm

theorem taskInv_cancelWait (h : Clean db i)
    (hstep : finishUpdate db i k JobRow.queued (JobRow.cancelQueued now)
      (.releaseLedger k now) = some r) : TaskInv o r.1 i r.2 := by
  rcases finishUpdate_cases hstep with rfl | ⟨j, -, hread, -, rfl⟩
  · exact clean_rollback db i
  · exact taskInv_finish now h (JobRow.cancelQueued_key now j) hread rfl

theorem taskInv_applyWait {e : EventRow} {u : JobEventUpdate} (h : Clean db i)
    (hstep : finishUpdate db i e.jobKey (u.expects e.attempt) (u.write e now)
      (afterEvent e u now) = some r) : TaskInv o r.1 i r.2 := by
  rcases finishUpdate_cases hstep with rfl | ⟨j, -, hread, hexp, rfl⟩
  · exact clean_rollback db i
  have hkey := u.write_key e now j
  rw [afterEvent]
  split
  · next hterm => exact taskInv_finish now h hkey hread hterm
  next hlive =>
  rw [Bool.not_eq_true] at hlive
  refine taskInv_move h hkey hread ?_ hlive
  -- an event leaves a job that has ended as it is
  rw [JobEventUpdate.state_of_expects hexp]
  by_contra hterm
  rw [Bool.not_eq_false] at hterm
  rw [u.state_eq hterm, hterm] at hlive
  cases hlive

theorem taskInv_releaseLedger (hrel : Released db) (h : TaskInv o db i (.releaseLedger k now))
    (hstep : releaseLedger db i k now = some r) : TaskInv o r.1 i r.2 := by
  obtain ⟨hacc, hended, hledger, husage, j, hj, hgain⟩ := h
  have ⟨s, hs, hterm⟩ := hended
  rcases releaseLedger_cases hstep with ⟨rfl, hsome⟩ | ⟨-, hnone, rfl⟩
  · have hrow := hsome s (read_of_holds hs) hterm
    refine ⟨hacc.drop ?_, fun _ => ⟨fun u hu => absurd ⟨u, hu⟩ husage, fun _ => ?_⟩⟩
    · intro k' hk'
      exact .inr (mem_singleton.mp hk' ▸ hrow)
    -- somebody has released the job before: it had ended before
    rw [read_of_not_holds (hledger k)] at hrow
    obtain ⟨j', hj', hterm'⟩ := (hrel k).mp hrow
    cases hj.symm.trans hj'
    rw [hgain, weight_of_terminal hterm']
    rfl
  · refine ⟨hacc.writeLedger hended ?_, husage, ?_⟩
    · intro k' hk'
      exact .inl (mem_singleton.mp hk')
    have hlive : j.state.isTerminal = false := by
      by_contra hdead
      rw [Bool.not_eq_false] at hdead
      have hrow := (hrel k).mpr ⟨j, hj, hdead⟩
      rw [read_of_not_holds (hledger k)] at hnone
      rw [hnone] at hrow
      cases hrow
    have horg : j.organizationId = k.1 :=
      congrArg Prod.fst (Table.key_of_find? hj)
    show gain o db i = _
    rw [hgain, weight_of_live hlive, horg]

theorem taskInv_releaseUsage {o' : String} (hexact : Exact o db)
    (h : TaskInv o db i (.releaseUsage o'))
    (hstep : updateUsage db i o' UsageRow.release .commit = some r) :
    TaskInv o r.1 i r.2 := by
  obtain ⟨hacc, husage, hgain⟩ := h
  obtain ⟨v, hv, hactive⟩ := read_usage_of_exact hexact husage
  have hsq : o' ≠ o → Square o db i 0 := fun ho =>
    ⟨fun u hu => absurd ⟨u, hu⟩ husage, fun _ => by
      rw [hgain, if_neg ho]
      rfl⟩
  rcases updateUsage_cases hstep with ⟨hnone, rfl⟩ | ⟨u, -, hread, rfl⟩
  · refine ⟨hacc, fun _ => hsq ?_⟩
    rintro rfl
    rw [hv] at hnone
    cases hnone
  · have hkey : u.organizationId = o' := key_of_read hread
    refine ⟨hacc.writeUsage, fun _ => ?_⟩
    by_cases ho : o' = o
    · subst ho
      cases hv.symm.trans hread
      rw [if_pos rfl] at hgain
      -- the clamp does not act: the job the transaction has ended was counted
      have hseen := liveSeen_eq o' db i
      refine square_writeUsage hkey ?_
      show max 0 (v.activeJobs - 1) + 0 = _
      omega
    · exact (hsq ho).writeUsage_other fun e => ho (hkey.symm.trans e)

/-- A row that is only locked. -/
theorem Accounts.lockJob (h : Accounts db i due) (hrel : Released db)
    (hledger : ∀ k, ¬ db.ledger.Holds i k)
    (hread : db.jobs.read i k = some j) :
    Accounts (db.writeJob i j) i due := by
  have hkey : j.key = k := key_of_read hread
  by_cases hheld : db.jobs.Holds i k
  · obtain ⟨s, hs⟩ := hheld
    rw [read_of_holds hs] at hread
    obtain rfl : s = j := some.inj hread
    refine h.writeJob hledger (fun hterm => h.fair k s hs (hkey ▸ hterm))
      (fun _ => id) fun hterm => ?_
    rw [hkey]
    exact h.settled k ⟨s, hs, hterm⟩
  · rw [read_of_not_holds hheld] at hread
    refine h.writeJob hledger ?_ (fun _ => id) fun hterm => ?_
    · rintro ⟨s, hs, hterm⟩
      rw [hkey, hread] at hs
      rw [some.inj hs]
      exact hterm
    · -- a job that had ended before was released by whoever ended it
      rw [hkey]
      exact .inr (Locked.isSome_read.mpr (.inr ((hrel k).mpr ⟨j, hread, hterm⟩)))

/-- A job stays ended when its row is only locked. -/
theorem Ended.lockJob {k' : Key} (h : Ended db i k')
    (hread : db.jobs.read i k = some j) : Ended (db.writeJob i j) i k' := by
  rw [ended_writeJob]
  split
  · next hk =>
    obtain ⟨s, hs, hterm⟩ := h
    rw [← hk, key_of_read hread] at hs
    rw [read_of_holds hs] at hread
    exact some.inj hread ▸ hterm
  · exact h

theorem taskInv_giveUp {cutoff : Int} {seen waiting failed : List Key} (hrel : Released db)
    (h : TaskInv o db i (.giveUp now cutoff seen waiting failed))
    (hstep : giveUp db i now cutoff seen waiting failed = some r) :
    TaskInv o r.1 i r.2 := by
  obtain ⟨hi, hacc, hf, hledger, husage⟩ := h
  cases waiting with
  | nil =>
    cases hstep
    exact ⟨hi, hacc, hf, husage⟩
  | cons k ks =>
    rcases giveUp_cons_cases hstep with
      rfl | ⟨j, -, hread, ⟨-, rfl⟩ | rfl⟩
    · exact ⟨hi, hacc, hf, hledger, husage⟩
    · have hkey : (j.giveUp now).key = k :=
        (JobRow.giveUp_key now j).trans (key_of_read hread)
      refine ⟨hi, hacc.writeJob hledger (fun _ => rfl) ?_ ?_, ?_, hledger, husage⟩
      · exact fun k' hk' => mem_append_left _ hk'
      · exact fun _ => .inl (hkey ▸ mem_append_right _ (mem_singleton_self _))
      intro k' hk'
      rw [ended_writeJob]
      split
      · rfl
      next hne =>
      refine hf k' ((mem_append.mp hk').resolve_right ?_)
      exact fun hk => hne (hkey.trans (mem_singleton.mp hk).symm)
    · exact ⟨hi, hacc.lockJob hrel hledger hread,
        fun k' hk' => (hf k' hk').lockJob hread, hledger, husage⟩

theorem taskInv_recordReleases {failed : List Key} (h : TaskInv o db i (.recordReleases now failed))
    (hstep : recordReleases db i now failed = some r) :
    TaskInv o r.1 i r.2 := by
  obtain ⟨hi, hacc, hf, husage⟩ := h
  cases failed with
  | nil =>
    cases hstep
    exact ⟨hi, hacc, husage⟩
  | cons k ks =>
    have hks : ∀ k' ∈ ks, Ended db i k' :=
      fun k' hk' => hf k' (mem_cons_of_mem _ hk')
    rcases recordReleases_cons_cases hstep with ⟨hsome, rfl⟩ | ⟨-, rfl⟩
    · refine ⟨hi, hacc.drop fun k' hk' => ?_, hks, husage⟩
      rcases mem_cons.mp hk' with rfl | hk'
      · exact .inr hsome
      · exact .inl hk'
    · refine ⟨hi, hacc.writeLedger (hf k mem_cons_self) ?_, hks, husage⟩
      exact fun k' hk' => mem_cons.mp hk'

/-- An organization is counted once. -/
theorem miscounted_nodup (db : Db) (i : Nat) : ((miscounted db i).map Prod.fst).Nodup := by
  rw [miscounted, List.map_map]
  exact (db.usage.view i).nodup.sublist (filter_sublist.map _)

/-- Correcting a counter touches no job and no ledger row. -/
theorem accounts_updateUsage {o' : String} {f : UsageRow → UsageRow}
    {next : Tx} (h : Accounts db i [])
    (hstep : updateUsage db i o' f next = some r) :
    Accounts r.1 i [] ∧ r.2 = next := by
  rcases updateUsage_cases hstep with ⟨-, rfl⟩ | ⟨u, -, -, rfl⟩
  · exact ⟨h, rfl⟩
  · exact ⟨h.writeUsage, rfl⟩

/-- **ITS OWN STEP** takes a transaction from one statement to the next. -/
theorem taskInv_step {t : Tx} {reply : Reply} (hexact : Exact o db)
    (hrel : Released db) (h : TaskInv o db i t)
    (hstep : taskStep db i t reply = some r) : TaskInv o r.1 i r.2 := by
  cases t with
  | lockUsage input => exact taskInv_lockUsage hexact h hstep
  | insertJob input policy usage => exact taskInv_insertJob h hstep
  | chargeUsage input period startedAt => exact taskInv_chargeUsage h hstep
  | cancelQueued | applyEvent =>
    rcases startUpdate_cases hstep with rfl | rfl
    · exact clean_rollback db i
    · exact h
  | cancelWait k now => exact taskInv_cancelWait h hstep
  | applyWait e u now => exact taskInv_applyWait h hstep
  | releaseLedger k now => exact taskInv_releaseLedger hrel h hstep
  | releaseUsage o' => exact taskInv_releaseUsage hexact h hstep
  | findStale now staleAfterMs seen =>
    cases hstep
    exact ⟨h.1, accounts_of_none h.2.jobs h.2.ledger, nofun, h.2.ledger, h.2.usage o⟩
  | giveUp now cutoff seen waiting failed => exact taskInv_giveUp hrel h hstep
  | recordReleases now failed => exact taskInv_recordReleases h hstep
  | recount =>
    cases hstep
    exact ⟨h.1, h.2.1, miscounted_nodup db i⟩
  | recountWait actual =>
    cases actual with
    | nil =>
      cases hstep
      exact ⟨h.1, h.2.1⟩
    | cons c rest =>
      obtain ⟨hacc, hnext⟩ := accounts_updateUsage h.2.1 hstep
      rw [hnext]
      exact ⟨h.1, hacc, (nodup_cons.mp h.2.2).2⟩
  | zero =>
    cases hstep
    exact h
  | zeroWait organizations =>
    cases organizations with
    | nil =>
      cases hstep
      exact ⟨h.2, fun hi => absurd h.1 hi⟩
    | cons o' rest =>
      obtain ⟨hacc, hnext⟩ := accounts_updateUsage h.2 hstep
      rw [hnext]
      exact ⟨h.1, hacc⟩
  | commit =>
    cases hstep
    exact clean_commit db i
  | committed | rolledBack => cases hstep

/-- A commit adds the ledger rows of the jobs it ends, and no other. -/
theorem released_commit (hrel : Released db) (h : Accounts db i []) : Released (db.commit i) := by
  -- job by job: either the transaction holds its row, or nothing has changed
  intro k
  show ((db.ledger.view i).find? k).isSome = true ↔ Terminal (db.jobs.view i) k
  rw [find?_view, Terminal, find?_view]
  by_cases hheld : db.jobs.Holds i k
  · obtain ⟨j, hj⟩ := hheld
    rw [read_of_holds hj]
    constructor
    · intro hsome
      refine ⟨j, rfl, ?_⟩
      rcases Locked.isSome_read.mp hsome with hledger | hrow
      · obtain ⟨j', hj', hterm⟩ := h.backed k hledger
        obtain rfl : j = j' :=
          congrArg Dirty.row (some.inj (hj.symm.trans hj'))
        exact hterm
      · exact h.fair k j hj ((hrel k).mp hrow)
    · rintro ⟨j', hj', hterm⟩
      rw [← some.inj hj'] at hterm
      exact (h.settled k ⟨j, hj, hterm⟩).resolve_left (by simp)
  · have hledger : ¬ db.ledger.Holds i k := by
      intro hk
      obtain ⟨j, hj, -⟩ := h.backed k hk
      exact hheld ⟨j, hj⟩
    rw [read_of_not_holds hheld, read_of_not_holds hledger]
    exact hrel k

/-- A commit leaves the counter right just when it is squared. -/
theorem exact_commit_iff (hexact : Exact o db) : Exact o (db.commit i) ↔ Square o db i 0 := by
  have hlive : live o (db.commit i) = live o db + gain o db i :=
    total_commit ..
  have hrow : (db.commit i).usage.rows.find? o = db.usage.read i o :=
    find?_view ..
  rw [Exact, hrow, ← live_eq, hlive]
  by_cases hheld : db.usage.Holds i o
  · obtain ⟨u, hu⟩ := hheld
    rw [read_of_holds hu]
    constructor
    · rintro ⟨v, hv, hactive⟩
      refine ⟨fun x hx => ?_, fun hno => absurd ⟨u, hu⟩ hno⟩
      obtain rfl : u = x :=
        congrArg Dirty.row (some.inj (hu.symm.trans hx))
      rw [some.inj hv, hactive]
      omega
    · intro h
      have hactive := h.held u hu
      exact ⟨u, rfl, by omega⟩
  · obtain ⟨u, hread, hactive⟩ := read_usage_of_exact hexact hheld
    rw [hread]
    constructor
    · rintro ⟨v, hv, hactive'⟩
      rw [← some.inj hv] at hactive'
      exact ⟨fun x hx => absurd ⟨x, hx⟩ hheld, fun _ => by omega⟩
    intro h
    have hgain := h.clear hheld
    exact ⟨u, rfl, by omega⟩

end Own

end QuotaRepair
