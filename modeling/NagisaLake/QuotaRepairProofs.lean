import NagisaLake.QuotaAccountsProofs

/-! # Repairing the quota — when the number counted is still right

The reconciler sets the counter to the number of live jobs in the snapshot
of its statement.  Waiting for the counter's lock, it does not count
again.  So the repair is right just when the count is, at the moment it is
used: when the row is locked, or when the second `UPDATE` finds that there
is nothing left to set.

The converse is proved with it.  A count that is out of date when it is
used stays out of date, since nobody can move the number of live jobs past
the locked counter, and the commit makes it everybody's. -/

namespace QuotaRepair

open Jobs KeyedTable Locking Pools Runs HubStore Quota List Locked Admitted Option

/-! ## The transactions together -/

/-- The counter and the ledger are right for everybody, and every transaction
    stands where its next statement says. -/
structure Inv (o : String) (p : Pool Db Tx) : Prop where
  exact : Exact o p.shared
  released : Released p.shared
  started : 0 < p.tasks.length
  tasks : ∀ i, TaskInv o p.shared i (txAt p i)

section Pool

variable {o : String} {p q : Pool Db Tx} {a : Act} {i : Nat} {t : Tx}

theorem txAt_of_getElem? (h : p.tasks[i]? = some t) : txAt p i = t := by
  rw [txAt, List.getD_eq_getElem?_getD, h]
  rfl

theorem txAt_set (db : Db) (h : p.tasks[i]? = some t) (t' : Tx) (j : Nat) :
    txAt ⟨db, p.tasks.set i t'⟩ j = if i = j then t' else txAt p j := by
  obtain ⟨hi, -⟩ := List.getElem?_eq_some_iff.mp h
  rw [txAt, txAt, List.getD_eq_getElem?_getD, List.getD_eq_getElem?_getD, getElem?_set]
  by_cases hij : i = j
  · rw [if_pos hij, if_pos hij, if_pos hi]
    rfl
  · rw [if_neg hij, if_neg hij]

theorem txAt_spawn (p : Pool Db Tx) (t : Tx) (j : Nat) :
    txAt (p.spawn t) j = if j = p.tasks.length then t else txAt p j := by
  rw [txAt, txAt, List.getD_eq_getElem?_getD, List.getD_eq_getElem?_getD,
    Pool.spawn, getElem?_append]
  by_cases hlt : j < p.tasks.length
  · rw [if_pos hlt, if_neg (Nat.ne_of_lt hlt)]
  rw [if_neg hlt, getElem?_eq_none (Nat.le_of_not_lt hlt)]
  split
  · next hj =>
    subst hj
    rw [Nat.sub_self]
    rfl
  · next hj =>
    rw [getElem?_eq_none]
    simp only [length_cons, length_nil]
    omega

/-- The transaction takes its next step, or is lost. -/
def Moves (db : Db) (a : Act) (i : Nat) (t : Tx) (r : Db × Tx) : Prop :=
  (∃ reply, a = .next i reply ∧ taskStep db i t reply = some r) ∨ (a = .lose i ∧ r = abort db i)

/-- A transaction begins with nothing in its hands, or one of them moves. -/
theorem step_cases (h : step p a = some q) : (∃ t, q = p.spawn t ∧ (∀ i reply, a ≠ .next i reply)
      ∧ ∀ o db i, Clean db i → TaskInv o db i t)
    ∨ ∃ i t r, p.tasks[i]? = some t ∧ q = ⟨r.1, p.tasks.set i r.2⟩ ∧ Moves p.shared a i t r := by
  cases a with
  | commitNewJob input | cancelQueuedJob k now | applyJobEvent e u now =>
    exact .inl ⟨_, (some.inj h).symm, nofun, fun _ _ _ hc => hc⟩
  | next i reply =>
    change p.advance (fun db t r => taskStep db i t r) i reply = some q at h
    obtain ⟨t, db, t', ht, hr, rfl⟩ := Pool.advance_eq_some h
    exact .inr ⟨i, t, (db, t'), ht, rfl, .inl ⟨reply, rfl, hr⟩⟩
  | lose i =>
    change p.advance (fun db t (_ : Reply) => lose db i t) i .ok = some q at h
    obtain ⟨t, db, t', ht, hr, rfl⟩ := Pool.advance_eq_some h
    refine .inr ⟨i, t, (db, t'), ht, rfl, .inr ?_⟩
    cases t with
    | committed | rolledBack => cases hr
    | _ => exact ⟨rfl, (some.inj hr).symm⟩

/-- What the step of one transaction leaves of another. -/
theorem kept_of_moved {r : Db × Tx} {j : Nat} (hexact : Exact o p.shared)
    (hafter : Exact o r.1) (hji : j ≠ i) (h : Moves p.shared a i t r) :
    Kept o p.shared r.1 j := by
  rcases h with ⟨reply, -, hr⟩ | ⟨-, rfl⟩
  · rcases taskStep_quiet hr with ⟨-, rfl⟩ | hquiet
    · exact kept_commit hexact hafter hji
    · exact hquiet.kept hji
  · exact Quiet.rollback.kept hji

/-- **ONE STEP** keeps all of it, as long as the counter is right after it. -/
theorem Inv.step (h : Inv o p) (hafter : Exact o q.shared)
    (hstep : step p a = some q) : Inv o q := by
  rcases step_cases hstep with ⟨t, rfl, -, ht⟩ | ⟨i, t, r, hi, rfl, hmove⟩
  · refine ⟨h.exact, h.released, ?_, fun j => ?_⟩
    · rw [Pool.spawn, length_append]
      exact Nat.lt_add_right _ h.started
    rw [txAt_spawn]
    split
    · next hj =>
      -- a number that was not used yet
      refine ht o _ j ?_
      have hend := h.tasks j
      rw [txAt, List.getD_eq_getElem?_getD, getElem?_eq_none (Nat.le_of_eq hj.symm)] at hend
      exact hend
    · exact h.tasks j
  · have hti := h.tasks i
    rw [txAt_of_getElem? hi] at hti
    have hkept : ∀ j, j ≠ i → Kept o p.shared r.1 j := fun j hj =>
      kept_of_moved h.exact hafter hj hmove
    have hown : TaskInv o r.1 i r.2 := by
      rcases hmove with ⟨reply, -, hr⟩ | ⟨-, rfl⟩
      · exact taskInv_step h.exact h.released hti hr
      · exact clean_rollback _ i
    have hreleased : Released r.1 := by
      rcases hmove with ⟨reply, -, hr⟩ | ⟨-, rfl⟩
      · rcases taskStep_quiet hr with ⟨rfl, rfl⟩ | hquiet
        · exact released_commit h.released hti.1
        · exact hquiet.released_iff.mpr h.released
      · exact Quiet.rollback.released_iff.mpr h.released
    refine ⟨hafter, hreleased, ?_, fun j => ?_⟩
    · rw [length_set]
      exact h.started
    rw [txAt_set _ hi]
    split
    · next hij => exact hij ▸ hown
    · next hij => exact (hkept j (Ne.symm hij)).taskInv (h.tasks j)

end Pool

/-! ## The reconciler's counter -/

/-- **WHEN THE COUNT IS USED IT IS STILL RIGHT**: the row of the organization is locked and the
    reconciler would count the same again, or nothing, which the second `UPDATE` repairs; the second
    `UPDATE` starts and, unless the first has the row or no job of the organization was given up, no
    job is left; it locks the row and no job is left. -/
def StillRight (o : String) (db : Db) : Tx → Prop
  | .recountWait ((o', n) :: _) =>
    o' = o → liveSeen db 0 o = n ∨ liveSeen db 0 o = 0
  | .zero => db.usage.Holds 0 o ∨ liveSeen db 0 o = db.jobs.rows.count (liveOf o)
      ∨ liveSeen db 0 o = 0
  | .zeroWait (o' :: _) => o' = o → liveSeen db 0 o = 0
  | _ => True

/-- The condition on a step: only the reconciler's own have one. -/
def Careful (o : String) (p : Pool Db Tx) : Act → Prop
  | .next 0 _ => StillRight o p.shared (txAt p 0)
  | _ => True

/-- How the reconciler's counter stands. -/
def RepairInv (o : String) (db : Db) : Tx → Prop
  | .findStale .. | .giveUp .. | .recordReleases .. | .recount
  | .committed | .rolledBack => True
  | .recountWait _ | .zero => ∀ u, db.usage.dirty.find? o = some ⟨0, u⟩ →
      u.activeJobs = liveSeen db 0 o ∨ liveSeen db 0 o = 0
  | .zeroWait organizations =>
    (∀ u, db.usage.dirty.find? o = some ⟨0, u⟩ → u.activeJobs = liveSeen db 0 o
        ∨ (liveSeen db 0 o = 0 ∧ o ∈ organizations))
    ∧ (¬ db.usage.Holds 0 o → gain o db 0 = 0 ∨ o ∈ organizations)
  | .commit => Square o db 0 0
  | _ => False

/-- The reconciler's counter is wrong, and not to be put right any more. -/
def Wrong (o : String) (db : Db) : Prop :=
  ∃ u, db.usage.dirty.find? o = some ⟨0, u⟩ ∧ u.activeJobs ≠ liveSeen db 0 o ∧ liveSeen db 0 o ≠ 0

/-- The reconciler will commit a wrong counter, if it commits. -/
def Doomed (o : String) (db : Db) : Tx → Prop
  | .recountWait actual => Wrong o db ∧ o ∉ actual.map Prod.fst
  | .zero => Wrong o db
  | .zeroWait organizations => Wrong o db
      ∨ (¬ db.usage.Holds 0 o ∧ gain o db 0 ≠ 0 ∧ o ∉ organizations)
  | .commit => ¬ Square o db 0 0
  | .rolledBack => True
  | _ => False

section Counter

variable {o : String} {db db' : Db} {r : Db × Tx} {t : Tx}

section

variable (h : Kept o db db' 0)
include h

/-- While the reconciler holds the counter it would count the same again. -/
theorem Kept.liveSeen (hheld : db.usage.Holds 0 o) : liveSeen db' 0 o = liveSeen db 0 o := by
  have h₁ := liveSeen_eq o db' 0
  have h₂ := liveSeen_eq o db 0
  rw [h.live hheld, h.gain] at h₁
  omega

theorem Kept.repairInv (hinv : RepairInv o db t) : RepairInv o db' t := by
  cases t with
  | findStale | giveUp | recordReleases | recount | committed
  | rolledBack => trivial
  | recountWait | zero =>
    intro u hu
    have hu' := (h.usage.dirty o u).mp hu
    rw [h.liveSeen ⟨u, hu'⟩]
    exact hinv u hu'
  | zeroWait organizations =>
    refine ⟨fun u hu => ?_, fun hno => ?_⟩
    · have hu' := (h.usage.dirty o u).mp hu
      rw [h.liveSeen ⟨u, hu'⟩]
      exact hinv.1 u hu'
    · rw [h.gain]
      exact hinv.2 fun hk => hno (h.usage.holds.mpr hk)
  | commit => exact h.square.mpr hinv
  | _ => exact hinv.elim

theorem Kept.wrong (hw : Wrong o db) : Wrong o db' := by
  obtain ⟨u, hu, hne, hpos⟩ := hw
  refine ⟨u, (h.usage.dirty o u).mpr hu, ?_⟩
  rw [h.liveSeen ⟨u, hu⟩]
  exact ⟨hne, hpos⟩

theorem Kept.doomed (hd : Doomed o db t) : Doomed o db' t := by
  cases t with
  | recountWait actual => exact ⟨h.wrong hd.1, hd.2⟩
  | zero => exact h.wrong hd
  | zeroWait organizations =>
    refine hd.imp h.wrong fun ⟨hno, hgain, ho⟩ => ⟨?_, ?_, ho⟩
    · exact fun hk => hno (h.usage.holds.mp hk)
    · rw [h.gain]
      exact hgain
  | commit => exact fun hs => hd (h.square.mp hs)
  | rolledBack => trivial
  | _ => exact hd.elim

end

variable {u : UsageRow} {o' : String}

variable {n : Int} {reply : Reply}

/-- The counter after it was set. -/
theorem dirty_correct_self (hread : db.usage.read 0 o = some u) :
    (db.writeUsage 0 (correct n u)).usage.dirty.find? o = some ⟨0, correct n u⟩ := by
  have hkey : (correct n u).organizationId = o :=
    (correct_key n u).trans (key_of_read hread)
  rw [Db.writeUsage, find?_dirty_write, if_pos hkey]

theorem dirty_correct {v : UsageRow} (hread : db.usage.read 0 o = some u)
    (h : (db.writeUsage 0 (correct n u)).usage.dirty.find? o = some ⟨0, v⟩) :
    v.activeJobs = n := by
  rw [dirty_correct_self hread] at h
  obtain rfl : correct n u = v := congrArg Dirty.row (some.inj h)
  exact correct_active n u

/-- The counter of an organization that is set leaves the others. -/
theorem correct_other (hread : db.usage.read 0 o' = some u) (ho : o' ≠ o) :
    (correct n u).organizationId ≠ o :=
  fun e => ho ((key_of_read hread).symm.trans ((correct_key n u).symm.trans e))

/-- The organization has a counter. -/
theorem Exact.read_usage (h : Exact o db) : db.usage.read 0 o ≠ none := by
  intro hnone
  obtain ⟨u, hu, -⟩ := h
  have hsome : (db.usage.read 0 o).isSome = true :=
    Locked.isSome_read.mpr (.inr (by rw [hu]; rfl))
  rw [hnone] at hsome
  cases hsome

/-- A number that is out of date is written. -/
theorem wrong_correct {n : Nat} (hread : db.usage.read 0 o = some u)
    (hne : n ≠ liveSeen db 0 o) (hpos : liveSeen db 0 o ≠ 0) :
    Wrong o (db.writeUsage 0 (correct n u)) := by
  refine ⟨_, dirty_correct_self hread, ?_, hpos⟩
  rw [correct_active]
  exact fun e => hne (Int.ofNat.inj e)

/-- The second `UPDATE` finds a counter that is not zero with no job left. -/
theorem mem_leftOver (hread : db.usage.read 0 o = some u)
    (hactive : u.activeJobs ≠ 0) (hnone : liveSeen db 0 o = 0) :
    o ∈ leftOver db 0 := by
  have hkey : u.organizationId = o := key_of_read hread
  rw [← find?_view] at hread
  refine mem_map.mpr ⟨u, mem_filter.mpr ⟨Table.mem_of_find? hread, ?_⟩, hkey⟩
  rw [hkey, decide_eq_true hactive, decide_eq_true hnone]
  rfl

theorem liveSeen_of_mem_leftOver (h : o ∈ leftOver db 0) : liveSeen db 0 o = 0 := by
  obtain ⟨u, hu, rfl⟩ := mem_map.mp h
  have hp := (mem_filter.mp hu).2
  rw [Bool.and_eq_true, decide_eq_true_eq, decide_eq_true_eq] at hp
  exact hp.2

/-- The first `UPDATE` sets a counter. -/
theorem repairInv_recountWait {n : Nat} {rest : List (String × Nat)}
    (hinv : RepairInv o db (.recountWait ((o', n) :: rest)))
    (hok : StillRight o db (.recountWait ((o', n) :: rest)))
    (hstep : recountWait db 0 ((o', n) :: rest) = some r) :
    RepairInv o r.1 r.2 := by
  rcases updateUsage_cases hstep with ⟨-, rfl⟩ | ⟨u, -, hread, rfl⟩
  · exact hinv
  intro v hv
  by_cases ho : o' = o
  · subst ho
    refine (hok rfl).imp (fun hsame => ?_) id
    rw [dirty_correct hread hv]
    exact congrArg Int.ofNat hsame.symm
  · rw [dirty_writeUsage_other (correct_other hread ho)] at hv
    exact hinv v hv

section

variable (hexact : Exact o db)
include hexact

/-- The second `UPDATE` starts. -/
theorem repairInv_zero (hinv : RepairInv o db .zero) (hok : StillRight o db .zero) :
    RepairInv o db (.zeroWait (leftOver db 0)) := by
  refine ⟨fun u hu => ?_, fun hno => ?_⟩
  · by_cases hsame : u.activeJobs = liveSeen db 0 o
    · exact .inl hsame
    have hnone := (hinv u hu).resolve_left hsame
    refine .inr ⟨hnone, mem_leftOver (read_of_holds hu) ?_ hnone⟩
    rw [hnone] at hsame
    exact hsame
  · have hseen := liveSeen_eq o db 0
    have hlive := live_eq o db
    rcases hok.resolve_left hno with hsame | hnone
    · left
      omega
    -- the row everybody sees still counts the jobs that were given up
    by_cases hgain : gain o db 0 = 0
    · exact .inl hgain
    · obtain ⟨u, hread, hactive⟩ := read_usage_of_exact hexact hno
      exact .inr (mem_leftOver hread (by omega) hnone)

/-- It sets a counter to zero. -/
theorem repairInv_zeroWait {rest : List String} (hinv : RepairInv o db (.zeroWait (o' :: rest)))
    (hok : StillRight o db (.zeroWait (o' :: rest)))
    (hstep : zeroWait db 0 (o' :: rest) = some r) : RepairInv o r.1 r.2 := by
  have hrest : o' ≠ o → o ∈ o' :: rest → o ∈ rest := fun ho hmem =>
    (mem_cons.mp hmem).resolve_left fun e => ho e.symm
  rcases updateUsage_cases hstep with ⟨hnone, rfl⟩ | ⟨u, -, hread, rfl⟩
  · have ho : o' ≠ o := fun e => hexact.read_usage (e ▸ hnone)
    exact ⟨fun v hv => (hinv.1 v hv).imp id fun h => ⟨h.1, hrest ho h.2⟩,
      fun hno => (hinv.2 hno).imp id (hrest ho)⟩
  by_cases ho : o' = o
  · subst ho
    refine ⟨fun v hv => .inl ?_, fun hno => absurd ⟨_, dirty_correct_self hread⟩ hno⟩
    rw [dirty_correct hread hv]
    exact congrArg Int.ofNat (hok rfl).symm
  · have hne := correct_other (n := 0) hread ho
    refine ⟨fun v hv => ?_, fun hno => ?_⟩
    · rw [dirty_writeUsage_other hne] at hv
      exact (hinv.1 v hv).imp id fun h => ⟨h.1, hrest ho h.2⟩
    · exact (hinv.2 fun hk => hno ((holds_writeUsage_other hne).mpr hk)).imp id (hrest ho)

/-- **A CAREFUL STEP** of the reconciler. -/
theorem repairInv_step (htask : TaskInv o db 0 t)
    (hinv : RepairInv o db t) (hok : StillRight o db t)
    (hstep : taskStep db 0 t reply = some r) :
    RepairInv o r.1 r.2 := by
  cases t with
  | findStale now staleAfterMs seen | commit =>
    cases hstep
    trivial
  | giveUp now cutoff seen waiting failed =>
    cases waiting with
    | nil =>
      cases hstep
      trivial
    | cons k ks =>
      rcases giveUp_cons_cases hstep with
        rfl | ⟨j, -, -, ⟨-, rfl⟩ | rfl⟩ <;> trivial
  | recordReleases now failed =>
    cases failed with
    | nil =>
      cases hstep
      trivial
    | cons k ks =>
      rcases recordReleases_cons_cases hstep with
        ⟨-, rfl⟩ | ⟨-, rfl⟩ <;> trivial
  | recount =>
    cases hstep
    exact fun u hu => absurd ⟨u, hu⟩ htask.2.2
  | recountWait actual =>
    cases actual with
    | nil =>
      cases hstep
      exact hinv
    | cons c rest => exact repairInv_recountWait hinv hok hstep
  | zero =>
    cases hstep
    exact repairInv_zero hexact hinv hok
  | zeroWait organizations =>
    cases organizations with
    | nil =>
      cases hstep
      refine ⟨fun u hu => ?_, fun hno => (hinv.2 hno).resolve_right nofun⟩
      have hactive := (hinv.1 u hu).resolve_right (fun h => nomatch h.2)
      rw [hactive, ← liveSeen_eq, Int.add_zero]
    | cons o' rest => exact repairInv_zeroWait hexact hinv hok hstep
  | committed | rolledBack => cases hstep
  | _ => exact hinv.elim

/-- **A CARELESS STEP** of the reconciler. -/
theorem doomed_of_careless (htask : TaskInv o db 0 t)
    (hno : ¬ StillRight o db t) (hstep : taskStep db 0 t reply = some r) :
    Doomed o r.1 r.2 := by
  cases t with
  | recountWait actual =>
    cases actual with
    | nil => exact absurd trivial hno
    | cons c rest =>
      obtain ⟨ho, hne⟩ := Classical.not_imp.mp hno
      obtain ⟨hne, hpos⟩ := not_or.mp hne
      -- the organization does not come up again
      have hnodup := nodup_cons.mp htask.2.2
      rcases updateUsage_cases hstep with ⟨hnone, -⟩ | ⟨u, -, hu, rfl⟩
      · exact absurd (ho ▸ hnone) hexact.read_usage
      · exact ⟨wrong_correct (ho ▸ hu) (Ne.symm hne) hpos, ho ▸ hnodup.1⟩
  | zero =>
    obtain ⟨hfree, hrest⟩ := not_or.mp hno
    obtain ⟨hne, hpos⟩ := not_or.mp hrest
    cases hstep
    have hseen := liveSeen_eq o db 0
    have hlive := live_eq o db
    have hgain : gain o db 0 ≠ 0 := by omega
    exact .inr ⟨hfree, hgain, fun hmem => hpos (liveSeen_of_mem_leftOver hmem)⟩
  | zeroWait organizations =>
    cases organizations with
    | nil => exact absurd trivial hno
    | cons o' rest =>
      obtain ⟨ho, hpos⟩ := Classical.not_imp.mp hno
      rcases updateUsage_cases hstep with ⟨hnone, -⟩ | ⟨u, -, hu, rfl⟩
      · exact absurd (ho ▸ hnone) hexact.read_usage
      · exact .inl (wrong_correct (n := 0) (ho ▸ hu) (Ne.symm hpos) hpos)
  | _ => exact absurd trivial hno

end

/-- A wrong counter is not put right by the second `UPDATE`. -/
theorem Wrong.updateUsage {next : Tx} (h : Wrong o db)
    (hstep : updateUsage db 0 o' (correct 0) next = some r) :
    Wrong o r.1 := by
  rcases updateUsage_cases hstep with ⟨-, rfl⟩ | ⟨u, -, hread, rfl⟩
  · exact h
  obtain ⟨v, hv, hne, hpos⟩ := h
  by_cases ho : o' = o
  · subst ho
    exact wrong_correct (n := 0) hread (Ne.symm hpos) hpos
  refine ⟨v, ?_, hne, hpos⟩
  rw [dirty_writeUsage_other (correct_other hread ho)]
  exact hv

/-- A doomed reconciler stays so, unless its commit spoils the counter. -/
theorem doomed_step (hexact : Exact o db) (hd : Doomed o db t)
    (hafter : Exact o r.1) (hstep : taskStep db 0 t reply = some r) :
    Doomed o r.1 r.2 := by
  cases t with
  | recountWait actual =>
    cases actual with
    | nil =>
      cases hstep
      exact hd.1
    | cons c rest =>
      obtain ⟨hw, hmem⟩ := hd
      obtain ⟨hne, hmem⟩ := not_or.mp fun h => hmem (mem_cons.mpr h)
      rcases updateUsage_cases hstep with ⟨-, rfl⟩ | ⟨u, -, hread, rfl⟩
      · exact ⟨hw, hmem⟩
      obtain ⟨v, hv, hwrong⟩ := hw
      refine ⟨⟨v, ?_, hwrong⟩, hmem⟩
      rw [dirty_writeUsage_other (correct_other hread (Ne.symm hne))]
      exact hv
  | zero =>
    cases hstep
    exact .inl hd
  | zeroWait organizations =>
    cases organizations with
    | nil =>
      cases hstep
      rintro ⟨hheld, hclear⟩
      rcases hd with ⟨u, hu, hne, -⟩ | ⟨hfree, hgain, -⟩
      · refine hne ?_
        rw [liveSeen_eq, ← Int.add_zero u.activeJobs]
        exact hheld u hu
      · exact hgain (hclear hfree)
    | cons o' rest =>
      rcases hd with hw | ⟨hfree, hgain, hmem⟩
      · have hnext : r.2 = .zeroWait rest := by
          rcases updateUsage_cases hstep with ⟨-, rfl⟩ | ⟨u, -, -, rfl⟩ <;>
            rfl
        rw [hnext]
        exact .inl (hw.updateUsage hstep)
      · obtain ⟨hne, hmem⟩ :=
          not_or.mp fun h => hmem (mem_cons.mpr h)
        rcases updateUsage_cases hstep with ⟨-, rfl⟩ | ⟨u, -, hread, rfl⟩
        · exact .inr ⟨hfree, hgain, hmem⟩
        · refine .inr ⟨fun hk => hfree ?_, hgain, hmem⟩
          exact (holds_writeUsage_other (correct_other hread (Ne.symm hne))).mp hk
  | commit =>
    -- the wrong counter would be everybody's
    rw [← some.inj hstep] at hafter
    exact absurd ((exact_commit_iff hexact).mp hafter) hd
  | rolledBack => cases hstep
  | _ => exact hd.elim

end Counter

/-! ## Every interleaving -/

section Runs

variable {o : String} {p q : Pool Db Tx} {a : Act}

/-- A fact about the reconciler, after a step of the pool: what its own steps,
    its loss and the steps of the others keep. -/
theorem reconciler_step {F : Db → Tx → Prop} (h : Inv o p)
    (hafter : Exact o q.shared) (hstep : step p a = some q)
    (hown : ∀ reply r, a = .next 0 reply →
      taskStep p.shared 0 (txAt p 0) reply = some r → Exact o r.1 →
      F r.1 r.2)
    (hlost : ∀ db, F db .rolledBack)
    (hothers : ∀ db, (∀ reply, a ≠ .next 0 reply) → Kept o p.shared db 0 → F db (txAt p 0)) :
    F q.shared (txAt q 0) := by
  rcases step_cases hstep with ⟨t, rfl, ha, -⟩ | ⟨i, t, r, hi, rfl, hmove⟩
  · rw [txAt_spawn, if_neg (Nat.ne_of_lt h.started)]
    exact hothers _ (ha 0) (Quiet.same.kept Nat.zero_ne_one)
  rw [txAt_set _ hi]
  split
  · next hzero =>
    subst hzero
    rcases hmove with ⟨reply, rfl, hr⟩ | ⟨-, rfl⟩
    · exact hown reply r rfl (txAt_of_getElem? hi ▸ hr) hafter
    · exact hlost _
  · next hne =>
    refine hothers _ (fun reply ha => ?_) (kept_of_moved h.exact hafter (Ne.symm hne) hmove)
    rcases hmove with ⟨reply', ha', -⟩ | ⟨ha', -⟩
    · exact hne (Act.next.inj (ha'.symm.trans ha)).1
    · cases ha'.symm.trans ha

/-- While the reconciler's counter stands well, every commit leaves the counter right. -/
theorem exact_step (h : Inv o p) (hrep : RepairInv o p.shared (txAt p 0))
    (hstep : step p a = some q) : Exact o q.shared := by
  rcases step_cases hstep with
    ⟨t, rfl, -⟩ | ⟨i, t, r, hi, rfl, ⟨reply, -, hr⟩ | ⟨-, rfl⟩⟩
  · exact h.exact
  · rcases taskStep_quiet hr with ⟨rfl, rfl⟩ | hquiet
    · have hti := h.tasks i
      rw [txAt_of_getElem? hi] at hti
      refine (exact_commit_iff h.exact).mpr ?_
      by_cases hzero : i = 0
      · subst hzero
        rw [txAt_of_getElem? hi] at hrep
        exact hrep
      · exact hti.2 hzero
    · exact hquiet.exact_iff.mpr h.exact
  · exact Quiet.rollback.exact_iff.mpr h.exact

theorem repaired_step (h : Inv o p ∧ RepairInv o p.shared (txAt p 0)) (hok : Careful o p a)
    (hstep : step p a = some q) :
    Inv o q ∧ RepairInv o q.shared (txAt q 0) := by
  have hafter := exact_step h.1 h.2 hstep
  refine ⟨h.1.step hafter hstep, reconciler_step h.1 hafter hstep ?_ ?_ ?_⟩
  · rintro reply r rfl hr -
    exact repairInv_step h.1.exact (h.1.tasks 0) h.2 hok hr
  · exact fun _ => trivial
  · exact fun db _ hk => hk.repairInv h.2

/-- The start: nobody has done anything yet. -/
theorem inv_reconciling {s : Store} {u : UsageRow} (now staleAfterMs : Int)
    (seen : Int → List Key) (hrow : s.usage.find? o = some u)
    (hcounter : u.activeJobs = (s.jobs.count (liveOf o) : Int))
    (hledger : ∀ k, (s.ledger.find? k).isSome = true ↔ Terminal s.jobs k) :
    Inv o (reconciling s now staleAfterMs seen) := by
  have hclean : ∀ i, Clean (.ofStore s) i := fun i =>
    ⟨fun _ => not_holds_committed, fun _ => not_holds_committed, fun _ => not_holds_committed⟩
  refine ⟨⟨u, hrow, hcounter⟩, hledger, Nat.one_pos, fun i => ?_⟩
  cases i with
  | zero => exact ⟨rfl, hclean 0⟩
  | succ i => exact hclean (i + 1)

/-- **THE REPAIR LOSES NO UPDATE, WHILE ITS COUNT IS CURRENT**: the reconciler runs with any number
    of submissions, cancellations and events, from a counter that is the number of live jobs and a
    ledger of the jobs that have ended.  If every count is still right when it is used, the counter
    is the number of live jobs in every state; and it is so along a run in which the reconciler
    commits only if every count was. -/
theorem repair_exact {s : Store} {u : UsageRow} (o : String)
    (now staleAfterMs : Int) (seen : Int → List Key)
    (hrow : s.usage.find? o = some u)
    (hcounter : u.activeJobs = (s.jobs.count (liveOf o) : Int))
    (hledger : ∀ k, (s.ledger.find? k).isSome = true ↔ Terminal s.jobs k) :
    (∀ as, Admitted step (Careful o) (reconciling s now staleAfterMs seen) as →
      Along step (fun p => Exact o p.shared) (reconciling s now staleAfterMs seen) as)
    ∧ ∀ as q, run step (reconciling s now staleAfterMs seen) as = some q → txAt q 0 = .committed →
      Along step (fun p => Exact o p.shared) (reconciling s now staleAfterMs seen) as →
      Admitted step (Careful o) (reconciling s now staleAfterMs seen) as := by
  have hinv := inv_reconciling now staleAfterMs seen hrow hcounter hledger
  constructor
  · intro as hadm
    refine Along.mono (fun p hp => hp.1.exact) as _ (inv_along_admitted
      (I := fun p => Inv o p ∧ RepairInv o p.shared (txAt p 0)) ?_ as _
      ⟨hinv, trivial⟩ hadm)
    exact fun p a q h hok ht => repaired_step h hok ht
  · intro as q hrun hend halong
    refine admitted_of_along (I := Inv o)
      (D := fun p => Doomed o p.shared (txAt p 0)) ?_ ?_ ?_ as _ q hinv halong
      hrun ?_
    · exact fun p a q h hafter ht => h.step hafter ht
    · intro p a q h hno hafter ht
      cases a with
      | next i reply =>
        cases i with
        | zero =>
          refine reconciler_step h hafter ht ?_ (fun _ => trivial)
            fun _ ha _ => absurd rfl (ha reply)
          intro reply' r _ hr _
          exact doomed_of_careless h.exact (h.tasks 0) hno hr
        | succ i => exact absurd trivial hno
      | _ => exact absurd trivial hno
    · intro p a q h hd hafter ht
      refine reconciler_step h hafter ht ?_ (fun _ => trivial) fun db _ hk => hk.doomed hd
      exact fun reply r _ hr hafter => doomed_step h.exact hd hafter hr
    · rw [hend]
      exact id

end Runs

/-! ## A count that is out of date -/

/-- A job of the sample organization. -/
def submission (id : String) (now : Int) : JobUpsert :=
  { sampleJob with id := id, now := now }

/-- Two live jobs and a counter of two; the worker of the first job has not
    been seen for a minute. -/
def twoJobs : Store :=
  { sampleStore with
    policies := Table.empty.put ⟨"org", 10, 100, 3600, 10, 1000⟩
    usage := Table.empty.put ⟨"org", 2, 0, 2, 0⟩
    jobs := (Table.empty.put (submission "first" 0).row).put (submission "second" 50000).row }

theorem twoJobs_released (k : Key) :
    (twoJobs.ledger.find? k).isSome = true ↔ Terminal twoJobs.jobs k := by
  constructor
  · exact nofun
  rintro ⟨j, hj, hterm⟩
  have hlive : ∀ j ∈ twoJobs.jobs.rows, j.state.isTerminal = false := by
    decide
  rw [hlive j (Table.mem_of_find? hj)] at hterm
  cases hterm

/-- The reconciler at the sixtieth second, with half a minute of grace. -/
def atSixty : Pool Db Tx := reconciling twoJobs 60000 30000 fun _ => []

/-- A third job is submitted and holds the counter; the reconciler gives the first job up. -/
def submitted : List Act :=
  [.next 0 .ok, .commitNewJob (submission "third" 60000), .next 1 .ok,
    .next 1 .ok, .next 1 .ok, .next 0 .ok, .next 0 .ok, .next 0 .ok,
    .next 0 .ok]

/-- The reconciler counts, waits for the counter and sets it. -/
def recounted : List Act :=
  [.next 0 .ok, .next 1 .ok, .next 0 .ok, .next 0 .ok, .next 0 .ok, .next 0 .ok, .next 0 .ok]

/-- The reconciler counts one job while the third waits to be committed.  It
    gets the counter after that commit and sets it to one: everybody has
    committed, two jobs are live, and the counter says one. -/
theorem staleCount_written : Exact "org" atSixty.shared
    ∧ ∃ q, run step atSixty (submitted ++ recounted) = some q ∧ q.tasks = [.committed, .committed]
      ∧ q.shared.jobs.rows.count (liveOf "org") = 2
      ∧ (q.shared.usage.rows.find? "org").map UsageRow.activeJobs = some 1 := by
  refine ⟨⟨_, rfl, ?_⟩, _, rfl, rfl, ?_, ?_⟩
  · decide
  · decide
  · decide

/-- The third job is committed before the reconciler counts. -/
def countedAfter : List Act :=
  [.next 1 .ok, .next 0 .ok, .next 0 .ok, .next 0 .ok, .next 0 .ok, .next 0 .ok, .next 0 .ok]

/-- Then the count is current when the counter is locked. -/
theorem countedAfter_exact : ∃ q, run step atSixty (submitted ++ countedAfter) = some q
      ∧ q.tasks = [.committed, .committed] ∧ Exact "org" q.shared := by
  have halong := (repair_exact "org" 60000 30000 (fun _ => []) (s := twoJobs)
    rfl (by decide) twoJobs_released).1 (submitted ++ countedAfter) ?_
  · have hrun : ∃ q, run step atSixty (submitted ++ countedAfter) = some q
        ∧ q.tasks = [.committed, .committed] := ⟨_, rfl, rfl⟩
    obtain ⟨q, hq, htasks⟩ := hrun
    have hlast := halong.last hq
    exact ⟨q, hq, htasks, hlast⟩
  · refine cons trivial rfl (cons trivial rfl (cons trivial rfl (cons trivial rfl
      (cons trivial rfl (cons trivial rfl
      (cons trivial rfl (cons trivial rfl
      (cons trivial rfl (cons trivial rfl
      (cons trivial rfl (cons ?_ rfl
      (cons trivial rfl (cons ?_ rfl
      (cons trivial rfl (cons trivial rfl
      trivial)))))))))))))))
    · exact fun _ => .inl rfl
    · exact .inl ⟨_, rfl⟩

end QuotaRepair
