import NagisaLake.HubEventsProofs

/-! # Copies of one row — what a handler of the Hub may believe

A handler works on a copy of the job that may be old by the time it is
used.  What keeps it honest is that the row only moves one way: attempt and
worker stay, `last_event` never falls, a terminal state stays.  So whatever
was true of the row when the copy was made and is of this kind is still
true.

`Task.Holds` says for every statement what its handler has established, and
`leads_taskStep` that each statement leaves the next one what it needs.  An
acknowledgement is only reached with `Acked`. -/

namespace HubEvents

open Jobs KeyedTable HubStore Table Option
open Uploads (HubError WorkerSession)

/-! ## How a row moves -/

/-- What the transactions on a bound job leave of its row; it completes only when `final` holds. -/
structure Moves (final : Prop) (j j' : JobRow) : Prop where
  attempt : j'.attempt = j.attempt
  workerOrganization : j'.workerOrganizationId = j.workerOrganizationId
  worker : j'.workerId = j.workerId
  lastEvent : j.lastEvent ≤ j'.lastEvent
  terminal : j.state.isTerminal = true → j'.state = j.state
  completed : j'.state = .completed → j.state = .completed ∨ final

variable {final : Prop}

theorem Moves.refl (j : JobRow) : Moves final j j :=
  ⟨rfl, rfl, rfl, Nat.le_refl _, fun _ => rfl, .inl⟩

/-- A rewriting that leaves the state and the sequence alone. -/
theorem moves_of_eq {j j' : JobRow} (hattempt : j'.attempt = j.attempt)
    (horganization : j'.workerOrganizationId = j.workerOrganizationId)
    (hworker : j'.workerId = j.workerId) (hlast : j'.lastEvent = j.lastEvent)
    (hstate : j'.state = j.state) : Moves final j j' :=
  ⟨hattempt, horganization, hworker, hlast ▸ Nat.le_refl _, fun _ => hstate,
    fun h => .inl (hstate ▸ h)⟩

/-- A live row that fails or is cancelled. -/
theorem moves_of_settled {j j' : JobRow} (hattempt : j'.attempt = j.attempt)
    (horganization : j'.workerOrganizationId = j.workerOrganizationId)
    (hworker : j'.workerId = j.workerId) (hlast : j'.lastEvent = j.lastEvent)
    (hlive : j.state.isTerminal = false) (hnot : j'.state ≠ .completed) :
    Moves final j j' where
  attempt := hattempt
  workerOrganization := horganization
  worker := hworker
  lastEvent := hlast ▸ Nat.le_refl _
  terminal := by
    intro hterm
    rw [hlive] at hterm
    cases hterm
  completed := fun h => absurd h hnot

section Transactions

variable {final : Prop} {s t : Store}

variable {now : Int}

theorem related_rebindJobSession {k : Key} {attempt : Nat}
    {expected sessionId : String}
    (hok : rebindJobSession s k attempt expected sessionId now = some t) :
    s.jobs.Related (Moves final) t.jobs := by
  obtain ⟨jobs, hup, rfl⟩ := map_eq_some_iff.mp hok
  exact related_updateKey Moves.refl hup fun j _ _ =>
    moves_of_eq rfl rfl rfl rfl rfl

theorem related_releaseJobForTerminal (s : Store) (k : Key) (now : Int) :
    s.jobs.Related (Moves final) (releaseJobForTerminal s k now).jobs := by
  rw [(releaseJobForTerminal_frame s k now).1]
  exact related_refl Moves.refl _

theorem related_cancelQueuedJob {k : Key} (hok : cancelQueuedJob s k now = some t) :
    s.jobs.Related (Moves final) t.jobs := by
  refine related_updateKey Moves.refl (cancelQueuedJob_some hok).1.jobs fun j _ hqueued => ?_
  refine moves_of_settled rfl rfl rfl rfl ?_ nofun
  rw [of_decide_eq_true hqueued]
  rfl

theorem related_updateJobIfCurrent {u : ConditionalJobUpdate} (hnot : u.state ≠ some .completed)
    (hok : updateJobIfCurrent s u = some t) :
    s.jobs.Related (Moves final) t.jobs := by
  refine related_updateKey Moves.refl (updateJobIfCurrent_some hok).1.jobs fun j _ hexp => ?_
  rw [ConditionalJobUpdate.expects] at hexp
  simp only [Bool.and_eq_true, decide_eq_true_eq] at hexp
  cases hstate : u.state with
  | none =>
    refine moves_of_eq rfl rfl rfl rfl ?_
    show u.state.getD j.state = j.state
    rw [hstate]
    rfl
  | some target =>
    refine moves_of_settled rfl rfl rfl rfl ?_ ?_
    · rw [hexp.1.2]
      exact u.expected_live
    show u.state.getD j.state ≠ .completed
    rw [hstate] at hnot ⊢
    exact fun h => hnot (congrArg some h)

theorem related_reconcileActiveJobQuota (s : Store) (now staleAfterMs : Int)
    (seen : Int → List Key) :
    s.jobs.Related (Moves final) (reconcileActiveJobQuota s now staleAfterMs seen).1.jobs := by
  refine related_update Moves.refl (JobRow.giveUp_key now) fun j _ hstale => ?_
  refine moves_of_settled rfl rfl rfl rfl ?_ nofun
  rw [JobRow.stale, Bool.and_eq_true, Bool.and_eq_true] at hstale
  simpa [JobRow.live] using hstale.1.1

/-- **AN EVENT THAT WAS APPLIED** has moved the row to its sequence at least. -/
theorem related_applyJobEvent {e : EventRow} {u : JobEventUpdate}
    (hfinal : u.state = .completed → final)
    (hok : HubStore.applyJobEvent s e u now = .ok (t, true)) :
    s.jobs.Related (Moves final) t.jobs
      ∧ ∃ j, t.jobs.find? e.jobKey = some j ∧ e.sequence ≤ j.lastEvent := by
  have hup := (applyJobEvent_rewrote hok).jobs
  constructor
  · refine related_updateKey Moves.refl hup fun j _ hexp => ?_
    refine ⟨rfl, rfl, rfl, Nat.le_max_left .., ?_, fun h => .inr (hfinal h)⟩
    have hwas := JobEventUpdate.state_of_expects hexp
    intro hterm
    rw [hwas] at hterm ⊢
    exact u.state_eq hterm
  · obtain ⟨j, hj, -, -⟩ := updateKey_eq_some hup
    refine ⟨u.write e now j, ?_, Nat.le_max_right ..⟩
    rw [find?_updateKey hup hj, if_pos rfl]

end Transactions

/-! ## One job and its worker -/

/-- A job and the worker it is bound to. -/
structure Binding where
  organizationId : String
  jobId : String
  workerOrganizationId : String
  workerId : String
  attempt : Nat
  deriving DecidableEq, Repr

/-- The key of the job's row. -/
def Binding.key (b : Binding) : Key := (b.organizationId, b.jobId)

/-- A session of the worker. -/
def Binding.session (b : Binding) (sessionId : String) : WorkerSession :=
  ⟨b.workerOrganizationId, b.workerId, sessionId⟩

/-- The row has the binding. -/
structure Bound (b : Binding) (j : JobRow) : Prop where
  workerOrganization : j.workerOrganizationId = some b.workerOrganizationId
  worker : j.workerId = some b.workerId
  attempt : j.attempt = b.attempt

/-- A copy of the job, never ahead of the row. -/
structure Copy (b : Binding) (j : JobRow) (c : CachedJob) : Prop where
  organization : c.organizationId = b.organizationId
  id : c.id = b.jobId
  workerOrganization : c.workerOrganizationId = b.workerOrganizationId
  worker : c.workerId = b.workerId
  attempt : c.attempt = b.attempt
  lastEvent : clampI64 c.lastEvent ≤ j.lastEvent

/-- An event of the job; it reports completion only when `final` holds. -/
structure Ours (b : Binding) (final : Prop) (e : JobEvent) : Prop where
  jobId : e.jobId = b.jobId
  attempt : e.attempt = b.attempt
  completed : e.kind = .completed → final

/-- The row vouches for an event: it is terminal, or it has reached the
    sequence as far as a `BIGINT` can tell. -/
def Acked (j : JobRow) (n : Nat) : Prop :=
  j.state.isTerminal = true ∨ clampI64 n ≤ j.lastEvent

section Moving

variable {b : Binding} {final final' : Prop} {j j' : JobRow}

theorem Bound.move (h : Bound b j) (hm : Moves final j j') : Bound b j' :=
  ⟨hm.workerOrganization.trans h.workerOrganization,
    hm.worker.trans h.worker, hm.attempt.trans h.attempt⟩

theorem Copy.move {c : CachedJob} (h : Copy b j c) (hm : Moves final j j') : Copy b j' c :=
  { h with lastEvent := h.lastEvent.trans hm.lastEvent }

theorem Acked.move {n : Nat} (h : Acked j n) (hm : Moves final j j') : Acked j' n := by
  rcases h with hterm | hle
  · refine .inl ?_
    rw [hm.terminal hterm]
    exact hterm
  · exact .inr (hle.trans hm.lastEvent)

theorem Ours.mono {e : JobEvent} (h : Ours b final e) (hf : final → final') : Ours b final' e :=
  { h with completed := fun hk => hf (h.completed hk) }

/-- What the copy has seen, the row vouches for. -/
theorem Copy.acked {c : CachedJob} {n : Nat} (h : Copy b j c) (hn : n ≤ c.lastEvent) : Acked j n :=
  .inr ((clampI64_mono hn).trans h.lastEvent)

/-- A row read from the store is a copy of itself. -/
theorem copy_ofRow (hb : Bound b j) (hkey : j.key = b.key) : Copy b j (ofRow j) where
  organization := congrArg Prod.fst hkey
  id := congrArg Prod.snd hkey
  workerOrganization := by
    show j.workerOrganizationId.getD "" = _
    rw [hb.workerOrganization]
    rfl
  worker := by
    show j.workerId.getD "" = _
    rw [hb.worker]
    rfl
  attempt := hb.attempt
  lastEvent := clampI64_le _

end Moving

/-! ## What the Hub holds of the job -/

/-- The job's row, the copy in memory, and no other row with its id: ids of
    jobs are random UUIDs. -/
structure HubInv (b : Binding) (final : Prop) (j : JobRow) (h : Hub) :
    Prop where
  row : h.store.jobs.find? b.key = some j
  bound : Bound b j
  other : ∀ o, o ≠ b.organizationId → h.store.jobs.find? (o, b.jobId) = none
  cached : ∀ c, h.jobs.find? b.jobId = some c → Copy b j c
  completed : j.state = .completed → final

section Hub

variable {b : Binding} {final final' : Prop} {j : JobRow} {h : Hub}

section

variable (hi : HubInv b final j h)
include hi

theorem HubInv.mono (hf : final → final') : HubInv b final' j h :=
  { hi with completed := fun hc => hf (hi.completed hc) }

/-- A transaction on the store. -/
theorem HubInv.store {s : Store} (hs : h.store.jobs.Related (Moves final) s.jobs) :
    ∃ j', Moves final j j' ∧ HubInv b final j' { h with store := s } := by
  obtain ⟨j', hj', hm⟩ := hs.forth b.key j hi.row
  refine ⟨j', hm, ⟨hj', hi.bound.move hm, ?_, ?_, ?_⟩⟩
  · intro o ho
    exact hs.none (hi.other o ho)
  · intro c hc
    exact (hi.cached c hc).move hm
  · intro hc
    exact (hm.completed hc).elim hi.completed id

/-- A copy goes to memory. -/
theorem HubInv.put {c : CachedJob} (hc : Copy b j c) :
    HubInv b final j { h with jobs := h.jobs.put c } :=
  { hi with
    cached := by
      intro c' hc'
      rw [find?_put, if_pos hc.id] at hc'
      exact some.inj hc' ▸ hc }

/-- A job is evicted. -/
theorem HubInv.delete (p : CachedJob → Bool) :
    HubInv b final j { h with jobs := h.jobs.delete p } :=
  { hi with
    cached := by
      intro c hc
      rw [find?_delete] at hc
      exact hi.cached c (filter_eq_some_iff.mp hc).1 }

/-- Sessions come and go. -/
theorem HubInv.sessions (sessions : Table Key Session Session.key) :
    HubInv b final j { h with sessions := sessions } :=
  ⟨hi.row, hi.bound, hi.other, hi.cached, hi.completed⟩

/-- A Hub that starts again reads the jobs in progress from the store. -/
theorem HubInv.restart (sessions : Table Key Session Session.key) :
    HubInv b final j ⟨h.store, hydrate h.store, sessions⟩ :=
  { hi with
    cached := by
      intro c hc
      obtain ⟨hmem, hid⟩ := find?_eq_some_iff.mp hc
      rcases mem_foldl_put ofRow _ _ hmem with hno | ⟨i, hi', rfl⟩
      · cases hno
      obtain ⟨hrow, -⟩ := List.mem_filter.mp hi'
      have hfind : h.store.jobs.find? (i.organizationId, b.jobId) = some i :=
        find?_eq_some_iff.mpr ⟨hrow, congrArg (Prod.mk _) hid⟩
      -- the id alone names the row
      have horg : i.organizationId = b.organizationId := by
        by_contra hne
        rw [hi.other _ hne] at hfind
        cases hfind
      have hij : i = j := by
        rw [horg] at hfind
        exact some.inj (hfind.symm.trans hi.row)
      rw [hij]
      exact copy_ofRow hi.bound (key_of_find? hi.row) }

end

end Hub

/-! ## What a handler has established -/

/-- The session is one of the worker's. -/
def Binding.owns (b : Binding) (w : WorkerSession) : Prop :=
  w.organizationId = b.workerOrganizationId ∧ w.workerId = b.workerId

/-- The outline of the handlers: what holds at each statement. -/
def Task.Holds (b : Binding) (final : Prop) (j : JobRow) : Task → Prop
  | .lookup w e => b.owns w ∧ Ours b final e
  | .session _ e c => Ours b final e ∧ Copy b j c
  | .adopt _ e c | .mergeSession _ e c _ =>
    c.id = b.jobId ∧ Acked j e.sequence
  | .apply _ e c _ u => Ours b final e ∧ Copy b j c ∧ u.state = nextState e.kind
  | .merge _ e c updated => c.id = b.jobId ∧ Acked j e.sequence
      ∧ clampI64 updated.lastEvent ≤ j.lastEvent
  | .reconcile _ e _ => e.jobId = b.jobId
  | .releaseTerminal _ e | .evict _ e => Acked j e.sequence
  | .reconcileMerge _ e stored => e.jobId = b.jobId ∧ Acked j e.sequence
      ∧ stored.lastEvent ≤ j.lastEvent
  | .answer _ ack => Acked j ack.sequence
  | .rebind _ id | .updateError id _ _ | .cancel id => id = b.jobId
  | .rebindStore _ c | .rebindReload _ c | .rebindRetry _ c _
  | .rebindMerge _ c _ | .cancelQueued c | .settleMerge c _ _ _ _ =>
    c.id = b.jobId
  | .settle c u _ => c.id = b.jobId ∧ u.state ≠ some .completed
  | .cacheNew c => Copy b j c
  | .outbox k => k = b.key
  | .cacheBound stored => stored.id = b.jobId ∧ Copy b j (ofRow stored)
  | .done _ => True

section Statements

variable {b : Binding} {final final' : Prop} {j j' : JobRow} {h : Hub}
  {w : WorkerSession} {e : JobEvent} {c : CachedJob}

variable {t : Task}

/-- What was established stays so while the row moves. -/
theorem Task.Holds.move (ht : t.Holds b final j) (hm : Moves final j j') (hf : final → final') :
    t.Holds b final' j' := by
  cases t with
  | lookup w e => exact ⟨ht.1, ht.2.mono hf⟩
  | session w e c => exact ⟨ht.1.mono hf, ht.2.move hm⟩
  | adopt w e c | mergeSession w e c now | cacheBound stored =>
    exact ⟨ht.1, ht.2.move hm⟩
  | apply w e c fresh u =>
    exact ⟨ht.1.mono hf, ht.2.1.move hm, ht.2.2⟩
  | merge w e c updated | reconcileMerge w e stored =>
    exact ⟨ht.1, ht.2.1.move hm, ht.2.2.trans hm.lastEvent⟩
  | releaseTerminal w e | evict w e | answer w ack =>
    exact Acked.move ht hm
  | cacheNew c => exact Copy.move ht hm
  | _ => exact ht

/-- The handler has returned or stands at `t'`; the row may have moved. -/
def Leads (b : Binding) (final : Prop) (j : JobRow) (h' : Hub) (t' : Task) :
    Prop :=
  ∃ j', Moves final j j' ∧ HubInv b final j' h' ∧ t'.Holds b final j'

variable {h' : Hub} {t' : Task} {now : Int}

/-- A statement that only reads. -/
theorem leads_of_read (hi : HubInv b final j h') (ht : t'.Holds b final j) :
    Leads b final j h' t' :=
  ⟨j, Moves.refl j, hi, ht⟩

/-- A transaction whose outcome the next statement does not rely on. -/
theorem leads_of_store {s : Store} (hi : HubInv b final j h)
    (hs : h.store.jobs.Related (Moves final) s.jobs)
    (ht : t'.Holds b final j) : Leads b final j { h with store := s } t' := by
  obtain ⟨j', hm, hi'⟩ := hi.store hs
  exact ⟨j', hm, hi', ht.move hm id⟩

/-- An event that changes nothing was seen before. -/
theorem holds_unchanged (hc : Copy b j c) (hseen : e.sequence ≤ c.lastEvent) :
    (unchanged w e c).Holds b final j := by
  rw [unchanged]
  split
  · exact hc.acked hseen
  · exact ⟨hc.id, hc.acked hseen⟩

theorem holds_judge (he : Ours b final e) (hc : Copy b j c) : (judge w e c).Holds b final j := by
  rw [judge]
  split
  · split
    · exact ⟨he, hc, rfl⟩
    next hseen =>
    split
    · exact holds_unchanged hc (Nat.not_lt.mp hseen)
    · exact ⟨he, hc, rfl⟩
  · split
    · exact trivial
    · next hseen => exact holds_unchanged hc (Nat.not_lt.mp hseen)

section

variable (hi : HubInv b final j h)
include hi

/-- The resident job is the worker's: the event is never turned away. -/
theorem holds_afterLookup (hw : b.owns w) (he : Ours b final e) :
    (afterLookup w e (h.jobs.find? e.jobId)).Holds b final j := by
  rw [he.jobId]
  cases hc : h.jobs.find? b.jobId with
  | none => exact he.jobId
  | some c =>
    have hcopy := hi.cached c hc
    rw [afterLookup, if_pos ⟨hcopy.workerOrganization.trans hw.1.symm,
      hcopy.worker.trans hw.2.symm, he.attempt.trans hcopy.attempt.symm⟩]
    exact ⟨he, hcopy⟩

/-- A row found under the worker's organization is the job's own. -/
theorem holds_afterRow (he : e.jobId = b.jobId) (miss : HubError) :
    (afterRow w e miss (h.store.jobs.find? (w.organizationId, e.jobId))).Holds b final j := by
  cases hrow : h.store.jobs.find? (w.organizationId, e.jobId) with
  | none => exact trivial
  | some i =>
    rw [he] at hrow
    have horg : w.organizationId = b.organizationId := by
      by_contra hne
      rw [hi.other _ hne] at hrow
      cases hrow
    have hij : i = j := by
      rw [horg] at hrow
      exact some.inj (hrow.symm.trans hi.row)
    subst hij
    rw [afterRow]
    split
    · next hterm => exact .inl hterm
    split
    · exact trivial
    next hseen =>
    have hack : Acked i e.sequence :=
      .inr ((clampI64_le _).trans (Nat.not_lt.mp hseen))
    exact ⟨he, hack, Nat.le_refl _⟩

/-! ## Memory after the store -/

/-- Whatever a handler writes back keeps the identity of the resident job. -/
theorem HubInv.rewrite {cur c' : CachedJob} (hcur : h.jobs.find? b.jobId = some cur)
    (hsame : c'.organizationId = cur.organizationId ∧ c'.id = cur.id
      ∧ c'.workerOrganizationId = cur.workerOrganizationId
      ∧ c'.workerId = cur.workerId ∧ c'.attempt = cur.attempt)
    (hlast : clampI64 c'.lastEvent ≤ j.lastEvent) :
    HubInv b final j { h with jobs := h.jobs.put c' } := by
  obtain ⟨horg, hid, hworg, hworker, hattempt⟩ := hsame
  have hcopy := hi.cached cur hcur
  exact hi.put ⟨horg.trans hcopy.organization, hid.trans hcopy.id,
    hworg.trans hcopy.workerOrganization, hworker.trans hcopy.worker,
    hattempt.trans hcopy.attempt, hlast⟩

theorem hubInv_mergeEvent {updated : CachedJob}
    (hid : c.id = b.jobId) (hlast : clampI64 updated.lastEvent ≤ j.lastEvent) :
    HubInv b final j (mergeEvent h w c updated) := by
  rw [mergeEvent]
  split
  · exact hi
  next cur hcur =>
  rw [hid] at hcur
  split
  · exact hi.delete _
  · exact hi.rewrite (filter_eq_some_iff.mp hcur).1 ⟨rfl, rfl, rfl, rfl, rfl⟩ hlast

theorem hubInv_mergeRebind {owned : CachedJob → Bool} (hid : c.id = b.jobId) :
    HubInv b final j (mergeRebind h w c now owned) := by
  rw [mergeRebind]
  split
  · exact hi
  next cur hcur =>
  rw [hid] at hcur
  split
  · exact hi.rewrite hcur ⟨rfl, rfl, rfl, rfl, rfl⟩ (hi.cached cur hcur).lastEvent
  · exact hi

theorem hubInv_mergeSettlement {state : Option JobState}
    {error : Option String} (hid : c.id = b.jobId) :
    HubInv b final j (mergeSettlement h c state error now) := by
  rw [mergeSettlement]
  split
  · exact hi
  next cur hcur =>
  rw [hid] at hcur
  have hfind := (filter_eq_some_iff.mp hcur).1
  split
  · exact hi.delete _
  · exact hi.rewrite hfind ⟨rfl, rfl, rfl, rfl, rfl⟩ (hi.cached cur hfind).lastEvent

theorem hubInv_cacheBoundOutboxJob {stored : JobRow} (hc : Copy b j (ofRow stored)) :
    HubInv b final j (cacheBoundOutboxJob h stored) := by
  rw [cacheBoundOutboxJob]
  split
  · exact hi.put hc
  split
  · exact hi.put hc
  · exact hi

/-! ## The calls -/

/-- A rebind, whoever asks for it. -/
theorem leads_of_rebind {sessionId : String} {k : Key} {n : Nat}
    {expected : String} {t₁ t₂ : Task} {r : Hub × Task}
    (hstep : (match rebindJobSession h.store k n expected sessionId now with
      | some s => some ({ h with store := s }, t₁)
      | none => some (h, t₂)) = some r) (h₁ : t₁.Holds b final j)
    (h₂ : t₂.Holds b final j) :
    Leads b final j r.1 r.2 := by
  split at hstep
  · next s hs =>
    cases hstep
    exact leads_of_store hi (related_rebindJobSession hs) h₁
  · cases hstep
    exact leads_of_read hi h₂

/-- **THE WRITE** of an event: from here on the row vouches for it. -/
theorem leads_apply {fresh : Bool} {u : JobEventUpdate}
    (ht : (Task.apply w e c fresh u).Holds b final j)
    (hstep : taskStep h (.apply w e c fresh u) (.ok now) = some (h', t')) :
    Leads b final j h' t' := by
  obtain ⟨he, hc, hu⟩ := ht
  rw [taskStep] at hstep
  split at hstep
  · next s hs =>
    cases hstep
    have hfinal : u.state = .completed → final := by
      intro hcomp
      refine he.completed ?_
      rw [hu] at hcomp
      revert hcomp
      cases e.kind <;> simp [nextState]
    obtain ⟨hrel, i, hrow, hseq⟩ := related_applyJobEvent hfinal hs
    obtain ⟨j', hm, hi'⟩ := hi.store hrel
    -- the row the event was written to is the job's
    have hij : i = j' := by
      have hkey : (eventRow c e).jobKey = b.key := by
        show (c.organizationId, e.jobId) = (b.organizationId, b.jobId)
        rw [hc.organization, he.jobId]
      rw [hkey] at hrow
      exact some.inj (hrow.symm.trans hi'.row)
    subst hij
    refine ⟨i, hm, hi', hc.id, .inr hseq, ?_⟩
    cases fresh with
    | true => exact hseq
    | false => exact (hc.move hm).lastEvent
  · cases hstep
    exact leads_of_read hi he.jobId
  · cases hstep
    exact leads_of_read hi trivial

end

theorem holds_tooLate (cancelling : Bool) (err : HubError) :
    (tooLate cancelling err).Holds b final j := by
  cases cancelling with
  | true | false => exact trivial

/-- A settlement fails or cancels the job, or leaves its state. -/
theorem holds_afterCancel (hi : HubInv b final j h) (now : Int) :
    (afterCancel now (h.jobs.find? b.jobId)).Holds b final j := by
  cases hc : h.jobs.find? b.jobId with
  | none => exact trivial
  | some c =>
    have hid := (hi.cached c hc).id
    rw [afterCancel]
    split
    · split
      · exact hid
      · exact ⟨hid, nofun⟩
    · exact trivial

theorem holds_afterError (hi : HubInv b final j h) (message : String)
    (terminal : Bool) (now : Int) :
    (afterError message terminal now (h.jobs.find? b.jobId)).Holds b final j := by
  cases hc : h.jobs.find? b.jobId with
  | none => exact trivial
  | some c =>
    have hid := (hi.cached c hc).id
    rw [afterError]
    split
    · refine ⟨hid, ?_⟩
      cases terminal with
      | true | false => exact nofun
    · exact trivial

theorem holds_afterOutbox (hi : HubInv b final j h) :
    (afterOutbox (h.store.jobs.find? b.key)).Holds b final j := by
  rw [hi.row, afterOutbox]
  split
  · have hcopy := copy_ofRow hi.bound (key_of_find? hi.row)
    exact ⟨hcopy.id, hcopy⟩
  · exact trivial

/-- A call that fails ends the handler and has changed nothing. -/
theorem taskStep_failed {m : String} (hstep : taskStep h t (.failed m) = some (h', t')) :
    h' = h ∧ t'.Holds b final j := by
  cases t with
  | settle c u cancelling =>
    cases hstep
    exact ⟨rfl, holds_tooLate _ _⟩
  | _ =>
    first
      | (obtain ⟨rfl, rfl⟩ := Prod.mk.inj (some.inj hstep)
         exact ⟨rfl, trivial⟩)
      | cases hstep

/-- **ONE STATEMENT** leaves the next one what it needs, and the row moves only one way. -/
theorem leads_taskStep {reply : Reply} (hi : HubInv b final j h)
    (ht : t.Holds b final j) (hstep : taskStep h t reply = some (h', t')) :
    Leads b final j h' t' := by
  cases reply with
  | failed m =>
    have hfailed : h' = h ∧ t'.Holds b final j := taskStep_failed hstep
    rw [hfailed.1]
    exact leads_of_read hi hfailed.2
  | ok now =>
  cases t with
  | lookup w e =>
    cases hstep
    exact leads_of_read hi (holds_afterLookup hi ht.1 ht.2)
  | session w e c =>
    cases hstep
    refine leads_of_read hi ?_
    split
    · exact holds_judge ht.1 ht.2
    · exact trivial
  | adopt w e c | rebindRetry w c stored =>
    exact leads_of_rebind hi hstep ht trivial
  | mergeSession w e c since =>
    cases hstep
    exact leads_of_read (hubInv_mergeRebind hi ht.1) ht.2
  | apply w e c fresh u => exact leads_apply hi ht hstep
  | merge w e c updated =>
    cases hstep
    exact leads_of_read (hubInv_mergeEvent hi ht.1 ht.2.2) ht.2.1
  | reconcile w e miss =>
    cases hstep
    exact leads_of_read hi (holds_afterRow hi ht miss)
  | releaseTerminal w e =>
    cases hstep
    have hevict : (Task.evict w e).Holds b final j := ht
    exact leads_of_store hi (related_releaseJobForTerminal _ _ _) hevict
  | evict w e =>
    cases hstep
    exact leads_of_read (hi.delete _) ht
  | reconcileMerge w e stored =>
    rw [taskStep] at hstep
    split at hstep
    · cases hstep
      exact leads_of_read hi ht.2.1
    next cur hcur =>
    cases hstep
    rw [ht.1] at hcur
    refine leads_of_read ?_ ht.2.1
    exact hi.rewrite (filter_eq_some_iff.mp hcur).1
      ⟨rfl, rfl, rfl, rfl, rfl⟩ ((clampI64_le _).trans ht.2.2)
  | answer w ack =>
    cases hstep
    exact leads_of_read hi trivial
  | rebind w id =>
    rw [taskStep] at hstep
    split at hstep
    · cases hstep
      exact leads_of_read hi trivial
    next c hc =>
    cases hstep
    have hid : id = b.jobId := ht
    have hfind := (filter_eq_some_iff.mp hc).1
    exact leads_of_read hi ((key_of_find? hfind).trans hid)
  | rebindStore w c =>
    rw [taskStep] at hstep
    split at hstep
    · exact leads_of_rebind hi hstep ht ht
    · cases hstep
      exact leads_of_read hi trivial
  | rebindReload w c =>
    rw [taskStep] at hstep
    split at hstep
    · split at hstep
      · cases hstep
        exact leads_of_read hi ht
      · cases hstep
        exact leads_of_read hi trivial
    · cases hstep
      exact leads_of_read hi trivial
  | rebindMerge w c since =>
    cases hstep
    exact leads_of_read (hubInv_mergeRebind hi ht) trivial
  | updateError id message terminal =>
    cases hstep
    have hid : id = b.jobId := ht
    subst hid
    exact leads_of_read hi (holds_afterError hi message terminal now)
  | cancel id =>
    cases hstep
    have hid : id = b.jobId := ht
    subst hid
    exact leads_of_read hi (holds_afterCancel hi now)
  | cancelQueued c =>
    rw [taskStep] at hstep
    split at hstep
    · next s hs =>
      cases hstep
      exact leads_of_store hi (related_cancelQueuedJob hs) ht
    · cases hstep
      exact leads_of_read hi trivial
  | settle c u cancelling =>
    rw [taskStep] at hstep
    split at hstep
    · next s hs =>
      cases hstep
      exact leads_of_store hi (related_updateJobIfCurrent ht.2 hs) ht.1
    · cases hstep
      exact leads_of_read hi (holds_tooLate _ _)
  | settleMerge c state error since cancelling =>
    cases hstep
    refine leads_of_read (hubInv_mergeSettlement hi ht) ?_
    split
    · exact trivial
    · exact holds_tooLate _ _
  | cacheNew c =>
    cases hstep
    exact leads_of_read (hi.put ht) trivial
  | outbox k =>
    cases hstep
    have hk : k = b.key := ht
    subst hk
    exact leads_of_read hi (holds_afterOutbox hi)
  | cacheBound stored =>
    cases hstep
    exact leads_of_read (hubInv_cacheBoundOutboxJob hi ht.2) trivial
  | done result => cases hstep

end Statements

end HubEvents
