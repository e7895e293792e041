import NagisaLake.RunProofs
import NagisaLake.HubEventsProofs

/-! # Durable history — what no transaction takes back

Eight transactions write the rows of `jobs`, each with a `WHERE` clause of
its own, and one of them writes `job_events`.  They have no guard in
common.  `Written` lists once what any of them may do to a row and `Born`
which rows are inserted; a fact about the rows of every reachable store is
then a case split over these two (`rewrites_perform`).

The first such fact: history only grows.  A finished job keeps its state,
`last_event` never falls, and an event that has been stored is never
replaced. -/

namespace History

open Jobs KeyedTable Runs Transactions HubStore Table
open HubEvents (rebindJobSession)

/-! ## What happens to a row -/

/-- A row and what a transaction makes of it, with the part of the `WHERE` clause that held. -/
inductive Written : JobRow → JobRow → Prop where
  | same (j : JobRow) : Written j j
  | bound {j : JobRow} (workerOrg worker session : String) (now : Int)
      (h : j.state = .queued) : Written j (j.bind workerOrg worker session now)
  | cancelled {j : JobRow} (now : Int) (h : j.state = .queued) :
      Written j (j.cancelQueued now)
  | settled {j : JobRow} (u : ConditionalJobUpdate) (h : u.expects j = true) :
      Written j (u.write j)
  | moved {j : JobRow} (u : JobEventUpdate) (e : EventRow) (now : Int)
      (h : u.expects e.attempt j = true) : Written j (u.write e now j)
  | givenUp {j : JobRow} (cutoff now : Int) (seen : List Key)
      (h : j.stale cutoff seen = true) : Written j (j.giveUp now)
  | rebound {j : JobRow} (session : String) (now : Int)
      (hlive : j.live = true) (hbound : j.sessionId.isSome = true) :
      Written j (HubEvents.JobRow.rebind session now j)

/-- An inserted row: a single job, or a child of a batch. -/
inductive Born : JobRow → Prop where
  | job (input : JobUpsert) : Born input.row
  | child (batch : BatchRow) (c : BatchChildJob) (now : Int) :
      Born (c.row batch now)

/-- A table of jobs and what a transaction makes of it. -/
structure Rewrites (s t : Table Key JobRow JobRow.key) : Prop where
  forth : ∀ k j, s.find? k = some j → ∃ j', t.find? k = some j' ∧ Written j j'
  back : ∀ k j', t.find? k = some j' → (∃ j, s.find? k = some j ∧ Written j j')
      ∨ (s.find? k = none ∧ Born j')

theorem rewrites_of_related {s t : Table Key JobRow JobRow.key}
    (h : s.Related Written t) : Rewrites s t :=
  ⟨h.forth, fun k j' hj' => .inl (h.back k j' hj')⟩

theorem rewrites_refl (t : Table Key JobRow JobRow.key) : Rewrites t t :=
  rewrites_of_related (related_refl Written.same t)

/-- Rows of a kind are inserted, none is rewritten. -/
structure Adds (B : JobRow → Prop) (s t : Table Key JobRow JobRow.key) :
    Prop where
  old : ∀ k j, s.find? k = some j → t.find? k = some j
  new : ∀ k j', t.find? k = some j' → s.find? k = some j' ∨ (s.find? k = none ∧ B j')

section Adds

variable {B C : JobRow → Prop} {s t u : Table Key JobRow JobRow.key}

theorem adds_refl (t : Table Key JobRow JobRow.key) : Adds B t t :=
  ⟨fun _ _ h => h, fun _ _ h => .inl h⟩

theorem Adds.mono (hBC : ∀ j, B j → C j) (h : Adds B s t) : Adds C s t where
  old := h.old
  new := by
    intro k j' hj'
    rcases h.new k j' hj' with hold | ⟨hnone, hB⟩
    · exact .inl hold
    · exact .inr ⟨hnone, hBC j' hB⟩

theorem adds_insert {r : JobRow} (hins : s.insert r = some t) (hr : B r) : Adds B s t where
  old := fun _ _ hj => find?_insert_old hins hj
  new := by
    intro k j' hj'
    rw [find?_insert hins] at hj'
    split at hj'
    · next hk =>
      rw [← Option.some.inj hj', ← hk]
      exact .inr ⟨(insert_eq_some_iff.mp hins).1, hr⟩
    · exact .inl hj'

theorem Adds.trans (h₁ : Adds B s t) (h₂ : Adds B t u) : Adds B s u where
  old := fun k j h => h₂.old k j (h₁.old k j h)
  new := by
    intro k j' hj'
    rcases h₂.new k j' hj' with ht | ⟨hnone, hborn⟩
    · exact h₁.new k j' ht
    cases hs : s.find? k with
    | none => exact .inr ⟨rfl, hborn⟩
    | some j =>
      rw [h₁.old k j hs] at hnone
      cases hnone

theorem rewrites_of_adds (h : Adds Born s t) : Rewrites s t where
  forth := fun k j hj => ⟨j, h.old k j hj, Written.same j⟩
  back := by
    intro k j' hj'
    rcases h.new k j' hj' with hold | hnew
    · exact .inl ⟨j', hold, Written.same j'⟩
    · exact .inr hnew

end Adds

variable {s t : Store} {now : Int} {j : JobRow}

variable {batch : BatchRow} {e : EventRow}

/-- The children of a batch and nothing else. -/
theorem adds_insertChildren :
    ∀ {cs : List BatchChildJob} {s t : Store}, insertChildren batch now s cs = .ok t →
        Adds (fun j => ∃ c ∈ cs, j = c.row batch now) s.jobs t.jobs := by
  intro cs
  induction cs with intro s t h
  | nil =>
    cases h
    exact adds_refl s.jobs
  | cons c cs ih =>
    obtain ⟨u, hu, h⟩ := bind_eq_ok h
    obtain ⟨jobs, hjobs, hu⟩ := bind_eq_ok hu
    obtain ⟨queue, -, hu⟩ := bind_eq_ok hu
    cases hu
    refine (adds_insert (insertOrFail_ok hjobs) ⟨c, List.mem_cons_self, rfl⟩).trans ((ih h).mono ?_)
    rintro j ⟨d, hd, rfl⟩
    exact ⟨d, List.mem_cons_of_mem c hd, rfl⟩

/-! ## One transaction -/

section Each

variable {s t : Store}

theorem rewrites_newJob {input : JobUpsert} {idem : Option IdempotencyRow}
    {adm : Except StoreError Unit} {r : CommitResult}
    (hok : commitNewJob s input idem adm = .ok (t, r)) :
    Rewrites s.jobs t.jobs := by
  rcases commitNewJob_ok hok with ⟨rfl, -⟩ | ⟨-, hnew⟩
  · exact rewrites_refl _
  · exact rewrites_of_adds (adds_insert hnew.jobs (.job input))

variable {now : Int}

theorem rewrites_newBatch {batch : BatchRow} {children : List BatchChildJob}
    {shared : List String} {idem : Option IdempotencyRow}
    {adm : Except StoreError Unit} {r : CommitResult}
    (hok : commitNewBatch s batch children shared idem adm now = .ok (t, r)) :
    Rewrites s.jobs t.jobs := by
  rcases commitNewBatch_ok hok with ⟨rfl, -⟩ | ⟨-, hnew⟩
  · exact rewrites_refl _
  refine rewrites_of_adds ((adds_insertChildren hnew.children).mono ?_)
  rintro j ⟨c, -, rfl⟩
  exact .child batch c now

variable {k : Key}

theorem related_bind {workerOrg worker session : String}
    (hok : bindQueuedJob s k workerOrg worker session now = some t) :
    s.jobs.Related Written t.jobs := by
  exact related_updateKey Written.same (bindQueuedJob_some hok).1.jobs
    fun j _ hq => .bound workerOrg worker session now (of_decide_eq_true hq)

theorem related_cancelQueued (hok : cancelQueuedJob s k now = some t) :
    s.jobs.Related Written t.jobs := by
  exact related_updateKey Written.same (cancelQueuedJob_some hok).1.jobs
    fun j _ hq => .cancelled now (of_decide_eq_true hq)

theorem related_update {u : ConditionalJobUpdate} (hok : updateJobIfCurrent s u = some t) :
    s.jobs.Related Written t.jobs := by
  exact related_updateKey Written.same
    (updateJobIfCurrent_some hok).1.jobs fun j _ hexp => .settled u hexp

theorem related_event {e : EventRow} {u : JobEventUpdate} {applied : Bool}
    (hok : applyJobEvent s e u now = .ok (t, applied)) :
    s.jobs.Related Written t.jobs := by
  rcases applyJobEvent_ok hok with ⟨rfl, -⟩ | ⟨hrow, -⟩
  · exact related_refl Written.same _
  · exact related_updateKey Written.same hrow.jobs fun j _ hexp => .moved u e now hexp

theorem related_rebind {attempt : Nat} {expected sessionId : String}
    (hok : rebindJobSession s k attempt expected sessionId now = some t) :
    s.jobs.Related Written t.jobs := by
  obtain ⟨jobs, hup, rfl⟩ := Option.map_eq_some_iff.mp hok
  refine related_updateKey Written.same hup fun j _ hwhere => ?_
  simp only [Bool.and_eq_true, Bool.or_eq_true, decide_eq_true_eq] at hwhere
  refine .rebound sessionId now hwhere.1.2 ?_
  rcases hwhere.2 with hsession | hsession
  · rw [hsession]
    rfl
  · rw [hsession]
    rfl

end Each

/-- Every other transaction only rewrites. -/
theorem related_perform (s : Store) {op : StoreOp} (hop : inserts op = false) :
    s.jobs.Related Written (perform s op).jobs := by
  have hsame : s.jobs.Related Written s.jobs :=
    related_refl Written.same _
  cases op with
  | commitNewJob input idem adm
  | commitNewBatch batch children shared idem adm now => cases hop
  | claimDispatchQueueJob owner seconds now locked =>
    rw [perform, claimDispatchQueueJob]
    split
    · exact hsame
    · exact hsame
  | bindQueuedJob k workerOrg worker session now =>
    exact inv_getD (I := fun t => s.jobs.Related Written t.jobs) hsame fun _ hok => related_bind hok
  | cancelQueuedJob k now =>
    exact inv_getD (I := fun t => s.jobs.Related Written t.jobs) hsame
      fun _ hok => related_cancelQueued hok
  | updateJobIfCurrent u =>
    exact inv_getD (I := fun t => s.jobs.Related Written t.jobs) hsame
      fun _ hok => related_update hok
  | applyJobEvent e u now =>
    exact inv_commit (I := fun t => s.jobs.Related Written t.jobs)
      hsame fun t r hok => related_event hok
  | releaseJobForTerminal k now =>
    rw [perform, (releaseJobForTerminal_frame s k now).1]
    exact hsame
  | reconcileActiveJobQuota now staleAfterMs seen =>
    exact Table.related_update Written.same
      (JobRow.giveUp_key now) fun j _ hstale => .givenUp _ now _ hstale

/-- **ONE TRANSACTION** of the store rewrites and inserts as listed. -/
theorem rewrites_perform (s : Store) (op : StoreOp) : Rewrites s.jobs (perform s op).jobs := by
  cases hop : inserts op with
  | false => exact rewrites_of_related (related_perform s hop)
  | true =>
    cases op with
    | commitNewJob input idem adm =>
      exact inv_commit (I := fun t => Rewrites s.jobs t.jobs)
        (rewrites_refl _) fun t r hok => rewrites_newJob hok
    | commitNewBatch batch children shared idem adm now =>
      exact inv_commit (I := fun t => Rewrites s.jobs t.jobs)
        (rewrites_refl _) fun t r hok => rewrites_newBatch hok
    | _ => cases hop

/-! ## History -/

/-- A row that was rewritten: its state stays once it is terminal, and its
    sequence does not fall. -/
structure Onward (j j' : JobRow) : Prop where
  terminal : j.state.isTerminal = true → j'.state = j.state
  lastEvent : j.lastEvent ≤ j'.lastEvent

theorem Onward.refl (j : JobRow) : Onward j j :=
  ⟨fun _ => rfl, Nat.le_refl _⟩

theorem Onward.trans {i k : JobRow} (h₁ : Onward i j) (h₂ : Onward j k) : Onward i k where
  terminal := by
    intro hterm
    have hj := h₁.terminal hterm
    rw [← hj] at hterm
    exact (h₂.terminal hterm).trans hj
  lastEvent := h₁.lastEvent.trans h₂.lastEvent

/-- A live row may take any state, as long as its sequence stays. -/
theorem onward_of_live {j' : JobRow} (hlive : j.state.isTerminal = false)
    (hlast : j'.lastEvent = j.lastEvent) : Onward j j' where
  terminal := by
    intro hterm
    rw [hlive] at hterm
    cases hterm
  lastEvent := Nat.le_of_eq hlast.symm

/-- The state a conditional update expects is the row's. -/
theorem live_of_expects {u : ConditionalJobUpdate} (h : u.expects j = true) :
    j.state.isTerminal = false := by
  rw [ConditionalJobUpdate.expects] at h
  simp only [Bool.and_eq_true, decide_eq_true_eq] at h
  rw [h.1.2]
  exact u.expected_live

theorem live_of_stale {cutoff : Int} {seen : List Key}
    (h : j.stale cutoff seen = true) : j.state.isTerminal = false := by
  rw [JobRow.stale, Bool.and_eq_true, Bool.and_eq_true] at h
  simpa [JobRow.live] using h.1.1

/-- Whatever is written to a row, history stays. -/
theorem onward_of_written {j' : JobRow} (h : Written j j') : Onward j j' := by
  cases h with
  | same => exact Onward.refl j
  | bound _ _ _ _ hq | cancelled _ hq =>
    exact onward_of_live (by rw [hq]; rfl) rfl
  | settled u hexp => exact onward_of_live (live_of_expects hexp) rfl
  | moved u e now hexp =>
    have hwas := JobEventUpdate.state_of_expects hexp
    refine ⟨fun hterm => ?_, Nat.le_max_left ..⟩
    rw [hwas] at hterm ⊢
    exact u.state_eq hterm
  | givenUp _ _ _ hstale => exact onward_of_live (live_of_stale hstale) rfl
  | rebound => exact ⟨fun _ => rfl, Nat.le_refl _⟩

/-- What is kept of the tables: every job with a row that has moved on, every
    event as it was stored. -/
structure Grows (s t : Store) : Prop where
  jobs : ∀ k j, s.jobs.find? k = some j → ∃ j', t.jobs.find? k = some j' ∧ Onward j j'
  events : ∀ k e, s.events.find? k = some e → t.events.find? k = some e

theorem Grows.refl (s : Store) : Grows s s :=
  ⟨fun _ j hj => ⟨j, hj, Onward.refl j⟩, fun _ _ he => he⟩

theorem Grows.trans {u : Store} (h₁ : Grows s t) (h₂ : Grows t u) : Grows s u where
  jobs := by
    intro k i hi
    obtain ⟨j, hj, hij⟩ := h₁.jobs k i hi
    obtain ⟨l, hl, hjl⟩ := h₂.jobs k j hj
    exact ⟨l, hl, hij.trans hjl⟩
  events := fun k e he => h₂.events k e (h₁.events k e he)

theorem Rewrites.onward {s t : Table Key JobRow JobRow.key}
    (h : Rewrites s t) (k : Key) (j : JobRow) (hj : s.find? k = some j) :
    ∃ j', t.find? k = some j' ∧ Onward j j' := by
  obtain ⟨j', hj', hw⟩ := h.forth k j hj
  exact ⟨j', hj', onward_of_written hw⟩

/-! ## The events and the batches -/

/-- A stored event is compared, never rewritten. -/
theorem recordEvent_keeps {events events' : Table _ EventRow EventRow.key}
    (h : recordEvent events e = some events') :
    ∀ k x, events.find? k = some x → events'.find? k = some x := by
  intro k x hx
  rw [recordEvent] at h
  split at h
  · exact find?_insert_old h hx
  · obtain ⟨-, rfl⟩ := of_guard h
    exact hx

theorem applyJobEvent_events {u : JobEventUpdate} {applied : Bool}
    (hok : applyJobEvent s e u now = .ok (t, applied)) :
    ∀ k x, s.events.find? k = some x → t.events.find? k = some x := by
  rcases applyJobEvent_ok hok with ⟨rfl, -⟩ | ⟨-, hevents, -⟩
  · -- the job has moved on: the event goes with the transaction
    exact fun _ _ hx => hx
  · exact recordEvent_keeps hevents

/-- No transaction replaces or loses an event. -/
theorem events_perform (s : Store) (op : StoreOp) :
    ∀ k x, s.events.find? k = some x → (perform s op).events.find? k = some x := by
  intro k x hx
  have hsame : ∀ t : Store, t.events = s.events → t.events.find? k = some x := by
    intro t ht
    rw [ht]
    exact hx
  cases op with
  | commitNewJob input idem adm =>
    refine inv_commit (I := fun t : Store => t.events.find? k = some x) hx fun t r hok => ?_
    rcases commitNewJob_ok hok with ⟨rfl, -⟩ | ⟨-, hnew⟩
    · exact hx
    · exact hsame t hnew.events
  | commitNewBatch batch children shared idem adm now =>
    refine inv_commit (I := fun t : Store => t.events.find? k = some x) hx fun t r hok => ?_
    rcases commitNewBatch_ok hok with ⟨rfl, -⟩ | ⟨-, hnew⟩
    · exact hx
    · exact hsame t hnew.events
  | claimDispatchQueueJob owner seconds now locked =>
    rw [perform, claimDispatchQueueJob]
    split
    · exact hx
    · exact hx
  | bindQueuedJob k' workerOrg worker session now =>
    exact inv_getD (I := fun t => t.events.find? k = some x) hx
      fun t hok => hsame t (bindQueuedJob_some hok).2.1
  | cancelQueuedJob k' now =>
    exact inv_getD (I := fun t => t.events.find? k = some x) hx
      fun t hok => hsame t (cancelQueuedJob_some hok).2.1
  | updateJobIfCurrent u =>
    exact inv_getD (I := fun t => t.events.find? k = some x) hx
      fun t hok => hsame t (updateJobIfCurrent_some hok).2.1
  | applyJobEvent e u now =>
    exact inv_commit (I := fun t => t.events.find? k = some x) hx
      fun t r hok => applyJobEvent_events hok k x hx
  | releaseJobForTerminal k' now =>
    exact hsame _ (releaseJobForTerminal_frame s k' now).2.2.2.1
  | reconcileActiveJobQuota now staleAfterMs seen => exact hx

/-! ## Whole runs -/

/-- A transaction on the history: one of the store's, or the rebind of a job
    to a new session of its worker. -/
inductive Act where
  | perform (op : StoreOp)
  | rebindJobSession (k : Key) (attempt : Nat)
      (expectedSessionId newSessionId : String) (now : Int)

/-- The tables after it. -/
def step (s : Store) : Act → Option Store
  | .perform op => some (HubStore.perform s op)
  | .rebindJobSession k attempt expected sessionId now =>
    some ((rebindJobSession s k attempt expected sessionId now).getD s)

theorem grows_step {a : Act} (h : step s a = some t) : Grows s t := by
  cases a with
  | perform op =>
    cases h
    exact ⟨(rewrites_perform s op).onward, events_perform s op⟩
  | rebindJobSession k attempt expected sessionId now =>
    cases h
    cases hok : rebindJobSession s k attempt expected sessionId now with
    | none => exact Grows.refl s
    | some t =>
      refine ⟨(rewrites_of_related (related_rebind hok)).onward, ?_⟩
      obtain ⟨jobs, -, rfl⟩ := Option.map_eq_some_iff.mp hok
      exact fun _ _ he => he

/-- **DURABLE HISTORY**: between the first state of a run and every state it
    passes through, no finished job changes its state, no `last_event` falls
    and no stored event is replaced or lost. -/
theorem history_monotone (s : Store) (as : List Act) : Along step (Grows s) s as :=
  inv_along_admitted (fun _ _ _ hg _ hstep => hg.trans (grows_step hstep))
    as s (Grows.refl s) (admitted_true as s)

end History
