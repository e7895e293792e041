import Mathlib.Data.Prod.Lex
import NagisaLake.RunProofs
import NagisaLake.CacheProofs
import NagisaLake.HubEventsProofs

/-! # Resident jobs — no finished job stays in memory

The Hub's memory is a cache of the unfinished rows.  A job enters it from
a row that a dispatch has read, and leaves it in the statement after the
one that finished the row, provided it is still the job the handler had
read.  So the cache is exact when nobody is at work as long as every
writer that finishes a row also evicts the job, and no dispatch brings a
finished row back.

Two writers do not: the quota reconciliation never looks at the memory,
and a dispatch inserts the row as it was when it was read.  A third way is
a sequence beyond a `BIGINT`, which the store cannot tell from another
one.  `Minds` is the run that avoids the three, and `noZombie` says that
nothing else can go wrong. -/

namespace Residents

open Jobs KeyedTable Runs Pools Caching Table List Option HubEvents
open HubStore hiding step
open Uploads (WorkerSession)

/-! ## The system -/

/-- The Hub and the handlers in progress. -/
abbrev World := Pool Hub HubEvents.Task

/-- A handler begins or goes on, the scheduler binds a job, the reconciler
    runs, sessions come and go. -/
inductive Act where
  | dispatchOutboxEntry (k : Key)
  /-- How a dispatch ends that was refused or not answered. -/
  | updateJobError (id message : String) (terminal : Bool)
  | bindQueuedJob (k : Key) (workerOrganizationId workerId sessionId : String)
      (now : Int)
  | applyJobEvent (w : WorkerSession) (e : JobEvent)
  | cancelJobLocally (id : String)
  /-- `rebind_jobs_for_session` and `rebind_cached_outbox_job`, one job. -/
  | rebindJob (w : WorkerSession) (id : String)
  | reconcileActiveJobQuota (now staleAfterMs : Int) (seen : Int → List Key)
  | setSessions (sessions : Table Key Session Session.key)
  | advance (i : Nat) (reply : HubEvents.Reply)

/-- A transaction of the store that is a statement of no handler here. -/
def transact (p : World) (s : Store) : World :=
  { p with shared := { p.shared with store := s } }

/-- One action. -/
def step (p : World) : Act → Option World
  | .dispatchOutboxEntry k => some (p.spawn (.outbox k))
  | .updateJobError id message terminal =>
    some (p.spawn (.updateError id message terminal))
  | .bindQueuedJob k workerOrg worker session now => some (transact p
      ((bindQueuedJob p.shared.store k workerOrg worker session now).getD p.shared.store))
  | .applyJobEvent w e => some (p.spawn (.lookup w e))
  | .cancelJobLocally id => some (p.spawn (.cancel id))
  | .rebindJob w id => some (p.spawn (.rebind w id))
  -- the reconciler knows the store only: no job leaves the memory
  | .reconcileActiveJobQuota now staleAfterMs seen => some (transact p
      (reconcileActiveJobQuota p.shared.store now staleAfterMs seen).1)
  | .setSessions sessions => some { p with
      shared := { p.shared with sessions := sessions } }
  | .advance i reply => p.advance HubEvents.taskStep i reply

/-- The handler has returned. -/
def isDone : HubEvents.Task → Bool
  | .done _ => true
  | _ => false

/-- No Hub operation is in progress. -/
def Settled (p : World) : Prop := p.tasks.all isDone = true

/-- Each resident job has an unfinished row. -/
def NoZombie (p : World) : Prop :=
  ∀ c ∈ p.shared.jobs.rows, ∃ j, p.shared.store.jobs.find? (c.organizationId, c.id) = some j
      ∧ j.state.isTerminal = false

/-- Sequences fit a `BIGINT`; a dispatch inserts a job only while its row is
    unfinished; the reconciler gives up no resident job. -/
def Minds (p : World) : Act → Prop
  | .applyJobEvent _ e => e.sequence ≤ i64Max
  | .reconcileActiveJobQuota now staleAfterMs seen =>
    ∀ j ∈ p.shared.store.jobs.rows, j.stale (saturate (now - max staleAfterMs 1000))
        (seen (saturate (now - max staleAfterMs 1000))) = true →
      p.shared.jobs.find? j.id = none
  | .advance i (.ok _) => ∀ stored, p.tasks[i]? = some (.cacheBound stored) →
      p.shared.jobs.find? stored.id = none →
      ∃ j, p.shared.store.jobs.find? stored.key = some j ∧ j.state.isTerminal = false
  | _ => True

/-! ## What a statement does -/

/-- The handler has read nothing it will rely on. -/
def quiet : HubEvents.Task → Bool
  | .lookup _ _ | .session _ _ _ | .apply _ _ _ _ _ | .merge _ _ _ _
  | .releaseTerminal _ _ | .evict _ _ | .reconcileMerge _ _ _
  | .cancelQueued _ | .settle _ _ _ | .settleMerge _ _ _ _ _ | .cacheNew _
  | .cacheBound _ => false
  | _ => true

/-- The handler has written the store and now writes the memory. -/
def concludes : HubEvents.Task → Bool
  | .merge _ _ _ _ | .settleMerge _ _ _ _ _ => true
  | _ => false

/-- An event that is applied: a new sequence, or an old one that names another state. -/
def Applies (c : CachedJob) (e : JobEvent) (fresh : Bool) : Prop :=
  c.lastEvent < e.sequence ∧ fresh = true
    ∨ e.sequence ≤ c.lastEvent ∧ c.state ≠ nextState e.kind ∧ fresh = false

section Statements

variable {h h' : Hub} {t t' : HubEvents.Task} {now : Int}

theorem quiet_unchanged (w : WorkerSession) (e : JobEvent) (c : CachedJob) :
    quiet (HubEvents.unchanged w e c) = true := by
  rw [unchanged]
  split
  · rfl
  · rfl

theorem quiet_tooLate (cancelling : Bool) (e : Uploads.HubError) :
    quiet (HubEvents.tooLate cancelling e) = true := by
  cases cancelling with
  | true | false => rfl

/-- A failed call leaves the Hub alone and ends the handler. -/
theorem quiet_failed {m : String} (hstep : HubEvents.taskStep h t (.failed m) = some (h', t')) :
    h' = h ∧ concludes t = false ∧ quiet t' = true := by
  cases t with
  | settle c u cancelling =>
    cases hstep
    exact ⟨rfl, rfl, quiet_tooLate cancelling _⟩
  | adopt | apply | reconcile | releaseTerminal | reconcileMerge | rebind
  | rebindStore | rebindReload | rebindRetry | cancelQueued | outbox
  | cacheBound =>
    cases hstep
    exact ⟨rfl, rfl, rfl⟩
  | _ => cases hstep

end Statements

/-! ## Versions of a job

A version is the sequence a row or a copy has reached, and then how far
its state is.  A transaction that leaves the sequence moves the state
forward, so versions are ordered lexicographically. -/

/-- How far a state is. -/
def rank : JobState → Nat
  | .queued => 0
  | .received => 1
  | .accepted => 2
  | .running => 3
  | .uploading => 4
  | .completed | .failed | .cancelled => 5

variable {s : JobState}

theorem eq_of_rank_eq {t : JobState} (hs : s.isTerminal = false) (h : rank s = rank t) : s = t := by
  revert hs h
  cases s <;> cases t <;> decide

theorem rank_eq_zero : rank s = 0 ↔ s = .queued := by
  cases s <;> decide

/-- A transition to another state goes forward. -/
theorem rank_lt_of_advances {t : JobState} (h : advances s t = true)
    (hne : s ≠ t) : rank s < rank t := by
  revert h hne
  cases s <;> cases t <;> decide

/-- A sequence and how far the state is. -/
abbrev Version := Nat ×ₗ Nat

/-- The version of a copy. -/
def version (c : CachedJob) : Version := toLex (c.lastEvent, rank c.state)

/-- The version of a row. -/
def rowVersion (j : JobRow) : Version := toLex (j.lastEvent, rank j.state)

/-- A job by its row. -/
structure Job where
  organizationId : String
  id : String
  attempt : Nat

def Job.key (J : Job) : Key := (J.organizationId, J.id)

/-- An unfinished copy of the job; one that is queued has heard of no event. -/
structure Of (J : Job) (c : CachedJob) : Prop where
  organization : c.organizationId = J.organizationId
  attempt : c.attempt = J.attempt
  live : c.state.isTerminal = false
  unheard : c.state = .queued → c.lastEvent = 0

/-- The rows of the job's id. -/
structure Rows (J : Job) (s : Store) (j : JobRow) : Prop where
  row : s.jobs.find? J.key = some j
  other : ∀ o, o ≠ J.organizationId → s.jobs.find? (o, J.id) = none
  attempt : j.attempt = J.attempt
  unheard : j.state = .queued → j.lastEvent = 0

/-- The row is the latest version, until it is finished. -/
def Stands (v : View Version) (j : JobRow) : Prop :=
  j.state.isTerminal = v.closed ∧ (v.closed = false → rowVersion j = v.latest)

/-- What the row and the memory show of the job. -/
structure Shows (J : Job) (v : View Version) (h : Hub) : Prop where
  rows : ∃ j, Rows J h.store j ∧ Stands v j
  cached : v.cached = (h.jobs.find? J.id).map version
  copy : ∀ c, h.jobs.find? J.id = some c → Of J c
  sound : Sound v

/-- A copy a handler has read from memory. -/
def Copy (J : Job) (v : View Version) (c : CachedJob) : Prop :=
  c.id = J.id → Of J c ∧ Held v (version c)

/-- A row a handler has read while it was unfinished. -/
def Read (J : Job) (v : View Version) (j : JobRow) : Prop :=
  j.id = J.id → Of J (ofRow j) ∧ rowVersion j ≤ v.latest

/-- The update of the row asks for the copy. -/
structure Asks (c : CachedJob) (e : JobEvent) (fresh : Bool)
    (u : JobEventUpdate) : Prop where
  fits : e.sequence ≤ i64Max
  id : e.jobId = c.id
  state : u.expectedState = c.state
  lastEvent : u.expectedLastEvent = clampI64 c.lastEvent
  next : u.state = nextState e.kind
  applies : Applies c e fresh

/-- The outline of the handlers: what holds at each statement. -/
def Holds (J : Job) (v : View Version) : HubEvents.Task → Prop
  | .lookup _ e => e.sequence ≤ i64Max
  | .session _ e c => e.sequence ≤ i64Max ∧ e.jobId = c.id ∧ Copy J v c
  | .apply _ e c fresh u => Copy J v c ∧ Asks c e fresh u
  | .merge _ _ c updated => Copy J v c ∧ (c.id = J.id →
      version c < version updated ∧ updated.state ≠ .queued
        ∧ (updated.state.isTerminal = false → version updated ≤ v.latest)
        ∧ (updated.state.isTerminal = true → v.closed = true))
  | .releaseTerminal _ e => e.jobId = J.id → v.closed = true
  | .evict _ e => e.jobId = J.id → v.closed = true
  | .reconcileMerge _ e j => e.jobId = j.id ∧ Read J v j
  | .cancelQueued c => Copy J v c ∧ c.state = .queued
  | .settle c u _ => Copy J v c ∧ u.key = (c.organizationId, c.id) ∧ u.expectedState = c.state
      ∧ u.expectedLastEvent = clampI64 c.lastEvent
  | .settleMerge c state _ _ _ => Copy J v c ∧ (c.id = J.id → state.isSome = true → v.closed = true)
  | .cacheNew _ => False
  | .cacheBound j => Read J v j ∧ j.state ≠ .queued
  | _ => True

/-- The handler is about to evict the job it has finished. -/
def Evicts (J : Job) (v : View Version) : HubEvents.Task → Prop
  | .merge _ _ c updated => c.id = J.id ∧ version c = v.latest ∧ updated.state.isTerminal = true
  | .settleMerge c state _ _ _ => c.id = J.id ∧ version c = v.latest ∧ state.isSome = true
  | _ => False

section Moving

variable {J : Job} {v w : View Version} {h h' : Hub}
  {t t' : HubEvents.Task} {c : CachedJob} {j : JobRow}

theorem Copy.move (hc : Copy J v c) (hm : Move v w) : Copy J w c := by
  intro hid
  exact ⟨(hc hid).1, (hc hid).2.move hm⟩

theorem Read.move (hj : Read J v j) (hm : Move v w) : Read J w j := by
  intro hid
  exact ⟨(hj hid).1, le_trans (hj hid).2 hm.latest_le⟩

/-- What was established stays so while the job moves. -/
theorem Holds.move (ht : Holds J v t) (hm : Move v w) : Holds J w t := by
  cases t with
  | session _ e c => exact ⟨ht.1, ht.2.1, ht.2.2.move hm⟩
  | apply _ e c fresh u | cancelQueued c | settle c u _ | cacheBound j =>
    exact ⟨ht.1.move hm, ht.2⟩
  | merge _ _ c updated =>
    refine ⟨ht.1.move hm, fun hid => ?_⟩
    obtain ⟨hlt, hne, hlive, hterm⟩ := ht.2 hid
    exact ⟨hlt, hne, fun hl => le_trans (hlive hl) hm.latest_le, fun hd => (hm.closed (hterm hd)).1⟩
  | releaseTerminal _ e | evict _ e => exact fun hid => (hm.closed (ht hid)).1
  | reconcileMerge _ e j => exact ⟨ht.1, ht.2.move hm⟩
  | settleMerge c state _ _ _ =>
    exact ⟨ht.1.move hm, fun hid hs => (hm.closed (ht.2 hid hs)).1⟩
  | _ => exact ht

theorem holds_of_quiet (hq : quiet t = true) : Holds J v t := by
  cases t <;> first
    | exact trivial
    | cases hq

theorem Evicts.move (ht : Evicts J v t) (hm : Move v w)
    (hclosed : v.closed = true) : Evicts J w t := by
  have hlatest := (hm.closed hclosed).2
  cases t with
  | merge _ _ c updated => exact ⟨ht.1, ht.2.1.trans hlatest.symm, ht.2.2⟩
  | settleMerge c state _ _ _ =>
    exact ⟨ht.1, ht.2.1.trans hlatest.symm, ht.2.2⟩
  | _ => exact ht.elim

end Moving

/-! ## What a transaction shows -/

section Store

variable {J : Job} {v : View Version} {h : Hub} {s : Store}
  {j j' : JobRow}

/-- The row keeps its version. -/
theorem Shows.keep (hs : Shows J v h) (hrows : Rows J s j') (hstands : Stands v j') :
    Shows J v { h with store := s } :=
  { hs with rows := ⟨j', hrows, hstands⟩ }

/-- The row has moved on. -/
theorem Shows.advance (hs : Shows J v h) (hrows : Rows J s j')
    (hopen : v.closed = false) (hlive : j'.state.isTerminal = false)
    (hlt : v.latest < rowVersion j') :
    Shows J { v with latest := rowVersion j' } { h with store := s } :=
  { hs with
    rows := ⟨j', hrows, hlive.trans hopen.symm, fun _ => rfl⟩
    sound := hs.sound.move (.advance hopen hlt) }

/-- The row is finished. -/
theorem Shows.close (hs : Shows J v h) (hrows : Rows J s j') (hterm : j'.state.isTerminal = true) :
    Shows J { v with closed := true } { h with store := s } :=
  { hs with
    rows := ⟨j', hrows, hterm, nofun⟩
    sound := hs.sound.move (.close v) }

/-- Rows of an id are of one organization. -/
theorem Rows.key_eq (hr : Rows J s j) {i : JobRow} {o : String}
    (hi : s.jobs.find? (o, J.id) = some i) : o = J.organizationId := by
  by_contra hne
  rw [hr.other o hne] at hi
  cases hi

variable {k : Key} {p : JobRow → Bool} {f : JobRow → JobRow}
  {hf : ∀ r : JobRow, (f r).key = r.key}

/-- A conditional update is of another job, or of this one. -/
theorem Shows.updated (hs : Shows J v h) (hup : h.store.jobs.updateKey k p f hf = some s.jobs)
    (hattempt : ∀ j, (f j).attempt = j.attempt)
    (hqueued : ∀ j, (f j).state = .queued → j.state = .queued ∧ (f j).lastEvent = j.lastEvent) :
    (k.2 ≠ J.id ∧ Shows J v { h with store := s })
      ∨ k = J.key ∧ ∃ j, p j = true ∧ Rows J h.store j ∧ Rows J s (f j) ∧ Stands v j := by
  obtain ⟨j, hrows, hstands⟩ := hs.rows
  obtain ⟨r, hfind, hp, -⟩ := updateKey_eq_some hup
  obtain ⟨o, id⟩ := k
  by_cases hk : id = J.id
  · subst hk
    obtain rfl := hrows.key_eq hfind
    cases hfind.symm.trans hrows.row
    refine .inr ⟨rfl, j, hp, hrows, ⟨?_, fun o ho => ?_, (hattempt j).trans hrows.attempt,
      fun hq => ?_⟩, hstands⟩
    · rw [find?_updateKey hup hfind]
      exact if_pos rfl
    · rw [find?_updateKey hup hfind, if_neg]
      · exact hrows.other o ho
      · exact fun hkey => ho (congrArg Prod.fst hkey)
    · rw [(hqueued j hq).2]
      exact hrows.unheard (hqueued j hq).1
  · have hkeep : ∀ o, s.jobs.find? (o, J.id) = h.store.jobs.find? (o, J.id) := by
      intro o
      rw [find?_updateKey hup hfind, if_neg]
      exact fun hkey => hk (congrArg Prod.snd hkey).symm
    exact .inl ⟨hk, hs.keep ⟨(hkeep _).trans hrows.row,
      fun o ho => (hkeep o).trans (hrows.other o ho), hrows.attempt, hrows.unheard⟩ hstands⟩

end Store

/-! ## What the memory shows -/

section Memory

variable {J : Job} {v : View Version} {h : Hub} {c cur : CachedJob}

section

variable (hs : Shows J v h)
include hs

/-- Another job goes to memory. -/
theorem Shows.put_elsewhere (hid : c.id ≠ J.id) : Shows J v { h with jobs := h.jobs.put c } := by
  have hkeep : (h.jobs.put c).find? J.id = h.jobs.find? J.id := by
    rw [find?_put, if_neg hid]
  refine ⟨hs.rows, ?_, ?_, hs.sound⟩
  · rw [hkeep]
    exact hs.cached
  · rw [hkeep]
    exact hs.copy

/-- A version of the job goes to memory. -/
theorem Shows.put_here (hid : c.id = J.id) (hof : Of J c) (hle : version c ≤ v.latest) :
    Shows J { v with cached := some (version c) }
      { h with jobs := h.jobs.put c } := by
  have hfind : (h.jobs.put c).find? J.id = some c := by
    rw [find?_put, if_pos hid]
  refine ⟨hs.rows, ?_, ?_, ?_⟩
  · rw [hfind]
    rfl
  · rw [hfind]
    intro c' hc'
    exact some.inj hc' ▸ hof
  · intro x hx
    exact some.inj hx ▸ hle

/-- The resident job is rewritten, its version stays. -/
theorem Shows.put_same (hcur : h.jobs.find? c.id = some cur)
    (hof : Of J cur → Of J c) (hver : version c = version cur) :
    Shows J v { h with jobs := h.jobs.put c } := by
  by_cases hid : c.id = J.id
  · rw [hid] at hcur
    have hcached : v.cached = some (version c) := by
      rw [hs.cached, hcur, hver]
      rfl
    have hput := hs.put_here hid (hof (hs.copy cur hcur)) (hs.sound _ hcached)
    rwa [← hcached] at hput
  · exact hs.put_elsewhere hid

/-- A job leaves the memory. -/
theorem Shows.delete_here : Shows J { v with cached := none }
      { h with jobs := h.jobs.delete fun x => x.id = J.id } := by
  have hfind := find?_delete_self h.jobs J.id
  refine ⟨hs.rows, ?_, ?_, nofun⟩
  · rw [hfind]
    rfl
  · rw [hfind]
    exact nofun

theorem Shows.delete_elsewhere {id : String} (hid : id ≠ J.id) :
    Shows J v { h with jobs := h.jobs.delete fun x => x.id = id } := by
  have hkeep := find?_delete_ne h.jobs (Ne.symm hid)
  refine ⟨hs.rows, ?_, ?_, hs.sound⟩
  · rw [hkeep]
    exact hs.cached
  · rw [hkeep]
    exact hs.copy

/-- A resident job is held by whoever reads it. -/
theorem Shows.copy_of_find? (hc : h.jobs.find? c.id = some c) : Copy J v c := by
  intro hid
  rw [hid] at hc
  refine ⟨hs.copy c hc, held_of_cached hs.sound ?_⟩
  rw [hs.cached, hc]
  rfl

end

end Memory

/-! ## Where a statement leads -/

/-- The job has moved, and the handler may go on.  A statement that finishes the row is followed by
    the eviction of what the memory still has, and that evicts it. -/
def Leads (J : Job) (v : View Version) (t : HubEvents.Task) (h' : Hub)
    (t' : HubEvents.Task) : Prop :=
  ∃ w, Move v w ∧ Shows J w h' ∧ Holds J w t' ∧ (v.closed = false → w.closed = true →
      w.cached = some w.latest ∧ Evicts J w t')
    ∧ (Evicts J v t → (∀ y, v.cached = some y → y = v.latest) → w.cached = none)

section Leading

variable {J : Job} {v w : View Version} {h h' : Hub} {s : Store}
  {t t' : HubEvents.Task} {c cur : CachedJob} {e : JobEvent} {j : JobRow}

theorem not_evicts (hn : concludes t = false) : ¬ Evicts J v t := by
  intro he
  cases t with
  | merge _ _ c updated | settleMerge c state _ _ _ => cases hn
  | _ => exact he

/-- A statement that does not finish the row. -/
theorem leads_of_open (hm : Move v w) (hs : Shows J w h') (ht : Holds J w t')
    (hsame : w.closed = v.closed)
    (hev : Evicts J v t → (∀ y, v.cached = some y → y = v.latest) → w.cached = none) :
    Leads J v t h' t' := by
  refine ⟨w, hm, hs, ht, fun hopen hclosed => ?_, hev⟩
  rw [hsame, hopen] at hclosed
  cases hclosed

/-- A statement that does not concern the job. -/
theorem leads_of_stay (hn : concludes t = false) (hs : Shows J v h')
    (ht : Holds J v t') : Leads J v t h' t' :=
  leads_of_open (.stay v) hs ht rfl fun he => absurd he (not_evicts hn)

/-- A row that is read while it is unfinished is its latest version. -/
theorem Shows.read (hs : Shows J v h) {o : String} (hj : h.store.jobs.find? (o, j.id) = some j)
    (hlive : j.state.isTerminal = false) : Read J v j := by
  intro hid
  rw [hid] at hj
  obtain ⟨i, hrows, hclosed, hlatest⟩ := hs.rows
  obtain rfl := hrows.key_eq hj
  obtain rfl : i = j := some.inj (hrows.row.symm.trans hj)
  have hkey : i.key = J.key := key_of_find? hj
  exact ⟨⟨congrArg Prod.fst hkey, hrows.attempt, hlive, hrows.unheard⟩,
    le_of_eq (hlatest (hclosed.symm.trans hlive))⟩

/-- A copy whose state and sequence the row has is the latest version. -/
theorem Stands.latest_of_asked (hstands : Stands v j)
    (hof : Of J c) (hheld : Held v (version c)) (hstate : j.state = c.state)
    (hlast : j.lastEvent = clampI64 c.lastEvent) :
    v.closed = false ∧ version c = v.latest ∧ j.lastEvent = c.lastEvent := by
  obtain ⟨hclosed, hlatest⟩ := hstands
  rw [hstate, hof.live] at hclosed
  have heq := hlatest hclosed.symm
  have hle := hheld.le
  rw [← heq, version, rowVersion, Prod.Lex.toLex_le_toLex, hlast] at hle
  have hclamp := clampI64_le c.lastEvent
  have hsame : clampI64 c.lastEvent = c.lastEvent := by
    rcases hle with hlt | ⟨heq', -⟩
    · exact absurd hlt (Nat.not_lt.mpr hclamp)
    · exact heq'.symm
  refine ⟨hclosed.symm, ?_, hlast.trans hsame⟩
  rw [← heq, version, rowVersion, hstate, hlast, hsame]

variable {fresh : Bool} {x : WorkerSession} {now : Int}

/-- The version an applied event makes of the copy. -/
theorem version_applied (now : Int) (ha : advances c.state (nextState e.kind) = true)
    (hf : Applies c e fresh) :
    version c < version (c.applied e fresh now) := by
  rw [version, version, Prod.Lex.toLex_lt_toLex]
  rcases hf with ⟨hlt, rfl⟩ | ⟨-, hne, rfl⟩
  · exact .inl hlt
  · exact .inr ⟨rfl, rank_lt_of_advances ha hne⟩

variable {u : JobEventUpdate}

/-- The row after the event is the version the handler remembers. -/
theorem rowVersion_write (now : Int) (hask : Asks c e fresh u) (hlast : j.lastEvent = c.lastEvent) :
    rowVersion (u.write (eventRow c e) now j) = version (c.applied e fresh now) := by
  have hclamp : clampI64 e.sequence = e.sequence := Nat.min_eq_left hask.fits
  have hmax : max j.lastEvent (clampI64 e.sequence)
      = if fresh then e.sequence else c.lastEvent := by
    rw [hclamp, hlast]
    rcases hask.applies with ⟨hlt, rfl⟩ | ⟨hle, -, rfl⟩
    · exact Nat.max_eq_right (Nat.le_of_lt hlt)
    · exact Nat.max_eq_left hle
  show toLex (max j.lastEvent (clampI64 e.sequence), rank u.state) = _
  rw [hmax, hask.next]
  rfl

theorem nextState_ne_queued (k : JobEventKind) : nextState k ≠ .queued := by
  cases k <;> exact nofun

theorem Asks.advances (hask : Asks c e fresh u) :
    HubEvents.advances c.state (nextState e.kind) = true := by
  have hallowed := u.allowed
  rw [hask.state, hask.next] at hallowed
  exact Bool.or_eq_true_iff.mpr hallowed

/-! ### Statements that write the store -/

/-- A statement that finishes the row of the job the memory still has. -/
theorem leads_of_close (hn : concludes t = false) (hs : Shows J v h)
    (hrows : Rows J s j) (hterm : j.state.isTerminal = true)
    (hopen : v.closed = false) (hheld : Held v (version c))
    (hlatest : version c = v.latest)
    (ht : Holds J { v with closed := true } t')
    (he : Evicts J { v with closed := true } t') :
    Leads J v t { h with store := s } t' :=
  ⟨_, .close v, hs.close hrows hterm, ht, fun _ _ => ⟨hheld.cached hopen hlatest, he⟩,
    fun hev _ => absurd hev (not_evicts hn)⟩

theorem leads_applied (hs : Shows J v h) (ht : Holds J v (.apply x e c fresh u))
    (hok : HubStore.applyJobEvent h.store (eventRow c e) u now = .ok (s, true)) :
    Leads J v (.apply x e c fresh u) { h with store := s }
      (.merge x e c (c.applied e fresh now)) := by
  obtain ⟨hcopy, hask⟩ := ht
  rcases hs.updated (applyJobEvent_rewrote hok).jobs (fun _ => rfl) (fun _ hq =>
      absurd (hask.next.symm.trans hq) (nextState_ne_queued e.kind)) with
    ⟨hk, hshows⟩ | ⟨hkey, j, hexp, hrows, hrows', hstands⟩
  · exact leads_of_stay rfl hshows ⟨hcopy, fun h => absurd (hask.id.trans h) hk⟩
  have hid : c.id = J.id := hask.id.symm.trans (congrArg Prod.snd hkey)
  obtain ⟨hof, hheld⟩ := hcopy hid
  rw [JobEventUpdate.expects] at hexp
  simp only [Bool.and_eq_true, decide_eq_true_eq] at hexp
  obtain ⟨hopen, hver, hlast⟩ := hstands.latest_of_asked hof hheld
    (hexp.1.1.2.trans hask.state) (hexp.1.2.trans hask.lastEvent)
  have hlt := version_applied now hask.advances hask.applies
  have hwritten := rowVersion_write now hask hlast
  cases hterm : (nextState e.kind).isTerminal with
  | true =>
    refine leads_of_close rfl hs hrows' ?_ hopen hheld hver
      ⟨hcopy.move (.close v), fun _ => ⟨hlt, nextState_ne_queued e.kind, ?_, fun _ => rfl⟩⟩
      ⟨hid, hver, hterm⟩
    · exact (congrArg JobState.isTerminal hask.next).trans hterm
    · intro hlive
      cases hterm.symm.trans hlive
  | false =>
    have hup : v.latest < rowVersion (u.write (eventRow c e) now j) := by
      rw [hwritten, ← hver]
      exact hlt
    have hm := Move.advance hopen hup
    refine leads_of_open hm (hs.advance hrows' hopen ?_ hup)
      ⟨hcopy.move hm, fun _ => ⟨hlt, nextState_ne_queued e.kind,
        fun _ => le_of_eq hwritten.symm, ?_⟩⟩ rfl fun he => absurd he (not_evicts rfl)
    · exact (congrArg JobState.isTerminal hask.next).trans hterm
    · intro hdone
      cases hterm.symm.trans hdone

theorem leads_cancelled {error : Option String} (hs : Shows J v h)
    (ht : Holds J v (.cancelQueued c))
    (hok : cancelQueuedJob h.store (c.organizationId, c.id) now = some s) :
    Leads J v (.cancelQueued c) { h with store := s }
      (.settleMerge c (some .cancelled) error now true) := by
  obtain ⟨hcopy, hqueued⟩ := ht
  rcases hs.updated (cancelQueuedJob_some hok).1.jobs (fun _ => rfl) (fun _ => nofun) with
    ⟨hk, hshows⟩ | ⟨hkey, j, hwas, hrows, hrows', hstands⟩
  · exact leads_of_stay rfl hshows ⟨hcopy, fun h => absurd h hk⟩
  have hid : c.id = J.id := congrArg Prod.snd hkey
  obtain ⟨hof, hheld⟩ := hcopy hid
  have hstate : j.state = .queued := of_decide_eq_true hwas
  -- neither the row nor the copy has heard of an event
  obtain ⟨hopen, hver, -⟩ := hstands.latest_of_asked hof hheld (hstate.trans hqueued.symm) (by
      rw [hrows.unheard hstate, hof.unheard hqueued]
      rfl)
  exact leads_of_close rfl hs hrows' rfl hopen hheld hver
    ⟨hcopy.move (.close v), fun _ _ => rfl⟩ ⟨hid, hver, rfl⟩

theorem leads_settled {u : ConditionalJobUpdate} {cancelling : Bool}
    (hs : Shows J v h) (ht : Holds J v (.settle c u cancelling))
    (hok : updateJobIfCurrent h.store u = some s) :
    Leads J v (.settle c u cancelling) { h with store := s }
      (.settleMerge c u.state u.error u.now cancelling) := by
  obtain ⟨hcopy, hkey, hstate, hlast⟩ := ht
  have hqueued : ∀ j, (u.write j).state = .queued →
      j.state = .queued ∧ (u.write j).lastEvent = j.lastEvent := by
    intro j hq
    refine ⟨?_, rfl⟩
    change u.state.getD j.state = .queued at hq
    cases hu : u.state with
    | none => rwa [hu] at hq
    | some target =>
      rw [hu] at hq
      have hterm := u.state_terminal target hu
      rw [show target = .queued from hq] at hterm
      cases hterm
  rcases hs.updated (updateJobIfCurrent_some hok).1.jobs (fun _ => rfl) hqueued with
    ⟨hk, hshows⟩ | ⟨hJ, j, hexp, hrows, hrows', hstands⟩
  · rw [hkey] at hk
    exact leads_of_stay rfl hshows ⟨hcopy, fun h => absurd h hk⟩
  have hid : c.id = J.id := congrArg Prod.snd (hkey.symm.trans hJ)
  obtain ⟨hof, hheld⟩ := hcopy hid
  rw [ConditionalJobUpdate.expects] at hexp
  simp only [Bool.and_eq_true, decide_eq_true_eq] at hexp
  obtain ⟨hopen, hver, -⟩ := hstands.latest_of_asked hof hheld
    (hexp.1.2.trans hstate) (hexp.2.trans hlast)
  cases hu : u.state with
  | none =>
    -- only the error is written
    have hsame : (u.write j).state = j.state := by
      show u.state.getD j.state = j.state
      rw [hu]
      rfl
    refine leads_of_stay rfl (hs.keep hrows' ⟨?_, fun ho => ?_⟩)
      ⟨hcopy, fun _ hsome => nomatch hsome⟩
    · rw [hsame]
      exact hstands.1
    · rw [← hstands.2 ho, rowVersion, rowVersion, hsame]
      rfl
  | some target =>
    have hterm : (u.write j).state.isTerminal = true := by
      show (u.state.getD j.state).isTerminal = true
      rw [hu]
      exact u.state_terminal target hu
    exact leads_of_close rfl hs hrows' hterm hopen hheld hver
      ⟨hcopy.move (.close v), fun _ _ => rfl⟩ ⟨hid, hver, rfl⟩

/-- The job is bound to another session. -/
theorem Shows.rebound {k : Key} {attempt : Nat} {expected sessionId : String} (hs : Shows J v h)
    (hok : rebindJobSession h.store k attempt expected sessionId now
      = some s) : Shows J v { h with store := s } := by
  obtain ⟨jobs, hup, rfl⟩ := map_eq_some_iff.mp hok
  rcases hs.updated (s := { h.store with jobs := jobs }) hup (fun _ => rfl)
      (fun _ hq => ⟨hq, rfl⟩) with ⟨-, hshows⟩ | ⟨-, j, -, -, hrows, hstands⟩
  · exact hshows
  · exact hs.keep hrows hstands

/-! ### Statements that write the memory -/

/-- The resident job a handler finds again is the version it has read. -/
theorem version_of_matches (hm : c.matches cur = true) : version cur = version c := by
  rw [CachedJob.matches] at hm
  simp only [Bool.and_eq_true, decide_eq_true_eq] at hm
  rw [version, version, hm.1.2, hm.2]

theorem matches_of_version (hc : Of J c) (hcur : Of J cur)
    (hver : version cur = version c) : c.matches cur = true := by
  have heq := Prod.mk.inj (toLex_inj.mp hver)
  rw [CachedJob.matches]
  simp only [Bool.and_eq_true, decide_eq_true_eq]
  exact ⟨⟨hcur.attempt.trans hc.attempt.symm, eq_of_rank_eq hcur.live heq.2⟩, heq.1⟩

/-- A handler that has finished the row misses its copy only when the memory has lost the job. -/
theorem Shows.cached_of_miss (hs : Shows J v h) (hid : c.id = J.id)
    (hof : Of J c) (hver : version c = v.latest)
    (hlast : ∀ y, v.cached = some y → y = v.latest)
    (hmiss : (h.jobs.find? c.id).filter c.matches = none) :
    v.cached = none := by
  rw [hid] at hmiss
  cases hcur : h.jobs.find? J.id with
  | none =>
    rw [hs.cached, hcur]
    rfl
  | some cur =>
    have hcached : v.cached = some (version cur) := by
      rw [hs.cached, hcur]
      rfl
    have hmatch := matches_of_version hof (hs.copy cur hcur) ((hlast _ hcached).trans hver.symm)
    rw [hcur, filter_some, if_pos hmatch] at hmiss
    cases hmiss

/-- A handler writes the memory of another job. -/
theorem leads_elsewhere (hs : Shows J v h') (he : ¬ Evicts J v t)
    (hq : quiet t' = true) : Leads J v t h' t' :=
  leads_of_open (.stay v) hs (holds_of_quiet hq) rfl fun hev => absurd hev he

section

variable (hs : Shows J v h)
include hs

/-- A handler evicts a job it has finished. -/
theorem leads_of_evict {id : String} (hclosed : id = J.id → v.closed = true)
    (hev : id ≠ J.id → ¬ Evicts J v t) (hq : quiet t' = true) :
    Leads J v t { h with jobs := h.jobs.delete fun x => x.id = id } t' := by
  by_cases hid : id = J.id
  · rw [hid]
    exact leads_of_open (.evict (hclosed hid)) hs.delete_here (holds_of_quiet hq) rfl fun _ _ => rfl
  · exact leads_elsewhere (hs.delete_elsewhere hid) (hev hid) hq

/-- A handler brings the memory up to a later version. -/
theorem leads_of_refresh {c' : CachedJob} (hcur : h.jobs.find? J.id = some cur) (hid : c'.id = J.id)
    (hof : Of J cur → Of J c') (hlt : version cur < version c')
    (hle : version c' ≤ v.latest) (hq : quiet t' = true)
    (hev : ¬ Evicts J v t) :
    Leads J v t { h with jobs := h.jobs.put c' } t' := by
  have hcached : v.cached = some (version cur) := by
    rw [hs.cached, hcur]
    rfl
  exact leads_of_open (.refresh hcached hlt hle) (hs.put_here hid (hof (hs.copy cur hcur)) hle)
    (holds_of_quiet hq) rfl fun he => absurd he hev

theorem leads_merged {updated : CachedJob}
    (ht : Holds J v (.merge x e c updated)) (hq : quiet t' = true) :
    Leads J v (.merge x e c updated) (mergeEvent h x c updated) t' := by
  obtain ⟨hcopy, hwrote⟩ := ht
  rw [mergeEvent]
  split
  · next hmiss =>
    refine leads_of_open (.stay v) hs (holds_of_quiet hq) rfl fun hev hlast => ?_
    exact hs.cached_of_miss hev.1 (hcopy hev.1).1 hev.2.1 hlast hmiss
  next cur hfound =>
  obtain ⟨hcur, hmatch⟩ := filter_eq_some_iff.mp hfound
  have hkey : cur.id = c.id := key_of_find? hcur
  split
  · next hterm =>
    exact leads_of_evict hs (fun hid => (hwrote hid).2.2.2 hterm) (fun hid he => hid he.1) hq
  next hlive =>
  rw [Bool.not_eq_true] at hlive
  by_cases hid : c.id = J.id
  · obtain ⟨hlt, hne, hle, -⟩ := hwrote hid
    rw [hid] at hcur
    refine leads_of_refresh hs hcur (hkey.trans hid)
      (fun hof => ⟨hof.organization, hof.attempt, hlive,
        fun h => absurd h hne⟩) ?_ (hle hlive) hq fun hev => ?_
    · rw [version_of_matches hmatch]
      exact hlt
    · exact absurd (hlive.symm.trans hev.2.2) Bool.false_ne_true
  · exact leads_elsewhere (hs.put_elsewhere fun h => hid (hkey.symm.trans h))
      (fun he => hid he.1) hq

theorem leads_dismissed {state : Option JobState} {error : Option String}
    {cancelling : Bool}
    (ht : Holds J v (.settleMerge c state error now cancelling))
    (hq : quiet t' = true) :
    Leads J v (.settleMerge c state error now cancelling)
      (mergeSettlement h c state error now) t' := by
  obtain ⟨hcopy, hdone⟩ := ht
  rw [mergeSettlement]
  split
  · next hmiss =>
    refine leads_of_open (.stay v) hs (holds_of_quiet hq) rfl fun hev hlast => ?_
    exact hs.cached_of_miss hev.1 (hcopy hev.1).1 hev.2.1 hlast hmiss
  next cur hfound =>
  have hcur := (filter_eq_some_iff.mp hfound).1
  have hkey : cur.id = c.id := key_of_find? hcur
  rw [← hkey] at hcur
  split
  · next hsome =>
    exact leads_of_evict hs (fun hid => hdone hid hsome) (fun hid he => hid he.1) hq
  · next hnone =>
    exact leads_elsewhere (hs.put_same hcur (fun hof => ⟨hof.1, hof.2,
      hof.3, hof.4⟩) rfl) (fun he => hnone he.2.2) hq

/-- The session of a resident job is no part of its version. -/
theorem Shows.moved {owned : CachedJob → Bool} : Shows J v (mergeRebind h x c now owned) := by
  rw [mergeRebind]
  split
  · exact hs
  next cur hcur =>
  have hkey : cur.id = c.id := key_of_find? hcur
  rw [← hkey] at hcur
  split
  · exact hs.put_same hcur (fun hof => ⟨hof.1, hof.2, hof.3, hof.4⟩) rfl
  · exact hs

end

/-- The row a resident job is behind is a later version. -/
theorem version_lt_of_behind (hb : cur.behind j = true) : version cur < rowVersion j := by
  rw [CachedJob.behind] at hb
  simp only [Bool.or_eq_true, Bool.and_eq_true, Bool.not_eq_true',
    decide_eq_true_eq, decide_eq_false_iff_not] at hb
  rw [version, rowVersion, Prod.Lex.toLex_lt_toLex]
  rcases hb with hlt | ⟨⟨heq, hne⟩, ha⟩
  · exact .inl hlt
  · exact .inr ⟨heq, rank_lt_of_advances ha hne⟩

theorem leads_caughtUp (hs : Shows J v h) (ht : Holds J v (.reconcileMerge x e j))
    (hcur : h.jobs.find? e.jobId = some cur) (hb : cur.behind j = true)
    (hq : quiet t' = true) :
    Leads J v (.reconcileMerge x e j)
      { h with jobs := h.jobs.put (cur.catchUp j) } t' := by
  obtain ⟨hjob, hread⟩ := ht
  have hkey : cur.id = e.jobId := key_of_find? hcur
  by_cases hid : e.jobId = J.id
  · obtain ⟨hrow, hle⟩ := hread (hjob.symm.trans hid)
    rw [hid] at hcur
    exact leads_of_refresh hs hcur (hkey.trans hid)
      (fun hof => ⟨hof.organization, hof.attempt, hrow.live, hrow.unheard⟩)
      (version_lt_of_behind hb) hle hq (not_evicts rfl)
  · exact leads_elsewhere (hs.put_elsewhere fun h => hid (hkey.symm.trans h)) (not_evicts rfl) hq

/-- A queued copy is below every row that is not. -/
theorem version_lt_of_queued (hof : Of J cur) (hcur : cur.state = .queued)
    (hj : j.state ≠ .queued) : version cur < rowVersion j := by
  rw [version, rowVersion, Prod.Lex.toLex_lt_toLex, hof.unheard hcur, hcur]
  rcases Nat.eq_zero_or_pos j.lastEvent with hzero | hpos
  · refine .inr ⟨hzero.symm, Nat.pos_of_ne_zero fun h => ?_⟩
    exact hj (rank_eq_zero.mp h)
  · exact .inl hpos

section

variable (hs : Shows J v h)
include hs

theorem leads_cached (ht : Holds J v (.cacheBound j)) (hminds : h.jobs.find? j.id = none →
      ∃ i, h.store.jobs.find? j.key = some i ∧ i.state.isTerminal = false)
    (hq : quiet t' = true) :
    Leads J v (.cacheBound j) (cacheBoundOutboxJob h j) t' := by
  obtain ⟨hread, hne⟩ := ht
  have hn : concludes (.cacheBound j) = false := rfl
  rw [cacheBoundOutboxJob]
  split
  · next hnone =>
    by_cases hid : j.id = J.id
    · obtain ⟨hof, hle⟩ := hread hid
      -- the row is unfinished, so the job may enter the memory
      obtain ⟨i, hi, hlive⟩ := hminds hnone
      obtain ⟨i', hrows, hclosed, -⟩ := hs.rows
      have hkey : j.key = J.key := Prod.ext hof.organization hid
      rw [hkey] at hi
      cases hrows.row.symm.trans hi
      have hopen : v.closed = false := hclosed.symm.trans hlive
      have hempty : v.cached = none := by
        rw [hs.cached, ← hid, hnone]
        rfl
      exact leads_of_open (.fill hopen hempty hle) (hs.put_here hid hof hle) (holds_of_quiet hq)
        rfl fun he => absurd he (not_evicts hn)
    · exact leads_elsewhere (hs.put_elsewhere hid) (not_evicts hn) hq
  · next cur hcur =>
    split
    · next hold =>
      by_cases hid : j.id = J.id
      · obtain ⟨hof, hle⟩ := hread hid
        rw [hid] at hcur
        exact leads_of_refresh hs hcur hid (fun _ => hof)
          (version_lt_of_queued (hs.copy cur hcur) hold.2 hne) hle hq
          (not_evicts hn)
      · exact leads_elsewhere (hs.put_elsewhere hid) (not_evicts hn) hq
    · exact leads_of_stay hn hs (holds_of_quiet hq)

/-! ### One statement -/

theorem leads_of_quiet (hn : concludes t = false) (hq : quiet t' = true) : Leads J v t h t' :=
  leads_of_stay hn hs (holds_of_quiet hq)

theorem leads_lookup (ht : Holds J v (.lookup x e)) :
    Leads J v (.lookup x e) h (HubEvents.afterLookup x e (h.jobs.find? e.jobId)) := by
  cases hc : h.jobs.find? e.jobId with
  | none => exact leads_of_quiet hs rfl rfl
  | some c =>
    rw [afterLookup]
    split
    · have hkey := key_of_find? hc
      rw [← hkey] at hc
      exact leads_of_stay rfl hs ⟨ht, hkey.symm, hs.copy_of_find? hc⟩
    · exact leads_of_quiet hs rfl rfl

/-- `apply_job_event` after the session check. -/
theorem leads_judge (ht : Holds J v (.session x e c)) :
    Leads J v (.session x e c) h (HubEvents.judge x e c) := by
  have happly : ∀ fresh ha, Applies c e fresh → Leads J v (.session x e c) h
      (.apply x e c fresh (eventUpdate c e x.sessionId ha)) :=
    fun fresh ha hf => leads_of_stay rfl hs ⟨ht.2.2, ht.1, ht.2.1, rfl, rfl, rfl, hf⟩
  rw [judge]
  split
  · next ha =>
    split
    · next hnew => exact happly true ha (.inl ⟨hnew, rfl⟩)
    next hold =>
    split
    · exact leads_of_quiet hs rfl (quiet_unchanged x e c)
    · next hne => exact happly false ha (.inr ⟨Nat.not_lt.mp hold, hne, rfl⟩)
  · split
    · exact leads_of_quiet hs rfl rfl
    · exact leads_of_quiet hs rfl (quiet_unchanged x e c)

theorem leads_reconcile (miss : Uploads.HubError) :
    Leads J v (.reconcile x e miss) h (HubEvents.afterRow x e miss
      (h.store.jobs.find? (x.organizationId, e.jobId))) := by
  cases hj : h.store.jobs.find? (x.organizationId, e.jobId) with
  | none => exact leads_of_quiet hs rfl rfl
  | some j =>
    rw [afterRow]
    split
    · next hterm =>
      refine leads_of_stay rfl hs fun hid => ?_
      rw [hid] at hj
      obtain ⟨i, hrows, hclosed, -⟩ := hs.rows
      rw [hrows.key_eq hj] at hj
      cases hrows.row.symm.trans hj
      exact hclosed.symm.trans hterm
    next hlive =>
    split
    · exact leads_of_quiet hs rfl rfl
    · have hkey : j.id = e.jobId := congrArg Prod.snd (key_of_find? hj)
      rw [← hkey] at hj
      exact leads_of_stay rfl hs ⟨hkey.symm, hs.read hj (Bool.eq_false_iff.mpr hlive)⟩

theorem leads_error (id message : String) (terminal : Bool) :
    Leads J v (.updateError id message terminal) h
      (HubEvents.afterError message terminal now (h.jobs.find? id)) := by
  cases hc : h.jobs.find? id with
  | none => exact leads_of_quiet hs rfl rfl
  | some c =>
    obtain rfl : c.id = id := key_of_find? hc
    rw [afterError]
    split
    · exact leads_of_stay rfl hs ⟨hs.copy_of_find? hc, rfl, rfl, rfl⟩
    · exact leads_of_quiet hs rfl rfl

theorem leads_cancel (id : String) :
    Leads J v (.cancel id) h (HubEvents.afterCancel now (h.jobs.find? id)) := by
  cases hc : h.jobs.find? id with
  | none => exact leads_of_quiet hs rfl rfl
  | some c =>
    obtain rfl : c.id = id := key_of_find? hc
    rw [afterCancel]
    split
    · split
      · next hq => exact leads_of_stay rfl hs ⟨hs.copy_of_find? hc, hq⟩
      · exact leads_of_stay rfl hs ⟨hs.copy_of_find? hc, rfl, rfl, rfl⟩
    · exact leads_of_quiet hs rfl rfl

theorem leads_outbox (k : Key) :
    Leads J v (.outbox k) h (HubEvents.afterOutbox (h.store.jobs.find? k)) := by
  cases hj : h.store.jobs.find? k with
  | none => exact leads_of_quiet hs rfl rfl
  | some j =>
    obtain rfl : j.key = k := key_of_find? hj
    rw [afterOutbox]
    split
    · next hbound =>
      simp only [Bool.and_eq_true, Bool.not_eq_true', decide_eq_false_iff_not] at hbound
      refine leads_of_stay rfl hs ⟨hs.read hj ?_, hbound.2⟩
      simpa [JobRow.live] using hbound.1.1.1.1
    · exact leads_of_quiet hs rfl rfl

theorem leads_releaseTerminal (ht : Holds J v (.releaseTerminal x e)) :
    Leads J v (.releaseTerminal x e) { h with
      store := releaseJobForTerminal h.store (x.organizationId, e.jobId) now } (.evict x e) := by
  refine leads_of_stay rfl ?_ ht
  have hjobs := (releaseJobForTerminal_frame h.store (x.organizationId, e.jobId) now).1
  obtain ⟨j, hrows, hstands⟩ := hs.rows
  refine hs.keep ⟨?_, ?_, hrows.attempt, hrows.unheard⟩ hstands
  · rw [hjobs]
    exact hrows.row
  · rw [hjobs]
    exact hrows.other

/-- **ONE STATEMENT** leads from one view of the job to the next. -/
theorem leads_taskStep (ht : Holds J v t)
    (hminds : ∀ stored, t = .cacheBound stored → h.jobs.find? stored.id = none → ∃ j,
        h.store.jobs.find? stored.key = some j ∧ j.state.isTerminal = false)
    (hstep : HubEvents.taskStep h t (.ok now) = some (h', t')) : Leads J v t h' t' := by
  cases t with
  | lookup x e =>
    cases hstep
    exact leads_lookup hs ht
  | session x e c =>
    cases hstep
    split
    · exact leads_judge hs ht
    · exact leads_of_quiet hs rfl rfl
  | adopt | rebindStore | rebindRetry =>
    simp only [taskStep] at hstep
    repeat' split at hstep
    all_goals
      cases hstep
      first
        | exact leads_of_quiet hs rfl rfl
        | next hok => exact leads_of_stay rfl (hs.rebound hok) trivial
  | answer | rebind | rebindReload =>
    simp only [taskStep] at hstep
    repeat' split at hstep
    all_goals
      cases hstep
      exact leads_of_quiet hs rfl rfl
  | mergeSession x e c now' | rebindMerge x c now' =>
    cases hstep
    exact leads_of_stay rfl hs.moved trivial
  | apply x e c fresh u =>
    rw [taskStep] at hstep
    split at hstep <;> cases hstep
    · next hok => exact leads_applied hs ht hok
    all_goals exact leads_of_quiet hs rfl rfl
  | merge x e c updated =>
    cases hstep
    exact leads_merged hs ht rfl
  | reconcile x e miss =>
    cases hstep
    exact leads_reconcile hs miss
  | releaseTerminal x e =>
    cases hstep
    exact leads_releaseTerminal hs ht
  | evict x e =>
    cases hstep
    exact leads_of_evict hs ht (fun _ => not_evicts rfl) rfl
  | reconcileMerge x e j =>
    rw [taskStep] at hstep
    split at hstep <;> cases hstep
    · exact leads_of_quiet hs rfl rfl
    · next cur hcur =>
      obtain ⟨hfind, hb⟩ := filter_eq_some_iff.mp hcur
      exact leads_caughtUp hs ht hfind hb rfl
  | updateError id message terminal =>
    cases hstep
    exact leads_error hs id message terminal
  | cancel id =>
    cases hstep
    exact leads_cancel hs id
  | cancelQueued c =>
    rw [taskStep] at hstep
    split at hstep <;> cases hstep
    · next hok => exact leads_cancelled hs ht hok
    · exact leads_of_quiet hs rfl rfl
  | settle c u cancelling =>
    rw [taskStep] at hstep
    split at hstep <;> cases hstep
    · next hok => exact leads_settled hs ht hok
    · exact leads_of_quiet hs rfl (quiet_tooLate cancelling _)
  | settleMerge c state error now' cancelling =>
    cases hstep
    refine leads_dismissed hs ht ?_
    split
    · rfl
    · exact quiet_tooLate cancelling _
  | cacheNew c => exact ht.elim
  | outbox k =>
    cases hstep
    exact leads_outbox hs k
  | cacheBound j =>
    cases hstep
    exact leads_cached hs ht (hminds j rfl) rfl
  | done result => cases hstep

end

end Leading

/-! ## Whole runs of one job -/

/-- The invariant: the Hub shows the job, every handler holds what it needs, and the memory has a
    finished job only as long as the handler that has finished it is about to evict it. -/
structure Inv (J : Job) (v : View Version) (p : World) : Prop where
  shows : Shows J v p.shared
  tasks : ∀ t ∈ p.tasks, Holds J v t
  doomed : v.closed = true → ∀ x, v.cached = some x → x = v.latest ∧ ∃ t ∈ p.tasks, Evicts J v t

section Runs

variable {J : Job} {v : View Version} {p q : World}

section

variable (hi : Inv J v p)
include hi

/-- A statement of a handler. -/
theorem Inv.advance {i : Nat} {reply : HubEvents.Reply} (hminds : Minds p (.advance i reply))
    (hs : p.advance HubEvents.taskStep i reply = some q) :
    ∃ w, Inv J w q := by
  obtain ⟨t, h', t', ht, hstep, rfl⟩ := Pool.advance_eq_some hs
  have hmem := mem_of_getElem? ht
  have hleads : Leads J v t h' t' := by
    cases reply with
    | failed m =>
      obtain ⟨rfl, hn, hq⟩ := quiet_failed hstep
      exact leads_of_stay hn hi.shows (holds_of_quiet hq)
    | ok now =>
      refine leads_taskStep hi.shows (hi.tasks t hmem) ?_ hstep
      rintro stored rfl
      exact hminds stored ht
  obtain ⟨w, hm, hshows, hholds, hclose, hevict⟩ := hleads
  refine ⟨w, hshows, forall_tasks_set
    (fun u hu => (hi.tasks u hu).move hm) hholds, fun hclosed x hx => ?_⟩
  cases hwas : v.closed with
  | false =>
    obtain ⟨hcached, hev⟩ := hclose hwas hclosed
    obtain ⟨hi, -⟩ := List.getElem?_eq_some_iff.mp ht
    exact ⟨some.inj (hx.symm.trans hcached), t', mem_set hi t', hev⟩
  | true =>
    have hlast := fun y hy => (hi.doomed hwas y hy).1
    have hback := hm.cached_back hwas hlast hx
    obtain ⟨heq, hex⟩ := hi.doomed hwas x hback
    refine ⟨heq.trans (hm.closed hwas).2.symm, ?_⟩
    -- the handler that was about to evict it has not moved
    have hkept : ∃ u ∈ p.tasks.set i t', Evicts J v u := by
      refine exists_tasks_set ht hex fun hev => ?_
      rw [hevict hev hlast] at hx
      cases hx
    obtain ⟨u, hu, hev⟩ := hkept
    exact ⟨u, hu, hev.move hm hwas⟩

/-- A handler begins. -/
theorem Inv.spawn {t : HubEvents.Task} (ht : Holds J v t) : Inv J v (p.spawn t) where
  shows := hi.shows
  tasks := forall_tasks_spawn hi.tasks ht
  doomed := by
    intro hclosed x hx
    obtain ⟨heq, u, hu, hev⟩ := hi.doomed hclosed x hx
    exact ⟨heq, u, mem_append_left _ hu, hev⟩

/-- The scheduler binds the job: its row moves on. -/
theorem Inv.bind {k : Key}
    {workerOrg worker session : String} {now : Int} {s : Store}
    (hok : bindQueuedJob p.shared.store k workerOrg worker session now
      = some s) : ∃ w, Inv J w (transact p s) := by
  rcases hi.shows.updated (bindQueuedJob_some hok).1.jobs (fun _ => rfl) (fun _ => nofun) with
    ⟨-, hshows⟩ | ⟨rfl, j, hwas, -, hrows, hclosed, hlatest⟩
  · exact ⟨v, hshows, hi.tasks, hi.doomed⟩
  have hstate : j.state = .queued := of_decide_eq_true hwas
  have hopen : v.closed = false := by
    rw [← hclosed, hstate]
    rfl
  have hlt : v.latest < rowVersion (j.bind workerOrg worker session now) := by
    rw [← hlatest hopen, rowVersion, rowVersion, hstate, Prod.Lex.toLex_lt_toLex]
    exact .inr ⟨rfl, Nat.zero_lt_one⟩
  refine ⟨_, hi.shows.advance hrows hopen rfl hlt,
    fun t ht => (hi.tasks t ht).move (.advance hopen hlt), fun hc => ?_⟩
  cases hopen.symm.trans hc

/-- The reconciler gives the job up while it is not resident. -/
theorem Inv.reconcile {now staleAfterMs : Int}
    {seen : Int → List Key}
    (hminds : Minds p (.reconcileActiveJobQuota now staleAfterMs seen)) :
    ∃ w, Inv J w (transact p (reconcileActiveJobQuota p.shared.store now staleAfterMs seen).1) := by
  obtain ⟨j, hrows, hstands⟩ := hi.shows.rows
  let cutoff := saturate (now - max staleAfterMs 1000)
  let s := (reconcileActiveJobQuota p.shared.store now staleAfterMs seen).1
  have hfind : ∀ k, s.jobs.find? k = (p.shared.store.jobs.find? k).map
      fun j => if j.stale cutoff (seen cutoff) then j.giveUp now else j :=
    fun k => find?_update p.shared.store.jobs _ (JobRow.giveUp now) (JobRow.giveUp_key now) k
  have hother : ∀ o, o ≠ J.organizationId → s.jobs.find? (o, J.id) = none := by
    intro o ho
    rw [hfind, hrows.other o ho]
    rfl
  cases hstale : j.stale cutoff (seen cutoff) with
  | false =>
    have hrow : s.jobs.find? J.key = some j := by
      rw [hfind, hrows.row, map_some, hstale]
      rfl
    exact ⟨v, hi.shows.keep ⟨hrow, hother, hrows.attempt, hrows.unheard⟩ hstands,
      hi.tasks, hi.doomed⟩
  | true =>
    have hrow : s.jobs.find? J.key = some (j.giveUp now) := by
      rw [hfind, hrows.row, map_some, hstale]
      rfl
    have hid : j.id = J.id :=
      congrArg Prod.snd (key_of_find? hrows.row)
    have hnone : v.cached = none := by
      rw [hi.shows.cached, ← hid, hminds j (mem_of_find? hrows.row) hstale]
      rfl
    refine ⟨_, hi.shows.close ⟨hrow, hother, hrows.attempt, nofun⟩ rfl,
      fun t ht => (hi.tasks t ht).move (.close v), fun _ x hx => ?_⟩
    cases hnone.symm.trans hx

/-- **ONE ACTION** that minds keeps the invariant of every job. -/
theorem inv_step {act : Act} (hminds : Minds p act)
    (hs : step p act = some q) : ∃ w, Inv J w q := by
  cases act with
  | bindQueuedJob k workerOrg worker session now =>
    cases hs
    cases hok : bindQueuedJob p.shared.store k workerOrg worker session now with
    | none => exact ⟨v, hi⟩
    | some s => exact hi.bind hok
  | applyJobEvent w e =>
    cases hs
    exact ⟨v, hi.spawn hminds⟩
  | reconcileActiveJobQuota now staleAfterMs seen =>
    cases hs
    exact hi.reconcile hminds
  | setSessions sessions =>
    cases hs
    exact ⟨v, ⟨hi.shows.rows, hi.shows.cached, hi.shows.copy, hi.shows.sound⟩, hi.tasks, hi.doomed⟩
  | advance i reply => exact hi.advance hminds hs
  | _ =>
    cases hs
    exact ⟨v, hi.spawn trivial⟩

end

end Runs

/-! ## Every resident job has a row -/

/-- The rows are the rows there were at the start, and the memory is about them. -/
structure Rooted (K : Key → Prop) (h : Hub) : Prop where
  rows : ∀ k j, h.store.jobs.find? k = some j → K k
  memory : ∀ c ∈ h.jobs.rows, K (c.organizationId, c.id)

/-- So are the rows a dispatch is about to insert. -/
def Rests (K : Key → Prop) : HubEvents.Task → Prop
  | .cacheBound j => K j.key
  | .cacheNew _ => False
  | _ => True

section Roots

variable {K : Key → Prop} {h h' : Hub} {s : Store} {t t' : HubEvents.Task}

theorem rests_of_quiet (hq : quiet t = true) : Rests K t := by
  cases t <;> first
    | exact trivial
    | cases hq

section

variable (hr : Rooted K h)
include hr

theorem Rooted.store (hs : ∀ k j, s.jobs.find? k = some j → ∃ i, h.store.jobs.find? k = some i) :
    Rooted K { h with store := s } := by
  refine ⟨fun k j hj => ?_, hr.memory⟩
  obtain ⟨i, hi⟩ := hs k j hj
  exact hr.rows k i hi

/-- A conditional update brings no row. -/
theorem Rooted.update {k : Key} {p : JobRow → Bool}
    {f : JobRow → JobRow} {hf : ∀ r : JobRow, (f r).key = r.key}
    {jobs : Table Key JobRow JobRow.key}
    (hup : h.store.jobs.updateKey k p f hf = some jobs)
    (hjobs : s.jobs = jobs) : Rooted K { h with store := s } := by
  refine hr.store fun k' j hj => ?_
  obtain ⟨r, hfind, -, -⟩ := updateKey_eq_some hup
  rw [hjobs, find?_updateKey hup hfind] at hj
  split at hj
  · next hk => exact ⟨r, hk ▸ hfind⟩
  · exact ⟨j, hj⟩

/-- What a statement writes. -/
theorem Rooted.writes (ht : Rests K t) (hw : Writes h t h') : Rooted K h' := by
  cases hw with
  | nothing => exact hr
  | rebound hs =>
    obtain ⟨jobs, hup, rfl⟩ := map_eq_some_iff.mp hs
    exact hr.update hup rfl
  | applied _ hs => exact hr.update (applyJobEvent_rewrote hs).jobs rfl
  | released k now =>
    refine hr.store fun k' j hj => ⟨j, ?_⟩
    rwa [(releaseJobForTerminal_frame _ _ _).1] at hj
  | cancelled _ hs => exact hr.update (cancelQueuedJob_some hs).1.jobs rfl
  | settled _ hs => exact hr.update (updateJobIfCurrent_some hs).1.jobs rfl
  | evicted id => exact ⟨hr.rows, forall_delete hr.memory⟩
  | rewritten hcur hkey =>
    exact ⟨hr.rows, forall_put hr.memory (hkey ▸ hr.memory _ (mem_of_find? hcur))⟩
  | cached hc =>
    refine ⟨hr.rows, forall_put hr.memory ?_⟩
    rcases hc with rfl | ⟨j, rfl, rfl⟩
    · exact ht.elim
    · exact ht

/-- Only a row is about to be inserted. -/
theorem rests_outbox (k : Key) : Rests K (HubEvents.afterOutbox (h.store.jobs.find? k)) := by
  cases hj : h.store.jobs.find? k with
  | none => exact trivial
  | some j =>
    obtain rfl : j.key = k := key_of_find? hj
    rw [afterOutbox]
    split
    · exact hr.rows _ j hj
    · exact trivial

/-- One statement. -/
theorem rests_taskStep {now : Int} (hstep : HubEvents.taskStep h t (.ok now) = some (h', t')) :
    Rests K t' := by
  cases t with
  | outbox k =>
    cases hstep
    exact rests_outbox hr k
  | done result => cases hstep
  | _ =>
    -- no other statement is followed by one that inserts
    simp only [taskStep, afterLookup, judge, unchanged, afterRow, afterError, afterCancel,
      tooLate] at hstep
    repeat' split at hstep
    all_goals
      cases hstep
      exact trivial

end

/-- One action. -/
theorem rooted_step {p q : World} {act : Act} (hr : Rooted K p.shared)
    (ht : ∀ t ∈ p.tasks, Rests K t) (hs : step p act = some q) :
    Rooted K q.shared ∧ ∀ t ∈ q.tasks, Rests K t := by
  cases act with
  | bindQueuedJob k workerOrg worker session now =>
    cases hs
    refine ⟨?_, ht⟩
    cases hok : bindQueuedJob p.shared.store k workerOrg worker session now with
    | none => exact hr
    | some s => exact hr.update (bindQueuedJob_some hok).1.jobs rfl
  | reconcileActiveJobQuota now staleAfterMs seen =>
    cases hs
    refine ⟨hr.store fun k j hj => ?_, ht⟩
    change (p.shared.store.jobs.update _ (JobRow.giveUp now)
      (JobRow.giveUp_key now)).find? k = some j at hj
    rw [find?_update] at hj
    obtain ⟨i, hi, -⟩ := map_eq_some_iff.mp hj
    exact ⟨i, hi⟩
  | setSessions sessions =>
    cases hs
    exact ⟨⟨hr.rows, hr.memory⟩, ht⟩
  | advance i reply =>
    obtain ⟨t, h', t', hti, hstep, rfl⟩ := Pool.advance_eq_some hs
    have htask := ht t (mem_of_getElem? hti)
    cases reply with
    | failed m =>
      obtain ⟨rfl, -, hq⟩ := quiet_failed hstep
      exact ⟨hr, forall_tasks_set ht (rests_of_quiet hq)⟩
    | ok now =>
      exact ⟨hr.writes htask (writes_taskStep hstep), forall_tasks_set ht (rests_taskStep hr hstep)⟩
  | _ =>
    cases hs
    exact ⟨hr, forall_tasks_spawn ht trivial⟩

end Roots

/-! ## Whole runs -/

/-- Nobody is at work; ids of jobs are UUIDs, so they name one row; a queued row has heard of no
    event; every resident job is a version of an unfinished row. -/
structure Start (p : World) : Prop where
  tasks : p.tasks = []
  ids : ∀ o o' id i j, p.shared.store.jobs.find? (o, id) = some i →
    p.shared.store.jobs.find? (o', id) = some j → o = o'
  unheard : ∀ k j, p.shared.store.jobs.find? k = some j → j.state = .queued → j.lastEvent = 0
  resident : ∀ c ∈ p.shared.jobs.rows, ∃ j,
    p.shared.store.jobs.find? (c.organizationId, c.id) = some j ∧ j.state.isTerminal = false
      ∧ Of ⟨c.organizationId, c.id, j.attempt⟩ c ∧ version c ≤ rowVersion j

section Start

variable {p p₀ : World}

/-- A Hub that has just read its jobs from the store. -/
theorem start_of_hydrate (htasks : p.tasks = [])
    (hjobs : p.shared.jobs = HubEvents.hydrate p.shared.store)
    (hids : ∀ o o' id i j, p.shared.store.jobs.find? (o, id) = some i →
      p.shared.store.jobs.find? (o', id) = some j → o = o')
    (hunheard : ∀ k j, p.shared.store.jobs.find? k = some j →
      j.state = .queued → j.lastEvent = 0) : Start p := by
  refine ⟨htasks, hids, hunheard, fun c hc => ?_⟩
  rw [hjobs] at hc
  rcases mem_foldl_put ofRow _ _ hc with hno | ⟨j, hj, rfl⟩
  · cases hno
  obtain ⟨hrow, hlive⟩ := mem_filter.mp hj
  have hlive : j.state.isTerminal = false := by
    simpa [JobRow.live] using hlive
  have hfind := find?_of_mem hrow
  exact ⟨j, hfind, hlive, ⟨rfl, rfl, hlive, hunheard _ j hfind⟩, le_refl _⟩

/-- At the start every row is shown. -/
theorem Start.inv (h : Start p) {o id : String} {j : JobRow}
    (hj : p.shared.store.jobs.find? (o, id) = some j) :
    ∃ v, Inv ⟨o, id, j.attempt⟩ v p := by
  have hnone : ∀ t, t ∉ p.tasks := by
    intro t ht
    rw [h.tasks] at ht
    exact not_mem_nil ht
  -- the row of a resident job of this id is this row
  have hrow : ∀ c, p.shared.jobs.find? id = some c →
      j.state.isTerminal = false ∧ Of ⟨o, id, j.attempt⟩ c ∧ version c ≤ rowVersion j := by
    intro c hc
    have hid : c.id = id := key_of_find? hc
    obtain ⟨i, hi, hlive, hof, hle⟩ := h.resident c (mem_of_find? hc)
    rw [hid] at hi hof
    obtain rfl := h.ids _ _ _ _ _ hi hj
    cases hi.symm.trans hj
    exact ⟨hlive, hof, hle⟩
  refine ⟨⟨rowVersion j, (p.shared.jobs.find? id).map version,
    j.state.isTerminal⟩, ⟨⟨j, ⟨hj, ?_, rfl, h.unheard _ j hj⟩, rfl, fun _ => rfl⟩,
      rfl, fun c hc => (hrow c hc).2.1, ?_⟩,
    fun t ht => absurd ht (hnone t), ?_⟩
  · intro o' ho'
    by_contra hsome
    obtain ⟨i, hi⟩ := ne_none_iff_exists'.mp hsome
    exact ho' (h.ids _ _ _ _ _ hi hj)
  · intro x hx
    obtain ⟨c, hc, rfl⟩ := map_eq_some_iff.mp hx
    exact (hrow c hc).2.2
  · intro hclosed x hx
    obtain ⟨c, hc, -⟩ := map_eq_some_iff.mp hx
    cases (hrow c hc).1.symm.trans hclosed

/-- The rows there were at the start. -/
def known (p₀ : World) (k : Key) : Prop :=
  ∃ j, p₀.shared.store.jobs.find? k = some j

/-- The invariant of every row. -/
structure Whole (p₀ p : World) : Prop where
  rooted : Rooted (known p₀) p.shared
  rests : ∀ t ∈ p.tasks, Rests (known p₀) t
  jobs : ∀ o id, known p₀ (o, id) → ∃ a v, Inv ⟨o, id, a⟩ v p

theorem Start.whole (h : Start p₀) : Whole p₀ p₀ where
  rooted := by
    refine ⟨fun k j hj => ⟨j, hj⟩, fun c hc => ?_⟩
    obtain ⟨j, hj, -⟩ := h.resident c hc
    exact ⟨j, hj⟩
  rests := by
    intro t ht
    rw [h.tasks] at ht
    cases ht
  jobs := by
    rintro o id ⟨j, hj⟩
    exact ⟨j.attempt, h.inv hj⟩

theorem whole_step {q : World} {act : Act} (hw : Whole p₀ p)
    (hminds : Minds p act) (hs : step p act = some q) : Whole p₀ q := by
  obtain ⟨hrooted, hrests⟩ := rooted_step hw.rooted hw.rests hs
  refine ⟨hrooted, hrests, fun o id hk => ?_⟩
  obtain ⟨a, v, hi⟩ := hw.jobs o id hk
  exact ⟨a, inv_step hi hminds hs⟩

/-- With nobody at work, nobody is about to evict a finished job. -/
theorem Whole.noZombie (hw : Whole p₀ p) (hsettled : Settled p) : NoZombie p := by
  intro c hc
  obtain ⟨a, v, hi⟩ := hw.jobs _ _ (hw.rooted.memory c hc)
  obtain ⟨j, hrows, hclosed, -⟩ := hi.shows.rows
  refine ⟨j, hrows.row, ?_⟩
  by_contra hterm
  rw [Bool.not_eq_false] at hterm
  have hcached : v.cached = some (version c) := by
    rw [hi.shows.cached, show p.shared.jobs.find? c.id = some c from find?_of_mem hc]
    rfl
  obtain ⟨-, t, ht, hev⟩ :=
    hi.doomed (hclosed.symm.trans hterm) _ hcached
  have hdone := all_eq_true.mp hsettled t ht
  cases t with
  | done result => exact hev
  | _ => cases hdone

/-- **NO ZOMBIE RESIDENT JOBS** whenever no Hub operation is in progress,
    along every interleaving that minds. -/
theorem resident_unfinished (h₀ : Start p₀) (acts : List Act)
    (hminds : Admitted step Minds p₀ acts) :
    Along step (fun p => Settled p → NoZombie p) p₀ acts :=
  Along.mono (fun _ hw => hw.noZombie) acts p₀
    (inv_along_admitted (fun _ _ _ hw hm hs => whole_step hw hm hs) acts p₀ h₀.whole hminds)

end Start

/-- The job in progress. -/
def runningRow : JobRow :=
  { HubEvents.finishedRow "org" with state := .running, lastEvent := 3 }

/-- A Hub that has just read it. -/
def sampleWorld : World where
  shared := {
    store := { sampleStore with jobs := Table.empty.put runningRow }
    jobs := Table.empty.put (ofRow runningRow)
    sessions := Table.empty.put ⟨"provider", "default/gpu", "session"⟩ }
  tasks := []

theorem sampleWorld_start : Start sampleWorld := by
  have hrow : ∀ k j, sampleWorld.shared.store.jobs.find? k = some j → j = runningRow := by
    intro k j hj
    exact mem_singleton.mp (mem_of_find? hj)
  refine start_of_hydrate rfl rfl (fun o o' id i j hi hj => ?_) fun k j hj hq => ?_
  · have hi' := congrArg Prod.fst (key_of_find? hi)
    have hj' := congrArg Prod.fst (key_of_find? hj)
    rw [hrow _ _ hi] at hi'
    rw [hrow _ _ hj] at hj'
    exact hi'.symm.trans hj'
  · rw [hrow k j hj] at hq
    cases hq

/-- The event that finishes the job. -/
def sampleFinish (i : Nat) : List Act :=
  [.advance i (.ok 20), .advance i (.ok 21), .advance i (.ok 22),
    .advance i (.ok 23), .advance i (.ok 24)]

/-- The handler that finishes the job evicts it. -/
theorem finishedJob_evicted : (∃ p, run step sampleWorld (.applyJobEvent HubEvents.providerSession
        HubEvents.lastFrame :: sampleFinish 0) = some p
        ∧ Settled p ∧ p.shared.jobs.rows = [])
      ∧ Along step (fun p => Settled p → NoZombie p) sampleWorld
        (.applyJobEvent HubEvents.providerSession HubEvents.lastFrame :: sampleFinish 0) := by
  refine ⟨⟨_, rfl, rfl, rfl⟩, resident_unfinished sampleWorld_start _ ?_⟩
  have hfits : lastFrame.sequence ≤ i64Max := by decide
  refine .cons hfits rfl ?_
  refine .cons (fun _ h => nomatch h) rfl ?_
  refine .cons (fun _ h => nomatch h) rfl ?_
  refine .cons (fun _ h => nomatch h) rfl ?_
  refine .cons (fun _ h => nomatch h) rfl ?_
  exact .cons (fun _ h => nomatch h) rfl trivial

/-- A dispatch reads the row, the job finishes, the dispatch inserts it. -/
def sampleRace : List Act :=
  [.dispatchOutboxEntry ("org", "job"), .advance 0 (.ok 18),
    .applyJobEvent HubEvents.providerSession HubEvents.lastFrame]
    ++ sampleFinish 1 ++ [.advance 0 (.ok 30)]

/-- The worker has not been seen for half an hour: the reconciler fails the row and leaves the
    resident job running.  And a dispatch that has read the row brings the finished job back. -/
theorem finishedJob_resident : Start sampleWorld ∧ (∃ p, run step sampleWorld
          [.reconcileActiveJobQuota 1800010 1800000 fun _ => []] = some p
        ∧ Settled p ∧ p.shared.jobs.rows = [ofRow runningRow]
        ∧ ¬ NoZombie p)
      ∧ ∃ p, run step sampleWorld sampleRace = some p
        ∧ Settled p ∧ p.shared.jobs.rows = [ofRow runningRow]
        ∧ ¬ NoZombie p := by
  refine ⟨sampleWorld_start, ⟨_, rfl, rfl, rfl, fun hno => ?_⟩, _, rfl, rfl, rfl, fun hno => ?_⟩
  · obtain ⟨j, hj, hlive⟩ := hno (ofRow runningRow) mem_cons_self
    rw [← some.inj hj] at hlive
    cases hlive
  obtain ⟨j, hj, hlive⟩ := hno (ofRow runningRow) mem_cons_self
  rw [← some.inj hj] at hlive
  cases hlive

end Residents
