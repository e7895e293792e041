import NagisaLake.ChannelProofs
import NagisaLake.RunProofs
import NagisaLake.HubEventsProofs

/-! # Registration — the replay of a worker's unfinished jobs

When a worker registers, `serve_worker` rebinds its unfinished jobs to the
new session and sends one `DispatchJob` for each into the session's
outbound channel.  The channel holds 256 frames and its only reader is the
main loop of the same task, which begins after the replay.  Other tasks
know the session already and may send commands into the channel, too.

So the replay waits for itself as soon as it has one frame too many:
it completes under every interleaving if and only if the replayed jobs and
the frames of the others fit the channel together
(`replay_completes_iff`). -/

namespace Registration

open Jobs KeyedTable Runs HubStore Channels Table List Option
open HubEvents (Hub CachedJob Session rebindJobSession mergeRebind)
open Uploads (HubError WorkerSession)

/-! ## `rebind_jobs_for_session` -/

/-- `DispatchJob`, as far as the replay reads it. -/
structure Dispatch where
  jobId : String
  attempt : Nat
  deriving DecidableEq, Repr

/-- The unfinished jobs bound to the worker. -/
def unfinished (h : Hub) (w : WorkerSession) : List CachedJob :=
  h.jobs.rows.filter fun c => c.boundTo w && !c.state.isTerminal

/-- The row is bound to the session: at first where the copy has it, then where the row has it. -/
def rebindRow (h : Hub) (w : WorkerSession) (now : Int) (c : CachedJob) : Option Store :=
  match rebindJobSession h.store (c.organizationId, c.id) c.attempt
      c.sessionId w.sessionId now with
  | some s => some s
  | none =>
    match (h.store.jobs.find? (c.organizationId, c.id)).bind
        JobRow.sessionId with
    | none => none
    | some stored => rebindJobSession h.store (c.organizationId, c.id)
        c.attempt stored w.sessionId now

/-- One job after the other; `reads` is what its artifacts, their downloads
    and the statements of the store answer. -/
def rebindJobs (reads : CachedJob → Except HubError Unit) (w : WorkerSession) (now : Int) :
    Hub → List String → Except HubError (Hub × List Dispatch)
  | h, [] => .ok (h, [])
  | h, id :: ids =>
    match h.jobs.find? id with
    | none => rebindJobs reads w now h ids
    | some c => (reads c).bind fun _ =>
      if h.isCurrent w = false then .ok (h, [])
      else match rebindRow h w now c with
        | none => rebindJobs reads w now h ids
        | some s =>
          let h := mergeRebind { h with store := s } w c now
            fun cur => cur.boundTo w
          if c.boundTo w && !c.state.isTerminal then
            (rebindJobs reads w now h ids).map fun r =>
              (r.1, ⟨c.id, c.attempt⟩ :: r.2)
          else rebindJobs reads w now h ids

/-- `rebind_jobs_for_session`. -/
def rebindJobsForSession (reads : CachedJob → Except HubError Unit)
    (h : Hub) (w : WorkerSession) (now : Int) :
    Except HubError (Hub × List Dispatch) :=
  rebindJobs reads w now h ((unfinished h w).map CachedJob.id)

/-! ## `serve_worker` up to its main loop -/

/-- A frame of the outbound channel. -/
inductive Frame where
  | dispatch (d : Dispatch)
  | command (commandId : String)
  deriving DecidableEq, Repr

/-- `mpsc::channel(256)`. -/
abbrev Outbound := Bounded Frame 256

/-- Why the registration was given up. -/
inductive Failure where
  | rebind
  | transport
  | superseded
  deriving DecidableEq, Repr

/-- Where the task is. -/
inductive Pc where
  | rebind
  /-- `Registered` and the cancellations of finished jobs go to the transport itself. -/
  | register (replay : List Dispatch)
  | replay (todo : List Dispatch)
  | send (d : Dispatch) (todo : List Dispatch)
  | confirm (d : Dispatch) (todo : List Dispatch)
  | mark (d : Dispatch) (todo : List Dispatch)
  | mainLoop
  | returned (why : Failure)
  deriving DecidableEq, Repr

/-- The task, the Hub and the session's channel. -/
structure Serve where
  hub : Hub
  channel : Outbound
  delivered : List Dispatch
  pc : Pc

/-- The task takes its next step (`ok`: what it calls does not fail), another
    task sends a frame, or sessions come and go. -/
inductive Act where
  | serve (ok : Bool)
  | other (f : Frame)
  | setSessions (sessions : Table Key Session Session.key)

section System

variable (reads : CachedJob → Except HubError Unit) (w : WorkerSession) (now : Int)

/-- One step of the task; `none` while it waits. -/
def serve (s : Serve) (ok : Bool) : Option Serve :=
  match s.pc with
  | .rebind => some (
      match rebindJobsForSession reads s.hub w now with
      | .error _ => { s with pc := .returned .rebind }
      | .ok (h, replay) => { s with hub := h, pc := .register replay })
  | .register replay => some { s with
      pc := if ok then .replay replay else .returned .transport }
  | .replay [] => some { s with pc := .mainLoop }
  | .replay (d :: todo) => some { s with
      pc := if s.hub.isCurrent w then .send d todo
        else .returned .superseded }
  | .send d todo => (s.channel.send (.dispatch d)).map fun channel =>
    { s with channel := channel, pc := .confirm d todo }
  | .confirm d todo => some { s with
      pc := if s.hub.isCurrent w then .mark d todo
        else .returned .superseded }
  -- a failed `mark_dispatch_delivered` is only logged
  | .mark d todo => some { s with
      delivered := if ok then s.delivered ++ [d] else s.delivered
      pc := .replay todo }
  | .mainLoop => s.channel.recv.map fun r => { s with channel := r.2 }
  | .returned _ => none

/-- One step of the system. -/
def step (s : Serve) : Act → Option Serve
  | .serve ok => serve reads w now s ok
  | .other f => (s.channel.send f).map fun channel =>
    { s with channel := channel }
  -- the id of a session is fresh, so one that has ended does not come back
  | .setSessions sessions =>
    if { s.hub with sessions := sessions }.isCurrent w = true
        ∧ s.hub.isCurrent w = false then none
    else some { s with hub := { s.hub with sessions := sessions } }

end System

/-- The session has just been registered. -/
def registered (h : Hub) : Serve := ⟨h, .empty, [], .rebind⟩

/-- The main loop is reached, or there is nothing left to serve. -/
def Serve.finished (s : Serve) : Bool :=
  match s.pc with
  | .mainLoop | .returned _ => true
  | _ => false

/-- The frames other tasks send. -/
def others : List Act → Nat
  | [] => 0
  | .other _ :: as => others as + 1
  | _ :: as => others as

/-- The steps of the task. -/
def serves : List Act → Nat
  | [] => 0
  | .serve _ :: as => serves as + 1
  | _ :: as => serves as

/-- Nothing fails and the session lasts. -/
def Undisturbed (as : List Act) : Prop :=
  ∀ a ∈ as, a = .serve true ∨ ∃ f, a = .other f

/-- Whatever `k` frames the others send and whenever: before it has reached the main loop the task
    never waits, it needs four steps for each unfinished job and three more, and it does reach the
    main loop unless its session ends or something fails. -/
def Completes (reads : CachedJob → Except HubError Unit)
    (w : WorkerSession) (now : Int) (h : Hub) (k : Nat) : Prop :=
  ∀ as s, others as ≤ k → run (step reads w now) (registered h) as = some s →
    (s.finished = false → ∀ ok, (serve reads w now s ok).isSome = true)
      ∧ (4 * (unfinished h w).length + 3 ≤ serves as → s.finished = true
            ∧ (Undisturbed as → h.isCurrent w = true → (∀ c ∈ unfinished h w, reads c = .ok ()) →
                s.pc = .mainLoop))

/-! ## One dispatch for each job that can be rebound -/

/-- The row is live, of the copy's attempt, and has a session. -/
def rebindable (h : Hub) (c : CachedJob) : Bool :=
  (h.store.jobs.find? (c.organizationId, c.id)).any fun j =>
    decide (j.attempt = c.attempt) && j.live && j.sessionId.isSome

/-- What is to be replayed. -/
def backlog (h : Hub) (w : WorkerSession) : List CachedJob :=
  (unfinished h w).filter (rebindable h)

def CachedJob.replayed (c : CachedJob) : Dispatch := ⟨c.id, c.attempt⟩

variable {reads : CachedJob → Except HubError Unit} {w : WorkerSession}
  {now : Int} {h : Hub} {c : CachedJob}

theorem rebindJobSession_eq_some {s s' : Store} {k : Key} {attempt : Nat}
    {expected sessionId : String}
    (hs : rebindJobSession s k attempt expected sessionId now = some s') :
    ∃ j, s.jobs.find? k = some j ∧ j.attempt = attempt ∧ j.live = true ∧ j.sessionId.isSome = true
      ∧ ∀ k', k' ≠ k → s'.jobs.find? k' = s.jobs.find? k' := by
  obtain ⟨jobs, hjobs, rfl⟩ := map_eq_some_iff.mp hs
  obtain ⟨j, hj, hp, -⟩ := updateKey_eq_some hjobs
  simp only [Bool.and_eq_true, Bool.or_eq_true, decide_eq_true_eq] at hp
  refine ⟨j, hj, hp.1.1, hp.1.2, ?_, ?_⟩
  · rcases hp.2 with hsession | hsession
    · rw [hsession]
      rfl
    · rw [hsession]
      rfl
  · intro k' hk
    rw [find?_updateKey hjobs hj, if_neg hk]

/-- A row that expects its own session is rebound. -/
theorem exists_rebindJobSession {s : Store} {k : Key} {attempt : Nat}
    {j : JobRow} {stored : String} (sessionId : String) (now : Int)
    (hj : s.jobs.find? k = some j) (hattempt : j.attempt = attempt)
    (hlive : j.live = true) (hsession : j.sessionId = some stored) :
    ∃ s', rebindJobSession s k attempt stored sessionId now = some s' := by
  obtain ⟨jobs, hjobs⟩ := exists_updateKey
    (p := fun j : JobRow => decide (j.attempt = attempt) && j.live
      && (decide (j.sessionId = some stored)
        || decide (j.sessionId = some sessionId)))
    (HubEvents.JobRow.rebind sessionId now)
    (HubEvents.JobRow.rebind_key sessionId now) hj
    (by rw [decide_eq_true hattempt, hlive, decide_eq_true hsession]; rfl)
  exact ⟨_, map_eq_some_iff.mpr ⟨jobs, hjobs, rfl⟩⟩

theorem rebindRow_eq_some {s : Store} (hs : rebindRow h w now c = some s) :
    rebindable h c = true ∧ ∀ k, k ≠ (c.organizationId, c.id) →
          s.jobs.find? k = h.store.jobs.find? k := by
  have hone : ∃ expected, rebindJobSession h.store (c.organizationId, c.id)
      c.attempt expected w.sessionId now = some s := by
    rw [rebindRow] at hs
    split at hs
    · next hfirst => exact ⟨_, hfirst.trans hs⟩
    split at hs
    · cases hs
    · exact ⟨_, hs⟩
  obtain ⟨expected, hrebind⟩ := hone
  obtain ⟨j, hj, hattempt, hlive, hsession, hother⟩ :=
    rebindJobSession_eq_some hrebind
  refine ⟨?_, hother⟩
  rw [rebindable, hj, any_some, decide_eq_true hattempt, hlive, hsession]
  rfl

theorem exists_rebindRow (w : WorkerSession) (now : Int) (hc : rebindable h c = true) :
    ∃ s, rebindRow h w now c = some s := by
  rw [rebindable, Option.any_eq_true] at hc
  obtain ⟨j, hj, hrow⟩ := hc
  simp only [Bool.and_eq_true, decide_eq_true_eq] at hrow
  obtain ⟨stored, hstored⟩ := Option.isSome_iff_exists.mp hrow.2
  obtain ⟨s, hs⟩ := exists_rebindJobSession w.sessionId now hj hrow.1.1 hrow.1.2 hstored
  rw [rebindRow]
  split
  · next s' _ => exact ⟨s', rfl⟩
  rw [hj]
  show ∃ s, (match j.sessionId with
    | none => none
    | some stored => rebindJobSession h.store (c.organizationId, c.id)
        c.attempt stored w.sessionId now) = some s
  rw [hstored]
  exact ⟨s, hs⟩

/-- What the loop still has to do is the same after another job's turn. -/
structure Spares (h h' : Hub) (id : String) : Prop where
  sessions : h'.sessions = h.sessions
  jobs : ∀ id', id' ≠ id → h'.jobs.find? id' = h.jobs.find? id'
  rows : ∀ c : CachedJob, c.id ≠ id → rebindable h' c = rebindable h c

theorem spares_merge {s : Store} (hs : rebindRow h w now c = some s) (owned : CachedJob → Bool) :
    Spares h (mergeRebind { h with store := s } w c now owned) c.id := by
  have hrow : ∀ d : CachedJob, d.id ≠ c.id → s.jobs.find? (d.organizationId, d.id)
        = h.store.jobs.find? (d.organizationId, d.id) := by
    intro d hd
    apply (rebindRow_eq_some hs).2
    intro hkey
    exact hd (congrArg Prod.snd hkey)
  have hrebindable : ∀ (jobs : Table String CachedJob CachedJob.id) (d : CachedJob), d.id ≠ c.id →
      rebindable { h with store := s, jobs := jobs } d = rebindable h d := by
    intro jobs d hd
    show (s.jobs.find? (d.organizationId, d.id)).any _ = _
    rw [hrow d hd]
    rfl
  rw [mergeRebind]
  split
  · exact ⟨rfl, fun _ _ => rfl, hrebindable h.jobs⟩
  next cur hcur =>
  have hcid : cur.id = c.id := key_of_find? hcur
  split
  · refine ⟨rfl, ?_, hrebindable _⟩
    intro id' hid
    rw [find?_put, if_neg]
    intro hkey
    exact hid (hkey.symm.trans hcid)
  · exact ⟨rfl, fun _ _ => rfl, hrebindable h.jobs⟩

/-- Resident unfinished jobs of the worker, none twice. -/
structure Listed (w : WorkerSession) (h : Hub) (cs : List CachedJob) :
    Prop where
  nodup : (cs.map CachedJob.id).Nodup
  resident : ∀ c ∈ cs, h.jobs.find? c.id = some c
  live : ∀ c ∈ cs, (c.boundTo w && !c.state.isTerminal) = true

variable {k n : Nat} {h' : Hub}

theorem Listed.ne {cs : List CachedJob} (hl : Listed w h (c :: cs)) : ∀ d ∈ cs, d.id ≠ c.id := by
  intro d hd hid
  exact (nodup_cons.mp hl.nodup).1 (hid ▸ mem_map_of_mem hd)

theorem Listed.tail {cs : List CachedJob} (hl : Listed w h (c :: cs)) (hsp : Spares h h' c.id) :
    Listed w h' cs where
  nodup := (nodup_cons.mp hl.nodup).2
  resident d hd := by
    rw [hsp.jobs _ (hl.ne d hd)]
    exact hl.resident d (mem_cons_of_mem _ hd)
  live d hd := hl.live d (mem_cons_of_mem _ hd)

theorem spares_refl (h : Hub) (id : String) : Spares h h id :=
  ⟨rfl, fun _ _ => rfl, fun _ _ => rfl⟩

theorem Spares.filter {cs : List CachedJob} (hsp : Spares h h' c.id) (hl : Listed w h (c :: cs)) :
    cs.filter (rebindable h') = cs.filter (rebindable h) := by
  apply filter_congr
  intro d hd
  exact hsp.rows d (hl.ne d hd)

theorem isCurrent_congr (hs : h'.sessions = h.sessions) : h'.isCurrent w = h.isCurrent w := by
  rw [Hub.isCurrent, Hub.isCurrent, Hub.currentSessionId, Hub.currentSessionId, hs]

theorem listed_unfinished (h : Hub) (w : WorkerSession) : Listed w h (unfinished h w) where
  nodup := h.jobs.nodup.sublist (filter_sublist.map _)
  resident _ hc := find?_of_mem (mem_filter.mp hc).1
  live _ hc := (mem_filter.mp hc).2

/-- **THE REPLAY** has one dispatch for each job that can be rebound, unless a read fails. -/
theorem rebindJobs_cases {cs : List CachedJob} (hcur : h.isCurrent w = true) (hl : Listed w h cs) :
    ((∃ c ∈ cs, reads c ≠ .ok ()) ∧ ∃ e, rebindJobs reads w now h (cs.map CachedJob.id) = .error e)
      ∨ (∀ c ∈ cs, reads c = .ok ()) ∧ ∃ h', rebindJobs reads w now h (cs.map CachedJob.id)
            = .ok (h', (cs.filter (rebindable h)).map CachedJob.replayed)
          ∧ h'.sessions = h.sessions := by
  -- the hub changes under the loop, but not in what is still ahead of it
  induction cs generalizing h with
  | nil => exact .inr ⟨forall_mem_nil _, h, rfl, rfl⟩
  | cons c cs ih =>
    rw [map_cons, rebindJobs, hl.resident c mem_cons_self]
    cases hreads : reads c with
    | error e =>
      refine .inl ⟨⟨c, mem_cons_self, ?_⟩, e, ?_⟩
      · rw [hreads]
        exact nofun
      · simp only [hreads, Except.bind]
    | ok _ =>
    simp only [hreads, Except.bind, hcur, Bool.true_eq_false, if_false, forall_mem_cons, true_and]
    cases hrow : rebindRow h w now c with
    | none =>
      have hnot : rebindable h c = false := by
        rw [Bool.eq_false_iff]
        intro hyes
        obtain ⟨s, hs⟩ := exists_rebindRow w now hyes
        cases hrow.symm.trans hs
      rw [filter_cons_of_neg (by rw [hnot]; exact Bool.false_ne_true)]
      rcases ih hcur (hl.tail (spares_refl h _)) with ⟨⟨d, hd, hbad⟩, herror⟩ | hall
      · exact .inl ⟨⟨d, mem_cons_of_mem _ hd, hbad⟩, herror⟩
      · exact .inr hall
    | some s =>
      have hsp := spares_merge hrow fun cur => cur.boundTo w
      rw [filter_cons_of_pos (rebindRow_eq_some hrow).1, ← hsp.filter hl]
      simp only [hl.live c mem_cons_self, if_true]
      rcases ih ((isCurrent_congr hsp.sessions).trans hcur) (hl.tail hsp) with
        ⟨⟨d, hd, hbad⟩, e, herror⟩ | ⟨hall, h', hloop, hsessions⟩
      · refine .inl ⟨⟨d, mem_cons_of_mem _ hd, hbad⟩, e, ?_⟩
        rw [herror]
        rfl
      · refine .inr ⟨hall, h', ?_, hsessions.trans hsp.sessions⟩
        rw [hloop]
        rfl

/-- Nothing is replayed to a session that has ended. -/
theorem rebindJobs_ended (hcur : h.isCurrent w = false) {ids : List String}
    {r : Hub × List Dispatch} (hr : rebindJobs reads w now h ids = .ok r) :
    r.2 = [] := by
  induction ids with
  | nil =>
    cases hr
    rfl
  | cons id ids ih =>
    rw [rebindJobs] at hr
    split at hr
    · exact ih hr
    next c _ =>
    cases hreads : reads c with
    | error e =>
      rw [hreads] at hr
      cases hr
    | ok _ =>
      simp only [hreads, Except.bind, hcur, if_true] at hr
      cases hr
      rfl

/-! ## What a run sends and how long it takes -/

/-- How many jobs the replay is going to have. -/
def expected (reads : CachedJob → Except HubError Unit) (h : Hub) (w : WorkerSession) : Nat :=
  if h.isCurrent w = true ∧ ∀ c ∈ unfinished h w, reads c = .ok () then
    (backlog h w).length
  else 0

/-- The dispatches still to be sent, of `n` altogether. -/
def Pc.owed (n : Nat) : Pc → Nat
  | .rebind => n
  | .register todo => todo.length
  | .replay todo => todo.length
  | .send _ todo => todo.length + 1
  | .confirm _ todo => todo.length
  | .mark _ todo => todo.length
  | .mainLoop => 0
  | .returned _ => 0

/-- The steps still to be taken. -/
def Pc.work (n : Nat) : Pc → Nat
  | .rebind => 4 * n + 3
  | .register todo => 4 * todo.length + 2
  | .replay todo => 4 * todo.length + 1
  | .send _ todo => 4 * todo.length + 4
  | .confirm _ todo => 4 * todo.length + 3
  | .mark _ todo => 4 * todo.length + 2
  | .mainLoop => 0
  | .returned _ => 0

theorem backlog_le (h : Hub) (w : WorkerSession) : (backlog h w).length ≤ (unfinished h w).length :=
  length_filter_le _ _

theorem rebindJobsForSession_eq (now : Int) (hcur : h.isCurrent w = true)
    (hreads : ∀ c ∈ unfinished h w, reads c = .ok ()) :
    ∃ h', rebindJobsForSession reads h w now = .ok (h', (backlog h w).map CachedJob.replayed)
      ∧ h'.sessions = h.sessions := by
  rcases rebindJobs_cases hcur (listed_unfinished h w) with ⟨⟨c, hc, hbad⟩, -⟩ | ⟨-, hall⟩
  · exact absurd (hreads c hc) hbad
  · exact hall

theorem rebindJobsForSession_length {r : Hub × List Dispatch}
    (hr : rebindJobsForSession reads h w now = .ok r) :
    r.2.length = expected reads h w := by
  cases hcur : h.isCurrent w with
  | false =>
    rw [expected, hcur, if_neg fun hboth => Bool.false_ne_true hboth.1, rebindJobs_ended hcur hr]
    rfl
  | true =>
    rcases rebindJobs_cases hcur (listed_unfinished h w) with
      ⟨-, e, herror⟩ | ⟨hreads, h', hall, -⟩
    · cases herror.symm.trans hr
    · cases hall.symm.trans hr
      rw [expected, if_pos ⟨hcur, hreads⟩]
      exact length_map _

/-- Before the jobs are rebound, all that happened is that sessions came and went. -/
structure Fresh (w : WorkerSession) (h : Hub) (s : Serve) : Prop where
  store : s.hub.store = h.store
  jobs : s.hub.jobs = h.jobs
  current : s.hub.isCurrent w = true → h.isCurrent w = true

variable {s t : Serve} {ok : Bool}

theorem Fresh.expected_le (hf : Fresh w h s) : expected reads s.hub w ≤ expected reads h w := by
  have hun : unfinished s.hub w = unfinished h w := by
    rw [unfinished, unfinished, hf.jobs]
  have hback : backlog s.hub w = backlog h w := by
    have hre : rebindable s.hub = rebindable h := by
      funext c
      rw [rebindable, rebindable, hf.store]
    rw [backlog, backlog, hun, hre]
  rw [expected, expected, hun, hback]
  split
  · next hboth => rw [if_pos ⟨hf.current hboth.1, hboth.2⟩]
  · exact Nat.zero_le _

/-- What holds of the task up to its main loop. -/
def Ahead (reads : CachedJob → Except HubError Unit) (w : WorkerSession)
    (h : Hub) (s : Serve) : Prop :=
  (s.pc = .rebind → Fresh w h s) ∧ s.pc.owed (expected reads h w) ≤ expected reads h w

/-- One step of the task brings it one step closer, and what it puts into the
    channel it no longer owes. -/
theorem serve_progress (hn : s.pc = .rebind → expected reads s.hub w ≤ n)
    (ht : serve reads w now s ok = some t) :
    t.pc ≠ .rebind ∧ (t.finished = true ∨ t.pc.work n + 1 ≤ s.pc.work n)
      ∧ t.channel.items.length + t.pc.owed n ≤ s.channel.items.length + s.pc.owed n
      ∧ t.pc.owed n ≤ s.pc.owed n := by
  obtain ⟨hub, channel, delivered, pc⟩ := s
  cases pc with
  | rebind =>
    cases ht
    have hlen := hn rfl
    cases hr : rebindJobsForSession reads hub w now with
    | error e =>
      exact ⟨nofun, .inl rfl, Nat.add_le_add_left (Nat.zero_le _) _, Nat.zero_le _⟩
    | ok r =>
      have hle : r.2.length ≤ n :=
        (rebindJobsForSession_length hr).trans_le hlen
      refine ⟨nofun, .inr ?_, Nat.add_le_add_left hle _, hle⟩
      show 4 * r.2.length + 2 + 1 ≤ 4 * n + 3
      omega
  | register replay =>
    cases ht
    cases ok with
    | false =>
      exact ⟨nofun, .inl rfl, Nat.add_le_add_left (Nat.zero_le _) _, Nat.zero_le _⟩
    | true => exact ⟨nofun, .inr (Nat.le_refl _), Nat.le_refl _, Nat.le_refl _⟩
  | replay todo =>
    cases todo with cases ht
    | nil =>
      exact ⟨nofun, .inl rfl, Nat.le_refl _, Nat.le_refl _⟩
    | cons d todo =>
      cases hub.isCurrent w with
      | false =>
        exact ⟨nofun, .inl rfl, Nat.add_le_add_left (Nat.zero_le _) _, Nat.zero_le _⟩
      | true =>
        exact ⟨nofun, .inr (Nat.le_refl _), Nat.le_refl _, Nat.le_refl _⟩
  | send d todo =>
    obtain ⟨channel', hsend, rfl⟩ := map_eq_some_iff.mp ht
    refine ⟨nofun, .inr (Nat.le_refl _), ?_, Nat.le_succ _⟩
    rw [Bounded.length_send hsend, Nat.add_right_comm]
    exact Nat.le_refl _
  | confirm d todo =>
    cases ht
    cases hub.isCurrent w with
    | false =>
      exact ⟨nofun, .inl rfl, Nat.add_le_add_left (Nat.zero_le _) _, Nat.zero_le _⟩
    | true => exact ⟨nofun, .inr (Nat.le_refl _), Nat.le_refl _, Nat.le_refl _⟩
  | mark d todo =>
    cases ht
    exact ⟨nofun, .inr (Nat.le_refl _), Nat.le_refl _, Nat.le_refl _⟩
  | mainLoop =>
    obtain ⟨r, hrecv, rfl⟩ := map_eq_some_iff.mp ht
    refine ⟨nofun, .inl rfl, ?_, Nat.le_refl _⟩
    exact Nat.le_of_succ_le (Bounded.length_recv hrecv).le
  | returned why => cases ht

/-- From `s` to `t` by `own` steps of the task and `other` frames. -/
structure Progress (n : Nat) (s t : Serve) (own other : Nat) : Prop where
  work : t.finished = true ∨ t.pc.work n + own ≤ s.pc.work n
  room : t.channel.items.length + t.pc.owed n ≤ s.channel.items.length + s.pc.owed n + other
  finished : s.finished = true → t.finished = true

theorem progress_refl (n : Nat) (s : Serve) : Progress n s s 0 0 :=
  ⟨.inr (Nat.le_refl _), Nat.le_refl _, id⟩

theorem Progress.trans {own own' other other' : Nat} {u : Serve}
    (hst : Progress n s t own other) (htu : Progress n t u own' other') :
    Progress n s u (own' + own) (other' + other) where
  work := by
    rcases htu.work with hu | hu
    · exact .inl hu
    rcases hst.work with ht | ht
    · exact .inl (htu.finished ht)
    · exact .inr (by omega)
  room := by
    have h₁ := hst.room
    have h₂ := htu.room
    omega
  finished := htu.finished ∘ hst.finished

theorem serve_finished (ht : serve reads w now s ok = some t) (hs : s.finished = true) :
    t.finished = true := by
  obtain ⟨hub, channel, delivered, pc⟩ := s
  cases pc with
  | mainLoop =>
    obtain ⟨r, -, rfl⟩ := map_eq_some_iff.mp ht
    rfl
  | returned why => cases ht
  | _ => cases hs

/-- The step lemma. -/
theorem step_progress {a : Act} (ha : Ahead reads w h s) (ht : step reads w now s a = some t) :
    Ahead reads w h t ∧ Progress (expected reads h w) s t (serves [a]) (others [a]) := by
  cases a with
  | serve ok =>
    obtain ⟨hpc, hwork, hroom, howed⟩ := serve_progress (fun hpc => (ha.1 hpc).expected_le) ht
    exact ⟨⟨fun hre => absurd hre hpc, howed.trans ha.2⟩, hwork, hroom, serve_finished ht⟩
  | other f =>
    obtain ⟨channel, hsend, rfl⟩ := map_eq_some_iff.mp ht
    refine ⟨⟨fun hpc => ⟨(ha.1 hpc).store, (ha.1 hpc).jobs,
      (ha.1 hpc).current⟩, ha.2⟩, .inr (Nat.le_refl _), ?_, id⟩
    rw [Bounded.length_send hsend, Nat.add_right_comm]
    exact Nat.le_refl _
  | setSessions sessions =>
    obtain ⟨hback, rfl⟩ := of_guard_not ht
    refine ⟨⟨?_, ha.2⟩, .inr (Nat.le_refl _), Nat.le_refl _, id⟩
    intro hpc
    refine ⟨(ha.1 hpc).store, (ha.1 hpc).jobs, ?_⟩
    intro hcur
    apply (ha.1 hpc).current
    rw [← Bool.not_eq_false]
    exact fun hold => hback ⟨hcur, hold⟩

/-- The run lemma. -/
theorem run_progress : ∀ (as : List Act) {s t : Serve},
    Ahead reads w h s → run (step reads w now) s as = some t →
    Ahead reads w h t ∧ Progress (expected reads h w) s t (serves as) (others as) := by
  intro as
  induction as with intro s t ha ht
  | nil =>
    cases ht
    exact ⟨ha, progress_refl _ _⟩
  | cons a as ih =>
    obtain ⟨u, hu, ht⟩ := run_cons_eq_some.mp ht
    obtain ⟨hau, hsu⟩ := step_progress ha hu
    obtain ⟨hat, hut⟩ := ih hau ht
    refine ⟨hat, ?_⟩
    have hst := hsu.trans hut
    cases a with
    | serve ok | other f | setSessions sessions => exact hst

theorem ahead_registered (reads : CachedJob → Except HubError Unit)
    (w : WorkerSession) (h : Hub) : Ahead reads w h (registered h) :=
  ⟨fun _ => ⟨rfl, rfl, id⟩, Nat.le_refl _⟩

/-- Only a send into a full channel waits. -/
theorem serve_eq_none (hs : s.finished = false) (hwait : serve reads w now s ok = none) :
    ∃ d todo, s.pc = .send d todo ∧ s.channel.items.length = 256 := by
  obtain ⟨hub, channel, delivered, pc⟩ := s
  cases pc with
  | send d todo =>
    exact ⟨d, todo, rfl, Bounded.send_eq_none_iff.mp (map_eq_none_iff.mp hwait)⟩
  | replay todo => cases todo <;> cases hwait
  | mainLoop | returned why => cases hs
  | _ => cases hwait

/-- While the dispatches and the other frames fit, nothing waits. -/
theorem serve_isSome {as : List Act} (hfit : expected reads h w = 0 ∨ expected reads h w + k ≤ 256)
    (hk : others as ≤ k)
    (hrun : run (step reads w now) (registered h) as = some s)
    (hs : s.finished = false) :
    (serve reads w now s ok).isSome = true := by
  rw [Option.isSome_iff_ne_none]
  intro hwait
  obtain ⟨d, todo, hpc, hfull⟩ := serve_eq_none hs hwait
  obtain ⟨ha, hp⟩ := run_progress as (ahead_registered reads w h) hrun
  have howed := ha.2
  have hroom := hp.room
  rw [hpc] at howed hroom
  have hstart : (registered h).channel.items.length + (registered h).pc.owed (expected reads h w)
      = expected reads h w := Nat.zero_add _
  rw [hstart] at hroom
  simp only [Pc.owed] at howed hroom
  omega

/-- The session is current and nothing has failed. -/
structure Smooth (w : WorkerSession) (h : Hub) (s : Serve) : Prop where
  current : s.hub.isCurrent w = true
  going : ∀ why, s.pc ≠ .returned why
  fresh : s.pc = .rebind → s.hub = h

theorem Smooth.serve (hs : Smooth w h s) (hreads : ∀ c ∈ unfinished h w, reads c = .ok ())
    (ht : serve reads w now s true = some t) : Smooth w h t := by
  obtain ⟨hub, channel, delivered, pc⟩ := s
  obtain ⟨hcur, hgoing, hfresh⟩ := hs
  cases pc with
  | rebind =>
    obtain rfl := hfresh rfl
    obtain ⟨h', hr, hsessions⟩ :=
      rebindJobsForSession_eq now hcur hreads
    cases ht
    rw [hr]
    exact ⟨(isCurrent_congr hsessions).trans hcur, nofun, nofun⟩
  | register replay | mark d todo =>
    cases ht
    exact ⟨hcur, nofun, nofun⟩
  | replay todo =>
    cases todo with cases ht
    | nil =>
      exact ⟨hcur, nofun, nofun⟩
    | cons d todo =>
      rw [if_pos hcur]
      exact ⟨hcur, nofun, nofun⟩
  | send d todo =>
    obtain ⟨channel', -, rfl⟩ := map_eq_some_iff.mp ht
    exact ⟨hcur, nofun, nofun⟩
  | confirm d todo =>
    cases ht
    rw [if_pos hcur]
    exact ⟨hcur, nofun, nofun⟩
  | mainLoop =>
    obtain ⟨r, -, rfl⟩ := map_eq_some_iff.mp ht
    exact ⟨hcur, nofun, nofun⟩
  | returned why => cases ht

theorem smooth_registered (hcur : h.isCurrent w = true) : Smooth w h (registered h) where
  current := hcur
  going := by
    intro why hpc
    cases hpc
  fresh _ := rfl

/-- Where nothing fails, the registration is not given up. -/
theorem smooth_run {as : List Act} (hcur : h.isCurrent w = true)
    (hreads : ∀ c ∈ unfinished h w, reads c = .ok ())
    (hrun : run (step reads w now) (registered h) as = some s) : Undisturbed as → Smooth w h s := by
  refine inv_run_history (I := fun as s => Undisturbed as → Smooth w h s) ?_
    (fun _ => smooth_registered hcur) hrun
  intro as s a t ih ht has
  have hs := ih fun b hb => has b (mem_append_left _ hb)
  rcases has a (mem_append_right _ mem_cons_self) with rfl | ⟨f, rfl⟩
  · exact hs.serve hreads ht
  · obtain ⟨channel, -, rfl⟩ := map_eq_some_iff.mp ht
    exact ⟨hs.current, hs.going, hs.fresh⟩

theorem completes_of_fits (hfit : expected reads h w = 0 ∨ expected reads h w + k ≤ 256) :
    Completes reads w now h k := by
  intro as s hk hrun
  refine ⟨fun hs ok => serve_isSome hfit hk hrun hs, ?_⟩
  intro hlong
  obtain ⟨-, hp⟩ := run_progress as (ahead_registered reads w h) hrun
  have hle : expected reads h w ≤ (unfinished h w).length := by
    rw [expected]
    split
    · exact backlog_le h w
    · exact Nat.zero_le _
  have hfinished : s.finished = true := by
    rcases hp.work with hdone | hwork
    · exact hdone
    have hzero : s.pc.work (expected reads h w) = 0 := by
      have hstart : (registered h).pc.work (expected reads h w) = 4 * expected reads h w + 3 := rfl
      omega
    obtain ⟨hub, channel, delivered, pc⟩ := s
    cases pc with
    | mainLoop | returned why => rfl
    | _ => exact absurd hzero (Nat.succ_ne_zero _)
  refine ⟨hfinished, ?_⟩
  intro has hcur hreads
  have hsmooth := smooth_run hcur hreads hrun has
  obtain ⟨hub, channel, delivered, pc⟩ := s
  cases pc with
  | mainLoop => rfl
  | returned why => exact absurd rfl (hsmooth.going why)
  | _ => cases hfinished

/-! ## A replay that waits for itself -/

theorem others_append (as bs : List Act) : others (as ++ bs) = others as + others bs := by
  induction as with
  | nil => exact (Nat.zero_add _).symm
  | cons a as ih =>
    cases a with
    | serve ok | setSessions sessions => exact ih
    | other f => exact (congrArg (· + 1) ih).trans (Nat.add_right_comm ..)

/-- As many frames of the others as the channel has room for. -/
theorem fill_others (reads : CachedJob → Except HubError Unit)
    (w : WorkerSession) (now : Int) (m : Nat) : ∀ {s : Serve},
    s.channel.items.length + m ≤ 256 →
    ∃ (as : List Act) (channel : Outbound),
      run (step reads w now) s as = some { s with channel := channel }
        ∧ channel.items.length = s.channel.items.length + m
        ∧ others as = m := by
  induction m with
  | zero => exact fun _ => ⟨[], _, rfl, rfl, rfl⟩
  | succ m ih =>
    intro s hroom
    obtain ⟨channel, hsend, -⟩ := Bounded.send_of_lt
      (c := s.channel) (a := Frame.command "") (by omega)
    have hlen := Bounded.length_send hsend
    obtain ⟨as, channel', hrun, hlen', hothers⟩ :=
      ih (s := { s with channel := channel }) (by
        show channel.items.length + m ≤ 256
        omega)
    refine ⟨.other (.command "") :: as, channel', ?_, ?_, ?_⟩
    · refine run_cons_eq_some.mpr ⟨_, ?_, hrun⟩
      exact map_eq_some_iff.mpr ⟨channel, hsend, rfl⟩
    · rw [hlen', Nat.add_comm m 1, ← Nat.add_assoc]
      exact congrArg (· + m) hlen
    · exact congrArg (· + 1) hothers

/-- As many dispatches as the channel has room for. -/
theorem fill_replay (reads : CachedJob → Except HubError Unit)
    (now : Int) {todo : List Dispatch} : ∀ {s : Serve},
    s.hub.isCurrent w = true → s.pc = .replay todo →
    256 < s.channel.items.length + todo.length →
    ∃ as t, run (step reads w now) s as = some t ∧ others as = 0
      ∧ t.finished = false ∧ ∀ ok, serve reads w now t ok = none := by
  induction todo with
  | nil =>
    intro s _ _ hmany
    exact absurd s.channel.fits (Nat.not_le_of_lt hmany)
  | cons d todo ih =>
    intro s hcur hpc hmany
    have hone : step reads w now s (.serve true) = some { s with pc := .send d todo } := by
      show serve reads w now s true = _
      rw [serve, hpc]
      dsimp only
      rw [if_pos hcur]
    cases hsend : s.channel.send (.dispatch d) with
    | none =>
      refine ⟨[.serve true], _, run_cons_eq_some.mpr ⟨_, hone, rfl⟩, rfl, rfl, ?_⟩
      intro ok
      exact map_eq_none_iff.mpr hsend
    | some channel =>
      have hlen := Bounded.length_send hsend
      obtain ⟨as, t, hrun, hothers, hlast⟩ :=
        ih (s := ⟨s.hub, channel, s.delivered ++ [d], .replay todo⟩) hcur rfl (by
            rw [length_cons] at hmany
            show 256 < channel.items.length + todo.length
            omega)
      refine ⟨.serve true :: .serve true :: .serve true :: .serve true :: as, t, ?_, hothers, hlast⟩
      refine run_cons_eq_some.mpr ⟨_, hone, ?_⟩
      refine run_cons_eq_some.mpr ⟨⟨s.hub, channel, s.delivered,
        .confirm d todo⟩, map_eq_some_iff.mpr ⟨channel, hsend, rfl⟩, ?_⟩
      refine run_cons_eq_some.mpr ⟨⟨s.hub, channel, s.delivered,
        .mark d todo⟩, ?_, run_cons_eq_some.mpr ⟨_, rfl, hrun⟩⟩
      show some _ = some _
      rw [if_pos hcur]

/-- With one frame too many some schedule makes the replay wait. -/
theorem replay_waits (now : Int) (hcur : h.isCurrent w = true)
    (hreads : ∀ c ∈ unfinished h w, reads c = .ok ())
    (hsome : 0 < (backlog h w).length)
    (hmany : 256 < (backlog h w).length + k) :
    ∃ as s, others as ≤ k ∧ run (step reads w now) (registered h) as = some s
      ∧ s.finished = false ∧ ∀ ok, serve reads w now s ok = none := by
  obtain ⟨h', hr, hsessions⟩ :=
    rebindJobsForSession_eq now hcur hreads
  -- the others go first, with all their frames or as many as fit
  obtain ⟨as, channel, hfill, hlen, hothers⟩ :=
    fill_others reads w now (min k 256) (s := registered h) (by
        show 0 + min k 256 ≤ 256
        omega)
  obtain ⟨bs, s, hreplay, hnone, hstuck⟩ :=
    fill_replay reads now (s := ⟨h', channel, [], .replay ((backlog h w).map CachedJob.replayed)⟩)
      ((isCurrent_congr hsessions).trans hcur) rfl (by
        show 256 < channel.items.length + _
        rw [length_map]
        omega)
  refine ⟨as ++ .serve true :: .serve true :: bs, s, ?_, ?_, hstuck⟩
  · rw [others_append, hothers]
    show min k 256 + others bs ≤ k
    omega
  rw [run_append_of_eq hfill]
  refine run_cons_eq_some.mpr ⟨⟨h', channel, [], .register _⟩, ?_,
      run_cons_eq_some.mpr ⟨_, rfl, hreplay⟩⟩
  show serve reads w now ⟨h, channel, [], .rebind⟩ true = _
  rw [serve]
  rw [hr]

/-- **REPLAY WITHOUT A READER**: whatever the others send and whenever, the registration reaches its
    main loop, if and only if the jobs to be replayed and the frames of the others fit the channel
    together, or there is nothing to be replayed, or no session or no inputs to replay it with. -/
theorem replay_completes_iff (reads : CachedJob → Except HubError Unit)
    (w : WorkerSession) (now : Int) (h : Hub) (k : Nat) :
    Completes reads w now h k ↔ (backlog h w).length + k ≤ 256 ∨ backlog h w = []
        ∨ h.isCurrent w = false ∨ ∃ c ∈ unfinished h w, reads c ≠ .ok () := by
  constructor
  · intro hall
    by_contra hnot
    push Not at hnot
    obtain ⟨hmany, hsome, hcur, hreads⟩ := hnot
    obtain ⟨as, s, hk, hrun, hs, hwait⟩ := replay_waits now
      (Bool.not_eq_false _ ▸ hcur) hreads (length_pos_iff.mpr hsome)
      hmany
    have hgo := (hall as s hk hrun).1 hs true
    rw [hwait true] at hgo
    cases hgo
  · intro hfit
    apply completes_of_fits
    rw [expected]
    split
    · next hboth =>
      rcases hfit with hfit | hempty | hended | ⟨c, hc, hbad⟩
      · exact .inr hfit
      · exact .inl (length_eq_zero_iff.mpr hempty)
      · cases hended.symm.trans hboth.1
      · exact absurd (hboth.2 c hc) hbad
    · exact .inl rfl

/-- A replay that waits does so for good: nobody makes room. -/
theorem waits_for_good (hs : s.finished = false) (hwait : ∀ ok, serve reads w now s ok = none) :
    ∀ (as : List Act) {t : Serve}, run (step reads w now) s as = some t → t.finished = false := by
  obtain ⟨d, todo, hpc, hfull⟩ := serve_eq_none hs (hwait true)
  have hstays : ∀ (t : Serve) (a : Act) (u : Serve),
      (t.pc = .send d todo ∧ t.channel.items.length = 256) →
      step reads w now t a = some u →
      u.pc = .send d todo ∧ u.channel.items.length = 256 := by
    rintro ⟨hub, channel, delivered, pc⟩ a u ⟨rfl, hfull⟩ hu
    have hrefuses : ∀ f, channel.send f = none := fun f =>
      Bounded.send_eq_none_iff.mpr hfull
    cases a with
    | serve ok | other f =>
      obtain ⟨channel', hsend, -⟩ := map_eq_some_iff.mp hu
      cases (hrefuses _).symm.trans hsend
    | setSessions sessions =>
      obtain ⟨-, rfl⟩ := of_guard_not hu
      exact ⟨rfl, hfull⟩
  intro as t ht
  have hend := inv_run (I := fun t => t.pc = .send d todo ∧ t.channel.items.length = 256)
    hstays ⟨hpc, hfull⟩ ht
  rw [Serve.finished, hend.1]

/-! ## One job more than the channel holds -/

/-- A job of the worker, one of many. -/
def jobNumber (n : Nat) : JobRow :=
  { HubEvents.finishedRow "org" with
    id := String.ofList (List.replicate n 'x')
    workerOrganizationId := some "org"
    state := .running }

theorem jobNumber_injective {m : Nat} (h : (jobNumber m).id = (jobNumber n).id) : m = n := by
  have hlists := String.ofList_injective h
  have hlengths := congrArg List.length hlists
  rwa [length_replicate, length_replicate] at hlengths

/-- The first `n` of them. -/
def jobRows (n : Nat) : Table Key JobRow JobRow.key where
  rows := (List.range n).map jobNumber
  nodup := by
    rw [List.map_map]
    refine (List.nodup_map_iff ?_).mpr List.nodup_range
    intro a b hab
    exact jobNumber_injective (congrArg Prod.snd hab)

/-- The worker has just registered again; its `n` jobs are resident. -/
def crowd (n : Nat) : Hub where
  store := { sampleStore with jobs := jobRows n }
  jobs :=
    { rows := (List.range n).map fun i => HubEvents.ofRow (jobNumber i)
      nodup := by
        rw [List.map_map]
        refine (List.nodup_map_iff ?_).mpr List.nodup_range
        intro a b hab
        exact jobNumber_injective hab }
  sessions := Table.empty.put ⟨"org", "default/gpu", "session-2"⟩

def crowdWorker : WorkerSession := ⟨"org", "default/gpu", "session-2"⟩

/-- All of them are to be replayed. -/
theorem backlog_crowd (n : Nat) : (backlog (crowd n) crowdWorker).length = n := by
  have hun : unfinished (crowd n) crowdWorker = (crowd n).jobs.rows := by
    apply filter_eq_self.mpr
    intro c hc
    obtain ⟨i, -, rfl⟩ := mem_map.mp hc
    rfl
  have hall : backlog (crowd n) crowdWorker = (crowd n).jobs.rows := by
    rw [backlog, hun]
    apply filter_eq_self.mpr
    intro c hc
    obtain ⟨i, hi, rfl⟩ := mem_map.mp hc
    have hrow : (crowd n).store.jobs.find? (jobNumber i).key = some (jobNumber i) :=
      find?_of_mem (t := jobRows n) (mem_map_of_mem hi)
    show ((crowd n).store.jobs.find? (jobNumber i).key).any _ = true
    rw [hrow]
    rfl
  rw [hall]
  show ((List.range n).map _).length = n
  rw [length_map, length_range]

/-- **257 JOBS**: with no other task about, the replay of the 257th waits for
    a reader that is never going to come. -/
theorem crowd_waits : ∃ as s, others as = 0
    ∧ run (step (fun _ => .ok ()) crowdWorker 0) (registered (crowd 257)) as = some s
    ∧ ∀ bs t, run (step (fun _ => .ok ()) crowdWorker 0) s bs = some t → t.finished = false := by
  have hlen := backlog_crowd 257
  obtain ⟨as, s, hothers, hrun, hs, hwait⟩ :=
    replay_waits (k := 0) 0 (show (crowd 257).isCurrent crowdWorker = true
      from rfl) (fun _ _ => rfl)
      (by rw [hlen]; decide) (by rw [hlen]; decide)
  exact ⟨as, s, Nat.le_zero.mp hothers, hrun, fun bs t ht => waits_for_good hs hwait bs ht⟩

end Registration
