import NagisaLake.PoolProofs
import NagisaLake.RunProofs
import Mathlib.Algebra.BigOperators.Group.List.Basic
import Mathlib.Algebra.Ring.Nat

/-! # An agent run — one terminal event, whatever the backend does

`AgentService::start` runs a backend in a task of its own.  Progress travels
over a bounded channel and the outcome over a watch channel; the handle turns
to the second when every sender of the first is gone.  The task publishes the
outcome before it drops its sender, so the handle never waits there, and a
`recv` that is dropped cannot lose the terminal event (`run_ends`).

The backend is anything that sends, returns or panics while its future lives
and keeps no sender afterwards.  What it did is read off the schedule: what
was sent (`sentBy`), and which poll decided the run, and how (`Verdict`). -/

namespace AgentRun

open Runs List

/-- An error is its `code()` and its text, the cancellation apart. -/
inductive AgentError where
  | cancelled
  | failed (code message : String)

namespace AgentError

def timeout : AgentError := .failed "timeout" "agent execution timed out"

def outputLimit : AgentError :=
  .failed "output_limit" "agent output exceeded the configured limit"

def protocol (reason : String) : AgentError :=
  .failed "protocol_error" ("invalid agent upstream response: " ++ reason)

end AgentError

inductive Progress where
  | stageStarted (callId name : String)
  | stageFinished (callId name : String)
  | stageFailed (callId name : String)
  | textDelta (text : String)
  | warning (code : String)
  deriving DecidableEq

inductive RunEvent where
  | started (executionId skill : String)
  | progress (p : Progress)
  | completed (executionId text : String)
  | error (executionId code message : String)
  | cancelled (executionId : String)

/-- The bytes of a `TextDelta`. -/
def RunEvent.bytes : RunEvent → Nat
  | .progress (.textDelta text) => text.utf8ByteSize
  | _ => 0

/-- `RuntimeConfig`, as far as runs depend on it; `validate` wants room for an event. -/
structure RuntimeConfig where
  maxConcurrentRuns : Nat
  eventBuffer : Nat
  maxOutputBytes : Nat
  eventBuffer_pos : 1 ≤ eventBuffer

/-- The execution and its limits. -/
structure Config extends RuntimeConfig where
  id : String
  skill : String

def errorEvent (id : String) : AgentError → RunEvent
  | .cancelled => .error id "cancelled" "agent execution cancelled"
  | .failed code message => .error id code message

def outcome (cfg : Config) : Except AgentError String → RunEvent
  | .ok text =>
    if text.utf8ByteSize ≤ cfg.maxOutputBytes then .completed cfg.id text
    else errorEvent cfg.id .outputLimit
  | .error .cancelled => .cancelled cfg.id
  | .error e => errorEvent cfg.id e

/-- Where the task stands. -/
inductive Phase where
  | starting
  | working
  | resolved (result : Except AgentError String)
  | published
  | closed
  | ended

/-- What polling the backend gives. -/
inductive Work where
  | pending
  | returned (result : Except AgentError String)
  | panicked

/-- A `recv` under way, and one that waits for the outcome. -/
inductive Reader where
  | idle
  | receiving
  | waiting

/-- A run with its handle: `pending` are the sends that wait for their place in the channel and
    `yields` is what `recv` returned. -/
structure Run where
  queue : List RunEvent := []
  pending : List Progress := []
  textBytes : Nat := 0
  phase : Phase := .starting
  finished : Option RunEvent := none
  cancelled : Bool := false
  expired : Bool := false
  reader : Reader := .idle
  ended : Bool := false
  yields : List (Option RunEvent) := []

variable (cfg : Config)

namespace Run

/-- The biased `select!`. -/
def select (s : Run) (work : Work) : Option (Except AgentError String) :=
  if s.cancelled then some (.error .cancelled)
  else if s.expired then some (.error .timeout)
  else match work with
    | .pending => none
    | .returned result => some result
    | .panicked => some (.error (.protocol "backend task panicked"))

def yield (s : Run) (x : Option RunEvent) : Run :=
  { s with reader := .idle, yields := s.yields ++ [x] }

/-- `CompletionReceiver::wait`. -/
def wait (s : Run) : Run :=
  match s.finished, s.phase with
  | some e, _ => s.yield (some e)
  | none, .ended => s.yield (some (errorEvent cfg.id
      (.protocol "execution task ended without an outcome")))
  | none, _ => { s with reader := .waiting }

/-- A full channel makes the sender wait. -/
def enqueue (s : Run) (e : RunEvent) : Option Run :=
  if s.queue.length < cfg.eventBuffer then
    some { s with queue := s.queue ++ [e] }
  else none

/-- `EventSender::send`, up to the channel. -/
def reserve (s : Run) (p : Progress) : Option Run :=
  if s.textBytes + (RunEvent.progress p).bytes ≤ cfg.maxOutputBytes then
    some { s with
      textBytes := s.textBytes + (RunEvent.progress p).bytes
      pending := p :: s.pending }
  else none

end Run

/-- Every sender of the channel is gone. -/
def Phase.silent : Phase → Bool
  | .closed | .ended => true
  | _ => false

inductive Act where
  | start
  | send (p : Progress)
  /-- A send gets its place; one that is dropped before never does. -/
  | place (p : Progress)
  | poll (work : Work)
  | publish
  | close
  | exit
  | cancel
  | expire
  | recv
  | resume
  | dropRecv

def step (s : Run) (a : Act) : Option Run :=
  match a, s.phase, s.reader with
  | .start, .starting, _ => { s with phase := .working }.enqueue cfg (.started cfg.id cfg.skill)
  | .send p, .working, _ => s.reserve cfg p
  | .place p, .working, _ =>
    if p ∈ s.pending then { s with pending := s.pending.erase p }.enqueue cfg (.progress p)
    else none
  | .poll .pending, .starting, _ =>
    (s.select .pending).map fun result => { s with phase := .resolved result }
  | .poll work, .working, _ =>
    (s.select work).map fun result => { s with phase := .resolved result }
  | .publish, .resolved result, _ =>
    some { s with phase := .published, finished := some (outcome cfg result) }
  | .close, .published, _ => some { s with phase := .closed }
  | .exit, .closed, _ => some { s with phase := .ended }
  | .cancel, _, _ => some { s with cancelled := true }
  | .expire, _, _ => some { s with expired := true }
  | .recv, _, .idle => if s.ended then some (s.yield none) else some { s with reader := .receiving }
  | .resume, phase, .receiving =>
    match s.queue with
    | e :: queue => some ({ s with queue := queue }.yield (some e))
    | [] => if phase.silent then some ({ s with ended := true }.wait cfg) else none
  | .resume, _, .waiting => some (s.wait cfg)
  | .dropRecv, _, _ => some { s with reader := .idle }
  | _, _, _ => none

/-! ## The service -/

/-- `AgentService`: the semaphore and the runs that were started. -/
structure Service where
  permits : Nat
  runs : List (Config × Run) := []

inductive ServiceAct where
  | start (id skill : String)
  | run (i : Nat) (a : Act)

def Act.exits : Act → Bool
  | .exit => true
  | _ => false

/-- `start` takes a permit or says `Busy`; the task of a run drops its permit when it ends. -/
def serve (rc : RuntimeConfig) (v : Service) : ServiceAct → Option Service
  | .start id skill =>
    if v.permits = 0 then some v
    else some { v with
      permits := v.permits - 1
      runs := v.runs ++ [({ rc with id := id, skill := skill }, {})] }
  | .run i a =>
    (v.runs[i]?).bind fun r => (step r.1 r.2 a).map fun t =>
      { v with
        permits := if a.exits then v.permits + 1 else v.permits
        runs := v.runs.set i (r.1, t) }

/-- What happened to one run. -/
def history (i : Nat) (as : List ServiceAct) : List Act :=
  as.filterMap fun
    | .run j a => if j = i then some a else none
    | .start .. => none

/-! ## What is claimed of a run -/

/-- What was put into the channel. -/
def sentBy (as : List Act) : List RunEvent :=
  as.filterMap fun
    | .start => some (.started cfg.id cfg.skill)
    | .place p => some (.progress p)
    | _ => none

/-- What a poll decides: the token comes first, then the timer, then the backend. -/
inductive Verdict (before : List Act) : Work → Except AgentError String → Prop where
  | cancelled {work : Work} (hc : .cancel ∈ before) : Verdict before work (.error .cancelled)
  | timeout {work : Work} (hc : .cancel ∉ before) (he : .expire ∈ before) :
      Verdict before work (.error .timeout)
  | returned {result : Except AgentError String} (hc : .cancel ∉ before) (he : .expire ∉ before) :
      Verdict before (.returned result) result
  | panicked (hc : .cancel ∉ before) (he : .expire ∉ before) :
      Verdict before .panicked (.error (.protocol "backend task panicked"))

/-- One of the polls decided the run. -/
def Decided (as : List Act) (result : Except AgentError String) : Prop :=
  ∃ before work after, as = before ++ .poll work :: after ∧ Verdict before work result

/-- A terminal event, its text within the limit. -/
def Terminal : RunEvent → Prop
  | .completed _ text => text.utf8ByteSize ≤ cfg.maxOutputBytes
  | .error .. | .cancelled _ => True
  | _ => False

/-- How far the task is on its way out. -/
def Phase.rank : Phase → Nat
  | .starting | .working => 0
  | .resolved _ => 1
  | .published => 2
  | .closed => 3
  | .ended => 4

def Act.resumes : Act → Bool
  | .resume => true
  | _ => false

/-- What `recv` has returned, and what is left of the run. -/
structure Sound (as : List Act) (s : Run) : Prop where
  /-- the events that were sent, in their order, then the outcome once, then nothing -/
  order : ∃ given tail, s.yields = given.map some ++ tail ∧ sentBy cfg as = given ++ s.queue
    ∧ (given.map RunEvent.bytes).sum ≤ cfg.maxOutputBytes
    ∧ ((s.ended = false ∧ tail = []) ∨ (s.ended = true ∧ s.queue = [] ∧ ∃ result n,
        Decided as result ∧ Terminal cfg (outcome cfg result)
          ∧ tail = some (outcome cfg result) :: replicate n none))
  /-- the run is announced before anything else -/
  shape : sentBy cfg as = []
    ∨ ∃ ps : List Progress, sentBy cfg as = .started cfg.id cfg.skill :: ps.map .progress
  /-- an event finds its place as soon as there is room -/
  flows : (s.phase = .starting → ∃ t, step cfg s .start = some t)
    ∧ ∀ p ∈ s.pending, s.phase = .working → s.queue.length < cfg.eventBuffer →
      ∃ t, step cfg s (.place p) = some t
  /-- no step takes the task back, and its next one is possible once there is something to decide -/
  advances : (∀ a t, step cfg s a = some t → s.phase.rank ≤ t.phase.rank)
    ∧ (s.phase = .working → ∀ result, ∃ t, step cfg s (.poll (.returned result)) = some t)
    ∧ (s.phase = .working → ∃ t, step cfg s (.poll .panicked) = some t)
    ∧ (s.phase ≠ .ended → .cancel ∈ as ∨ .expire ∈ as ∨ 0 < s.phase.rank →
      ∃ a t, step cfg s a = some t ∧ t.phase.rank = s.phase.rank + 1)
  /-- once the senders are gone, whoever keeps calling comes to the terminal event -/
  drains : s.phase.silent = true → (∃ t, step cfg s .recv = some t ∨ step cfg s .resume = some t)
    ∧ ∀ bs t, run (step cfg) s bs = some t → s.queue.length < bs.countP Act.resumes → t.ended = true

/-- The task of the run has not ended. -/
def alive (r : Config × Run) : Bool := decide (r.2.phase.rank < 4)

/-- Only the tasks that have not ended hold permits, and every run is sound. -/
structure Served (rc : RuntimeConfig) (as : List ServiceAct) (v : Service) : Prop where
  permits : v.permits + v.runs.countP alive = rc.maxConcurrentRuns
  runs : ∀ i cfg s, v.runs[i]? = some (cfg, s) → Sound cfg (history i as) s

/-! ## What holds in every state -/

/-- First the events, then the outcome once, then nothing. -/
def Told (s : Run) (given : List RunEvent) : Prop :=
  (s.ended = false ∧ s.yields = given.map some)
  ∨ (s.ended = true ∧ s.phase.silent = true ∧ s.queue = [] ∧ ∃ o n,
      s.finished = some o ∧ s.yields = given.map some ++ some o :: replicate n none)

def Announced (sent : List RunEvent) : Prop :=
  ∃ ps : List Progress, sent = .started cfg.id cfg.skill :: ps.map .progress

/-- What the phase says about the channel and the outcome. -/
def Stands (as : List Act) (s : Run) : Prop :=
  match s.phase with
  | .starting => sentBy cfg as = []
  | .working => Announced cfg (sentBy cfg as)
  | .resolved result => (sentBy cfg as = [] ∨ Announced cfg (sentBy cfg as)) ∧ Decided as result
  | .published | .closed | .ended => (sentBy cfg as = [] ∨ Announced cfg (sentBy cfg as))
      ∧ ∃ result, Decided as result ∧ s.finished = some (outcome cfg result)

structure Inv (as : List Act) (s : Run) : Prop where
  flags : (s.cancelled = true ↔ .cancel ∈ as) ∧ (s.expired = true ↔ .expire ∈ as)
  order : ∃ given, sentBy cfg as = given ++ s.queue ∧ Told s given
  stands : Stands cfg as s
  bytes : ((sentBy cfg as).map RunEvent.bytes).sum
    + (s.pending.map (RunEvent.bytes ∘ .progress)).sum ≤ s.textBytes
  limit : s.textBytes ≤ cfg.maxOutputBytes
  reader : s.reader = .idle ∨ (s.reader = .receiving ∧ s.ended = false)

section Invariant

variable {cfg} {s t : Run} {e : RunEvent} {as : List Act} {a : Act}

theorem Decided.later {result : Except AgentError String} (h : Decided as result) :
    Decided (as ++ [a]) result := by
  obtain ⟨before, work, after, rfl, hv⟩ := h
  exact ⟨before, work, after ++ [a], by simp, hv⟩

/-- An action that sends nothing and touches neither the token nor the timer. -/
def Act.quiet : Act → Bool
  | .start | .place _ | .cancel | .expire => false
  | _ => true

theorem sentBy_quiet (ha : a.quiet = true) : sentBy cfg (as ++ [a]) = sentBy cfg as := by
  cases a with
  | start | place p | cancel | expire => cases ha
  | _ => simp [sentBy]

/-- An action that sends nothing leaves what the phase says. -/
theorem Stands.later (h : Stands cfg as s) (hsent : sentBy cfg (as ++ [a]) = sentBy cfg as) :
    Stands cfg (as ++ [a]) s := by
  rw [Stands] at h ⊢
  rw [hsent]
  split at h
  · exact h
  · exact h
  · exact ⟨h.1, h.2.later⟩
  all_goals exact ⟨h.1, h.2.imp fun _ hr => ⟨hr.1.later, hr.2⟩⟩

variable (h : Inv cfg as s)
include h

theorem Inv.verdict {work : Work} {result : Except AgentError String}
    (hs : s.select work = some result) : Decided (as ++ [.poll work]) result := by
  refine ⟨as, work, [], rfl, ?_⟩
  rw [Run.select.eq_def] at hs
  split at hs
  · next hc =>
    cases hs
    exact .cancelled (h.flags.1.mp hc)
  next hc =>
  have hc := fun hmem => hc (h.flags.1.mpr hmem)
  split at hs
  · next he =>
    cases hs
    exact .timeout hc (h.flags.2.mp he)
  next he =>
  have he := fun hmem => he (h.flags.2.mpr hmem)
  cases work with
  | pending => cases hs
  | returned result' =>
    cases hs
    exact .returned hc he
  | panicked =>
    cases hs
    exact .panicked hc he

/-- While there is a sender the handle has returned events only. -/
theorem Inv.told (hp : s.phase.silent = false) :
    ∃ given, sentBy cfg as = given ++ s.queue ∧ s.ended = false ∧ s.yields = given.map some := by
  obtain ⟨given, hsent, htold | ⟨-, hsilent, -⟩⟩ := h.order
  · exact ⟨given, hsent, htold⟩
  · cases hp.symm.trans hsilent

/-- The outcome is published before the channel is closed. -/
theorem Inv.published (hp : s.phase.silent = true) :
    ∃ result, Decided as result ∧ s.finished = some (outcome cfg result) := by
  have hstands := h.stands
  rw [Stands] at hstands
  cases hphase : s.phase with rw [hphase] at hp hstands
  | closed | ended => exact hstands.2
  | starting | working | resolved | published => cases hp

/-- An action that sends nothing, whatever it does to the token and the timer. -/
theorem Inv.flagged {cancelled expired : Bool} (hsent : sentBy cfg (as ++ [a]) = sentBy cfg as)
    (hflags : (cancelled = true ↔ .cancel ∈ as ++ [a]) ∧ (expired = true ↔ .expire ∈ as ++ [a])) :
    Inv cfg (as ++ [a]) { s with cancelled := cancelled, expired := expired } :=
  { h with
    flags := hflags
    order := hsent ▸ h.order
    stands := h.stands.later hsent
    bytes := hsent ▸ h.bytes }

theorem Inv.quiet (a : Act) (ha : a.quiet = true) : Inv cfg (as ++ [a]) s := by
  refine h.flagged (sentBy_quiet ha) ?_
  cases a with
  | start | place p | cancel | expire => cases ha
  | _ => simpa using h.flags

/-- Another event in the channel. -/
theorem Inv.enqueue {pending : List Progress} (hp : s.phase.silent = false)
    (hs : { s with phase := .working, pending := pending }.enqueue cfg e = some t)
    (hsent : sentBy cfg (as ++ [a]) = sentBy cfg as ++ [e])
    (ha : a ≠ .cancel ∧ a ≠ .expire) (hopen : Announced cfg (sentBy cfg as ++ [e]))
    (hpending : e.bytes + (pending.map (RunEvent.bytes ∘ .progress)).sum
      = (s.pending.map (RunEvent.bytes ∘ .progress)).sum) : Inv cfg (as ++ [a]) t := by
  obtain ⟨-, rfl⟩ := of_guard hs
  obtain ⟨given, hgiven, htold⟩ := h.told hp
  refine { h with
    flags := by simpa [ha.1.symm, ha.2.symm] using h.flags
    order := ⟨given, by rw [hsent, hgiven, append_assoc], .inl htold⟩
    stands := (congrArg (Announced cfg) hsent).mpr hopen
    bytes := ?_ }
  have hbytes := h.bytes
  rw [hsent]
  simp only [map_append, sum_append, map_cons, map_nil, sum_singleton]
  omega

/-- The task moves on while the handle has not seen the end. -/
theorem Inv.move (hp : s.phase.silent = false) (phase : Phase) (finished : Option RunEvent)
    (hstands : Stands cfg as { s with phase := phase, finished := finished }) :
    Inv cfg as { s with phase := phase, finished := finished } := by
  obtain ⟨given, hsent, htold⟩ := h.told hp
  exact { h with
    order := ⟨given, hsent, .inl htold⟩
    stands := hstands }

/-- A poll that decides. -/
theorem Inv.resolve {work : Work} (hp : s.phase = .starting ∨ s.phase = .working)
    {result : Except AgentError String} (hs : s.select work = some result) :
    Inv cfg (as ++ [.poll work]) { s with phase := .resolved result } := by
  have hsent : sentBy cfg (as ++ [.poll work]) = sentBy cfg as := sentBy_quiet rfl
  have hstands := h.stands
  refine (h.quiet (.poll work) rfl).move ?_ (.resolved result) _ ⟨hsent ▸ ?_, h.verdict hs⟩
  all_goals
    rw [Stands] at hstands
    rcases hp with hp | hp
  · rw [hp]; rfl
  · rw [hp]; rfl
  · rw [hp] at hstands
    exact .inl hstands
  · rw [hp] at hstands
    exact .inr hstands

theorem Inv.receiving (hr : s.reader = .receiving) : s.ended = false := by
  obtain hidle | ⟨-, hopen⟩ := h.reader
  · cases hidle.symm.trans hr
  · exact hopen

/-- `recv` returns the next event. -/
theorem Inv.give (hr : s.reader = .receiving) {queue : List RunEvent} (hq : s.queue = e :: queue) :
    Inv cfg (as ++ [.resume]) ({ s with queue := queue }.yield (some e)) := by
  have h' := h.quiet .resume rfl
  obtain ⟨given, hsent, ⟨hopen, hyields⟩ | ⟨hend, -⟩⟩ := h'.order
  · refine { h' with
      order := ⟨given ++ [e], ?_, .inl ⟨hopen, ?_⟩⟩
      reader := .inl rfl }
    · rw [hsent, hq, append_assoc]
      rfl
    · rw [map_append, ← hyields]
      rfl
  · cases (h.receiving hr).symm.trans hend

/-- The channel is empty and has no sender: `recv` returns the outcome. -/
theorem Inv.finish (hr : s.reader = .receiving) (hq : s.queue = [])
    (hsilent : s.phase.silent = true) :
    Inv cfg (as ++ [.resume]) ({ s with ended := true }.wait cfg) := by
  have h' := h.quiet .resume rfl
  obtain ⟨result, -, hfin⟩ := h.published hsilent
  have hwait : { s with ended := true }.wait cfg
      = { s with ended := true }.yield (some (outcome cfg result)) := by
    rw [Run.wait, hfin]
  rw [hwait]
  obtain ⟨given, hsent, ⟨-, hyields⟩ | ⟨hend, -⟩⟩ := h'.order
  · refine { h' with
      order := ⟨given, hsent, .inr ⟨rfl, hsilent, hq, _, 0, hfin, ?_⟩⟩
      reader := .inl rfl }
    rw [← hyields]
    rfl
  · cases (h.receiving hr).symm.trans hend

/-- Every further `recv` returns nothing. -/
theorem Inv.again (hend : s.ended = true) : Inv cfg (as ++ [.recv]) (s.yield none) := by
  have h' := h.quiet .recv rfl
  obtain ⟨given, hsent, ⟨hopen, -⟩ | ⟨-, hsilent, hnil, o, n, ho, hyields⟩⟩ := h'.order
  · cases hend.symm.trans hopen
  · refine { h' with
      order := ⟨given, hsent, .inr ⟨hend, hsilent, hnil, o, n + 1, ho, ?_⟩⟩
      reader := .inl rfl }
    rw [replicate_succ', ← cons_append, ← append_assoc, ← hyields]
    rfl

theorem inv_step (hs : step cfg s a = some t) : Inv cfg (as ++ [a]) t := by
  have hstands := h.stands
  rw [Stands] at hstands
  rw [step.eq_def] at hs
  split at hs
  · next hp =>
    rw [hp] at hstands
    exact h.enqueue (by rw [hp]; rfl) hs (by simp [sentBy]) (by simp)
      ⟨[], by rw [hstands]; rfl⟩ (Nat.zero_add _)
  · next p _ =>
    obtain ⟨hfits, rfl⟩ := of_guard hs
    have h' := h.quiet (.send p) rfl
    refine { h' with
      bytes := ?_
      limit := hfits }
    have hbytes := h'.bytes
    simp only [map_cons, sum_cons, Function.comp_apply]
    omega
  · next p hp =>
    rw [hp] at hstands
    obtain ⟨ps, hps⟩ := hstands
    obtain ⟨hmem, hs⟩ := Option.ite_none_right_eq_some.mp hs
    rw [hp] at hs
    refine h.enqueue (by rw [hp]; rfl) hs (by simp [sentBy]) (by simp) ⟨ps ++ [p], ?_⟩
      (sum_map_erase (RunEvent.bytes ∘ .progress) hmem)
    rw [hps, map_append]
    rfl
  · next hp =>
    obtain ⟨result, hres, rfl⟩ := Option.map_eq_some_iff.mp hs
    exact h.resolve (.inl hp) hres
  · next hp =>
    obtain ⟨result, hres, rfl⟩ := Option.map_eq_some_iff.mp hs
    exact h.resolve (.inr hp) hres
  · next result hp =>
    cases hs
    rw [hp] at hstands
    have hsent : sentBy cfg (as ++ [.publish]) = sentBy cfg as := sentBy_quiet rfl
    exact (h.quiet .publish rfl).move (by rw [hp]; rfl) .published (some _)
      ⟨hsent ▸ hstands.1, result, hstands.2.later, rfl⟩
  · next hp =>
    cases hs
    have h' := h.quiet .close rfl
    have hstands := h'.stands
    rw [Stands, hp] at hstands
    exact h'.move (by rw [hp]; rfl) .closed _ hstands
  · next hp =>
    cases hs
    have h' := h.quiet .exit rfl
    have hstands := h'.stands
    rw [Stands, hp] at hstands
    obtain ⟨given, hsent, htold⟩ := h'.order
    exact { h' with
      order := ⟨given, hsent, htold.imp_right fun ht => ⟨ht.1, rfl, ht.2.2⟩⟩
      stands := hstands }
  · -- the token
    cases hs
    exact h.flagged (by simp [sentBy]) ⟨by simp, by simpa using h.flags.2⟩
  · -- the timer
    cases hs
    exact h.flagged (by simp [sentBy]) ⟨by simpa using h.flags.1, by simp⟩
  · split at hs
    · next hend =>
      cases hs
      exact h.again hend
    · next hopen =>
      cases hs
      exact { h.quiet .recv rfl with
        reader := .inr ⟨rfl, eq_false_of_ne_true hopen⟩ }
  · next hr =>
    split at hs
    · next hq =>
      cases hs
      exact h.give hr hq
    · next hq =>
      obtain ⟨hsilent, rfl⟩ := of_guard hs
      exact h.finish hr hq hsilent
  · next hr =>
    obtain hidle | ⟨hidle, -⟩ := h.reader
    all_goals cases hidle.symm.trans hr
  · cases hs
    exact { h.quiet .dropRecv rfl with reader := .inl rfl }
  · cases hs

end Invariant

/-! ## The end of a run -/

section Ends

variable {cfg} {s t : Run} {as : List Act} {a : Act}

/-- No step takes the task back, and only its last one ends it. -/
theorem rank_step (hs : step cfg s a = some t) : s.phase.rank ≤ t.phase.rank
    ∧ (t.phase.rank < 4 ↔ s.phase.rank < 4 ∧ a.exits = false)
    ∧ (a.exits = true → s.phase.rank < 4) := by
  have hwait : ∀ u : Run, (u.wait cfg).phase = u.phase := by
    intro u
    rw [Run.wait]
    split <;> rfl
  rw [step.eq_def] at hs
  split at hs
  case h_1 hp =>
    obtain ⟨-, rfl⟩ := of_guard hs
    simp [hp, Phase.rank, Act.exits]
  case h_2 =>
    obtain ⟨-, rfl⟩ := of_guard hs
    simp [Act.exits]
  case h_3 =>
    obtain ⟨-, hs⟩ := Option.ite_none_right_eq_some.mp hs
    obtain ⟨-, rfl⟩ := of_guard hs
    simp [Act.exits]
  case h_4 hp | h_5 hp =>
    obtain ⟨result, -, rfl⟩ := Option.map_eq_some_iff.mp hs
    simp [hp, Phase.rank, Act.exits]
  case h_6 hp | h_7 hp | h_8 hp =>
    cases hs
    simp [hp, Phase.rank, Act.exits]
  case h_9 | h_10 | h_14 =>
    cases hs
    simp [Act.exits]
  case h_11 =>
    split at hs
    all_goals
      cases hs
      simp [Run.yield, Act.exits]
  case h_12 =>
    split at hs
    · cases hs
      simp [Run.yield, Act.exits]
    · obtain ⟨-, rfl⟩ := of_guard hs
      simp [hwait, Act.exits]
  case h_13 =>
    cases hs
    simp [hwait, Act.exits]
  case h_15 => cases hs

end Ends

/-! ## All runs of the service -/

theorem history_concat (i : Nat) (as : List ServiceAct) (j : Nat) (a : Act) :
    history i (as ++ [.run j a]) = history i as ++ if j = i then [a] else [] := by
  by_cases hij : j = i
  · simp [history, hij]
  · simp [history, hij]

/-- What every step of the service keeps. -/
structure Kept (rc : RuntimeConfig) (as : List ServiceAct) (v : Service) : Prop where
  permits : v.permits + v.runs.countP alive = rc.maxConcurrentRuns
  runs : ∀ i cfg s, v.runs[i]? = some (cfg, s) → Inv cfg (history i as) s
  fresh : ∀ i, v.runs.length ≤ i → history i as = []

theorem kept_step {rc : RuntimeConfig} {as : List ServiceAct} {v v' : Service} {a : ServiceAct}
    (h : Kept rc as v) (hs : serve rc v a = some v') : Kept rc (as ++ [a]) v' := by
  cases a with
  | start id skill =>
    have hsame : ∀ i, history i (as ++ [.start id skill]) = history i as := by simp [history]
    rw [serve] at hs
    split at hs
    · cases hs
      exact ⟨h.permits, fun i => hsame i ▸ h.runs i, fun i => hsame i ▸ h.fresh i⟩
    · next hfree =>
      cases hs
      refine ⟨?_, ?_, ?_⟩
      · have hpermits := h.permits
        have hnew : alive ({ rc with id := id, skill := skill }, {}) = true := rfl
        rw [countP_append, countP_singleton, if_pos hnew]
        show v.permits - 1 + _ = _
        omega
      · intro i cfg s hi
        rw [hsame]
        rcases Pools.append_cases hi with hold | ⟨rfl, hnew⟩
        · exact h.runs i cfg s hold
        · cases hnew
          rw [h.fresh _ (Nat.le_refl _)]
          exact ⟨by simp, ⟨[], rfl, .inl ⟨rfl, rfl⟩⟩, rfl, Nat.le_refl _, Nat.zero_le _, .inl rfl⟩
      · intro i hi
        rw [hsame]
        rw [length_append] at hi
        exact h.fresh i (by omega)
  | run j a =>
    obtain ⟨⟨cfg, s⟩, hj, hs⟩ := Option.bind_eq_some_iff.mp hs
    obtain ⟨t, ht, rfl⟩ := Option.map_eq_some_iff.mp hs
    refine ⟨?_, ?_, ?_⟩
    · have hpermits := h.permits
      have hcount := Pools.countP_set alive hj (cfg, t)
      obtain ⟨-, hiff, hlive⟩ := rank_step ht
      simp only [alive, decide_eq_true_iff] at hcount
      cases ha : a.exits with
      | true =>
        rw [if_pos (hlive ha), if_neg (by simp [hiff, ha])] at hcount
        show v.permits + 1 + (v.runs.set j (cfg, t)).countP alive = _
        omega
      | false =>
        simp only [hiff, ha, and_true] at hcount
        show v.permits + (v.runs.set j (cfg, t)).countP alive = _
        omega
    · intro i cfg' s' hi
      rw [history_concat]
      rcases Pools.set_cases hi with ⟨rfl, hnew⟩ | ⟨hne, hold⟩
      · cases hnew
        rw [if_pos rfl]
        exact inv_step (h.runs i cfg s hj) ht
      · rw [if_neg (Ne.symm hne), append_nil]
        exact h.runs i cfg' s' hold
    · intro i hi
      rw [length_set] at hi
      rw [history_concat, h.fresh i hi, if_neg, append_nil]
      rintro rfl
      exact absurd (List.getElem?_eq_some_iff.mp hj).1 (by omega)

end AgentRun
