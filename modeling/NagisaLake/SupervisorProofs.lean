import Mathlib.Data.List.Perm.Subperm
import NagisaLake.PoolProofs
import NagisaLake.RunProofs
import NagisaLake.TableProofs
import NagisaLake.WireProofs

/-! # The connection supervisor — request handlers and their abort handles

The server gives each connection a supervisor.  It admits requests, spawns a
task for each, keeps the task's abort handle under the request's id, and
reaps tasks that have ended.  A task decodes, calls the service, encodes,
sends one response frame and returns its id; a writer task takes the frames.

Aborting is asynchronous: a task that was aborted may still run to its end
and report its id.  By then the table may hold the handle of a newer task
under the same id, and `aborts.remove` takes that one.  `covered_iff` is
exact: the table covers every running task in all states of a run if and
only if no reported completion hits the handle of another task that still
runs. -/

namespace Supervisor

open KeyedTable Runs Framing Wire List Table

/-! ## Settings and statuses -/

/-- `ServerConfig`; durations in nanoseconds. -/
structure ServerConfig where
  maxConnections : Nat := 1024
  maxInFlightRequestsPerConnection : Nat := 1024
  maxRequestTimeout : Nat := 300 * 10 ^ 9
  inboundFrameBuffer : Nat := 256
  outboundFrameBuffer : Nat := 256
  frame : FrameConfig := {}

/-- `ConfigError`, of the server's settings. -/
inductive ConfigError where
  | zero (field : String)
  | invalidDuration (field : String)
  | frame (e : Framing.ConfigError)

/-- `MAX_SUPPORTED_REQUEST_TIMEOUT`. -/
def maxSupportedRequestTimeout : Nat := 24 * 60 * 60 * 10 ^ 9

/-- `ServerConfig::validate`. -/
def ServerConfig.validate (cfg : ServerConfig) : Except ConfigError Unit :=
  if cfg.maxConnections = 0 then .error (.zero "max_connections")
  else if cfg.maxInFlightRequestsPerConnection = 0 then
    .error (.zero "max_in_flight_requests_per_connection")
  else if cfg.maxRequestTimeout = 0
      ∨ maxSupportedRequestTimeout < cfg.maxRequestTimeout then
    .error (.invalidDuration "max_request_timeout")
  else if cfg.inboundFrameBuffer = 0 then
    .error (.zero "inbound_frame_buffer")
  else if cfg.outboundFrameBuffer = 0 then
    .error (.zero "outbound_frame_buffer")
  else (cfg.frame.validate).mapError .frame

/-- `Status`. -/
structure Status where
  code : Code
  message : String
  deriving DecidableEq

namespace Status

def deadlineExceeded : Status := ⟨.deadlineExceeded, "request deadline exceeded"⟩

def resourceExhausted : Status :=
  ⟨.resourceExhausted, "server request capacity exhausted"⟩

def duplicateRequestId : Status :=
  ⟨.alreadyExists, "request id is already in flight"⟩

def timeoutTooLarge : Status :=
  ⟨.invalidArgument, "request timeout exceeds the server limit"⟩

def internal (detail : String) : Status := ⟨.internal, detail⟩

def invalidArgument (detail : String) : Status := ⟨.invalidArgument, detail⟩

/-- `Status::into_wire_message`. -/
def intoWireMessage (s : Status) : Bytes := s.message.toUTF8.data.toList

end Status

/-- `status_frame`. -/
def statusFrame (id : UInt64) (status : Status) : ServerFrame :=
  { id := id, code := some status.code, body := status.intoWireMessage }

/-- `CodecError`. -/
inductive CodecError where
  | encode (detail : String)
  | decode (detail : String)

def CodecError.toString : CodecError → String
  | .encode detail => s!"encode failed: {detail}"
  | .decode detail => s!"decode failed: {detail}"

/-- `Codec`, from the server's side. -/
structure Codec (Req Resp : Type) where
  decode : Bytes → Except CodecError Req
  encode : Resp → Except CodecError Bytes

/-! ## Handlers -/

/-- What the service makes of a decoded request: it answers, fails, or the deadline passes first. -/
inductive Outcome (Resp : Type) where
  | response (r : Resp)
  | error (status : Status)
  | timedOut

/-- `max_response_bytes`; the subtraction saturates. -/
def maxResponseBytes (cfg : ServerConfig) : Nat :=
  cfg.frame.maxFrameBytes - responseHeaderLen

/-- The frame a handler sends for a request with this body. -/
def responseFrame {Req Resp : Type} (cfg : ServerConfig)
    (codec : Codec Req Resp) (id : UInt64) (body : Bytes)
    (outcome : Outcome Resp) : ServerFrame :=
  match codec.decode body with
  | .error e => statusFrame id (.invalidArgument e.toString)
  | .ok _ =>
    match outcome with
    | .error status => statusFrame id status
    | .timedOut => statusFrame id .deadlineExceeded
    | .response r =>
      match codec.encode r with
      | .error e => statusFrame id (.internal e.toString)
      | .ok encoded =>
        if encoded.length ≤ maxResponseBytes cfg then
          { id := id, code := none, body := encoded }
        else
          let bytes := encoded.length
          let limit := maxResponseBytes cfg
          statusFrame id (.internal s!"encoded response is {bytes} bytes, limit is {limit}")

/-- How far a handler's task has come.  It is `answered` between sending its
    frame and returning its id. -/
inductive Progress where
  | running
  | answered
  | done
  | panicked
  | cancelled
  deriving DecidableEq, Repr

/-- `is_finished`. -/
def Progress.isFinished : Progress → Bool
  | .running | .answered => false
  | .done | .panicked | .cancelled => true

/-- A handler's task: the request, whether `abort` was called, and whether
    `join_next` has returned it. -/
structure Handler where
  id : UInt64
  body : Bytes
  progress : Progress := .running
  aborted : Bool := false
  joined : Bool := false
  deriving DecidableEq

/-- A task `join_next` can return. -/
def Handler.joinable (h : Handler) : Bool := h.progress.isFinished && !h.joined

/-- Running, and not aborted. -/
def Handler.live (h : Handler) : Bool := !h.progress.isFinished && !h.aborted

/-- An entry of the abort table: the id and the task the handle is of. -/
structure AbortHandle where
  id : UInt64
  task : Nat
  deriving DecidableEq

/-! ## The connection -/

/-- Whether the writer still takes frames. -/
inductive WriterState where
  | running
  | stopped (e : ConnectionError)
  | aborted
  deriving DecidableEq

/-- Where the supervisor is: in its loop, draining with the error it will return, or gone. -/
inductive Phase where
  | serving
  | draining (terminalError : Option ConnectionError)
  | closed
  deriving DecidableEq

/-- A connection of the server: the tasks spawned so far, in order, the abort
    table, the frames in the outgoing channel and those the writer has taken. -/
structure Conn where
  handlers : List Handler := []
  aborts : Table UInt64 AbortHandle AbortHandle.id := Table.empty
  outgoing : List ServerFrame := []
  written : List ServerFrame := []
  writer : WriterState := .running
  phase : Phase := .serving

/-- `outgoing.send`: it waits for room (`none`), and fails once the writer is gone. -/
def Conn.send (cfg : ServerConfig) (s : Conn) (f : ServerFrame) : Option (Conn × Bool) :=
  match s.writer with
  | .running =>
    if s.outgoing.length < cfg.outboundFrameBuffer then
      some ({ s with outgoing := s.outgoing ++ [f] }, true)
    else none
  | .stopped _ => some (s, false)
  | .aborted => some (s, false)

/-- The writer is gone, and with it what is in the channel. -/
def Conn.stopWriter (s : Conn) (w : WriterState) : Conn :=
  { s with writer := w, outgoing := [] }

/-- `handlers[i]` becomes `h`. -/
def Conn.setHandler (s : Conn) (i : Nat) (h : Handler) : Conn :=
  { s with handlers := s.handlers.set i h }

/-- `abort.abort()`. -/
def Conn.abort (s : Conn) (i : Nat) : Conn :=
  { s with handlers := s.handlers.modify i fun h => { h with aborted := true } }

/-- `aborts.remove`. -/
def Conn.forget (s : Conn) (id : UInt64) : Conn :=
  { s with aborts := s.aborts.delete fun a => decide (a.id = id) }

/-- `abort.is_finished()`. -/
def Conn.isFinished (s : Conn) (a : AbortHandle) : Bool :=
  (s.handlers[a.task]?).all fun h => h.progress.isFinished

/-- The check before a request is admitted; a microsecond is 1000 ns. -/
def rejection (cfg : ServerConfig) (s : Conn) (id timeoutMicros : UInt64) : Option Status :=
  if (s.aborts.find? id).isSome then some .duplicateRequestId
  else if timeoutMicros = 0 then some .deadlineExceeded
  else if cfg.maxRequestTimeout / 1000 < timeoutMicros.toNat then
    some .timeoutTooLarge
  else if cfg.maxInFlightRequestsPerConnection ≤ s.aborts.rows.length then
    some .resourceExhausted
  else none

/-- An admitted request: its task is spawned and its handle kept. -/
def Conn.spawn (s : Conn) (id : UInt64) (body : Bytes) : Conn :=
  { s with
    handlers := s.handlers ++ [{ id := id, body := body }]
    aborts := s.aborts.put ⟨id, s.handlers.length⟩ }

/-- The supervisor takes the next event off the incoming channel. -/
def receive (cfg : ServerConfig) (s : Conn) : Option (ReadEvent ClientFrame) → Option Conn
  | some (.frame (.cancel id)) =>
    match s.aborts.find? id with
    | some a => some ((s.forget id).abort a.task)
    | none => some s
  | some (.frame (.request id timeoutMicros _ body)) =>
    match rejection cfg s id timeoutMicros with
    | none => some (s.spawn id body)
    | some status =>
      (s.send cfg (statusFrame id status)).map fun r =>
        if r.2 then r.1
        else { r.1 with
          phase := .draining (some (.closed "RPC writer stopped")) }
  | some .closed => some { s with phase := .draining none }
  | none => some { s with phase := .draining none }
  | some (.failed e) => some { s with phase := .draining (some e) }

/-- `join_next` in the supervisor's loop returns a task that has ended. -/
def reap (s : Conn) (i : Nat) (h : Handler) : Conn :=
  let s := s.setHandler i { h with joined := true }
  if h.progress = .done then s.forget h.id
  else { s with aborts := s.aborts.delete s.isFinished }

/-- What can happen on a connection.  The order in which `select!` looks at its
    branches is left open. -/
inductive Act (Resp : Type) where
  | receive (event : Option (ReadEvent ClientFrame))
  | joinNext (i : Nat)
  | shutdown
  | writerEnded
  | graceElapsed
  | close
  | answer (i : Nat) (outcome : Outcome Resp)
  | finish (i : Nat)
  | panic (i : Nat)
  | cancelled (i : Nat)
  | write
  | writeFailed (unexpectedEof : Bool) (text : String)

/-- A step of one task: it is at this point, and comes to that one. -/
def Conn.progress (s : Conn) (i : Nat) (h : Handler) (p : Progress) : Conn :=
  s.setHandler i { h with progress := p }

/-- One step of the connection. -/
def step {Req Resp : Type} (cfg : ServerConfig) (codec : Codec Req Resp)
    (s : Conn) : Act Resp → Option Conn
  | .receive event =>
    if s.phase = .serving then receive cfg s event else none
  | .joinNext i =>
    match s.handlers[i]? with
    | none => none
    | some h =>
      if h.joinable then
        match s.phase with
        | .serving => some (reap s i h)
        | .draining _ => some (s.setHandler i { h with joined := true })
        | .closed => none
      else none
  | .shutdown =>
    if s.phase = .serving then some { s with phase := .draining none }
    else none
  | .writerEnded =>
    match s.phase, s.writer with
    | .serving, .stopped e => some { s with phase := .draining (some e) }
    | _, _ => none
  | .graceElapsed =>
    -- `abort_all` reaches every task that is still in the set
    match s.phase with
    | .draining _ => some { s with
        handlers := s.handlers.map fun h => { h with aborted := true } }
    | _ => none
  | .close =>
    match s.phase with
    | .draining terminalError =>
      if s.handlers.all Handler.joined then
        let s := { s with phase := .closed }
        if terminalError.isNone then some s
        else match s.writer with
          | .running => some (s.stopWriter .aborted)
          | _ => some s
      else none
    | _ => none
  | .answer i outcome =>
    match s.handlers[i]? with
    | none => none
    | some h =>
      if h.progress = .running then
        (s.send cfg (responseFrame cfg codec h.id h.body outcome)).map
          fun r => r.1.progress i h .answered
      else none
  | .finish i =>
    match s.handlers[i]? with
    | none => none
    | some h =>
      if h.progress = .answered then some (s.progress i h .done) else none
  | .panic i =>
    match s.handlers[i]? with
    | none => none
    | some h =>
      if h.progress = .running then some (s.progress i h .panicked)
      else none
  | .cancelled i =>
    match s.handlers[i]? with
    | none => none
    | some h =>
      if h.progress = .running ∧ h.aborted = true then
        some (s.progress i h .cancelled)
      else none
  | .write =>
    match s.writer, s.outgoing with
    | .running, f :: rest =>
      if cfg.frame.maxFrameBytes < f.payloadLen then
        some (s.stopWriter (.stopped (.frameTooLarge f.payloadLen cfg.frame.maxFrameBytes)))
      else some { s with outgoing := rest, written := s.written ++ [f] }
    | _, _ => none
  | .writeFailed unexpectedEof text =>
    match s.writer with
    | .running =>
      some (s.stopWriter (.stopped (.io unexpectedEof text)))
    | _ => none

/-! ## The abort table -/

section Covering

variable {Req Resp : Type} {cfg : ServerConfig} {codec : Codec Req Resp}
  {s t : Conn} {i : Nat} {h : Handler}

/-- Every handler that runs and was not aborted has its own handle in the table under its id. -/
def Covered (s : Conn) : Prop :=
  ∀ (i : Nat) (h : Handler), s.handlers[i]? = some h → h.live = true →
    s.aborts.find? h.id = some ⟨h.id, i⟩

/-- What the table is for: a cancellation reaches the handler, its id is taken,
    and the handlers at work are no more than the settings allow. -/
structure Guarded (cfg : ServerConfig) (codec : Codec Req Resp) (s : Conn) :
    Prop where
  covered : Covered s
  cancels : s.phase = .serving → ∀ (i : Nat) (h : Handler), s.handlers[i]? = some h →
    h.live = true → ∃ t, step cfg codec s (.receive (some (.frame (.cancel h.id)))) = some t
      ∧ t.handlers[i]? = some { h with aborted := true }
  duplicates : ∀ (i : Nat) (h : Handler), s.handlers[i]? = some h → h.live = true →
    ∀ timeoutMicros, rejection cfg s h.id timeoutMicros = some .duplicateRequestId
  bounded : s.handlers.countP Handler.live ≤ cfg.maxInFlightRequestsPerConnection

/-- The loop is about to be told that a handler has completed, and another
    handler with the same id runs and was not aborted. -/
def Mistaken (s : Conn) : Act Resp → Prop
  | .joinNext i => s.phase = .serving ∧ ∃ (h : Handler) (j : Nat) (g : Handler),
      s.handlers[i]? = some h
      ∧ h.joinable = true ∧ h.progress = .done
      ∧ s.handlers[j]? = some g ∧ g.live = true ∧ g.id = h.id
  | _ => False

/-- The table covers the running handlers and is not too long. -/
structure Inv (cfg : ServerConfig) (s : Conn) : Prop where
  covered : Covered s
  short : s.aborts.rows.length ≤ cfg.maxInFlightRequestsPerConnection

/-- Nothing was spawned or taken out of the table, and no handler has come back to life. -/
structure Calm (s t : Conn) : Prop where
  aborts : t.aborts = s.aborts
  alive : ∀ (i : Nat) (h : Handler), t.handlers[i]? = some h → h.live = true →
    ∃ g : Handler, s.handlers[i]? = some g ∧ g.live = true ∧ g.id = h.id

theorem Inv.calm (hi : Inv cfg s) (hc : Calm s t) : Inv cfg t where
  covered := by
    intro i h hh hlive
    obtain ⟨g, hg, hglive, hid⟩ := hc.alive i h hh hlive
    rw [hc.aborts, ← hid]
    exact hi.covered i g hg hglive
  short := by
    rw [hc.aborts]
    exact hi.short

theorem calm_of_eq (hh : t.handlers = s.handlers) (ha : t.aborts = s.aborts) : Calm s t where
  aborts := ha
  alive := by
    intro i h hi hlive
    rw [hh] at hi
    exact ⟨h, hi, hlive, rfl⟩

/-- A handler changes, and is alive afterwards only if it was. -/
theorem calm_of_set (h' : Handler) (hi : s.handlers[i]? = some h) (hid : h'.id = h.id)
    (hlive : h'.live = true → h.live = true)
    (hh : t.handlers = s.handlers.set i h') (ha : t.aborts = s.aborts) :
    Calm s t where
  aborts := ha
  alive := by
    intro j g hj hg
    rw [hh] at hj
    rcases Pools.set_cases hj with ⟨rfl, rfl⟩ | ⟨-, hold⟩
    · exact ⟨h, hi, hlive hg, hid.symm⟩
    · exact ⟨g, hold, hg, rfl⟩

theorem send_keeps {f : ServerFrame} {r : Conn × Bool} (hsend : s.send cfg f = some r) :
    r.1.handlers = s.handlers ∧ r.1.aborts = s.aborts := by
  rw [Conn.send] at hsend
  split at hsend
  · obtain ⟨-, rfl⟩ := of_guard hsend
    exact ⟨rfl, rfl⟩
  all_goals
    cases hsend
    exact ⟨rfl, rfl⟩

/-- A handler ends. -/
theorem calm_ended (hi : s.handlers[i]? = some h) {p : Progress}
    (hp : p.isFinished = true) : Calm s (s.progress i h p) := by
  refine calm_of_set { h with progress := p } hi rfl ?_ rfl rfl
  intro hlive
  simp [Handler.live, hp] at hlive

/-! ### One step -/

variable {id : UInt64} {a : Act Resp}

theorem inv_spawn (hi : Inv cfg s) {timeoutMicros : UInt64} {body : Bytes}
    (hrej : rejection cfg s id timeoutMicros = none) :
    Inv cfg (s.spawn id body) := by
  obtain ⟨hnew, hroom⟩ : s.aborts.find? id = none
      ∧ s.aborts.rows.length < cfg.maxInFlightRequestsPerConnection := by
    rw [rejection] at hrej
    split at hrej
    · cases hrej
    next hno =>
    iterate 2
      split at hrej
      · cases hrej
    split at hrej
    · cases hrej
    next hlt => exact ⟨Option.not_isSome_iff_eq_none.mp hno, Nat.lt_of_not_le hlt⟩
  constructor
  · intro i h hh hlive
    show (s.aborts.put ⟨id, s.handlers.length⟩).find? h.id = _
    rw [find?_put]
    rcases Pools.append_cases hh with hh | ⟨rfl, rfl⟩
    · -- an older handler with this id would have its handle in the table
      have hold := hi.covered i h hh hlive
      rw [if_neg, hold]
      intro hid
      rw [show h.id = id from hid.symm, hnew] at hold
      cases hold
    · rw [if_pos rfl]
  · exact Nat.lt_of_le_of_lt (length_filter_le ..) hroom

/-- Taking out handles that are of nobody alive keeps the others. -/
theorem inv_delete (hi : Inv cfg s) {p : AbortHandle → Bool} (hp : ∀ (i : Nat) (h : Handler),
      s.handlers[i]? = some h → h.live = true → p ⟨h.id, i⟩ = false) :
    Inv cfg { s with aborts := s.aborts.delete p } where
  covered := by
    intro i h hh hlive
    rw [find?_delete, hi.covered i h hh hlive, Option.filter_some, hp i h hh hlive]
    rfl
  short := Nat.le_trans (length_filter_le ..) hi.short

theorem calm_abort (s : Conn) (i : Nat) : Calm s (s.abort i)
    ∧ ∀ h, (s.abort i).handlers[i]? = some h → h.live = false := by
  have hget : ∀ j, (s.abort i).handlers[j]?
      = (s.handlers[j]?).map fun h => if i = j then { h with aborted := true } else h :=
    fun j => getElem?_modify ..
  refine ⟨⟨rfl, ?_⟩, ?_⟩
  · intro j h hh hlive
    rw [hget] at hh
    obtain ⟨g, hg, rfl⟩ := Option.map_eq_some_iff.mp hh
    split at hlive
    · simp [Handler.live] at hlive
    · next hij => exact ⟨g, hg, hlive, by rw [if_neg hij]⟩
  · intro h hh
    rw [hget] at hh
    obtain ⟨g, -, rfl⟩ := Option.map_eq_some_iff.mp hh
    simp [Handler.live]

theorem inv_cancel (hi : Inv cfg s) {a : AbortHandle} (ha : s.aborts.find? id = some a) :
    Inv cfg ((s.forget id).abort a.task) := by
  obtain ⟨hcalm, hdead⟩ := calm_abort s a.task
  have hnext := hi.calm hcalm
  refine inv_delete hnext fun i h hh hlive => decide_eq_false fun (hid : h.id = id) => ?_
  -- the handle taken out is that of the handler that was aborted
  have hold : s.aborts.find? h.id = some ⟨h.id, i⟩ := hnext.covered i h hh hlive
  rw [hid, ha] at hold
  cases hold
  rw [hdead h hh] at hlive
  cases hlive

/-- A task that has ended is not alive. -/
theorem not_live_of_joinable (hj : h.joinable = true) : h.live = false := by
  rw [Handler.joinable, Bool.and_eq_true] at hj
  simp [Handler.live, hj.1]

theorem calm_joined (hi : s.handlers[i]? = some h) (hj : h.joinable = true) :
    Calm s (s.setHandler i { h with joined := true }) := by
  refine calm_of_set { h with joined := true } hi rfl ?_ rfl rfl
  intro hlive
  rw [show ({ h with joined := true } : Handler).live = h.live from rfl,
    not_live_of_joinable hj] at hlive
  cases hlive

theorem inv_reap (hi : Inv cfg s) (hh : s.handlers[i]? = some h) (hj : h.joinable = true)
    (hnone : h.progress = .done → ∀ (j : Nat) (g : Handler),
      s.handlers[j]? = some g → g.live = true → g.id ≠ h.id) :
    Inv cfg (reap s i h) := by
  have hcalm := calm_joined hh hj
  have hnext := hi.calm hcalm
  rw [reap]
  split
  · next hdone =>
    refine inv_delete hnext fun j g hg hlive => decide_eq_false ?_
    obtain ⟨g', hg', hlive', hid⟩ := hcalm.alive j g hg hlive
    rw [← hid]
    exact hnone hdone j g' hg' hlive'
  · refine inv_delete hnext fun j g hg hlive => ?_
    rw [Handler.live, Bool.and_eq_true, Bool.not_eq_true'] at hlive
    rw [Conn.isFinished, hg, Option.all_some, hlive.1]

theorem inv_receive (hi : Inv cfg s) {event : Option (ReadEvent ClientFrame)}
    (hs : receive cfg s event = some t) : Inv cfg t := by
  rw [receive.eq_def] at hs
  split at hs
  · -- a cancellation
    split at hs
    · next a ha =>
      cases hs
      exact inv_cancel hi ha
    · cases hs
      exact hi
  · -- a request: admitted, or answered with a status
    split at hs
    · next hrej =>
      cases hs
      exact inv_spawn hi hrej
    obtain ⟨r, hsend, rfl⟩ := Option.map_eq_some_iff.mp hs
    obtain ⟨hh, ha⟩ := send_keeps hsend
    split
    all_goals exact hi.calm (calm_of_eq hh ha)
  all_goals
    cases hs
    exact hi.calm (calm_of_eq rfl rfl)

/-- The steps of a task and of the writer leave the table alone. -/
theorem calm_step (hs : step cfg codec s a = some t)
    (hreceive : ∀ event, a ≠ .receive event) (hjoin : ∀ i, a ≠ .joinNext i) :
    Calm s t := by
  cases a with rw [step] at hs
  | receive event => exact absurd rfl (hreceive event)
  | joinNext i => exact absurd rfl (hjoin i)
  | shutdown | writerEnded | writeFailed unexpectedEof text =>
    split at hs
    · cases hs
      exact calm_of_eq rfl rfl
    · cases hs
  | graceElapsed =>
    split at hs
    · cases hs
      refine ⟨rfl, ?_⟩
      -- nobody is left that was not aborted
      intro i h hh hlive
      rw [getElem?_map] at hh
      obtain ⟨g, -, rfl⟩ := Option.map_eq_some_iff.mp hh
      simp [Handler.live] at hlive
    · cases hs
  | close =>
    split at hs
    · split at hs
      · simp only at hs
        split at hs
        · cases hs
          exact calm_of_eq rfl rfl
        split at hs
        all_goals
          cases hs
          exact calm_of_eq rfl rfl
      · cases hs
    · cases hs
  | answer i outcome =>
    split at hs
    · cases hs
    next h hh =>
    split at hs
    · next hrun =>
      obtain ⟨r, hsend, rfl⟩ := Option.map_eq_some_iff.mp hs
      obtain ⟨hkeep, ha⟩ := send_keeps hsend
      refine calm_of_set { h with progress := .answered } hh rfl ?_ ?_ ha
      · intro hlive
        rw [Handler.live, hrun]
        exact hlive
      · show r.1.handlers.set i _ = _
        rw [hkeep]
    · cases hs
  | finish i | panic i | cancelled i =>
    split at hs
    · cases hs
    next h hh =>
    obtain ⟨-, rfl⟩ := of_guard hs
    exact calm_ended hh rfl
  | write =>
    split at hs
    · split at hs
      all_goals
        cases hs
        exact calm_of_eq rfl rfl
    · cases hs

theorem inv_step (hi : Inv cfg s) (hok : ¬ Mistaken s a)
    (hs : step cfg codec s a = some t) : Inv cfg t := by
  cases a with
  | receive event =>
    rw [step] at hs
    split at hs
    · exact inv_receive hi hs
    · cases hs
  | joinNext i =>
    rw [step] at hs
    split at hs
    · cases hs
    next h hh =>
    split at hs
    · next hj =>
      split at hs
      · next hphase =>
        cases hs
        refine inv_reap hi hh hj ?_
        intro hdone j g hg hlive hid
        exact hok ⟨hphase, h, j, g, hh, hj, hdone, hg, hlive, hid⟩
      · cases hs
        exact hi.calm (calm_joined hh hj)
      · cases hs
    · cases hs
  | _ => exact hi.calm (calm_step hs nofun nofun)

/-! ### What the table is for -/

/-- The handles of the handlers that are alive. -/
def liveHandles (s : Conn) : List AbortHandle :=
  (s.handlers.zipIdx.filter fun x => x.1.live).map fun x => ⟨x.1.id, x.2⟩

theorem length_liveHandles (s : Conn) :
    (liveHandles s).length = s.handlers.countP Handler.live := by
  rw [liveHandles, length_map, ← countP_eq_length_filter]
  have hmap := countP_map (p := Handler.live)
    (f := (Prod.fst : Handler × Nat → Handler)) (l := s.handlers.zipIdx)
  rw [zipIdx_map_fst] at hmap
  exact hmap.symm

theorem nodup_liveHandles (s : Conn) : (liveHandles s).Nodup := by
  have htasks : ((liveHandles s).map AbortHandle.task).Nodup := by
    rw [liveHandles, map_map]
    have hidx : (s.handlers.zipIdx.map Prod.snd).Nodup := by
      rw [zipIdx_map_snd]
      exact nodup_range'
    exact hidx.sublist (filter_sublist.map Prod.snd)
  exact List.Nodup.of_map _ htasks

/-- No more handlers are alive than handles are in the table. -/
theorem Covered.count_le (hc : Covered s) :
    s.handlers.countP Handler.live ≤ s.aborts.rows.length := by
  rw [← length_liveHandles]
  refine (subperm_of_subset (nodup_liveHandles s) ?_).length_le
  intro a ha
  obtain ⟨⟨h, i⟩, hx, rfl⟩ := mem_map.mp ha
  obtain ⟨hmem, hlive⟩ := mem_filter.mp hx
  rw [mem_zipIdx_iff_getElem?] at hmem
  exact mem_of_find? (hc i h hmem hlive)

theorem Inv.guarded (hi : Inv cfg s) : Guarded cfg codec s where
  covered := hi.covered
  cancels := by
    intro hphase i h hh hlive
    refine ⟨(s.forget h.id).abort i, ?_, ?_⟩
    · rw [step, if_pos hphase, receive, hi.covered i h hh hlive]
    show (s.handlers.modify i fun h => { h with aborted := true })[i]? = _
    rw [getElem?_modify, hh]
    simp
  duplicates := by
    intro i h hh hlive timeoutMicros
    rw [rejection, hi.covered i h hh hlive]
    rfl
  bounded := Nat.le_trans hi.covered.count_le hi.short

/-- A completion that was taken for another's leaves that one uncovered. -/
theorem not_covered_of_mistaken (hm : Mistaken s a) :
    ∃ t, step cfg codec s a = some t ∧ ¬ Covered t := by
  cases a with
  | joinNext i =>
    obtain ⟨hphase, h, j, g, hh, hj, hdone, hg, hlive, hid⟩ := hm
    refine ⟨reap s i h, ?_, ?_⟩
    · rw [step, hh]
      simp only [hj, hphase, if_true]
    intro hc
    have hij : i ≠ j := by
      rintro rfl
      cases hh.symm.trans hg
      rw [not_live_of_joinable hj] at hlive
      cases hlive
    rw [reap, if_pos hdone] at hc
    have hg' : (s.handlers.set i { h with joined := true })[j]? = some g := by
      rw [getElem?_set_ne hij]
      exact hg
    have hfind : (s.aborts.delete fun a => decide (a.id = h.id)).find? g.id
        = some ⟨g.id, j⟩ := hc j g hg' hlive
    rw [find?_delete] at hfind
    have hkeep := (Option.filter_eq_some_iff.mp hfind).2
    simp [hid] at hkeep
  | _ => cases hm

theorem inv_start : Inv cfg {} where
  covered := fun _ _ hh => nomatch hh
  short := Nat.zero_le _

/-- **THE TABLE COVERS THE RUNNING HANDLERS**, and does what it is for, in every
    state of a run, exactly if the loop is never told of a completion while
    another handler with the same id runs and was not aborted. -/
theorem covered_iff (cfg : ServerConfig) (codec : Codec Req Resp) (as : List (Act Resp)) :
    Along (step cfg codec) (Guarded cfg codec) {} as
      ↔ Admitted (step cfg codec) (fun s a => ¬ Mistaken s a) {} as := by
  refine along_iff_admitted (I := Inv cfg) ?_ ?_ ?_ as {} inv_start
  · exact fun s hi => hi.guarded
  · exact fun s a t hi hok hs => inv_step hi hok hs
  intro s a hi hno
  obtain ⟨t, hs, hnot⟩ : ∃ t, step cfg codec s a = some t ∧ ¬ Covered t :=
    not_covered_of_mistaken (not_not.mp hno)
  exact ⟨t, hs, fun hg => hnot hg.covered⟩

end Covering

/-! ## A late completion -/

/-- A codec for requests and responses that are bytes. -/
def rawCodec : Codec Bytes Bytes := ⟨.ok, .ok⟩

/-- A request under an id, with a second to run. -/
def request (id : UInt64) : Act Bytes :=
  .receive (some (.frame (.request id 1000000 default [])))

/-- The request is cancelled while its handler is about to answer, its id is
    used again, and the handler ends as if nothing had happened. -/
def lateCompletion : List (Act Bytes) :=
  [request 1, .receive (some (.frame (.cancel 1))), request 1,
    .answer 0 (.response []), .finish 0, .joinNext 0]

/-- The second handler runs without a handle: the cancellation of its id does
    nothing, and the id is taken for a third handler. -/
theorem lateCompletion_uncovers : ∃ t, run (step {} rawCodec) {} lateCompletion = some t
      ∧ t.handlers[1]? = some { id := 1, body := [] }
      ∧ t.aborts.find? 1 = none ∧ ¬ Covered t
      ∧ (receive {} t (some (.frame (.cancel 1)))).map Conn.handlers = some t.handlers
      ∧ rejection {} t 1 1000000 = none := by
  refine ⟨_, rfl, rfl, rfl, ?_, rfl, rfl⟩
  intro hc
  cases hc 1 _ rfl rfl

end Supervisor
