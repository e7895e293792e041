import NagisaLake.RunProofs
import NagisaLake.TableProofs
import NagisaLake.WireProofs

/-! # The client — calls and the task that dispatches them

Calls on a client are futures on tasks of their own.  A call draws an id,
puts its request into the dispatcher's queue and waits on a one-shot
channel; if its future is dropped, a guard closes the channel and sends the
id as a cancellation.  The dispatcher moves requests into its table, gives
each a deadline, answers from the server's frames, and on the way out fails
what is left.

The bounded queue takes a request in two steps: the call reserves a place,
which a closed queue refuses, and then puts the request there, which a
closed queue does not refuse.

The order of what happens on the wire is one log: the frames the dispatcher
queues and the responses it consumes, each with the call that was in flight
under its id. -/

namespace Dispatcher

open KeyedTable Runs Framing Wire

/-! ## Calls -/

/-- `ClientConfig`, as far as the dispatcher goes. -/
structure ClientConfig where
  pendingRequestBuffer : Nat := 256
  maxInFlightRequests : Nat := 1024
  frame : FrameConfig := {}

/-- `max_body_bytes`. -/
def maxBodyBytes (cfg : ClientConfig) : Nat :=
  cfg.frame.maxFrameBytes - requestHeaderLen

/-- What a call comes back with: the response frame's outcome, whose code says
    whether the body is a message or a status, or an error. -/
inductive CallResult where
  | response (code : Option Code) (body : Bytes)
  | deadlineExceeded
  | connection (e : ConnectionError)
  | shutdown
  deriving DecidableEq

/-- The one-shot channel, seen from its sender. -/
inductive Slot where
  | empty
  | sent (r : CallResult)
  | dropped
  deriving DecidableEq

/-- Where a call's future is: waiting for room in the request queue, with a place there but its
    request not in it, waiting on its channel, dropped but with the cancellation still to send,
    dropped, or back with a result. -/
inductive Stage where
  | sending
  | reserved
  | waiting
  | dropping
  | dropped
  | finished (r : CallResult)
  deriving DecidableEq

/-- A call that was encoded and is within the frame limit.  `closed` is the
    receiving end of its channel. -/
structure Call where
  id : UInt64
  deadline : Nat
  traceId : TraceId
  body : Bytes
  stage : Stage := .sending
  slot : Slot := .empty
  closed : Bool := false
  deriving DecidableEq

/-- `response.send`: a value for a closed channel is dropped. -/
def Call.resolve (c : Call) (r : CallResult) : Call :=
  { c with slot := if c.closed then .dropped else .sent r }

/-- `Pending`: the call whose channel it is, which is also the key of its deadline. -/
structure Pending where
  id : UInt64
  call : Nat
  deriving DecidableEq

/-- An entry of the `DelayQueue`. -/
structure Deadline where
  key : Nat
  id : UInt64
  due : Nat
  deriving DecidableEq

/-- What the wire sees: a frame is queued; a response is consumed, with the call
    that was in flight under its id. -/
inductive Event where
  | queued (f : ClientFrame)
  | consumed (id : UInt64) (code : Option Code) (body : Bytes)
      (call : Option Nat)
  deriving DecidableEq

/-- Where the dispatcher is: at its `select!`, sending a frame, failing what is
    in flight, failing what is queued, dropping its end of the queue, or gone, with the error it
    returns. -/
inductive Pc where
  | idle
  | sending (f : ClientFrame)
  | ending (e : ConnectionError)
  | draining (e : ConnectionError)
  | leaving (e : ConnectionError)
  | ended (e : Option ConnectionError)
  deriving DecidableEq

/-- The client and its dispatcher. -/
structure Client where
  calls : List Call := []
  nextId : UInt64 := 1
  /-- some handle of the client exists -/
  held : Bool := true
  requests : List Nat := []
  /-- requests that came after the dispatcher's end of the queue was gone -/
  unread : List Nat := []
  cancellations : List UInt64 := []
  inFlight : Table UInt64 Pending Pending.id := Table.empty
  deadlines : Table Nat Deadline Deadline.key := Table.empty
  accepting : Bool := true
  pc : Pc := .idle
  now : Nat := 0
  log : List Event := []

/-- The request queue takes nothing more. -/
def Pc.closed : Pc → Bool
  | .idle | .sending _ | .ending _ => false
  | .draining _ | .leaving _ | .ended _ => true

/-- Nobody is left to read the request queue. -/
def Pc.gone : Pc → Bool
  | .ended _ => true
  | _ => false

/-- The error the dispatcher ends with. -/
def Pc.error : Pc → Option ConnectionError
  | .idle | .sending _ => none
  | .ending e | .draining e | .leaving e => some e
  | .ended e => e

/-- The dispatcher is in its loop. -/
def Pc.running : Pc → Bool
  | .idle | .sending _ => true
  | .ending _ | .draining _ | .leaving _ | .ended _ => false

/-- `remaining_micros`; the clock counts nanoseconds. -/
def remainingMicros (s : Client) (c : Call) : UInt64 :=
  UInt64.ofNat (min ((c.deadline - s.now) / 1000) (2 ^ 64 - 1))

/-! ## Steps -/

def Client.setCall (s : Client) (i : Nat) (c : Call) : Client :=
  { s with calls := s.calls.set i c }

/-- The result goes to the call, if it still has a channel. -/
def Client.resolve (s : Client) (i : Nat) (r : CallResult) : Client :=
  { s with calls := s.calls.modify i fun c => c.resolve r }

/-- `in_flight.remove`. -/
def Client.land (s : Client) (id : UInt64) : Client :=
  { s with inFlight := s.inFlight.delete fun p => decide (p.id = id) }

/-- `deadlines.remove`, or the entry that `deadlines.next` has returned. -/
def Client.unlist (s : Client) (key : Nat) : Client :=
  { s with deadlines := s.deadlines.delete fun d => decide (d.key = key) }

/-- The dispatcher's task is gone without a word: what it held is dropped. -/
def Client.crash (s : Client) : Client :=
  { s with
    calls := s.calls.mapIdx fun i c =>
      if i ∈ s.requests ∨ (s.inFlight.rows.any fun p => decide (p.call = i))
      then { c with slot := .dropped } else c
    requests := []
    inFlight := Table.empty
    deadlines := Table.empty
    pc := .ended s.pc.error }

/-- The dispatcher takes a request off its queue. -/
def admitRequest (s : Client) (i : Nat) (c : Call) : Client :=
  if c.closed then s.setCall i { c with slot := .dropped }
  else if remainingMicros s c = 0 then s.resolve i .deadlineExceeded
  else { s with
    deadlines := s.deadlines.put ⟨i, c.id, c.deadline⟩
    inFlight := s.inFlight.put ⟨c.id, i⟩
    pc := .sending (.request c.id (remainingMicros s c) c.traceId c.body) }

/-- A cancellation: the call leaves the table and the server is told.  The
    `DelayQueue` panics on a key it does not have. -/
def cancelRequest (s : Client) (id : UInt64) : Client :=
  match s.inFlight.find? id with
  | none => s
  | some p =>
    if (s.deadlines.find? p.call).isSome then
      { (s.land id).unlist p.call with pc := .sending (.cancel id) }
    else s.crash

/-- An event from the reader. -/
def receive (s : Client) : Option (ReadEvent ServerFrame) → Client
  | some (.frame f) =>
    match s.inFlight.find? f.id with
    | none => { s with
        log := s.log ++ [.consumed f.id f.code f.body none] }
    | some p =>
      if (s.deadlines.find? p.call).isSome then
        { ((s.land f.id).unlist p.call).resolve p.call
            (.response f.code f.body) with
          log := s.log ++ [.consumed f.id f.code f.body (some p.call)] }
      else s.crash
  | some .closed =>
    { s with pc := .ending (.closed "RPC peer closed the connection") }
  | none =>
    { s with pc := .ending (.closed "RPC peer closed the connection") }
  | some (.failed e) => { s with pc := .ending e }

/-- A deadline that has passed. -/
def expireRequest (s : Client) (d : Deadline) : Client :=
  match s.inFlight.find? d.id with
  | none => s.unlist d.key
  | some p =>
    { ((s.unlist d.key).land d.id).resolve p.call .deadlineExceeded with
      pc := .sending (.cancel d.id) }

/-- What can happen.  The branches of the dispatcher's `select!` are taken in
    any order; each operation on a channel is atomic, but a send on the bounded
    one is two of them. -/
inductive Act where
  | call (deadline : Nat) (traceId : TraceId) (body : Bytes)
  | reserve (i : Nat)
  | enqueue (i : Nat)
  | refused (i : Nat)
  | take (i : Nat)
  | drop (i : Nat)
  | cancel (i : Nat)
  | release
  | tick (n : Nat)
  | recvRequest
  | recvCancellation
  | receive (event : Option (ReadEvent ServerFrame))
  | expire (key : Nat)
  | writerEnded (e : ConnectionError)
  | finish
  | sent
  | sendFailed
  | drain (id : UInt64)
  | closeRequests
  | drainRequest
  | ret
  | discard
  | leave
  | crash

/-- A future that will not touch the client again. -/
def Stage.over : Stage → Bool
  | .dropped | .finished _ => true
  | .sending | .reserved | .waiting | .dropping => false

/-- A step of a call's own task. -/
def callStep (cfg : ClientConfig) (s : Client) (i : Nat) (c : Call) : Act → Option Client
  | .reserve _ =>
    if c.stage = .sending ∧ s.pc.closed = false
        ∧ s.requests.length + s.calls.countP (fun c => decide (c.stage = .reserved))
          < cfg.pendingRequestBuffer then
      some (s.setCall i { c with stage := .reserved })
    else none
  | .enqueue _ =>
    -- the place is there, closed or not; the future has no point to be dropped at in between
    if c.stage = .reserved then
      some { s.setCall i { c with stage := .waiting } with
        requests := if s.pc.gone then s.requests else s.requests ++ [i]
        unread := if s.pc.gone then s.unread ++ [i] else s.unread }
    else none
  | .refused _ =>
    -- the guard was built before the send, and drops with it
    if c.stage = .sending ∧ s.pc.closed = true then
      some { s.setCall i { c with
          stage := .finished .shutdown, closed := true } with
        cancellations := s.cancellations ++ [c.id] }
    else none
  | .take _ =>
    if c.stage = .waiting then
      match c.slot with
      | .empty => none
      | .sent r => some (s.setCall i { c with
          stage := .finished r, closed := true })
      | .dropped => some (s.setCall i { c with
          stage := .finished .shutdown, closed := true })
    else none
  | .drop _ =>
    if c.stage = .sending ∨ c.stage = .waiting then
      some (s.setCall i { c with stage := .dropping, closed := true })
    else none
  | .cancel _ =>
    if c.stage = .dropping then
      some { s.setCall i { c with stage := .dropped } with
        cancellations := s.cancellations ++ [c.id] }
    else none
  | _ => none

/-- The dispatcher at its `select!`. -/
def selectStep (cfg : ClientConfig) (s : Client) : Act → Option Client
  | .recvRequest =>
    if s.accepting ∧ s.inFlight.rows.length < cfg.maxInFlightRequests then
      match s.requests with
      | i :: rest =>
        (s.calls[i]?).map fun c => admitRequest { s with requests := rest } i c
      | [] => if s.held then none else some { s with accepting := false }
    else none
  | .recvCancellation =>
    match s.cancellations with
    | id :: rest => some (cancelRequest { s with cancellations := rest } id)
    | [] => none
  | .receive event => some (receive s event)
  | .expire key =>
    match s.deadlines.find? key with
    | some d => if d.due ≤ s.now then some (expireRequest s d) else none
    | none => none
  | .writerEnded e => some { s with pc := .ending e }
  | .finish =>
    if s.accepting = false ∧ s.inFlight.rows = [] then
      some { s with pc := .ended none }
    else none
  | _ => none

/-- The dispatcher on its way out, and while a frame waits for room. -/
def otherStep (s : Client) : Act → Option Client
  | .sent =>
    match s.pc with
    | .sending f => some { s with
        pc := .idle, log := s.log ++ [.queued f] }
    | _ => none
  | .sendFailed =>
    match s.pc with
    | .sending _ => some { s with
        pc := .ending (.closed "RPC writer stopped") }
    | _ => none
  | .drain id =>
    match s.pc, s.inFlight.find? id with
    | .ending e, some p => some ((s.land id).resolve p.call (.connection e))
    | _, _ => none
  | .closeRequests =>
    match s.pc with
    | .ending e =>
      if s.inFlight.rows = [] then some { s with pc := .draining e }
      else none
    | _ => none
  | .drainRequest =>
    match s.pc, s.requests with
    | .draining e, i :: rest =>
      some (({ s with requests := rest } : Client).resolve i (.connection e))
    | _, _ => none
  | .ret =>
    match s.pc, s.requests with
    | .draining e, [] => some { s with
        deadlines := Table.empty, pc := .leaving e }
    | _, _ => none
  | .discard =>
    match s.pc, s.requests with
    | .leaving _, i :: rest =>
      (s.calls[i]?).map fun c =>
        ({ s with requests := rest } : Client).setCall i { c with slot := .dropped }
    | _, _ => none
  | .leave =>
    match s.pc, s.requests with
    | .leaving e, [] => some { s with pc := .ended (some e) }
    | _, _ => none
  | _ => none

/-- A call that has drawn its id. -/
def newCall (s : Client) (deadline : Nat) (traceId : TraceId) (body : Bytes) :
    Call :=
  { id := s.nextId, deadline := deadline, traceId := traceId, body := body }

/-- One step. -/
def step (cfg : ClientConfig) (s : Client) (a : Act) : Option Client :=
  match a with
  | .call deadline traceId body =>
    if s.held ∧ body.length ≤ maxBodyBytes cfg then
      some { s with
        calls := s.calls ++ [newCall s deadline traceId body]
        nextId := s.nextId + 1 }
    else none
  | .release =>
    -- a future borrows the handle it was made from
    if s.held ∧ s.calls.all (fun c => c.stage.over) then
      some { s with held := false }
    else none
  | .tick n => some { s with now := s.now + n }
  | .crash =>
    match s.pc with
    | .ended _ => none
    | _ => some s.crash
  | .reserve i | .enqueue i | .refused i | .take i | .drop i | .cancel i =>
    (s.calls[i]?).bind fun c => callStep cfg s i c a
  | .recvRequest | .recvCancellation | .receive _ | .expire _
  | .writerEnded _ | .finish =>
    if s.pc = .idle then selectStep cfg s a else none
  | .sent | .sendFailed | .drain _ | .closeRequests | .drainRequest | .ret
  | .discard | .leave =>
    otherStep s a

end Dispatcher
