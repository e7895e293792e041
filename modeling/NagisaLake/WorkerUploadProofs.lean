import NagisaLake.RunnerProofs

/-! # Uploading outputs — a cancellation that is accepted too late

Once a job uploads, a cancellation is not supposed to touch it any more:
the Hub refuses one, no transition leads from `Uploading` to `Cancelled`,
and `execute` reports an error of an uploading job as `Failed`.  The worker
itself does not look at the state.  A `CancelJob` is accepted whenever the
job is registered, its token is set, and the upload of an output asks the
token at every turn: before a retry, while it waits for a ticket, while it
sends the file.

`upload_output` is written out here as a machine inside the runner's
`outputs` places (`refines`).  The acknowledgement is positive in every
uploading state (`cancel_never_ineffective`), and an upload that still
needs a ticket ends in `Failed` (`doomed_fails`). -/

namespace WorkerUpload

open Jobs Journal Runs Runner Option Runner

/-! ## A request to the Hub -/

/-- What a waiter holds. -/
inductive Slot (α : Type) where
  | registered
  | resolved (answer : α)
  | dropped
  deriving DecidableEq, Repr

/-- The loop of `request_artifact` and `confirm_artifact`. -/
inductive Request (α : Type) where
  | head
  | transmitting (slot : Slot α)
  | awaiting (slot : Slot α)
  deriving DecidableEq, Repr

/-- What such a loop meets. -/
inductive Answer (α : Type) where
  | advance
  | transmit
  | connectionClosed
  | arrives (answer : α)
  | timeout
  deriving DecidableEq, Repr

/-- A function goes on or returns. -/
inductive Outcome (σ α : Type) where
  | stays (place : σ)
  | returns (result : Except RuntimeError α)

/-- One move of the loop; `refused` is what `is_cancelled` says at its head. -/
def Request.step {α : Type} (refused : Bool) : Request α → Answer α → Option (Outcome (Request α) α)
  | .head, .advance =>
    some (if refused then .returns (.error .cancelled)
      else .stays (.transmitting .registered))
  | .transmitting slot, .transmit => some (.stays (.awaiting slot))
  | .transmitting _, .connectionClosed =>
    some (.returns (.error .connectionClosed))
  | .transmitting .registered, .arrives a =>
    some (.stays (.transmitting (.resolved a)))
  | .awaiting .registered, .arrives a =>
    some (.stays (.awaiting (.resolved a)))
  -- a time-out and a dropped waiter both lead back to the token
  | .awaiting .registered, .timeout => some (.stays .head)
  | .awaiting .dropped, .advance => some (.stays .head)
  | .awaiting (.resolved a), .advance => some (.returns (.ok a))
  | _, _ => none

/-- `cancel_job` drops the waiter. -/
def Request.drop {α : Type} : Request α → Request α
  | .transmitting .registered => .transmitting .dropped
  | .awaiting .registered => .awaiting .dropped
  | request => request

/-! ## One output -/

/-- `ArtifactUpload`, the ticket. -/
structure ArtifactUpload where
  requestId : String
  artifactId : String
  upload : PresignedRequest
  deriving DecidableEq, Repr

/-- `ArtifactReady`, as far as the upload reads it. -/
structure ArtifactReady where
  requestId : String
  sizeBytes : Nat
  deriving DecidableEq, Repr

/-- `HttpFailure`: its text and whether it may be tried again. -/
structure HttpFailure where
  transient : Bool
  text : String
  deriving DecidableEq, Repr

/-- `ARTIFACT_PUT_MAX_ATTEMPTS`. -/
def artifactPutMaxAttempts : Nat := 3

/-- `PRESIGNED_REQUEST_EXPIRY_GUARD`, in milliseconds. -/
def presignedRequestExpiryGuard : Int := 1000

/-- Where `upload_output` stands. -/
inductive Place where
  | view
  | delay (ready : ArtifactReady) (attempt : Nat) (artifactId : Option String)
  | ticket (ready : ArtifactReady) (attempt : Nat)
      (artifactId : Option String) (request : Request ArtifactUpload)
  | opening (ready : ArtifactReady) (attempt : Nat) (ticket : ArtifactUpload)
  | put (ready : ArtifactReady) (attempt : Nat) (ticket : ArtifactUpload)
  | confirm (artifactId : String) (request : Request Unit)
  deriving DecidableEq, Repr

/-- What an upload meets. -/
inductive UploadAct where
  /-- ComfyUI's response is in the file, under a new request id -/
  | viewed (requestId : String) (result : Except RuntimeError Nat)
  | slept
  | hub (answer : Answer ArtifactUpload)
  /-- the clock, and the size of the file or the error of opening it -/
  | opened (now : Int) (file : Except String Nat)
  | put (result : Except HttpFailure Unit)
  | ack (answer : Answer Unit)
  /-- `select!` takes the branch of the token -/
  | cancelled

/-- The checks of a ticket in `upload_file_with_retry`. -/
def ticketed (ready : ArtifactReady) (attempt : Nat)
    (artifactId : Option String) (ticket : ArtifactUpload) :
    Outcome Place Unit :=
  if ticket.requestId ≠ ready.requestId then
    .returns (.error (.artifact "Hub returned an upload ticket for a different request"))
  else if artifactId.any fun expected => expected ≠ ticket.artifactId then
    .returns (.error (.artifact "Hub changed the artifact id while refreshing an upload ticket"))
  else .stays (.opening ready attempt ticket)

/-- A failed attempt: the next one, or the error. -/
def failedPut (ready : ArtifactReady) (attempt : Nat)
    (ticket : ArtifactUpload) (failure : HttpFailure) : Outcome Place Unit :=
  if failure.transient ∧ attempt < artifactPutMaxAttempts then
    .stays (.delay ready (attempt + 1) (some ticket.artifactId))
  else .returns (.error (.http failure.text))

/-- The failure of `artifact_put_request_timeout`. -/
def ticketExpired (attempt : Nat) : HttpFailure where
  transient := true
  text := "operation=artifact_put class=ticket_expired transient=true attempts="
    ++ Nat.repr attempt ++ " caused_by=[presigned upload ticket is expired or "
    ++ "too close to expiry]"

/-- `validate_presigned`. -/
def validatePresigned (request : PresignedRequest) (method : String)
    (now : Int) : Except RuntimeError Unit :=
  if request.method ≠ method then
    .error (.artifact ("presigned request method must be " ++ method))
  else if blank request.url then
    .error (.artifact "presigned request URL is empty")
  else if request.expiresAtUnixMs ≤ now then
    .error (.artifact "presigned request has expired")
  else .ok ()

/-- `upload_file_once` up to the transfer. -/
def openUpload (ready : ArtifactReady) (attempt : Nat)
    (ticket : ArtifactUpload) (now : Int) (file : Except String Nat) :
    Outcome Place Unit :=
  if ticket.upload.expiresAtUnixMs - now ≤ presignedRequestExpiryGuard then
    failedPut ready attempt ticket (ticketExpired attempt)
  else
    match validatePresigned ticket.upload "PUT" now with
    | .error e => .returns (.error e)
    | .ok () =>
      match file with
      | .error text => .returns (.error (.io text))
      | .ok size =>
        if size ≠ ready.sizeBytes then
          .returns (.error (.artifact "output file size changed before upload"))
        else .stays (.put ready attempt ticket)

/-- One move of `upload_output`. -/
def uploadStep (cancelled : Bool) : Place → UploadAct → Option (Outcome Place Unit)
  | .view, .viewed requestId (.ok size) =>
    some (.stays (.ticket ⟨requestId, size⟩ 1 none .head))
  | .view, .viewed _ (.error e) => some (.returns (.error e))
  -- every attempt asks for a new ticket of the same artifact
  | .delay ready attempt artifactId, .slept =>
    some (.stays (.ticket ready attempt artifactId .head))
  | .delay _ _ _, .cancelled =>
    if cancelled then some (.returns (.error .cancelled)) else none
  | .ticket ready attempt artifactId request, .hub answer =>
    (request.step cancelled answer).map fun
      | .stays r => .stays (.ticket ready attempt artifactId r)
      | .returns (.ok ticket) => ticketed ready attempt artifactId ticket
      | .returns (.error e) => .returns (.error e)
  | .ticket _ _ _ _, .cancelled =>
    if cancelled then some (.returns (.error .cancelled)) else none
  | .opening ready attempt ticket, .opened now file =>
    some (openUpload ready attempt ticket now file)
  | .put _ _ ticket, .put (.ok ()) =>
    some (.stays (.confirm ticket.artifactId .head))
  | .put ready attempt ticket, .put (.error failure) =>
    some (failedPut ready attempt ticket failure)
  | .put _ _ _, .cancelled =>
    if cancelled then some (.returns (.error .cancelled)) else none
  | .confirm artifactId request, .ack answer =>
    -- `confirm_artifact` never asks the token
    (request.step false answer).map fun
      | .stays r => .stays (.confirm artifactId r)
      | .returns r => .returns r
  | _, _ => none

/-- `cancel_job` drops the waiters of the job. -/
def Place.drop : Place → Place
  | .ticket ready attempt artifactId request =>
    .ticket ready attempt artifactId request.drop
  | .confirm artifactId request => .confirm artifactId request.drop
  | place => place

/-! ## The worker -/

/-- The runner, and the upload of the first of its remaining outputs. -/
structure Worker where
  runner : RunnerState
  upload : Place
  deriving DecidableEq, Repr

/-- What happens next. -/
inductive Act where
  | runner (a : Runner.Act)
  | upload (a : UploadAct)
  | cancelJob
  | redispatch (dispatch : DispatchJob)

/-- The runner's own moves, less the end of an upload. -/
def own : Runner.Act → Bool
  | .cancelJob => false
  | .redispatch _ => false
  | .uploaded _ => false
  | _ => true

/-- The runner goes on once `upload_output` has returned. -/
def uploaded (s : Worker) : Outcome Place Unit → Option Worker
  | .stays place => some { s with upload := place }
  | .returns result =>
    (Runner.step s.runner (.uploaded result)).map fun r => ⟨r, .view⟩

/-- One move of the worker. -/
def step (s : Worker) : Act → Option Worker
  | .runner a =>
    if own a then (Runner.step s.runner a).map fun r => ⟨r, .view⟩
    else none
  | .upload a =>
    match s.runner.pc with
    | .outputs _ (_ :: _) =>
      (uploadStep s.runner.cancelled s.upload a).bind (uploaded s)
    | _ => none
  | .cancelJob =>
    (Runner.step s.runner .cancelJob).map fun r => ⟨r, s.upload.drop⟩
  | .redispatch dispatch =>
    (Runner.step s.runner (.redispatch dispatch)).map fun r =>
      ⟨r, s.upload⟩

/-- `execute` is called on a record the journal holds. -/
def start (record : JobRecord) : Worker := ⟨Runner.start record, .view⟩

/-- `CommandAck`. -/
structure CommandAck where
  accepted : Bool
  message : String
  deriving DecidableEq, Repr

/-- `handle_hub_message` on a `CancelJob`: the job is registered until
    `execute` has returned, and else the journal is asked. -/
def cancelAck (s : Worker) : CommandAck :=
  let known := decide (s.runner.pc ≠ .returned)
    || !s.runner.row.state.isTerminal
  ⟨known, if known then "" else "job is unknown"⟩

/-- The state `execute` has left in the journal. -/
def outcome (s : Worker) : Option JobState :=
  if s.runner.pc = .returned then some s.runner.row.state else none

/-- The cancellation is refused, and what happens afterwards leads to the
    outcome it leads to without the cancellation. -/
def Ineffective (s : Worker) (acts : List Act) : Prop :=
  (cancelAck s).accepted = false
    ∧ outcome (play step s (.cancelJob :: acts)) = outcome (play step s acts)

/-! ## The worker refines the runner -/

variable {s : Worker}

/-- A move of the worker is a move of the runner, or the runner waits. -/
theorem refines {t : Worker} {a : Act} (h : step s a = some t) :
    t.runner = s.runner ∨ ∃ b, Runner.step s.runner b = some t.runner := by
  cases a with rw [step] at h
  | runner a =>
    split at h
    · obtain ⟨r, hr, rfl⟩ := map_eq_some_iff.mp h
      exact .inr ⟨a, hr⟩
    · cases h
  | upload a =>
    split at h
    · obtain ⟨o, -, ho⟩ := bind_eq_some_iff.mp h
      cases o with
      | stays place =>
        cases ho
        exact .inl rfl
      | returns result =>
        obtain ⟨r, hr, rfl⟩ := map_eq_some_iff.mp ho
        exact .inr ⟨.uploaded result, hr⟩
    · cases h
  | cancelJob =>
    obtain ⟨r, hr, rfl⟩ := map_eq_some_iff.mp h
    exact .inr ⟨.cancelJob, hr⟩
  | redispatch d =>
    obtain ⟨r, hr, rfl⟩ := map_eq_some_iff.mp h
    exact .inr ⟨.redispatch d, hr⟩

/-- What every move of the runner keeps, the worker keeps. -/
theorem inv_of_refines {I : RunnerState → Prop}
    (hstep : ∀ r b r', I r → Runner.step r b = some r' → I r') {t : Worker}
    {a : Act} (hI : I s.runner) (h : step s a = some t) :
    I t.runner := by
  rcases refines h with hsame | ⟨b, hb⟩
  · rw [hsame]
    exact hI
  · exact hstep _ b _ hI hb

/-! ## An upload that still needs a ticket fails -/

/-- The waiter holds no answer. -/
def Slot.empty {α : Type} : Slot α → Bool
  | .resolved _ => false
  | _ => true

/-- The loop has no answer yet. -/
def Request.unanswered {α : Type} : Request α → Bool
  | .head => true
  | .transmitting slot => slot.empty
  | .awaiting slot => slot.empty

/-- The output still needs a ticket. -/
def needsTicket : Place → Bool
  | .view => true
  | .delay _ _ _ => true
  | .ticket _ _ _ request => request.unanswered
  | _ => false

/-- The output still needs a ticket, and no answer can bring one. -/
def lacksTicket : Place → Bool
  | .ticket _ _ _ (.transmitting .registered) => false
  | .ticket _ _ _ (.awaiting .registered) => false
  | place => needsTicket place

variable {place : Place}

theorem lacksTicket_drop (h : needsTicket place = true) : lacksTicket place.drop = true := by
  cases place with
  | view | delay ready n id => rfl
  | ticket ready n id request =>
    cases request with
    | head => rfl
    | transmitting slot | awaiting slot =>
      cases slot with
      | resolved a => cases h
      | _ => rfl
  | _ => cases h

theorem needsTicket_of_lacks (h : lacksTicket place = true) : needsTicket place = true := by
  unfold lacksTicket at h
  split at h
  · cases h
  · cases h
  · exact h

/-- The upload goes on without a ticket or ends with an error. -/
def Fails : Outcome Place Unit → Prop
  | .stays place => lacksTicket place = true
  | .returns result => ∃ e, result = .error e

/-- The loop goes on without an answer or ends with an error: its head
    refuses, and a dropped waiter leads back to the head. -/
theorem lacks_request {request : Request ArtifactUpload}
    {answer : Answer ArtifactUpload}
    {o : Outcome (Request ArtifactUpload) ArtifactUpload}
    (h : request = .head ∨ request = .transmitting .dropped ∨ request = .awaiting .dropped)
    (hstep : request.step true answer = some o) :
    (∃ e, o = .returns (.error e)) ∨ o = .stays .head ∨ o = .stays (.awaiting .dropped) := by
  rcases h with rfl | rfl | rfl
  · cases answer with
    | advance => exact .inl ⟨.cancelled, (some.inj hstep).symm⟩
    | _ => cases hstep
  · cases answer with
    | transmit => exact .inr (.inr (some.inj hstep).symm)
    | connectionClosed =>
      exact .inl ⟨.connectionClosed, (some.inj hstep).symm⟩
    | _ => cases hstep
  · cases answer with
    | advance => exact .inr (.inl (some.inj hstep).symm)
    | _ => cases hstep

theorem lacksTicket_ticket {ready : ArtifactReady} {n : Nat}
    {id : Option String} {request : Request ArtifactUpload}
    (h : lacksTicket (.ticket ready n id request) = true) :
    request = .head ∨ request = .transmitting .dropped ∨ request = .awaiting .dropped := by
  cases request with
  | head => exact .inl rfl
  | transmitting slot =>
    cases slot with
    | dropped => exact .inr (.inl rfl)
    | _ => cases h
  | awaiting slot =>
    cases slot with
    | dropped => exact .inr (.inr rfl)
    | _ => cases h

/-- With the token set, an upload without a ticket never gets one. -/
theorem fails_uploadStep {a : UploadAct} {o : Outcome Place Unit} (h : lacksTicket place = true)
    (hstep : uploadStep true place a = some o) : Fails o := by
  have hend : some (.returns (.error .cancelled)) = some o → Fails o := by
    intro ho
    cases ho
    exact ⟨.cancelled, rfl⟩
  cases place with
  | view =>
    cases a with
    | viewed requestId result =>
      cases result with cases hstep
      | ok size =>
        exact rfl
      | error e =>
        exact ⟨e, rfl⟩
    | _ => cases hstep
  | delay ready n id =>
    cases a with
    | slept =>
      cases hstep
      exact rfl
    | cancelled => exact hend hstep
    | _ => cases hstep
  | ticket ready n id request =>
    cases a with
    | cancelled => exact hend hstep
    | hub answer =>
      obtain ⟨r, hr, rfl⟩ := map_eq_some_iff.mp hstep
      rcases lacks_request (lacksTicket_ticket h) hr with
        ⟨e, rfl⟩ | rfl | rfl
      · exact ⟨e, rfl⟩
      · exact rfl
      · exact rfl
    | _ => cases hstep
  | _ => cases h

/-- What the cancellation has made of the job: the output cannot be uploaded,
    and the error leads to `Failed`. -/
def Lost (s : Worker) : Prop :=
  match s.runner.pc with
  | .outputs _ (_ :: _) =>
    s.runner.row.state = .uploading ∧ lacksTicket s.upload = true
  | .failed _ => s.runner.row.state = .uploading
  | .emit u .final => s.runner.row.state = .uploading ∧ u.kind = .failed ∧ u.state = .failed
  | .sending e .final .head => s.runner.row.state = .failed ∧ e.kind = .failed
  | .returned => s.runner.row.state = .failed
  | _ => False

/-- The invariant of a job whose upload is lost. -/
structure Doomed (s : Worker) : Prop where
  inv : Runner.Inv True True s.runner
  cancelled : s.runner.cancelled = true
  record : s.runner.record.state = .uploading
  lost : Lost s

section Doomed

variable {s t : Worker} {r : RunnerState}

theorem Doomed.inv_runner {a : Runner.Act} (h : Doomed s)
    (hstep : Runner.step s.runner a = some r) : Runner.Inv True True r :=
  inv_step h.inv (fun _ => trivial) (fun _ => trivial) hstep

/-- The error of an uploading job is reported as `Failed`. -/
theorem finalUpdate_uploading {x : RunnerState}
    (h : x.record.state = .uploading) (error : RuntimeError) :
    (finalUpdate x error).kind = .failed ∧ (finalUpdate x error).state = .failed := by
  rw [finalUpdate, if_neg fun hc => hc.2 h]
  exact ⟨rfl, rfl⟩

/-- The journal takes the `Failed` event: its sequence is new. -/
theorem sendJobEvent_failed {x : RunnerState} {u : EventUpdate}
    {unixMs : Int} (hinv : Runner.Inv True True x)
    (hrow : x.row.state = .uploading) (hu : u.state = .failed) :
    ∃ row, row.state = .failed ∧ sendJobEvent { x with sequence := saturatingSucc x.sequence }
          (emitted x u unixMs) (some u.state) .final
        = { x with
          sequence := saturatingSucc x.sequence
          row := row
          pc := .sending (emitted x u unixMs) .final .head } := by
  have hlt : x.row.eventSequence < (emitted x u unixMs).sequence :=
    Nat.lt_of_le_of_lt hinv.sequence_le (clampI64_lt_saturatingSucc x.sequence)
  have hcan : x.row.state.canTransitionTo u.state = true := by
    rw [hrow, hu]
    rfl
  exact ⟨_, hu, by rw [sendJobEvent, setPendingEvent_of_lt hlt hcan]⟩

/-- The runner's own moves. -/
theorem doomed_own {a : Runner.Act} (h : Doomed s)
    (hown : own a = true) (hstep : Runner.step s.runner a = some r) :
    Doomed ⟨r, .view⟩ := by
  have hinv := h.inv_runner hstep
  have hmove : move s.runner s.runner.pc a = some r := by
    cases a with
    | cancelJob | redispatch d => cases hown
    | _ => exact hstep
  have hc : r.cancelled = true :=
    (extends_move hmove).2.trans h.cancelled
  have hlost := h.lost
  unfold Lost at hlost
  split at hlost
  · next p o rest hpc =>
    rw [hpc] at hmove
    cases a with
    | uploaded result => cases hown
    | _ => cases hmove
  · next error hpc =>
    rw [hpc] at hmove
    cases a with
    | advance =>
      cases hmove
      exact ⟨hinv, hc, h.record, hlost, finalUpdate_uploading h.record error⟩
    | _ => cases hmove
  · next u hpc =>
    rw [hpc] at hmove
    cases a with
    | emit unixMs =>
      obtain ⟨row, hrow, heq⟩ := sendJobEvent_failed h.inv hlost.1 hlost.2.2
      obtain rfl := heq.symm.trans (some.inj hmove)
      exact ⟨hinv, hc, h.record, hrow, hlost.2.1⟩
    | _ => cases hmove
  · next e hpc =>
    rw [hpc] at hmove
    cases a with
    | advance =>
      have hcan : cancellable e = true := by
        rw [cancellable, hlost.2]
        rfl
      rw [move, if_pos ⟨hcan, h.cancelled⟩] at hmove
      cases hmove
      exact ⟨hinv, hc, h.record, hlost.1⟩
    | _ => cases hmove
  · next hpc =>
    rw [hpc] at hmove
    cases a with
    | _ => cases hmove
  · exact hlost.elim

/-- `Lost` reads the place, the state of the row and the upload. -/
theorem Lost.congr (h : Lost s) (hpc : t.runner.pc = s.runner.pc)
    (hrow : t.runner.row.state = s.runner.row.state)
    (hupload : lacksTicket s.upload = true → lacksTicket t.upload = true) :
    Lost t := by
  unfold Lost at h ⊢
  rw [hpc, hrow]
  split at h
  · exact ⟨h.1, hupload h.2⟩
  · exact h
  · exact h
  · exact h
  · exact h
  · exact h.elim

/-- A lost job has no waiter to drop. -/
theorem dropWaiter_lost (h : Lost s) : dropWaiter s.runner.pc = s.runner.pc := by
  unfold Lost at h
  split at h
  all_goals first
    | next hpc => rw [hpc]; rfl
    | exact h.elim

theorem doomed_cancelJob (h : Doomed s) (hstep : Runner.step s.runner .cancelJob = some r) :
    Doomed ⟨r, s.upload.drop⟩ := by
  have hinv := h.inv_runner hstep
  have hdrop : lacksTicket s.upload = true → lacksTicket s.upload.drop = true :=
    fun hl => lacksTicket_drop (needsTicket_of_lacks hl)
  rw [Runner.step] at hstep
  split at hstep
  · cases hstep
    exact ⟨hinv, h.cancelled, h.record, h.lost.congr rfl rfl hdrop⟩
  · cases hstep
    exact ⟨hinv, rfl, h.record, h.lost.congr (dropWaiter_lost h.lost) rfl hdrop⟩

theorem doomed_redispatch {d : DispatchJob} (h : Doomed s)
    (hstep : Runner.step s.runner (.redispatch d) = some r) :
    Doomed ⟨r, s.upload⟩ := by
  have hinv := h.inv_runner hstep
  rw [Runner.step] at hstep
  split at hstep
  · next row hrow =>
    cases hstep
    exact ⟨hinv, h.cancelled, h.record, h.lost.congr rfl (redispatch_frame hrow).1 id⟩
  · cases hstep
    exact h

/-- The upload goes on, or its error is the runner's. -/
theorem doomed_upload {a : UploadAct} {p : String} {o : OutputRef}
    {rest : List OutputRef} (h : Doomed s)
    (hpc : s.runner.pc = .outputs p (o :: rest))
    (hstep : (uploadStep s.runner.cancelled s.upload a).bind (uploaded s) = some t) : Doomed t := by
  have hlost := h.lost
  rw [Lost, hpc] at hlost
  obtain ⟨x, hx, hstep⟩ := bind_eq_some_iff.mp hstep
  rw [h.cancelled] at hx
  have hfails := fails_uploadStep hlost.2 hx
  cases x with
  | stays place =>
    cases hstep
    refine ⟨h.inv, h.cancelled, h.record, ?_⟩
    rw [Lost, hpc]
    exact ⟨hlost.1, hfails⟩
  | returns result =>
    obtain ⟨e, rfl⟩ := hfails
    obtain ⟨r, hr, rfl⟩ := map_eq_some_iff.mp hstep
    have hinv := h.inv_runner hr
    have hmove : move s.runner s.runner.pc (.uploaded (.error e)) = some r := hr
    rw [hpc] at hmove
    cases hmove
    exact ⟨hinv, h.cancelled, h.record, hlost.1⟩

theorem doomed_step {a : Act} (h : Doomed s) (hstep : step s a = some t) : Doomed t := by
  cases a with rw [step] at hstep
  | runner a =>
    split at hstep
    · next hown =>
      obtain ⟨r, hr, rfl⟩ := map_eq_some_iff.mp hstep
      exact doomed_own h hown hr
    · cases hstep
  | upload a =>
    split at hstep
    · next p o rest hpc => exact doomed_upload h hpc hstep
    · cases hstep
  | cancelJob =>
    obtain ⟨r, hr, rfl⟩ := map_eq_some_iff.mp hstep
    exact doomed_cancelJob h hr
  | redispatch d =>
    obtain ⟨r, hr, rfl⟩ := map_eq_some_iff.mp hstep
    exact doomed_redispatch h hr

/-- **A LOST UPLOAD FAILS**: whatever happens, `execute` leaves the job
    `Failed` or does not return. -/
theorem doomed_fails (h : Doomed s) (acts : List Act) : outcome (play step s acts) = some .failed
      ∨ outcome (play step s acts) = none := by
  have hend : Doomed (play step s acts) :=
    inv_play (fun _ _ _ hd hs => doomed_step hd hs) acts s h
  rw [outcome]
  split
  · next hpc =>
    have hlost := hend.lost
    rw [Lost, hpc] at hlost
    exact .inl (congrArg some hlost)
  · exact .inr rfl

/-- A cancellation dooms every upload that still needs a ticket. -/
theorem doomed_of_cancel {p : String} {o : OutputRef}
    {rest : List OutputRef} (hinv : Runner.Inv True True s.runner)
    (hpc : s.runner.pc = .outputs p (o :: rest))
    (hneeds : needsTicket s.upload = true)
    (hstep : step s .cancelJob = some t) : Doomed t := by
  obtain ⟨r, hr, rfl⟩ := map_eq_some_iff.mp hstep
  have hcontrol := hinv.at hpc
  have hinv' := inv_step hinv (fun _ => trivial) (fun _ => trivial) hr
  rw [Runner.step, hpc, if_neg (by simp)] at hr
  cases hr
  exact ⟨hinv', rfl, hcontrol.1, hcontrol.2, lacksTicket_drop hneeds⟩

end Doomed

/-- The runner's invariant in every state of a run. -/
theorem inv_of_run {record : JobRecord} (hwf : WellFormed record)
    (hlive : record.state.isTerminal = false) {acts : List Act}
    (hrun : run step (start record) acts = some s) :
    Runner.Inv True True s.runner := by
  refine inv_run (I := fun t : Worker => Runner.Inv True True t.runner)
    (fun r a t hr hstep => ?_) (inv_start hwf hlive) hrun
  exact inv_of_refines (I := Runner.Inv True True)
    (fun _ _ _ hi hs => inv_step hi (fun _ => trivial) (fun _ => trivial) hs) hr hstep

/-- **NO CANCELLATION IS INEFFECTIVE**: in every run of `execute`, a `CancelJob` that finds the
    journal `Uploading` is accepted, whatever happens before and afterwards; and if the output under
    way still needs a ticket, the job does not complete any more. -/
theorem cancel_never_ineffective {record : JobRecord}
    (hwf : WellFormed record) (hlive : record.state.isTerminal = false)
    {before : List Act} {s : Worker}
    (hrun : run step (start record) before = some s)
    (hrow : s.runner.row.state = .uploading) (acts : List Act) :
    ¬ Ineffective s acts ∧ (∀ p o rest, s.runner.pc = .outputs p (o :: rest) →
        needsTicket s.upload = true →
        outcome (play step s (.cancelJob :: acts)) = some .failed
          ∨ outcome (play step s (.cancelJob :: acts)) = none) := by
  constructor
  · rintro ⟨hack, -⟩
    rw [cancelAck, hrow] at hack
    simp [JobState.isTerminal] at hack
  intro p o rest hpc hneeds
  cases hstep : step s .cancelJob with
  | none =>
    rw [step, Runner.step, hpc, if_neg (by simp)] at hstep
    cases hstep
  | some t =>
    have hplay : play step s (.cancelJob :: acts) = play step t acts := by
      show play step ((step s .cancelJob).getD s) acts = _
      rw [hstep]
      rfl
    rw [hplay]
    exact doomed_fails (doomed_of_cancel (inv_of_run hwf hlive hrun) hpc hneeds hstep) acts

/-- A job that runs. -/
def runningRecord : JobRecord where
  dispatch := ⟨"command", "job", 1, "workflow", "1", .object [], []⟩
  state := .running
  promptId := some "prompt"
  eventSequence := 2
  pendingEvent := none

theorem runningRecord_wellFormed : WellFormed runningRecord where
  pending_sequence := nofun
  sequence_le := by decide
  notQueued := nofun

/-- ComfyUI has made one output, and the Hub knows that it is uploaded. -/
def untilUploading : List Act :=
  [.runner .advance, .runner .advance, .runner .permit, .runner .advance,
    .runner .advance, .runner .advance,
    .runner (.waited (.ok [⟨"image.png", "", "output", "image/png"⟩])),
    .runner (.emit 10), .runner .advance, .runner .transmit, .runner .ack,
    .runner .advance, .runner (.outputDir (.ok ()))]

/-- The worker in front of its first output. -/
def uploadingWorker : Worker :=
  play step (start runningRecord) untilUploading

/-- A ticket for the output. -/
def sampleTicket : ArtifactUpload :=
  ⟨"request", "artifact", ⟨"PUT", "signed-put", [], 100000⟩⟩

/-- ComfyUI, the Hub and the object store answer everything. -/
def everythingWorks : List Act :=
  [.upload (.viewed "request" (.ok 5)), .upload (.hub .advance),
    .upload (.hub .transmit), .upload (.hub (.arrives sampleTicket)),
    .upload (.hub .advance), .upload (.opened 20 (.ok 5)),
    .upload (.put (.ok ())), .upload (.ack .advance),
    .upload (.ack .transmit), .upload (.ack (.arrives ())),
    .upload (.ack .advance), .runner .advance, .runner (.emit 30),
    .runner .advance, .runner .transmit, .runner .ack, .runner .advance]

/-- The cancellation is accepted, and the upload is lost. -/
theorem uploadingWorker_cancelled : uploadingWorker.runner.row.state = .uploading
      ∧ ¬ Ineffective uploadingWorker everythingWorks := by
  have hrun : run step (start runningRecord) untilUploading = some uploadingWorker := rfl
  exact ⟨rfl, (cancel_never_ineffective runningRecord_wellFormed rfl hrun rfl everythingWorks).1⟩

/-- Without the cancellation the job completes, with it the same answers end
    in `Failed`; and the worker has accepted it. -/
theorem cancelledUpload_fails : (cancelAck uploadingWorker).accepted = true
      ∧ outcome (play step uploadingWorker everythingWorks) = some .completed
      ∧ outcome (play step uploadingWorker (.cancelJob :: everythingWorks)) = some .failed
      ∧ ¬ Ineffective uploadingWorker everythingWorks := by
  refine ⟨rfl, rfl, rfl, ?_⟩
  rintro ⟨hack, -⟩
  cases hack

end WorkerUpload
