import NagisaLake.AdmissionProofs

/-! # New logins — which actor an idempotency key belongs to

A browser session is a row of its own, and `authenticate` makes its id the
`actor_id` of the principal.  The two endpoints that admit work then scope
an idempotency key differently: `submit_job_for_principal` replaces the
session by its user, `create_batch` keeps the session.

Records are never taken back (`kept_run`), so a key that was used in one
session still answers in the other exactly when both write it under the
same actor (`relogin_iff`). -/

namespace Logins

open Jobs KeyedTable Transactions HubStore Admission Runs
open Uploads (HubError)

/-! ## Authentication -/

/-- `Role`. -/
inductive Role where
  | viewer
  | member
  | operator
  | admin
  | owner
  deriving DecidableEq, Repr

/-- `Role::rank`. -/
def Role.rank : Role → Nat
  | .viewer => 0
  | .member => 1
  | .operator => 2
  | .admin => 3
  | .owner => 4

/-- The two of `Permission` that admitting work asks for. -/
inductive Permission where
  | jobsWrite
  | devicesUse
  deriving DecidableEq, Repr

/-- `Permission::scope`. -/
def Permission.scope : Permission → String
  | .jobsWrite => "jobs:write"
  | .devicesUse => "devices:use"

/-- `Role::allows`. -/
def Role.allows (role : Role) : Permission → Bool
  | .jobsWrite | .devicesUse => decide (Role.member.rank ≤ role.rank)

/-- `PrincipalKind`. -/
inductive PrincipalKind where
  | browserSession
  | apiKey
  | workerCredential
  | legacyToken
  deriving DecidableEq, Repr

/-- `principal_kind_name` and `auth_kind`. -/
def principalKindName : PrincipalKind → String
  | .browserSession => "browser_session"
  | .apiKey => "api_key"
  | .workerCredential => "worker_credential"
  | .legacyToken => "legacy_token"

/-- `Principal`. -/
structure Actor where
  kind : PrincipalKind
  actorId : String
  userId : Option String
  organizationId : String
  role : Role
  scopes : List String
  deriving DecidableEq, Repr

/-- `Principal::allows`. -/
def Actor.allows (actor : Actor) (permission : Permission) : Bool :=
  actor.role.allows permission && (decide (actor.kind ≠ .apiKey)
      || decide (permission.scope ∈ actor.scopes))

/-- What the admission handlers read of a principal. -/
def Actor.principal (actor : Actor) : Admission.Principal where
  organizationId := actor.organizationId
  userId := actor.userId
  devicesUse := actor.allows .devicesUse

/-- A row of the browser sessions. -/
structure BrowserSession where
  id : String
  userId : String
  organizationId : String
  accessExpiresAt : Int
  revokedAt : Option Int
  deriving DecidableEq, Repr

/-- A request made with the token of a browser session. -/
structure Login where
  session : BrowserSession
  /-- The header `x-organization-id`. -/
  requested : Option String
  /-- `membership` of the user in the organization. -/
  membership : Option Role
  now : Int
  deriving DecidableEq, Repr

/-- The organization the request is for. -/
def Login.organization (login : Login) : String :=
  login.requested.getD login.session.organizationId

/-- `authenticate`, for a token of a browser session. -/
def authenticate (login : Login) : Except HubError Actor :=
  if login.session.revokedAt.isSome
      ∨ login.session.accessExpiresAt ≤ login.now then
    .error (.unauthorized "browser session is expired or revoked")
  else match login.membership with
    | none => .error (.forbidden "user is not an organization member")
    | some role => .ok {
        kind := .browserSession
        actorId := login.session.id
        userId := some login.session.userId
        organizationId := login.organization
        role := role
        scopes := [] }

/-- `authorize_current`. -/
def authorizeCurrent (login : Login) (permission : Permission) : Except HubError Actor :=
  (authenticate login).bind fun actor =>
  if actor.allows permission then .ok actor
  else .error (.forbidden ("missing permission " ++ permission.scope))

/-! ## The two endpoints -/

/-- The body of a request, by endpoint. -/
inductive Body where
  | job (request : SubmitJobRequest)
  | batch (request : CreateBatchApiRequest)

/-- What the rest of the Hub contributes to a request. -/
structure Surroundings where
  rateLimit : Except HubError Unit
  answers : DeviceAnswers
  batchId : Uuid
  jobIds : Nat → Uuid
  jobId : Uuid
  accessible : Except HubError Unit
  artifact : String → Option ArtifactRow
  signer : Signer
  reserved : Option ReservedWorker
  admission : Except StoreError Unit
  now : Int

/-- `str::trim`. -/
def trim (text : String) : String :=
  String.ofList ((text.toList.dropWhile isWhitespace).reverse.dropWhile isWhitespace).reverse

/-- The idempotency key of a job: the header without surrounding blanks, if anything is left. -/
def jobKey (header : String) : Option String :=
  if blank header then none else some (trim header)

/-- The actor `submit_job_for_principal` writes: a session stands for its user. -/
def jobActor (actor : Actor) : String :=
  if actor.kind = .browserSession then actor.userId.getD actor.actorId
  else actor.actorId

/-- The record of a job. -/
def jobRecord (actor : Actor) (key hash : String) (jobId : Uuid) :
    IdempotencyRow :=
  ⟨actor.organizationId, principalKindName actor.kind, jobActor actor,
    "/api/v1/jobs", key, hash, jobId.text⟩

/-- The record of a batch, under the `actor_id` as it is. -/
def batchRecord (actor : Actor) (key hash : String) (batchId : Uuid) :
    IdempotencyRow :=
  ⟨actor.organizationId, principalKindName actor.kind, actor.actorId,
    "/api/v1/job-batches", key, hash, batchId.text⟩

variable (hash : Body → String)

/-- `submit_job`; `hash` is `hash_secret` of the serialized request. -/
def submitJob (s : Store) (login : Login) (around : Surroundings)
    (q : SubmitJobRequest) (header : Option String) :
    Except HubError (Store × CommitResult) :=
  (authorizeCurrent login .jobsWrite).bind fun actor =>
  if actor.allows .devicesUse = false then
    .error (.forbidden "missing permission devices:use")
  else around.rateLimit.bind fun _ =>
  submitJobForPrincipal s actor.principal q around.jobId ((header.bind jobKey).map fun key =>
      jobRecord actor key (hash (.job q)) around.jobId)
    around.accessible around.artifact around.signer around.reserved
    around.admission around.now

/-- `create_batch`, with its record. -/
def submitBatch (s : Store) (login : Login) (around : Surroundings)
    (q : CreateBatchApiRequest) (header : Option String) :
    Except HubError (Store × CommitResult) :=
  (authorizeCurrent login .jobsWrite).bind fun actor =>
  createBatch s (.ok actor.principal) around.answers q around.batchId around.jobIds
    (header.map fun key =>
      batchRecord actor key (hash (.batch q)) around.batchId)
    around.admission around.now

/-- A request with its header `idempotency-key`. -/
def submit (s : Store) (login : Login) (around : Surroundings)
    (header : Option String) : Body → Except HubError (Store × CommitResult)
  | .job q => submitJob hash s login around q header
  | .batch q => submitBatch hash s login around q header

/-! ## Records are kept -/

/-- Every record of `s` is still there in `t`. -/
structure Kept (s t : Store) : Prop where
  jobs : ∀ k row, s.idempotency.find? k = some row → t.idempotency.find? k = some row
  batches : ∀ k row, s.batchIdempotency.find? k = some row → t.batchIdempotency.find? k = some row

variable {s t : Store} {adm : Except StoreError Unit} {batch : BatchRow}
  {now : Int} {ε : Type} {i : IdempotencyRow}

theorem kept_of_eq (hjobs : t.idempotency = s.idempotency)
    (hbatches : t.batchIdempotency = s.batchIdempotency) : Kept s t where
  jobs := fun _ _ h => hjobs ▸ h
  batches := fun _ _ h => hbatches ▸ h

theorem Kept.trans {u : Store} (hst : Kept s t) (htu : Kept t u) : Kept s u where
  jobs := fun k row h => htu.jobs k row (hst.jobs k row h)
  batches := fun k row h => htu.batches k row (hst.batches k row h)

variable {idem : Option IdempotencyRow} {login : Login} {actor : Actor}

/-- What `recordIdempotency` leaves in its table. -/
theorem recordIdempotency_ok {t u : Table _ IdempotencyRow IdempotencyRow.key}
    (h : recordIdempotency t idem = .ok u) :
    (∀ k row, t.find? k = some row → u.find? k = some row)
      ∧ ∀ i, idem = some i → t.find? i.key = none ∧ u.find? i.key = some i := by
  cases idem with
  | none =>
    cases h
    exact ⟨fun _ _ h => h, nofun⟩
  | some i =>
    have hins := insertOrFail_ok h
    refine ⟨fun k row hrow => Table.find?_insert_old hins hrow, ?_⟩
    intro i' hi
    cases hi
    refine ⟨(Table.insert_eq_some_iff.mp hins).1, ?_⟩
    rw [Table.find?_insert hins, if_pos rfl]

/-- A new job writes its record and keeps the others. -/
theorem records_commitNewJob {input : JobUpsert} {r : CommitResult}
    (h : commitNewJob s input idem adm = .ok (t, r)) :
    Kept s t ∧ (r = .created → ∀ i, idem = some i →
      s.idempotency.find? i.key = none ∧ t.idempotency.find? i.key = some i) := by
  rcases commitNewJob_ok h with ⟨rfl, hno⟩ | ⟨-, hjob⟩
  · exact ⟨kept_of_eq rfl rfl, fun hr => absurd hr hno⟩
  obtain ⟨hold, hnew⟩ := recordIdempotency_ok hjob.recorded
  refine ⟨⟨hold, fun k row hrow => ?_⟩, fun _ => hnew⟩
  rw [hjob.batchIdempotency]
  exact hrow

/-- A new batch writes its record and keeps the others. -/
theorem records_commitNewBatch {children : List BatchChildJob}
    {shared : List String} {r : CommitResult}
    (h : commitNewBatch s batch children shared idem adm now = .ok (t, r)) :
    Kept s t ∧ (r = .created → ∀ i, idem = some i →
      s.batchIdempotency.find? i.key = none ∧ t.batchIdempotency.find? i.key = some i) := by
  rcases commitNewBatch_ok h with ⟨rfl, hno⟩ | ⟨-, hbatch⟩
  · exact ⟨kept_of_eq rfl rfl, fun hr => absurd hr hno⟩
  obtain ⟨hold, hnew⟩ := recordIdempotency_ok hbatch.recorded
  refine ⟨⟨fun k row hrow => ?_, hold⟩, fun _ => hnew⟩
  rw [hbatch.idempotency]
  exact hrow

/-- **NO TRANSACTION TAKES A RECORD BACK**. -/
theorem kept_perform (s : Store) (op : StoreOp) : Kept s (perform s op) := by
  have hrefl : Kept s s := kept_of_eq rfl rfl
  cases hop : inserts op with
  | false =>
    have hbeside := beside_perform s hop
    exact kept_of_eq (congrArg Beside.idempotency hbeside)
      (congrArg Beside.batchIdempotency hbeside)
  | true =>
    cases op with
    | commitNewJob input idem adm =>
      exact inv_commit hrefl fun t r hok => (records_commitNewJob hok).1
    | commitNewBatch batch children shared idem adm now =>
      exact inv_commit hrefl fun t r hok => (records_commitNewBatch hok).1
    | _ => cases hop

/-- What no transaction takes back no run of them does. -/
theorem kept_run (h : Reachable HubStore.step s t) : Kept s t := by
  refine inv_reachable (I := Kept s) ?_ (kept_of_eq rfl rfl) h
  intro u op v hu hv
  cases hv
  exact hu.trans (kept_perform u op)

/-! ## With a key and without -/

/-- The answer without the state. -/
def answer {ε : Type} (x : Except ε (Store × CommitResult)) : Except ε CommitResult :=
  x.map Prod.snd

/-- The request has created its job or its batch. -/
def Creates {ε : Type} (x : Except ε (Store × CommitResult)) : Prop :=
  answer x = .ok .created

theorem creates_iff {x : Except ε (Store × CommitResult)} :
    Creates x ↔ ∃ t, x = .ok (t, .created) := by
  constructor
  · intro h
    obtain ⟨⟨t, r⟩, hx, hr⟩ := map_eq_ok h
    exact ⟨t, hr ▸ hx⟩
  · rintro ⟨t, rfl⟩
    rfl

theorem answer_mapError {δ : Type} (f : ε → δ) (x : Except ε (Store × CommitResult)) :
    answer (x.mapError f) = (answer x).mapError f := by
  cases x with
  | error e | ok a => rfl

/-- Two sequences that go on alike answer alike. -/
theorem answer_bind {α : Type} {x : Except ε α}
    {f g : α → Except ε (Store × CommitResult)}
    (h : ∀ a, x = .ok a → answer (f a) = answer (g a)) :
    answer (x.bind f) = answer (x.bind g) := by
  cases x with
  | error e => rfl
  | ok a => exact h a rfl

theorem answer_check {p : Prop} [Decidable p] {e : ε}
    {x y : Except ε (Store × CommitResult)} (h : answer x = answer y) :
    answer (if p then .error e else x) = answer (if p then .error e else y) := by
  split
  · rfl
  · exact h

theorem recordIdempotency_fresh
    {t : Table _ IdempotencyRow IdempotencyRow.key}
    (h : t.find? i.key = none) :
    ∃ u, recordIdempotency t (some i) = .ok u := by
  obtain ⟨u, hu⟩ := Table.exists_insert h
  exact ⟨u, by rw [recordIdempotency, insertOrFail, hu]⟩

theorem replayed_fresh {t : Table _ IdempotencyRow IdempotencyRow.key}
    (h : t.find? i.key = none) (conflict : String) :
    replayed t conflict (some i) = .ok none := by
  simp only [replayed, h]

/-- A key without a record does not change the answer. -/
theorem answer_commitNewJob (h : s.idempotency.find? i.key = none)
    (input : JobUpsert) (adm : Except StoreError Unit) :
    answer (commitNewJob s input (some i) adm) = answer (commitNewJob s input none adm) := by
  obtain ⟨records, hrecords⟩ := recordIdempotency_fresh h
  rw [commitNewJob, commitNewJob]
  simp only [replayed_fresh h]
  refine answer_bind fun found _ => ?_
  cases found with
  | some id => rfl
  | none =>
    refine answer_bind fun pu _ => answer_bind fun _ _ => answer_check ?_
    refine answer_bind fun s₁ hclaim => answer_bind fun jobs _ =>
      answer_bind fun outbox _ => ?_
    obtain rfl := claimInputs_ok hclaim
    simp only [hrecords]
    rfl

theorem answer_commitNewBatch (h : s.batchIdempotency.find? i.key = none)
    (batch : BatchRow) (children : List BatchChildJob) (shared : List String)
    (adm : Except StoreError Unit) (now : Int) :
    answer (commitNewBatch s batch children shared (some i) adm now)
      = answer (commitNewBatch s batch children shared none adm now) := by
  obtain ⟨records, hrecords⟩ := recordIdempotency_fresh h
  rw [commitNewBatch, commitNewBatch]
  simp only [replayed_fresh h]
  refine answer_bind fun found _ => ?_
  cases found with
  | some id => rfl
  | none =>
    refine answer_bind fun pu _ => answer_bind fun _ _ => answer_check
      (answer_check (answer_check ?_))
    split
    · rfl
    refine answer_bind fun batches _ => answer_bind fun t hchildren => ?_
    have hframe := (inserted_children hchildren).frame
    rw [hframe]
    simp only [hrecords]
    rfl

/-- A key that a creation needs to be unused, and that is not seen in the answer then. -/
theorem creates_iff_unused {x y : Except ε (Store × CommitResult)} {unused : Prop}
    (hcreated : ∀ t, x = .ok (t, .created) → unused) (hsame : unused → answer x = answer y) :
    Creates x ↔ unused ∧ Creates y := by
  constructor
  · intro h
    obtain ⟨t, ht⟩ := creates_iff.mp h
    have hunused := hcreated t ht
    exact ⟨hunused, (hsame hunused).symm.trans h⟩
  · rintro ⟨hunused, h⟩
    exact (hsame hunused).trans h

/-! ## The endpoints -/

/-- The actor of a login that may do it. -/
theorem authorizeCurrent_ok {permission : Permission}
    (h : authorizeCurrent login permission = .ok actor) :
    actor.kind = .browserSession ∧ actor.actorId = login.session.id
      ∧ actor.userId = some login.session.userId
      ∧ actor.organizationId = login.organization := by
  obtain ⟨a, ha, h⟩ := bind_eq_ok h
  have hactor : a = actor := by
    split at h
    · exact Except.ok.inj h
    · cases h
  subst hactor
  obtain ⟨-, ha⟩ := check_eq_ok ha
  split at ha
  · cases ha
  · cases ha
    exact ⟨rfl, rfl, rfl, rfl⟩

/-- Where `submit_job_for_principal` looks for the record of a login. -/
def jobScope (login : Login) (key : String) : String × String × String × String × String :=
  (login.organization, "browser_session", login.session.userId, "/api/v1/jobs", trim key)

/-- Where `create_batch` does. -/
def batchScope (login : Login) (key : String) : String × String × String × String × String :=
  (login.organization, "browser_session", login.session.id, "/api/v1/job-batches", key)

theorem jobRecord_key (h : authorizeCurrent login .jobsWrite = .ok actor)
    (key text : String) (jobId : Uuid) :
    (jobRecord actor (trim key) text jobId).key = jobScope login key := by
  obtain ⟨hkind, -, huser, horg⟩ := authorizeCurrent_ok h
  rw [jobRecord, IdempotencyRow.key, jobActor, if_pos hkind, hkind, huser, horg]
  rfl

theorem batchRecord_key (h : authorizeCurrent login .jobsWrite = .ok actor)
    (key text : String) (batchId : Uuid) :
    (batchRecord actor key text batchId).key = batchScope login key := by
  obtain ⟨hkind, hactor, -, horg⟩ := authorizeCurrent_ok h
  rw [batchRecord, IdempotencyRow.key, hkind, hactor, horg]
  rfl

section

variable {s t : Store} {login : Login} {around : Surroundings} {key : String}

variable {q : SubmitJobRequest}

/-- A created job has left its record. -/
theorem submitJob_created (hkey : blank key = false)
    (h : submitJob hash s login around q (some key) = .ok (t, .created)) :
    s.idempotency.find? (jobScope login key) = none
      ∧ ∃ row, t.idempotency.find? (jobScope login key) = some row := by
  obtain ⟨actor, hactor, h⟩ := bind_eq_ok h
  obtain ⟨-, h⟩ := check_eq_ok h
  obtain ⟨-, -, h⟩ := bind_eq_ok h
  rw [Option.bind_some, jobKey, hkey] at h
  obtain ⟨-, -, -, worker, hcommit⟩ := submitJobForPrincipal_ok h
  obtain ⟨hfresh, hrow⟩ := (records_commitNewJob hcommit).2 rfl _ rfl
  rw [jobRecord_key hactor] at hfresh hrow
  exact ⟨hfresh, _, hrow⟩

/-- A key the login has not used does not change the answer. -/
theorem answer_submitJob (hkey : blank key = false)
    (hfresh : s.idempotency.find? (jobScope login key) = none) :
    answer (submitJob hash s login around q (some key))
      = answer (submitJob hash s login around q none) := by
  refine answer_bind fun actor hactor => answer_check (answer_bind fun _ _ => ?_)
  rw [Option.bind_some, jobKey, hkey]
  rw [← jobRecord_key hactor key (hash (.job q)) around.jobId] at hfresh
  refine answer_check (answer_check (answer_check ?_))
  show answer (Except.bind (Except.mapError _
    (replayed s.idempotency _ (some (jobRecord actor (trim key) _ _)))) _) = _
  rw [replayed_fresh hfresh]
  refine answer_bind fun found _ => ?_
  cases found with
  | some id => rfl
  | none =>
    refine answer_bind fun _ _ => answer_bind fun inputs _ =>
      answer_bind fun _ _ => ?_
    cases around.reserved with
    | none => rfl
    | some worker =>
      refine answer_check ?_
      rw [answer_mapError, answer_mapError]
      exact congrArg _ (answer_commitNewJob hfresh _ _)

theorem createsJob_iff (hkey : blank key = false) :
    Creates (submitJob hash s login around q (some key))
      ↔ s.idempotency.find? (jobScope login key) = none
        ∧ Creates (submitJob hash s login around q none) :=
  creates_iff_unused (fun _ h => (submitJob_created hash hkey h).1) (answer_submitJob hash hkey)

/-- A created batch has left its record. -/
theorem submitBatch_created {q : CreateBatchApiRequest}
    (h : submitBatch hash s login around q (some key) = .ok (t, .created)) :
    s.batchIdempotency.find? (batchScope login key) = none
      ∧ ∃ row, t.batchIdempotency.find? (batchScope login key) = some row := by
  obtain ⟨actor, hactor, h⟩ := bind_eq_ok h
  obtain ⟨-, -, hcommit⟩ := createBatch_ok h
  obtain ⟨hfresh, hrow⟩ := (records_commitNewBatch hcommit).2 rfl _ rfl
  rw [batchRecord_key hactor] at hfresh hrow
  exact ⟨hfresh, _, hrow⟩

theorem answer_submitBatch {q : CreateBatchApiRequest}
    (hfresh : s.batchIdempotency.find? (batchScope login key) = none) :
    answer (submitBatch hash s login around q (some key))
      = answer (submitBatch hash s login around q none) := by
  refine answer_bind fun actor hactor => ?_
  rw [← batchRecord_key hactor key (hash (.batch q)) around.batchId] at hfresh
  refine answer_check (answer_check (answer_check ?_))
  refine answer_bind fun usable _ => answer_check (answer_bind fun device _ => ?_)
  cases device with
  | none => rfl
  | some capabilities =>
    refine answer_check (answer_check ?_)
    rw [answer_mapError, answer_mapError]
    exact congrArg _ (answer_commitNewBatch hfresh _ _ _ _ _)

theorem createsBatch_iff {q : CreateBatchApiRequest} :
    Creates (submitBatch hash s login around q (some key))
      ↔ s.batchIdempotency.find? (batchScope login key) = none
        ∧ Creates (submitBatch hash s login around q none) :=
  creates_iff_unused (fun _ h => (submitBatch_created hash h).1) (answer_submitBatch hash)

end

/-! ## Two logins -/

/-- What makes the second login find the first one's record: a job has one under the user unless its
    key is blank, a batch has one under the session. -/
def Settled (a b : Login) (key : String) (u : Store) : Body → Prop
  | .job _ => blank key = false
  | .batch _ => a.session.id = b.session.id ∨ (u.batchIdempotency.find? (batchScope b key)).isSome

section

variable {s u : Store} {a b : Login} {first second : Surroundings}
  {key : String}

theorem jobs_relogin {q : SubmitJobRequest} (huser : a.session.userId = b.session.userId)
    (horg : a.organization = b.organization)
    (hfirst : submitJob hash s a first q (some key) = .ok (t, .created))
    (hrun : Reachable HubStore.step t u) :
    ¬ Creates (submitJob hash u b second q (some key))
      ↔ blank key = false ∨ ¬ Creates (submitJob hash u b second q none) := by
  cases hkey : blank key with
  | true =>
    -- a blank header is no key, so the two submissions are the same
    have hsame : (some key).bind jobKey = none := by
      rw [Option.bind_some, jobKey, hkey]
      rfl
    rw [submitJob, hsame]
    exact ⟨.inr, fun h => h.resolve_left nofun⟩
  | false =>
    obtain ⟨-, row, hrow⟩ := submitJob_created hash hkey hfirst
    have hscope : jobScope a key = jobScope b key := by
      rw [jobScope, jobScope, huser, horg]
    rw [hscope] at hrow
    refine iff_of_true ?_ (.inl rfl)
    rw [createsJob_iff hash hkey, (kept_run hrun).jobs _ _ hrow]
    exact fun h => nomatch h.1

theorem batches_relogin {q : CreateBatchApiRequest} (horg : a.organization = b.organization)
    (hfirst : submitBatch hash s a first q (some key) = .ok (t, .created))
    (hrun : Reachable HubStore.step t u) :
    ¬ Creates (submitBatch hash u b second q (some key)) ↔ (a.session.id = b.session.id
          ∨ (u.batchIdempotency.find? (batchScope b key)).isSome)
        ∨ ¬ Creates (submitBatch hash u b second q none) := by
  obtain ⟨-, row, hrow⟩ := submitBatch_created hash hfirst
  have hsession (h : a.session.id = b.session.id) :
      (u.batchIdempotency.find? (batchScope b key)).isSome := by
    have hscope : batchScope a key = batchScope b key := by
      rw [batchScope, batchScope, h, horg]
    rw [← hscope, (kept_run hrun).batches _ _ hrow]
    rfl
  rw [or_iff_right_of_imp hsession, createsBatch_iff hash, not_and_or]
  refine or_congr_left ?_
  rw [Option.isSome_iff_ne_none]

/-- **A KEY AND A NEW LOGIN**: a second submission with the same key, by
    another login of the user, creates nothing exactly when the first one's
    record is settled for it, or it would have been refused without a key. -/
theorem relogin_iff {body : Body} (huser : a.session.userId = b.session.userId)
    (horg : a.organization = b.organization)
    (hrun : Reachable HubStore.step (commit s (submit hash s a first (some key) body)) u) :
    ¬ (Creates (submit hash s a first (some key) body)
        ∧ Creates (submit hash u b second (some key) body))
      ↔ (Creates (submit hash s a first (some key) body) → Settled a b key u body
            ∨ ¬ Creates (submit hash u b second none body)) := by
  rw [not_and]
  refine imp_congr_right fun hcreates => ?_
  obtain ⟨t, ht⟩ := creates_iff.mp hcreates
  rw [ht] at hrun
  cases body with
  | job q => exact jobs_relogin hash huser horg ht hrun
  | batch q => exact batches_relogin hash horg ht hrun

end

/-- A login of one user. -/
def sampleLogin (session : String) : Login where
  session := ⟨session, "user", "org", 1000, none⟩
  requested := none
  membership := some .member
  now := 0

/-- A batch of one job. -/
def sampleBatch : Body := .batch {
  workflowId := "flow"
  workflowVersion := "1"
  count := 1
  baseParameters := .object []
  items := []
  sharedInputArtifactIds := []
  deviceOrganizationId := some "org"
  deviceId := some "device" }

/-- A Hub that admits it under the given ids. -/
def sampleSurroundings (batchId jobId : Uuid) : Surroundings where
  rateLimit := .ok ()
  answers := ⟨.ok true, .ok (some (some [⟨"flow", "1", by decide, by decide⟩]))⟩
  batchId := batchId
  jobIds := fun _ => jobId
  jobId := jobId
  accessible := .ok ()
  artifact := fun _ => none
  signer := ⟨fun _ => .error "unsigned", fun _ _ h => nomatch h⟩
  reserved := none
  admission := .ok ()
  now := 0

/-- The store after the batch of the first login. -/
def afterFirstLogin : Store :=
  commit sampleStore (submit (fun _ => "hash") sampleStore (sampleLogin "a")
    (sampleSurroundings ⟨"b1", by decide⟩ ⟨"j1", by decide⟩) (some "key")
    sampleBatch)

/-- In one session the second submission creates nothing. -/
theorem relogin_one_session : Creates (submit (fun _ => "hash") sampleStore (sampleLogin "a")
        (sampleSurroundings ⟨"b1", by decide⟩ ⟨"j1", by decide⟩) (some "key")
        sampleBatch)
      ∧ ¬ (Creates (submit (fun _ => "hash") sampleStore (sampleLogin "a")
          (sampleSurroundings ⟨"b1", by decide⟩ ⟨"j1", by decide⟩)
          (some "key") sampleBatch)
        ∧ Creates (submit (fun _ => "hash") afterFirstLogin (sampleLogin "a")
          (sampleSurroundings ⟨"b2", by decide⟩ ⟨"j2", by decide⟩)
          (some "key") sampleBatch)) :=
  ⟨rfl, (relogin_iff _ rfl rfl ⟨[], rfl⟩).mpr fun _ =>
    .inl (.inl rfl)⟩

/-- **TWO SESSIONS, TWO BATCHES**: the record of the first stands under its session. -/
theorem relogin_two_batches : (sampleLogin "a").session.userId = (sampleLogin "b").session.userId
      ∧ Creates (submit (fun _ => "hash") sampleStore (sampleLogin "a")
        (sampleSurroundings ⟨"b1", by decide⟩ ⟨"j1", by decide⟩) (some "key")
        sampleBatch)
      ∧ Creates (submit (fun _ => "hash") afterFirstLogin (sampleLogin "b")
        (sampleSurroundings ⟨"b2", by decide⟩ ⟨"j2", by decide⟩) (some "key")
        sampleBatch) :=
  ⟨rfl, rfl, rfl⟩

end Logins
