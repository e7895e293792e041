import NagisaLake.AdmissionProofs

/-! # Dispatch — from a stored job to the worker's session

`dispatch_outbox_entry` reads a stored job and its inputs back and builds
the dispatch that goes to the worker's session.  The session ends when the
dispatch does not pass the protocol's checks or does not fit a frame; the
job is sent again on the next connection, which then ends as well.

Everything else the protocol asks of a dispatch has been checked before:
the inputs when they were uploaded (`Tidy`), the workflow and the ids when
the job was submitted (`Stored`).  So the session survives exactly when the
parameters the request was made with are an object and the frame fits
(`dispatch_stays_iff`). -/

namespace Dispatch

open Jobs JsonValue KeyedTable Transactions Pools Runs Artifacts Protocol Table Option List
open Admission
open Uploads hiding step
open HubStore hiding step

/-! ## Artifacts the protocol accepts -/

/-- What an upload declares. -/
structure Described (id name contentType sha256 : String) : Prop where
  id_present : blank id = false
  name_present : blank name = false
  contentType_present : blank contentType = false
  sha256_valid : isSha256 sha256 = true

/-- The row of an artifact. -/
def rowDescribed (a : ArtifactRow) : Prop :=
  Described a.id a.name a.contentType a.sha256

/-- All rows. -/
def RowsDescribed (s : Store) : Prop :=
  ∀ a ∈ s.artifacts.rows, rowDescribed a

/-- The record of an artifact. -/
def recordDescribed (r : ArtifactRecord) : Prop :=
  Described r.view.id r.view.name r.view.contentType r.view.sha256

variable {cfg : Config}

variable {o id : String} {w : WorkerSession} {u : ArtifactUploaded}

/-- An input is described when it is created. -/
theorem recordDescribed_beginInput {q : CreateUploadRequest} {c : Creation}
    (hid : blank id = false) (hok : beginInput cfg o q id = .ok c) :
    recordDescribed c.record := by
  rw [beginInput] at hok
  split at hok
  · cases hok
  next hvalid =>
  cases hok
  obtain ⟨hname, htype, -, hsha⟩ := validateArtifactMetadata_eq_none hvalid
  exact ⟨hid, hname, htype, isSha256_toAsciiLowercase hsha⟩

/-- An output is described when it is created. -/
theorem recordDescribed_beginOutput {h : Hub} {ready : ArtifactReady}
    {c : Creation} (hid : blank id = false)
    (hok : beginOutput cfg h w ready id = .ok c) :
    recordDescribed c.record := by
  obtain ⟨-, hok⟩ := check_eq_ok hok
  obtain ⟨hvalid, hok⟩ := check_eq_ok hok
  rw [Bool.not_eq_true, Bool.or_eq_false_iff, Bool.not_eq_false'] at hvalid
  split at hok
  · cases hok
  split at hok
  · cases hok
    exact ⟨hid, safeFilename_present _, hvalid.2, isSha256_toAsciiLowercase hvalid.1⟩
  · cases hok

/-! ## Uploads keep artifacts described and jobs as they are -/

/-- Every artifact is described, in the store and in memory. -/
structure Tidy (h : Hub) : Prop where
  rows : RowsDescribed h.store
  memory : ∀ r ∈ h.artifacts.rows, recordDescribed r

/-- The record a handler works on. -/
def carries : Task → Option ArtifactRecord
  | .lookup _ c | .reserve c | .presign c | .persist c | .request c _ _
  | .remember c | .release c _ _ => some c.record
  | .represign _ r | .head r _ | .discard r | .releaseMismatch r | .forget r
  | .persistReady r | .rememberReady r | .legacyHead r _ | .setReady r
  | .markReady r | .outputHead _ _ r | .outputComplete _ _ r
  | .outputRemember _ r => some r
  | .outputRequest _ _ _ | .outputRecord _ _ _ | .sweep _ | .done _ => none

/-- The handler's record is described. -/
def TidyTask (t : Task) : Prop := ∀ r, carries t = some r → recordDescribed r

/-- What the read cache answers was stored. -/
def TidyReply : Reply → Prop
  | .cached (some r) => recordDescribed r
  | _ => True

/-- What a statement of an upload handler leaves. -/
structure Leaves (h h' : Hub) (t' : Task) : Prop where
  kept : Kept h.store h'.store
  tidy : Tidy h'
  task : TidyTask t'

variable {h h' : Hub} {t t' : Task} {s : Store} {reply : Reply}

theorem tidyTask_of_none (h : carries t = none) : TidyTask t := by
  intro r hr
  rw [h] at hr
  cases hr

theorem tidyTask_of_some {r : ArtifactRecord} (h : carries t = some r)
    (hr : recordDescribed r) : TidyTask t := by
  intro r' hr'
  cases h.symm.trans hr'
  exact hr

theorem leaves_of_read (hh : Tidy h) (ht : TidyTask t') : Leaves h h t' :=
  ⟨kept_refl h.store, hh, ht⟩

theorem RowsDescribed.frame {t : Store} (h : RowsDescribed s)
    (heq : t.artifacts = s.artifacts) : RowsDescribed t := by
  rw [RowsDescribed, heq]
  exact h

theorem leaves_of_store (hh : Tidy h) (hkept : Kept h.store s)
    (hrows : RowsDescribed s) (ht : TidyTask t') :
    Leaves h { h with store := s } t' :=
  ⟨hkept, ⟨hrows, hh.memory⟩, ht⟩

/-- A transaction that writes neither jobs nor artifacts. -/
theorem leaves_of_frame (hh : Tidy h) (hjobs : s.jobs = h.store.jobs)
    (hrows : s.artifacts = h.store.artifacts) (ht : TidyTask t') :
    Leaves h { h with store := s } t' :=
  leaves_of_store hh (kept_of_jobs hjobs) (hh.rows.frame hrows) ht

/-- The memory changes. -/
theorem leaves_of_memory
    {artifacts : Table String ArtifactRecord ArtifactRecord.id}
    {pendingUploads : Table Key PendingUpload PendingUpload.key} (hh : Tidy h)
    (hmem : ∀ r ∈ artifacts.rows, recordDescribed r) (ht : TidyTask t') :
    Leaves h { h with
      artifacts := artifacts, pendingUploads := pendingUploads } t' :=
  ⟨kept_refl h.store, ⟨hh.rows, hmem⟩, ht⟩

theorem tidyTask_done (result : Except HubError Answer) :
    TidyTask (.done result) := tidyTask_of_none rfl

section

variable (hh : Tidy h)
include hh

theorem leaves_reserveStorage {bytes : Int}
    (hok : reserveStorage h.store o bytes = .ok s) (ht : TidyTask t') :
    Leaves h { h with store := s } t' := by
  refine leaves_of_frame hh ?_ (reserveStorage_ok hok).1 ht
  rw [reserveStorage] at hok
  split at hok
  · cases hok
  obtain ⟨-, hok⟩ := check_eq_ok hok
  obtain ⟨-, hok⟩ := check_eq_ok hok
  rw [← Except.ok.inj hok]

theorem leaves_createArtifact {a : ArtifactRow}
    (hok : createArtifact h.store a = .ok s) (ha : rowDescribed a)
    (ht : TidyTask t') : Leaves h { h with store := s } t' := by
  obtain ⟨-, hok⟩ := check_eq_ok hok
  cases hok
  exact leaves_of_store hh (kept_of_jobs rfl) (forall_put hh.rows ha) ht

theorem leaves_upsertUploadRequest {r : UploadRequestRow}
    (hok : upsertUploadRequest h.store r = .ok s) (ht : TidyTask t') :
    Leaves h { h with store := s } t' := by
  rw [upsertUploadRequest] at hok
  split at hok
  · cases hok
    exact leaves_of_read hh ht
  split at hok
  · cases hok
    exact leaves_of_frame hh rfl rfl ht
  · cases hok

theorem leaves_setArtifactState {state : ArtifactState} (ht : TidyTask t') : Leaves h { h with
      store := (setArtifactState h.store o id state).getD h.store } t' := by
  cases hset : setArtifactState h.store o id state with
  | none => exact leaves_of_read hh ht
  | some s =>
    obtain ⟨artifacts, hup, rfl⟩ := map_eq_some_iff.mp hset
    obtain ⟨-, -, -, rfl⟩ := updateKey_eq_some hup
    exact leaves_of_store hh (kept_of_jobs rfl) (forall_update
      (ArtifactRow.enter_key state) hh.rows fun _ ha => ha) ht

theorem leaves_completeJobOutputUpload {c : CompleteJobOutputUpload}
    (hok : completeJobOutputUpload h.store c = some s)
    (ht : TidyTask t') : Leaves h { h with store := s } t' := by
  rw [completeJobOutputUpload] at hok
  split at hok
  · split at hok
    · obtain ⟨jobs, hup, rfl⟩ := map_eq_some_iff.mp hok
      exact leaves_of_store hh (kept_of_related
          (related_updateKey SameContent.refl hup fun _ _ _ => rfl))
        (forall_update (ArtifactRow.enter_key .ready) hh.rows fun _ => id) ht
    · cases hok
  · cases hok

/-- What memory, cache or store answer about an artifact is described. -/
theorem recordDescribed_artifactRecord {cached : Option ArtifactRecord}
    {r : ArtifactRecord} (hcached : TidyReply (.cached cached))
    (hr : artifactRecord h o id cached = some r) : recordDescribed r := by
  rw [artifactRecord] at hr
  cases hmem : h.artifactOf o id with rw [hmem] at hr
  | some a =>
    obtain rfl : a = r := some.inj hr
    exact hh.memory a (mem_of_find? (filter_eq_some_iff.mp hmem).1)
  | none =>
    cases cached with
    | some a =>
      obtain rfl : a = r := some.inj hr
      exact hcached
    | none =>
      obtain ⟨a, ha, rfl⟩ := map_eq_some_iff.mp (show storedRecord h.store o id = some r from hr)
      exact hh.rows a (mem_of_find? ha)

theorem tidyTask_afterLookup {ready : ArtifactReady} {c : Creation}
    (hc : recordDescribed c.record) :
    TidyTask (afterLookup h ready c) := by
  rw [afterLookup]
  split
  · exact tidyTask_of_some rfl hc
  split
  · exact tidyTask_done _
  next r hr =>
  split
  · exact tidyTask_of_some rfl (hh.memory r (mem_of_find? hr))
  · exact tidyTask_done _

end

theorem tidyTask_afterRecord {r : ArtifactRecord} (hr : recordDescribed r) :
    TidyTask (afterRecord h w u o r) := by
  rw [afterRecord]
  repeat' split
  all_goals first
    | exact tidyTask_of_some rfl hr
    | exact tidyTask_done _

/-! One lemma for each statement that writes, or reads a record from elsewhere. -/

theorem leaves_of_eq {g : Hub} {u : Task}
    (hstep : some (g, u) = some (h', t')) (hl : Leaves h g u) :
    Leaves h h' t' := by
  cases hstep
  exact hl

/-- The handler returns. -/
theorem leaves_done (hh : Tidy h) (result : Except HubError Answer) :
    Leaves h h (.done result) := leaves_of_read hh (tidyTask_done result)

variable {c : Creation} {r : ArtifactRecord}

/-- A failed call changes nothing. -/
theorem leaves_failed {m : String} (hh : Tidy h) (ht : TidyTask t)
    (hstep : taskStep cfg h t (.failed m) = some (h', t')) : Leaves h h' t' := by
  cases t with
  | represign | reserve | release | head | persistReady | legacyHead | setReady
  | outputHead | outputComplete => exact leaves_of_eq hstep (leaves_done hh _)
  | presign | persist | request | discard | releaseMismatch =>
    exact leaves_of_eq hstep (leaves_of_read hh ht)
  | outputRequest w u o | outputRecord w u o =>
    rw [taskStep] at hstep
    split at hstep
    · cases hstep
    · exact leaves_of_eq hstep (leaves_done hh _)
  | sweep ids => cases ids <;> cases hstep
  | _ => cases hstep

theorem leaves_metadata {m : ObjectMetadata} (hh : Tidy h) (ht : TidyTask t)
    (hstep : taskStep cfg h t (.metadata m) = some (h', t')) :
    Leaves h h' t' := by
  cases t with
  | head | legacyHead | outputHead =>
    refine leaves_of_eq hstep (leaves_of_read hh ?_)
    split <;> first
      | exact ht
      | exact tidyTask_done _
  | sweep ids => cases ids <;> cases hstep
  | _ => cases hstep

theorem leaves_cached {a : Option ArtifactRecord} (hh : Tidy h) (hreply : TidyReply (.cached a))
    (hstep : taskStep cfg h t (.cached a) = some (h', t')) : Leaves h h' t' := by
  cases t with
  | outputRecord w u o =>
    rw [taskStep] at hstep
    split at hstep
    · next r hr =>
      exact leaves_of_eq hstep (leaves_of_read hh (tidyTask_afterRecord
        (recordDescribed_artifactRecord hh hreply hr)))
    · exact leaves_of_eq hstep (leaves_done hh _)
  | sweep ids => cases ids <;> cases hstep
  | _ => cases hstep

theorem leaves_ok {now : Int} (hh : Tidy h) (ht : TidyTask t)
    (hstep : taskStep cfg h t (.ok now) = some (h', t')) : Leaves h h' t' := by
  cases t with
  | lookup ready c =>
    exact leaves_of_eq hstep (leaves_of_read hh (tidyTask_afterLookup hh (ht _ rfl)))
  | represign => exact leaves_of_eq hstep (leaves_done hh _)
  | presign | discard => exact leaves_of_eq hstep (leaves_of_read hh ht)
  | reserve c =>
    rw [taskStep] at hstep
    split at hstep
    · next s hs => exact leaves_of_eq hstep (leaves_reserveStorage hh hs ht)
    · exact leaves_of_eq hstep (leaves_done hh _)
  | persist c =>
    rw [taskStep] at hstep
    split at hstep
    · next s hs =>
      refine leaves_of_eq hstep (leaves_createArtifact hh hs (ht _ rfl) ?_)
      split <;> exact ht
    · exact leaves_of_eq hstep (leaves_of_read hh ht)
  | request c requestId attempt =>
    rw [taskStep] at hstep
    split at hstep
    · next s hs => exact leaves_of_eq hstep (leaves_upsertUploadRequest hh hs ht)
    · exact leaves_of_eq hstep (leaves_of_read hh ht)
  | remember c =>
    have hmem := forall_put hh.memory (ht _ rfl)
    rw [taskStep] at hstep
    split at hstep <;>
      exact leaves_of_eq hstep (leaves_of_memory hh hmem (tidyTask_done _))
  | release c persisted e =>
    exact leaves_of_eq hstep (leaves_of_frame hh rfl rfl (tidyTask_done _))
  | releaseMismatch r =>
    exact leaves_of_eq hstep (leaves_of_frame hh rfl rfl ht)
  | forget r =>
    exact leaves_of_eq hstep (leaves_of_memory hh (forall_delete hh.memory) (tidyTask_done _))
  | persistReady r =>
    rw [taskStep] at hstep
    split at hstep
    · next s hs =>
      have hr : recordDescribed r := ht _ rfl
      exact leaves_of_eq hstep (leaves_createArtifact hh hs hr ht)
    · exact leaves_of_eq hstep (leaves_done hh _)
  | rememberReady r | outputRemember u r =>
    have hcompleted : recordDescribed r.completed := ht r rfl
    exact leaves_of_eq hstep (leaves_of_memory hh
      (forall_put hh.memory hcompleted) (tidyTask_done _))
  | setReady r => exact leaves_of_eq hstep (leaves_setArtifactState hh ht)
  | markReady r =>
    rw [taskStep] at hstep
    split at hstep
    · exact leaves_of_eq hstep (leaves_done hh _)
    next a ha =>
    have hcompleted : recordDescribed a.completed :=
      hh.memory a (mem_of_find? ha)
    exact leaves_of_eq hstep (leaves_of_memory hh
      (forall_put hh.memory hcompleted) (tidyTask_done _))
  | outputRequest w u o =>
    rw [taskStep] at hstep
    split at hstep
    · refine leaves_of_eq hstep (leaves_of_read hh ?_)
      rw [afterRequest]
      split <;> exact tidyTask_of_none rfl
    · exact leaves_of_eq hstep (leaves_done hh _)
  | outputComplete w u r =>
    rw [taskStep] at hstep
    split at hstep
    · next s hs =>
      exact leaves_of_eq hstep (leaves_completeJobOutputUpload hh hs ht)
    · exact leaves_of_eq hstep (leaves_done hh _)
  | sweep ids =>
    cases ids with
    | nil => exact leaves_of_eq hstep (leaves_done hh _)
    | cons id ids =>
      exact leaves_of_eq hstep (leaves_of_memory hh
        (forall_delete hh.memory) (tidyTask_of_none rfl))
  | _ => cases hstep

/-- **ONE STATEMENT** of an upload handler leaves every artifact described and
    every job's content alone. -/
theorem leaves_taskStep (hh : Tidy h) (ht : TidyTask t) (hreply : TidyReply reply)
    (hstep : taskStep cfg h t reply = some (h', t')) : Leaves h h' t' := by
  cases reply with
  | ok now => exact leaves_ok hh ht hstep
  | failed m => exact leaves_failed hh ht hstep
  | metadata m => exact leaves_metadata hh ht hstep
  | cached a => exact leaves_cached hh hreply hstep

/-! ## The Hub between the request and the dispatch -/

/-- A new artifact has a UUID, the read cache answers with what was stored, and
    job rows move through the store's transactions only. -/
def Genuine : Uploads.Act → Prop
  | .createUpload _ id | .createUploadForPrincipal _ _ id
  | .prepareArtifactUpload _ _ id => blank id = false
  | .advance _ reply => TidyReply reply
  | .moveJobs _ _ => False
  | _ => True

/-- A transaction of the store, a step of the upload handlers, or a change of the resident jobs. -/
inductive Act where
  | store (op : StoreOp)
  | upload (act : Uploads.Act) (genuine : Genuine act)
  | residents (jobs : Table String ResidentJob ResidentJob.id)

/-- The Hub with other tables. -/
def withStore (p : World) (s : Store) : World :=
  { p with shared := { p.shared with store := s } }

/-- One action. -/
def step (cfg : Config) (p : World) : Act → Option World
  | .store op => some (withStore p (perform p.shared.store op))
  | .upload act _ => Uploads.step cfg p act
  | .residents jobs =>
    some { p with shared := { p.shared with jobs := jobs } }

/-- Every artifact is described, those in handlers' hands included. -/
structure Calm (p : World) : Prop where
  tidy : Tidy p.shared
  tasks : ∀ t ∈ p.tasks, TidyTask t

/-- A Hub without artifacts and without handlers in progress. -/
structure Start (p : World) : Prop where
  rows : p.shared.store.artifacts = Table.empty
  memory : p.shared.artifacts = Table.empty
  tasks : p.tasks = []

theorem calm_start {p : World} (h : Start p) : Calm p where
  tidy := by
    constructor
    · intro a ha
      rw [h.rows] at ha
      cases ha
    intro r hr
    rw [h.memory] at hr
    cases hr
  tasks := by
    intro t ht
    rw [h.tasks] at ht
    cases ht

/-- Claiming its inputs is all a transaction does to artifacts. -/
theorem rowsDescribed_perform (h : RowsDescribed s) (op : StoreOp) :
    RowsDescribed (perform s op) := by
  cases op with
  | commitNewJob input idempotency admission =>
    refine inv_commit h fun t r hok => ?_
    rcases commitNewJob_ok hok with ⟨rfl, -⟩ | ⟨-, hnew⟩
    · exact h
    · rw [RowsDescribed, congrArg Store.artifacts (claimInputs_ok hnew.claimed)]
      exact forall_update (ArtifactRow.claim_key input.id) h fun _ => id
  | _ => exact h.frame (artifacts_perform s _ nofun)

/-! ## Runs of the Hub -/

/-- A completion goes on with a resident artifact. -/
theorem tidyTask_beginWith {q : CompleteUploadRequest} {pending other : ArtifactRecord → Task}
    (hh : Tidy h) (hpending : ∀ r, carries (pending r) = some r)
    (hother : ∀ r, TidyTask (other r)) : TidyTask (beginWith h o id q pending other) := by
  refine beginWith_cases (fun e => tidyTask_done _) ?_ (fun r _ _ => hother r)
  intro r hr _
  exact tidyTask_of_some (hpending r) (hh.memory r (mem_of_find? (filter_eq_some_iff.mp hr).1))

variable {p q : World}

theorem Calm.spawn (h : Calm p) (ht : TidyTask t) : Calm (p.spawn t) :=
  ⟨h.tidy, forall_tasks_spawn h.tasks ht⟩

/-- What one action does to the Hub. -/
structure Follows (p q : World) : Prop where
  calm : Calm q
  kept : Kept p.shared.store q.shared.store

theorem follows_spawn (h : Calm p) (ht : TidyTask t) :
    Follows p (p.spawn t) := ⟨h.spawn ht, kept_refl _⟩

theorem follows_create {begun : Except HubError Creation}
    {first : Creation → Task} (h : Calm p)
    (hbegun : ∀ c, begun = .ok c → recordDescribed c.record)
    (hfirst : ∀ c, carries (first c) = some c.record)
    (hstep : create p begun first = some q) : Follows p q := by
  cases begun with
  | error e =>
    cases hstep
    exact follows_spawn h (tidyTask_done _)
  | ok c =>
    obtain ⟨issued, -, rfl⟩ := map_eq_some_iff.mp hstep
    have ht := tidyTask_of_some (hfirst c) (hbegun c rfl)
    exact ⟨⟨⟨h.tidy.rows, h.tidy.memory⟩, forall_tasks_spawn h.tasks ht⟩, kept_refl _⟩

theorem follows_upload {act : Uploads.Act} (h : Calm p)
    (hgenuine : Genuine act) (hstep : Uploads.step cfg p act = some q) :
    Follows p q := by
  cases act with
  | createUpload req id | createUploadForPrincipal o req id =>
    exact follows_create h (fun _ => recordDescribed_beginInput hgenuine) (fun _ => rfl) hstep
  | prepareArtifactUpload w ready id =>
    exact follows_create h (fun _ => recordDescribed_beginOutput hgenuine) (fun _ => rfl) hstep
  | completeUpload id req =>
    cases hstep
    exact follows_spawn h (tidyTask_beginWith h.tidy (fun _ => rfl) fun _ => tidyTask_done _)
  | completeUploadForPrincipal o id req =>
    cases hstep
    exact follows_spawn h (tidyTask_beginWith h.tidy (fun _ => rfl) fun _ => tidyTask_done _)
  | completeArtifactUpload w u =>
    cases hstep
    refine follows_spawn h ?_
    rw [beginOutputCompletion]
    repeat' split
    all_goals exact tidyTask_of_none rfl
  | advance i reply =>
    obtain ⟨t, h', t', ht, hts, rfl⟩ := Pool.advance_eq_some hstep
    have hl := leaves_taskStep h.tidy (h.tasks t (mem_of_getElem? ht)) hgenuine hts
    exact ⟨⟨hl.tidy, forall_tasks_set h.tasks hl.task⟩, hl.kept⟩
  | reclaimExpiredUploads now limit locked =>
    cases hstep
    refine ⟨⟨⟨forall_delete h.tidy.rows, h.tidy.memory⟩,
      forall_tasks_spawn h.tasks (tidyTask_of_none rfl)⟩, kept_of_jobs rfl⟩
  | moveJobs rows jobs => exact hgenuine.elim
  | evict ids =>
    cases hstep
    exact ⟨⟨⟨h.tidy.rows, forall_delete h.tidy.memory⟩, h.tasks⟩, kept_refl _⟩

/-- **ONE ACTION** of the Hub. -/
theorem follows_step {act : Act} (h : Calm p) (hstep : step cfg p act = some q) : Follows p q := by
  cases act with
  | store op =>
    cases hstep
    exact ⟨⟨⟨rowsDescribed_perform h.tidy.rows op, h.tidy.memory⟩, h.tasks⟩, kept_step rfl⟩
  | upload act hgenuine => exact follows_upload h hgenuine hstep
  | residents jobs =>
    cases hstep
    exact ⟨⟨⟨h.tidy.rows, h.tidy.memory⟩, h.tasks⟩, kept_refl _⟩

/-- **EVERY RUN** keeps artifacts described and jobs about what they were about. -/
theorem follows_reachable (h : Calm p) (hreach : Reachable (step cfg) p q) : Follows p q := by
  refine inv_reachable (I := Follows p) ?_ ⟨h, kept_refl _⟩ hreach
  intro p₁ act p₂ h₁ hstep
  have h₂ := follows_step h₁.calm hstep
  exact ⟨h₂.calm, h₁.kept.trans h₂.kept⟩

/-! ## `dispatch_outbox_entry` -/

/-- `dispatch_command_id`. -/
def dispatchCommandId (jobId : String) (attempt : Nat) : String :=
  "dispatch:" ++ jobId ++ ":" ++ Nat.repr attempt

/-- `artifacts_by_ids`. -/
def artifactsByIds (s : Store) (organizationId : String) (ids : List String) : List ArtifactRow :=
  s.artifacts.rows.filter fun a =>
    decide (a.organizationId = organizationId) && decide (a.id ∈ ids)

/-- The inputs in the job's own order; an artifact is used once. -/
def buildInputs (signer : Signer) : List ArtifactRow → List String → Except String (List JobInput)
  | _, [] => .ok []
  | byId, id :: rest =>
    match (byId.find? fun a => a.id = id).filter
        fun a => decide (a.state = .ready) with
    | none => .error ("input artifact " ++ id ++ " is not ready")
    | some a =>
      if a.sizeBytes < 0 then
        .error ("input artifact " ++ id ++ " has an invalid size")
      else (signer.presignGet a.objectKey).bind fun download =>
        (buildInputs signer (byId.eraseP fun a => a.id = id) rest).map
          fun more => ⟨id, a.name, a.contentType, a.sizeBytes.toNat, a.sha256, download⟩ :: more

/-- What comes of an outbox entry. -/
inductive Outcome where
  /-- There is nothing left to send. -/
  | delivered
  /-- `record_dispatch_error`. -/
  | failed (message : String)
  | built (sessionId : String) (dispatch : DispatchJob)

/-- `u32::MAX`. -/
def u32Max : Nat := 4294967295

/-- `dispatch_outbox_entry`, up to the hand-over to the session. -/
def dispatchOutboxEntry (s : Store) (session : Key → Option String)
    (signer : Signer) (entry : OutboxRow) : Outcome :=
  match s.jobs.find? (entry.organizationId, entry.jobId) with
  | none => .delivered
  | some j =>
    if j.state.isTerminal then .delivered
    else match j.workerOrganizationId, j.workerId, j.sessionId with
    | some organization, some worker, some _ =>
      match session (organization, worker) with
      | none => .failed "no local worker session is available"
      | some sessionId =>
        match buildInputs signer (artifactsByIds s entry.organizationId
            j.inputArtifactIds) j.inputArtifactIds with
        | .error message => .failed message
        | .ok inputs =>
          if entry.attempt > u32Max then
            .failed "persisted dispatch attempt is invalid"
          else .built sessionId ⟨dispatchCommandId j.id entry.attempt, j.id,
            entry.attempt, j.workflowId, j.workflowVersion, j.parameters,
            inputs⟩
    | _, _, _ => .failed "outbox job has no complete worker binding"

def sampleConfig : Config := ⟨100, "legacy", 60000⟩

/-- A Hub with one organization and nothing else. -/
def sampleWorld : World where
  shared := {
    store := sampleStore
    artifacts := Table.empty
    pendingUploads := Table.empty
    jobs := Table.empty
    issued := Table.empty }
  tasks := []

theorem sampleWorld_start : Start sampleWorld := ⟨rfl, rfl, rfl⟩

def sampleRequest (base : Json) : CreateBatchApiRequest where
  workflowId := "workflow"
  workflowVersion := "1"
  count := 1
  baseParameters := base
  items := []
  sharedInputArtifactIds := []
  deviceOrganizationId := some "org"
  deviceId := some "worker"

/-- The handler accepts the batch whatever its parameters are. -/
def sampleCreate (base : Json) : Except HubError (Store × CommitResult) :=
  createBatch sampleStore (.ok ⟨"org", some "user", true⟩)
    ⟨.ok true, .ok (some (some [⟨"workflow", "1", rfl, rfl⟩]))⟩
    (sampleRequest base) ⟨"batch", rfl⟩ (fun _ => ⟨"job", rfl⟩) none (.ok ())
    0

/-- The Hub once the batch is stored and its job is bound. -/
def sampleBound (base : Json) : World :=
  withStore sampleWorld (perform (commit sampleStore (sampleCreate base))
    (.bindQueuedJob ("org", "job") "org" "worker" "session" 0))

def sampleEntry : OutboxRow := ⟨"org", "job", 1, "pending", 0⟩

theorem sampleBound_reachable (base : Json) : Reachable (step sampleConfig)
      (withStore sampleWorld (commit sampleStore (sampleCreate base)))
      (sampleBound base) :=
  ⟨[.store (.bindQueuedJob ("org", "job") "org" "worker" "session" 0)], rfl⟩

/-- **CONTENT STAYS**: whatever transactions and uploads run, a job that is in the store stays there
    with its workflow, parameters and inputs, and every artifact is described. -/
theorem content_stays {p₀ p q : World} (h₀ : Start p₀) (hbefore : Reachable (step cfg) p₀ p)
    (hafter : Reachable (step cfg) p q) :
    (∀ k j, p.shared.store.jobs.find? k = some j →
      ∃ j', q.shared.store.jobs.find? k = some j' ∧ content j' = content j)
    ∧ RowsDescribed q.shared.store ∧ ∀ r ∈ q.shared.artifacts.rows, recordDescribed r := by
  have hcalm := (follows_reachable (calm_start h₀) hbefore).calm
  have hfollows := follows_reachable hcalm hafter
  exact ⟨hfollows.kept, hfollows.calm.tidy.rows, hfollows.calm.tidy.memory⟩

/-- The job of the batch is bound to a worker, and is the same job. -/
theorem sampleBound_kept : ∃ j j', (commit sampleStore (sampleCreate (.object []))).jobs.find?
      ("org", "job") = some j
    ∧ (sampleBound (.object [])).shared.store.jobs.find? ("org", "job") = some j'
    ∧ content j' = content j := by
  obtain ⟨j', hj', hsame⟩ := (content_stays ⟨rfl, rfl, rfl⟩ (Reachable.refl _)
    (sampleBound_reachable (.object []))).1 ("org", "job") _ rfl
  exact ⟨_, j', rfl, hj', hsame⟩

end Dispatch
