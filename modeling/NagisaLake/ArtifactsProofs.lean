import Mathlib.Data.List.Sort
import NagisaLake.StoreProofs

/-! # Artifacts and their storage — the transactions of the store

`quota_usage.storage_bytes` is reserved before an artifact row exists and
released when it goes.  Reserving, releasing and inserting are separate
transactions; only the reaper (`reclaimExpiredUploads`) deletes rows and
releases their bytes in one.

For each transaction there are two lemmas: what it does to the counter of
an organization, and what it does to `stored`, the bytes of the rows of
that organization. -/

namespace Artifacts

open Jobs KeyedTable HubStore Table List Option

/-- The bytes a row takes of an organization's storage. -/
def weight (o : String) (a : ArtifactRow) : Int :=
  if a.organizationId = o then a.sizeBytes else 0

/-- The bytes of the artifact rows of an organization. -/
def stored (s : Store) (o : String) : Int := s.artifacts.total (weight o)

/-- The counter of an organization. -/
def counter (s : Store) (o : String) : Option Int :=
  (s.usage.find? o).map UsageRow.storageBytes

/-! ## The counter -/

def UsageRow.reserveStorage (bytes : Int) (u : UsageRow) : UsageRow :=
  { u with storageBytes := u.storageBytes + bytes }

theorem UsageRow.reserveStorage_key (bytes : Int) (u : UsageRow) :
    (UsageRow.reserveStorage bytes u).organizationId = u.organizationId := rfl

/-- `reserve_storage`; PostgreSQL refuses a sum that is no `BIGINT`. -/
def reserveStorage (s : Store) (o : String) (bytes : Int) : Except StoreError Store :=
  match readQuota s o (.notFound "quota policy") with
  | .error e => .error e
  | .ok (policy, usage) =>
    if bytes < 0 ∨ saturate (usage.storageBytes + bytes)
        > policy.maxStorageBytes then
      .error (.quotaExceeded "storage_bytes")
    else if usage.storageBytes + bytes > i64Max then
      .error (.database "bigint out of range")
    else .ok { s with
      usage := s.usage.update (fun u => u.organizationId = o)
        (UsageRow.reserveStorage bytes) (UsageRow.reserveStorage_key bytes) }

/-- `GREATEST(0, storage_bytes - bytes)`. -/
def UsageRow.releaseStorage (bytes : Int) (u : UsageRow) : UsageRow :=
  { u with storageBytes := max 0 (u.storageBytes - max bytes 0) }

theorem UsageRow.releaseStorage_key (bytes : Int) (u : UsageRow) :
    (UsageRow.releaseStorage bytes u).organizationId = u.organizationId := rfl

/-- `release_storage`. -/
def releaseStorage (s : Store) (o : String) (bytes : Int) : Store :=
  { s with
    usage := s.usage.update (fun u => u.organizationId = o)
      (UsageRow.releaseStorage bytes) (UsageRow.releaseStorage_key bytes) }

/-! ## The rows -/

/-- `create_artifact`: a new row, or every column of the row under its key. -/
def createArtifact (s : Store) (a : ArtifactRow) : Except StoreError Store :=
  if a.sizeBytes < 0 then
    .error (.database "check constraint artifacts_size_bytes_check")
  else .ok { s with artifacts := s.artifacts.put a }

/-- The row in a new state; only a pending upload keeps its deadline. -/
def ArtifactRow.enter (state : ArtifactState) (a : ArtifactRow) :
    ArtifactRow :=
  { a with
    state := state
    expiresAt := if state = .pendingUpload then a.expiresAt else none }

theorem ArtifactRow.enter_key (state : ArtifactState) (a : ArtifactRow) :
    (ArtifactRow.enter state a).key = a.key := rfl

/-- `set_artifact_state`: `none` when there is no such row. -/
def setArtifactState (s : Store) (o id : String) (state : ArtifactState) : Option Store :=
  (s.artifacts.updateKey (o, id) (fun _ => true) (ArtifactRow.enter state)
    (ArtifactRow.enter_key state)).map fun artifacts =>
      { s with artifacts := artifacts }

/-- A pending upload whose deadline has passed. -/
def ArtifactRow.expired (now : Int) (a : ArtifactRow) : Bool :=
  decide (a.state = .pendingUpload) && a.expiresAt.any fun t => decide (t ≤ now)

/-- `ORDER BY expires_at`. -/
def ArtifactRow.sooner (a b : ArtifactRow) : Prop :=
  a.expiresAt.getD 0 ≤ b.expiresAt.getD 0

instance : DecidableRel ArtifactRow.sooner :=
  fun a b => inferInstanceAs (Decidable (a.expiresAt.getD 0 ≤ b.expiresAt.getD 0))

/-- The keys one sweep picks.  `locked` are the rows `SKIP LOCKED` passes over. -/
def picked (s : Store) (now : Int) (limit : Nat) (locked : List Key) : List Key :=
  (((s.artifacts.rows.filter fun a =>
    ArtifactRow.expired now a && !decide (a.key ∈ locked)).insertionSort
      ArtifactRow.sooner).take (max limit 1)).map ArtifactRow.key

/-- Release the bytes of each deleted row. -/
def releaseAll (usage : Table String UsageRow UsageRow.organizationId) :
    List ArtifactRow → Table String UsageRow UsageRow.organizationId
  | [] => usage
  | a :: as => releaseAll
      (usage.update (fun u => u.organizationId = a.organizationId)
        (UsageRow.releaseStorage a.sizeBytes)
        (UsageRow.releaseStorage_key a.sizeBytes)) as

/-- `reclaim_expired_uploads`: rows, bytes and upload requests together. -/
def reclaimExpiredUploads (s : Store) (now : Int) (limit : Nat)
    (locked : List Key) : Store × List ArtifactRow :=
  let keys := picked s now limit locked
  let expired := s.artifacts.rows.filter fun a => decide (a.key ∈ keys)
  ({ s with
    artifacts := s.artifacts.delete fun a => decide (a.key ∈ keys)
    usage := releaseAll s.usage expired
    uploadRequests := s.uploadRequests.delete fun r =>
      decide ((r.organizationId, r.artifactId) ∈ keys) }, expired)

/-- `upsert_upload_request`: an existing request stays; a new one refers to an
    artifact that exists. -/
def upsertUploadRequest (s : Store) (r : UploadRequestRow) : Except StoreError Store :=
  match s.uploadRequests.insert r with
  | none => .ok s
  | some requests =>
    if (s.artifacts.find? (r.organizationId, r.artifactId)).isSome then
      .ok { s with uploadRequests := requests }
    else .error (.database "foreign key artifact_upload_requests_artifact")

/-- `upload_request_artifact`. -/
def uploadRequestArtifact (s : Store) (o requestId : String) : Option String :=
  (s.uploadRequests.find? (o, requestId)).map UploadRequestRow.artifactId

/-- `CompleteJobOutputUpload`. -/
structure CompleteJobOutputUpload where
  organizationId : String
  requestId : String
  artifactId : String
  jobId : String
  attempt : Nat
  sessionId : String
  now : Int

/-- The job row with one more output. -/
def JobRow.withOutput (id : String) (now : Int) (j : JobRow) : JobRow :=
  { j with
    outputArtifactIds := if id ∈ j.outputArtifactIds
      then j.outputArtifactIds else j.outputArtifactIds ++ [id]
    updatedAt := max j.updatedAt now }

theorem JobRow.withOutput_key (id : String) (now : Int) (j : JobRow) :
    (JobRow.withOutput id now j).key = j.key := rfl

/-- The upload request, completed at its first completion. -/
def UploadRequestRow.complete (now : Int) (r : UploadRequestRow) :
    UploadRequestRow :=
  { r with completedAt := r.completedAt <|> some now }

theorem UploadRequestRow.complete_key (now : Int) (r : UploadRequestRow) :
    (UploadRequestRow.complete now r).key = r.key := rfl

/-- `complete_job_output_upload`: `none` when the artifact, the request or the
    job is not the expected one. -/
def completeJobOutputUpload (s : Store) (c : CompleteJobOutputUpload) : Option Store :=
  match s.artifacts.find? (c.organizationId, c.artifactId),
      s.uploadRequests.find? (c.organizationId, c.requestId) with
  | some a, some r =>
    if a.jobId = some c.jobId ∧ r.artifactId = c.artifactId
        ∧ r.jobId = some c.jobId ∧ r.attempt = some c.attempt then
      (s.jobs.updateKey (c.organizationId, c.jobId) (fun j => decide (j.attempt = c.attempt)
          && decide (j.sessionId = some c.sessionId))
        (JobRow.withOutput c.artifactId c.now)
        (JobRow.withOutput_key c.artifactId c.now)).map fun jobs =>
          { s with
            jobs := jobs
            artifacts := s.artifacts.update (fun a => a.key = (c.organizationId, c.artifactId))
              (ArtifactRow.enter .ready) (ArtifactRow.enter_key .ready)
            uploadRequests := s.uploadRequests.update
              (fun r => r.key = (c.organizationId, c.requestId))
              (UploadRequestRow.complete c.now)
              (UploadRequestRow.complete_key c.now) }
    else none
  | _, _ => none

/-! ## What the transactions do to the counter -/

variable {s t : Store} {a : ArtifactRow} {now : Int} {limit : Nat}
  {locked : List Key}

theorem counter_update (b o : String) {f : UsageRow → UsageRow}
    (hf : ∀ u, (f u).organizationId = u.organizationId) {g : Int → Int}
    (hg : ∀ u, (f u).storageBytes = g u.storageBytes) :
    ((s.usage.update (fun u => u.organizationId = b) f hf).find? o).map UsageRow.storageBytes
      = (counter s o).map fun x => if b = o then g x else x := by
  rw [find?_update, counter, Option.map_map, Option.map_map]
  cases h : s.usage.find? o with
  | none => rfl
  | some u =>
    have hkey : u.organizationId = o := key_of_find? h
    by_cases hb : b = o
    · simp [hkey, hb, hg]
    · simp [hkey, hb, Ne.symm hb]

/-- A reservation that succeeds adds exactly the bytes asked for. -/
theorem reserveStorage_ok {b : String} {bytes : Int} (h : reserveStorage s b bytes = .ok t) :
    t.artifacts = s.artifacts ∧ 0 ≤ bytes ∧ ∀ o, counter t o
      = (counter s o).map fun x => if b = o then x + bytes else x := by
  rw [reserveStorage] at h
  split at h
  · cases h
  split at h
  · cases h
  next hquota =>
  split at h
  · cases h
  cases h
  rw [not_or, Int.not_lt] at hquota
  exact ⟨rfl, hquota.1, fun o =>
    counter_update b o (UsageRow.reserveStorage_key bytes) fun _ => rfl⟩

/-- A release takes the bytes off, down to zero. -/
theorem counter_releaseStorage (s : Store) (b : String) (bytes : Int)
    (o : String) : counter (releaseStorage s b bytes) o = (counter s o).map fun x =>
          if b = o then max 0 (x - max bytes 0) else x :=
  counter_update b o (UsageRow.releaseStorage_key bytes) fun _ => rfl

/-- As long as the counter covers them, the deleted rows are released to the byte. -/
theorem counter_releaseAll (o : String) : ∀ (as : List ArtifactRow)
      (usage : Table String UsageRow UsageRow.organizationId) (x : Int),
      (∀ a ∈ as, 0 ≤ a.sizeBytes) → (as.map (weight o)).sum ≤ x →
      (usage.find? o).map UsageRow.storageBytes = some x →
      ((releaseAll usage as).find? o).map UsageRow.storageBytes
        = some (x - (as.map (weight o)).sum) := by
  intro as
  induction as with
  | nil =>
    intro usage x _ _ hx
    rw [map_nil, sum_nil, Int.sub_zero]
    exact hx
  | cons a as ih =>
    intro usage x hpos hle hx
    rw [map_cons, sum_cons] at hle ⊢
    have hrest : 0 ≤ (as.map (weight o)).sum := by
      refine sum_nonneg fun y hy => ?_
      obtain ⟨b, hb, rfl⟩ := mem_map.mp hy
      rw [weight]
      split
      · exact hpos b (mem_cons_of_mem a hb)
      · exact Int.le_refl 0
    have ha : 0 ≤ a.sizeBytes := hpos a mem_cons_self
    rw [releaseAll, ih _ (x - weight o a) (fun b hb => hpos b (mem_cons_of_mem a hb)) (by omega)]
    · congr 1
      omega
    rw [find?_update, Option.map_map]
    obtain ⟨u, hu, rfl⟩ := map_eq_some_iff.mp hx
    have hkey : u.organizationId = o := key_of_find? hu
    rw [hu]
    show some _ = some _
    rw [weight] at hle ⊢
    by_cases hb : a.organizationId = o
    · rw [if_pos hb] at hle ⊢
      simp only [Function.comp, hkey, hb, decide_true, if_true, UsageRow.releaseStorage]
      congr 1
      omega
    · simp [hkey, hb, Ne.symm hb]

/-! ## What the transactions do to the rows -/

/-- Insertion or replacement, seen from the sum. -/
theorem createArtifact_ok (h : createArtifact s a = .ok t) :
    t.usage = s.usage ∧ t.artifacts = s.artifacts.put a ∧ 0 ≤ a.sizeBytes := by
  rw [createArtifact] at h
  split at h
  · cases h
  next hsize =>
  cases h
  exact ⟨rfl, rfl, Int.not_lt.mp hsize⟩

/-- Neither bytes nor rows come or go. -/
structure Unmoved (s t : Store) : Prop where
  counter : ∀ o, counter t o = counter s o
  sizes : ∀ k, (t.artifacts.find? k).map ArtifactRow.sizeBytes
    = (s.artifacts.find? k).map ArtifactRow.sizeBytes
  stored : ∀ o, stored t o = stored s o

theorem Unmoved.refl (s : Store) : Unmoved s s :=
  ⟨fun _ => rfl, fun _ => rfl, fun _ => rfl⟩

/-- Entering a state moves no byte. -/
theorem unmoved_enter {p : ArtifactRow → Bool} {st : ArtifactState} (husage : t.usage = s.usage)
    (hrows : t.artifacts = s.artifacts.update p (ArtifactRow.enter st)
      (ArtifactRow.enter_key st)) : Unmoved s t where
  counter := by
    intro o
    rw [Artifacts.counter, husage, Artifacts.counter]
  sizes := by
    intro k
    rw [hrows, find?_update, Option.map_map]
    congr 1
    funext a
    show ArtifactRow.sizeBytes (if p a then _ else a) = a.sizeBytes
    split <;> rfl
  stored := by
    intro o
    rw [Artifacts.stored, hrows, Artifacts.stored]
    exact total_update_of_eq _ _ _ _ _ fun _ _ _ => rfl

theorem setArtifactState_unmoved {o id : String} {st : ArtifactState}
    (h : setArtifactState s o id st = some t) :
    Unmoved s t := by
  obtain ⟨artifacts, hup, rfl⟩ := map_eq_some_iff.mp h
  obtain ⟨-, -, -, hrows⟩ := updateKey_eq_some hup
  exact unmoved_enter rfl hrows

theorem completeJobOutputUpload_unmoved {c : CompleteJobOutputUpload}
    (h : completeJobOutputUpload s c = some t) :
    Unmoved s t := by
  rw [completeJobOutputUpload] at h
  split at h
  · split at h
    · obtain ⟨jobs, -, rfl⟩ := map_eq_some_iff.mp h
      exact unmoved_enter rfl rfl
    · cases h
  · cases h

theorem upsertUploadRequest_unmoved {r : UploadRequestRow}
    (h : upsertUploadRequest s r = .ok t) : Unmoved s t := by
  rw [upsertUploadRequest] at h
  split at h
  · cases h
    exact Unmoved.refl s
  split at h
  · cases h
    exact ⟨fun _ => rfl, fun _ => rfl, fun _ => rfl⟩
  · cases h

/-- **ONE SWEEP OF THE REAPER**: rows and bytes go together. -/
theorem reclaimExpiredUploads_balance {o : String} {x : Int}
    (hpos : ∀ a ∈ s.artifacts.rows, 0 ≤ a.sizeBytes)
    (hx : counter s o = some x) (hle : stored s o ≤ x) :
    let t := (reclaimExpiredUploads s now limit locked).1
    counter t o = some (x - (stored s o - stored t o)) := by
  intro t
  let keys := picked s now limit locked
  have hsum := total_delete s.artifacts (fun a => decide (a.key ∈ keys)) (weight o)
  have hrest : 0 ≤ (s.artifacts.delete fun a => decide (a.key ∈ keys)).total (weight o) := by
    refine total_nonneg fun a ha => ?_
    rw [weight]
    split
    · exact hpos a (mem_of_mem_filter ha)
    · exact Int.le_refl 0
  have hleft : stored t o = (s.artifacts.delete fun a =>
    decide (a.key ∈ keys)).total (weight o) := rfl
  have hcount := counter_releaseAll o
    (s.artifacts.rows.filter fun a => decide (a.key ∈ keys)) s.usage x
    (fun a ha => hpos a (mem_of_mem_filter ha))
    (by rw [stored] at hle; omega) hx
  rw [show counter t o = _ from hcount]
  congr 1
  rw [hleft, stored]
  omega

/-- A sweep leaves the rows it leaves as they are. -/
theorem find?_reclaimExpiredUploads {k : Key}
    (h : (reclaimExpiredUploads s now limit locked).1.artifacts.find? k
      = some a) : s.artifacts.find? k = some a := by
  change (s.artifacts.delete _).find? k = some a at h
  rw [find?_delete] at h
  exact (filter_eq_some_iff.mp h).1

/-- A sweep leaves the rows it has not picked. -/
theorem find?_reclaimExpiredUploads_of_not_picked {k : Key}
    (hk : k ∉ picked s now limit locked) (h : s.artifacts.find? k = some a) :
    (reclaimExpiredUploads s now limit locked).1.artifacts.find? k = some a := by
  show (s.artifacts.delete _).find? k = some a
  rw [find?_delete, h, filter_some]
  have hkey : a.key = k := key_of_find? h
  simp [hkey, hk]

/-- A sweep picks pending uploads only. -/
theorem pending_of_picked {k : Key} (hk : k ∈ picked s now limit locked)
    (ha : s.artifacts.find? k = some a) : a.state = .pendingUpload := by
  obtain ⟨b, hb, rfl⟩ := mem_map.mp hk
  have hsorted := mem_of_mem_take hb
  rw [mem_insertionSort, mem_filter, Bool.and_eq_true] at hsorted
  obtain ⟨hrow, hexpired, -⟩ := hsorted
  obtain rfl : b = a :=
    some.inj ((find?_of_mem hrow).symm.trans ha)
  rw [ArtifactRow.expired, Bool.and_eq_true] at hexpired
  exact of_decide_eq_true hexpired.1

end Artifacts
