import NagisaLake.StorageProofs

/-! # Ready artifacts — what a reported completion can rely on

`complete_upload` and `complete_upload_for_principal` read the resident
record, look at the object and write the row; the reaper deletes rows whose
deadline has passed and afterwards their objects.  Each is right alone.
None of them looks again at what it read before it writes, so a completion
that has reported the artifact `Ready` can still lose it: to a second
completion that found a mismatch and throws the object away, or to a sweep
that had taken the row before it was written.

A run in which completions that discard stay alone, and in which the reaper
and the completions keep out of each other's way (`Careful`), is durable
(`ready_durable`).  The invariant has two modes.  While the artifact is
`Live` its row is there, charged, and ready as soon as anybody may report
it; once it is `Dead` nobody can report it any more. -/

namespace Durability

open Jobs KeyedTable Runs Pools Artifacts Table List
open HubStore hiding step
open Uploads (Hub Config ArtifactRecord CompleteUploadRequest Reply HubError
  asI64 declarationMatches beginCompletion beginLegacyCompletion)

/-! ## The system -/

/-- The Hub, the objects in the bucket, and whether a call has reported the artifact ready. -/
structure Shared where
  hub : Hub
  objects : List String
  reported : Bool

/-- A completion, or a sweep over the uploads it has reclaimed. -/
inductive Task where
  | call (t : Uploads.Task)
  | deleting (uploads : List ArtifactRow)
  | removing (upload : ArtifactRow) (uploads : List ArtifactRow)

/-- The call has reported a ready artifact. -/
def reports : Uploads.Task → Bool
  | .done (.ok (.artifact view)) => decide (view.state = .ready)
  | _ => false

/-- The object store only describes objects it has. -/
def seen (objects : List String) : Uploads.Task → Reply → Bool
  | .head r _, .metadata _ => decide (r.objectKey ∈ objects)
  | .legacyHead r _, .metadata _ => decide (r.objectKey ∈ objects)
  | _, _ => true

/-- The bucket after a statement. -/
def objectsAfter (objects : List String) : Uploads.Task → Reply → List String
  | .discard r, .ok _ => objects.filter fun k => k ≠ r.objectKey
  | _, _ => objects

/-- One statement of a completion or of a sweep. -/
def taskStep (cfg : Config) (s : Shared) : Task → Reply → Option (Shared × Task)
  | .call t, reply =>
    if seen s.objects t reply then
      (Uploads.taskStep cfg s.hub t reply).map fun x =>
        (⟨x.1, objectsAfter s.objects t reply, s.reported || reports x.2⟩, .call x.2)
    else none
  | .deleting (a :: as), .ok _ => some ({ s with
      objects := s.objects.filter fun k => k ≠ a.objectKey },
      .removing a as)
  | .deleting (a :: as), .failed _ => some (s, .removing a as)
  | .removing a as, .ok _ => some ({ s with
      hub := { s.hub with
        artifacts := s.hub.artifacts.delete fun x => x.id = a.id } },
      .deleting as)
  | _, _ => none

/-- A completion of the artifact arrives, a task goes on, the reaper runs, the
    client puts an object. -/
inductive Act where
  | completeUpload (q : CompleteUploadRequest)
  | completeUploadForPrincipal (o : String) (q : CompleteUploadRequest)
  | advance (i : Nat) (reply : Reply)
  | reclaimExpiredUploads (now : Int) (limit : Nat) (locked : List Key)
  | put (objectKey : String)

/-- A call begins. -/
def begin (p : Pool Shared Task) (t : Uploads.Task) : Pool Shared Task :=
  ⟨{ p.shared with reported := p.shared.reported || reports t }, p.tasks ++ [.call t]⟩

/-- The reaper's transaction, and the sweep that follows it. -/
def reclaimed (p : Pool Shared Task) (now : Int) (limit : Nat)
    (locked : List Key) : Pool Shared Task :=
  let x := Artifacts.reclaimExpiredUploads p.shared.hub.store now limit locked
  ⟨{ p.shared with hub := { p.shared.hub with store := x.1 } }, p.tasks ++ [.deleting x.2]⟩

/-- One action on the artifact `r`. -/
def step (cfg : Config) (r : ArtifactRecord) (p : Pool Shared Task) :
    Act → Option (Pool Shared Task)
  | .completeUpload q =>
    some (begin p (beginLegacyCompletion cfg p.shared.hub r.view.id q))
  | .completeUploadForPrincipal o q =>
    some (begin p (beginCompletion p.shared.hub o r.view.id q))
  | .advance i reply => p.advance (taskStep cfg) i reply
  | .reclaimExpiredUploads now limit locked =>
    some (reclaimed p now limit locked)
  | .put objectKey => some { p with
      shared := { p.shared with objects := objectKey :: p.shared.objects } }

/-! ## The property and the condition -/

/-- The row is there and ready. -/
def RowReady (r : ArtifactRecord) (s : Store) : Prop :=
  ∃ a, s.artifacts.find? r.key = some a ∧ a.state = .ready

/-- The counter covers the rows of the organization, this one's included. -/
def Charged (r : ArtifactRecord) (s : Store) : Prop :=
  ∃ c, counter s r.organizationId = some c ∧ stored s r.organizationId ≤ c

/-- Once the artifact was reported ready, its row is ready and charged and its object is there. -/
def Durable (r : ArtifactRecord) (p : Pool Shared Task) : Prop :=
  p.shared.reported = true → RowReady r p.shared.hub.store
    ∧ Charged r p.shared.hub.store ∧ r.objectKey ∈ p.shared.objects

/-- A completion in progress. -/
def Task.busy : Task → Bool
  | .call t => !t.isDone
  | _ => false

/-- A completion that throws the upload away. -/
def Task.discards : Task → Bool
  | .call (.discard _) => true
  | .call (.releaseMismatch _) => true
  | .call (.forget _) => true
  | _ => false

/-- What a sweep has still to delete or to remove. -/
def Task.uploads : Task → List ArtifactRow
  | .call _ => []
  | .deleting as => as
  | .removing a as => a :: as

/-- A sweep that has taken the row. -/
def Task.sweeps (r : ArtifactRecord) (t : Task) : Bool :=
  t.uploads.any fun a => decide (a.key = r.key)

/-- A completion does not begin while the upload is thrown away or swept; it throws the upload away
    only while the row is pending and no other completion is in progress; and the reaper does not
    take the row while a completion is in progress. -/
def Careful (r : ArtifactRecord) (p : Pool Shared Task) : Act → Prop
  | .completeUpload _ => ∀ t ∈ p.tasks, t.discards = false ∧ t.sweeps r = false
  | .completeUploadForPrincipal _ _ => ∀ t ∈ p.tasks, t.discards = false ∧ t.sweeps r = false
  | .advance i (.metadata m) => ∀ x q, p.tasks[i]? = some (.call (.head x q)) →
      declarationMatches m q x.view = false →
      (∃ a, p.shared.hub.store.artifacts.find? r.key = some a ∧ a.state = .pendingUpload)
      ∧ ∀ j t, p.tasks[j]? = some t → t.busy = true → j = i
  | .reclaimExpiredUploads now limit locked =>
    r.key ∈ picked p.shared.hub.store now limit locked →
    ∀ t ∈ p.tasks, t.busy = false
  | _ => True

/-- The row is there with the declared size. -/
def Row (r : ArtifactRecord) (s : Store) : Prop :=
  ∃ a, s.artifacts.find? r.key = some a ∧ a.sizeBytes = asI64 r.view.sizeBytes

/-- No other row has the artifact's id or its object. -/
def Names (r : ArtifactRecord) (as : List ArtifactRow) : Prop :=
  ∀ a ∈ as, a.id = r.view.id ∨ a.objectKey = r.objectKey → a.key = r.key

/-- A pending upload: declared, charged and remembered, nobody at work. -/
structure Start (r : ArtifactRecord) (p : Pool Shared Task) : Prop where
  pending : r.view.state = .pendingUpload
  row : Row r p.shared.hub.store
  sizes : ∀ a ∈ p.shared.hub.store.artifacts.rows, 0 ≤ a.sizeBytes
  names : Names r p.shared.hub.store.artifacts.rows
  charged : Charged r p.shared.hub.store
  memory : p.shared.hub.artifacts.find? r.view.id = some r
  tasks : p.tasks = []
  unreported : p.shared.reported = false

/-! ## The two modes -/

/-- Somebody knows that the artifact is ready: a caller, or the memory. -/
def Known (r : ArtifactRecord) (s : Shared) : Prop :=
  s.reported = true ∨ s.hub.artifacts.find? r.view.id = some r.completed

/-- A completion that has found the object it expected. -/
def Task.verified : Task → Bool
  | .call (.persistReady _) => true
  | .call (.rememberReady _) => true
  | .call (.setReady _) => true
  | .call (.markReady _) => true
  | _ => false

/-- A completion that has written the row. -/
def Task.wrote : Task → Bool
  | .call (.rememberReady _) => true
  | .call (.markReady _) => true
  | _ => false

/-- The upload is there: nobody throws it away, and whoever is about to report
    it ready has seen its object and written its row. -/
structure Live (r : ArtifactRecord) (p : Pool Shared Task) : Prop where
  row : Row r p.shared.hub.store
  charged : Charged r p.shared.hub.store
  calm : ∀ t ∈ p.tasks, t.discards = false ∧ t.sweeps r = false
  objects : ∀ t ∈ p.tasks, t.verified = true → r.objectKey ∈ p.shared.objects
  written : ∀ t ∈ p.tasks, t.wrote = true → RowReady r p.shared.hub.store
  known : Known r p.shared → r.objectKey ∈ p.shared.objects ∧ RowReady r p.shared.hub.store

/-- The upload is gone or going: no call can report it ready, and none can
    begin before the memory has lost it. -/
structure Dead (r : ArtifactRecord) (p : Pool Shared Task) : Prop where
  silent : p.shared.reported = false
  idle : ∀ t ∈ p.tasks, t.busy = true → t.discards = true
  gone : p.shared.hub.artifacts.find? r.view.id = none
    ∨ (∃ t ∈ p.tasks, t.discards = true) ∨ ∃ t ∈ p.tasks, t.sweeps r = true

/-- The calls are completions of this artifact. -/
def Concerns (r : ArtifactRecord) : Task → Prop
  | .call (.head x _) => x = r
  | .call (.discard x) => x = r
  | .call (.releaseMismatch x) => x = r
  | .call (.forget x) => x = r
  | .call (.persistReady x) => x = r
  | .call (.rememberReady x) => x = r
  | .call (.legacyHead x _) => x = r
  | .call (.setReady x) => x = r
  | .call (.markReady x) => x = r
  | .call (.done _) => True
  | .call _ => False
  | _ => True

/-- **THE INVARIANT**: the memory, the calls and the sweeps speak of this
    artifact, and it is live or dead. -/
structure Inv (r : ArtifactRecord) (p : Pool Shared Task) : Prop where
  pending : r.view.state = .pendingUpload
  sizes : ∀ a ∈ p.shared.hub.store.artifacts.rows, 0 ≤ a.sizeBytes
  names : Names r p.shared.hub.store.artifacts.rows
  memory : ∀ a, p.shared.hub.artifacts.find? r.view.id = some a → a = r ∨ a = r.completed
  concerns : ∀ t ∈ p.tasks, Concerns r t
  sweeps : ∀ t ∈ p.tasks, Names r t.uploads
  mode : Live r p ∨ Dead r p

variable {cfg : Config} {r : ArtifactRecord} {p q : Pool Shared Task}

theorem Start.inv (h : Start r p) : Inv r p := by
  have hnone : ∀ t, t ∉ p.tasks := by
    intro t ht
    rw [h.tasks] at ht
    exact not_mem_nil ht
  refine ⟨h.pending, h.sizes, h.names, ?_, fun t ht => absurd ht (hnone t),
    fun t ht => absurd ht (hnone t), .inl ?_⟩
  · intro a ha
    exact .inl (Option.some.inj (ha.symm.trans h.memory))
  refine ⟨h.row, h.charged, fun t ht => absurd ht (hnone t),
    fun t ht => absurd ht (hnone t), fun t ht => absurd ht (hnone t), ?_⟩
  rintro (hrep | hmem)
  · rw [h.unreported] at hrep
    cases hrep
  -- a pending record is not the completed one
  have heq : r = r.completed := Option.some.inj (h.memory.symm.trans hmem)
  have hstate : r.view.state = .ready :=
    congrArg (fun x => x.view.state) heq
  rw [h.pending] at hstate
  cases hstate

theorem Inv.durable (h : Inv r p) : Durable r p := by
  intro hrep
  rcases h.mode with hl | hd
  · obtain ⟨hobj, hready⟩ := hl.known (.inl hrep)
    exact ⟨hready, hl.charged, hobj⟩
  · rw [hd.silent] at hrep
    cases hrep

/-- What keeps an upload live: its row stays, with its state and its object, and only the tasks that
    were there and the new one have to be looked at. -/
theorem Live.mono (h : Live r p) (hrow : Row r q.shared.hub.store)
    (hcharged : Charged r q.shared.hub.store)
    (hobj : r.objectKey ∈ p.shared.objects → r.objectKey ∈ q.shared.objects)
    (hready : RowReady r p.shared.hub.store → RowReady r q.shared.hub.store)
    (htasks : ∀ t ∈ q.tasks, t ∈ p.tasks ∨ (t.discards = false ∧ t.sweeps r = false)
        ∧ (t.verified = true → r.objectKey ∈ q.shared.objects)
        ∧ (t.wrote = true → RowReady r q.shared.hub.store))
    (hknown : Known r q.shared → Known r p.shared
      ∨ r.objectKey ∈ q.shared.objects ∧ RowReady r q.shared.hub.store) :
    Live r q := by
  refine ⟨hrow, hcharged, ?_, ?_, ?_, ?_⟩
  · intro t ht
    rcases htasks t ht with hold | hnew
    · exact h.calm t hold
    · exact hnew.1
  · intro t ht hv
    rcases htasks t ht with hold | hnew
    · exact hobj (h.objects t hold hv)
    · exact hnew.2.1 hv
  · intro t ht hw
    rcases htasks t ht with hold | hnew
    · exact hready (h.written t hold hw)
    · exact hnew.2.2 hw
  · intro hk
    rcases hknown hk with hold | hnew
    · exact ⟨hobj (h.known hold).1, hready (h.known hold).2⟩
    · exact hnew

/-! ## A completion begins -/

/-- A call that has just begun: it has neither seen the object nor written the
    row, and it reports only what the memory holds. -/
structure Begun (r : ArtifactRecord) (h : Hub) (t : Uploads.Task) : Prop where
  concerns : Concerns r (.call t)
  calm : (Task.call t).discards = false
  unverified : (Task.call t).verified = false
  unwritten : (Task.call t).wrote = false
  reports : reports t = true → h.artifacts.find? r.view.id = some r.completed
  missing : h.artifacts.find? r.view.id = none → t.isDone = true

theorem begun_err (h : Hub) (e : HubError) : Begun r h (Uploads.Task.err e) :=
  ⟨trivial, rfl, rfl, rfl, nofun, fun _ => rfl⟩

/-- The resident artifact of the organization is the artifact, pending or completed. -/
theorem Inv.artifactOf (hi : Inv r p) {o : String} {x : ArtifactRecord}
    (h : p.shared.hub.artifactOf o r.view.id = some x) :
    p.shared.hub.artifacts.find? r.view.id = some x ∧ (x.view.state = .pendingUpload ∧ x = r
        ∨ x.view.state = .ready ∧ x = r.completed) := by
  have hx := (Option.filter_eq_some_iff.mp h).1
  refine ⟨hx, ?_⟩
  rcases hi.memory x hx with rfl | rfl
  · exact .inl ⟨hi.pending, rfl⟩
  · exact .inr ⟨rfl, rfl⟩

/-- A completion looks at the pending artifact; what it says of the completed one is in memory. -/
theorem Inv.beginWith (hi : Inv r p) {o : String} {q : CompleteUploadRequest}
    {pending other : ArtifactRecord → Uploads.Task}
    (hpending : (p.shared.hub.artifacts.find? r.view.id = none → (pending r).isDone = true) →
      Begun r p.shared.hub (pending r))
    (hother : p.shared.hub.artifacts.find? r.view.id = some r.completed →
      Begun r p.shared.hub (other r.completed)) :
    Begun r p.shared.hub (Uploads.beginWith p.shared.hub o r.view.id q pending other) := by
  refine Uploads.beginWith_cases (fun e => begun_err _ e) ?_ ?_
  all_goals
    intro x hx hstate
    obtain ⟨hfind, ⟨hcase, rfl⟩ | ⟨hcase, rfl⟩⟩ := hi.artifactOf hx
  · refine hpending fun hnone => ?_
    rw [hfind] at hnone
    cases hnone
  · cases hcase.symm.trans hstate
  · exact absurd hcase hstate
  · exact hother hfind

/-- **A COMPLETION BEGINS** while nobody throws the upload away. -/
theorem Inv.spawn (h : Inv r p) {t : Uploads.Task} (ht : Begun r p.shared.hub t)
    (hcalm : ∀ u ∈ p.tasks, u.discards = false ∧ u.sweeps r = false) :
    Inv r (begin p t) := by
  have hknown : Known r (begin p t).shared → Known r p.shared := by
    rintro (hrep | hmem)
    · rcases Bool.or_eq_true_iff.mp hrep with hold | hnew
      · exact .inl hold
      · exact .inr (ht.reports hnew)
    · exact .inr hmem
  refine ⟨h.pending, h.sizes, h.names, h.memory, forall_tasks_spawn h.concerns ht.concerns,
    forall_tasks_spawn h.sweeps nofun, ?_⟩
  rcases h.mode with hl | hd
  · refine .inl (hl.mono hl.row hl.charged id id ?_ fun hk => .inl (hknown hk))
    refine forall_tasks_spawn (fun u hu => .inl hu)
      (.inr ⟨⟨ht.calm, rfl⟩, fun hv => ?_, fun hw => ?_⟩)
    · rw [ht.unverified] at hv
      cases hv
    · rw [ht.unwritten] at hw
      cases hw
  · -- nobody discards and nobody sweeps, so the memory has lost it already
    have hnone : p.shared.hub.artifacts.find? r.view.id = none := by
      rcases hd.gone with hnone | ⟨u, hu, hdis⟩ | ⟨u, hu, hsw⟩
      · exact hnone
      · rw [(hcalm u hu).1] at hdis
        cases hdis
      · rw [(hcalm u hu).2] at hsw
        cases hsw
    refine .inr ⟨?_, forall_tasks_spawn hd.idle fun hb => ?_, .inl hnone⟩
    · show (p.shared.reported || reports t) = false
      rw [hd.silent, Bool.false_or, Bool.eq_false_iff]
      intro hrep
      rw [ht.reports hrep] at hnone
      cases hnone
    · have hdone : (!t.isDone) = true := hb
      rw [ht.missing hnone] at hdone
      cases hdone

/-! ## The reaper runs -/

variable {now : Int} {limit : Nat} {locked : List Key}

/-- A sweep that takes the row ends the upload: nobody can have reported it
    ready, since only pending uploads are taken. -/
theorem Live.reclaim_picked (h : Live r p) (hk : r.key ∈ picked p.shared.hub.store now limit locked)
    (hbusy : ∀ t ∈ p.tasks, t.busy = false) :
    Dead r (reclaimed p now limit locked) := by
  obtain ⟨a, ha, -⟩ := h.row
  have hunready : ¬ RowReady r p.shared.hub.store := by
    rintro ⟨b, hb, hready⟩
    cases ha.symm.trans hb
    rw [pending_of_picked hk ha] at hready
    cases hready
  refine ⟨?_, forall_tasks_spawn (fun t ht hb => ?_) nofun,
    .inr (.inr ⟨_, mem_append_right _ (mem_singleton_self _), ?_⟩)⟩
  · rw [Bool.eq_false_iff]
    exact fun hrep => hunready (h.known (.inl hrep)).2
  · rw [hbusy t ht] at hb
    cases hb
  have hkey : a.key = r.key := key_of_find? ha
  refine any_eq_true.mpr ⟨a, mem_filter.mpr
    ⟨mem_of_find? ha, decide_eq_true ?_⟩, decide_eq_true hkey⟩
  rw [hkey]
  exact hk

/-- A sweep that leaves the row leaves its bytes. -/
theorem Live.reclaim_left (h : Live r p)
    (hsizes : ∀ a ∈ p.shared.hub.store.artifacts.rows, 0 ≤ a.sizeBytes)
    (hk : r.key ∉ picked p.shared.hub.store now limit locked) :
    Live r (reclaimed p now limit locked) := by
  refine h.mono ?_ ?_ id ?_ ?_ .inl
  · obtain ⟨a, ha, hsize⟩ := h.row
    exact ⟨a, find?_reclaimExpiredUploads_of_not_picked hk ha, hsize⟩
  · obtain ⟨c, hc, hle⟩ := h.charged
    refine ⟨_, reclaimExpiredUploads_balance hsizes hc hle, ?_⟩
    dsimp only [reclaimed]
    omega
  · rintro ⟨a, ha, hready⟩
    exact ⟨a, find?_reclaimExpiredUploads_of_not_picked hk ha, hready⟩
  · refine forall_tasks_spawn (fun t ht => .inl ht) (.inr ⟨⟨rfl, ?_⟩, nofun, nofun⟩)
    refine any_eq_false.mpr fun a ha hkey => hk ?_
    have hpicked := of_decide_eq_true (mem_filter.mp ha).2
    rwa [of_decide_eq_true hkey] at hpicked

/-- **THE REAPER RUNS**, and takes the row only while no completion is in progress. -/
theorem Inv.reclaim (h : Inv r p) (hbusy : r.key ∈ picked p.shared.hub.store now limit locked →
      ∀ t ∈ p.tasks, t.busy = false) :
    Inv r (reclaimed p now limit locked) := by
  refine ⟨h.pending, forall_delete h.sizes, forall_delete h.names,
    h.memory, forall_tasks_spawn h.concerns trivial,
    forall_tasks_spawn h.sweeps ?_, ?_⟩
  · intro a ha
    exact h.names a (mem_of_mem_filter ha)
  rcases h.mode with hl | hd
  · by_cases hk : r.key ∈ picked p.shared.hub.store now limit locked
    · exact .inr (hl.reclaim_picked hk (hbusy hk))
    · exact .inl (hl.reclaim_left h.sizes hk)
  refine .inr ⟨hd.silent, forall_tasks_spawn hd.idle nofun, ?_⟩
  rcases hd.gone with hnone | ⟨t, ht, hdis⟩ | ⟨t, ht, hsw⟩
  · exact .inl hnone
  · exact .inr (.inl ⟨t, mem_append_left _ ht, hdis⟩)
  · exact .inr (.inr ⟨t, mem_append_left _ ht, hsw⟩)

/-! ## A completion goes on

A call in progress that does not discard is a call on a live upload, and
a call that discards is a call on a dead one. -/

/-- A call takes a statement. -/
def resumed (p : Pool Shared Task) (i : Nat) (hub : Hub)
    (objects : List String) (t : Uploads.Task) : Pool Shared Task :=
  ⟨⟨hub, objects, p.shared.reported || reports t⟩, p.tasks.set i (.call t)⟩

variable {i : Nat} {t : Uploads.Task}

section

variable (h : Inv r p)
include h

theorem Inv.live (ht : p.tasks[i]? = some (.call t)) (hbusy : (Task.call t).busy = true)
    (hcalm : (Task.call t).discards = false) : Live r p := by
  rcases h.mode with hl | hd
  · exact hl
  · rw [hd.idle _ (mem_of_getElem? ht) hbusy] at hcalm
    cases hcalm

theorem Inv.dead (ht : p.tasks[i]? = some (.call t))
    (hdis : (Task.call t).discards = true) : Dead r p := by
  rcases h.mode with hl | hd
  · rw [(hl.calm _ (mem_of_getElem? ht)).1] at hdis
    cases hdis
  · exact hd

section

variable (hl : Live r p)
include hl

/-- A statement that changes nothing: it fails, or it has found the object. -/
theorem Inv.call_quiet (hc : Concerns r (.call t)) (hcalm : (Task.call t).discards = false)
    (hv : (Task.call t).verified = true → r.objectKey ∈ p.shared.objects)
    (hw : (Task.call t).wrote = false) (hrep : reports t = false) :
    Inv r (resumed p i p.shared.hub p.shared.objects t) := by
  refine ⟨h.pending, h.sizes, h.names, h.memory,
    forall_tasks_set h.concerns hc, forall_tasks_set h.sweeps nofun,
    .inl (hl.mono hl.row hl.charged id id ?_ ?_)⟩
  · refine forall_tasks_set (fun u hu => .inl hu) (.inr ⟨⟨hcalm, rfl⟩, hv, fun hwrote => ?_⟩)
    rw [hw] at hwrote
    cases hwrote
  · rintro (hnew | hmem)
    · refine .inl (.inl ?_)
      rwa [resumed, hrep, Bool.or_false] at hnew
    · exact .inl (.inr hmem)

theorem Inv.call_fails (e : HubError) :
    Inv r (resumed p i p.shared.hub p.shared.objects (.err e)) :=
  h.call_quiet hl trivial rfl nofun rfl rfl

/-- A statement that writes the row. -/
theorem Inv.call_writes {s : Store}
    (hc : Concerns r (.call t)) (hcalm : (Task.call t).discards = false)
    (hobj : r.objectKey ∈ p.shared.objects)
    (hsizes : ∀ a ∈ s.artifacts.rows, 0 ≤ a.sizeBytes)
    (hnames : Names r s.artifacts.rows) (hrow : Row r s)
    (hready : RowReady r s) (hcharged : Charged r s) :
    Inv r (resumed p i { p.shared.hub with store := s } p.shared.objects t) := by
  refine ⟨h.pending, hsizes, hnames, h.memory,
    forall_tasks_set h.concerns hc, forall_tasks_set h.sweeps nofun,
    .inl (hl.mono hrow hcharged id (fun _ => hready) ?_ fun _ => .inr ⟨hobj, hready⟩)⟩
  exact forall_tasks_set (fun u hu => .inl hu) (.inr ⟨⟨hcalm, rfl⟩, fun _ => hobj, fun _ => hready⟩)

section

variable (hobj : r.objectKey ∈ p.shared.objects)
include hobj

/-- The statement that reports the artifact ready. -/
theorem Inv.call_reports (hready : RowReady r p.shared.hub.store) :
    Inv r (resumed p i { p.shared.hub with
      artifacts := p.shared.hub.artifacts.put r.completed } p.shared.objects
      (.done (.ok (.artifact r.completed.view)))) := by
  refine ⟨h.pending, h.sizes, h.names, ?_,
    forall_tasks_set h.concerns trivial, forall_tasks_set h.sweeps nofun,
    .inl (hl.mono hl.row hl.charged id id ?_ fun _ => .inr ⟨hobj, hready⟩)⟩
  · intro a ha
    change (p.shared.hub.artifacts.put r.completed).find? r.view.id = some a at ha
    rw [find?_put, if_pos (show r.completed.id = r.view.id from rfl)] at ha
    exact .inr (Option.some.inj ha).symm
  · exact forall_tasks_set (fun u hu => .inl hu) (.inr ⟨⟨rfl, rfl⟩, nofun, nofun⟩)

/-- `persist_artifact` writes every column of the row, whatever it was. -/
theorem Inv.call_persist {s : Store}
    (hs : createArtifact p.shared.hub.store (r.completed.row cfg now) = .ok s) :
    Inv r (resumed p i { p.shared.hub with store := s } p.shared.objects (.rememberReady r)) := by
  obtain ⟨husage, hrows, hsize⟩ := createArtifact_ok hs
  have hfind : s.artifacts.find? r.key = some (r.completed.row cfg now) := by
    rw [hrows, find?_put]
    exact if_pos rfl
  refine h.call_writes hl rfl rfl hobj ?_ ?_ ⟨_, hfind, rfl⟩ ⟨_, hfind, rfl⟩ ?_
  · rw [hrows]
    exact forall_put h.sizes hsize
  · rw [hrows]
    exact forall_put h.names fun _ => rfl
  -- the old row had the declared size, so the sum stays
  obtain ⟨c, hcount, hle⟩ := hl.charged
  obtain ⟨a, ha, hsame⟩ := hl.row
  refine ⟨c, ?_, ?_⟩
  · rw [counter, husage]
    exact hcount
  have hsum := Storage.stored_createArtifact hs r.organizationId
  have hkey : (r.completed.row cfg now).key = r.key := rfl
  rw [hkey, Storage.weight_find?, ha, weight, if_pos (show r.key.1 = r.organizationId from rfl),
    if_pos (show (r.completed.row cfg now).organizationId = r.organizationId from rfl)] at hsum
  change stored s r.organizationId + a.sizeBytes
    = stored p.shared.hub.store r.organizationId + asI64 r.view.sizeBytes at hsum
  omega

/-- `set_artifact_state` writes the state of the row there is. -/
theorem Inv.call_set : Inv r (resumed p i { p.shared.hub with
      store := (setArtifactState p.shared.hub.store r.organizationId r.view.id
        .ready).getD p.shared.hub.store } p.shared.objects
      (.markReady r)) := by
  obtain ⟨a, ha, hsame⟩ := hl.row
  obtain ⟨u, hu⟩ := exists_updateKey (p := fun _ => true)
    (ArtifactRow.enter .ready) (ArtifactRow.enter_key .ready) ha rfl
  have hset : setArtifactState p.shared.hub.store r.organizationId r.view.id
      .ready = some { p.shared.hub.store with artifacts := u } := by
    rw [setArtifactState, show (r.organizationId, r.view.id) = r.key from rfl, hu]
    rfl
  have hunmoved := setArtifactState_unmoved hset
  have hfind : u.find? r.key = some (ArtifactRow.enter .ready a) := by
    rw [find?_updateKey hu ha]
    exact if_pos rfl
  obtain ⟨-, -, -, hrows⟩ := updateKey_eq_some hu
  rw [hset, Option.getD_some]
  refine h.call_writes hl rfl rfl hobj ?_ ?_ ⟨_, hfind, hsame⟩ ⟨_, hfind, rfl⟩ ?_
  · rw [hrows]
    exact forall_update (ArtifactRow.enter_key .ready) h.sizes fun _ => id
  · rw [hrows]
    exact forall_update (ArtifactRow.enter_key .ready) h.names fun _ => id
  obtain ⟨c, hcount, hle⟩ := hl.charged
  refine ⟨c, (hunmoved.counter _).trans hcount, ?_⟩
  rw [hunmoved.stored]
  exact hle

end

/-- The completion that finds a mismatch, alone and before anybody has written
    the row, ends the upload. -/
theorem Inv.call_mismatch (ht : p.tasks[i]? = some (.call t))
    (hpending : ∃ a, p.shared.hub.store.artifacts.find? r.key = some a ∧ a.state = .pendingUpload)
    (halone : ∀ j u, p.tasks[j]? = some u → u.busy = true → j = i) :
    Inv r (resumed p i p.shared.hub p.shared.objects (.discard r)) := by
  refine ⟨h.pending, h.sizes, h.names, h.memory,
    forall_tasks_set h.concerns rfl, forall_tasks_set h.sweeps nofun,
    .inr ⟨?_, ?_, .inr (.inl ⟨.call (.discard r), ?_, rfl⟩)⟩⟩
  · show (p.shared.reported || false) = false
    rw [Bool.or_false, Bool.eq_false_iff]
    intro hrep
    obtain ⟨a, ha, hstate⟩ := hpending
    obtain ⟨b, hb, hready⟩ := (hl.known (.inl hrep)).2
    cases ha.symm.trans hb
    rw [hstate] at hready
    cases hready
  · intro u hu hbusy
    obtain ⟨j, hj⟩ := mem_iff_getElem?.mp hu
    rcases set_cases hj with ⟨-, rfl⟩ | ⟨hij, hold⟩
    · rfl
    · exact absurd (halone j u hold hbusy) hij
  · obtain ⟨hi, -⟩ := List.getElem?_eq_some_iff.mp ht
    exact mem_set hi _

end

/-- A discarding call goes on: whatever it does to the bucket and to the
    counter, the upload stays dead. -/
theorem Inv.call_discards (hd : Dead r p) {hub : Hub}
    {objects : List String} (ht : i < p.tasks.length)
    (hrows : hub.store.artifacts = p.shared.hub.store.artifacts)
    (hmem : hub.artifacts = p.shared.hub.artifacts)
    (hc : Concerns r (.call t)) (hdis : (Task.call t).discards = true)
    (hrep : reports t = false) : Inv r (resumed p i hub objects t) := by
  refine ⟨h.pending, ?_, ?_, ?_, forall_tasks_set h.concerns hc, forall_tasks_set h.sweeps nofun,
    .inr ⟨?_, forall_tasks_set hd.idle fun _ => hdis, .inr (.inl ⟨.call t, mem_set ht _, hdis⟩)⟩⟩
  · show ∀ a ∈ hub.store.artifacts.rows, _
    rw [hrows]
    exact h.sizes
  · show Names r hub.store.artifacts.rows
    rw [hrows]
    exact h.names
  · show ∀ a, hub.artifacts.find? r.view.id = some a → _
    rw [hmem]
    exact h.memory
  show (p.shared.reported || reports t) = false
  rw [hd.silent, hrep]
  rfl

end

/-- A discarding call ends: the memory has lost the upload. -/
theorem Inv.call_forgets (h : Inv r p) (hd : Dead r p) (e : HubError) :
    Inv r (resumed p i { p.shared.hub with
      artifacts := p.shared.hub.artifacts.delete fun a => a.id = r.view.id }
      p.shared.objects (.err e)) := by
  refine ⟨h.pending, h.sizes, h.names, ?_,
    forall_tasks_set h.concerns trivial, forall_tasks_set h.sweeps nofun,
    .inr ⟨?_, forall_tasks_set hd.idle nofun, .inl (find?_delete_self _ _)⟩⟩
  · intro a ha
    cases (find?_delete_self _ _).symm.trans ha
  show (p.shared.reported || false) = false
  rw [hd.silent]
  rfl

/-- **A COMPLETION GOES ON**: one case for each statement. -/
theorem Inv.call (h : Inv r p) {reply : Reply} {hub : Hub}
    {t' : Uploads.Task} (ht : p.tasks[i]? = some (.call t))
    (hseen : seen p.shared.objects t reply = true)
    (hcareful : Careful r p (.advance i reply))
    (hs : Uploads.taskStep cfg p.shared.hub t reply = some (hub, t')) :
    Inv r (resumed p i hub (objectsAfter p.shared.objects t reply) t') := by
  have hmem := mem_of_getElem? ht
  have hc := h.concerns _ hmem
  obtain ⟨hi, -⟩ := List.getElem?_eq_some_iff.mp ht
  cases t with
  | head x q =>
    obtain rfl : r = x := hc.symm
    have hl := h.live ht rfl rfl
    cases reply with
    | metadata m =>
      cases hs
      cases hmatch : declarationMatches m q r.view with
      | true =>
        exact h.call_quiet hl rfl rfl (fun _ => of_decide_eq_true hseen) rfl rfl
      | false =>
        obtain ⟨hpending, halone⟩ := hcareful r q ht hmatch
        exact h.call_mismatch hl ht hpending halone
    | failed m =>
      cases hs
      exact h.call_fails hl _
    | ok | cached => cases hs
  | discard x | releaseMismatch x =>
    obtain rfl : r = x := hc.symm
    have hd := h.dead ht rfl
    cases reply with
    | ok | failed =>
      -- an error of the object store does not stop the clean-up
      cases hs
      exact h.call_discards hd hi rfl rfl rfl rfl rfl
    | metadata | cached => cases hs
  | forget x =>
    obtain rfl : r = x := hc.symm
    cases reply with
    | ok now =>
      cases hs
      exact h.call_forgets (h.dead ht rfl) _
    | failed | metadata | cached => cases hs
  | persistReady x =>
    obtain rfl : r = x := hc.symm
    have hl := h.live ht rfl rfl
    cases reply with
    | ok now =>
      rw [Uploads.taskStep] at hs
      split at hs
      · next s hcreate =>
        cases hs
        exact h.call_persist hl (hl.objects _ hmem rfl) hcreate
      · cases hs
        exact h.call_fails hl _
    | failed m =>
      cases hs
      exact h.call_fails hl _
    | metadata | cached => cases hs
  | rememberReady x =>
    obtain rfl : r = x := hc.symm
    have hl := h.live ht rfl rfl
    cases reply with
    | ok now =>
      cases hs
      exact h.call_reports hl (hl.objects _ hmem rfl) (hl.written _ hmem rfl)
    | failed | metadata | cached => cases hs
  | legacyHead x q =>
    obtain rfl : r = x := hc.symm
    have hl := h.live ht rfl rfl
    cases reply with
    | metadata m =>
      cases hs
      cases hmatch : declarationMatches m q r.view with
      | true =>
        exact h.call_quiet hl rfl rfl (fun _ => of_decide_eq_true hseen) rfl rfl
      | false => exact h.call_fails hl _
    | failed m =>
      cases hs
      exact h.call_fails hl _
    | ok | cached => cases hs
  | setReady x =>
    obtain rfl : r = x := hc.symm
    have hl := h.live ht rfl rfl
    cases reply with
    | ok now =>
      cases hs
      exact h.call_set hl (hl.objects _ hmem rfl)
    | failed m =>
      cases hs
      exact h.call_fails hl _
    | metadata | cached => cases hs
  | markReady x =>
    obtain rfl : r = x := hc.symm
    have hl := h.live ht rfl rfl
    cases reply with
    | ok now =>
      rw [Uploads.taskStep] at hs
      split at hs
      · cases hs
        exact h.call_fails hl _
      next a ha =>
      cases hs
      -- pending or completed, the record in memory completes alike
      have hcompleted : a.completed = r.completed := by
        rcases h.memory a ha with rfl | rfl
        · rfl
        · rfl
      rw [hcompleted]
      exact h.call_reports hl (hl.objects _ hmem rfl) (hl.written _ hmem rfl)
    | failed | metadata | cached => cases hs
  | done result => cases hs
  | _ => exact hc.elim

/-! ## A sweep goes on -/

/-- A sweep beside a live upload is of other uploads. -/
theorem Inv.swept_ne (h : Inv r p) (hl : Live r p) {t : Task}
    (ht : t ∈ p.tasks) {a : ArtifactRow} (ha : a ∈ t.uploads) :
    a.id ≠ r.view.id ∧ a.objectKey ≠ r.objectKey := by
  have hkey : a.key ≠ r.key := by
    intro hkey
    have hsweeps := (hl.calm t ht).2
    rw [Task.sweeps, any_eq_false] at hsweeps
    exact hsweeps a ha (decide_eq_true hkey)
  have hname := h.sweeps t ht a ha
  exact ⟨fun hid => hkey (hname (.inl hid)), fun hobj => hkey (hname (.inr hobj))⟩

variable {a : ArtifactRow} {as : List ArtifactRow}

/-- The sweep deletes an object, or fails to. -/
theorem Inv.sweep_delete (h : Inv r p) {objects : List String}
    (ht : p.tasks[i]? = some (.deleting (a :: as)))
    (hobjs : r.objectKey ∈ p.shared.objects → a.objectKey ≠ r.objectKey → r.objectKey ∈ objects) :
    Inv r ⟨{ p.shared with objects := objects }, p.tasks.set i (.removing a as)⟩ := by
  have hmem := mem_of_getElem? ht
  refine ⟨h.pending, h.sizes, h.names, h.memory, forall_tasks_set h.concerns trivial,
    forall_tasks_set h.sweeps (h.sweeps (.deleting (a :: as)) hmem), ?_⟩
  rcases h.mode with hl | hd
  · refine .inl (hl.mono hl.row hl.charged ?_ id ?_ .inl)
    · intro hobj
      exact hobjs hobj (h.swept_ne hl hmem mem_cons_self).2
    · exact forall_tasks_set (fun u hu => .inl hu)
        (.inr ⟨hl.calm (.deleting (a :: as)) hmem, nofun, nofun⟩)
  · refine .inr ⟨hd.silent, forall_tasks_set hd.idle nofun, ?_⟩
    rcases hd.gone with hnone | hdis | hsw
    · exact .inl hnone
    · exact .inr (.inl (exists_tasks_set ht hdis nofun))
    · exact .inr (.inr (exists_tasks_set ht hsw id))

/-- The sweep removes an upload from the memory. -/
theorem Inv.sweep_remove (h : Inv r p) (ht : p.tasks[i]? = some (.removing a as)) :
    Inv r ⟨{ p.shared with
      hub := { p.shared.hub with
        artifacts := p.shared.hub.artifacts.delete fun x => x.id = a.id } },
      p.tasks.set i (.deleting as)⟩ := by
  have hmem := mem_of_getElem? ht
  have hback : ∀ x, (p.shared.hub.artifacts.delete fun x => x.id = a.id).find? r.view.id = some x →
      p.shared.hub.artifacts.find? r.view.id = some x := by
    intro x hx
    rw [find?_delete] at hx
    exact (Option.filter_eq_some_iff.mp hx).1
  refine ⟨h.pending, h.sizes, h.names, fun x hx => h.memory x (hback x hx),
    forall_tasks_set h.concerns trivial, forall_tasks_set h.sweeps
      fun b hb => h.sweeps _ hmem b (mem_cons_of_mem a hb), ?_⟩
  rcases h.mode with hl | hd
  · refine .inl (hl.mono hl.row hl.charged id id ?_ ?_)
    · have hcalm := (hl.calm _ hmem).2
      rw [Task.sweeps, Task.uploads, any_cons, Bool.or_eq_false_iff] at hcalm
      exact forall_tasks_set (fun u hu => .inl hu) (.inr ⟨⟨rfl, hcalm.2⟩, nofun, nofun⟩)
    · rintro (hrep | hx)
      · exact .inl (.inl hrep)
      · exact .inl (.inr (hback _ hx))
  · refine .inr ⟨hd.silent, forall_tasks_set hd.idle nofun, ?_⟩
    by_cases hkey : a.key = r.key
    · -- this upload: the memory loses it now
      have hid : a.id = r.view.id := congrArg Prod.snd hkey
      rw [← hid]
      exact .inl (find?_delete_self _ _)
    · rcases hd.gone with hnone | hdis | hsw
      · refine .inl ?_
        rw [find?_delete, hnone]
        rfl
      · exact .inr (.inl (exists_tasks_set ht hdis nofun))
      refine .inr (.inr (exists_tasks_set ht hsw fun hthis => ?_))
      rw [Task.sweeps, Task.uploads, any_cons, Bool.or_eq_true] at hthis
      exact hthis.resolve_left fun hd => hkey (of_decide_eq_true hd)

/-! ## Whole runs -/

/-- One statement of a task. -/
theorem Inv.advance (h : Inv r p) {reply : Reply} (hcareful : Careful r p (.advance i reply))
    (hs : p.advance (taskStep cfg) i reply = some q) : Inv r q := by
  obtain ⟨t, s, t', ht, hstep, rfl⟩ := Pool.advance_eq_some hs
  cases t with
  | call t =>
    rw [taskStep] at hstep
    split at hstep
    · next hseen =>
      obtain ⟨⟨hub, u⟩, hu, heq⟩ := Option.map_eq_some_iff.mp hstep
      cases heq
      exact h.call ht hseen hcareful hu
    · cases hstep
  | deleting as =>
    cases as with
    | nil => cases hstep
    | cons a as =>
      cases reply with
      | ok now =>
        cases hstep
        exact h.sweep_delete ht fun hobj hne => mem_filter.mpr ⟨hobj, decide_eq_true hne.symm⟩
      | failed m =>
        cases hstep
        exact h.sweep_delete ht fun hobj _ => hobj
      | metadata m | cached x => cases hstep
  | removing a as =>
    cases reply with
    | ok now =>
      cases hstep
      exact h.sweep_remove ht
    | failed m | metadata m | cached x => cases hstep

/-- **ONE CAREFUL ACTION** keeps the invariant. -/
theorem inv_step {act : Act} (h : Inv r p) (hcareful : Careful r p act)
    (hs : step cfg r p act = some q) : Inv r q := by
  cases act with
  | completeUpload c =>
    cases hs
    exact h.spawn (h.beginWith (fun hmiss => ⟨rfl, rfl, rfl, rfl, nofun, hmiss⟩)
      fun _ => begun_err _ _) hcareful
  | completeUploadForPrincipal o c =>
    cases hs
    exact h.spawn (h.beginWith (fun hmiss => ⟨rfl, rfl, rfl, rfl, nofun, hmiss⟩)
      fun hfind => ⟨trivial, rfl, rfl, rfl, fun _ => hfind, fun _ => rfl⟩) hcareful
  | advance i reply => exact h.advance hcareful hs
  | reclaimExpiredUploads now limit locked =>
    cases hs
    exact h.reclaim hcareful
  | put objectKey =>
    cases hs
    refine ⟨h.pending, h.sizes, h.names, h.memory, h.concerns, h.sweeps, ?_⟩
    rcases h.mode with hl | hd
    · exact .inl (hl.mono hl.row hl.charged (mem_cons_of_mem _) id (fun _ ht => .inl ht) .inl)
    · exact .inr ⟨hd.silent, hd.idle, hd.gone⟩

/-- **READY ARTIFACTS ARE DURABLE** along every interleaving of completions
    and sweeps whose actions are careful. -/
theorem ready_durable {p₀ : Pool Shared Task} (h₀ : Start r p₀)
    (acts : List Act) (hcareful : Admitted (step cfg r) (Careful r) p₀ acts) :
    Along (step cfg r) (Durable r) p₀ acts :=
  Along.mono (fun _ => Inv.durable) acts p₀
    (inv_along_admitted (fun _ _ _ h hc hs => inv_step h hc hs) acts p₀ h₀.inv hcareful)

/-- The artifact of the declared upload. -/
def sampleRecord : ArtifactRecord :=
  Uploads.inputRecord "org" ⟨"a.png", "image/png", 5, Storage.sampleDigest⟩ "artifact"

/-- The Hub after the declaration, its object uploaded. -/
def samplePool : Pool Shared Task where
  shared := {
    hub := (run (Uploads.step Storage.sampleConfig) Storage.sampleWorld
      Storage.sampleUpload).elim Storage.sampleWorld.shared Pool.shared
    objects := [sampleRecord.objectKey]
    reported := false }
  tasks := []

theorem samplePool_start : Start sampleRecord samplePool where
  pending := rfl
  row := ⟨_, rfl, rfl⟩
  sizes := by
    intro a ha
    rw [mem_singleton.mp ha]
    decide
  names := by
    intro a ha _
    rw [mem_singleton.mp ha]
    rfl
  charged := ⟨5, rfl, by decide⟩
  memory := rfl
  tasks := rfl
  unreported := rfl

/-- What the object store says of the object. -/
def sampleMetadata : Uploads.ObjectMetadata :=
  ⟨5, some "image/png", some Storage.sampleDigest⟩

/-- A completion that declares what was uploaded. -/
def sampleCompletion : List Act :=
  [.completeUploadForPrincipal "org" ⟨"artifact", 5, Storage.sampleDigest⟩,
    .advance 0 (.metadata sampleMetadata), .advance 0 (.ok 6),
    .advance 0 (.ok 7)]

/-- It reports the artifact ready, and the artifact is. -/
theorem soleCompletion_durable : (∃ p, run (step Storage.sampleConfig sampleRecord) samplePool
        sampleCompletion = some p ∧ p.shared.reported = true)
      ∧ Along (step Storage.sampleConfig sampleRecord) (Durable sampleRecord)
        samplePool sampleCompletion := by
  refine ⟨⟨_, rfl, rfl⟩, ready_durable samplePool_start sampleCompletion ?_⟩
  refine .cons (fun t ht => absurd ht not_mem_nil) rfl ?_
  refine .cons ?_ rfl (.cons trivial rfl (.cons trivial rfl trivial))
  intro x c hx hmatch
  cases hx
  cases hmatch

/-- Two completions begin, the first with a wrong size.  The second reports
    the artifact ready; then the first throws it away. -/
def sampleRace : List Act :=
  [.completeUploadForPrincipal "org" ⟨"artifact", 4, Storage.sampleDigest⟩,
    .completeUploadForPrincipal "org" ⟨"artifact", 5, Storage.sampleDigest⟩,
    .advance 1 (.metadata sampleMetadata), .advance 1 (.ok 6),
    .advance 1 (.ok 7), .advance 0 (.metadata sampleMetadata),
    .advance 0 (.ok 8), .advance 0 (.ok 9), .advance 0 (.ok 10)]

/-- The caller was told `Ready`; the object is gone and the row's five bytes
    are charged to nobody. -/
theorem readyArtifact_discarded : Start sampleRecord samplePool
      ∧ ∃ p, run (step Storage.sampleConfig sampleRecord) samplePool sampleRace = some p
        ∧ p.shared.reported = true ∧ p.shared.objects = []
        ∧ counter p.shared.hub.store "org" = some 0
        ∧ stored p.shared.hub.store "org" = 5
        ∧ ¬ Durable sampleRecord p := by
  refine ⟨samplePool_start, _, rfl, rfl, rfl, rfl, rfl, fun hdur => ?_⟩
  exact not_mem_nil (hdur rfl).2.2

end Durability
