import Mathlib.Data.List.Perm.Subperm
import NagisaLake.RunProofs
import NagisaLake.UploadProofs

/-! # Inputs — a ready artifact is claimed by one job

`commit_new_job` claims its inputs with a conditional update: only rows
that are ready and without a job are taken, and all of them or none.  The
other writer of `artifacts.job_id` is `persist_artifact`: it writes every
column of a completed upload from the record the handler read when it
began, `job_id` included.  A completion that is still in progress when the
artifact is claimed writes the claim away.

`claims_stay_iff` is exact: claims stay in every state of a run if and only
if no step of it is such a write. -/

namespace Inputs

open Jobs KeyedTable Runs Transactions HubStore Artifacts Pools List Option Table
open Uploads (Config Hub Task Reply ArtifactRecord CompleteUploadRequest
  HubError Answer taskStep beginCompletion asI64)

/-! ## Completions and submissions -/

/-- The Hub with its handlers, and which job has claimed which artifact (a history variable). -/
structure World where
  hub : Uploads.World
  claims : List (Key × String)

/-- The claims of a transaction: the inputs of a job that was created. -/
def newClaims (s : Store) : StoreOp → List (Key × String)
  | .commitNewJob input idempotency admission =>
    match commitNewJob s input idempotency admission with
    | .ok (_, .created) => input.inputArtifactIds.map fun id =>
      ((input.organizationId, id), input.id)
    | _ => []
  | _ => []

/-- A completion begins, a handler takes its next step, or a transaction commits. -/
inductive Act where
  | completeUploadForPrincipal (o id : String) (q : CompleteUploadRequest)
  | advance (i : Nat) (reply : Reply)
  | perform (op : StoreOp)

/-- One action. -/
def step (cfg : Config) (w : World) : Act → Option World
  | .completeUploadForPrincipal o id q => some { w with
      hub := w.hub.spawn (beginCompletion w.hub.shared o id q) }
  | .advance i reply =>
    (w.hub.advance (taskStep cfg) i reply).map fun hub =>
      { w with hub := hub }
  | .perform op => some {
      hub := { w.hub with
        shared := { w.hub.shared with
          store := perform w.hub.shared.store op } }
      claims := newClaims w.hub.shared.store op ++ w.claims }

/-- Nobody is at work, and no claim has been made yet. -/
structure Start (w : World) : Prop where
  tasks : w.hub.tasks = []
  claims : w.claims = []

/-- A claimed artifact belongs to the job that claimed it, and so no other job has claimed it. -/
structure ClaimedOnce (w : World) : Prop where
  stays : ∀ k id, (k, id) ∈ w.claims →
    ∃ a, w.hub.shared.store.artifacts.find? k = some a ∧ a.jobId = some id
  once : ∀ k id id', (k, id) ∈ w.claims → (k, id') ∈ w.claims → id = id'

/-- The statement writes a completed upload over the claim of another job. -/
def Overwrites (w : World) : Act → Prop
  | .advance i (.ok _) => ∃ r id, w.hub.tasks[i]? = some (.persistReady r)
        ∧ 0 ≤ asI64 r.view.sizeBytes
        ∧ (r.key, id) ∈ w.claims ∧ r.view.jobId ≠ some id
  | _ => False

/-! ## What a transaction does to the claims -/

variable {o : String} {ids : List String} {s t : Store} {w : World}
  {cfg : Config}

/-- Rows of one organization differ in their ids. -/
theorem nodup_ids (s : Store) {p : ArtifactRow → Bool}
    (hp : ∀ a, p a = true → a.organizationId = o) :
    ((s.artifacts.rows.filter p).map ArtifactRow.id).Nodup := by
  apply s.artifacts.nodup_map_filter
  intro a b ha hb hid
  exact Prod.ext ((hp a ha).trans (hp b hb).symm) hid

theorem claimable_eq_true {a : ArtifactRow} (h : claimable o ids a = true) :
    a.organizationId = o ∧ a.id ∈ ids := by
  rw [claimable] at h
  simp only [Bool.and_eq_true, decide_eq_true_eq] at h
  exact ⟨h.1.1.1, h.1.1.2⟩

/-- **CLAIMING** takes as many rows as there are inputs: a row for each. -/
theorem claimInputs_perm {jobId : String} (h : claimInputs s o jobId ids = .ok t) :
    ((s.artifacts.rows.filter (claimable o ids)).map ArtifactRow.id).Perm
      ids := by
  rw [claimInputs] at h
  split at h
  · split at h
    · cases h
    · cases h
  next hlen =>
  rw [not_not] at hlen
  have hsub : (s.artifacts.rows.filter (claimable o ids)).map ArtifactRow.id ⊆ ids := by
    intro id hid
    obtain ⟨a, ha, rfl⟩ := mem_map.mp hid
    exact (claimable_eq_true (mem_filter.mp ha).2).2
  exact ((nodup_ids s fun _ ha => (claimable_eq_true ha).1).subperm hsub).perm_of_length_le hlen.ge

/-- Every input was ready, free and the organization's. -/
theorem claimInputs_all {jobId : String} (h : claimInputs s o jobId ids = .ok t) : ∀ id ∈ ids, ∃ a,
      s.artifacts.find? (o, id) = some a ∧ claimable o ids a = true := by
  intro id hid
  obtain ⟨a, ha, rfl⟩ := mem_map.mp ((claimInputs_perm h).mem_iff.mpr hid)
  obtain ⟨hmem, hclaim⟩ := mem_filter.mp ha
  refine ⟨a, ?_, hclaim⟩
  rw [← (claimable_eq_true hclaim).1]
  exact find?_of_mem hmem

/-- What a transaction does to the artifacts: nothing, or it claims the inputs of a new job. -/
inductive Claiming (s : Store) (op : StoreOp) : Prop
  | none (hclaims : newClaims s op = [])
      (hrows : (perform s op).artifacts = s.artifacts)
  | inputs (o id : String) (ids : List String)
      (hclaims : newClaims s op = ids.map fun a => ((o, a), id))
      (hfree : ∀ a ∈ ids, ∃ r, s.artifacts.find? (o, a) = some r ∧ claimable o ids r = true)
      (hrows : (perform s op).artifacts = s.artifacts.update (claimable o ids)
        (ArtifactRow.claim id) (ArtifactRow.claim_key id))

theorem claiming_newJob (s : Store) (input : JobUpsert)
    (idem : Option IdempotencyRow) (adm : Except StoreError Unit) :
    Claiming s (.commitNewJob input idem adm) := by
  cases hok : commitNewJob s input idem adm with
  | error e =>
    refine .none ?_ ?_
    · rw [newClaims, hok]
    · rw [perform, hok]
      rfl
  | ok p =>
    obtain ⟨t, r⟩ := p
    rcases commitNewJob_ok hok with ⟨rfl, hr⟩ | ⟨rfl, hnew⟩
    · refine .none ?_ ?_
      · rw [newClaims, hok]
        cases r with
        | created => exact absurd rfl hr
        | existing id => rfl
      · rw [perform, hok]
        rfl
    · refine .inputs input.organizationId input.id input.inputArtifactIds
        ?_ (claimInputs_all hnew.claimed) ?_
      · rw [newClaims, hok]
      · rw [perform, hok]
        exact congrArg Store.artifacts (claimInputs_ok hnew.claimed)

theorem claiming_perform (s : Store) (op : StoreOp) : Claiming s op := by
  cases op with
  | commitNewJob input idem adm => exact claiming_newJob s input idem adm
  | _ => exact .none rfl (artifacts_perform s _ nofun)

/-! ## What a completion does to the rows -/

/-- The statements of `complete_upload_for_principal`. -/
def completing : Task → Bool
  | .head _ _ | .discard _ | .releaseMismatch _ | .forget _
  | .persistReady _ | .rememberReady _ | .done _ => true
  | _ => false

theorem completing_begin (h : Hub) (o id : String) (q : CompleteUploadRequest) :
    completing (beginCompletion h o id q) = true := by
  rw [beginCompletion, Uploads.beginWith]
  repeat' split
  all_goals rfl

/-- What one statement leaves of the rows. -/
structure Completes (cfg : Config) (h : Hub) (t : Task) (reply : Reply)
    (h' : Hub) (t' : Task) : Prop where
  completing : completing t' = true
  rows : h'.store.artifacts = h.store.artifacts
    ∨ ∃ r now, t = .persistReady r ∧ reply = .ok now ∧ 0 ≤ asI64 r.view.sizeBytes
      ∧ h'.store.artifacts = h.store.artifacts.put (r.completed.row cfg now)

section Steps

variable {cfg : Config} {h h' : Hub} {t t' : Task} {reply : Reply}

theorem completes_of_eq {g : Hub} {u : Task}
    (hstep : some (g, u) = some (h', t')) (hu : Inputs.completing u = true)
    (hg : g.store.artifacts = h.store.artifacts) :
    Completes cfg h t reply h' t' := by
  cases hstep
  exact ⟨hu, .inl hg⟩

theorem completes_persistReady {r : ArtifactRecord}
    (hstep : taskStep cfg h (.persistReady r) reply = some (h', t')) :
    Completes cfg h (.persistReady r) reply h' t' := by
  cases reply with
  | ok now =>
    rw [taskStep] at hstep
    split at hstep
    · next s hs =>
      obtain ⟨-, hput, hsize⟩ := createArtifact_ok hs
      cases hstep
      exact ⟨rfl, .inr ⟨r, now, rfl, rfl, hsize, hput⟩⟩
    · exact completes_of_eq hstep rfl rfl
  | failed m => exact completes_of_eq hstep rfl rfl
  | _ => cases hstep

theorem completes_step (ht : completing t = true) (hstep : taskStep cfg h t reply = some (h', t')) :
    Completes cfg h t reply h' t' := by
  cases t with
  | head r q =>
    cases reply with
    | metadata m =>
      refine completes_of_eq hstep ?_ rfl
      split
      · rfl
      · rfl
    | failed m => exact completes_of_eq hstep rfl rfl
    | _ => cases hstep
  | discard r | releaseMismatch r =>
    cases reply with
    | ok now | failed m => exact completes_of_eq hstep rfl rfl
    | _ => cases hstep
  | forget r | rememberReady r =>
    cases reply with
    | ok now => exact completes_of_eq hstep rfl rfl
    | _ => cases hstep
  | persistReady r => exact completes_persistReady hstep
  | done result => cases reply <;> cases hstep
  | _ => cases ht

end Steps

/-! ## Whole runs -/

/-- Every claim is in the row, and nobody but completions is at work. -/
structure Inv (w : World) : Prop where
  stays : ∀ k id, (k, id) ∈ w.claims →
    ∃ a, w.hub.shared.store.artifacts.find? k = some a ∧ a.jobId = some id
  tasks : ∀ t ∈ w.hub.tasks, completing t = true

theorem Inv.claimedOnce (h : Inv w) : ClaimedOnce w where
  stays := h.stays
  once := by
    intro k id id' hid hid'
    obtain ⟨a, ha, hjob⟩ := h.stays k id hid
    obtain ⟨a', ha', hjob'⟩ := h.stays k id' hid'
    cases ha.symm.trans ha'
    exact some.inj (hjob.symm.trans hjob')

theorem inv_start (h : Start w) : Inv w where
  stays := by
    intro k id hmem
    rw [h.claims] at hmem
    cases hmem
  tasks := by
    intro t ht
    rw [h.tasks] at ht
    cases ht

/-- A claim of the inputs of a new job: earlier claims are not claimable again. -/
theorem stays_perform (h : Inv w) (op : StoreOp) :
    ∀ k id, (k, id) ∈ newClaims w.hub.shared.store op ++ w.claims →
      ∃ a, (perform w.hub.shared.store op).artifacts.find? k = some a ∧ a.jobId = some id := by
  intro k id hmem
  cases claiming_perform w.hub.shared.store op with
  | none hclaims hrows =>
    rw [hclaims, nil_append] at hmem
    rw [hrows]
    exact h.stays k id hmem
  | inputs o jobId ids hclaims hfree hrows =>
    rw [hrows]
    rw [hclaims] at hmem
    rcases mem_append.mp hmem with hnew | hold
    · obtain ⟨x, hx, heq⟩ := mem_map.mp hnew
      obtain ⟨rfl, rfl⟩ := Prod.mk.inj heq
      obtain ⟨r, hr, hclaim⟩ := hfree x hx
      refine ⟨r.claim jobId, ?_, rfl⟩
      rw [find?_update, hr, map_some, if_pos hclaim]
    · obtain ⟨a, ha, hjob⟩ := h.stays k id hold
      refine ⟨a, ?_, hjob⟩
      have hno : claimable o ids a = false := by
        rw [claimable, hjob]
        simp
      rw [find?_update, ha, map_some, hno]
      rfl

/-- The row after a completed upload was written. -/
theorem find?_written {artifacts : Table Key ArtifactRow
      ArtifactRow.key} {r : ArtifactRecord} {now : Int} (k : Key) :
    (artifacts.put (r.completed.row cfg now)).find? k
      = if r.key = k then some (r.completed.row cfg now)
        else artifacts.find? k :=
  find?_put artifacts _ k

theorem inv_advance {i : Nat} {reply : Reply} {hub : Uploads.World}
    (h : Inv w) (hkeeps : ¬ Overwrites w (.advance i reply))
    (hadv : w.hub.advance (taskStep cfg) i reply = some hub) :
    Inv { w with hub := hub } := by
  obtain ⟨t, h', t', ht, hstep, rfl⟩ := Pool.advance_eq_some hadv
  have hc := completes_step (h.tasks t (mem_of_getElem? ht)) hstep
  refine ⟨fun k id hmem => ?_, forall_tasks_set h.tasks hc.completing⟩
  obtain ⟨a, ha, hjob⟩ := h.stays k id hmem
  rcases hc.rows with hrows | ⟨r, now, rfl, rfl, hsize, hrows⟩
  · rw [hrows]
    exact ⟨a, ha, hjob⟩
  rw [hrows, find?_written]
  by_cases hk : r.key = k
  · -- the record the handler read agrees with the claim
    refine ⟨r.completed.row cfg now, if_pos hk, ?_⟩
    by_contra hother
    exact hkeeps ⟨r, id, ht, hsize, hk ▸ hmem, hother⟩
  · rw [if_neg hk]
    exact ⟨a, ha, hjob⟩

theorem inv_step {w' : World} {act : Act} (h : Inv w)
    (hkeeps : ¬ Overwrites w act) (hstep : step cfg w act = some w') :
    Inv w' := by
  cases act with
  | completeUploadForPrincipal o id q =>
    cases hstep
    exact ⟨h.stays, forall_tasks_spawn h.tasks (completing_begin _ o id q)⟩
  | advance i reply =>
    obtain ⟨hub, hadv, rfl⟩ := map_eq_some_iff.mp hstep
    exact inv_advance h hkeeps hadv
  | perform op =>
    cases hstep
    exact ⟨stays_perform h op, h.tasks⟩

/-- The statement that writes a completed upload. -/
theorem step_persistReady (cfg : Config) (now : Int) {i : Nat}
    {r : ArtifactRecord} (ht : w.hub.tasks[i]? = some (.persistReady r))
    (hsize : 0 ≤ asI64 r.view.sizeBytes) :
    ∃ w', step cfg w (.advance i (.ok now)) = some w' ∧ w'.claims = w.claims
      ∧ w'.hub.shared.store.artifacts
        = w.hub.shared.store.artifacts.put (r.completed.row cfg now) := by
  have hcreate : createArtifact w.hub.shared.store (r.completed.row cfg now)
      = .ok { w.hub.shared.store with
        artifacts := w.hub.shared.store.artifacts.put
          (r.completed.row cfg now) } := if_neg (Int.not_lt.mpr hsize)
  rw [step, Pool.advance, ht, bind_some, taskStep, hcreate]
  exact ⟨_, rfl, rfl, rfl⟩

/-- Writing over a claim breaks it at once. -/
theorem not_claimedOnce_of_overwrites {act : Act} (hover : Overwrites w act) :
    ∃ w', step cfg w act = some w' ∧ ¬ ClaimedOnce w' := by
  cases act with
  | completeUploadForPrincipal | perform => exact hover.elim
  | advance i reply =>
    cases reply with
    | ok now =>
      obtain ⟨r, id, ht, hsize, hmem, hother⟩ := hover
      obtain ⟨w', hstep, hclaims, hrows⟩ := step_persistReady cfg now ht hsize
      refine ⟨w', hstep, fun honce => ?_⟩
      rw [← hclaims] at hmem
      obtain ⟨a, ha, hjob⟩ := honce.stays r.key id hmem
      rw [hrows, find?_written, if_pos rfl] at ha
      cases ha
      exact hother hjob
    | failed | metadata | cached => exact hover.elim

/-- **CLAIMS STAY**: in every state of a run every claimed artifact belongs to
    the one job that claimed it, if and only if no step of the run writes a
    completed upload over the claim of another job. -/
theorem claims_stay_iff {cfg : Config} {w₀ : World} (h₀ : Start w₀) (acts : List Act) :
    Along (step cfg) ClaimedOnce w₀ acts
      ↔ Admitted (step cfg) (fun w act => ¬ Overwrites w act) w₀ acts :=
  along_iff_admitted (fun _ h => h.claimedOnce) (fun _ _ _ h hk hs => inv_step h hk hs)
    (fun _ _ _ hno => not_claimedOnce_of_overwrites (not_not.mp hno))
    acts w₀ (inv_start h₀)

/-- An upload of the sample organization that waits for its completion. -/
def sampleRecord : ArtifactRecord where
  organizationId := "org"
  view := ⟨"a", none, "in.png", "image/png", 5, "5a", .pendingUpload⟩
  objectKey := "organizations/org/inputs/a/in.png"

def sampleConfig : Config := ⟨100, "legacy", 60000⟩

/-- The upload is in the store and in memory. -/
def sampleWorld : World where
  hub := ⟨{
    store := { sampleStore with
      artifacts := Table.empty.put (sampleRecord.row sampleConfig 1) }
    artifacts := Table.empty.put sampleRecord
    pendingUploads := Table.empty
    jobs := Table.empty
    issued := Table.empty.put sampleRecord }, []⟩
  claims := []

theorem sampleWorld_start : Start sampleWorld := ⟨rfl, rfl⟩

/-- The client completes it. -/
def complete : Act := .completeUploadForPrincipal "org" "a" ⟨"a", 5, "5a"⟩

/-- The object is what was declared. -/
def found (i : Nat) : Act :=
  .advance i (.metadata ⟨5, some "image/png", some "5a"⟩)

/-- A job that reads the artifact. -/
def submit (id : String) (now : Int) : Act :=
  .perform (.commitNewJob ⟨"org", id, "workflow", "1", .object [], ["a"],
    "default/gpu", "org", "session", 1, now⟩ none (.ok ()))

/-- One completion, then one job: the claim stays. -/
theorem completedInput_claimed : Along (step sampleConfig) ClaimedOnce sampleWorld
      [complete, found 0, .advance 0 (.ok 2), .advance 0 (.ok 3), submit "first" 4] := by
  have hnone : ∀ (w : World) (i : Nat) (now : Int), w.claims = [] →
      ¬ Overwrites w (.advance i (.ok now)) := by
    rintro w i now hw ⟨r, id, -, -, hmem, -⟩
    rw [hw] at hmem
    cases hmem
  refine (claims_stay_iff sampleWorld_start _).mpr ?_
  refine .cons id rfl (.cons id rfl (.cons (hnone _ 0 2 rfl) rfl ?_))
  exact .cons (hnone _ 0 3 rfl) rfl (.cons id rfl trivial)

/-- Two completions of one upload: the second writes its old record after the
    first job has claimed the artifact, and a second job claims it too. -/
theorem slowCompletion_unclaims : (run (step sampleConfig) sampleWorld
        [complete, complete, found 0, found 1, .advance 0 (.ok 2),
          .advance 0 (.ok 3), submit "first" 4, .advance 1 (.ok 5),
          submit "second" 6]).map World.claims
        = some [(("org", "a"), "second"), (("org", "a"), "first")]
      ∧ ¬ Along (step sampleConfig) ClaimedOnce sampleWorld
        [complete, complete, found 0, found 1, .advance 0 (.ok 2),
          .advance 0 (.ok 3), submit "first" 4, .advance 1 (.ok 5),
          submit "second" 6] := by
  refine ⟨rfl, fun halong => ?_⟩
  have hlast := Along.last halong rfl
  have hsame := hlast.once ("org", "a") "first" "second" (by decide) (by decide)
  exact absurd hsame (by decide)

end Inputs
