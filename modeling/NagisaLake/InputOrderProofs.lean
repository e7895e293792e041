import NagisaLake.DispatchProofs
import NagisaLake.InputsProofs
import NagisaLake.RegistrationProofs

/-! # Input order — two builders of one list of inputs

A job names its inputs in the order the workflow binds them in.  The list
of `JobInput`s is built in two places.  `rebind_jobs_for_session` reads the
artifacts one by one.  `dispatch_outbox_entry` reads them with one query
and then takes each out of a map, so that an id the job names twice is
missing the second time.

`commit_new_job` claims the inputs and so refuses such a list;
`commit_new_batch` only asks that every shared input is ready.  A job
admitted by either is built in order by both builders if and only if it
names no input twice (`inputs_inOrder_iff`). -/

namespace InputOrder

open Jobs KeyedTable Runs Pools Transactions Protocol Artifacts Admission Table List
open Dispatch
open Uploads (Config Hub World ArtifactRecord HubError artifactRecord)
open HubStore hiding step

/-! ## The inputs of `rebind_jobs_for_session` -/

/-- The read cache: what it holds was read from the store under this id. -/
structure ReadCache where
  get : String → String → Option ArtifactRecord
  own : ∀ o id r, get o id = some r → r.view.id = id

/-- `artifact_record`, as the replay calls it. -/
def readInput (h : Hub) (cache : ReadCache) (organizationId id : String) :
    Except HubError ArtifactRecord :=
  match artifactRecord h organizationId id (cache.get organizationId id) with
  | none => .error (.notFound "artifact")
  | some r => .ok r

/-- The input of a record, with a download. -/
def signInput (signer : Signer) (r : ArtifactRecord) : Except HubError JobInput :=
  match signer.presignGet r.objectKey with
  | .error message => .error (.objectStore message)
  | .ok download => .ok ⟨r.view.id, r.view.name, r.view.contentType,
      r.view.sizeBytes.toNat, r.view.sha256, download⟩

/-- The inputs `rebind_jobs_for_session` builds for a job: all records at
    first, then the downloads. -/
def rebindInputs (h : Hub) (cache : ReadCache) (signer : Signer)
    (organizationId : String) (ids : List String) :
    Except HubError (List JobInput) :=
  (ids.mapM (readInput h cache organizationId)).bind fun artifacts =>
    artifacts.mapM (signInput signer)

/-- The `i`-th input refers to the `i`-th id, and there are no others. -/
def InOrder (ids : List String) (inputs : List JobInput) : Prop :=
  inputs.map JobInput.artifactId = ids

/-- The artifact is still there and ready. -/
def Ready (s : Store) (o id : String) : Prop :=
  ∃ a, s.artifacts.find? (o, id) = some a ∧ a.state = .ready

/-- Every download can be signed. -/
def Signs (signer : Signer) : Prop :=
  ∀ key, ∃ r, signer.presignGet key = .ok r

/-- Calls that all succeed give their results in order. -/
theorem mapM_labelled {ε α β γ : Type} {f : α → Except ε β} {k : α → γ}
    {g : β → γ} : ∀ {as : List α}, (∀ a ∈ as, ∃ b, f a = .ok b ∧ g b = k a) →
      ∃ bs, as.mapM f = .ok bs ∧ bs.map g = as.map k := by
  intro as
  induction as with
  | nil =>
    intro _
    exact ⟨[], rfl, rfl⟩
  | cons a as ih =>
    intro hall
    obtain ⟨b, hb, hab⟩ := hall a (mem_cons_self ..)
    obtain ⟨bs, hbs, habs⟩ :=
      ih fun x hx => hall x (mem_cons_of_mem a hx)
    refine ⟨b :: bs, ?_, ?_⟩
    · rw [mapM_cons, hb, hbs]
      rfl
    · rw [map_cons, map_cons, hab, habs]

variable {h : Hub} {o : String} {p q : World} {cfg : Config}

/-- The record an input is read as carries its id. -/
theorem readInput_ok {cache : ReadCache} {id : String} (hready : Ready h.store o id) :
    ∃ r, readInput h cache o id = .ok r ∧ r.view.id = id := by
  obtain ⟨a, ha, -⟩ := hready
  have hid : a.id = id := congrArg Prod.snd (key_of_find? ha)
  rw [readInput, artifactRecord]
  cases hmem : h.artifactOf o id with
  | some r =>
    obtain ⟨hfind, -⟩ := Option.filter_eq_some_iff.mp hmem
    have hown : r.id = id := key_of_find? hfind
    exact ⟨r, rfl, hown⟩
  | none =>
    cases hcached : cache.get o id with
    | some r => exact ⟨r, rfl, cache.own o id r hcached⟩
    | none =>
      rw [Uploads.storedRecord, ha]
      exact ⟨_, rfl, hid⟩

variable {signer : Signer} {ids : List String} {s t : Store}

theorem signInput_ok (hsigns : Signs signer) (r : ArtifactRecord) :
    ∃ i, signInput signer r = .ok i ∧ i.artifactId = r.view.id := by
  obtain ⟨download, hd⟩ := hsigns r.objectKey
  rw [signInput, hd]
  exact ⟨_, rfl, rfl⟩

/-- **THE REPLAY** builds the inputs of every list of ready artifacts. -/
theorem rebindInputs_inOrder (cache : ReadCache) (hsigns : Signs signer)
    (hready : ∀ id ∈ ids, Ready h.store o id) :
    ∃ inputs, rebindInputs h cache signer o ids = .ok inputs ∧ InOrder ids inputs := by
  have hreads : ∀ id ∈ ids, ∃ r, readInput h cache o id = .ok r
      ∧ r.view.id = id := fun id hid => readInput_ok (hready id hid)
  obtain ⟨records, hrecords, hread⟩ := mapM_labelled hreads
  have hsignings : ∀ r ∈ records, ∃ i, signInput signer r = .ok i
      ∧ i.artifactId = r.view.id := fun r _ => signInput_ok hsigns r
  obtain ⟨inputs, hinputs, hsigned⟩ := mapM_labelled hsignings
  refine ⟨inputs, ?_, ?_⟩
  · rw [rebindInputs, hrecords]
    exact hinputs
  · rw [InOrder, hsigned, hread, map_id']

/-! ## The inputs of `dispatch_outbox_entry` -/

/-- Taking an element out leaves the others where they are. -/
theorem find?_eraseP_of_disjoint {α : Type} {p q : α → Bool} (hne : ∀ a, p a = true → q a = false) :
    ∀ as : List α, (as.eraseP p).find? q = as.find? q := by
  intro as
  induction as with
  | nil => rfl
  | cons a as ih =>
    rw [eraseP_cons, find?_cons]
    cases hp : p a with
    | true => rw [hne a hp, cond_true]
    | false => rw [cond_false, find?_cons, ih]

/-- The query has found a row that can be sent. -/
def Servable (byId : List ArtifactRow) (id : String) : Prop :=
  ∃ a, byId.find? (fun a => a.id = id) = some a ∧ a.state = .ready ∧ 0 ≤ a.sizeBytes

/-- Distinct inputs are built in order. -/
theorem buildInputs_inOrder (hsigns : Signs signer) :
    ∀ {ids : List String} {byId : List ArtifactRow}, ids.Nodup → (∀ id ∈ ids, Servable byId id) →
      ∃ inputs, buildInputs signer byId ids = .ok inputs ∧ InOrder ids inputs := by
  intro ids
  induction ids with
  | nil =>
    intro byId _ _
    exact ⟨[], rfl, rfl⟩
  | cons id rest ih =>
    intro byId hnodup hall
    obtain ⟨hid, hrest⟩ := nodup_cons.mp hnodup
    obtain ⟨a, ha, hstate, hsize⟩ := hall id (mem_cons_self ..)
    obtain ⟨download, hd⟩ := hsigns a.objectKey
    -- what the first id takes out of the map is none of the others'
    have hleft : ∀ x ∈ rest, Servable (byId.eraseP fun a => a.id = id) x := by
      intro x hx
      obtain ⟨b, hb, hready⟩ := hall x (mem_cons_of_mem id hx)
      refine ⟨b, (find?_eraseP_of_disjoint ?_ byId).trans hb, hready⟩
      intro c hc
      refine decide_eq_false fun h => hid ?_
      rw [← of_decide_eq_true hc, h]
      exact hx
    obtain ⟨inputs, hinputs, horder⟩ := ih hrest hleft
    have hfound : (byId.find? fun a => a.id = id).filter
        (fun a => decide (a.state = .ready)) = some a :=
      Option.filter_eq_some_iff.mpr ⟨ha, decide_eq_true hstate⟩
    refine ⟨⟨id, a.name, a.contentType, a.sizeBytes.toNat, a.sha256, download⟩ :: inputs, ?_, ?_⟩
    · rw [buildInputs, hfound]
      show (if a.sizeBytes < 0 then _ else _) = _
      rw [if_neg (Int.not_lt.mpr hsize), hd]
      rw [hinputs]
      rfl
    · rw [InOrder, map_cons, horder]

/-- What is built was in the map, each id once. -/
theorem nodup_of_buildInputs :
    ∀ {ids : List String} {byId : List ArtifactRow} {inputs : List JobInput},
      (byId.map ArtifactRow.id).Nodup →
      buildInputs signer byId ids = .ok inputs →
      ids.Nodup ∧ ids ⊆ byId.map ArtifactRow.id := by
  intro ids
  induction ids with
  | nil =>
    intro byId inputs _ _
    exact ⟨nodup_nil, nil_subset _⟩
  | cons id rest ih =>
    intro byId inputs hnodup hok
    rw [buildInputs] at hok
    split at hok
    · cases hok
    next a ha =>
    obtain ⟨-, hok⟩ := check_eq_ok hok
    obtain ⟨download, -, hok⟩ := bind_eq_ok hok
    obtain ⟨more, hmore, -⟩ := map_eq_ok hok
    obtain ⟨hfound, -⟩ := Option.filter_eq_some_iff.mp ha
    have hmem := mem_of_find?_eq_some hfound
    have hid := find?_some hfound
    obtain ⟨b, front, back, -, hb, rfl, hleft⟩ :=
      exists_of_eraseP (p := fun a : ArtifactRow => a.id = id) hmem hid
    obtain rfl : b.id = id := of_decide_eq_true hb
    rw [hleft] at hmore
    rw [map_append, map_cons, nodup_middle, nodup_cons, ← map_append] at hnodup
    obtain ⟨hgone, hothers⟩ := hnodup
    obtain ⟨hrest, hsub⟩ := ih hothers hmore
    refine ⟨nodup_cons.mpr ⟨fun h => hgone (hsub h), hrest⟩, ?_⟩
    have hback := List.Sublist.append_left (sublist_cons_self b back) front
    refine cons_subset.mpr ⟨?_, fun x hx =>
      (hback.map ArtifactRow.id).subset (hsub hx)⟩
    exact mem_map_of_mem (mem_append_cons_self)

/-- The query finds an artifact of the organization under its id. -/
theorem find?_artifactsByIds {id : String} {a : ArtifactRow} (hid : id ∈ ids)
    (ha : s.artifacts.find? (o, id) = some a) :
    (artifactsByIds s o ids).find? (fun a => a.id = id) = some a := by
  have hkey : a.key = (o, id) := key_of_find? ha
  obtain ⟨ho, rfl⟩ := Prod.mk.inj hkey
  have hmem : a ∈ artifactsByIds s o ids := by
    refine mem_filter.mpr ⟨mem_of_find? ha, ?_⟩
    rw [Bool.and_eq_true]
    exact ⟨decide_eq_true ho, decide_eq_true hid⟩
  cases hfound : (artifactsByIds s o ids).find? (fun b => b.id = a.id) with
  | none =>
    exact absurd (decide_eq_true rfl) (find?_eq_none.mp hfound a hmem)
  | some b =>
    -- the row found has the same key, so it is the same row
    obtain ⟨hb, hof⟩ := mem_filter.mp (mem_of_find?_eq_some hfound)
    rw [Bool.and_eq_true] at hof
    have hsame : b.id = a.id := of_decide_eq_true
      (find?_some (p := fun b : ArtifactRow => b.id = a.id) hfound)
    have hkeyb : b.key = (o, a.id) :=
      Prod.ext (of_decide_eq_true hof.1) hsame
    have hfind := find?_of_mem hb
    rw [hkeyb, ha] at hfind
    exact hfind.symm

theorem nodup_artifactsByIds (s : Store) (o : String) (ids : List String) :
    ((artifactsByIds s o ids).map ArtifactRow.id).Nodup := by
  refine Inputs.nodup_ids s (o := o) fun a ha => ?_
  rw [Bool.and_eq_true] at ha
  exact of_decide_eq_true ha.1

/-! ## Sizes -/

/-- `CHECK (size_bytes >= 0)`. -/
def Sized (s : Store) : Prop :=
  ∀ k a, s.artifacts.find? k = some a → 0 ≤ a.sizeBytes

theorem Sized.unmoved (h : Sized s) (hsizes : ∀ k, (t.artifacts.find? k).map ArtifactRow.sizeBytes
      = (s.artifacts.find? k).map ArtifactRow.sizeBytes) : Sized t := by
  intro k a ha
  have hsize := hsizes k
  rw [ha, Option.map_some] at hsize
  obtain ⟨b, hb, hsame⟩ := Option.map_eq_some_iff.mp hsize.symm
  exact hsame ▸ h k b hb

theorem Sized.frame (h : Sized s) (heq : t.artifacts = s.artifacts) : Sized t :=
  h.unmoved fun _ => by rw [heq]

theorem sized_createArtifact {a : ArtifactRow} (h : Sized s)
    (hok : createArtifact s a = .ok t) : Sized t := by
  obtain ⟨hsize, hok⟩ := check_eq_ok hok
  cases hok
  intro k b hb
  rw [find?_put] at hb
  split at hb
  · cases hb
    exact Int.not_lt.mp hsize
  · exact h k b hb

theorem sized_perform (h : Sized s) (op : StoreOp) : Sized (perform s op) := by
  cases Inputs.claiming_perform s op with
  | none _ hrows => exact h.frame hrows
  | inputs o id ids _ _ hrows =>
    refine h.unmoved fun k => ?_
    rw [hrows, find?_update, Option.map_map]
    congr 1
    funext a
    show ArtifactRow.sizeBytes (if claimable o ids a then _ else a) = _
    split <;> rfl

/-- A statement of an upload handler. -/
theorem sized_taskStep {h' : Hub} {t t' : Uploads.Task}
    {reply : Uploads.Reply} (hs : Sized h.store)
    (hstep : Uploads.taskStep cfg h t reply = some (h', t')) :
    Sized h'.store := by
  cases Uploads.effect_of_step hstep with
  | quiet hq => exact hs.unmoved hq.store.sizes
  | reserved hok => exact hs.frame (reserveStorage_ok hok).1
  | born hok | written hok => exact sized_createArtifact hs hok
  | rolledBack | dropped => exact hs.frame rfl
  | leaked => exact hs

theorem sized_create {begun : Except HubError Uploads.Creation}
    {first : Uploads.Creation → Uploads.Task} (hs : Sized p.shared.store)
    (hstep : Uploads.create p begun first = some q) :
    Sized q.shared.store := by
  cases begun with
  | error e =>
    cases hstep
    exact hs
  | ok c =>
    obtain ⟨issued, -, rfl⟩ := Option.map_eq_some_iff.mp hstep
    exact hs

/-- One action of the Hub. -/
theorem sized_step {act : Dispatch.Act} (hs : Sized p.shared.store)
    (hstep : step cfg p act = some q) :
    Sized q.shared.store := by
  cases act with
  | store op =>
    cases hstep
    exact sized_perform hs op
  | residents jobs =>
    cases hstep
    exact hs
  | upload act _ =>
    cases act with
    | createUpload req id | createUploadForPrincipal o req id
    | prepareArtifactUpload w ready id => exact sized_create hs hstep
    | advance i reply =>
      obtain ⟨t, h', t', -, htask, rfl⟩ := Pool.advance_eq_some hstep
      exact sized_taskStep hs htask
    | reclaimExpiredUploads now limit locked =>
      cases hstep
      exact fun k a ha => hs k a (find?_reclaimExpiredUploads ha)
    | _ =>
      cases hstep
      exact hs

theorem sized_reachable (hs : Sized p.shared.store) (hreach : Reachable (step cfg) p q) :
    Sized q.shared.store :=
  inv_reachable (I := fun p : World => Sized p.shared.store) (fun _ _ _ => sized_step) hs hreach

/-! ## Admitted jobs -/

/-- A job was admitted: its key, the inputs it names, and the tables afterwards. -/
inductive Committed (s : Store) : Key → List String → Store → Prop
  | newJob {input : JobUpsert} {idempotency : Option IdempotencyRow}
      {admission : Except StoreError Unit} {t : Store}
      (hok : commitNewJob s input idempotency admission = .ok (t, .created)) :
      Committed s (input.organizationId, input.id) input.inputArtifactIds t
  | newBatch {batch : BatchRow} {children : List BatchChildJob}
      {sharedInputArtifactIds : List String}
      {idempotency : Option IdempotencyRow}
      {admission : Except StoreError Unit} {now : Int} {t : Store}
      (hok : commitNewBatch s batch children sharedInputArtifactIds
        idempotency admission now = .ok (t, .created))
      {child : BatchChildJob} (hchild : child ∈ children) :
      Committed s (batch.organizationId, child.jobId) child.inputArtifactIds t

/-- The row of an admitted job names its inputs. -/
theorem Committed.row {k : Key} (h : Committed s k ids t) :
    ∃ j, t.jobs.find? k = some j ∧ j.inputArtifactIds = ids := by
  cases h with
  | newJob hok =>
    exact ⟨_, (find?_insert (commitNewJob_created hok).jobs _).trans (if_pos rfl), rfl⟩
  | newBatch hok hchild =>
    exact ⟨_, find?_insertChildren (commitNewBatch_created hok).children _ hchild, rfl⟩

/-- Admitting a job is one transaction of the store. -/
theorem Committed.performed {k : Key} (h : Committed s k ids t) : ∃ op, perform s op = t := by
  cases h with
  | newJob hok => exact ⟨.commitNewJob _ _ _, congrArg (commit s) hok⟩
  | newBatch hok hchild =>
    exact ⟨.commitNewBatch _ _ _ _ _ _, congrArg (commit s) hok⟩

/-- Nothing but its inputs keeps the entry's job from being sent to this session. -/
structure Sendable (s : Store) (session : Key → Option String)
    (entry : OutboxRow) (sessionId : String) : Prop where
  bound : ∃ j organization worker stored, s.jobs.find? (entry.organizationId, entry.jobId) = some j
      ∧ j.state.isTerminal = false
      ∧ j.workerOrganizationId = some organization
      ∧ j.workerId = some worker ∧ j.sessionId = some stored
      ∧ session (organization, worker) = some sessionId
  attempt : entry.attempt ≤ u32Max

/-- The entry fails with its inputs, and with them only. -/
theorem dispatchOutboxEntry_eq {session : Key → Option String}
    {entry : OutboxRow} {sessionId : String} {j : JobRow}
    (hsend : Sendable s session entry sessionId)
    (hj : s.jobs.find? (entry.organizationId, entry.jobId) = some j) :
    dispatchOutboxEntry s session signer entry
      = match buildInputs signer (artifactsByIds s entry.organizationId
          j.inputArtifactIds) j.inputArtifactIds with
        | .error message => .failed message
        | .ok inputs => .built sessionId ⟨dispatchCommandId j.id entry.attempt,
            j.id, entry.attempt, j.workflowId, j.workflowVersion,
            j.parameters, inputs⟩ := by
  obtain ⟨j', organization, worker, stored, hj', hlive, ho, hw, hs, hhere⟩ :=
    hsend.bound
  obtain rfl : j' = j := Option.some.inj (hj'.symm.trans hj)
  have hfits : ¬ entry.attempt > u32Max := Nat.not_lt.mpr hsend.attempt
  rw [dispatchOutboxEntry, hj]
  cases hbuilt : buildInputs signer (artifactsByIds s entry.organizationId
      j'.inputArtifactIds) j'.inputArtifactIds with
  | error message | ok inputs =>
    simp only [hlive, ho, hw, hs, hhere, if_neg hfits, Bool.false_eq_true, if_false, hbuilt]

/-- **A JOB ADMITTED** by either transaction is built in order by both builders
    if and only if it names no input twice. -/
theorem inputs_inOrder_iff {cfg : Config} {p₀ p p' : World} {k : Key}
    {ids : List String} {t : Store} {signer : Signer}
    {session : Key → Option String} {entry : OutboxRow} {sessionId : String}
    (h₀ : Start p₀) (hbefore : Reachable (step cfg) p₀ p)
    (hcommitted : Committed p.shared.store k ids t)
    (hafter : Reachable (step cfg) (withStore p t) p')
    (hready : ∀ id ∈ ids, Ready p'.shared.store k.1 id)
    (hsigns : Signs signer) (hentry : (entry.organizationId, entry.jobId) = k)
    (hsend : Sendable p'.shared.store session entry sessionId)
    (cache : ReadCache) :
    ((∃ d, dispatchOutboxEntry p'.shared.store session signer entry
          = .built sessionId d ∧ InOrder ids d.inputs)
        ∧ ∃ inputs, rebindInputs p'.shared cache signer k.1 ids = .ok inputs ∧ InOrder ids inputs)
      ↔ ids.Nodup := by
  obtain rfl := hentry
  obtain ⟨op, hop⟩ := hcommitted.performed
  have hcalm := (follows_reachable (calm_start h₀) hbefore).calm
  have hstored : Reachable (step cfg) p (withStore p t) :=
    ⟨[.store op], by rw [← hop]; rfl⟩
  have hsized : Sized p'.shared.store := by
    refine sized_reachable ?_ ((hbefore.trans hstored).trans hafter)
    intro k a ha
    rw [h₀.rows] at ha
    cases ha
  have hkept := (follows_reachable (follows_reachable hcalm hstored).calm hafter).kept
  obtain ⟨j₀, hj₀, rfl⟩ := hcommitted.row
  obtain ⟨j, hj, hsame⟩ := hkept _ j₀ hj₀
  have hids : j.inputArtifactIds = j₀.inputArtifactIds :=
    congrArg Content.inputArtifactIds hsame
  rw [dispatchOutboxEntry_eq hsend hj, hids]
  constructor
  · rintro ⟨⟨d, hbuilt, -⟩, -⟩
    split at hbuilt
    · cases hbuilt
    · next inputs hinputs =>
      exact (nodup_of_buildInputs (nodup_artifactsByIds _ _ _) hinputs).1
  · intro hnodup
    have hserved : ∀ id ∈ j₀.inputArtifactIds, Servable (artifactsByIds
        p'.shared.store entry.organizationId j₀.inputArtifactIds) id := by
      intro id hid
      obtain ⟨a, ha, hstate⟩ := hready id hid
      exact ⟨a, find?_artifactsByIds hid ha, hstate, hsized _ a ha⟩
    obtain ⟨inputs, hinputs, horder⟩ :=
      buildInputs_inOrder hsigns hnodup hserved
    rw [hinputs]
    exact ⟨⟨_, rfl, horder⟩, rebindInputs_inOrder cache hsigns hready⟩

/-! Two inputs are uploaded, and a batch of one job reads them. -/

/-- An object store that signs every download. -/
def openSigner : Signer where
  presignGet := fun key => .ok ⟨"GET", "https:" ++ key, [], 1⟩
  downloadable := by
    intro key r hr
    cases hr
    refine ⟨rfl, blank_eq_false_iff.mpr ⟨'h', ?_, rfl⟩, Int.one_pos⟩
    simp

/-- A cache that holds nothing. -/
def emptyCache : ReadCache := ⟨fun _ _ => none, nofun⟩

def zeros : String :=
  "0000000000000000000000000000000000000000000000000000000000000000"

/-- The `i`-th upload, from the request to the completion. -/
def uploading (i : Nat) (id : String) (hid : blank id = false) : List Dispatch.Act :=
  let answered (i : Nat) : Dispatch.Act := .upload (.advance i (.ok 0)) trivial
  [.upload (.createUploadForPrincipal "org" ⟨"in", "image/png", 5, zeros⟩ id) hid,
    answered (2 * i), answered (2 * i), answered (2 * i), answered (2 * i),
    .upload (.completeUploadForPrincipal "org" id ⟨id, 5, zeros⟩) trivial,
    .upload (.advance (2 * i + 1) (.metadata ⟨5, some "image/png", some zeros⟩)) trivial,
    answered (2 * i + 1), answered (2 * i + 1)]

/-- An uploaded input. -/
def image (id : String) : ArtifactRecord where
  organizationId := "org"
  view := ⟨id, none, "in", "image/png", 5, zeros, .ready⟩
  objectKey := "organizations/org/inputs/" ++ id ++ "/in"

def pending (id : String) : ArtifactRecord :=
  { image id with view := { (image id).view with state := .pendingUpload } }

/-- The Hub with both inputs. -/
def supplied : World where
  shared := {
    store := { sampleStore with
      usage := Table.empty.put ⟨"org", 0, 10, 0, 0⟩
      artifacts := (Table.empty.put ((image "a").row sampleConfig 0)).put
        ((image "b").row sampleConfig 0) }
    artifacts := (Table.empty.put (image "a")).put (image "b")
    pendingUploads := Table.empty
    jobs := Table.empty
    issued := (Table.empty.put (pending "a")).put (pending "b") }
  tasks := [.done (.ok (.artifact (pending "a").view)), .done (.ok (.artifact (image "a").view)),
    .done (.ok (.artifact (pending "b").view)),
    .done (.ok (.artifact (image "b").view))]

theorem supplied_reachable : Reachable (step sampleConfig) sampleWorld supplied :=
  ⟨uploading 0 "a" rfl ++ uploading 1 "b" rfl, rfl⟩

/-- The batch. -/
def submitted (ids : List String) : Except StoreError (Store × CommitResult) :=
  commitNewBatch supplied.shared.store ⟨"org", "batch", "workflow", "1", .object [], none, none, 1⟩
    [⟨"job", .object [], ids⟩] ids none (.ok ()) 0

def bindJob : StoreOp :=
  .bindQueuedJob ("org", "job") "org" "worker" "session" 0

/-- The Hub once the batch is stored. -/
def admitted (ids : List String) : World :=
  withStore supplied (commit supplied.shared.store (submitted ids))

/-- The Hub once its job is bound to a session. -/
def dispatchable (ids : List String) : World :=
  withStore (admitted ids) (perform (admitted ids).shared.store bindJob)

theorem dispatchable_reachable (ids : List String) :
    Reachable (step sampleConfig) (admitted ids) (dispatchable ids) :=
  ⟨[.store bindJob], rfl⟩

/-- The job is admitted, its inputs are ready and a session waits for it. -/
structure Waits (ids : List String) : Prop where
  created : (submitted ids).toOption.map Prod.snd = some .created
  ready : ∀ id ∈ ids, (((dispatchable ids).shared.store.artifacts.find?
    ("org", id)).map ArtifactRow.state) = some .ready
  bound : ((dispatchable ids).shared.store.jobs.find? ("org", "job")).map
    (fun j => (j.state.isTerminal, j.workerOrganizationId, j.workerId,
      j.sessionId)) = some (false, some "org", some "worker", some "session")

theorem Waits.committed (h : Waits ids) : Committed supplied.shared.store ("org", "job") ids
      (commit supplied.shared.store (submitted ids)) := by
  obtain ⟨⟨t, r⟩, hr, rfl⟩ := Option.map_eq_some_iff.mp h.created
  have hok : submitted ids = .ok (t, .created) := by
    cases hs : submitted ids with rw [hs] at hr
    | error e =>
      cases hr
    | ok r =>
      exact congrArg Except.ok (Option.some.inj hr)
  rw [hok]
  exact .newBatch hok (mem_singleton_self _)

theorem Waits.inputs (h : Waits ids) : ∀ id ∈ ids, Ready (dispatchable ids).shared.store "org" id :=
  fun id hid => Option.map_eq_some_iff.mp (h.ready id hid)

theorem Waits.sendable (h : Waits ids) :
    Sendable (dispatchable ids).shared.store (fun _ => some "session") sampleEntry "session" where
  bound := by
    obtain ⟨j, hj, hbound⟩ := Option.map_eq_some_iff.mp h.bound
    simp only [Prod.mk.injEq] at hbound
    obtain ⟨hlive, ho, hw, hs⟩ := hbound
    exact ⟨j, _, _, _, hj, hlive, ho, hw, hs, rfl⟩
  attempt := by decide

/-- Two inputs, in the order the job names them. -/
theorem distinctInputs_built : ∃ d, dispatchOutboxEntry (dispatchable ["b", "a"]).shared.store
        (fun _ => some "session") openSigner sampleEntry = .built "session" d
      ∧ InOrder ["b", "a"] d.inputs := by
  have hwaits : Waits ["b", "a"] := by
    constructor
    all_goals decide +kernel
  exact ((inputs_inOrder_iff sampleWorld_start supplied_reachable
    hwaits.committed (dispatchable_reachable _) hwaits.inputs
    (fun key => ⟨_, rfl⟩) rfl hwaits.sendable emptyCache).mpr (by decide)).1

/-- A batch whose job reads the same image twice is admitted, and never dispatched. -/
theorem repeatedInput_rejected : Committed supplied.shared.store ("org", "job") ["a", "a"]
        (commit supplied.shared.store (submitted ["a", "a"]))
      ∧ (∀ id ∈ ["a", "a"], Ready (dispatchable ["a", "a"]).shared.store "org" id)
      ∧ Signs openSigner
      ∧ dispatchOutboxEntry (dispatchable ["a", "a"]).shared.store
        (fun _ => some "session") openSigner sampleEntry
          = .failed "input artifact a is not ready" := by
  have hwaits : Waits ["a", "a"] := by
    constructor
    all_goals decide +kernel
  exact ⟨hwaits.committed, hwaits.inputs, fun key => ⟨_, rfl⟩, rfl⟩

end InputOrder
