import NagisaLake.RunProofs
import NagisaLake.UploadProofs

/-! # Storage — the counter against the rows

The reserved bytes of an organization are the bytes of its artifact rows
plus what handlers in progress have reserved and not yet turned into a row
(`Balanced`).  When no handler is in progress the second part is zero and
the counter is exact.

Four statements break the balance, and `Keeps` rules them out one by one:
a rollback that fails, the rollback after `upsert_upload_request` failed
(the row stays), the release of an upload that does not match its
declaration (the row stays as well), and the row of a completed upload
written after the reaper took it.  `balanced_iff` shows that each of them
does break it. -/

namespace Storage

open Jobs KeyedTable Artifacts Pools Runs Uploads Table List Option
open HubStore hiding step

variable {cfg : Config} {o : String}

/-- The counter covers the rows and the reservations in progress, to the byte. -/
def Balanced (o : String) (p : World) : Prop :=
  counter p.shared.store o = some (stored p.shared.store o + held (Task.holds o) p.tasks)

/-- The counter is what the rows say. -/
def Exact (o : String) (p : World) : Prop :=
  counter p.shared.store o = some (stored p.shared.store o)

/-- No handler is in progress. -/
def Settled (p : World) : Prop := p.tasks.all Task.isDone = true

/-- The statement keeps the balance of the organization. -/
def keeps (o : String) (h : Hub) : Task → Reply → Prop
  | .release c false _, .failed _ => c.record.organizationId ≠ o
  | .release c true _, .ok _ =>
    c.record.organizationId = o → counter h.store o = some 0
  | .releaseMismatch r, .ok _ =>
    r.organizationId = o → counter h.store o = some 0
  | .persistReady r, .ok _ =>
    r.organizationId = o → 0 ≤ asI64 r.view.sizeBytes →
      (h.store.artifacts.find? r.key).isSome = true
  | _, _ => True

/-- The same of an action. -/
def Keeps (o : String) (p : World) : Act → Prop
  | .advance i reply => ∀ t, p.tasks[i]? = some t → keeps o p.shared t reply
  | _ => True

/-! ## Sizes -/

theorem bytes_nonneg (r : ArtifactRecord) : 0 ≤ r.bytes :=
  Int.natCast_nonneg _

/-- A row that passes the check says what was reserved. -/
theorem asI64_eq_bytes {r : ArtifactRecord}
    (h : 0 ≤ asI64 r.view.sizeBytes) : asI64 r.view.sizeBytes = r.bytes := by
  rw [asI64, ArtifactRecord.bytes] at *
  have hlt : r.view.sizeBytes.toNat < 18446744073709551616 :=
    r.view.sizeBytes.toNat_lt
  split at h
  · next hle =>
    rw [if_pos hle, Nat.min_eq_left hle]
  · omega

theorem holds_nonneg (o : String) (t : Task) : 0 ≤ t.holds o := by
  unfold Task.holds
  repeat' split
  all_goals first
    | exact bytes_nonneg _
    | exact Int.le_refl 0

/-- The id was given out for an artifact of this size. -/
def Known (issued : Table String ArtifactRecord ArtifactRecord.id) (r : ArtifactRecord) : Prop :=
  ∃ i, issued.find? r.view.id = some i ∧ i.bytes = r.bytes ∧ 0 < r.bytes

/-! ## The invariant -/

/-- Balance, and what keeps it: ids are given out once, with one size. -/
structure Ledger (o : String) (p : World) : Prop where
  balanced : Balanced o p
  sizes : ∀ k a, p.shared.store.artifacts.find? k = some a → 0 ≤ a.sizeBytes
  rows : ∀ x a, p.shared.store.artifacts.find? (o, x) = some a →
    ∃ i, p.shared.issued.find? x = some i ∧ a.sizeBytes = i.bytes
  memory : ∀ r ∈ p.shared.artifacts.rows, r.organizationId = o →
    r.view.state = .pendingUpload → Known p.shared.issued r
  records : ∀ t ∈ p.tasks, ∀ r, t.record = some r → r.organizationId = o → Known p.shared.issued r
  given : ∀ t ∈ p.tasks, ∀ k, t.unborn = some k → (p.shared.issued.find? k.2).isSome = true
  unborn : ∀ t ∈ p.tasks, ∀ x, t.unborn = some (o, x) → p.shared.store.artifacts.find? (o, x) = none
  apart : Apart Task.unborn p.tasks

/-- No artifact of the organization, none reserved, nobody at work. -/
structure Start (o : String) (p : World) : Prop where
  tasks : p.tasks = []
  counter : Artifacts.counter p.shared.store o = some 0
  rows : ∀ a ∈ p.shared.store.artifacts.rows, a.organizationId ≠ o
  sizes : ∀ a ∈ p.shared.store.artifacts.rows, 0 ≤ a.sizeBytes
  memory : ∀ r ∈ p.shared.artifacts.rows, r.organizationId ≠ o

theorem stored_nonneg {s : Store} (h : ∀ k a, s.artifacts.find? k = some a → 0 ≤ a.sizeBytes)
    (o : String) : 0 ≤ stored s o := by
  refine total_nonneg fun a ha => ?_
  rw [weight]
  split
  · exact h a.key a (find?_of_mem ha)
  · exact Int.le_refl 0

variable {p : World}

theorem ledger_start (h : Start o p) : Ledger o p := by
  have hnone : ∀ x a, p.shared.store.artifacts.find? (o, x) ≠ some a := by
    intro x a ha
    have hkey := key_of_find? ha
    exact h.rows a (mem_of_find? ha) (congrArg Prod.fst hkey)
  have hstored : stored p.shared.store o = 0 := by
    refine sum_eq_zero fun w hw => ?_
    obtain ⟨a, ha, rfl⟩ := mem_map.mp hw
    exact if_neg (h.rows a ha)
  have htasks : ∀ t, t ∉ p.tasks := by
    intro t ht
    rw [h.tasks] at ht
    cases ht
  refine ⟨?_, ?_, ?_, ?_, ?_, ?_, ?_, ?_⟩
  · rw [Balanced, h.counter, hstored, h.tasks]
    rfl
  · intro k a ha
    exact h.sizes a (mem_of_find? ha)
  · intro x a ha
    exact absurd ha (hnone x a)
  · intro r hr hro
    exact absurd hro (h.memory r hr)
  rotate_right
  · rw [h.tasks]
    exact apart_nil _
  all_goals exact fun t ht => absurd ht (htasks t)

/-! ## Requests arrive -/

/-- A handler that holds nothing yet and whose artifact is in memory. -/
def Fresh (o : String) (h : Hub) (t : Task) : Prop :=
  t.holds o = 0 ∧ t.unborn = none
    ∧ ∀ r, t.record = some r → r ∈ h.artifacts.rows ∧ r.view.state = .pendingUpload

theorem Ledger.spawn {t : Task} (L : Ledger o p) (ht : Fresh o p.shared t) :
    Ledger o (p.spawn t) where
  balanced := by
    rw [Balanced, Pool.spawn, held_spawn, ht.1, Int.add_zero]
    exact L.balanced
  sizes := L.sizes
  rows := L.rows
  memory := L.memory
  records := by
    refine forall_tasks_spawn L.records fun r hr hro => ?_
    obtain ⟨hmem, hpending⟩ := ht.2.2 r hr
    exact L.memory r hmem hro hpending
  given := by
    refine forall_tasks_spawn L.given fun k hk => ?_
    rw [ht.2.1] at hk
    cases hk
  unborn := by
    refine forall_tasks_spawn L.unborn fun x hx => ?_
    rw [ht.2.1] at hx
    cases hx
  apart := by
    refine L.apart.spawn fun u _ x hx => ?_
    rw [ht.2.1] at hx
    cases hx

theorem fresh_beginCompletion (o : String) (h : Hub) (b id : String) (q : CompleteUploadRequest) :
    Fresh o h (beginCompletion h b id q) := by
  refine beginWith_cases (fun e => ⟨rfl, rfl, nofun⟩) ?_ (fun r _ _ => ⟨rfl, rfl, nofun⟩)
  intro r hr hpending
  refine ⟨rfl, rfl, fun r' hr' => ?_⟩
  obtain rfl : r = r' := some.inj hr'
  obtain ⟨hfound, -⟩ := filter_eq_some_iff.mp hr
  exact ⟨mem_of_find? hfound, hpending⟩

/-- The other completions never write or release the artifact themselves. -/
theorem fresh_beginLegacyCompletion (cfg : Config) (o : String) (h : Hub)
    (id : String) (q : CompleteUploadRequest) : Fresh o h (beginLegacyCompletion cfg h id q) :=
  beginWith_cases (fun _ => ⟨rfl, rfl, nofun⟩) (fun _ _ _ => ⟨rfl, rfl, nofun⟩)
    (fun _ _ _ => ⟨rfl, rfl, nofun⟩)

theorem fresh_beginOutputCompletion (o : String) (h : Hub)
    (w : WorkerSession) (u : ArtifactUploaded) : Fresh o h (beginOutputCompletion h w u) := by
  rw [beginOutputCompletion]
  split
  · exact ⟨rfl, rfl, nofun⟩
  split
  all_goals exact ⟨rfl, rfl, nofun⟩

theorem bytes_pos {r : ArtifactRecord} (h : r.view.sizeBytes ≠ 0) : 0 < r.bytes := by
  have hne : r.view.sizeBytes.toNat ≠ 0 := fun e => h (UInt64.toNat_inj.mp e)
  rw [ArtifactRecord.bytes, i64Max]
  omega

theorem beginInput_size {b : String} {q : CreateUploadRequest} {id : String}
    {c : Creation} (h : beginInput cfg b q id = .ok c) :
    0 < c.record.bytes := by
  rw [beginInput] at h
  split at h
  · cases h
  next hvalid =>
  cases h
  exact bytes_pos (validateArtifactMetadata_eq_none hvalid).2.2.1

theorem beginOutput_size {h : Hub} {w : WorkerSession}
    {ready : ArtifactReady} {id : String} {c : Creation}
    (hok : beginOutput cfg h w ready id = .ok c) : 0 < c.record.bytes := by
  rw [beginOutput] at hok
  split at hok
  · cases hok
  next hsize =>
  split at hok
  · cases hok
  split at hok
  · cases hok
  split at hok
  · cases hok
    exact bytes_pos fun hzero => hsize (.inl hzero)
  · cases hok

/-- More ids given out leave the known ones known. -/
theorem Known.insert {issued issued' : Table String ArtifactRecord
    ArtifactRecord.id} {c r : ArtifactRecord} (h : Known issued r)
    (hins : issued.insert c = some issued') : Known issued' r := by
  obtain ⟨i, hi, hsize⟩ := h
  exact ⟨i, find?_insert_old hins hi, hsize⟩

/-- A new artifact under an id nobody has. -/
theorem Ledger.create {q : World} {begun : Except HubError Creation}
    {first : Creation → Task} (L : Ledger o p)
    (hsize : ∀ c, begun = .ok c → 0 < c.record.bytes)
    (hfirst : ∀ c, (first c).holds o = 0 ∧ (first c).unborn = some c.record.key
      ∧ (first c).record = some c.record)
    (hq : create p begun first = some q) : Ledger o q := by
  cases begun with
  | error e =>
    cases hq
    exact L.spawn ⟨rfl, rfl, nofun⟩
  | ok c =>
    obtain ⟨issued, hins, rfl⟩ := map_eq_some_iff.mp hq
    obtain ⟨hholds, hunborn, hrecord⟩ := hfirst c
    have hfresh : p.shared.issued.find? c.record.view.id = none :=
      (insert_eq_some_iff.mp hins).1
    have hself : issued.find? c.record.view.id = some c.record :=
      (find?_insert hins _).trans (if_pos rfl)
    refine ⟨?_, L.sizes, ?_, ?_, ?_, ?_, ?_, ?_⟩
    · rw [Balanced, held_spawn, hholds, Int.add_zero]
      exact L.balanced
    · intro x a ha
      obtain ⟨i, hi, hai⟩ := L.rows x a ha
      exact ⟨i, find?_insert_old hins hi, hai⟩
    · intro r hr hro hpending
      exact (L.memory r hr hro hpending).insert hins
    · refine forall_tasks_spawn (fun t ht r hr hro => (L.records t ht r hr hro).insert hins) ?_
      intro r hr _
      rw [hrecord] at hr
      cases hr
      exact ⟨c.record, hself, rfl, hsize c rfl⟩
    · refine forall_tasks_spawn ?_ ?_
      · intro t ht k hk
        obtain ⟨i, hi⟩ := Option.isSome_iff_exists.mp (L.given t ht k hk)
        rw [find?_insert_old hins hi]
        rfl
      · intro k hk
        rw [hunborn] at hk
        cases hk
        show (issued.find? c.record.view.id).isSome = true
        rw [hself]
        rfl
    · refine forall_tasks_spawn L.unborn ?_
      intro x hx
      rw [hunborn] at hx
      have hid : c.record.view.id = x :=
        congrArg Prod.snd (some.inj hx)
      -- a row under the id would have been given out before
      cases hrow : p.shared.store.artifacts.find? (o, x) with
      | none => rfl
      | some a =>
        obtain ⟨i, hi, -⟩ := L.rows x a hrow
        rw [← hid, hfresh] at hi
        cases hi
    · refine L.apart.spawn ?_
      intro u hu k hk hku
      rw [hunborn] at hk
      have hgiven := L.given u hu k hku
      rw [← some.inj hk] at hgiven
      change (p.shared.issued.find? c.record.view.id).isSome = true at hgiven
      rw [hfresh] at hgiven
      cases hgiven

/-! ## Handlers advance -/

section Advance

variable {p : World} {i : Nat} {t t' : Task} {h' : Hub}

/-- A statement that keeps the sum and writes only what it may. -/
theorem Ledger.advance (L : Ledger o p) (ht : p.tasks[i]? = some t)
    (hissued : h'.issued = p.shared.issued)
    (hbal : counter h'.store o = some (stored h'.store o
      + (held (Task.holds o) p.tasks + t'.holds o - t.holds o)))
    (hsizes : ∀ k a, h'.store.artifacts.find? k = some a → 0 ≤ a.sizeBytes)
    (hrows : ∀ x a, h'.store.artifacts.find? (o, x) = some a →
      ∃ i, p.shared.issued.find? x = some i ∧ a.sizeBytes = i.bytes)
    (hmemory : ∀ r ∈ h'.artifacts.rows, r.view.state = .pendingUpload →
      r ∈ p.shared.artifacts.rows ∨ t.record = some r)
    (hrecord : ∀ r, t'.record = some r → t.record = some r)
    (hunborn : ∀ k, t'.unborn = some k → t.unborn = some k)
    (hborn : ∀ u ∈ p.tasks.set i t', ∀ x, u.unborn = some (o, x) →
      p.shared.store.artifacts.find? (o, x) = none →
      h'.store.artifacts.find? (o, x) = none) :
    Ledger o ⟨h', p.tasks.set i t'⟩ := by
  have hmem := mem_of_getElem? ht
  have hnone : ∀ u ∈ p.tasks.set i t', ∀ x, u.unborn = some (o, x) →
      p.shared.store.artifacts.find? (o, x) = none :=
    forall_tasks_set L.unborn fun x hx => L.unborn t hmem x (hunborn _ hx)
  refine ⟨?_, hsizes, ?_, ?_, ?_, ?_, ?_, L.apart.set ht hunborn⟩
  · have hsum := held_set (Task.holds o) t' ht
    rw [Balanced, hbal]
    congr 2
    show _ = held (Task.holds o) (p.tasks.set i t')
    omega
  · rw [hissued]
    exact hrows
  · intro r hr hro hpending
    rw [hissued]
    rcases hmemory r hr hpending with hr' | hrec
    · exact L.memory r hr' hro hpending
    · exact L.records t hmem r hrec hro
  · rw [hissued]
    exact forall_tasks_set L.records fun r hr hro =>
      L.records t hmem r (hrecord r hr) hro
  · rw [hissued]
    exact forall_tasks_set L.given fun k hk => L.given t hmem k (hunborn k hk)
  · intro u hu x hx
    exact hborn u hu x hx (hnone u hu x hx)

variable {s : Store}

/-- Only the counter moves. -/
theorem Ledger.advance_counter (L : Ledger o p) (ht : p.tasks[i]? = some t)
    (hrows : s.artifacts = p.shared.store.artifacts)
    (hcounter : counter s o = some (stored p.shared.store o
      + (held (Task.holds o) p.tasks + t'.holds o - t.holds o)))
    (hrecord : ∀ r, t'.record = some r → t.record = some r)
    (hunborn : ∀ k, t'.unborn = some k → t.unborn = some k) :
    Ledger o ⟨{ p.shared with store := s }, p.tasks.set i t'⟩ := by
  have hsame : ∀ k, s.artifacts.find? k = p.shared.store.artifacts.find? k :=
    fun k => congrArg (·.find? k) hrows
  refine L.advance ht rfl ?_ (fun k a ha => L.sizes k a ((hsame k).symm.trans ha))
    (fun x a ha => L.rows x a ((hsame _).symm.trans ha)) (fun _ hr _ => .inl hr) hrecord hunborn
    (fun _ _ x _ h => (hsame _).trans h)
  show counter s o = some (s.artifacts.total (weight o) + _)
  rw [hrows]
  exact hcounter

/-- Neither counter nor rows move. -/
theorem Ledger.advance_quiet (L : Ledger o p) (ht : p.tasks[i]? = some t)
    (hq : Quiet p.shared t h' t') : Ledger o ⟨h', p.tasks.set i t'⟩ := by
  have hfound : ∀ k a, h'.store.artifacts.find? k = some a →
      ∃ b, p.shared.store.artifacts.find? k = some b ∧ b.sizeBytes = a.sizeBytes := by
    intro k a ha
    have hsize := hq.store.sizes k
    rw [ha] at hsize
    obtain ⟨b, hb, hba⟩ := map_eq_some_iff.mp hsize.symm
    exact ⟨b, hb, hba⟩
  refine L.advance ht hq.issued ?_ ?_ ?_ hq.memory hq.record hq.unborn ?_
  · rw [hq.store.counter, hq.store.stored, hq.holds o, L.balanced]
    congr 2
    omega
  · intro k a ha
    obtain ⟨b, hb, hba⟩ := hfound k a ha
    rw [← hba]
    exact L.sizes k b hb
  · intro x a ha
    obtain ⟨b, hb, hba⟩ := hfound (o, x) a ha
    rw [← hba]
    exact L.rows x b hb
  · intro u _ x _ hnone
    have hsize := hq.store.sizes (o, x)
    rw [hnone] at hsize
    exact map_eq_none_iff.mp hsize

/-- The row under a key counts for its organization only. -/
theorem weight_find? (s : Store) (o : String) (k : Key) :
    ((s.artifacts.find? k).map (weight o)).getD 0 = if k.1 = o
        then ((s.artifacts.find? k).map ArtifactRow.sizeBytes).getD 0
        else 0 := by
  cases h : s.artifacts.find? k with
  | none => split <;> rfl
  | some a =>
    have hkey : a.organizationId = k.1 :=
      congrArg Prod.fst (key_of_find? h)
    show weight o a = _
    rw [weight, hkey]
    rfl

/-- The rows' sum after `create_artifact`. -/
theorem stored_createArtifact {s' : Store} {a : ArtifactRow}
    (h : createArtifact s a = .ok s') (o : String) :
    stored s' o + ((s.artifacts.find? a.key).map (weight o)).getD 0 = stored s o + weight o a := by
  rw [stored, (createArtifact_ok h).2.1]
  exact total_put s.artifacts a (weight o)

/-- A statement that writes the row of its record. -/
theorem Ledger.advance_put (L : Ledger o p) (ht : p.tasks[i]? = some t)
    {a : ArtifactRow} {r : ArtifactRecord}
    (hs : createArtifact p.shared.store a = .ok s) (hkey : a.key = r.key)
    (hsize : a.sizeBytes = r.bytes) (hr : t.record = some r)
    (hmine : r.organizationId = o → ((p.shared.store.artifacts.find? r.key).map
        ArtifactRow.sizeBytes).getD 0 + t.holds o = r.bytes + t'.holds o)
    (hother : r.organizationId ≠ o → t.holds o = t'.holds o)
    (hnew : r.organizationId = o → ∀ u ∈ p.tasks.set i t',
      u.unborn = some r.key → p.shared.store.artifacts.find? r.key ≠ none)
    (hrecord : ∀ r, t'.record = some r → t.record = some r)
    (hunborn : ∀ k, t'.unborn = some k → t.unborn = some k) :
    Ledger o ⟨{ p.shared with store := s }, p.tasks.set i t'⟩ := by
  obtain ⟨husage, hput, hpos⟩ := createArtifact_ok hs
  have hfind : ∀ k, s.artifacts.find? k = if a.key = k then some a
      else p.shared.store.artifacts.find? k := by
    intro k
    rw [hput]
    exact find?_put _ a k
  refine L.advance ht rfl ?_ ?_ ?_ (fun _ hr _ => .inl hr) hrecord hunborn ?_
  · have hsum := stored_createArtifact hs o
    have horg : a.organizationId = r.organizationId := congrArg Prod.fst hkey
    rw [weight_find?, hkey, weight, horg, show r.key.1 = r.organizationId from rfl] at hsum
    have hcounter : counter s o = counter p.shared.store o := by
      rw [counter, husage, counter]
    show counter s o = some (stored s o + _)
    rw [hcounter, L.balanced]
    congr 1
    by_cases ho : r.organizationId = o
    · rw [if_pos ho, if_pos ho] at hsum
      have := hmine ho
      omega
    rw [if_neg ho, if_neg ho] at hsum
    have := hother ho
    omega
  · intro k b hb
    rw [hfind] at hb
    split at hb
    · cases hb
      exact hpos
    · exact L.sizes k b hb
  · intro x b hb
    rw [hfind] at hb
    split at hb
    · next hk =>
      rw [hkey] at hk
      obtain ⟨j, hj, hjr, -⟩ := L.records t (mem_of_getElem? ht) r hr (congrArg Prod.fst hk)
      rw [show r.view.id = x from congrArg Prod.snd hk] at hj
      exact ⟨j, hj, by rw [← some.inj hb, hsize, hjr]⟩
    · exact L.rows x b hb
  · intro u hu x hx hnone
    rw [hfind]
    split
    · next hk =>
      rw [hkey] at hk
      rw [← hk] at hx hnone
      exact absurd hnone (hnew (congrArg Prod.fst hk) u hu hx)
    · exact hnone

/-- A reservation becomes a row. -/
theorem Ledger.advance_born (L : Ledger o p) {c : Creation} {now : Int}
    (ht : p.tasks[i]? = some (.persist c))
    (hs : createArtifact p.shared.store (c.record.row cfg now) = .ok s)
    (hholds : ∀ o, t'.holds o = 0) (hunborn : t'.unborn = none)
    (hrecord : t'.record = some c.record) :
    Ledger o ⟨{ p.shared with store := s }, p.tasks.set i t'⟩ := by
  refine L.advance_put ht hs rfl (asI64_eq_bytes (createArtifact_ok hs).2.2)
    rfl ?_ ?_ ?_ (fun r hr => hrecord.symm.trans hr) ?_
  · rintro rfl
    rw [show p.shared.store.artifacts.find? c.record.key = none from
      L.unborn _ (mem_of_getElem? ht) c.record.view.id rfl, hholds]
    show (0 : Int) + (if c.record.organizationId = c.record.organizationId
      then c.record.bytes else 0) = c.record.bytes + 0
    rw [if_pos rfl]
    omega
  · intro ho
    rw [hholds]
    exact if_neg ho
  · -- nobody else is about to insert the same row
    intro _ u hu hx
    exfalso
    obtain ⟨j, hj⟩ := mem_iff_getElem?.mp hu
    rcases set_cases hj with ⟨-, rfl⟩ | ⟨hij, hold⟩
    · rw [hunborn] at hx
      cases hx
    · exact L.apart i j _ u _ (Ne.symm hij) ht hold rfl hx
  · intro k hk
    rw [hunborn] at hk
    cases hk

/-- The row of a completed upload replaces its pending row. -/
theorem Ledger.advance_written (L : Ledger o p) {r : ArtifactRecord}
    {now : Int} (ht : p.tasks[i]? = some (.persistReady r))
    (hs : createArtifact p.shared.store (r.completed.row cfg now) = .ok s)
    (hkeeps : keeps o p.shared (.persistReady r) (.ok now)) :
    Ledger o ⟨{ p.shared with store := s }, p.tasks.set i (.rememberReady r)⟩ := by
  have hpos : 0 ≤ asI64 r.view.sizeBytes := (createArtifact_ok hs).2.2
  refine L.advance_put (r := r) ht hs rfl (asI64_eq_bytes hpos) rfl ?_
    (fun _ => rfl) ?_ (fun _ => id) nofun
  · intro ho
    obtain ⟨b, hb⟩ := Option.isSome_iff_exists.mp (hkeeps ho hpos)
    obtain ⟨j, hj, hjr, -⟩ := L.records _ (mem_of_getElem? ht) r rfl ho
    have hkey : r.key = (o, r.view.id) := by rw [← ho]; rfl
    rw [hkey] at hb ⊢
    obtain ⟨j', hj', hbj⟩ := L.rows r.view.id b hb
    cases hj.symm.trans hj'
    rw [hb]
    show b.sizeBytes + 0 = r.bytes + 0
    rw [hbj, hjr]
  · intro ho u _ _ hnone
    have hsome := hkeeps ho hpos
    rw [hnone] at hsome
    cases hsome

/-- **ONE STATEMENT** that keeps the balance keeps the ledger. -/
theorem Ledger.advance_effect (L : Ledger o p) {reply : Reply}
    (ht : p.tasks[i]? = some t) (hkeeps : keeps o p.shared t reply)
    (heff : Effect cfg p.shared t reply h' t') :
    Ledger o ⟨h', p.tasks.set i t'⟩ := by
  have hrest : 0 ≤ stored p.shared.store o := stored_nonneg L.sizes o
  have hle : t.holds o ≤ held (Task.holds o) p.tasks :=
    le_held (fun u _ => holds_nonneg o u) (mem_of_getElem? ht)
  cases heff with
  | quiet hq => exact L.advance_quiet ht hq
  | @reserved c now s hs =>
    obtain ⟨hrows, -, hcounter⟩ := reserveStorage_ok hs
    refine L.advance_counter ht hrows ?_ (fun _ => id) (fun _ => id)
    rw [hcounter, L.balanced]
    show some (if c.record.organizationId = o then _ else _) = some (_
      + (_ + (if c.record.organizationId = o then _ else _) - 0))
    split
    · congr 1
      omega
    · congr 1
      omega
  | born hs hholds hunborn hrecord =>
    exact L.advance_born ht hs hholds hunborn hrecord
  | @rolledBack c persisted e now =>
    refine L.advance_counter ht rfl ?_ nofun nofun
    rw [counter_releaseStorage, L.balanced]
    have hbytes := bytes_nonneg c.record
    cases persisted with
    | false =>
      change (if c.record.organizationId = o then _ else _) ≤ _ at hle
      show some (if c.record.organizationId = o then _ else _) = some (_
        + (_ + 0 - (if c.record.organizationId = o then _ else _)))
      split
      · next ho =>
        rw [if_pos ho] at hle
        congr 1
        omega
      · congr 1
        omega
    | true =>
      show some (if c.record.organizationId = o then _ else _) = some (_ + (_ + 0 - 0))
      split
      · next ho =>
        have hzero := hkeeps ho
        rw [L.balanced] at hzero
        have := some.inj hzero
        congr 1
        omega
      · congr 1
        omega
  | @leaked c persisted e m =>
    refine L.advance_counter ht rfl ?_ nofun nofun
    rw [L.balanced]
    cases persisted with
    | false =>
      show _ = some (_ + (_ + 0 - (if c.record.organizationId = o then _ else _)))
      rw [if_neg hkeeps]
      congr 1
      omega
    | true =>
      show _ = some (_ + (_ + 0 - 0))
      congr 1
      omega
  | @dropped r now =>
    refine L.advance_counter ht rfl ?_ (fun _ => id) nofun
    rw [counter_releaseStorage, L.balanced]
    show some (if r.organizationId = o then _ else _) = some (_ + (_ + 0 - 0))
    split
    · next ho =>
      have hzero := hkeeps ho
      rw [L.balanced] at hzero
      have := some.inj hzero
      congr 1
      omega
    · congr 1
      omega
  | written hs => exact L.advance_written ht hs hkeeps

end Advance

/-! ## Whole runs -/

/-- The reaper takes rows and bytes together. -/
theorem Ledger.reclaim (L : Ledger o p) (now : Int) (limit : Nat)
    (locked : List Key) (ids : List String) :
    Ledger o ⟨{ p.shared with
      store := (reclaimExpiredUploads p.shared.store now limit locked).1 },
      p.tasks ++ [.sweep ids]⟩ := by
  have hpos : ∀ a ∈ p.shared.store.artifacts.rows, 0 ≤ a.sizeBytes :=
    fun a ha => L.sizes a.key a (find?_of_mem ha)
  have hheld : 0 ≤ held (Task.holds o) p.tasks :=
    held_nonneg fun t _ => holds_nonneg o t
  have hkept : ∀ k a, (reclaimExpiredUploads p.shared.store now limit
      locked).1.artifacts.find? k = some a →
      p.shared.store.artifacts.find? k = some a :=
    fun _ _ h => find?_reclaimExpiredUploads h
  refine ⟨?_, fun k a ha => L.sizes k a (hkept k a ha),
    fun x a ha => L.rows x a (hkept (o, x) a ha), L.memory,
    forall_tasks_spawn L.records nofun, forall_tasks_spawn L.given nofun, ?_,
    L.apart.spawn fun _ _ _ hx => nomatch hx⟩
  · rw [Balanced, held_spawn]
    show counter _ o = some (stored (reclaimExpiredUploads p.shared.store now
      limit locked).1 o + (_ + 0))
    rw [reclaimExpiredUploads_balance hpos L.balanced (by omega)]
    congr 1
    omega
  · refine forall_tasks_spawn ?_ nofun
    intro t ht x hx
    cases hrow : (reclaimExpiredUploads p.shared.store now limit
        locked).1.artifacts.find? (o, x) with
    | none => rfl
    | some a =>
      have hold := hkept (o, x) a hrow
      rw [L.unborn t ht x hx] at hold
      cases hold

/-- **ONE ACTION** that keeps the balance keeps the ledger. -/
theorem ledger_step {q : World} {act : Act} (L : Ledger o p)
    (hkeeps : Keeps o p act) (hstep : step cfg p act = some q) :
    Ledger o q := by
  cases act with
  | createUpload req id | createUploadForPrincipal b req id =>
    exact L.create (fun _ h => beginInput_size h) (fun _ => ⟨rfl, rfl, rfl⟩) hstep
  | prepareArtifactUpload w ready id =>
    exact L.create (fun _ h => beginOutput_size h) (fun _ => ⟨rfl, rfl, rfl⟩) hstep
  | completeUpload id req =>
    cases hstep
    exact L.spawn (fresh_beginLegacyCompletion cfg o p.shared id req)
  | completeUploadForPrincipal b id req =>
    cases hstep
    exact L.spawn (fresh_beginCompletion o p.shared b id req)
  | completeArtifactUpload w u =>
    cases hstep
    exact L.spawn (fresh_beginOutputCompletion o p.shared w u)
  | advance i reply =>
    obtain ⟨t, h', t', ht, hts, rfl⟩ := Pool.advance_eq_some hstep
    exact L.advance_effect ht (hkeeps t ht) (effect_of_step hts)
  | reclaimExpiredUploads now limit locked =>
    cases hstep
    exact L.reclaim now limit locked _
  | moveJobs rows jobs =>
    cases hstep
    exact ⟨L.balanced, L.sizes, L.rows, L.memory, L.records, L.given, L.unborn, L.apart⟩
  | evict ids =>
    cases hstep
    exact ⟨L.balanced, L.sizes, L.rows, forall_delete L.memory, L.records,
      L.given, L.unborn, L.apart⟩

/-! ## The four statements do break the balance -/

section Drift

variable {p : World} {i : Nat} {t t' : Task} {h' : Hub} {reply : Reply}

/-- A statement whose effect on the counter is not its effect on rows and reservations. -/
theorem unbalanced_of_step (ht : p.tasks[i]? = some t)
    (hts : taskStep cfg p.shared t reply = some (h', t'))
    (hne : counter h'.store o ≠ some (stored h'.store o
      + (held (Task.holds o) p.tasks + t'.holds o - t.holds o))) :
    ∃ q, step cfg p (.advance i reply) = some q ∧ ¬ Balanced o q := by
  refine ⟨⟨h', p.tasks.set i t'⟩, ?_, ?_⟩
  · rw [step, Pool.advance, ht, bind_some, hts]
    rfl
  have hsum := held_set (Task.holds o) t' ht
  rw [Balanced, show held (Task.holds o) (p.tasks.set i t')
    = held (Task.holds o) p.tasks + t'.holds o - t.holds o by omega]
  exact hne

/-- A release of bytes nobody holds moves a counter that is not zero. -/
theorem counter_stray_release (L : Ledger o p) {r : ArtifactRecord}
    (hr : 0 < r.bytes) (hne : counter p.shared.store o ≠ some 0) :
    counter (releaseStorage p.shared.store o r.bytes) o
      ≠ some (stored p.shared.store o + held (Task.holds o) p.tasks) := by
  rw [L.balanced] at hne
  have hpos : stored p.shared.store o + held (Task.holds o) p.tasks ≠ 0 :=
    fun e => hne (congrArg some e)
  rw [counter_releaseStorage, L.balanced, map_some, if_pos rfl]
  intro heq
  have := some.inj heq
  omega

/-- A row written without a reservation. -/
theorem stored_written (L : Ledger o p) {r : ArtifactRecord} {now : Int}
    {s : Store} (hs : createArtifact p.shared.store (r.completed.row cfg now)
      = .ok s) (hpos : 0 ≤ asI64 r.view.sizeBytes) (hr : 0 < r.bytes)
    (ho : r.organizationId = o)
    (hnone : p.shared.store.artifacts.find? r.key = none) :
    counter s o ≠ some (stored s o + held (Task.holds o) p.tasks) := by
  have hsum := stored_createArtifact hs o
  have hsize : weight o (r.completed.row cfg now) = r.bytes := by
    show (if r.organizationId = o then asI64 r.view.sizeBytes else 0) = _
    rw [if_pos ho, asI64_eq_bytes hpos]
  rw [show (r.completed.row cfg now).key = r.key from rfl, hnone, hsize] at hsum
  change stored s o + 0 = _ at hsum
  rw [counter, (createArtifact_ok hs).1]
  change counter p.shared.store o ≠ _
  rw [L.balanced]
  intro heq
  have := some.inj heq
  omega

/-- **EACH EXCEPTION IS NEEDED**: a statement that `Keeps` rules out is enabled
    and loses the balance. -/
theorem unbalanced_of_not_keeps {act : Act} (L : Ledger o p) (hno : ¬ Keeps o p act) :
    ∃ q, step cfg p act = some q ∧ ¬ Balanced o q := by
  cases act with
  | advance i reply =>
    change ¬ (∀ t, p.tasks[i]? = some t → keeps o p.shared t reply) at hno
    push Not at hno
    obtain ⟨t, ht, hno⟩ := hno
    have hknown := L.records t (mem_of_getElem? ht)
    rw [keeps.eq_def] at hno
    split at hno
    case h_1 c e m =>
      rw [not_not] at hno
      obtain ⟨-, -, -, hr⟩ := hknown c.record rfl hno
      refine unbalanced_of_step ht rfl ?_
      show counter p.shared.store o ≠ some (_ + (_ + 0
        - (if c.record.organizationId = o then _ else _)))
      rw [if_pos hno, L.balanced]
      intro heq
      have := some.inj heq
      omega
    case h_2 | h_3 =>
      obtain ⟨ho, hne⟩ := Classical.not_imp.mp hno
      obtain ⟨-, -, -, hr⟩ := hknown _ rfl ho
      refine unbalanced_of_step ht rfl ?_
      rw [ho]
      show _ ≠ some (_ + (_ + 0 - 0))
      rw [Int.add_zero, Int.sub_zero]
      exact counter_stray_release L hr hne
    case h_4 r now =>
      obtain ⟨ho, hno⟩ := Classical.not_imp.mp hno
      obtain ⟨hpos, hno⟩ := Classical.not_imp.mp hno
      obtain ⟨-, -, -, hr⟩ := hknown r rfl ho
      have hnone : p.shared.store.artifacts.find? r.key = none :=
        not_isSome_iff_eq_none.mp hno
      obtain ⟨s, hs⟩ : ∃ s, createArtifact p.shared.store (r.completed.row cfg now) = .ok s :=
        ⟨_, if_neg (Int.not_lt.mpr hpos)⟩
      have hts : taskStep cfg p.shared (.persistReady r) (.ok now)
          = some ({ p.shared with store := s }, .rememberReady r) := by
        rw [taskStep, hs]
      refine unbalanced_of_step ht hts ?_
      show _ ≠ some (_ + (_ + 0 - 0))
      rw [Int.add_zero, Int.sub_zero]
      exact stored_written L hs hpos hr ho hnone
    case h_5 => exact absurd trivial hno
  | _ => exact absurd trivial hno

end Drift

/-- The balance holds all along a run if and only if no step of the run is one of the four. -/
theorem balanced_iff {p₀ : World} (h₀ : Start o p₀) (acts : List Act) :
    Along (step cfg) (Balanced o) p₀ acts ↔ Admitted (step cfg) (Keeps o) p₀ acts :=
  along_iff_admitted (fun _ L => L.balanced) (fun _ _ _ L hk hs => ledger_step L hk hs)
    (fun _ _ L hno => unbalanced_of_not_keeps L hno) acts p₀ (ledger_start h₀)

/-- With nobody at work, balance is exactness. -/
theorem exact_of_balanced (hb : Balanced o p) (hs : Settled p) : Exact o p := by
  have hzero : held (Task.holds o) p.tasks = 0 := by
    refine held_eq_zero fun t ht => ?_
    have hdone := all_eq_true.mp hs t ht
    cases t with
    | done result => rfl
    | _ => cases hdone
  rw [Exact, hb, hzero, Int.add_zero]

/-- **STORAGE QUOTA EQUALS STORED METADATA** whenever no handler is in progress, along every
    interleaving of handlers and reaper in which no statement is one of the four. -/
theorem storage_exact {p₀ : World} (h₀ : Start o p₀) (acts : List Act)
    (hkeeps : Admitted (step cfg) (Keeps o) p₀ acts) :
    Along (step cfg) (fun p => Settled p → Exact o p) p₀ acts :=
  Along.mono (fun _ hb hs => exact_of_balanced hb hs) acts p₀ ((balanced_iff h₀ acts).mpr hkeeps)

/-- A Hub without artifacts. -/
def sampleWorld : World where
  shared := {
    store := sampleStore
    artifacts := Table.empty
    pendingUploads := Table.empty
    jobs := Table.empty
    issued := Table.empty }
  tasks := []

def sampleConfig : Config := ⟨100, "legacy", 60000⟩

theorem sampleWorld_start : Start "org" sampleWorld where
  tasks := rfl
  counter := rfl
  rows := nofun
  sizes := nofun
  memory := nofun

def sampleDigest : String :=
  "aaaaaaaaaaaaaaaaaaaaaaaaaaaaaaaaaaaaaaaaaaaaaaaaaaaaaaaaaaaaaaaa"

/-- An upload of five bytes is declared and its row is written. -/
def sampleUpload : List Act :=
  [.createUploadForPrincipal "org" ⟨"a.png", "image/png", 5, sampleDigest⟩
    "artifact", .advance 0 (.ok 1), .advance 0 (.ok 2), .advance 0 (.ok 3),
    .advance 0 (.ok 4)]

/-- The client then uploads four bytes and asks for the completion. -/
def sampleMismatch : List Act :=
  [.completeUploadForPrincipal "org" "artifact" ⟨"artifact", 5, sampleDigest⟩,
    .advance 1 (.metadata ⟨4, some "image/png", some sampleDigest⟩),
    .advance 1 (.ok 6), .advance 1 (.ok 7), .advance 1 (.ok 8)]

/-- The declared upload is counted. -/
theorem declaredUpload_counted : Along (step sampleConfig) (fun p => Settled p → Exact "org" p)
      sampleWorld sampleUpload := by
  have htrivial : ∀ (p : World) (t : Task) (now : Int) (i : Nat),
      p.tasks[i]? = some t → (∀ h, keeps "org" h t (.ok now)) →
      Keeps "org" p (.advance i (.ok now)) := by
    intro p t now i ht hk u hu
    cases ht.symm.trans hu
    exact hk p.shared
  refine storage_exact sampleWorld_start sampleUpload ?_
  refine .cons trivial rfl ?_
  refine .cons (htrivial _ _ 1 0 rfl fun _ => trivial) rfl ?_
  refine .cons (htrivial _ _ 2 0 rfl fun _ => trivial) rfl ?_
  refine .cons (htrivial _ _ 3 0 rfl fun _ => trivial) rfl ?_
  exact .cons (htrivial _ _ 4 0 rfl fun _ => trivial) rfl trivial

/-- The release of the mismatched upload leaves its row: five bytes stored,
    none counted, nobody at work. -/
theorem mismatchedUpload_uncounted : Start "org" sampleWorld
      ∧ ∃ p, run (step sampleConfig) sampleWorld (sampleUpload ++ sampleMismatch) = some p
        ∧ Settled p ∧ counter p.shared.store "org" = some 0
        ∧ stored p.shared.store "org" = 5 :=
  ⟨sampleWorld_start, _, rfl, rfl, rfl, rfl⟩

end Storage
