import NagisaLake.RunProofs
import NagisaLake.TableProofs

/-! # The worker session registry — revocation against registration

`SessionRegistry` holds the connected workers and, beside them, the set of
credentials revoked while the Hub runs.  `insert` refuses a session whose
credential is in that set; `disconnect_credential` adds to it and sweeps
the sessions in one critical section; `reap_revoked_credentials` drops the
entries no live session uses.  Every operation takes `revoked_credentials`
before `inner` and holds what it needs to its end, so each one is a single
step here.

The last section settles what the set is for.  A registration
authenticates first and calls `insert` later, so the set has to outlive
every registration in flight at the revocation.  The reaper looks only at
sessions already in the registry: `revoked_absent_iff` says exactly which
schedules keep a revoked credential out. -/

namespace Sessions

open Runs KeyedTable List

/-- `session_key`: the key of the registry's map. -/
def sessionKey (organizationId workerId : String) : String :=
  organizationId ++ "\x00" ++ workerId

/-- The part of a connected worker the registry operations read. -/
structure WorkerSession where
  organizationId : String
  workerId : String
  sessionId : String
  credentialId : Option String
  /-- Monotonic time of the last accepted control message. -/
  lastSeen : Nat
  deriving DecidableEq, Repr

/-- The key a session is stored under. -/
def WorkerSession.key (s : WorkerSession) : String :=
  sessionKey s.organizationId s.workerId

/-- `ProtocolError`, the frame a torn-down socket is sent. -/
structure ProtocolError where
  code : String
  message : String
  retryable : Bool
  deriving DecidableEq, Repr

/-- A socket whose `disconnect` token was cancelled, and the frame offered to it first. -/
structure Teardown where
  sessionId : String
  error : Option ProtocolError
  deriving DecidableEq, Repr

/-- `SessionRegistry`, with the teardowns it has signalled so far. -/
structure SessionRegistry where
  inner : Table String WorkerSession WorkerSession.key
  revokedCredentials : List String
  teardowns : List Teardown

/-- `SessionRegistry::default`. -/
def SessionRegistry.default : SessionRegistry := ⟨Table.empty, [], []⟩

/-- The session's credential is `c`. -/
def WorkerSession.uses (c : String) (s : WorkerSession) : Bool :=
  s.credentialId = some c

/-- `insert`: the check and the write share the `revoked_credentials` guard.
    The session it replaces is told so. -/
def insert (r : SessionRegistry) (session : WorkerSession) : SessionRegistry × Bool :=
  if session.credentialId.any fun c => decide (c ∈ r.revokedCredentials) then
    (r, false)
  else
    let previous := r.inner.find? session.key
    let replaced : List Teardown := previous.toList.map fun p =>
      ⟨p.sessionId, some ⟨"session_replaced",
        "a newer connection replaced this worker session", true⟩⟩
    ({ r with
        inner := r.inner.put session
        teardowns := r.teardowns ++ replaced }, true)

/-- `disconnect_credential`: mark first, then sweep, under both locks. -/
def disconnectCredential (r : SessionRegistry) (credentialId : String) :
    SessionRegistry :=
  let removed := r.inner.rows.filter (WorkerSession.uses credentialId)
  { inner := r.inner.delete (WorkerSession.uses credentialId)
    revokedCredentials := r.revokedCredentials.insert credentialId
    teardowns := r.teardowns ++ removed.map fun s =>
      ⟨s.sessionId, some ⟨"credential_revoked", "the worker credential has been revoked", false⟩⟩ }

/-- `reap_revoked_credentials`: keep the entries a live session still uses. -/
def reapRevokedCredentials (r : SessionRegistry) : SessionRegistry × Nat :=
  if r.revokedCredentials.isEmpty then (r, 0)
  else
    let live := r.inner.rows.filterMap WorkerSession.credentialId
    let kept := r.revokedCredentials.filter fun c => decide (c ∈ live)
    ({ r with revokedCredentials := kept }, r.revokedCredentials.length - kept.length)

/-- `disconnect_organization`. -/
def disconnectOrganization (r : SessionRegistry) (organizationId : String) :
    SessionRegistry :=
  let gone := fun s : WorkerSession => decide (s.organizationId = organizationId)
  { r with
    inner := r.inner.delete gone
    teardowns := r.teardowns ++ (r.inner.rows.filter gone).map fun s =>
      ⟨s.sessionId, some ⟨"organization_deleted",
        "the worker organization has been deleted", false⟩⟩ }

/-- `remove_if_current`: only the socket that still owns the key removes it. -/
def removeIfCurrent (r : SessionRegistry)
    (organizationId workerId sessionId : String) : SessionRegistry :=
  let key := sessionKey organizationId workerId
  if (r.inner.find? key).any fun s => s.sessionId = sessionId then
    { r with inner := r.inner.delete fun s => s.key = key }
  else r

/-- `reap_stale`: drop the sessions silent for longer than `maxSilence`. -/
def reapStale (r : SessionRegistry) (now maxSilence : Nat) : SessionRegistry :=
  let stale := fun s : WorkerSession => decide (now - s.lastSeen > maxSilence)
  { r with
    inner := r.inner.delete stale
    teardowns := r.teardowns ++ (r.inner.rows.filter stale).map fun s =>
      ⟨s.sessionId, none⟩ }

/-- One registry operation of some task, with its arguments. -/
inductive Op where
  | insert (session : WorkerSession)
  | disconnectCredential (credentialId : String)
  | reapRevokedCredentials
  | disconnectOrganization (organizationId : String)
  | removeIfCurrent (organizationId workerId sessionId : String)
  | reapStale (now maxSilence : Nat)
  deriving DecidableEq, Repr

/-- The registry after one operation. -/
def apply (r : SessionRegistry) : Op → SessionRegistry
  | .insert session => (insert r session).1
  | .disconnectCredential c => disconnectCredential r c
  | .reapRevokedCredentials => (reapRevokedCredentials r).1
  | .disconnectOrganization o => disconnectOrganization r o
  | .removeIfCurrent o w s => removeIfCurrent r o w s
  | .reapStale now maxSilence => reapStale r now maxSilence

/-- Every operation is enabled in every state. -/
def step (r : SessionRegistry) (op : Op) : Option SessionRegistry :=
  some (apply r op)

/-- No connected session was authenticated by the credential. -/
def Absent (c : String) (r : SessionRegistry) : Prop :=
  ∀ s ∈ r.inner.rows, s.credentialId ≠ some c

instance (c : String) (r : SessionRegistry) : Decidable (Absent c r) :=
  inferInstanceAs (Decidable (∀ s ∈ r.inner.rows, s.credentialId ≠ some c))

/-! ## What each operation does to the set and to the sessions -/

variable {r : SessionRegistry} {session : WorkerSession} {c : String}
  {op : Op}

/-- A listed credential is refused. -/
theorem insert_of_listed (hs : session.credentialId = some c)
    (hc : c ∈ r.revokedCredentials) : insert r session = (r, false) := by
  rw [insert, hs]
  simp [hc]

/-- An unlisted credential gets in. -/
theorem insert_of_unlisted (hs : session.credentialId = some c) (hc : c ∉ r.revokedCredentials) :
    session ∈ (insert r session).1.inner.rows := by
  rw [insert, hs]
  simp only [Option.any_some, hc, decide_false, Bool.false_eq_true, if_false]
  exact Table.mem_put.mpr (.inl rfl)

theorem insert_revokedCredentials (r : SessionRegistry) (session : WorkerSession) :
    (insert r session).1.revokedCredentials = r.revokedCredentials := by
  rw [insert]
  split <;> rfl

/-- `insert` adds no session but its own. -/
theorem mem_insert {s : WorkerSession} (h : s ∈ (insert r session).1.inner.rows) :
    s = session ∨ s ∈ r.inner.rows := by
  rw [insert] at h
  split at h
  · exact .inr h
  rcases Table.mem_put.mp h with hs | hs
  · exact .inl hs
  · exact .inr hs.1

/-- `disconnect_credential` leaves no session of its credential. -/
theorem absent_disconnectCredential (r : SessionRegistry) (c : String) :
    Absent c (disconnectCredential r c) := by
  intro s hs
  have hkeep := (mem_filter.mp hs).2
  intro hc
  rw [WorkerSession.uses, hc] at hkeep
  simp at hkeep

/-- The reaper keeps an entry exactly when a session uses it. -/
theorem mem_reapRevokedCredentials : c ∈ (reapRevokedCredentials r).1.revokedCredentials
      ↔ c ∈ r.revokedCredentials ∧ ¬ Absent c r := by
  have hlive : ¬ Absent c r ↔ c ∈ r.inner.rows.filterMap WorkerSession.credentialId := by
    rw [mem_filterMap]
    constructor
    · intro h
      by_contra hno
      refine h fun s hs hc => hno ⟨s, hs, hc⟩
    · rintro ⟨s, hs, hc⟩ h
      exact h s hs hc
  rw [hlive, reapRevokedCredentials]
  split
  · next hempty =>
    rw [List.isEmpty_iff] at hempty
    simp [hempty]
  · simp [mem_filter]

theorem reapRevokedCredentials_inner (r : SessionRegistry) :
    (reapRevokedCredentials r).1.inner = r.inner := by
  rw [reapRevokedCredentials]
  split <;> rfl

theorem removeIfCurrent_revokedCredentials (r : SessionRegistry) (o w s : String) :
    (removeIfCurrent r o w s).revokedCredentials = r.revokedCredentials := by
  rw [removeIfCurrent]
  split <;> rfl

/-- Only `insert` brings a session into the registry. -/
theorem mem_apply {s : WorkerSession} (h : s ∈ (apply r op).inner.rows) :
    s ∈ r.inner.rows ∨ op = .insert s := by
  cases op with
  | insert session =>
    rcases mem_insert h with hs | hs
    · exact .inr (by rw [hs])
    · exact .inl hs
  | disconnectCredential c | disconnectOrganization o | reapStale now m =>
    exact .inl (mem_filter.mp h).1
  | reapRevokedCredentials =>
    rw [show apply r .reapRevokedCredentials = (reapRevokedCredentials r).1 from rfl,
      reapRevokedCredentials_inner] at h
    exact .inl h
  | removeIfCurrent o w i =>
    rw [show apply r (.removeIfCurrent o w i) = removeIfCurrent r o w i
      from rfl, removeIfCurrent] at h
    split at h
    · exact .inl (mem_filter.mp h).1
    · exact .inl h

/-- Only `disconnect_credential` lists a credential. -/
theorem listed_apply (h : c ∈ (apply r op).revokedCredentials) :
    c ∈ r.revokedCredentials ∨ op = .disconnectCredential c := by
  cases op with
  | insert session =>
    exact .inl (insert_revokedCredentials r session ▸ h)
  | disconnectCredential d =>
    rcases mem_insert_iff.mp h with hc | hc
    · exact .inr (by rw [hc])
    · exact .inl hc
  | reapRevokedCredentials =>
    exact .inl (mem_reapRevokedCredentials.mp h).1
  | disconnectOrganization o | reapStale now m => exact .inl h
  | removeIfCurrent o w s =>
    exact .inl (removeIfCurrent_revokedCredentials r o w s ▸ h)

/-- Only the reaper takes a credential off the list. -/
theorem listed_apply_of_listed (hop : op ≠ .reapRevokedCredentials) (h : c ∈ r.revokedCredentials) :
    c ∈ (apply r op).revokedCredentials := by
  cases op with
  | insert session =>
    show c ∈ (insert r session).1.revokedCredentials
    rw [insert_revokedCredentials]
    exact h
  | disconnectCredential d => exact mem_insert_of_mem h
  | reapRevokedCredentials => exact absurd rfl hop
  | disconnectOrganization o | reapStale now m => exact h
  | removeIfCurrent o w s =>
    show c ∈ (removeIfCurrent r o w s).revokedCredentials
    rw [removeIfCurrent_revokedCredentials]
    exact h

/-- Absence survives every operation except the insertion of a session of the
    credential while it is not listed. -/
theorem absent_apply (h : Absent c r) (hins : ∀ s, op = .insert s → s.credentialId = some c →
      c ∈ r.revokedCredentials) : Absent c (apply r op) := by
  intro s hs hc
  rcases mem_apply hs with hold | hop
  · exact h s hold hc
  have hlisted := hins s hop hc
  rw [hop, show apply r (.insert s) = (insert r s).1 from rfl, insert_of_listed hc hlisted] at hs
  exact h s hs hc

/-! ## Which schedules keep a revoked credential out -/

/-- Whenever a session of `c` is inserted later than a pass of the reaper, `c`
    has been disconnected again in between. -/
def Renewed (c : String) (ops : List Op) : Prop :=
  ∀ before between after session, ops = before ++ .reapRevokedCredentials
      :: (between ++ .insert session :: after) →
    session.credentialId = some c → .disconnectCredential c ∈ between

/-- Before every insertion of a session of `c` stands a revocation of `c`. -/
private def Guarded (c : String) (ops : List Op) : Prop :=
  ∀ between after session, ops = between ++ .insert session :: after →
    session.credentialId = some c → .disconnectCredential c ∈ between

variable {ops : List Op}

private theorem Renewed.tail (h : Renewed c (op :: ops)) : Renewed c ops := by
  intro before between after session heq hc
  exact h (op :: before) between after session (by rw [heq]; rfl) hc

private theorem Guarded.tail (hop : op ≠ .disconnectCredential c) (h : Guarded c (op :: ops)) :
    Guarded c ops := by
  intro between after session heq hc
  have := h (op :: between) after session (by rw [heq]; rfl) hc
  rcases mem_cons.mp this with he | hm
  · exact absurd he.symm hop
  · exact hm

private theorem Renewed.guarded
    (h : Renewed c (.reapRevokedCredentials :: ops)) : Guarded c ops := by
  intro between after session heq hc
  exact h [] between after session (by rw [heq]; rfl) hc

/-- A credential that is absent, and listed unless every coming insertion of it
    is preceded by a new revocation, stays absent. -/
private theorem along_of_renewed :
    ∀ (ops : List Op) (r : SessionRegistry), Absent c r → Renewed c ops →
      (c ∈ r.revokedCredentials ∨ Guarded c ops) →
      Along step (Absent c) r ops := by
  intro ops
  induction ops with
  | nil => intro r h _ _; exact h
  | cons op ops ih =>
    intro r h hren hlist
    refine ⟨h, fun t ht => ?_⟩
    obtain rfl : apply r op = t := Option.some.inj ht
    have habs : Absent c (apply r op) := by
      refine absent_apply h fun s hop hc => ?_
      rcases hlist with hl | hg
      · exact hl
      -- an unlisted credential: the revocation would stand before the head
      have := hg [] ops s (by rw [hop]; rfl) hc
      cases this
    refine ih _ habs hren.tail ?_
    by_cases hreap : op = .reapRevokedCredentials
    · subst hreap
      exact .inr hren.guarded
    by_cases hdis : op = .disconnectCredential c
    · subst hdis
      exact .inl (mem_insert_self ..)
    rcases hlist with hl | hg
    · exact .inl (listed_apply_of_listed hreap hl)
    · exact .inr (hg.tail hdis)

/-- From an absent and unlisted credential, an insertion that no revocation
    precedes puts it back. -/
private theorem not_along_of_unlisted (hc : session.credentialId = some c) (after : List Op) :
    ∀ (between : List Op) (r : SessionRegistry),
      .disconnectCredential c ∉ between → c ∉ r.revokedCredentials →
      ¬ Along step (Absent c) r (between ++ .insert session :: after) := by
  intro between
  induction between with
  | nil =>
    intro r _ hlist h
    have hafter := h.2 _ rfl
    have habs : Absent c (apply r (.insert session)) := by
      cases after with
      | nil => exact hafter
      | cons op ops => exact hafter.1
    exact habs session (insert_of_unlisted hc hlist) hc
  | cons op ops ih =>
    intro r hdis hlist h
    rw [mem_cons, not_or] at hdis
    refine ih (apply r op) hdis.2 ?_ (h.2 _ rfl)
    intro hl
    rcases listed_apply hl with hold | hop
    · exact hlist hold
    · exact hdis.1 hop.symm

private theorem Along.suffix : ∀ (before ops : List Op) (r : SessionRegistry),
      Along step (Absent c) r (before ++ ops) →
      ∃ t, Absent c t ∧ Along step (Absent c) t ops := by
  intro before
  induction before with intro ops r h
  | nil =>
    refine ⟨r, ?_, h⟩
    cases ops with
    | nil => exact h
    | cons op ops => exact h.1
  | cons op before ih =>
    exact ih ops (apply r op) (h.2 _ rfl)

/-- **REVOCATION, EXACTLY**: after `disconnect_credential(c)` no later state
    holds a session of `c` if and only if no session of `c` is inserted after a
    pass of the reaper without a further revocation in between. -/
theorem revoked_absent_iff (r : SessionRegistry) (c : String) (ops : List Op) :
    Along step (Absent c) (disconnectCredential r c) ops ↔ Renewed c ops := by
  constructor
  · intro h before between after session heq hc
    by_contra hdis
    rw [heq] at h
    obtain ⟨t, habs, ht⟩ := Along.suffix before _ _ h
    -- no session of `c` is left, so the reaper forgets it
    have hunlisted : c ∉ (apply t .reapRevokedCredentials).revokedCredentials :=
      fun hl => (mem_reapRevokedCredentials.mp hl).2 habs
    exact not_along_of_unlisted hc after between _ hdis hunlisted (ht.2 _ rfl)
  · intro h
    exact along_of_renewed ops _ (absent_disconnectCredential r c) h (.inl (mem_insert_self ..))

/-- A registration that authenticated before the revocation. -/
def lateSession : WorkerSession where
  organizationId := "org"
  workerId := "default/gpu"
  sessionId := "session"
  credentialId := some "credential"
  lastSeen := 0

/-- The schedule the reaper loses: revoke, reap, and only then the insertion of
    the session that had authenticated before. -/
theorem reaped_credential_reconnects : ¬ ∀ (r : SessionRegistry) (c : String) (ops : List Op),
      Along step (Absent c) (disconnectCredential r c) ops := by
  intro h
  have hlate := h .default "credential" [.reapRevokedCredentials, .insert lateSession]
  have hend : Absent "credential" (apply (apply (disconnectCredential .default "credential")
        .reapRevokedCredentials) (.insert lateSession)) :=
    (hlate.2 _ rfl).2 _ rfl
  revert hend
  decide

/-! ## No worker is dropped in silence -/

/-- The session is connected, or its socket has been torn down. -/
def Told (s : WorkerSession) (r : SessionRegistry) : Prop :=
  s ∈ r.inner.rows ∨ ∃ t ∈ r.teardowns, t.sessionId = s.sessionId

/-- Sessions that are swept out are torn down. -/
theorem told_sweep {s : WorkerSession} {r' : SessionRegistry} {p : WorkerSession → Bool}
    {f : WorkerSession → Teardown} (h : Told s r) (hinner : r'.inner = r.inner.delete p)
    (htold : r'.teardowns = r.teardowns ++ (r.inner.rows.filter p).map f)
    (hf : (f s).sessionId = s.sessionId) : Told s r' := by
  rw [Told, hinner, htold]
  rcases h with hs | ⟨t, ht, hid⟩
  · by_cases hp : p s = true
    · exact .inr ⟨f s, mem_append_right _ (mem_map_of_mem (mem_filter.mpr ⟨hs, hp⟩)), hf⟩
    · exact .inl (mem_filter.mpr ⟨hs, by simp [hp]⟩)
  · exact .inr ⟨t, mem_append_left _ ht, hid⟩

/-- **ONE OPERATION**, unless the socket of the session removes it. -/
theorem told_apply {s : WorkerSession} (h : Told s r)
    (hown : ∀ o w, op ≠ .removeIfCurrent o w s.sessionId) : Told s (apply r op) := by
  cases op with
  | insert session =>
    show Told s (insert r session).1
    rw [insert]
    split
    · exact h
    rcases h with hs | ⟨t, ht, hid⟩
    · by_cases hk : session.key = s.key
      · refine .inr ⟨_, mem_append_right _ (mem_map_of_mem (a := s) ?_), rfl⟩
        rw [hk, Table.find?_of_mem hs]
        exact mem_singleton.mpr rfl
      · exact .inl (Table.mem_put.mpr (.inr ⟨hs, Ne.symm hk⟩))
    · exact .inr ⟨t, mem_append_left _ ht, hid⟩
  | disconnectCredential c | disconnectOrganization o | reapStale now m =>
    exact told_sweep h rfl rfl rfl
  | reapRevokedCredentials =>
    show Told s (reapRevokedCredentials r).1
    rw [reapRevokedCredentials]
    split <;> exact h
  | removeIfCurrent o w i =>
    show Told s (removeIfCurrent r o w i)
    rw [removeIfCurrent]
    split
    · next hcurrent =>
      refine h.imp_left fun hs => mem_filter.mpr ⟨hs, ?_⟩
      by_contra hk
      have hkey : s.key = sessionKey o w := by simpa using hk
      rw [← hkey, Table.find?_of_mem hs] at hcurrent
      exact hown o w (by simp at hcurrent; rw [hcurrent])
    · exact h

/-- **NEVER IN SILENCE**: a worker that is connected stays connected or is told that it is not, as
    long as its own socket does not remove it. -/
theorem never_dropped_silently {s : WorkerSession} (hs : s ∈ r.inner.rows)
    (hown : Admitted step (fun _ op => ∀ o w, op ≠ .removeIfCurrent o w s.sessionId) r ops) :
    Along step (Told s) r ops :=
  inv_along_admitted (fun _ _ _ h hop hstep => Option.some.inj hstep ▸ told_apply h hop) ops r
    (.inl hs) hown

/-- The worker connects a second time. -/
theorem lateSession_told : Along step (Told lateSession) (insert .default lateSession).1
    [.insert { lateSession with sessionId := "newer" }] :=
  never_dropped_silently (.head _) ⟨by rintro _ _ ⟨⟩, fun _ _ => trivial⟩

end Sessions
