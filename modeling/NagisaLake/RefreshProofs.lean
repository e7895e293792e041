import NagisaLake.RunProofs
import NagisaLake.PoolProofs
import NagisaLake.TableProofs

/-! # Refresh tokens — a lookup, then a conditional update

`refresh` looks a session up by the hash of its cookie, decides on what it
has read, and rotates the session in a second statement.  Between the two
another request may have rotated it, or somebody may have revoked it.  What
is left of the decision then is the condition of the update: the row still
has the hash of the token and is not revoked.

`refresh_once` says that this is enough, in every interleaving. -/

namespace Refresh

open Runs Pools KeyedTable List Table

/-- A row of `browser_sessions`. -/
structure BrowserSession where
  id : String
  userId : String
  csrfTokenHash : String
  accessTokenHash : String
  refreshTokenHash : String
  refreshExpiresAt : Int
  revokedAt : Option Int
  deriving DecidableEq

/-- A rotation that succeeded: the token it was asked for with, and the access
    token it has replaced. -/
structure Rotation where
  sessionId : String
  token : String
  accessTokenHash : String
  deriving DecidableEq

/-- The sessions, with every secret generated so far and the rotations. -/
structure Store where
  sessions : Table String BrowserSession BrowserSession.id
  issued : List String
  rotations : List Rotation

/-- Where `refresh` stands. -/
inductive Task where
  | lookup (token csrf : String)
  | rotate (session : BrowserSession) (token : String)
  | done (rotated : Bool)

/-- How a statement ends, and what the request brings to it: the clock and two generated secrets. -/
inductive Reply where
  | ok (now : Int) (access refresh : String)
  | failed

section Model

variable (hash : String → String) (refreshTtl : Int)

/-- `session_by_refresh_hash`. -/
def sessionByRefreshHash (s : Store) (h : String) : Option BrowserSession :=
  s.sessions.rows.find? fun r => r.refreshTokenHash = h

/-- `session_by_access_hash`. -/
def sessionByAccessHash (s : Store) (h : String) : Option BrowserSession :=
  s.sessions.rows.find? fun r => r.accessTokenHash = h

/-- The `UPDATE` of `rotate_session`. -/
def rotateSession (s : Store) (id token access refresh : String) (now : Int) :
    Option (Table String BrowserSession BrowserSession.id) :=
  s.sessions.updateKey id (fun r => decide (r.refreshTokenHash = hash token) && r.revokedAt.isNone)
    (fun r => { r with
      accessTokenHash := hash access
      refreshTokenHash := hash refresh
      refreshExpiresAt := now + refreshTtl })
    fun _ => rfl

/-- One statement of `refresh`. -/
def taskStep (s : Store) : Task → Reply → Option (Store × Task)
  | .done _, _ => none
  | _, .failed => some (s, .done false)
  | .lookup token csrf, .ok now _ _ =>
    match sessionByRefreshHash s (hash token) with
    | none => some (s, .done false)
    | some r =>
      if r.revokedAt.isSome ∨ r.refreshExpiresAt ≤ now ∨ r.csrfTokenHash ≠ hash csrf then
        some (s, .done false)
      else some (s, .rotate r token)
  | .rotate r token, .ok now access refresh =>
    -- secrets are distinct from all generated before them
    if access ∈ s.issued ∨ refresh ∈ s.issued ∨ access = refresh then none
    else match rotateSession hash refreshTtl s r.id token access refresh now with
      | none => some ({ s with issued := access :: refresh :: s.issued }, .done false)
      | some sessions => some (⟨sessions, access :: refresh :: s.issued,
          ⟨r.id, token, ((s.sessions.find? r.id).getD r).accessTokenHash⟩ :: s.rotations⟩,
        .done true)

/-- A request arrives or goes on, sessions are revoked. -/
inductive Act where
  | refresh (token csrf : String)
  | advance (i : Nat) (reply : Reply)
  | revokeSession (id : String) (now : Int)
  | revokeUserSessions (userId : String) (except : Option String) (now : Int)

/-- `UPDATE … SET revoked_at WHERE … AND revoked_at IS NULL`. -/
def revoke (s : Store) (p : BrowserSession → Bool) (now : Int) : Store :=
  ⟨s.sessions.update (fun r => p r && r.revokedAt.isNone)
    (fun r => { r with revokedAt := some now }) fun _ => rfl, s.issued, s.rotations⟩

/-- One action. -/
def step (w : Pool Store Task) : Act → Option (Pool Store Task)
  | .refresh token csrf => some (w.spawn (.lookup token csrf))
  | .advance i reply => w.advance (taskStep hash refreshTtl) i reply
  | .revokeSession id now =>
    some { w with shared := revoke w.shared (fun r => decide (r.id = id)) now }
  | .revokeUserSessions userId except now => some { w with
      shared := revoke w.shared (fun r => decide (r.userId = userId) && except.all (r.id ≠ ·)) now }

end Model

/-! ## Every interleaving -/

/-- The hashes in a column and those it had before are all different, and of
    secrets that were generated. -/
structure Kept (hash : String → String) (s : Store) (column : BrowserSession → String)
    (spent : List String) : Prop where
  distinct : (s.sessions.rows.map column ++ spent).Nodup
  issued : ∀ x ∈ s.sessions.rows.map column ++ spent, x ∈ s.issued.map hash

/-- So it is with both tokens. -/
structure Inv (hash : String → String) (s : Store) : Prop where
  refresh : Kept hash s BrowserSession.refreshTokenHash (s.rotations.map fun e => hash e.token)
  access : Kept hash s BrowserSession.accessTokenHash (s.rotations.map Rotation.accessTokenHash)

/-- The session is revoked, and these were its rotations. -/
def Ended (id : String) (log : List Rotation) (s : Store) : Prop :=
  (∃ r, s.sessions.find? id = some r ∧ r.revokedAt.isSome = true)
    ∧ s.rotations.filter (fun e => decide (e.sessionId = id)) = log

section Runs

variable {hash : String → String} {refreshTtl : Int} {s t : Store}
  {column : BrowserSession → String} {spent : List String}

section

variable (h : Kept hash s column spent)
include h

theorem Kept.revoke (p : BrowserSession → Bool) (now : Int)
    (hcolumn : ∀ r, column { r with revokedAt := some now } = column r) :
    Kept hash (revoke s p now) column spent := by
  have hsame : (Refresh.revoke s p now).sessions.rows.map column = s.sessions.rows.map column := by
    rw [Refresh.revoke, update, map_map]
    refine map_congr_left fun r _ => ?_
    simp only [Function.comp]
    split
    · exact hcolumn r
    · rfl
  exact ⟨hsame ▸ h.distinct, hsame ▸ h.issued⟩

/-- More secrets. -/
theorem Kept.issue (access refresh : String) :
    Kept hash { s with issued := access :: refresh :: s.issued } column spent :=
  ⟨h.distinct, fun x hx => .tail _ (.tail _ (h.issued x hx))⟩

/-- **ONE ROTATION** puts a new hash into the column, and the old one is spent. -/
theorem Kept.rotate (hinj : Function.Injective hash)
    {id x : String} {r : BrowserSession} {p : BrowserSession → Bool}
    {f : BrowserSession → BrowserSession} {hf : ∀ r, (f r).id = r.id}
    {issued : List String} {l : List Rotation}
    {sessions : Table String BrowserSession BrowserSession.id}
    (hup : s.sessions.updateKey id p f hf = some sessions)
    (hr : s.sessions.find? id = some r) (hcolumn : column (f r) = hash x)
    (hx : x ∉ s.issued) (hissued : x ∈ issued ∧ s.issued ⊆ issued) :
    Kept hash ⟨sessions, issued, l⟩ column (column r :: spent) := by
  have hperm : (sessions.rows.map column ++ column r :: spent).Perm
      (hash x :: (s.sessions.rows.map column ++ spent)) := by
    have hcol := (perm_updateKey hup hr).map column
    rw [map_cons, map_cons, hcolumn] at hcol
    exact perm_middle.trans (hcol.append_right spent)
  refine ⟨hperm.nodup_iff.mpr (nodup_cons.mpr ⟨fun hmem => ?_, h.distinct⟩), fun y hy => ?_⟩
  · obtain ⟨z, hz, heq⟩ := mem_map.mp (h.issued _ hmem)
    exact hx (hinj heq ▸ hz)
  · rcases mem_cons.mp (hperm.mem_iff.mp hy) with rfl | hy
    · exact mem_map_of_mem hissued.1
    · exact map_subset hash hissued.2 (h.issued y hy)

end

/-- **ONE STATEMENT** of a request. -/
theorem inv_taskStep (h : Inv hash s) (hinj : Function.Injective hash) {u u' : Task}
    {reply : Reply} (hs : taskStep hash refreshTtl s u reply = some (t, u')) :
    Inv hash t ∧ ∀ id log, Ended id log s → Ended id log t := by
  have hsame : Inv hash s ∧ ∀ id log, Ended id log s → Ended id log s := ⟨h, fun _ _ h => h⟩
  rw [taskStep.eq_def] at hs
  split at hs
  · cases hs
  · cases hs
    exact hsame
  · split at hs
    · cases hs
      exact hsame
    · split at hs <;> cases hs <;> exact hsame
  · next r token now access refresh =>
    obtain ⟨hfresh, hs⟩ := Option.ite_none_left_eq_some.mp hs
    simp only [not_or] at hfresh
    split at hs
    · cases hs
      exact ⟨⟨h.refresh.issue .., h.access.issue ..⟩, fun _ _ h => h⟩
    next sessions hup =>
    cases hs
    obtain ⟨q, hq, hp, -⟩ := updateKey_eq_some hup
    simp only [Bool.and_eq_true, decide_eq_true_eq, Option.isNone_iff_eq_none] at hp
    have hmem : s.issued ⊆ access :: refresh :: s.issued := fun _ hx => .tail _ (.tail _ hx)
    refine ⟨⟨?_, ?_⟩, fun id log hend => ?_⟩
    · have hrot := h.refresh.rotate hinj (l := []) hup hq rfl hfresh.2.1 ⟨.tail _ (.head _), hmem⟩
      rw [hp.1] at hrot
      exact ⟨hrot.distinct, hrot.issued⟩
    · have hrot := h.access.rotate hinj (l := []) hup hq rfl hfresh.1 ⟨.head _, hmem⟩
      simp only [hq, Option.getD_some]
      exact ⟨hrot.distinct, hrot.issued⟩
    -- the row that was rotated was not revoked
    obtain ⟨⟨q', hq', hrev⟩, rfl⟩ := hend
    have hne : r.id ≠ id := by
      rintro rfl
      cases hq.symm.trans hq'
      rw [hp.2] at hrev
      cases hrev
    refine ⟨⟨q', ?_, hrev⟩, by simp [hne]⟩
    rw [find?_updateKey hup hq, if_neg (Ne.symm hne)]
    exact hq'

theorem ended_revoke {id : String} {log : List Rotation} (h : Ended id log s)
    (p : BrowserSession → Bool) (now : Int) : Ended id log (revoke s p now) := by
  obtain ⟨⟨r, hr, hrev⟩, hlog⟩ := h
  refine ⟨⟨r, ?_, hrev⟩, hlog⟩
  simp [revoke, find?_update, hr, Option.isSome_iff_ne_none.mp hrev]

/-- **ONE ACTION**. -/
theorem inv_step (hinj : Function.Injective hash) {w w' : Pool Store Task} {a : Act}
    (h : Inv hash w.shared) (hs : step hash refreshTtl w a = some w') :
    Inv hash w'.shared ∧ ∀ id log, Ended id log w.shared → Ended id log w'.shared := by
  cases a with
  | refresh token csrf =>
    cases hs
    exact ⟨h, fun _ _ h => h⟩
  | advance i reply =>
    obtain ⟨u, s', u', -, hstep, rfl⟩ := Pool.advance_eq_some hs
    exact inv_taskStep h hinj hstep
  | revokeSession _ now | revokeUserSessions _ _ now =>
    cases hs
    exact ⟨⟨h.refresh.revoke _ now fun _ => rfl, h.access.revoke _ now fun _ => rfl⟩,
      fun _ _ h => ended_revoke h _ now⟩

theorem find?_eq_none_of_spent {rows : List BrowserSession} {x : String}
    (h : (rows.map column ++ spent).Nodup) (hx : x ∈ spent) :
    rows.find? (fun r => column r = x) = none := by
  rw [find?_eq_none]
  intro r hr heq
  exact (nodup_append.mp h).2.2 _ (mem_map_of_mem hr) x hx (of_decide_eq_true heq)

/-- **A REFRESH TOKEN IS USED ONCE**, along every run from sessions with
    distinct tokens: no token is rotated twice, a token that was replaced is no
    session's, and a session that is revoked is not rotated any more. -/
theorem refresh_once (hinj : Function.Injective hash) {w₀ w : Pool Store Task} {as : List Act}
    (hstart : Inv hash w₀.shared)
    (hrun : run (step hash refreshTtl) w₀ as = some w) :
    (w.shared.rotations.map Rotation.token).Nodup
      ∧ (∀ e ∈ w.shared.rotations, sessionByRefreshHash w.shared (hash e.token) = none
        ∧ sessionByAccessHash w.shared e.accessTokenHash = none)
      ∧ ∀ id r, w.shared.sessions.find? id = some r → r.revokedAt.isSome = true →
        ∀ bs w', run (step hash refreshTtl) w bs = some w' →
          w'.shared.rotations.filter (fun e => decide (e.sessionId = id))
            = w.shared.rotations.filter (fun e => decide (e.sessionId = id)) := by
  have hinv : Inv hash w.shared :=
    inv_run (I := fun w => Inv hash w.shared) (fun _ _ _ h hs => (inv_step hinj h hs).1) hstart hrun
  refine ⟨?_, fun e he => ⟨?_, ?_⟩, fun id r hr hrev bs w' hrun' => ?_⟩
  · have hnodup := (nodup_append.mp hinv.refresh.distinct).2.1
    exact List.Nodup.of_map hash (by rwa [map_map])
  · exact find?_eq_none_of_spent hinv.refresh.distinct (mem_map.mpr ⟨e, he, rfl⟩)
  · exact find?_eq_none_of_spent hinv.access.distinct (mem_map_of_mem he)
  · refine (inv_run (I := fun w' => Inv hash w'.shared ∧ Ended id _ w'.shared) ?_
      ⟨hinv, ⟨r, hr, hrev⟩, rfl⟩ hrun').2.2
    intro s a t h hs
    obtain ⟨hinv', hended⟩ := inv_step hinj h.1 hs
    exact ⟨hinv', hended _ _ h.2⟩

end Runs

/-- One session; secrets are their own hashes. -/
def sampleStore : Store :=
  ⟨Table.empty.put ⟨"session", "user", "csrf", "a1", "r1", 100, none⟩, ["a1", "r1"], []⟩

/-- Two requests with one token, both past the lookup; then a revocation. -/
def sampleRace : List Act :=
  [.refresh "r1" "csrf", .refresh "r1" "csrf", .advance 0 (.ok 1 "" ""), .advance 1 (.ok 1 "" ""),
    .advance 0 (.ok 2 "a2" "r2"), .advance 1 (.ok 3 "a3" "r3"), .revokeSession "session" 4]

/-- One of them is answered. -/
theorem sampleRefreshes_once : ∃ w, run (step id 100) ⟨sampleStore, []⟩ sampleRace = some w
    ∧ w.shared.rotations = [⟨"session", "r1", "a1"⟩]
    ∧ (w.shared.rotations.map Rotation.token).Nodup := by
  have hstart : Inv id sampleStore := ⟨⟨by decide, by decide⟩, ⟨by decide, by decide⟩⟩
  obtain ⟨w, hrun, hrotations⟩ : ∃ w, run (step id 100) ⟨sampleStore, []⟩ sampleRace = some w
    ∧ w.shared.rotations = [⟨"session", "r1", "a1"⟩] := ⟨_, rfl, rfl⟩
  exact ⟨w, hrun, hrotations, (refresh_once Function.injective_id hstart hrun).1⟩

end Refresh
