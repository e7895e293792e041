import NagisaLake.InvitesProofs
import NagisaLake.LockingProofs
import NagisaLake.PoolProofs

/-! # Redemptions — invitations under concurrent calls

`accept_device_invite` is a transaction: it locks the invitation, locks the
grant of the user on the device if there is one, writes the grant and counts
the use.  Here it is the sequence of its statements under READ COMMITTED, and
any number of calls are under way, next to the two revocations, new
invitations and the clock.

The invitation's lock is held from the first statement to the commit, so the
use that is counted is the one that was checked.  Two invitations for one
device meet at the grant: at its lock if there is a row, else at the unique
key, where the loser fails and its invitation keeps its uses. -/

namespace Redemptions

open KeyedTable Locking Pools Runs Invites Table List Option Locked
open HubStore (StoreError)

/-! ## Calls -/

/-- The arguments of a call, and the time it has read first. -/
structure Request where
  codeHash : String
  granteeUserId : String
  now : Int

/-- A call that is over: the tables and the time when its transaction ended, and
    the tables after that. -/
structure Ended where
  request : Request
  clock : Int
  before : Tables
  after : Tables
  /-- it has committed a grant -/
  redeemed : Bool

/-- The tables, the time, and the calls that are over. -/
structure Db where
  invites : Locked String DeviceInviteRow DeviceInviteRow.codeHash :=
    .committed Table.empty
  grants : Locked GrantKey DeviceGrantRow DeviceGrantRow.key :=
    .committed Table.empty
  clock : Int := 0
  ended : List Ended := []

/-- What is committed. -/
def Db.tables (db : Db) : Tables := ⟨db.invites.rows, db.grants.rows⟩

def Db.commit (db : Db) (i : Nat) : Db :=
  { db with invites := db.invites.commit i, grants := db.grants.commit i }

def Db.rollback (db : Db) (i : Nat) : Db :=
  { db with invites := db.invites.rollback i, grants := db.grants.rollback i }

/-- The transaction of a call has ended. -/
def Db.close (db db' : Db) (q : Request) (redeemed : Bool) : Db :=
  { db' with ended := ⟨q, db.clock, db.tables, db'.tables, redeemed⟩ :: db.ended }

/-- The next statement of a call, with what it has read so far. -/
inductive Tx where
  | lockInvite (q : Request)
  | lockGrant (q : Request) (invite : DeviceInviteRow)
  | write (q : Request) (invite : DeviceInviteRow)
      (existing : Option DeviceGrantRow) (uuid : String)
  | count (q : Request) (invite : DeviceInviteRow)
      (existing : Option DeviceGrantRow) (uuid : String)
  | commit (q : Request) (invite : DeviceInviteRow)
      (existing : Option DeviceGrantRow) (uuid : String)
  /-- there is an active grant -/
  | finish (q : Request) (invite : DeviceInviteRow) (g : DeviceGrantRow)
  | done (q : Request) (answer : Except StoreError DeviceGrant)

def Tx.request : Tx → Request
  | .lockInvite q | .lockGrant q _ | .write q _ _ _ | .count q _ _ _
  | .commit q _ _ _ | .finish q _ _ | .done q _ => q

/-- An error: the transaction is rolled back. -/
def fail (db : Db) (i : Nat) (q : Request) (e : StoreError) : Db × Tx :=
  (db.close (db.rollback i) q false, .done q (.error e))

/-- `SELECT … FROM device_share_invites … FOR UPDATE`. -/
def lockInvite (db : Db) (i : Nat) (q : Request) : Option (Db × Tx) :=
  (db.invites.await i q.codeHash).map fun
    | none => fail db i q (.notFound "device invite")
    | some invite => ({ db with invites := db.invites.write i invite },
        .lockGrant q invite)

/-- What is done with the two rows. -/
def decideGrant (db : Db) (i : Nat) (q : Request) (invite : DeviceInviteRow)
    (existing : Option DeviceGrantRow) (uuid : String) : Db × Tx :=
  match invite.answer existing q.granteeUserId q.now with
  | .error e => fail db i q e
  | .ok (some g) => (db, .finish q invite g)
  | .ok none => (db, .write q invite existing uuid)

/-- `SELECT … FROM device_grants … FOR UPDATE`: it waits for a row it sees. -/
def lockGrant (db : Db) (i : Nat) (q : Request) (invite : DeviceInviteRow)
    (uuid : String) : Option (Db × Tx) :=
  match db.grants.rows.find? (invite.grantKey q.granteeUserId) with
  | none => some (decideGrant db i q invite none uuid)
  | some _ => (db.grants.await i (invite.grantKey q.granteeUserId)).map fun
      | none => decideGrant db i q invite none uuid
      | some g => decideGrant { db with grants := db.grants.write i g } i q
          invite (some g) uuid

/-- `UPDATE device_grants` for a row that is locked, else `INSERT`. -/
def writeGrant (db : Db) (i : Nat) (q : Request) (invite : DeviceInviteRow)
    (existing : Option DeviceGrantRow) (uuid : String) : Option (Db × Tx) :=
  let row := invite.row existing q.granteeUserId q.now uuid
  match existing with
  | some _ => some ({ db with grants := db.grants.write i row },
      .count q invite existing uuid)
  | none => (db.grants.insert i row).map fun
      | none => fail db i q (.database "duplicate key value")
      | some grants => ({ db with grants := grants },
          .count q invite existing uuid)

/-- `UPDATE device_share_invites SET use_count=use_count+1`. -/
def countUse (db : Db) (i : Nat) (q : Request) (invite : DeviceInviteRow)
    (existing : Option DeviceGrantRow) (uuid : String) : Option (Db × Tx) :=
  (db.invites.await i invite.codeHash).map fun
    | none => (db, .commit q invite existing uuid)
    | some r => ({ db with invites := db.invites.write i r.used },
        .commit q invite existing uuid)

variable (fromStr : String → Option (List DeviceWorkflowRule))

/-- One step of a call; `none` while it waits, and after its end. -/
def taskStep (db : Db) (i : Nat) : Tx → String → Option (Db × Tx)
  | .lockInvite q, _ => lockInvite db i q
  | .lockGrant q invite, uuid => lockGrant db i q invite uuid
  | .write q invite existing uuid, _ => writeGrant db i q invite existing uuid
  | .count q invite existing uuid, _ => countUse db i q invite existing uuid
  | .commit q invite existing uuid, _ => some (db.close (db.commit i) q true,
      .done q (.ok (invite.grant fromStr existing q.granteeUserId q.now uuid)))
  | .finish q _ g, _ => some (db.close (db.commit i) q false, .done q (.ok (.ofRow fromStr g)))
  | .done .., _ => none

/-- A call that has not ended may be lost: a deadlock, a failed statement, a broken connection. -/
def lose (db : Db) (i : Nat) : Tx → Option (Db × Tx)
  | .done .. => none
  | t => some (fail db i t.request (.database "connection lost"))

/-- What can happen. -/
inductive Act where
  | begin (codeHash granteeUserId : String)
  | next (i : Nat) (uuid : String)
  | lose (i : Nat)
  | create (e : Sharers) (input : DeviceInviteRow)
  | revokeInvite (inviteId ownerUserId : String)
  | revokeGrant (k : GrantKey) (ownerUserId : String)
  | tick (n : Nat)

/-- `create_device_invite`, for a request that has passed the handler's check of
    `max_uses`; the insertion waits for a transaction that holds the hash. -/
def create (db : Db) (e : Sharers) (input : DeviceInviteRow) : Option Db :=
  if 1 ≤ input.maxUses ∧ input.maxUses ≤ 100
      ∧ db.invites.dirty.find? input.codeHash = none then
    match createDeviceInvite e db.tables input with
    | .ok t => some { db with invites := { db.invites with rows := t.invites } }
    | .error _ => some db
  else none

/-- `revoke_device_invite`, which waits for the row. -/
def revokeInvite (db : Db) (inviteId ownerUserId : String) : Option Db :=
  if ∀ r ∈ db.invites.rows.rows, r.id = inviteId →
      db.invites.dirty.find? r.codeHash = none then
    some { db with invites := { db.invites with
      rows := (revokeDeviceInvite db.tables inviteId ownerUserId db.clock).2.invites } }
  else none

/-- `revoke_device_grant`, which waits for a row it sees. -/
def revokeGrant (db : Db) (k : GrantKey) (ownerUserId : String) : Option Db :=
  if db.grants.rows.find? k = none ∨ db.grants.dirty.find? k = none then
    some { db with grants := { db.grants with
      rows := (revokeDeviceGrant db.tables k ownerUserId db.clock).2.grants } }
  else none

/-- The transactions are numbered as they begin; a call reads the time first. -/
def step (p : Pool Db Tx) : Act → Option (Pool Db Tx)
  | .begin codeHash granteeUserId =>
    some (p.spawn (.lockInvite ⟨codeHash, granteeUserId, p.shared.clock⟩))
  | .next i uuid => p.advance (fun db t e => taskStep fromStr db i t e) i uuid
  | .lose i => p.advance (fun db t (_ : Unit) => lose db i t) i ()
  | .create e input => (create p.shared e input).map fun db =>
    { p with shared := db }
  | .revokeInvite inviteId ownerUserId =>
    (revokeInvite p.shared inviteId ownerUserId).map fun db =>
      { p with shared := db }
  | .revokeGrant k ownerUserId =>
    (revokeGrant p.shared k ownerUserId).map fun db =>
      { p with shared := db }
  | .tick n => some { p with
      shared := { p.shared with clock := p.shared.clock + n } }

/-! ## What is claimed -/

/-- The tables hold the same rows. -/
def Same (t u : Tables) : Prop :=
  (∀ k, u.invites.find? k = t.invites.find? k) ∧ ∀ k, u.grants.find? k = t.grants.find? k

/-- The call has created a grant or made one active again, and nothing else but counted that: the
    invitation was not spent when the call began, and there was no active grant. -/
def Redeems (e : Ended) : Prop :=
  ∃ invite existing uuid, e.before.invites.find? e.request.codeHash = some invite
      ∧ e.before.grants.find? (invite.grantKey e.request.granteeUserId) = existing
      ∧ invite.answer existing e.request.granteeUserId e.request.now = .ok none
      ∧ Same ⟨e.before.invites.put invite.used, e.before.grants.put
          (invite.row existing e.request.granteeUserId e.request.now uuid)⟩
        e.after

/-- The invitations and the calls that are over. -/
structure Exact (db : Db) : Prop where
  counted : ∀ invite ∈ db.invites.rows.rows, invite.useCount = db.ended.countP fun e =>
        e.redeemed && decide (e.request.codeHash = invite.codeHash)
  bounded : ∀ invite ∈ db.invites.rows.rows, invite.useCount ≤ invite.maxUses
  redeems : ∀ e ∈ db.ended, e.redeemed = true → Redeems e
  quiet : ∀ e ∈ db.ended, e.redeemed = false → Same e.before e.after
  /-- no call on a revoked, expired or exhausted invitation -/
  spent : ∀ e ∈ db.ended, ∀ invite, e.before.invites.find? e.request.codeHash = some invite →
      invite.spent e.request.now = true → e.redeemed = false
  /-- no call by a user with an active grant -/
  active : ∀ e ∈ db.ended, ∀ invite g, e.before.invites.find? e.request.codeHash = some invite →
      e.before.grants.find? (invite.grantKey e.request.granteeUserId) = some g →
        g.active e.clock = true → Same e.before e.after
  unique : ∀ g ∈ db.grants.rows.rows, ∀ g' ∈ db.grants.rows.rows,
    g.deviceOrganizationId = g'.deviceOrganizationId →
      g.deviceId = g'.deviceId → g.granteeUserId = g'.granteeUserId → g = g'

/-! ## What a call holds -/

/-- The call has no row. -/
structure Clean (db : Db) (i : Nat) : Prop where
  invites : db.invites.Owns i []
  grants : db.grants.Owns i []

/-- The call has the invitation, in this version, and these versions of the
    grant; the committed rows under them are the ones it has read. -/
structure Has (db : Db) (i : Nat) (q : Request)
    (invite version : DeviceInviteRow) (existing : Option DeviceGrantRow)
    (written : List DeviceGrantRow) : Prop where
  invites : db.invites.Owns i [version]
  locked : db.invites.rows.find? version.codeHash = some invite
  hash : version.codeHash = q.codeHash
  grants : db.grants.Owns i written
  keys : ∀ r ∈ written, r.key = invite.grantKey q.granteeUserId
  seen : written ≠ [] → db.grants.rows.find? (invite.grantKey q.granteeUserId) = existing

/-- What a call holds at each of its statements. -/
def Holding (db : Db) (i : Nat) : Tx → Prop
  | .lockInvite _ => Clean db i
  | .lockGrant q invite => Has db i q invite invite none []
  | .write q invite existing _ =>
    Has db i q invite invite existing existing.toList
      ∧ invite.answer existing q.granteeUserId q.now = .ok none
  | .count q invite existing uuid =>
    Has db i q invite invite existing [invite.row existing q.granteeUserId q.now uuid]
      ∧ invite.answer existing q.granteeUserId q.now = .ok none
  | .commit q invite existing uuid =>
    Has db i q invite invite.used existing [invite.row existing q.granteeUserId q.now uuid]
      ∧ invite.answer existing q.granteeUserId q.now = .ok none
  | .finish q invite g => Has db i q invite invite (some g) [g]
  | .done .. => Clean db i

/-- The rows of a call are as they were. -/
structure Kept (db db' : Db) (i : Nat) : Prop where
  invites : db.invites.Kept db'.invites i
  grants : db.grants.Kept db'.grants i

section Steps

variable {fromStr} {db db' : Db} {i j : Nat} {q : Request}
  {invite version : DeviceInviteRow} {existing : Option DeviceGrantRow}
  {written : List DeviceGrantRow} {t t' : Tx} {uuid : String}

theorem kept_refl (db : Db) (i : Nat) : Kept db db i :=
  ⟨.refl _ _, .refl _ _⟩

theorem Clean.kept (h : Clean db i) (hk : Kept db db' i) : Clean db' i :=
  ⟨h.invites.kept hk.invites, h.grants.kept hk.grants⟩

theorem Has.kept (h : Has db i q invite version existing written)
    (hk : Kept db db' i) : Has db' i q invite version existing written where
  invites := h.invites.kept hk.invites
  locked := by
    rw [hk.invites.rows version.codeHash (h.invites.holds.mpr
      ⟨version, mem_singleton.mpr rfl, rfl⟩)]
    exact h.locked
  hash := h.hash
  grants := h.grants.kept hk.grants
  keys := h.keys
  seen := by
    intro hne
    obtain ⟨r, hr⟩ := exists_mem_of_ne_nil written hne
    rw [hk.grants.rows _ (h.grants.holds.mpr ⟨r, hr, h.keys r hr⟩)]
    exact h.seen hne

theorem Holding.kept (h : Holding db i t) (hk : Kept db db' i) : Holding db' i t := by
  cases t with
  | lockInvite q | done q answer => exact Clean.kept h hk
  | lockGrant q invite | finish q invite g => exact Has.kept h hk
  | write q invite existing uuid | count q invite existing uuid
  | commit q invite existing uuid => exact ⟨h.1.kept hk, h.2⟩

/-- The call ends and leaves the tables to those that follow. -/
structure Closes (db db' : Db) (q : Request) (e : Ended) : Prop where
  ended : db'.ended = e :: db.ended
  request : e.request = q
  clock : e.clock = db.clock
  before : e.before = db.tables
  after : e.after = db'.tables
  redeems : e.redeemed = true → Redeems e
  quiet : e.redeemed = false → Same e.before e.after

/-- What a step of a call does: it keeps what it holds in order, leaves the rows
    of the others, and either commits nothing or ends. -/
structure Moved (db db' : Db) (i : Nat) (t t' : Tx) : Prop where
  holding : Holding db' i t'
  kept : ∀ j, j ≠ i → Kept db db' j
  request : t'.request = t.request
  clock : db'.clock = db.clock
  history : (db'.ended = db.ended ∧ db'.tables = db.tables) ∨ ∃ e, Closes db db' t.request e

theorem same_refl (t : Tables) : Same t t := ⟨fun _ => rfl, fun _ => rfl⟩

/-! ## The statements -/

theorem moved_fail (hreq : t.request = q) (e : StoreError) :
    Moved db (fail db i q e).1 i t (fail db i q e).2 where
  holding := ⟨owns_rollback, owns_rollback⟩
  kept := fun _ hij => ⟨kept_rollback hij, kept_rollback hij⟩
  request := hreq.symm
  clock := rfl
  history := .inr ⟨_, ⟨rfl, hreq.symm, rfl, rfl, rfl, nofun, fun _ => same_refl _⟩⟩

variable {r : Db × Tx}

theorem moved_lockInvite (h : Clean db i) (hs : lockInvite db i q = some r) :
    Moved db r.1 i (.lockInvite q) r.2 := by
  obtain ⟨found, hfree, hread, rfl⟩ := map_await_eq_some hs
  cases found with
  | none => exact moved_fail (t := .lockInvite q) rfl _
  | some invite =>
    have hhash : invite.codeHash = q.codeHash := key_of_read hread
    rw [h.invites.read_other fun r hr => absurd hr not_mem_nil] at hread
    refine ⟨?_, ?_, rfl, rfl, .inl ⟨rfl, rfl⟩⟩
    · exact {
        invites := h.invites.write fun r hr => absurd hr not_mem_nil
        locked := hhash ▸ hread
        hash := hhash
        grants := h.grants
        keys := fun r hr => absurd hr not_mem_nil
        seen := fun hne => absurd rfl hne }
    · intro j hj
      refine ⟨kept_write ?_ hj, Locked.Kept.refl _ _⟩
      rw [hhash]
      exact hfree

/-- A lock that was taken before. -/
theorem Moved.after {db₀ : Db} (h : Moved db db' i t t')
    (hkept : ∀ j, j ≠ i → Kept db₀ db j) (hclock : db.clock = db₀.clock)
    (hended : db.ended = db₀.ended) (htables : db.tables = db₀.tables) :
    Moved db₀ db' i t t' where
  holding := h.holding
  kept := fun j hj => ⟨(hkept j hj).invites.trans (h.kept j hj).invites,
    (hkept j hj).grants.trans (h.kept j hj).grants⟩
  request := h.request
  clock := h.clock.trans hclock
  history := by
    rcases h.history with ⟨hsame, htab⟩ | ⟨e, he⟩
    · exact .inl ⟨hsame.trans hended, htab.trans htables⟩
    exact .inr ⟨e, { he with
      ended := hended ▸ he.ended
      clock := he.clock.trans hclock
      before := he.before.trans htables }⟩

/-- The decision writes nothing. -/
theorem moved_decideGrant (uuid : String) (h : Has db i q invite invite existing existing.toList) :
    Moved db (decideGrant db i q invite existing uuid).1 i
      (.lockGrant q invite) (decideGrant db i q invite existing uuid).2 := by
  rw [decideGrant]
  cases ha : invite.answer existing q.granteeUserId q.now with
  | error e => exact moved_fail (t := .lockGrant q invite) rfl e
  | ok found =>
    cases found with
    | some g =>
      obtain ⟨hex, -⟩ := answer_some ha
      subst hex
      exact ⟨h, fun j _ => kept_refl db j, rfl, rfl, .inl ⟨rfl, rfl⟩⟩
    | none =>
      exact ⟨⟨h, ha⟩, fun j _ => kept_refl db j, rfl, rfl, .inl ⟨rfl, rfl⟩⟩

theorem moved_lockGrant (h : Has db i q invite invite none [])
    (hs : lockGrant db i q invite uuid = some r) :
    Moved db r.1 i (.lockGrant q invite) r.2 := by
  rw [lockGrant] at hs
  split at hs
  · cases hs
    exact moved_decideGrant uuid h
  obtain ⟨found, hfree, hread, rfl⟩ := map_await_eq_some hs
  cases found with
  | none => exact moved_decideGrant uuid h
  | some g =>
    have hkey : g.key = invite.grantKey q.granteeUserId :=
      key_of_read hread
    rw [h.grants.read_other fun r hr => absurd hr not_mem_nil] at hread
    have hhas : Has { db with grants := db.grants.write i g } i q invite
        invite (some g) (some g).toList := { h with
      grants := h.grants.write fun r hr => absurd hr not_mem_nil
      keys := fun r hr => mem_singleton.mp hr ▸ hkey
      seen := fun _ => hread }
    refine (moved_decideGrant uuid hhas).after ?_ rfl rfl rfl
    intro j hj
    refine ⟨.refl _ _, kept_write ?_ hj⟩
    rw [hkey]
    exact hfree

theorem Has.row_key (h : Has db i q invite version existing existing.toList) (uuid : String) :
    (invite.row existing q.granteeUserId q.now uuid).key = invite.grantKey q.granteeUserId := by
  refine Invites.row_key q.now uuid ?_
  rintro old rfl
  exact h.keys old (mem_singleton.mpr rfl)

theorem moved_writeGrant (h : Has db i q invite invite existing existing.toList)
    (ha : invite.answer existing q.granteeUserId q.now = .ok none)
    (hs : writeGrant db i q invite existing uuid = some r) :
    Moved db r.1 i (.write q invite existing uuid) r.2 := by
  have hkey := h.row_key uuid
  cases existing with
  | some old =>
    -- the row is locked since it was read
    cases hs
    have hold := h.keys old (mem_singleton.mpr rfl)
    refine ⟨⟨{ h with
        grants := Locked.Owns.rewrite h.grants (hkey.trans hold.symm)
        keys := fun r hr => mem_singleton.mp hr ▸ hkey
        seen := fun _ => h.seen nofun }, ha⟩, ?_, rfl, rfl,
      .inl ⟨rfl, rfl⟩⟩
    intro j hj
    refine ⟨.refl _ _, kept_write ?_ hj⟩
    rw [hkey]
    exact (h.grants.holds.mpr ⟨old, mem_singleton.mpr rfl, hold⟩).free
  | none =>
    obtain ⟨found, hinsert, rfl⟩ := map_eq_some_iff.mp hs
    cases found with
    | none => exact moved_fail (t := .write q invite none uuid) rfl _
    | some grants =>
      have howns := h.grants.insert hinsert
      obtain ⟨hfree, hread, rfl⟩ := insert_eq_some hinsert
      rw [h.grants.read_other fun r hr => absurd hr not_mem_nil, hkey] at hread
      refine ⟨⟨{ h with
          grants := howns
          keys := fun r hr => mem_singleton.mp hr ▸ hkey
          seen := fun _ => hread }, ha⟩, ?_, rfl, rfl, .inl ⟨rfl, rfl⟩⟩
      intro j hj
      exact ⟨.refl _ _, kept_write hfree hj⟩

theorem moved_countUse (h : Has db i q invite invite existing
      [invite.row existing q.granteeUserId q.now uuid])
    (ha : invite.answer existing q.granteeUserId q.now = .ok none)
    (hs : countUse db i q invite existing uuid = some r) :
    Moved db r.1 i (.count q invite existing uuid) r.2 := by
  obtain ⟨found, hfree, hread, rfl⟩ := map_await_eq_some hs
  rw [h.invites.read (mem_singleton.mpr rfl)] at hread
  subst hread
  refine ⟨⟨{ h with
      invites := h.invites.rewrite rfl
      locked := h.locked
      hash := h.hash }, ha⟩, ?_, rfl, rfl, .inl ⟨rfl, rfl⟩⟩
  intro j hj
  exact ⟨kept_write hfree hj, .refl _ _⟩

/-! ## The ends -/

theorem kept_commit (hj : j ≠ i) : Kept db (db.commit i) j :=
  ⟨Locked.kept_commit hj, Locked.kept_commit hj⟩

theorem moved_commit (h : Has db i q invite invite.used existing
      [invite.row existing q.granteeUserId q.now uuid])
    (ha : invite.answer existing q.granteeUserId q.now = .ok none)
    (answer : Except StoreError DeviceGrant) :
    Moved db (db.close (db.commit i) q true) i
      (.commit q invite existing uuid) (.done q answer) where
  holding := ⟨owns_commit, owns_commit⟩
  kept := fun _ hj => ⟨(kept_commit hj).invites, (kept_commit hj).grants⟩
  request := rfl
  clock := rfl
  history := by
    refine .inr ⟨_, ⟨rfl, rfl, rfl, rfl, rfl, fun _ => ?_, nofun⟩⟩
    refine ⟨invite, existing, uuid, h.hash ▸ h.locked, h.seen nofun, ha, ?_, ?_⟩
    · intro k
      exact (h.invites.find?_commit_one k).trans (find?_put ..).symm
    · intro k
      exact (h.grants.find?_commit_one k).trans (find?_put ..).symm

theorem moved_finish {g : DeviceGrantRow} (h : Has db i q invite invite (some g) [g])
    (answer : Except StoreError DeviceGrant) :
    Moved db (db.close (db.commit i) q false) i (.finish q invite g) (.done q answer) where
  holding := ⟨owns_commit, owns_commit⟩
  kept := fun _ hj => ⟨(kept_commit hj).invites, (kept_commit hj).grants⟩
  request := rfl
  clock := rfl
  history := by
    have hseen := h.seen nofun
    rw [← h.keys g (mem_singleton.mpr rfl)] at hseen
    refine .inr ⟨_, ⟨rfl, rfl, rfl, rfl, rfl, nofun, fun _ => ⟨?_, ?_⟩⟩⟩
    · -- it puts back what it has locked
      intro k
      refine (h.invites.find?_commit_one k).trans ?_
      split
      · next hk => exact h.locked.symm.trans (hk ▸ rfl)
      · rfl
    · intro k
      refine (h.grants.find?_commit_one k).trans ?_
      split
      · next hk => exact hseen.symm.trans (hk ▸ rfl)
      · rfl

/-- **WHAT A STEP OF A CALL DOES**. -/
theorem moved_step (h : Holding db i t)
    (hs : taskStep fromStr db i t uuid = some r) : Moved db r.1 i t r.2 := by
  cases t with
  | lockInvite q => exact moved_lockInvite h hs
  | lockGrant q invite => exact moved_lockGrant h hs
  | write q invite existing uuid => exact moved_writeGrant h.1 h.2 hs
  | count q invite existing uuid => exact moved_countUse h.1 h.2 hs
  | commit q invite existing uuid =>
    cases hs
    exact moved_commit h.1 h.2 _
  | finish q invite g =>
    cases hs
    exact moved_finish h _
  | done q answer => cases hs

theorem moved_lose (hs : lose db i t = some r) : Moved db r.1 i t r.2 := by
  rw [lose.eq_def] at hs
  split at hs
  · cases hs
  · cases hs
    exact moved_fail rfl _

/-! ## Uses and counts -/

/-- The calls that have redeemed an invitation. -/
def uses (db : Db) (codeHash : String) : Nat :=
  db.ended.countP fun e =>
    e.redeemed && decide (e.request.codeHash = codeHash)

/-- An invitation counts the calls that have redeemed it; nobody has redeemed
    one that is not there. -/
def Tally (n : Nat) : Option DeviceInviteRow → Prop
  | none => n = 0
  | some r => r.useCount = n ∧ r.useCount ≤ r.maxUses

/-- What the invitations say agrees with the calls that are over. -/
structure Books (db : Db) : Prop where
  time : ∀ e ∈ db.ended, e.request.now ≤ e.clock
  redeems : ∀ e ∈ db.ended, e.redeemed = true → Redeems e
  quiet : ∀ e ∈ db.ended, e.redeemed = false → Same e.before e.after
  tallies : ∀ k, Tally (uses db k) (db.invites.rows.find? k)

theorem Books.same (h : Books db) (hended : db'.ended = db.ended)
    (hrows : ∀ k, db'.invites.rows.find? k = db.invites.rows.find? k) :
    Books db' where
  time := hended ▸ h.time
  redeems := hended ▸ h.redeems
  quiet := hended ▸ h.quiet
  tallies := by
    intro k
    rw [uses, hended, hrows]
    exact h.tallies k

theorem Books.tally (h : Books db) (hmem : invite ∈ db.invites.rows.rows) :
    invite.useCount = uses db invite.codeHash ∧ invite.useCount ≤ invite.maxUses := by
  have htally := h.tallies invite.codeHash
  rw [show db.invites.rows.find? invite.codeHash = some invite from find?_of_mem hmem] at htally
  exact htally

theorem uses_cons {e : Ended} (hended : db'.ended = e :: db.ended) (k : String) :
    uses db' k = uses db k + if e.redeemed = true ∧ e.request.codeHash = k then 1 else 0 := by
  rw [uses, hended, countP_cons, ← uses]
  simp only [Bool.and_eq_true, decide_eq_true_eq]

theorem Books.closes (h : Books db) {e : Ended} (he : Closes db db' q e)
    (htime : q.now ≤ db.clock) : Books db' := by
  have hafter : ∀ k, e.after.invites.find? k = db'.invites.rows.find? k := by
    intro k
    rw [he.after]
    rfl
  have hbefore : ∀ k, e.before.invites.find? k = db.invites.rows.find? k := by
    intro k
    rw [he.before]
    rfl
  -- a row afterwards is a row before, or the invitation that was redeemed
  have hrows : ∀ k, (¬ (e.redeemed = true ∧ q.codeHash = k)
        ∧ db'.invites.rows.find? k = db.invites.rows.find? k)
      ∨ ((e.redeemed = true ∧ q.codeHash = k) ∧ ∃ invite,
        db.invites.rows.find? k = some invite ∧ invite.spent q.now = false
          ∧ db'.invites.rows.find? k = some invite.used) := by
    intro k
    cases hred : e.redeemed with
    | false =>
      refine .inl ⟨nofun, ?_⟩
      rw [← hafter, (he.quiet hred).1, hbefore]
    | true =>
      obtain ⟨invite, existing, uuid, hi, -, ha, hsame, -⟩ := he.redeems hred
      rw [hbefore, he.request] at hi
      rw [he.request] at ha
      have hkey : invite.codeHash = q.codeHash := key_of_find? hi
      have hput := hsame k
      rw [hafter, he.before] at hput
      rw [show (db.tables.invites.put invite.used).find? k = _ from
        find?_put .., show invite.used.codeHash = q.codeHash from hkey]
        at hput
      by_cases hk : q.codeHash = k
      · subst hk
        rw [if_pos rfl] at hput
        exact .inr ⟨⟨rfl, rfl⟩, invite, hi, (answer_none ha).2, hput⟩
      · rw [if_neg hk] at hput
        exact .inl ⟨fun h => hk h.2, hput⟩
  have hmem : ∀ {P : Ended → Prop}, (∀ x ∈ db.ended, P x) → P e → ∀ x ∈ db'.ended, P x := by
    intro P hall hnew x hx
    rw [he.ended] at hx
    rcases mem_cons.mp hx with rfl | hx
    · exact hnew
    · exact hall x hx
  refine ⟨hmem h.time ?_, hmem h.redeems he.redeems, hmem h.quiet he.quiet, ?_⟩
  · rw [he.request, he.clock]
    exact htime
  intro k
  have htally := h.tallies k
  rw [uses_cons he.ended, he.request]
  rcases hrows k with ⟨hno, hold⟩ | ⟨hyes, invite, hi, hspent, hnew⟩
  · rw [if_neg hno, hold]
    exact htally
  rw [hi] at htally
  rw [if_pos hyes, hnew]
  rw [DeviceInviteRow.spent, Bool.or_eq_false_iff] at hspent
  have hlt := of_decide_eq_false hspent.2
  show invite.useCount + 1 = _ ∧ invite.useCount + 1 ≤ invite.maxUses
  refine ⟨?_, by omega⟩
  rw [htally.1]
  rfl

/-! ## The other statements -/

/-- What a statement outside the calls does: it leaves the rows that are held,
    and the books are in order. -/
structure Aside (db db' : Db) : Prop where
  kept : ∀ i, Kept db db' i
  books : Books db → Books db'
  clock : db.clock ≤ db'.clock

theorem aside_refl (db : Db) : Aside db db :=
  ⟨kept_refl db, id, Int.le_refl _⟩

theorem aside_create {e : Sharers} {input : DeviceInviteRow}
    (hs : create db e input = some db') : Aside db db' := by
  rw [create] at hs
  split at hs
  · next hgo =>
    obtain ⟨hpos, -, hfree⟩ := hgo
    split at hs
    · next t ht =>
      cases hs
      obtain ⟨hnew, hrows⟩ := create_cases ht
      refine ⟨fun i => ⟨kept_of_rows ?_, .refl _ _⟩, ?_, Int.le_refl _⟩
      · intro k hheld
        refine (hrows k).trans (if_neg ?_)
        rintro rfl
        exact hheld hfree
      · intro h
        refine { h with tallies := ?_ }
        intro k
        have htally := h.tallies k
        show Tally (uses db k) (t.invites.find? k)
        rw [hrows k]
        split
        · next hk =>
          subst hk
          rw [show db.invites.rows.find? input.codeHash = none from hnew] at htally
          rw [show uses db input.codeHash = 0 from htally]
          exact ⟨rfl, show 0 ≤ input.maxUses by omega⟩
        · exact htally
    · cases hs
      exact aside_refl db
  · cases hs

theorem aside_revokeInvite {inviteId ownerUserId : String}
    (hs : revokeInvite db inviteId ownerUserId = some db') : Aside db db' := by
  obtain ⟨hfree, rfl⟩ := of_guard hs
  have hrows := find?_revokeDeviceInvite db.tables inviteId ownerUserId db.clock
  refine ⟨fun i => ⟨kept_of_rows ?_, .refl _ _⟩, ?_, Int.le_refl _⟩
  · intro k hheld
    refine (hrows k).trans ?_
    cases hr : db.invites.rows.find? k with
    | none => exact congrArg _ hr
    | some r =>
      refine (congrArg _ hr).trans (congrArg some (if_neg ?_))
      intro hrev
      rw [DeviceInviteRow.revocable, Bool.and_eq_true, Bool.and_eq_true, decide_eq_true_eq] at hrev
      refine hheld ?_
      rw [← key_of_find? hr]
      exact hfree r (mem_of_find? hr) hrev.1.1
  · intro h
    refine { h with tallies := ?_ }
    intro k
    have htally := h.tallies k
    show Tally (uses db k) (Table.find? _ k)
    rw [hrows k]
    change Tally (uses db k) ((db.invites.rows.find? k).map _)
    cases hr : db.invites.rows.find? k with rw [hr] at htally
    | none => exact htally
    | some r =>
      -- the row it writes counts and allows the same uses
      show Tally (uses db k) (some (if _ then _ else _))
      split
      all_goals exact htally

theorem aside_revokeGrant {k : GrantKey} {ownerUserId : String}
    (hs : revokeGrant db k ownerUserId = some db') : Aside db db' := by
  obtain ⟨hfree, rfl⟩ := of_guard hs
  refine ⟨fun i => ⟨.refl _ _, kept_of_rows ?_⟩, ?_, Int.le_refl _⟩
  · intro k' hheld
    refine (find?_revokeDeviceGrant db.tables k ownerUserId db.clock k').trans ?_
    cases hr : db.grants.rows.find? k' with
    | none => exact congrArg _ hr
    | some r =>
      refine (congrArg _ hr).trans (congrArg some (if_neg ?_))
      intro hrev
      rw [DeviceGrantRow.revocable, Bool.and_eq_true, decide_eq_true_eq] at hrev
      have hkey : r.key = k' := key_of_find? hr
      obtain rfl : k = k' := hrev.2.symm.trans hkey
      rcases hfree with hnone | hnone
      · cases hr.symm.trans hnone
      · exact hheld hnone
  · exact fun h => h.same rfl fun _ => rfl

theorem aside_tick (db : Db) (n : Nat) : Aside db { db with clock := db.clock + n } :=
  ⟨fun _ => ⟨.refl _ _, .refl _ _⟩, fun h => h.same rfl fun _ => rfl, by
    show db.clock ≤ db.clock + n
    omega⟩

/-! ## Whole runs -/

/-- What every step keeps. -/
structure Inv (p : Pool Db Tx) : Prop where
  holding : ∀ (i : Nat) (t : Tx), p.tasks[i]? = some t → Holding p.shared i t
  idle : ∀ i, p.tasks[i]? = none → Clean p.shared i
  time : ∀ t ∈ p.tasks, t.request.now ≤ p.shared.clock
  books : Books p.shared

theorem Inv.aside {p : Pool Db Tx} (hi : Inv p) (ha : Aside p.shared db') :
    Inv { p with shared := db' } where
  holding := fun i t ht => (hi.holding i t ht).kept (ha.kept i)
  idle := fun i hn => (hi.idle i hn).kept (ha.kept i)
  time := fun t ht => (hi.time t ht).trans ha.clock
  books := ha.books hi.books

theorem Inv.moved {p : Pool Db Tx} (hi : Inv p) (ht : p.tasks[i]? = some t)
    (hm : Moved p.shared db' i t t') : Inv ⟨db', p.tasks.set i t'⟩ where
  holding := forall_numbered_set hi.holding (fun j _ hij hu => hu.kept (hm.kept j hij)) hm.holding
  idle := forall_idle_set ht hi.idle fun j hij hclean => hclean.kept (hm.kept j hij)
  time := by
    refine forall_tasks_set (fun u hu => ?_) ?_
    · rw [hm.clock]
      exact hi.time u hu
    · rw [hm.clock, hm.request]
      exact hi.time t (mem_of_getElem? ht)
  books := by
    rcases hm.history with ⟨hended, htables⟩ | ⟨e, he⟩
    · exact hi.books.same hended fun k =>
        congrArg (fun t : Tables => t.invites.find? k) htables
    · exact hi.books.closes he (hi.time t (mem_of_getElem? ht))

theorem inv_step {p p' : Pool Db Tx} {a : Act} (hi : Inv p)
    (hs : step fromStr p a = some p') : Inv p' := by
  cases a with
  | begin codeHash granteeUserId =>
    cases hs
    have hclean := hi.idle p.tasks.length (getElem?_eq_none_iff.mpr (Nat.le_refl _))
    exact {
      holding := forall_numbered_spawn hi.holding hclean
      idle := forall_idle_spawn hi.idle
      time := forall_tasks_spawn hi.time (Int.le_refl _)
      books := hi.books }
  | next i uuid =>
    rw [step] at hs
    obtain ⟨t, db', t', ht, hstep, rfl⟩ := Pool.advance_eq_some hs
    exact hi.moved ht (moved_step (hi.holding i t ht) hstep)
  | lose i =>
    rw [step] at hs
    obtain ⟨t, db', t', ht, hstep, rfl⟩ := Pool.advance_eq_some hs
    exact hi.moved ht (moved_lose hstep)
  | create e input =>
    obtain ⟨db', hdb, rfl⟩ := map_eq_some_iff.mp hs
    exact hi.aside (aside_create hdb)
  | revokeInvite inviteId ownerUserId =>
    obtain ⟨db', hdb, rfl⟩ := map_eq_some_iff.mp hs
    exact hi.aside (aside_revokeInvite hdb)
  | revokeGrant k ownerUserId =>
    obtain ⟨db', hdb, rfl⟩ := map_eq_some_iff.mp hs
    exact hi.aside (aside_revokeGrant hdb)
  | tick n =>
    cases hs
    exact hi.aside (aside_tick p.shared n)

theorem inv_start : Inv ⟨{}, []⟩ where
  holding := fun _ _ h => nomatch h
  idle := fun i _ => ⟨owns_committed _ i, owns_committed _ i⟩
  time := fun _ h => nomatch h
  books := {
    time := fun _ h => nomatch h
    redeems := fun _ h => nomatch h
    quiet := fun _ h => nomatch h
    tallies := fun _ => rfl }

/-- A grant that is active later was active before. -/
theorem active_of_le {g : DeviceGrantRow} {now later : Int} (hle : now ≤ later)
    (h : g.active later = true) : g.active now = true := by
  rw [DeviceGrantRow.active, Bool.and_eq_true] at h ⊢
  refine ⟨h.1, ?_⟩
  cases he : g.expiresAt with
  | none => rfl
  | some expires =>
    have hlt : later < expires := by simpa [he] using h.2
    exact decide_eq_true (by omega)

theorem Books.exact (h : Books db) : Exact db := { h with
  counted := fun invite hmem => (h.tally hmem).1
  bounded := fun invite hmem => (h.tally hmem).2
  spent := by
    intro e he invite hi hspent
    by_contra hred
    obtain ⟨invite', existing, uuid, hi', -, ha, -⟩ :=
      h.redeems e he (eq_true_of_ne_false hred)
    cases hi.symm.trans hi'
    rw [(answer_none ha).2] at hspent
    cases hspent
  active := by
    intro e he invite g hi hg hactive
    cases hred : e.redeemed with
    | false => exact h.quiet e he hred
    | true =>
      obtain ⟨invite', existing, uuid, hi', rfl, ha, -⟩ :=
        h.redeems e he hred
      cases hi.symm.trans hi'
      have hno := (answer_none ha).1 g hg
      rw [active_of_le (h.time e he) hactive] at hno
      cases hno
  unique := by
    intro g hg g' hg' horg hdev hgrantee
    refine inj_on_of_nodup_map db.grants.rows.nodup hg hg' ?_
    rw [DeviceGrantRow.key, DeviceGrantRow.key, horg, hdev, hgrantee] }

end Steps

/-- **INVITATIONS ARE SPENT EXACTLY**: whatever calls, revocations, new invitations and passing of
    time come in whatever order of their statements, the uses an invitation counts are the calls
    that committed a grant through it and never more than it allows; a call on a spent invitation
    commits none; a user has one grant on a device, and while that is active no call changes
    anything. -/
theorem invites_spent_exactly (as : List Act) :
    Along (step fromStr) (fun p => Exact p.shared) ⟨{}, []⟩ as := by
  refine Along.mono (P := Inv) (fun p hi => hi.books.exact) as _ ?_
  exact inv_along_admitted (fun _ _ _ hi _ hs => inv_step hi hs) as _ inv_start (admitted_true as _)

-- two invitations for one user and device: the second insertion fails
example : (run (step fun _ => none) ⟨{}, []⟩ [.create openDevice (invitation "i1" "alice"),
      .create openDevice (invitation "i2" "bob"),
      .begin "i1" "carol", .begin "i2" "carol", .next 0 "", .next 1 "",
      .next 0 "g1", .next 1 "g2", .next 0 "", .next 0 "", .next 0 "",
      .next 1 ""]).map (fun p => p.shared.invites.rows.rows.map fun i =>
        (i.id, i.useCount)) = some [("i1", 1), ("i2", 0)] := by
  decide +kernel

end Redemptions
