import NagisaLake.CoverProofs
import NagisaLake.MembersProofs

/-! # Owners — an organization without one

Here the transactions on memberships are the sequences of their statements
under READ COMMITTED, and any number of them are under way.  The three that
may take an owner's role lock every membership of the organization first;
whoever they count among the owners stays one until they commit.

`delete_user` locks the memberships the user has when it looks, and refuses
an owner.  The delete cascades over the memberships there are by then: one
that was inserted in between has not been looked at
(`deleted_with_organization`).  In a run in which no cascade meets an
owner's membership every organization keeps an owner
(`owned_of_no_owner_cascades`).

Statements on other tables change nothing here and are left out, as any
other transaction may move between two statements anyway; that they may fail
is `lose`. -/

namespace Owners

open KeyedTable Locking Pools Runs List Option Locked
open HubStore (StoreError Key)
open Logins (Role)
open Members (MembershipRow Verdict judgeRole judgeRemoval judgeTransfer owners)

/-! ## The tables -/

/-- A row of `organizations`. -/
structure OrganizationRow where
  id : String
  name : String
  deriving DecidableEq, Repr

/-- A version of a row of `users`. -/
structure UserRow where
  id : String
  deleted : Bool
  deriving DecidableEq, Repr

/-- A version of a row of `memberships`; one without a role is deleted.  Rows
    inserted one after the other under a key differ in their stamps. -/
structure Slot where
  organizationId : String
  userId : String
  role : Option Role
  stamp : Nat
  deriving DecidableEq, Repr

def Slot.key (s : Slot) : Key := (s.organizationId, s.userId)

/-- The row, unless it is deleted. -/
def Slot.row (s : Slot) : Option MembershipRow :=
  s.role.map fun role => ⟨s.organizationId, s.userId, role⟩

/-- An owner's membership. -/
def Slot.isOwner (s : Slot) : Bool := decide (s.role = some .owner)

/-- A row of `organization_invites`. -/
structure InviteRow where
  id : String
  organizationId : String
  codeHash : String
  role : Role
  expiresAt : Int
  acceptedAt : Option Int
  acceptedByUserId : Option String
  revokedAt : Option Int
  deriving DecidableEq, Repr

/-- The tables; `shares` are the users whose rows a transaction has locked
    `FOR KEY SHARE`, for a foreign key. -/
structure Db where
  organizations : Locked String OrganizationRow OrganizationRow.id
  users : Locked String UserRow UserRow.id
  memberships : Locked Key Slot Slot.key
  invites : Locked String InviteRow InviteRow.codeHash
  shares : List (Nat × String)
  stamp : Nat

/-- Every lock of the transaction goes. -/
def Db.release (db : Db) (i : Nat) : List (Nat × String) :=
  db.shares.filter fun s => !decide (s.1 = i)

def Db.commit (db : Db) (i : Nat) : Db where
  organizations := db.organizations.commit i
  users := db.users.commit i
  memberships := db.memberships.commit i
  invites := db.invites.commit i
  shares := db.release i
  stamp := db.stamp

def Db.rollback (db : Db) (i : Nat) : Db where
  organizations := db.organizations.rollback i
  users := db.users.rollback i
  memberships := db.memberships.rollback i
  invites := db.invites.rollback i
  shares := db.release i
  stamp := db.stamp

/-! ## Statements -/

/-- The transactions that begin with a locking select. -/
inductive Op where
  | setMemberRole (organizationId userId : String) (role : Role)
  | removeMember (organizationId userId : String)
  | transferOwner (organizationId fromUserId toUserId : String)
  | deleteUser (userId : String)
  deriving DecidableEq, Repr

/-- The `WHERE` of the select. -/
def Op.selects : Op → Key → Bool
  | .setMemberRole o _ _, k | .removeMember o _, k | .transferOwner o _ _, k =>
    decide (k.1 = o)
  | .deleteUser u, k => decide (k.2 = u)

/-- The check of `delete_user`. -/
def judgeDeletion (ms : List MembershipRow) : Verdict :=
  if ms.any fun m => decide (m.role = .owner) then
    .refused (.conflict ("transfer ownership or delete owned organizations"
      ++ " before deleting the account"))
  else .granted

/-- The check on the rows that were locked. -/
def Op.judge : Op → List MembershipRow → Verdict
  | .setMemberRole _ u role, ms => judgeRole ms u role
  | .removeMember _ u, ms => judgeRemoval ms u
  | .transferOwner _ a b, ms => judgeTransfer ms a b
  | .deleteUser _, ms => judgeDeletion ms

/-- What a call returns. -/
inductive Answer where
  | membership (organizationId userId : String) (role : Role)
      (organizationName : String)
  | found (member : Bool)
  | unit
  deriving DecidableEq, Repr

/-- The next statement of a transaction, with what it has read so far. -/
inductive Tx where
  /-- `create_organization_for_user` -/
  | insertOrganization (userId name : String)
  | insertOwner (userId : String) (organization : OrganizationRow)
  | commitOrganization (userId : String) (organization : OrganizationRow)
  /-- `accept_organization_invite`, at this time -/
  | lockInvite (codeHash userId : String) (now : Int)
  | readMembership (userId : String) (invite : InviteRow) (now : Int)
  | insertMember (userId : String) (invite : InviteRow) (now : Int)
  | markInvite (userId : String) (invite : InviteRow) (role : Role) (now : Int)
  | readName (userId : String) (invite : InviteRow) (role : Role)
  /-- the others: `SELECT … FOR UPDATE` takes its snapshot, and then the locks one by one -/
  | select (op : Op)
  | lock (op : Op) (todo : List (Key × Nat)) (seen : List MembershipRow)
  | write (op : Op) (seen : List MembershipRow)
  /-- the deletion of a user goes through the memberships it refers to -/
  | cascade (userId : String) (todo : List (Key × Nat))
  | commit (answer : Answer)
  | done (result : Except StoreError Answer)

/-- What is left to the environment: the ids of new rows, and the row a statement comes to next. -/
structure Choice where
  uuid : String := ""
  pick : Nat := 0

/-- An error: the transaction is rolled back. -/
def fail (db : Db) (i : Nat) (e : StoreError) : Db × Tx :=
  (db.rollback i, .done (.error e))

/-- A foreign key on `users`: wait while another transaction deletes the row;
    `some none` when there is none. -/
def shareUser (db : Db) (i : Nat) (userId : String) : Option (Option Db) :=
  (db.users.await i userId).map fun
    | some ⟨_, false⟩ => some { db with shares := (i, userId) :: db.shares }
    | _ => none

/-- `INSERT INTO memberships`: wait for a transaction that holds the key, then
    for the foreign key; `some none` when either is violated. -/
def insertMembership (db : Db) (i : Nat) (organizationId userId : String)
    (role : Role) : Option (Option Db) :=
  (db.memberships.await i (organizationId, userId)).bind fun found =>
  match found.bind Slot.role with
  | some _ => some none
  | none => (shareUser db i userId).map fun shared =>
    shared.bind fun db =>
    if (db.organizations.read i organizationId).isNone then none
    else some { db with
      memberships := db.memberships.write i ⟨organizationId, userId, some role, db.stamp⟩
      stamp := db.stamp + 1 }

/-- The rows a statement's snapshot has. -/
def snapshot (db : Db) (i : Nat) (p : Key → Bool) : List (Key × Nat) :=
  ((db.memberships.view i).rows.filter fun s =>
    s.role.isSome && p s.key).map fun s => (s.key, s.stamp)

/-- The lock of a row of the snapshot is granted: its version by then, or
    `some none` when the row is gone. -/
def grab (db : Db) (i : Nat) (x : Key × Nat) : Option (Option Slot) :=
  (db.memberships.await i x.1).map fun found =>
    found.filter fun s => s.role.isSome && decide (s.stamp = x.2)

/-- Another version of a row that was locked. -/
def update (db : Db) (i : Nat) (k : Key) (role : Option Role) : Option Db :=
  (db.memberships.await i k).map fun
    | some s => if s.role.isSome then
        { db with memberships := db.memberships.write i { s with role := role } }
      else db
    | none => db

/-- `DELETE FROM users`, which waits for the foreign keys on the row. -/
def deleteUser (db : Db) (i : Nat) (userId : String) : Option (Db × Tx) :=
  if db.shares.any fun s => decide (s.2 = userId) && !decide (s.1 = i) then
    none
  else (db.users.await i userId).map fun
    | some ⟨_, false⟩ =>
      let db := { db with users := db.users.write i ⟨userId, true⟩ }
      (db, .cascade userId (snapshot db i fun k => decide (k.2 = userId)))
    | _ => fail db i (.notFound "user")

/-- The statement after the check. -/
def writeOp (db : Db) (i : Nat) : Op → Option (Db × Tx)
  | .setMemberRole o u role => (update db i (o, u) (some role)).map fun db =>
    (db, .commit (.found true))
  | .removeMember o u => (update db i (o, u) none).map fun db =>
    (db, .commit (.found true))
  | .transferOwner o a b => (update db i (o, b) (some .owner)).bind fun db =>
    (update db i (o, a) (some .admin)).map fun db => (db, .commit .unit)
  | .deleteUser u => deleteUser db i u

/-- The select has all its rows. -/
def settle (db : Db) (i : Nat) (op : Op) (seen : List MembershipRow) : Db × Tx :=
  match op.judge seen with
  | .absent => (db.rollback i, .done (.ok (.found false)))
  | .refused e => fail db i e
  | .granted => (db, .write op seen)

/-- The select locks one more row; a row that is gone is passed over. -/
def lockNext (db : Db) (i : Nat) (op : Op) (todo : List (Key × Nat))
    (seen : List MembershipRow) (pick : Nat) : Option (Db × Tx) :=
  (todo[pick]?).bind fun x => (grab db i x).map fun found =>
    match found with
    | none => (db, .lock op (todo.eraseIdx pick) seen)
    | some s => ({ db with memberships := db.memberships.write i s },
        .lock op (todo.eraseIdx pick) (seen ++ s.row.toList))

/-- The cascade deletes one more row. -/
def cascadeNext (db : Db) (i : Nat) (userId : String)
    (todo : List (Key × Nat)) (pick : Nat) : Option (Db × Tx) :=
  (todo[pick]?).bind fun x => (grab db i x).map fun found =>
    match found with
    | none => (db, .cascade userId (todo.eraseIdx pick))
    | some s => ({ db with
        memberships := db.memberships.write i { s with role := none } },
        .cascade userId (todo.eraseIdx pick))

/-- `accept_organization_invite` checks the row it has locked; the role is read
    from it with a statement of its own. -/
def lockInvite (db : Db) (i : Nat) (codeHash userId : String) (now : Int) : Option (Db × Tx) :=
  (db.invites.await i codeHash).map fun
    | none => fail db i (.notFound "organization invitation")
    | some invite =>
      if invite.acceptedAt.isSome ∨ invite.revokedAt.isSome
          ∨ invite.expiresAt ≤ now then
        fail db i (.conflict "organization invitation is expired, used, or revoked")
      else ({ db with invites := db.invites.write i invite },
        .readMembership userId invite now)

/-- A member keeps the role it has. -/
def readMembership (db : Db) (i : Nat) (userId : String) (invite : InviteRow)
    (now : Int) : Db × Tx :=
  match (db.memberships.read i (invite.organizationId, userId)).bind
      Slot.role with
  | some role => (db, .markInvite userId invite role now)
  | none => (db, .insertMember userId invite now)

/-- `UPDATE organization_invites`, whose new column refers to the user. -/
def markInvite (db : Db) (i : Nat) (userId : String) (invite : InviteRow)
    (role : Role) (now : Int) : Option (Db × Tx) :=
  (shareUser db i userId).map fun
    | none => fail db i (.database "foreign key violation")
    | some db => ({ db with
        invites := db.invites.write i { invite with
          acceptedAt := some now, acceptedByUserId := some userId } },
        .readName userId invite role)

/-- One step of a transaction; `none` while it waits, and after its end. -/
def taskStep (db : Db) (i : Nat) : Tx → Choice → Option (Db × Tx)
  | .insertOrganization userId name, c =>
    (db.organizations.insert i ⟨c.uuid, name⟩).map fun
      | none => fail db i (.database "duplicate key value")
      | some organizations => ({ db with organizations := organizations },
          .insertOwner userId ⟨c.uuid, name⟩)
  | .insertOwner userId o, _ =>
    (insertMembership db i o.id userId .owner).map fun
      | none => fail db i (.database "constraint violation")
      | some db => (db, .commitOrganization userId o)
  | .commitOrganization userId o, _ => some (db.commit i,
      .done (.ok (.membership o.id userId .owner o.name)))
  | .lockInvite codeHash userId now, _ => lockInvite db i codeHash userId now
  | .readMembership userId invite now, _ =>
    some (readMembership db i userId invite now)
  | .insertMember userId invite now, _ =>
    (insertMembership db i invite.organizationId userId invite.role).map fun
      | none => fail db i (.database "constraint violation")
      | some db => (db, .markInvite userId invite invite.role now)
  | .markInvite userId invite role now, _ =>
    markInvite db i userId invite role now
  | .readName userId invite role, _ =>
    match db.organizations.read i invite.organizationId with
    | none => some (fail db i (.database "no row returned"))
    | some o => some (db, .commit (.membership invite.organizationId userId role o.name))
  | .select op, _ => some (db, .lock op (snapshot db i op.selects) [])
  | .lock op [] seen, _ => some (settle db i op seen)
  | .lock op todo seen, c => lockNext db i op todo seen c.pick
  | .write op _, _ => writeOp db i op
  | .cascade _ [], _ => some (db, .commit .unit)
  | .cascade userId todo, c => cascadeNext db i userId todo c.pick
  | .commit answer, _ => some (db.commit i, .done (.ok answer))
  | .done _, _ => none

/-- A transaction that has not ended may be lost: a deadlock, a failed
    statement, a broken connection. -/
def lose (db : Db) (i : Nat) : Tx → Option (Db × Tx)
  | .done _ => none
  | _ => some (fail db i (.database "connection lost"))

/-- What can happen. -/
inductive Act where
  | createOrganizationForUser (userId name : String)
  | acceptOrganizationInvite (codeHash userId : String) (now : Int)
  | call (op : Op)
  | next (i : Nat) (c : Choice)
  | lose (i : Nat)

/-- The first statement of a call. -/
def opening : Op → Tx
  | .transferOwner o a b =>
    if a = b then .done (.error
      (.conflict "owner transfer target must be another member"))
    else .select (.transferOwner o a b)
  | op => .select op

/-- The transactions are numbered as they begin. -/
def step (p : Pool Db Tx) : Act → Option (Pool Db Tx)
  | .createOrganizationForUser userId name =>
    some (p.spawn (.insertOrganization userId name))
  | .acceptOrganizationInvite codeHash userId now =>
    some (p.spawn (.lockInvite codeHash userId now))
  | .call op => some (p.spawn (opening op))
  | .next i c => p.advance (fun db t c => taskStep db i t c) i c
  | .lose i => p.advance (fun db t (_ : Unit) => lose db i t) i ()

/-! ## What is claimed -/

/-- Every organization has an owner. -/
def Owned (db : Db) : Prop :=
  ∀ o ∈ db.organizations.rows.rows, Locked.Manned Prod.fst Slot.isOwner db.memberships.rows o.id

/-- A cascade comes to an owner's membership. -/
def CascadesOwner (p : Pool Db Tx) : Act → Prop
  | .next i c => ∃ userId todo x s, p.tasks[i]? = some (.cascade userId todo)
      ∧ todo[c.pick]? = some x ∧ grab p.shared i x = some (some s)
      ∧ s.isOwner = true
  | _ => False

/-- No transaction is under way, and every organization has an owner. -/
structure Start (p : Pool Db Tx) : Prop where
  tasks : p.tasks = []
  organizations : p.shared.organizations.dirty = Table.empty
  memberships : p.shared.memberships.dirty = Table.empty
  owned : Owned p.shared

/-! ## What a transaction holds -/

/-- Nobody hands over to themselves: `opening` has seen to it. -/
def Op.Proper : Op → Prop
  | .transferOwner _ a b => a ≠ b
  | _ => True

/-- The rows a select has locked so far, as it has seen them. -/
structure Selected (db : Db) (i : Nat) (op : Op) (todo : List (Key × Nat))
    (seen : List MembershipRow) : Prop where
  proper : op.Proper
  distinct : (todo.map Prod.fst ++ seen.map MembershipRow.key).Nodup
  ahead : ∀ x ∈ todo, op.selects x.1 = true
  chosen : ∀ m ∈ seen, op.selects m.key = true
  held : ∀ m ∈ seen, ∃ s, db.memberships.dirty.find? m.key = some ⟨i, s⟩ ∧ s.role = some m.role

/-- The organization of the transaction, and its owner. -/
def Founds (db : Db) (i : Nat) : Tx → Prop
  | .insertOwner _ o => db.organizations.Owns i [o]
  | .commitOrganization _ o => db.organizations.Owns i [o]
      ∧ db.memberships.Spare Prod.fst Slot.isOwner i o.id
  | _ => db.organizations.Owns i []

/-- The rows of its select. -/
def Sees (db : Db) (i : Nat) : Tx → Prop
  | .select op => op.Proper
  | .lock op todo seen => Selected db i op todo seen
  | .write op seen => Selected db i op [] seen ∧ op.judge seen = .granted
  | _ => True

/-- What holds of a transaction at each of its statements. -/
structure Fine (db : Db) (i : Nat) (t : Tx) : Prop where
  covers : db.memberships.Covers Prod.fst Slot.isOwner i
  founds : Founds db i t
  sees : Sees db i t

/-- The transaction holds nothing. -/
structure Clean (db : Db) (i : Nat) : Prop where
  organizations : db.organizations.Owns i []
  memberships : db.memberships.Owns i []

/-- The rows of a transaction are as they were. -/
structure Kept (db db' : Db) (i : Nat) : Prop where
  organizations : db.organizations.Kept db'.organizations i
  memberships : db.memberships.Kept db'.memberships i

section Steps

variable {db db' : Db} {i j : Nat} {t t' : Tx} {op : Op}
  {todo : List (Key × Nat)} {seen : List MembershipRow} {k : Key} {c : Choice}

theorem Clean.kept (h : Clean db i) (hk : Kept db db' i) : Clean db' i :=
  ⟨h.organizations.kept hk.organizations, h.memberships.kept hk.memberships⟩

theorem Selected.kept (h : Selected db i op todo seen) (hk : Kept db db' i) :
    Selected db' i op todo seen :=
  { h with
    held := by
      intro m hm
      obtain ⟨s, hs, hrole⟩ := h.held m hm
      exact ⟨s, (hk.memberships.dirty _ s).mpr hs, hrole⟩ }

theorem Founds.kept (h : Founds db i t) (hk : Kept db db' i) : Founds db' i t := by
  cases t with
  | commitOrganization u o =>
    exact ⟨h.1.kept hk.organizations, h.2.kept hk.memberships⟩
  | _ => exact Locked.Owns.kept h hk.organizations

theorem Sees.kept (h : Sees db i t) (hk : Kept db db' i) : Sees db' i t := by
  cases t with
  | select op => exact h
  | lock op todo seen => exact Selected.kept h hk
  | write op seen => exact ⟨h.1.kept hk, h.2⟩
  | _ => exact trivial

theorem Fine.kept (h : Fine db i t) (hk : Kept db db' i) : Fine db' i t :=
  ⟨h.covers.kept hk.memberships, h.founds.kept hk, h.sees.kept hk⟩

/-- A call that holds nothing is fine with any first statement. -/
theorem Clean.covers (h : Clean db i) : db.memberships.Covers Prod.fst Slot.isOwner i :=
  covers_of_owns h.memberships

/-- One statement: the others keep what they hold, and organizations their owners. -/
structure Moved (db db' : Db) (i : Nat) (t' : Tx) : Prop where
  kept : ∀ j, j ≠ i → Kept db db' j
  fine : Fine db' i t'
  owned : Owned db → Owned db'

theorem Moved.trans {db'' : Db} {t'' : Tx} (h : Moved db db' i t')
    (h' : Moved db' db'' i t'') : Moved db db'' i t'' where
  kept := fun j hij =>
    ⟨(h.kept j hij).organizations.trans (h'.kept j hij).organizations,
      (h.kept j hij).memberships.trans (h'.kept j hij).memberships⟩
  fine := h'.fine
  owned := h'.owned ∘ h.owned

/-- A statement that commits nothing. -/
theorem moved_quiet (horganizations : ∀ j, j ≠ i → db.organizations.Kept db'.organizations j)
    (hrows : db'.organizations.rows = db.organizations.rows)
    (hmemberships : ∀ j, j ≠ i → db.memberships.Kept db'.memberships j)
    (hsame : db'.memberships.rows = db.memberships.rows)
    (hfine : Fine db' i t') : Moved db db' i t' where
  kept := fun j hij => ⟨horganizations j hij, hmemberships j hij⟩
  fine := hfine
  owned := by
    intro howned o ho
    rw [hrows] at ho
    rw [hsame]
    exact howned o ho

/-- A statement on neither table. -/
theorem moved_aside (horganizations : db'.organizations = db.organizations)
    (hmemberships : db'.memberships = db.memberships)
    (hfine : Fine db' i t') : Moved db db' i t' := by
  refine moved_quiet (fun j _ => ?_) ?_ (fun j _ => ?_) ?_ hfine
  · rw [horganizations]
    exact .refl _ j
  · rw [horganizations]
  · rw [hmemberships]
    exact .refl _ j
  · rw [hmemberships]

/-- A membership is written or locked. -/
theorem moved_write {r : Slot} (horganizations : db'.organizations = db.organizations)
    (hfree : db.memberships.free i r.key = true)
    (hmemberships : db'.memberships = db.memberships.write i r)
    (hfine : Fine db' i t') : Moved db db' i t' := by
  refine moved_quiet (fun j _ => ?_) ?_ (fun j hij => ?_) ?_ hfine
  · rw [horganizations]
    exact .refl _ j
  · rw [horganizations]
  · rw [hmemberships]
    exact kept_write hfree hij
  · rw [hmemberships]
    rfl

/-- The transaction is rolled back. -/
theorem moved_rollback (result : Except StoreError Answer) :
    Moved db (db.rollback i) i (.done result) :=
  moved_quiet (fun _ hij => kept_rollback hij) rfl (fun _ hij => kept_rollback hij) rfl
    ⟨covers_of_owns owns_rollback, owns_rollback, trivial⟩

/-- The transaction commits: the organization it has founded, if any, has its owner. -/
theorem moved_commit {l : List OrganizationRow} (result : Except StoreError Answer)
    (hcovers : db.memberships.Covers Prod.fst Slot.isOwner i)
    (howns : db.organizations.Owns i l)
    (hspare : ∀ o ∈ l, db.memberships.Spare Prod.fst Slot.isOwner i o.id) :
    Moved db (db.commit i) i (.done result) where
  kept := fun j hij => ⟨kept_commit hij, kept_commit hij⟩
  fine := ⟨covers_of_owns owns_commit, owns_commit, trivial⟩
  owned := by
    intro howned o ho
    have hfind : (db.organizations.commit i).rows.find? o.id = some o :=
      Table.find?_of_mem ho
    rw [find?_commit] at hfind
    by_cases hold : db.organizations.Holds i o.id
    · obtain ⟨o', ho'⟩ := hold
      obtain rfl : o' = o :=
        some.inj ((read_of_holds ho').symm.trans hfind)
      exact (hspare o' ((howns o').mp ho')).manned_commit
    · rw [read_of_not_holds hold] at hfind
      exact hcovers.manned_commit (howned o (Table.mem_of_find? hfind))

/-! ## Inserting -/

variable {u : String} {role : Role} {invite : InviteRow} {now : Int}
  {s : Slot} {n : Nat}

theorem shareUser_eq {db₁ : Db} (h : shareUser db i u = some (some db₁)) :
    db₁.organizations = db.organizations ∧ db₁.memberships = db.memberships := by
  obtain ⟨found, -, h⟩ := map_eq_some_iff.mp h
  split at h
  · cases h
    exact ⟨rfl, rfl⟩
  · cases h

variable {o : String} {x : Key × Nat} {ms : List MembershipRow}

/-- A new membership is where there was none, and nobody else holds the key. -/
theorem insertMembership_eq {db₁ : Db} (h : insertMembership db i o u role = some (some db₁)) :
    db.memberships.free i (o, u) = true
      ∧ (∀ s, db.memberships.read i (o, u) = some s → s.isOwner = false)
      ∧ db₁.organizations = db.organizations
      ∧ ∃ stamp, db₁.memberships = db.memberships.write i ⟨o, u, some role, stamp⟩ := by
  obtain ⟨found, hfound, h⟩ := bind_eq_some_iff.mp h
  obtain ⟨hfree, hread⟩ := await_eq_some hfound
  split at h
  · cases h
  next hnone =>
  obtain ⟨shared, hshared, h⟩ := map_eq_some_iff.mp h
  obtain ⟨db₂, rfl, hput⟩ := bind_eq_some_iff.mp h
  obtain ⟨horganizations, hmemberships⟩ := shareUser_eq hshared
  obtain ⟨-, rfl⟩ := of_guard_not hput
  refine ⟨hfree, ?_, horganizations, db₂.stamp, ?_⟩
  · intro s hs
    rw [← hread, hs] at hnone
    rw [Slot.isOwner, show s.role = none from hnone]
    rfl
  · rw [← hmemberships]

/-- The organization's first membership is its owner's. -/
theorem moved_insertOwner {o : OrganizationRow} (h : Fine db i (.insertOwner u o))
    (hs : taskStep db i (.insertOwner u o) c = some (db', t')) :
    Moved db db' i t' := by
  obtain ⟨result, hresult, hs⟩ := map_eq_some_iff.mp hs
  cases result with
  | none =>
    cases hs
    exact moved_rollback _
  | some db₁ =>
    cases hs
    obtain ⟨hfree, hplain, horganizations, stamp, hmemberships⟩ :=
      insertMembership_eq hresult
    refine moved_write (r := ⟨o.id, u, some .owner, stamp⟩) horganizations
      hfree hmemberships ⟨?_, ⟨?_, ?_⟩, trivial⟩
    · rw [hmemberships]
      exact h.covers.write_plain hplain
    · rw [horganizations]
      exact h.founds
    rw [hmemberships]
    exact ⟨(o.id, u), ⟨o.id, u, some .owner, stamp⟩, rfl, find?_dirty_write_self .., rfl⟩

theorem moved_insertMember (h : Fine db i (.insertMember u invite now))
    (hs : taskStep db i (.insertMember u invite now) c = some (db', t')) :
    Moved db db' i t' := by
  obtain ⟨result, hresult, hs⟩ := map_eq_some_iff.mp hs
  cases result with
  | none =>
    cases hs
    exact moved_rollback _
  | some db₁ =>
    obtain ⟨rfl, rfl⟩ := Prod.mk.inj hs
    obtain ⟨hfree, hplain, horganizations, stamp, hmemberships⟩ :=
      insertMembership_eq hresult
    refine moved_write (r := ⟨invite.organizationId, u, some invite.role, stamp⟩)
      horganizations hfree hmemberships ⟨?_, ?_, trivial⟩
    · rw [hmemberships]
      exact h.covers.write_plain hplain
    show db₁.organizations.Owns i []
    rw [horganizations]
    exact h.founds

theorem moved_insertOrganization {name : String} (h : Fine db i (.insertOrganization u name))
    (hs : taskStep db i (.insertOrganization u name) c = some (db', t')) :
    Moved db db' i t' := by
  obtain ⟨result, hresult, hs⟩ := map_eq_some_iff.mp hs
  cases result with
  | none =>
    cases hs
    exact moved_rollback _
  | some organizations =>
    cases hs
    have howns : organizations.Owns i [⟨c.uuid, name⟩] :=
      Locked.Owns.insert h.founds hresult
    obtain ⟨hfree, -, rfl⟩ := insert_eq_some hresult
    exact moved_quiet (fun j hij => kept_write hfree hij) rfl
      (fun j _ => .refl _ j) rfl ⟨h.covers, howns, trivial⟩

/-! ## Locking -/

/-- Rows of a snapshot have distinct keys. -/
theorem nodup_snapshot (db : Db) (i : Nat) (p : Key → Bool) :
    ((snapshot db i p).map Prod.fst).Nodup := by
  rw [snapshot, List.map_map]
  exact (db.memberships.view i).nodup.sublist (filter_sublist.map _)

theorem selects_snapshot {p : Key → Bool} : ∀ x ∈ snapshot db i p, p x.1 = true := by
  intro x hx
  obtain ⟨s, hs, rfl⟩ := mem_map.mp hx
  obtain ⟨-, hp⟩ := mem_filter.mp hs
  exact (Bool.and_eq_true_iff.mp hp).2

theorem selected_snapshot (db : Db) (i : Nat) (hop : op.Proper) :
    Selected db i op (snapshot db i op.selects) [] where
  proper := hop
  distinct := by
    rw [map_nil, append_nil]
    exact nodup_snapshot db i op.selects
  ahead := selects_snapshot
  chosen := fun _ hm => absurd hm not_mem_nil
  held := fun _ hm => absurd hm not_mem_nil

/-- A row of the snapshot as it is when its lock is granted. -/
theorem grab_eq (h : grab db i x = some (some s)) :
    db.memberships.free i s.key = true ∧ db.memberships.read i s.key = some s ∧ s.key = x.1
      ∧ ∃ role, s.role = some role := by
  obtain ⟨found, hfree, rfl, h⟩ := map_await_eq_some h
  obtain ⟨hread, hlive⟩ := filter_eq_some_iff.mp h
  have hkey : s.key = x.1 := key_of_read hread
  rw [← hkey] at hfree hread
  exact ⟨hfree, hread, hkey, isSome_iff_exists.mp (Bool.and_eq_true_iff.mp hlive).1⟩

/-- The snapshot without the row that was picked. -/
theorem perm_eraseIdx (hx : todo[n]? = some x) : todo.Perm (x :: todo.eraseIdx n) := by
  obtain ⟨hlt, rfl⟩ := List.getElem?_eq_some_iff.mp hx
  exact (getElem_cons_eraseIdx_perm hlt).symm

/-- A row that is gone is passed over. -/
theorem Selected.skip (h : Selected db i op todo seen) : Selected db i op (todo.eraseIdx n) seen :=
  { h with
    distinct := h.distinct.sublist (((eraseIdx_sublist todo n).map Prod.fst).append_right _)
    ahead := fun x hx => h.ahead x ((eraseIdx_sublist todo n).subset hx) }

/-- One more row is locked. -/
theorem Selected.take (h : Selected db i op todo seen) (hx : todo[n]? = some x) (hkey : s.key = x.1)
    (hrole : s.role = some role) :
    Selected { db with memberships := db.memberships.write i s } i op (todo.eraseIdx n)
      (seen ++ [⟨s.organizationId, s.userId, role⟩]) where
  proper := h.proper
  distinct := by
    have hperm : (todo.map Prod.fst ++ seen.map MembershipRow.key).Perm
        ((todo.eraseIdx n).map Prod.fst ++ List.map MembershipRow.key
            (seen ++ [⟨s.organizationId, s.userId, role⟩])) := by
      rw [map_append, ← append_assoc]
      refine List.Perm.trans ?_ (perm_append_singleton _ _).symm
      refine (((perm_eraseIdx hx).map Prod.fst).append_right _).trans ?_
      rw [map_cons, ← hkey]
      exact List.Perm.refl _
    exact hperm.nodup_iff.mp h.distinct
  ahead := h.skip.ahead
  chosen := by
    intro m hm
    rcases mem_append.mp hm with hm | hm
    · exact h.chosen m hm
    rw [mem_singleton.mp hm]
    have hselects := h.ahead x (mem_of_getElem? hx)
    rw [← hkey] at hselects
    exact hselects
  held := by
    intro m hm
    rcases mem_append.mp hm with hm | hm
    · obtain ⟨s', hs', hrole'⟩ := h.held m hm
      refine ⟨s', ?_, hrole'⟩
      rw [find?_dirty_write, if_neg]
      · exact hs'
      intro hsame
      -- this row was in the snapshot still
      obtain ⟨-, -, hapart⟩ := nodup_append.mp h.distinct
      exact hapart x.1 (mem_map_of_mem (mem_of_getElem? hx))
        m.key (mem_map_of_mem hm) (hkey.symm.trans hsame)
    · obtain rfl := mem_singleton.mp hm
      exact ⟨s, find?_dirty_write_self .., hrole⟩

theorem moved_lockNext (h : Fine db i (.lock op todo seen))
    (hs : lockNext db i op todo seen n = some (db', t')) :
    Moved db db' i t' := by
  obtain ⟨x, hx, hs⟩ := bind_eq_some_iff.mp hs
  obtain ⟨found, hfound, hs⟩ := map_eq_some_iff.mp hs
  have hsel : Selected db i op todo seen := h.sees
  cases found with
  | none =>
    cases hs
    exact moved_aside rfl rfl ⟨h.covers, h.founds, hsel.skip⟩
  | some s =>
    cases hs
    obtain ⟨hfree, hread, hkey, role, hrole⟩ := grab_eq hfound
    refine moved_write rfl hfree rfl ⟨h.covers.lock hread, h.founds, ?_⟩
    rw [Slot.row, hrole]
    exact hsel.take hx hkey hrole

/-- The select is complete. -/
theorem moved_settle (h : Fine db i (.lock op [] seen)) :
    Moved db (settle db i op seen).1 i (settle db i op seen).2 := by
  rw [settle]
  split
  · exact moved_rollback _
  · exact moved_rollback _
  · next hgranted =>
    exact moved_aside rfl rfl ⟨h.covers, h.founds, h.sees, hgranted⟩

/-! ## Writing -/

/-- A row that is held gets another role, or goes. -/
theorem update_held {role : Option Role} (hs : db.memberships.dirty.find? k = some ⟨i, s⟩)
    (hlive : s.role.isSome = true) :
    update db i k role = some { db with
      memberships := db.memberships.write i { s with role := role } } := by
  have hfree : db.memberships.free i k = true := Locked.Holds.free ⟨s, hs⟩
  rw [update, await, if_pos hfree, read_of_holds hs, map_some]
  simp only [hlive, if_true]

/-- A row that is held may be written over unless it is an owner's and goes without another one. -/
theorem covers_held {role : Option Role} (h : db.memberships.Covers Prod.fst Slot.isOwner i)
    (hs : db.memberships.dirty.find? k = some ⟨i, s⟩)
    (hspare : s.isOwner = true → role = some .owner
      ∨ ∃ k' s', k' ≠ k ∧ k'.1 = k.1 ∧ s'.isOwner = true
        ∧ db.memberships.dirty.find? k' = some ⟨i, s'⟩) :
    (db.memberships.write i { s with role := role }).Covers Prod.fst Slot.isOwner i := by
  have hread := read_of_holds hs
  have hkey : s.key = k := key_of_read hread
  cases howner : s.isOwner with
  | false =>
    refine h.write_plain fun s' hs' => ?_
    rw [show Slot.key { s with role := role } = k from hkey] at hs'
    rw [← some.inj (hread.symm.trans hs')]
    exact howner
  | true =>
    rcases hspare howner with rfl | ⟨k', s', hne, hgroup, hs', hheld⟩
    · exact h.write_marked rfl
    · subst hkey
      exact h.write_spare hne hgroup hheld hs'

theorem moved_held {role : Option Role}
    (hs : db.memberships.dirty.find? k = some ⟨i, s⟩) (hdb : db' = { db with
      memberships := db.memberships.write i { s with role := role } })
    (hfine : Fine db' i t') : Moved db db' i t' := by
  subst hdb
  refine moved_write (r := { s with role := role }) rfl ?_ rfl hfine
  have hkey : s.key = k := key_of_read (read_of_holds hs)
  exact Locked.Holds.free ⟨s, hkey ▸ hs⟩

/-- With two owners there is another one. -/
theorem another_owner {m : MembershipRow} (hkeys : (ms.map MembershipRow.key).Nodup) (hm : m ∈ ms)
    (hrole : m.role = .owner) (hmany : owners ms ≠ 1) :
    ∃ m' ∈ ms, m'.role = .owner ∧ m'.key ≠ m.key := by
  by_contra hnone
  apply hmany
  rw [owners, countP_eq_length_filter]
  have hmem : m ∈ ms.filter fun m => decide (m.role = .owner) :=
    mem_filter.mpr ⟨hm, decide_eq_true hrole⟩
  have hsub := hkeys.sublist ((filter_sublist (p := fun m => decide (m.role = .owner))).map
      MembershipRow.key)
  -- every owner has the key of this one
  have hsame : ∀ k ∈ (ms.filter fun m => decide (m.role = .owner)).map
      MembershipRow.key, k = m.key := by
    intro k hk
    obtain ⟨m', hm', rfl⟩ := mem_map.mp hk
    obtain ⟨hmem', hrole'⟩ := mem_filter.mp hm'
    by_contra hne
    exact hnone ⟨m', hmem', of_decide_eq_true hrole', hne⟩
  rw [eq_replicate_of_mem hsame, nodup_replicate, length_map] at hsub
  exact le_antisymm hsub (length_pos_of_mem hmem)

/-- What a check on the last owner lets through. -/
theorem judge_granted {message : String} {after : Option Role}
    (h : Members.judge ms u after message = .granted) :
    ∃ m ∈ ms, m.userId = u ∧ (m.role = .owner → after = some .owner ∨ owners ms ≠ 1) := by
  rw [Members.judge] at h
  split at h
  · cases h
  next m hm =>
  refine ⟨m, mem_of_find?_eq_some hm, of_decide_eq_true (find?_some hm :), ?_⟩
  split at h
  · cases h
  next hlast =>
  intro hrole
  by_contra hneither
  rw [not_or, not_not] at hneither
  exact hlast ⟨hrole, hneither⟩

/-- `set_member_role` and `remove_member` write the row they have checked. -/
theorem moved_change {message : String} {role : Option Role}
    (h : Fine db i (.write op seen)) (hsel : Selected db i op [] seen)
    (hop : ∀ k, op.selects k = decide (k.1 = o))
    (hgranted : Members.judge seen u role message = .granted)
    (hs : (update db i (o, u) role).map
      (fun db => (db, Tx.commit (.found true))) = some (db', t')) :
    Moved db db' i t' := by
  obtain ⟨m, hm, hu, hlast⟩ := judge_granted hgranted
  have hchosen : ∀ m ∈ seen, m.key.1 = o := by
    intro m hm
    have hkey := hsel.chosen m hm
    rw [hop] at hkey
    exact of_decide_eq_true hkey
  obtain ⟨s, hheld, hrole⟩ := hsel.held m hm
  have hkey : m.key = (o, u) := Prod.ext (hchosen m hm) hu
  rw [← hkey, update_held hheld (hrole ▸ rfl)] at hs
  cases hs
  refine moved_held hheld rfl ⟨covers_held h.covers hheld ?_, h.founds, trivial⟩
  intro howner
  have hmrole : m.role = .owner :=
    some.inj (hrole.symm.trans (of_decide_eq_true howner))
  refine (hlast hmrole).imp_right fun hmany => ?_
  obtain ⟨m', hm', hrole', hne⟩ :=
    another_owner hsel.distinct hm hmrole hmany
  obtain ⟨s', hheld', hs'⟩ := hsel.held m' hm'
  exact ⟨m'.key, s', hne, (hchosen m' hm').trans (hchosen m hm).symm,
    decide_eq_true (hs'.trans (congrArg some hrole')), hheld'⟩

/-- What `transfer_owner` has found. -/
theorem judgeTransfer_granted {a b : String} (h : judgeTransfer ms a b = .granted) :
    (∃ m ∈ ms, m.userId = a) ∧ ∃ m ∈ ms, m.userId = b := by
  rw [judgeTransfer] at h
  split at h
  · cases h
  next hfrom =>
  split at h
  · cases h
  next hto =>
  rw [Bool.not_eq_false, List.any_eq_true] at hfrom hto
  obtain ⟨m, hm, hp⟩ := hfrom
  obtain ⟨m', hm', hp'⟩ := hto
  exact ⟨⟨m, hm, of_decide_eq_true (Bool.and_eq_true_iff.mp hp).1⟩, m', hm', of_decide_eq_true hp'⟩

/-- `transfer_owner` makes the new owner before it takes the old one's role. -/
theorem moved_transfer {a b : String} (h : Fine db i (.write (.transferOwner o a b) seen))
    (hs : writeOp db i (.transferOwner o a b) = some (db', t')) :
    Moved db db' i t' := by
  obtain ⟨hsel, hgranted⟩ := h.sees
  obtain ⟨⟨m, hm, ha⟩, m', hm', hb⟩ := judgeTransfer_granted hgranted
  have hmkey : m.key = (o, a) :=
    Prod.ext (of_decide_eq_true (hsel.chosen m hm)) ha
  have hmkey' : m'.key = (o, b) :=
    Prod.ext (of_decide_eq_true (hsel.chosen m' hm')) hb
  obtain ⟨s, hheld, hrole⟩ := hsel.held m hm
  obtain ⟨s', hheld', hrole'⟩ := hsel.held m' hm'
  have hsame : s'.key = (o, b) :=
    (key_of_read (read_of_holds hheld')).trans hmkey'
  have hne : (o, b) ≠ (o, a) :=
    fun heq => hsel.proper (congrArg Prod.snd heq).symm
  obtain ⟨db₁, hfirst, hs⟩ := bind_eq_some_iff.mp hs
  rw [← hmkey', update_held hheld' (hrole' ▸ rfl)] at hfirst
  cases hfirst
  have hmoved : Moved db { db with
      memberships := db.memberships.write i { s' with role := some .owner } }
      i (.commit .unit) :=
    moved_held hheld' rfl ⟨covers_held h.covers hheld' fun _ => .inl rfl, h.founds, trivial⟩
  have hstill : (db.memberships.write i
      { s' with role := some .owner }).dirty.find? m.key = some ⟨i, s⟩ := by
    rw [find?_dirty_write, if_neg]
    · exact hheld
    · rw [hmkey]
      exact fun heq => hne (hsame.symm.trans heq)
  rw [← hmkey, update_held hstill (hrole ▸ rfl)] at hs
  cases hs
  refine hmoved.trans (moved_held hstill rfl
    ⟨covers_held hmoved.fine.covers hstill fun _ => .inr ?_, h.founds, trivial⟩)
  refine ⟨(o, b), { s' with role := some .owner }, ?_, ?_, rfl, ?_⟩
  · rw [hmkey]
    exact hne
  · rw [hmkey]
  rw [← hsame]
  exact find?_dirty_write_self db.memberships i
    { s' with role := some .owner }

/-- `DELETE FROM users` marks the user, and leaves the memberships to the cascade. -/
theorem moved_deleteUser (h : Fine db i (.write op seen))
    (hs : deleteUser db i u = some (db', t')) : Moved db db' i t' := by
  rw [deleteUser] at hs
  split at hs
  · cases hs
  obtain ⟨found, -, hs⟩ := map_eq_some_iff.mp hs
  split at hs
  · cases hs
    exact moved_aside rfl rfl ⟨h.covers, h.founds, trivial⟩
  · cases hs
    exact moved_rollback _

theorem moved_writeOp (h : Fine db i (.write op seen))
    (hs : writeOp db i op = some (db', t')) : Moved db db' i t' := by
  cases op with
  | setMemberRole o u role | removeMember o u =>
    exact moved_change h h.sees.1 (fun _ => rfl) h.sees.2 hs
  | transferOwner o a b => exact moved_transfer h hs
  | deleteUser u => exact moved_deleteUser h hs

/-- The cascade comes to a row that is no owner's. -/
theorem moved_cascadeNext (h : Fine db i (.cascade u todo))
    (hplain : ∀ x s, todo[n]? = some x → grab db i x = some (some s) →
      s.isOwner = false) (hs : cascadeNext db i u todo n = some (db', t')) :
    Moved db db' i t' := by
  obtain ⟨x, hx, hs⟩ := bind_eq_some_iff.mp hs
  obtain ⟨found, hfound, hs⟩ := map_eq_some_iff.mp hs
  cases found with
  | none =>
    cases hs
    exact moved_aside rfl rfl ⟨h.covers, h.founds, trivial⟩
  | some s =>
    cases hs
    obtain ⟨hfree, hread, -⟩ := grab_eq hfound
    refine moved_write (r := { s with role := none }) rfl hfree rfl
      ⟨h.covers.write_plain ?_, h.founds, trivial⟩
    intro s' hs'
    rw [← some.inj (hread.symm.trans hs')]
    exact hplain x s hx hfound

/-! ## Accepting an invitation -/

theorem moved_lockInvite {codeHash : String} (h : Fine db i (.lockInvite codeHash u now))
    (hs : lockInvite db i codeHash u now = some (db', t')) :
    Moved db db' i t' := by
  obtain ⟨found, -, hs⟩ := map_eq_some_iff.mp hs
  split at hs
  · cases hs
    exact moved_rollback _
  split at hs
  · cases hs
    exact moved_rollback _
  · cases hs
    exact moved_aside rfl rfl ⟨h.covers, h.founds, trivial⟩

theorem moved_readMembership (h : Fine db i (.readMembership u invite now)) :
    Moved db (readMembership db i u invite now).1 i (readMembership db i u invite now).2 := by
  rw [readMembership]
  split
  all_goals exact moved_aside rfl rfl ⟨h.covers, h.founds, trivial⟩

theorem moved_markInvite (h : Fine db i (.markInvite u invite role now))
    (hs : markInvite db i u invite role now = some (db', t')) :
    Moved db db' i t' := by
  obtain ⟨shared, hshared, hs⟩ := map_eq_some_iff.mp hs
  cases shared with
  | none =>
    cases hs
    exact moved_rollback _
  | some db₁ =>
    cases hs
    obtain ⟨horganizations, hmemberships⟩ := shareUser_eq hshared
    refine moved_aside horganizations hmemberships ⟨?_, ?_, trivial⟩
    · rw [hmemberships]
      exact h.covers
    rw [horganizations]
    exact h.founds

theorem moved_readName (h : Fine db i (.readName u invite role))
    (hs : taskStep db i (.readName u invite role) c = some (db', t')) :
    Moved db db' i t' := by
  rw [taskStep] at hs
  split at hs
  · cases hs
    exact moved_rollback _
  · cases hs
    exact moved_aside rfl rfl ⟨h.covers, h.founds, trivial⟩

/-! ## Runs -/

/-- **ONE STATEMENT**: it leaves the others what they hold, and every
    organization an owner, unless it is a cascade that meets an owner. -/
theorem moved_taskStep (h : Fine db i t)
    (hplain : ∀ u todo x s, t = .cascade u todo → todo[c.pick]? = some x →
      grab db i x = some (some s) → s.isOwner = false)
    (hs : taskStep db i t c = some (db', t')) : Moved db db' i t' := by
  cases t with
  | insertOrganization u name => exact moved_insertOrganization h hs
  | insertOwner u o => exact moved_insertOwner h hs
  | commitOrganization u o =>
    cases hs
    refine moved_commit _ h.covers h.founds.1 ?_
    intro o' ho'
    rw [mem_singleton.mp ho']
    exact h.founds.2
  | lockInvite codeHash u now => exact moved_lockInvite h hs
  | readMembership u invite now =>
    obtain ⟨rfl, rfl⟩ := Prod.mk.inj (some.inj hs)
    exact moved_readMembership h
  | insertMember u invite now => exact moved_insertMember h hs
  | markInvite u invite role now => exact moved_markInvite h hs
  | readName u invite role => exact moved_readName h hs
  | select op =>
    cases hs
    exact moved_aside rfl rfl ⟨h.covers, h.founds, selected_snapshot db i h.sees⟩
  | lock op todo seen =>
    cases todo with
    | nil =>
      obtain ⟨rfl, rfl⟩ := Prod.mk.inj (some.inj hs)
      exact moved_settle h
    | cons x todo => exact moved_lockNext h hs
  | write op seen => exact moved_writeOp h hs
  | cascade u todo =>
    cases todo with
    | nil =>
      cases hs
      exact moved_aside rfl rfl ⟨h.covers, h.founds, trivial⟩
    | cons x todo =>
      exact moved_cascadeNext h (fun y s hy hg => hplain u _ y s rfl hy hg) hs
  | commit answer =>
    cases hs
    exact moved_commit _ h.covers h.founds fun o ho =>
      absurd ho not_mem_nil
  | done result => cases hs

theorem moved_lose (hs : lose db i t = some (db', t')) : Moved db db' i t' := by
  cases t with
  | done result => cases hs
  | _ =>
    cases hs
    exact moved_rollback _

end Steps

/-- What every run keeps. -/
structure Inv (p : Pool Db Tx) : Prop where
  tasks : ∀ i t, p.tasks[i]? = some t → Fine p.shared i t
  idle : ∀ i, p.tasks[i]? = none → Clean p.shared i
  owned : Owned p.shared

section Runs

variable {p p' : Pool Db Tx} {i : Nat} {t t' : Tx} {db' : Db} {a : Act}

theorem Inv.spawn (h : Inv p) (hfounds : ∀ db i, Clean db i → Founds db i t)
    (hsees : ∀ db i, Sees db i t) : Inv (p.spawn t) where
  tasks := forall_numbered_spawn h.tasks (have hclean := h.idle _ (getElem?_eq_none_iff.mpr le_rfl)
    ⟨hclean.covers, hfounds _ _ hclean, hsees _ _⟩)
  idle := forall_idle_spawn h.idle
  owned := h.owned

theorem Inv.moved (h : Inv p) (ht : p.tasks[i]? = some t)
    (hm : Moved p.shared db' i t') : Inv ⟨db', p.tasks.set i t'⟩ where
  tasks := forall_numbered_set h.tasks (fun j _ hij hfine => hfine.kept (hm.kept j hij)) hm.fine
  idle := forall_idle_set ht h.idle fun j hij hclean => hclean.kept (hm.kept j hij)
  owned := hm.owned h.owned

theorem inv_step (h : Inv p) (hplain : ¬ CascadesOwner p a) (hs : step p a = some p') : Inv p' := by
  cases a with
  | createOrganizationForUser u name =>
    cases hs
    exact h.spawn (fun _ _ hclean => hclean.organizations) fun _ _ => trivial
  | acceptOrganizationInvite codeHash u now =>
    cases hs
    exact h.spawn (fun _ _ hclean => hclean.organizations) fun _ _ => trivial
  | call op =>
    cases hs
    cases op with
    | transferOwner o a b =>
      rw [opening]
      split
      · exact h.spawn (fun _ _ hclean => hclean.organizations) fun _ _ => trivial
      · next hne =>
        exact h.spawn (fun _ _ hclean => hclean.organizations) fun _ _ => hne
    | setMemberRole o u role | removeMember o u | deleteUser u =>
      exact h.spawn (fun _ _ hclean => hclean.organizations) fun _ _ => trivial
  | next i c =>
    rw [step] at hs
    obtain ⟨t, db', t', ht, hcall, rfl⟩ := Pool.advance_eq_some hs
    refine h.moved ht (moved_taskStep (h.tasks i t ht) ?_ hcall)
    rintro u todo x s rfl hx hgrab
    exact Bool.eq_false_iff.mpr fun howner =>
      hplain ⟨u, todo, x, s, ht, hx, hgrab, howner⟩
  | lose i =>
    rw [step] at hs
    obtain ⟨t, db', t', ht, hlose, rfl⟩ := Pool.advance_eq_some hs
    exact h.moved ht (moved_lose hlose)

theorem Start.inv (h : Start p) : Inv p where
  tasks := by
    intro i t ht
    rw [h.tasks] at ht
    cases ht
  idle := fun _ _ => ⟨owns_of_clean h.organizations, owns_of_clean h.memberships⟩
  owned := h.owned

/-- **EVERY ORGANIZATION HAS AN OWNER** in every state of every run in which no
    cascade of a user's deletion comes to an owner's membership. -/
theorem owned_of_no_owner_cascades (h₀ : Start p) (acts : List Act)
    (hplain : Admitted step (fun p a => ¬ CascadesOwner p a) p acts) :
    Along step (fun p => Owned p.shared) p acts :=
  Along.mono (fun _ h => h.owned) acts p
    (inv_along_admitted (fun _ _ _ => inv_step) acts p h₀.inv hplain)

end Runs

/-! An organization with an owner and a guest. -/

def sampleDb : Db where
  organizations := .committed (Table.empty.put ⟨"org", "Organization"⟩)
  users := .committed ((Table.empty.put ⟨"owner", false⟩).put ⟨"guest", false⟩)
  memberships := .committed ((Table.empty.put
    ⟨"org", "owner", some .owner, 0⟩).put ⟨"org", "guest", some .member, 1⟩)
  invites := .committed Table.empty
  shares := []
  stamp := 2

def sampleWorld : Pool Db Tx := ⟨sampleDb, []⟩

theorem sampleWorld_start : Start sampleWorld where
  tasks := rfl
  organizations := rfl
  memberships := rfl
  owned := by
    intro o ho
    rw [mem_singleton.mp ho]
    exact ⟨("org", "owner"), ⟨"org", "owner", some .owner, 0⟩, rfl, rfl, rfl⟩

/-- A cascade that comes to no owner's membership, as a test. -/
def sparesOwner (p : Pool Db Tx) : Act → Bool
  | .next i c => match p.tasks[i]? with
      | some (.cascade _ todo) => match (todo[c.pick]?).bind (grab p.shared i) with
        | some (some s) => !s.isOwner
        | _ => true
      | _ => true
  | _ => true

theorem not_cascadesOwner_of_spares (p : Pool Db Tx) (a : Act)
    (h : sparesOwner p a = true) : ¬ CascadesOwner p a := by
  cases a with
  | next i c =>
    rintro ⟨u, todo, x, s, ht, hx, hgrab, howner⟩
    simp only [sparesOwner, ht, hx, bind_some, hgrab, howner] at h
    cases h
  | _ => exact id

/-- Statements of one call. -/
def nexts (i n : Nat) : List Act := List.replicate n (.next i {})

/-- The guest's account is deleted. -/
theorem guestDeleted_owned : Along step (fun p => Owned p.shared) sampleWorld
      (.call (.deleteUser "guest") :: nexts 0 7) :=
  owned_of_no_owner_cascades sampleWorld_start _
    (admitted_of_admits sparesOwner not_cascadesOwner_of_spares _ _ (by decide +kernel))

/-- The deletion has looked at the guest's memberships; then the guest founds an organization. -/
def foundedMeanwhile : List Act :=
  .call (.deleteUser "guest") :: nexts 0 3
    ++ .createOrganizationForUser "guest" "New" :: .next 1 { uuid := "new" }
      :: nexts 1 2 ++ nexts 0 5

/-- The cascade takes the new organization its owner. -/
theorem deleted_with_organization : Start sampleWorld
      ∧ ∃ p, run step sampleWorld foundedMeanwhile = some p ∧ ¬ Owned p.shared := by
  have hplay : ∃ p, run step sampleWorld foundedMeanwhile = some p
      ∧ (⟨"new", "New"⟩ : OrganizationRow) ∈ p.shared.organizations.rows.rows
      ∧ p.shared.memberships.rows.rows.all (fun s =>
        decide (s.organizationId ≠ "new") || !s.isOwner) = true :=
    ⟨_, rfl, by decide +kernel, by decide +kernel⟩
  obtain ⟨p, hrun, hmem, hall⟩ := hplay
  refine ⟨sampleWorld_start, p, hrun, fun howned => ?_⟩
  obtain ⟨k, s, hgroup, hs, howner⟩ := howned _ hmem
  have hkey : s.key = k := Table.key_of_find? hs
  have hplain := all_eq_true.mp hall s (Table.mem_of_find? hs)
  rw [howner, Bool.not_true, Bool.or_false, decide_eq_true_eq] at hplain
  exact hplain ((congrArg Prod.fst hkey).trans hgroup)

end Owners
