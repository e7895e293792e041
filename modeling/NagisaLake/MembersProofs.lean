import NagisaLake.LoginProofs

/-! # Members — who may change an owner

`change_member_role`, `remove_member` and `transfer_organization_owner` let
an owner act on anybody and an administrator on everybody but owners.  The
role of the principal is read when the request is authorized, the role of
the target with a store call of its own, and the change is made with
another one, which protects the last owner and no other.

A member who becomes an owner between the two calls is changed by the
administrator all the same (`promoted_then_removed`).  While no request
makes an owner of a member whose role another request has read, only owners
act on owners (`ownersOnly_of_apart`). -/

namespace Members

open KeyedTable Runs Pools Table Option
open HubStore (StoreError Key)
open Uploads (HubError mapStoreError)
open Logins (Role Actor BrowserSession trim)

/-! ## The store -/

/-- A row of `memberships`. -/
structure MembershipRow where
  organizationId : String
  userId : String
  role : Role
  deriving DecidableEq, Repr

def MembershipRow.key (m : MembershipRow) : Key := (m.organizationId, m.userId)

def MembershipRow.enter (role : Role) (m : MembershipRow) : MembershipRow :=
  { m with role := role }

theorem MembershipRow.enter_key (role : Role) (m : MembershipRow) :
    (m.enter role).key = m.key := rfl

/-- A row of `worker_credentials`, as far as a removal reads it. -/
structure CredentialRow where
  id : String
  organizationId : String
  ownerUserId : Option String
  revokedAt : Option Int
  deriving DecidableEq, Repr

/-- The tables. -/
structure Tables where
  memberships : Table Key MembershipRow MembershipRow.key
  credentials : Table String CredentialRow CredentialRow.id

/-- What a transaction makes of the memberships it has locked. -/
inductive Verdict where
  /-- the member is none of them -/
  | absent
  | refused (e : StoreError)
  | granted
  deriving DecidableEq, Repr

/-- How many of the rows are owners. -/
def owners (ms : List MembershipRow) : Nat :=
  ms.countP fun m => decide (m.role = .owner)

/-- A member gets another role, or goes; the last owner may do neither. -/
def judge (ms : List MembershipRow) (userId : String) (after : Option Role)
    (message : String) : Verdict :=
  match ms.find? fun m => m.userId = userId with
  | none => .absent
  | some m =>
    if m.role = .owner ∧ after ≠ some .owner ∧ owners ms = 1 then
      .refused (.conflict message)
    else .granted

/-- The check of `set_member_role`. -/
def judgeRole (ms : List MembershipRow) (userId : String) (role : Role) :
    Verdict :=
  judge ms userId (some role) "the last organization owner cannot be demoted"

/-- The check of `remove_member`. -/
def judgeRemoval (ms : List MembershipRow) (userId : String) : Verdict :=
  judge ms userId none "the last organization owner cannot be removed"

/-- The check of `transfer_owner`. -/
def judgeTransfer (ms : List MembershipRow) (fromUserId toUserId : String) :
    Verdict :=
  if ms.any (fun m => decide (m.userId = fromUserId)
      && decide (m.role = .owner)) = false then
    .refused (.conflict "owner transfer initiator is not an owner")
  else if ms.any (fun m => decide (m.userId = toUserId)) = false then
    .refused (.notFound "owner transfer target")
  else .granted

/-- The memberships of an organization. -/
def Tables.members (t : Tables) (organizationId : String) : List MembershipRow :=
  t.memberships.rows.filter fun m => decide (m.organizationId = organizationId)

/-- `set_member_role`. -/
def setMemberRole (t : Tables) (organizationId userId : String) (role : Role) :
    Except StoreError (Tables × Bool) :=
  match judgeRole (t.members organizationId) userId role with
  | .absent => .ok (t, false)
  | .refused e => .error e
  | .granted => .ok ({ t with
      memberships := t.memberships.update
        (fun m => m.key = (organizationId, userId)) (MembershipRow.enter role)
        (MembershipRow.enter_key role) }, true)

/-- The member's worker credentials. -/
def CredentialRow.belongs (organizationId userId : String) (c : CredentialRow) : Bool :=
  decide (c.organizationId = organizationId) && decide (c.ownerUserId = some userId)

/-- `SET revoked_at=COALESCE(revoked_at,$1)`. -/
def CredentialRow.revoke (now : Int) (c : CredentialRow) : CredentialRow :=
  { c with revokedAt := c.revokedAt <|> some now }

/-- `remove_member`, with the ids of the credentials that go. -/
def removeMember (t : Tables) (organizationId userId : String) (now : Int) :
    Except StoreError (Tables × Option (List String)) :=
  match judgeRemoval (t.members organizationId) userId with
  | .absent => .ok (t, none)
  | .refused e => .error e
  | .granted => .ok ({
      memberships := t.memberships.delete fun m => m.key = (organizationId, userId)
      credentials := t.credentials.update (CredentialRow.belongs organizationId userId)
        (CredentialRow.revoke now) (fun _ => rfl) },
      some ((t.credentials.rows.filter
        (CredentialRow.belongs organizationId userId)).map CredentialRow.id))

/-- `CASE WHEN user_id=$1 THEN 'owner' ELSE 'admin' END`. -/
def MembershipRow.handOver (toUserId : String) (m : MembershipRow) :
    MembershipRow :=
  m.enter (if m.userId = toUserId then .owner else .admin)

theorem MembershipRow.handOver_key (toUserId : String) (m : MembershipRow) :
    (m.handOver toUserId).key = m.key := rfl

/-- `transfer_owner`. -/
def transferOwner (t : Tables) (organizationId fromUserId toUserId : String) :
    Except StoreError Tables :=
  if fromUserId = toUserId then
    .error (.conflict "owner transfer target must be another member")
  else match judgeTransfer (t.members organizationId) fromUserId toUserId with
    | .absent => .ok t
    | .refused e => .error e
    | .granted => .ok { t with
        memberships := t.memberships.update (fun m => decide (m.organizationId = organizationId)
            && (decide (m.userId = toUserId)
              || decide (m.userId = fromUserId)))
          (MembershipRow.handOver toUserId)
          (MembershipRow.handOver_key toUserId) }

/-! ## Authorization -/

/-- An API key. -/
structure ApiKey where
  id : String
  organizationId : String
  creatorUserId : String
  scopes : List String
  expiresAt : Option Int
  revokedAt : Option Int
  deriving DecidableEq, Repr

/-- What the bearer token of a request stands for. -/
inductive Bearer where
  | session (s : BrowserSession)
  | apiKey (k : ApiKey)
  deriving DecidableEq, Repr

/-- `membership`, as the handlers read it. -/
def Tables.role (t : Tables) (k : Key) : Option Role :=
  (t.memberships.find? k).map MembershipRow.role

/-- `authenticate`, for an organization named by the path. -/
def authenticate (t : Tables) (now : Int) (organizationId : String) : Bearer → Except HubError Actor
  | .session s => Logins.authenticate
      ⟨s, some organizationId, t.role (organizationId, s.userId), now⟩
  | .apiKey k =>
    if k.revokedAt.isSome ∨ k.expiresAt.any (fun e => decide (e ≤ now)) then
      .error (.unauthorized "API key is expired or revoked")
    else if organizationId ≠ k.organizationId then
      .error (.notFound "organization resource")
    else match t.role (k.organizationId, k.creatorUserId) with
      | none => .error (.unauthorized "API key creator is no longer a member")
      | some role => .ok {
          kind := .apiKey
          actorId := k.id
          userId := some k.creatorUserId
          organizationId := k.organizationId
          role := role
          scopes := k.scopes }

/-- `Principal::allows(Permission::MembersManage)`. -/
def managesMembers (actor : Actor) : Bool :=
  decide (Role.admin.rank ≤ actor.role.rank) && (decide (actor.kind ≠ .apiKey)
      || decide ("members:manage" ∈ actor.scopes))

/-- `authorize`, for this permission. -/
def authorize (t : Tables) (now : Int) (organizationId : String)
    (bearer : Bearer) : Except HubError Actor :=
  (authenticate t now organizationId bearer).bind fun actor =>
  if managesMembers actor then .ok actor
  else .error (.forbidden "missing permission members:manage")

/-! ## The handlers -/

/-- A request, by handler. -/
inductive Request where
  | changeMemberRole (organizationId userId : String) (role : Role)
  | removeMember (organizationId userId : String)
  | transferOrganizationOwner (organizationId userId : String)
  deriving DecidableEq, Repr

/-- The membership it is about. -/
def Request.target : Request → Key
  | .changeMemberRole o u _ | .removeMember o u => (o, u)
  | .transferOrganizationOwner o u => (o, trim u)

/-- It makes its target an owner. -/
def Request.raises : Request → Bool
  | .changeMemberRole _ _ role => decide (role = .owner)
  | .removeMember _ _ => false
  | .transferOrganizationOwner _ _ => true

/-- The handler up to the first store call of its own. -/
def accept (t : Tables) (now : Int) (bearer : Bearer) : Request → Except HubError Actor
  | .changeMemberRole o _ role => (authorize t now o bearer).bind fun actor =>
    if role = .owner ∧ actor.role ≠ .owner then
      .error (.forbidden "only an owner can grant owner role")
    else .ok actor
  | .removeMember o u => (authorize t now o bearer).bind fun actor =>
    if actor.userId = some u then .error
      (.conflict "use owner transfer before removing your own membership")
    else .ok actor
  | .transferOrganizationOwner o _ =>
    (authenticate t now o bearer).bind fun actor =>
    -- `require_browser`
    if actor.kind ≠ .browserSession then
      .error (.forbidden "browser session is required")
    else if actor.role ≠ .owner then
      .error (.forbidden "only an owner can transfer ownership")
    else .ok actor

/-- What an administrator is told about an owner. -/
def Request.reserved : Request → String
  | .changeMemberRole _ _ _ => "only an owner can change another owner's role"
  | .removeMember _ _ => "only an owner can remove another owner"
  | .transferOrganizationOwner _ _ => "only an owner can transfer ownership"

/-- The handler's change, with the credentials to disconnect. -/
def change (t : Tables) (now : Int) (actor : Actor) :
    Request → Except HubError (Tables × List String)
  | .changeMemberRole o u role =>
    match setMemberRole t o u role with
    | .ok (t', true) => .ok (t', [])
    | .ok (_, false) => .error (.notFound "member")
    | .error e => .error (mapStoreError e)
  | .removeMember o u =>
    match removeMember t o u now with
    | .ok (t', some ids) => .ok (t', ids)
    | .ok (_, none) => .error (.notFound "member")
    | .error e => .error (mapStoreError e)
  | .transferOrganizationOwner o u =>
    match transferOwner t o (actor.userId.getD "") (trim u) with
    | .ok t' => .ok (t', [])
    | .error e => .error (mapStoreError e)

/-- A change that was made: the role its request was authorized with, and the
    tables before and after. -/
structure Change where
  role : Role
  before : Tables
  after : Tables

/-- The tables and the changes made so far (a history variable). -/
structure Db where
  tables : Tables
  changes : List Change

/-- The store call a handler stands at. -/
inductive Task where
  | authorize (q : Request) (bearer : Bearer)
  | read (q : Request) (actor : Actor)
  | write (q : Request) (actor : Actor)
  | done (q : Request) (answer : Except HubError (List String))

/-- Only the transfer does not look at its target. -/
def afterAccept (q : Request) (actor : Actor) : Task :=
  match q with
  | .transferOrganizationOwner _ _ => .write q actor
  | _ => .read q actor

/-- One store call, at this time. -/
def taskStep (db : Db) : Task → Int → Option (Db × Task)
  | .authorize q bearer, now => some (db,
      match accept db.tables now bearer q with
      | .error e => .done q (.error e)
      | .ok actor => afterAccept q actor)
  | .read q actor, _ => some (db,
      match db.tables.role q.target with
      | none => .done q (.error (.notFound "member"))
      | some role =>
        if role = .owner ∧ actor.role ≠ .owner then
          .done q (.error (.forbidden q.reserved))
        else .write q actor)
  | .write q actor, now =>
    match change db.tables now actor q with
    | .error e => some (db, .done q (.error e))
    | .ok (t, ids) => some ( ⟨t, ⟨actor.role, db.tables, t⟩ :: db.changes⟩, .done q (.ok ids))
  | .done .., _ => none

/-- A store call fails. -/
def fail (db : Db) : Task → String → Option (Db × Task)
  | .authorize q _, m | .read q _, m | .write q _, m =>
    some (db, .done q (.error (.store (.database m))))
  | .done .., _ => none

/-- The tables and the handlers in progress. -/
abbrev World := Pool Db Task

/-- What can happen. -/
inductive Act where
  | request (q : Request) (bearer : Bearer)
  | next (i : Nat) (now : Int)
  | fail (i : Nat) (message : String)

/-- One action. -/
def step (p : World) : Act → Option World
  | .request q bearer => some (p.spawn (.authorize q bearer))
  | .next i now => p.advance taskStep i now
  | .fail i message => p.advance fail i message

/-! ## What is claimed -/

/-- The member is an owner. -/
def OwnerAt (t : Tables) (k : Key) : Prop := t.role k = some .owner

/-- No owner is changed or removed, and none is made. -/
structure Spares (t t' : Tables) : Prop where
  kept : ∀ k, OwnerAt t k → t'.memberships.find? k = t.memberships.find? k
  none_made : ∀ k, OwnerAt t' k → OwnerAt t k

/-- Requests authorized below an owner's role spare the owners. -/
def OwnersOnly (db : Db) : Prop :=
  ∀ c ∈ db.changes, c.role ≠ .owner → Spares c.before c.after

/-- A request makes an owner of a member whose role another request, authorized
    below an owner's, has read and not acted on yet. -/
def Crosses (p : World) : Act → Prop
  | .next i _ => ∃ q actor, p.tasks[i]? = some (.write q actor) ∧ q.raises = true
      ∧ ∃ q' actor', .write q' actor' ∈ p.tasks ∧ actor'.role ≠ .owner ∧ q'.target = q.target
  | _ => False

/-- No handler is in progress and nothing was changed yet. -/
structure Start (p : World) : Prop where
  tasks : p.tasks = []
  changes : p.shared.changes = []

/-! ## What the store calls change -/

variable {t t' : Tables} {now : Int} {actor : Actor} {q : Request} {k : Key}

theorem ownerAt_congr (h : t'.memberships.find? k = t.memberships.find? k) :
    OwnerAt t' k ↔ OwnerAt t k := by
  rw [OwnerAt, OwnerAt, Tables.role, Tables.role, h]

/-- A row whose key is another one is not updated. -/
theorem find?_update_other {p : MembershipRow → Bool}
    {f : MembershipRow → MembershipRow} (hf : ∀ m, (f m).key = m.key)
    (hp : ∀ m, m.key = k → p m = false) :
    (t.memberships.update p f hf).find? k = t.memberships.find? k := by
  rw [find?_update]
  cases hk : t.memberships.find? k with
  | none => rfl
  | some m =>
    rw [map_some, hp m (key_of_find? hk)]
    rfl

/-- `set_member_role` changes its member only, and to that role. -/
theorem setMemberRole_ok {o u : String} {role : Role}
    (h : setMemberRole t o u role = .ok (t', true)) :
    (∀ k, k ≠ (o, u) → t'.memberships.find? k = t.memberships.find? k)
      ∧ (OwnerAt t' (o, u) → role = .owner) := by
  rw [setMemberRole] at h
  split at h
  · obtain ⟨-, hno⟩ := Prod.mk.inj (Except.ok.inj h)
    cases hno
  · cases h
  cases h
  constructor
  · intro k hk
    refine find?_update_other (MembershipRow.enter_key role) ?_
    intro m hm
    exact decide_eq_false fun h => hk (hm.symm.trans h)
  · intro howner
    rw [OwnerAt, Tables.role, map_eq_some_iff] at howner
    obtain ⟨m, hm, hrole⟩ := howner
    rw [find?_update, map_eq_some_iff] at hm
    obtain ⟨m₀, hm₀, rfl⟩ := hm
    rw [if_pos (decide_eq_true (key_of_find? hm₀))] at hrole
    exact hrole

variable {ids : List String}

/-- `remove_member` removes its member only. -/
theorem removeMember_ok {o u : String} (h : removeMember t o u now = .ok (t', some ids)) :
    (∀ k, k ≠ (o, u) → t'.memberships.find? k = t.memberships.find? k) ∧ ¬ OwnerAt t' (o, u) := by
  rw [removeMember] at h
  split at h
  · obtain ⟨-, hno⟩ := Prod.mk.inj (Except.ok.inj h)
    cases hno
  · cases h
  cases h
  constructor
  · intro k hk
    exact find?_delete_ne t.memberships hk
  · intro howner
    rw [OwnerAt, Tables.role, find?_delete_self] at howner
    cases howner

/-- `transfer_owner` makes one owner. -/
theorem transferOwner_ok {o fromUserId toUserId : String}
    (h : transferOwner t o fromUserId toUserId = .ok t')
    (hk : k ≠ (o, toUserId)) (howner : OwnerAt t' k) : OwnerAt t k := by
  rw [transferOwner] at h
  split at h
  · cases h
  split at h
  · cases h
    exact howner
  · cases h
  cases h
  rw [OwnerAt, Tables.role, map_eq_some_iff] at howner ⊢
  obtain ⟨m, hm, hrole⟩ := howner
  rw [find?_update, map_eq_some_iff] at hm
  obtain ⟨m₀, hm₀, rfl⟩ := hm
  refine ⟨m₀, hm₀, ?_⟩
  split at hrole
  · next hp =>
    -- the target has another key, so this row has become an admin's
    rw [MembershipRow.handOver, if_neg] at hrole
    · cases hrole
    intro hto
    rw [Bool.and_eq_true] at hp
    have hkey : m₀.key = k := key_of_find? hm₀
    exact hk (hkey.symm.trans (Prod.ext (of_decide_eq_true hp.1) hto))
  · exact hrole

section

variable (h : change t now actor q = .ok (t', ids))
include h

/-- **A CHANGE MAKES AN OWNER** of its target at most, and only when it is asked to; one that makes
    none leaves every other member. -/
theorem change_raises : (∀ k, OwnerAt t' k → OwnerAt t k ∨ (q.raises = true ∧ q.target = k))
    ∧ (q.raises = false → ∀ k, k ≠ q.target → t'.memberships.find? k = t.memberships.find? k) := by
  cases q with rw [change] at h
  | changeMemberRole o u role =>
    split at h
    · next hset =>
      cases h
      obtain ⟨hother, hrole⟩ := setMemberRole_ok hset
      refine ⟨fun k howner => ?_, fun _ => hother⟩
      by_cases hk : k = (o, u)
      · exact .inr ⟨decide_eq_true (hrole (hk ▸ howner)), hk.symm⟩
      · exact .inl ((ownerAt_congr (hother k hk)).mp howner)
    · cases h
    · cases h
  | removeMember o u =>
    split at h
    · next hremove =>
      cases h
      obtain ⟨hother, hgone⟩ := removeMember_ok hremove
      refine ⟨fun k howner => .inl ?_, fun _ => hother⟩
      by_cases hk : k = (o, u)
      · exact absurd (hk ▸ howner) hgone
      · exact (ownerAt_congr (hother k hk)).mp howner
    · cases h
    · cases h
  | transferOrganizationOwner o u =>
    split at h
    · next htransfer =>
      cases h
      refine ⟨fun k howner => ?_, fun hno => Bool.noConfusion hno⟩
      by_cases hk : k = (o, trim u)
      · exact .inr ⟨rfl, hk.symm⟩
      · exact .inl (transferOwner_ok htransfer hk howner)
    · cases h

/-- It spares the owners unless its target is one by now. -/
theorem spares_change (hraises : q.raises = false) (htarget : ¬ OwnerAt t q.target) :
    Spares t t' where
  kept := by
    intro k hk
    refine (change_raises h).2 hraises k fun heq => htarget ?_
    rw [← heq]
    exact hk
  none_made := by
    intro k hk
    rcases (change_raises h).1 k hk with hold | ⟨hno, -⟩
    · exact hold
    · rw [hraises] at hno
      cases hno

end

/-! ## The invariant -/

/-- A handler whose request was authorized below an owner's role makes no owner,
    and the target it is about to change is none. -/
def Fit (t : Tables) : Task → Prop
  | .read q actor => actor.role ≠ .owner → q.raises = false
  | .write q actor => actor.role ≠ .owner → q.raises = false ∧ ¬ OwnerAt t q.target
  | _ => True

/-- What is kept. -/
structure Inv (p : World) : Prop where
  changes : OwnersOnly p.shared
  tasks : ∀ t ∈ p.tasks, Fit p.shared.tables t

/-- What a handler is let through with. -/
theorem raises_of_accept {bearer : Bearer}
    (h : accept t now bearer q = .ok actor) (hrole : actor.role ≠ .owner) :
    q.raises = false := by
  cases q with
  | changeMemberRole o u role =>
    obtain ⟨a, -, h⟩ := Transactions.bind_eq_ok h
    obtain ⟨hgrant, h⟩ := Transactions.check_eq_ok h
    cases h
    exact decide_eq_false fun howner => hgrant ⟨howner, hrole⟩
  | removeMember o u => rfl
  | transferOrganizationOwner o u =>
    obtain ⟨a, -, h⟩ := Transactions.bind_eq_ok h
    obtain ⟨-, h⟩ := Transactions.check_eq_ok h
    obtain ⟨howner, h⟩ := Transactions.check_eq_ok h
    cases h
    exact absurd (not_not.mp howner) hrole

theorem fit_afterAccept {bearer : Bearer}
    (h : accept t now bearer q = .ok actor) : Fit t (afterAccept q actor) := by
  cases q with
  | changeMemberRole o u role | removeMember o u => exact raises_of_accept h
  | transferOrganizationOwner o u =>
    intro hrole
    cases raises_of_accept h hrole

/-- The read of the target lets through what may be changed. -/
theorem fit_read {db : Db} (h : Fit db.tables (.read q actor)) :
    Fit db.tables (match db.tables.role q.target with
      | none => .done q (.error (.notFound "member"))
      | some role =>
        if role = .owner ∧ actor.role ≠ .owner then
          .done q (.error (.forbidden q.reserved))
        else .write q actor) := by
  split
  · exact trivial
  next role hrole =>
  split
  · exact trivial
  next hpass =>
  intro hbelow
  refine ⟨h hbelow, fun howner => hpass ⟨?_, hbelow⟩⟩
  rw [OwnerAt, hrole] at howner
  exact some.inj howner

/-- A change leaves the other handlers fit unless it crosses one. -/
theorem Fit.change {task : Task} (h : Fit t task) (hchange : change t now actor q = .ok (t', ids))
    (hapart : ∀ q' actor', task = .write q' actor' → actor'.role ≠ .owner →
      q.raises = true → q'.target ≠ q.target) : Fit t' task := by
  cases task with
  | write q' actor' =>
    intro hbelow
    obtain ⟨hraises, htarget⟩ := h hbelow
    refine ⟨hraises, fun howner => ?_⟩
    rcases (change_raises hchange).1 _ howner with hold | ⟨hq, heq⟩
    · exact htarget hold
    · exact hapart q' actor' rfl hbelow hq heq.symm
  | read q' actor' => exact h
  | authorize q' bearer | done q' answer => exact trivial

/-- **ONE STEP** that does not cross a handler. -/
theorem inv_step {p p' : World} {act : Act} (h : Inv p)
    (hapart : ¬ Crosses p act) (hstep : step p act = some p') : Inv p' := by
  cases act with
  | request q bearer =>
    cases hstep
    exact ⟨h.changes, forall_tasks_spawn h.tasks trivial⟩
  | fail i message =>
    obtain ⟨task, db, task', htask, hfail, rfl⟩ := Pool.advance_eq_some hstep
    cases task with
    | done q answer => cases hfail
    | _ =>
      cases hfail
      exact ⟨h.changes, forall_tasks_set h.tasks trivial⟩
  | next i now =>
    obtain ⟨task, db, task', htask, hcall, rfl⟩ := Pool.advance_eq_some hstep
    have hfit := h.tasks task (List.mem_of_getElem? htask)
    cases task with
    | authorize q bearer =>
      cases hcall
      refine ⟨h.changes, forall_tasks_set h.tasks ?_⟩
      split
      · exact trivial
      · next haccept => exact fit_afterAccept haccept
    | read q actor =>
      cases hcall
      exact ⟨h.changes, forall_tasks_set h.tasks (fit_read hfit)⟩
    | write q actor =>
      rw [taskStep] at hcall
      split at hcall
      · cases hcall
        exact ⟨h.changes, forall_tasks_set h.tasks trivial⟩
      next t ids hchange =>
      cases hcall
      constructor
      · intro c hc hbelow
        rcases List.mem_cons.mp hc with rfl | hc
        · obtain ⟨hraises, htarget⟩ := hfit hbelow
          exact spares_change hchange hraises htarget
        · exact h.changes c hc hbelow
      · refine forall_tasks_set (fun u hu => ?_) trivial
        refine (h.tasks u hu).change hchange ?_
        rintro q' actor' rfl hbelow hraises heq
        exact hapart ⟨q, actor, htask, hraises, q', actor', hu, hbelow, heq⟩
    | done q answer => cases hcall

/-- **ONLY OWNERS ACT ON OWNERS** in every run in which no request makes an owner of a member
    another one, authorized below an owner's role, is about to change. -/
theorem ownersOnly_of_apart {p₀ : World} (h₀ : Start p₀) (acts : List Act)
    (hapart : Admitted step (fun p act => ¬ Crosses p act) p₀ acts) :
    Along step (fun p => OwnersOnly p.shared) p₀ acts := by
  have hinv : Inv p₀ := by
    constructor
    · intro c hc
      rw [h₀.changes] at hc
      cases hc
    intro t ht
    rw [h₀.tasks] at ht
    cases ht
  exact Along.mono (fun _ h => h.changes) acts p₀
    (inv_along_admitted (fun _ _ _ => inv_step) acts p₀ hinv hapart)

/-! An owner, an administrator and a member. -/

def sampleRow (userId : String) (role : Role) : MembershipRow :=
  ⟨"org", userId, role⟩

def sampleTables : Tables where
  memberships := ((Table.empty.put (sampleRow "owner" .owner)).put
    (sampleRow "admin" .admin)).put (sampleRow "member" .member)
  credentials := Table.empty

def sampleWorld : World := ⟨⟨sampleTables, []⟩, []⟩

theorem sampleWorld_start : Start sampleWorld := ⟨rfl, rfl⟩

/-- The browser session of a user. -/
def browser (userId : String) : Bearer :=
  .session ⟨"session", userId, "org", 100, none⟩

/-- The administrator removes the member. -/
def remove : Act := .request (.removeMember "org" "member") (browser "admin")

/-- The owner makes the member an owner. -/
def promote : Act :=
  .request (.changeMemberRole "org" "member" .owner) (browser "owner")

/-- No other handler is crossed, as a test. -/
def apart (p : World) : Act → Bool
  | .next i _ => match p.tasks[i]? with
      | some (.write q _) => !q.raises || p.tasks.all fun
          | .write q' actor' => decide (actor'.role = .owner)
              || decide (q'.target ≠ q.target)
          | _ => true
      | _ => true
  | _ => true

theorem not_crosses_of_apart (p : World) (act : Act)
    (h : apart p act = true) : ¬ Crosses p act := by
  cases act with
  | next i now =>
    rintro ⟨q, actor, hi, hraises, q', actor', hmem, hbelow, htarget⟩
    simp only [apart, hi, hraises, Bool.not_true, Bool.false_or, List.all_eq_true] at h
    have hapart := h _ hmem
    simp only [Bool.or_eq_true, decide_eq_true_eq] at hapart
    exact hapart.elim hbelow fun hne => hne htarget
  | request q bearer | fail i message => exact id

/-- One after the other: the member becomes an owner, and the administrator is refused. -/
theorem promotedFirst_spared : Along step (fun p => OwnersOnly p.shared) sampleWorld
      [promote, .next 0 1, .next 0 2, .next 0 3, remove, .next 1 4, .next 1 5] :=
  ownersOnly_of_apart sampleWorld_start _
    (admitted_of_admits apart not_crosses_of_apart _ _ (by decide +kernel))

/-- The administrator's request has read the role of a member; it removes an owner. -/
theorem promoted_then_removed : ∃ p, run step sampleWorld [remove, .next 0 1, .next 0 2, promote,
        .next 1 3, .next 1 4, .next 1 5, .next 0 6] = some p
      ∧ ¬ OwnersOnly p.shared := by
  have hplay : ∃ p c, run step sampleWorld [remove, .next 0 1, .next 0 2,
        promote, .next 1 3, .next 1 4, .next 1 5, .next 0 6] = some p
      ∧ p.shared.changes.head? = some c ∧ c.role = .admin
      ∧ c.before.role ("org", "member") = some .owner
      ∧ c.after.role ("org", "member") = none :=
    ⟨_, _, rfl, rfl, rfl, rfl, rfl⟩
  obtain ⟨p, c, hrun, hc, hrole, hbefore, hafter⟩ := hplay
  refine ⟨p, hrun, fun honly => ?_⟩
  have hspares := honly c (List.mem_of_head? hc) (by rw [hrole]; nofun)
  have hkept := (ownerAt_congr (hspares.kept _ hbefore)).mpr hbefore
  rw [OwnerAt, hafter] at hkept
  cases hkept

end Members
