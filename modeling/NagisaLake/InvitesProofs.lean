import NagisaLake.RunProofs
import NagisaLake.StoreProofs

/-! # Device invitations — redeeming one and taking the grant back

`accept_device_invite` turns an invitation into a grant.  The row of a grant
that has ended is used again: an `UPDATE` writes the columns the new
invitation brings, and the grant that is returned is put together from the
invitation.  The two differ in one column: the `UPDATE` leaves
`owner_user_id`, by which `revoke_device_grant` looks for the row.

So a grant can be taken back by the user it names as its owner when no row
was used again, or the row had that owner before (`revocable_iff`). -/

namespace Invites

open KeyedTable Runs Table Option
open HubStore (StoreError saturate)

/-! ## Rows -/

/-- `DeviceWorkflowRule`. -/
structure DeviceWorkflowRule where
  id : String
  version : String
  deriving DecidableEq, Repr

/-- `UNIQUE (device_organization_id, device_id, grantee_user_id)`. -/
abbrev GrantKey := String × String × String

/-- A row of `device_share_invites`. -/
structure DeviceInviteRow where
  id : String
  organizationId : String
  deviceId : String
  ownerUserId : String
  codePrefix : String
  codeHash : String
  maxUses : Int
  useCount : Int
  expiresAt : Option Int
  revokedAt : Option Int
  createdAt : Int
  allowedWorkflowsJson : String
  maxConcurrentJobs : Option Int
  grantDurationSeconds : Option Int
  deriving DecidableEq, Repr

/-- A row of `device_grants`. -/
structure DeviceGrantRow where
  id : String
  deviceOrganizationId : String
  deviceId : String
  ownerUserId : String
  granteeUserId : String
  inviteId : String
  createdAt : Int
  revokedAt : Option Int
  allowedWorkflowsJson : String
  maxConcurrentJobs : Option Int
  expiresAt : Option Int
  deriving DecidableEq, Repr

def DeviceGrantRow.key (g : DeviceGrantRow) : GrantKey :=
  (g.deviceOrganizationId, g.deviceId, g.granteeUserId)

/-- Neither revoked nor expired. -/
def DeviceGrantRow.active (now : Int) (g : DeviceGrantRow) : Bool :=
  g.revokedAt.isNone && g.expiresAt.all fun expires => decide (now < expires)

/-- `DeviceGrant`. -/
structure DeviceGrant where
  id : String
  deviceOrganizationId : String
  deviceId : String
  ownerUserId : String
  granteeUserId : String
  inviteId : String
  createdAt : Int
  revokedAt : Option Int
  allowedWorkflows : List DeviceWorkflowRule
  maxConcurrentJobs : Option Int
  expiresAt : Option Int
  deriving DecidableEq, Repr

def DeviceGrant.key (g : DeviceGrant) : GrantKey :=
  (g.deviceOrganizationId, g.deviceId, g.granteeUserId)

section Parser

variable (fromStr : String → Option (List DeviceWorkflowRule))

/-- `parse_workflow_rules`, over the JSON parser. -/
def parseWorkflowRules (value : String) : List DeviceWorkflowRule :=
  (fromStr value).getD []

/-- `DeviceGrant::from`. -/
def DeviceGrant.ofRow (v : DeviceGrantRow) : DeviceGrant where
  id := v.id
  deviceOrganizationId := v.deviceOrganizationId
  deviceId := v.deviceId
  ownerUserId := v.ownerUserId
  granteeUserId := v.granteeUserId
  inviteId := v.inviteId
  createdAt := v.createdAt
  revokedAt := v.revokedAt
  allowedWorkflows := parseWorkflowRules fromStr v.allowedWorkflowsJson
  maxConcurrentJobs := v.maxConcurrentJobs
  expiresAt := v.expiresAt

/-- The two tables; code hashes are unique, and so is the grant of a user on a device. -/
structure Tables where
  invites : Table String DeviceInviteRow DeviceInviteRow.codeHash := Table.empty
  grants : Table GrantKey DeviceGrantRow DeviceGrantRow.key := Table.empty

/-! ## Statements -/

/-- What `create_device_invite` asks the other tables: the members, and the
    owner of a device that there is. -/
structure Sharers where
  member : String → String → Bool
  owner : String → String → Option (Option String)

/-- The user may share the device. -/
def Sharers.shareable (e : Sharers) (organizationId deviceId userId : String) :
    Bool :=
  e.member organizationId userId && (e.owner organizationId deviceId).any
    fun owner => owner.all fun o => decide (o = userId)

/-- `create_device_invite`; the counter and the revocation have their defaults. -/
def createDeviceInvite (e : Sharers) (t : Tables) (input : DeviceInviteRow) :
    Except StoreError Tables :=
  if e.shareable input.organizationId input.deviceId input.ownerUserId then
    if t.invites.exists? fun i => decide (i.id = input.id) then
      .error (.database "duplicate key")
    else match t.invites.insert
        { input with useCount := 0, revokedAt := none } with
      | some invites => .ok { t with invites := invites }
      | none => .error (.database "duplicate key")
  else .error (.notFound "owned device")

def DeviceInviteRow.revoke (now : Int) (i : DeviceInviteRow) :
    DeviceInviteRow :=
  { i with revokedAt := some now }

/-- The rows `revoke_device_invite` is about. -/
def DeviceInviteRow.revocable (inviteId ownerUserId : String) (i : DeviceInviteRow) : Bool :=
  decide (i.id = inviteId) && decide (i.ownerUserId = ownerUserId) && i.revokedAt.isNone

/-- `revoke_device_invite`. -/
def revokeDeviceInvite (t : Tables) (inviteId ownerUserId : String) (now : Int) : Bool × Tables :=
  (decide (t.invites.count (DeviceInviteRow.revocable inviteId ownerUserId) = 1),
    { t with
      invites := t.invites.update (DeviceInviteRow.revocable inviteId ownerUserId)
        (DeviceInviteRow.revoke now) fun _ => rfl })

/-- The invitation is revoked, expired or exhausted. -/
def DeviceInviteRow.spent (now : Int) (i : DeviceInviteRow) : Bool :=
  i.revokedAt.isSome || i.expiresAt.any (fun expires => decide (expires ≤ now))
    || decide (i.maxUses ≤ i.useCount)

/-- The grant an invitation is about, for a user. -/
def DeviceInviteRow.grantKey (i : DeviceInviteRow) (granteeUserId : String) :
    GrantKey :=
  (i.organizationId, i.deviceId, granteeUserId)

/-- What `accept_device_invite` decides once it has both rows: to return the
    grant there is, to refuse, or to redeem the invitation. -/
def DeviceInviteRow.answer (i : DeviceInviteRow)
    (existing : Option DeviceGrantRow) (granteeUserId : String) (now : Int) :
    Except StoreError (Option DeviceGrantRow) :=
  match existing.filter (DeviceGrantRow.active now) with
  | some g => .ok (some g)
  | none =>
    if i.spent now then
      .error (.conflict "device invite is expired, revoked, or exhausted")
    else if i.ownerUserId = granteeUserId then
      .error (.conflict "device owner cannot redeem their own invite")
    else .ok none

/-- `grant_expires_at`. -/
def DeviceInviteRow.grantExpiresAt (i : DeviceInviteRow) (now : Int) : Option Int :=
  i.grantDurationSeconds.map fun seconds =>
    saturate (now + saturate (max seconds 1 * 1000))

/-- The row that is written: a new one, or the old one with the columns of the `UPDATE`. -/
def DeviceInviteRow.row (i : DeviceInviteRow) (existing : Option DeviceGrantRow)
    (granteeUserId : String) (now : Int) (uuid : String) : DeviceGrantRow :=
  match existing with
  | some g => { g with
      revokedAt := none
      inviteId := i.id
      createdAt := now
      allowedWorkflowsJson := i.allowedWorkflowsJson
      maxConcurrentJobs := i.maxConcurrentJobs
      expiresAt := i.grantExpiresAt now }
  | none => {
      id := uuid
      deviceOrganizationId := i.organizationId
      deviceId := i.deviceId
      ownerUserId := i.ownerUserId
      granteeUserId := granteeUserId
      inviteId := i.id
      createdAt := now
      revokedAt := none
      allowedWorkflowsJson := i.allowedWorkflowsJson
      maxConcurrentJobs := i.maxConcurrentJobs
      expiresAt := i.grantExpiresAt now }

/-- The grant that is returned for it. -/
def DeviceInviteRow.grant (i : DeviceInviteRow)
    (existing : Option DeviceGrantRow) (granteeUserId : String) (now : Int)
    (uuid : String) : DeviceGrant where
  id := (existing.map DeviceGrantRow.id).getD uuid
  deviceOrganizationId := i.organizationId
  deviceId := i.deviceId
  ownerUserId := i.ownerUserId
  granteeUserId := granteeUserId
  inviteId := i.id
  createdAt := now
  revokedAt := none
  allowedWorkflows := parseWorkflowRules fromStr i.allowedWorkflowsJson
  maxConcurrentJobs := i.maxConcurrentJobs
  expiresAt := i.grantExpiresAt now

def DeviceInviteRow.used (i : DeviceInviteRow) : DeviceInviteRow :=
  { i with useCount := i.useCount + 1 }

/-- `accept_device_invite`, alone; `uuid` is the id it draws for a new row. -/
def acceptDeviceInvite (t : Tables) (codeHash granteeUserId : String)
    (now : Int) (uuid : String) : Except StoreError (DeviceGrant × Tables) :=
  match t.invites.find? codeHash with
  | none => .error (.notFound "device invite")
  | some invite =>
    let existing := t.grants.find? (invite.grantKey granteeUserId)
    match invite.answer existing granteeUserId now with
    | .error e => .error e
    | .ok (some g) => .ok (.ofRow fromStr g, t)
    | .ok none => .ok (invite.grant fromStr existing granteeUserId now uuid, {
        invites := t.invites.put invite.used
        grants := t.grants.put (invite.row existing granteeUserId now uuid) })

def DeviceGrantRow.revoke (now : Int) (g : DeviceGrantRow) : DeviceGrantRow :=
  { g with revokedAt := some now }

/-- The rows `revoke_device_grant` is about. -/
def DeviceGrantRow.revocable (k : GrantKey) (ownerUserId : String) (g : DeviceGrantRow) : Bool :=
  (decide (g.ownerUserId = ownerUserId) && g.revokedAt.isNone) && decide (g.key = k)

/-- `revoke_device_grant`; the key is the device and the grantee. -/
def revokeDeviceGrant (t : Tables) (k : GrantKey) (ownerUserId : String)
    (now : Int) : Bool × Tables :=
  (decide (t.grants.count (DeviceGrantRow.revocable k ownerUserId) = 1),
    { t with
      grants := t.grants.update (DeviceGrantRow.revocable k ownerUserId)
        (DeviceGrantRow.revoke now) fun _ => rfl })

/-! ## What a call decides -/

variable {i : DeviceInviteRow} {existing : Option DeviceGrantRow}
  {granteeUserId : String}

/-- The grant there is, is returned when it is active. -/
theorem answer_some {now : Int} {g : DeviceGrantRow}
    (h : i.answer existing granteeUserId now = .ok (some g)) :
    existing = some g ∧ g.active now = true := by
  rw [DeviceInviteRow.answer] at h
  split at h
  · next g' hg =>
    cases Except.ok.inj h
    exact filter_eq_some_iff.mp hg
  split at h
  · cases h
  split at h
  · cases h
  · cases Except.ok.inj h

/-- An invitation is redeemed when there is no active grant and it is not spent. -/
theorem answer_none {now : Int} (h : i.answer existing granteeUserId now = .ok none) :
    (∀ old, existing = some old → old.active now = false) ∧ i.spent now = false := by
  rw [DeviceInviteRow.answer] at h
  split at h
  · cases Except.ok.inj h
  next hnone =>
  constructor
  · rintro old rfl
    exact eq_false_of_ne_true (filter_eq_none_iff.mp hnone old rfl)
  split at h
  · cases h
  · next hspent => exact eq_false_of_ne_true hspent

variable {fromStr} in
/-- What a call that succeeds has done: returned the active grant and nothing
    else, or redeemed the invitation. -/
theorem accept_cases {t t' : Tables} {codeHash uuid : String} {now : Int}
    {g : DeviceGrant}
    (h : acceptDeviceInvite fromStr t codeHash granteeUserId now uuid = .ok (g, t')) :
    ∃ invite existing, t.invites.find? codeHash = some invite
      ∧ t.grants.find? (invite.grantKey granteeUserId) = existing
      ∧ ((∃ old, existing = some old ∧ old.active now = true ∧ g = .ofRow fromStr old ∧ t' = t)
        ∨ (invite.answer existing granteeUserId now = .ok none
          ∧ g = invite.grant fromStr existing granteeUserId now uuid
          ∧ t' = {
            invites := t.invites.put invite.used
            grants := t.grants.put (invite.row existing granteeUserId now uuid) })) := by
  rw [acceptDeviceInvite] at h
  cases hi : t.invites.find? codeHash with
  | none =>
    rw [hi] at h
    cases h
  | some invite =>
    simp only [hi] at h
    refine ⟨invite, _, rfl, rfl, ?_⟩
    cases ha : invite.answer (t.grants.find? (invite.grantKey granteeUserId)) granteeUserId now
      with rw [ha] at h
    | error e =>
      cases h
    | ok found =>
      cases found with
      | some old =>
        obtain ⟨hold, hactive⟩ := answer_some ha
        cases h
        exact .inl ⟨old, hold, hactive, rfl, rfl⟩
      | none =>
        cases h
        exact .inr ⟨rfl, rfl, rfl⟩

/-- The row that is written stands where the old one stood. -/
theorem row_key (now : Int) (uuid : String) (hold : ∀ old, existing = some old →
      old.key = i.grantKey granteeUserId) :
    (i.row existing granteeUserId now uuid).key = i.grantKey granteeUserId := by
  cases existing with
  | none => rfl
  | some old => exact hold old rfl

theorem find?_revokeDeviceInvite (t : Tables) (inviteId ownerUserId : String)
    (now : Int) (k : String) :
    (revokeDeviceInvite t inviteId ownerUserId now).2.invites.find? k
      = (t.invites.find? k).map fun i =>
          if i.revocable inviteId ownerUserId then i.revoke now else i :=
  find?_update t.invites (DeviceInviteRow.revocable inviteId ownerUserId)
    (DeviceInviteRow.revoke now) (fun _ => rfl) k

theorem find?_revokeDeviceGrant (t : Tables) (k : GrantKey)
    (ownerUserId : String) (now : Int) (k' : GrantKey) :
    (revokeDeviceGrant t k ownerUserId now).2.grants.find? k' = (t.grants.find? k').map fun g =>
          if g.revocable k ownerUserId then g.revoke now else g :=
  find?_update t.grants (DeviceGrantRow.revocable k ownerUserId)
    (DeviceGrantRow.revoke now) (fun _ => rfl) k'

/-- A new invitation has a hash of its own and no use. -/
theorem create_cases {e : Sharers} {t t' : Tables} {input : DeviceInviteRow}
    (h : createDeviceInvite e t input = .ok t') :
    t.invites.find? input.codeHash = none ∧ ∀ k, t'.invites.find? k = if input.codeHash = k
        then some { input with useCount := 0, revokedAt := none }
        else t.invites.find? k := by
  rw [createDeviceInvite] at h
  split at h
  · split at h
    · cases h
    split at h
    · next invites hins =>
      cases h
      exact ⟨(insert_eq_some_iff.mp hins).1, find?_insert hins⟩
    · cases h
  · cases h

/-! ## Taking a grant back -/

/-- The grant is stored as it is, and the user it names as its owner can take it back. -/
structure Revocable (t : Tables) (g : DeviceGrant) : Prop where
  stored : (t.grants.find? g.key).map (DeviceGrant.ofRow fromStr) = some g
  revoked : ∀ now, (revokeDeviceGrant t g.key g.ownerUserId now).1 = true
  ended : ∀ now later r, (revokeDeviceGrant t g.key g.ownerUserId now).2.grants.find? g.key = some r
      → r.active later = false

/-- No row of another owner is used again: the accepting user has no grant on the device of the
    invitation, or an active one, or one by the user who invites. -/
def SameOwner (t : Tables) (codeHash granteeUserId : String) (now : Int) :
    Prop :=
  ∀ invite old, t.invites.find? codeHash = some invite →
    t.grants.find? (invite.grantKey granteeUserId) = some old →
      old.active now = false → old.ownerUserId = invite.ownerUserId

variable {fromStr}

/-- A stored grant that is not revoked can be. -/
theorem revocable_of_stored {t : Tables} {row : DeviceGrantRow}
    (hfind : t.grants.find? row.key = some row) (hnot : row.revokedAt = none) :
    Revocable fromStr t (.ofRow fromStr row) where
  stored := by
    show (t.grants.find? row.key).map _ = _
    rw [hfind]
    rfl
  revoked := by
    intro now
    have hcount : t.grants.count (DeviceGrantRow.revocable row.key row.ownerUserId) = 1 := by
      refine (count_key_and hfind fun g =>
        decide (g.ownerUserId = row.ownerUserId) && g.revokedAt.isNone).trans ?_
      simp [hnot]
    exact decide_eq_true hcount
  ended := by
    intro now later r hr
    have hupdate := find?_revokeDeviceGrant t row.key row.ownerUserId now row.key
    have hmine : DeviceGrantRow.revocable row.key row.ownerUserId row = true := by
      simp [DeviceGrantRow.revocable, hnot]
    rw [hfind, map_some, if_pos hmine] at hupdate
    cases hupdate.symm.trans hr
    rfl

/-- **TAKING A SHARE BACK**: whatever was granted and revoked before, a grant
    that `accept_device_invite` returns is stored as returned and can be revoked
    by the user it names exactly when no row of another owner was used again. -/
theorem revocable_iff {t t' : Tables} {codeHash granteeUserId uuid : String}
    {now : Int} {g : DeviceGrant}
    (h : acceptDeviceInvite fromStr t codeHash granteeUserId now uuid = .ok (g, t')) :
    Revocable fromStr t' g ↔ SameOwner t codeHash granteeUserId now := by
  obtain ⟨invite, existing, hi, hex,
    ⟨old, rfl, hactive, rfl, rfl⟩ | ⟨hgo, rfl, rfl⟩⟩ := accept_cases h
  · -- nothing was written, and the row says itself whose it is
    have hkey : old.key = invite.grantKey granteeUserId :=
      key_of_find? hex
    refine iff_of_true (revocable_of_stored (hkey ▸ hex) ?_) ?_
    · rw [DeviceGrantRow.active, Bool.and_eq_true] at hactive
      exact isNone_iff_eq_none.mp hactive.1
    intro invite' old' hi' hold' hinactive
    cases hi.symm.trans hi'
    cases hex.symm.trans hold'
    rw [hactive] at hinactive
    cases hinactive
  · have hput : ∀ row : DeviceGrantRow, (t.grants.put row).find? row.key = some row := by
      intro row
      rw [find?_put, if_pos rfl]
    cases existing with
    | none =>
      have hrow : invite.grant fromStr none granteeUserId now uuid
          = .ofRow fromStr (invite.row none granteeUserId now uuid) := rfl
      rw [hrow]
      refine iff_of_true (revocable_of_stored (hput _) rfl) ?_
      intro invite' old' hi' hold'
      cases hi.symm.trans hi'
      cases hex.symm.trans hold'
    | some old =>
      have hkey : old.key = invite.grantKey granteeUserId :=
        key_of_find? hex
      obtain ⟨horg, hdev, hgrantee⟩ : old.deviceOrganizationId
          = invite.organizationId ∧ old.deviceId = invite.deviceId
          ∧ old.granteeUserId = granteeUserId := by
        simpa [DeviceGrantRow.key, DeviceInviteRow.grantKey] using hkey
      constructor
      · -- the stored row has kept its owner
        intro hrev invite' old' hi' hold' _
        cases hi.symm.trans hi'
        cases hex.symm.trans hold'
        have hstored := hrev.stored
        rw [show (invite.grant fromStr (some old) granteeUserId now uuid).key
          = (invite.row (some old) granteeUserId now uuid).key
          from hkey.symm, hput] at hstored
        exact congrArg DeviceGrant.ownerUserId (some.inj hstored)
      · intro hsame
        have howner := hsame invite old hi hex ((answer_none hgo).1 old rfl)
        have hrow : invite.grant fromStr (some old) granteeUserId now uuid
            = .ofRow fromStr (invite.row (some old) granteeUserId now uuid)
            := by
          simp only [DeviceInviteRow.grant, DeviceInviteRow.row,
            DeviceGrant.ofRow, horg, hdev, hgrantee, howner,
            map_some, Option.getD_some]
        rw [hrow]
        exact revocable_of_stored (hput _) rfl

/-! ## Histories -/

/-- The statements, one after the other. -/
inductive Act where
  | create (e : Sharers) (input : DeviceInviteRow)
  | accept (codeHash granteeUserId : String) (now : Int) (uuid : String)
  | revokeInvite (inviteId ownerUserId : String) (now : Int)
  | revokeGrant (k : GrantKey) (ownerUserId : String) (now : Int)

variable (fromStr) in
/-- One of them; one that fails changes nothing. -/
def step (t : Tables) : Act → Option Tables
  | .create e input =>
    match createDeviceInvite e t input with
    | .ok t' => some t'
    | .error _ => some t
  | .accept codeHash granteeUserId now uuid =>
    match acceptDeviceInvite fromStr t codeHash granteeUserId now uuid with
    | .ok (_, t') => some t'
    | .error _ => some t
  | .revokeInvite inviteId ownerUserId now =>
    some (revokeDeviceInvite t inviteId ownerUserId now).2
  | .revokeGrant k ownerUserId now =>
    some (revokeDeviceGrant t k ownerUserId now).2

end Parser

/-- A device nobody owns, in an organization where everybody may share it. -/
def openDevice : Sharers := ⟨fun _ _ => true, fun _ _ => some none⟩

/-- An invitation to it, by a user. -/
def invitation (id ownerUserId : String) : DeviceInviteRow :=
  ⟨id, "org", "device", ownerUserId, "ndi", id, 1, 0, none, none, 0, "[]", none, none⟩

/-- Alice's grant to carol is revoked, and bob invites carol. -/
def regranted : List Act :=
  [.create openDevice (invitation "i1" "alice"), .accept "i1" "carol" 1 "g1",
    .revokeGrant ("org", "device", "carol") "alice" 2,
    .create openDevice (invitation "i2" "bob")]

/-- Bob's grant is returned in bob's name, and bob cannot take it back. -/
theorem regranted_not_revocable : ∃ t g t', run (step fun _ => none) {} regranted = some t
      ∧ acceptDeviceInvite (fun _ => none) t "i2" "carol" 3 "g2" = .ok (g, t')
      ∧ g.ownerUserId = "bob"
      ∧ (revokeDeviceGrant t' g.key g.ownerUserId 4).1 = false
      ∧ ((revokeDeviceGrant t' g.key g.ownerUserId 4).2.grants.find? g.key).any
          (DeviceGrantRow.active 5) = true :=
  ⟨_, _, _, rfl, rfl, rfl, by decide, by decide⟩

/-- Alice may invite carol again. -/
def invitedAgain : List Act :=
  [.create openDevice (invitation "i1" "alice"), .accept "i1" "carol" 1 "g1",
    .revokeGrant ("org", "device", "carol") "alice" 2,
    .create openDevice (invitation "i3" "alice")]

theorem invitedAgain_revocable : ∃ t g t', run (step fun _ => none) {} invitedAgain = some t
      ∧ acceptDeviceInvite (fun _ => none) t "i3" "carol" 3 "g2" = .ok (g, t')
      ∧ Revocable (fun _ => none) t' g := by
  have hplay : ∃ t g t' old, run (step fun _ => none) {} invitedAgain = some t
        ∧ acceptDeviceInvite (fun _ => none) t "i3" "carol" 3 "g2" = .ok (g, t')
        ∧ t.invites.find? "i3" = some (invitation "i3" "alice")
        ∧ t.grants.find? ("org", "device", "carol") = some old
        ∧ old.ownerUserId = "alice" :=
    ⟨_, _, _, _, rfl, rfl, rfl, rfl, rfl⟩
  obtain ⟨t, g, t', old, hrun, haccept, hi, hold, howner⟩ := hplay
  refine ⟨t, g, t', hrun, haccept, (revocable_iff haccept).mpr ?_⟩
  intro invite' old' hi' hold' _
  cases hi.symm.trans hi'
  cases hold.symm.trans hold'
  exact howner

end Invites
