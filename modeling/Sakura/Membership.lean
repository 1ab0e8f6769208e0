/-
  Memberships and invitations (platform/membership.go).

  * `assignMembershipTx`: read the current membership, expire it, insert the extended one;
  * `assignMembership`, `redeemInvitation`: two of the transactions it runs in.
-/
import Sakura.Sql

namespace Sakura

open Txn

/-- `days` is the number of days granted; the Go struct does not have it. -/
structure Membership where
  id : UUID
  accountId : UUID
  planId : UUID
  planCode : String
  planName : String
  status : MembershipStatus
  startsAt : Time
  expiresAt : Time
  source : String
  benefits : String
  days : Int64

/-- `UPDATE account_memberships SET status='expired' … WHERE account_id=… AND status IN
('active','grace')`, for the rows found. -/
def expireMemberships (accountID : UUID) : List UUID → Call Unit
  | [] => pure ()
  | id :: ids => do
    exec fun v =>
      match v.memberships.find? fun m => m.id = id && (m.accountId = accountID && m.current) with
      | none => { locks := [exclusive (.row .memberships id)], result := .ok () }
      | some m =>
        writes [exclusive (.row .memberships id)] { memberships := [{ m with status := .expired }] } ()
    expireMemberships accountID ids

def assignMembershipTx (fresh : Fresh) (accountID planID : UUID) (startsAt : Time)
    (durationDays : Int64) (source sourceRef : String) (actor : Actor) : Call Membership := do
  let plan ← .orFail .notFound (← selectLock .membershipPlans .share (·.config.membershipPlans)
    MembershipPlan.id fun p => p.id = planID)
  .check plan.enabled .forbidden
  let durationDays := if durationDays ≤ 0 then plan.durationDays else durationDays
  let startsAt := if startsAt = 0 then fresh.clock else startsAt
  let current ← selectLock .memberships .exclusive DB.memberships AccountMembership.id
    (fun m => m.accountId = accountID && m.current) (.currentMembership accountID)
  let expiryBase := match current with
    | some m => if startsAt < m.expiresAt then m.expiresAt else startsAt
    | none => startsAt
  expireMemberships accountID (← select fun v =>
    (v.memberships.filter fun m => m.accountId = accountID && m.current).map (·.id))
  let id := fresh.membership
  let expires := expiryBase + (days durationDays).toInt
  insert [.membershipId id, .currentMembership accountID]
    { memberships := [{ id, accountId := accountID, planId := planID, status := .active
                        startsAt := stored startsAt, expiresAt := stored expires, source
                        sourceRef := nullIfEmpty sourceRef, createdBy := actor.label }] } .database
  pure { id, accountId := accountID, planId := planID, planCode := plan.code, planName := plan.name
         status := .active, startsAt, expiresAt := expires, source, benefits := plan.entitlements
         days := durationDays }

def assignMembership (fresh : Fresh) (accountID planID : UUID) (startsAt : Time)
    (durationDays : Int64) (source sourceRef : String) (actor : Actor) : Call Membership := do
  let membership ← assignMembershipTx fresh accountID planID startsAt durationDays source sourceRef
    actor
  .publish (.grant accountID membership.days)
  pure membership

/-- A membership row with its plan. -/
def scanMembership (id : UUID) (v : DB) : Option Membership := do
  let m ← v.memberships.find? (·.id = id)
  let p ← v.config.membershipPlans.find? (·.id = m.planId)
  pure { id := m.id, accountId := m.accountId, planId := m.planId, planCode := p.code
         planName := p.name, status := m.status, startsAt := m.startsAt, expiresAt := m.expiresAt
         source := m.source, benefits := p.entitlements, days := 0 }

def redeemInvitationTx (fresh : Fresh) (accountID : UUID) (code idempotencyKey : String)
    (actor : Actor) : Call (Membership × UUID) := do
  let code := trimSpace code
  let idempotencyKey := trimSpace idempotencyKey
  .check (code ≠ "" ∧ code.utf8ByteSize ≤ 100 ∧ idempotencyKey ≠ "" ∧
    idempotencyKey.utf8ByteSize ≤ 160) .invalid
  let invitation ← .orFail .notFound (← selectLock .invitations .exclusive DB.invitations
    InvitationCode.id fun i => i.code = code)
  match ← select fun v => v.redemptions.find? fun r =>
      r.idempotencyKey = idempotencyKey && r.accountId = accountID &&
        r.invitationId = invitation.id with
  | some replay => do
    let membership ← selectOne .notFound (scanMembership replay.membershipId)
    pure (membership, invitation.id)
  | none => do
    .check (invitation.status = .active ∧ invitation.usedCount < invitation.maxUses ∧
      ∀ t ∈ invitation.expiresAt, ¬t < fresh.clock) .conflict
    let membership ← assignMembershipTx fresh accountID invitation.planId fresh.clock 0
      ("invitation_" ++ invitation.kind.text) invitation.id.text actor
    insert [.redemptionId fresh.row, .redemption invitation.id accountID,
        .redemptionKey idempotencyKey]
      { redemptions := [{ id := fresh.row, invitationId := invitation.id, accountId := accountID
                          membershipId := membership.id, idempotencyKey }] } .conflict
    let newStatus := if invitation.maxUses ≤ invitation.usedCount + 1 then .used else .active
    let _ ← updateRow .invitations DB.invitations InvitationCode.id (fun i => i.id = invitation.id)
      fun i => { invitations := [{ i with usedCount := i.usedCount + 1, status := newStatus }] }
    pure (membership, invitation.id)

/-- A replay commits nothing but still commits. -/
def redeemInvitation (fresh : Fresh) (accountID : UUID) (code idempotencyKey : String)
    (actor : Actor) : Call Membership := do
  let (membership, _) ← redeemInvitationTx fresh accountID code idempotencyKey actor
  .publish (.grant accountID membership.days)
  pure membership

end Sakura
