/-
  Invitation codes (platform/membership.go), and what the calls on them may do.

  * `generateInvitations`, `redeemInvitation`, `revokeInvitation`;
  * `InvitationCall`: these calls and `requestProvisioning`; `InvitationCall.use`: what a call redeems;
  * `Accounted`: the counter, the status and the redemptions of an invitation agree;
  * `Moves`: what a commit does to invitations, redemptions and memberships;
  * `accounting`: the discipline of the calls, `Tables.overlay`: its commits keep the invariant.
-/
import Sakura.Emby.Accounts
import Sakura.Txn.Labels
import Sakura.Txn.Versions

namespace Sakura.Queue

open Txn

/-! ## Calls -/

/-- `^[A-Z0-9]{2,16}$` -/
def codePrefixPattern (s : String) : Bool :=
  (s.toList.all fun c => c.isUpper || c.isDigit) && 2 ≤ s.length && s.length ≤ 16

def invitationMarker : InvitationKind → String
  | .registration => "Register"
  | .renewal => "Renew"

/-- `fmt.Sprintf("%s-%d-%s_%s", prefix, plan.DurationDays, marker, suffix)` -/
def invitationText (codePrefix : String) (plan : MembershipPlan) (kind : InvitationKind)
    (suffix : String) : String :=
  codePrefix ++ "-" ++ toString plan.durationDays.toInt ++ "-" ++ invitationMarker kind ++ "_" ++
    suffix

/-- The row of a new invitation. -/
def newInvitation (id : UUID) (code : String) (kind : InvitationKind) (planID : UUID) (maxUses : Int)
    (expiresAt : Option Time) : InvitationCode :=
  { id, code, kind, planId := planID, maxUses, usedCount := 0, status := .active
    expiresAt := expiresAt.map stored }

/-- One INSERT for each id and suffix. -/
def insertInvitations (plan : MembershipPlan) (codePrefix : String) (kind : InvitationKind)
    (maxUses : Int) (expiresAt : Option Time) : List (UUID × String) → Call Unit
  | [] => pure ()
  | item :: items => do
    let row := newInvitation item.1 (invitationText codePrefix plan kind item.2) kind plan.id maxUses
      expiresAt
    invitations.insertRow (fun v => v.invitations.any fun i => i.id = row.id || i.code = row.code)
      [(.invitation row.id, .exclusive), (.invitationCode row.code, .exclusive)] row .database
    insertInvitations plan codePrefix kind maxUses expiresAt items

/-- `items` are the new ids with their random suffixes, `codePrefix` is the setting `site.code_prefix`,
trimmed and in upper case. -/
def generateInvitations (planID : UUID) (kind : InvitationKind) (items : List (UUID × String))
    (maxUses : Int) (expiresAt : Option Time) (codePrefix : String) (now : Time) : Call Unit := do
  .check (1 ≤ items.length ∧ items.length ≤ 500 ∧ 1 ≤ maxUses ∧ maxUses ≤ 10000) .invalid
  let plan ← readOne .notFound fun v => v.plans.find? (·.id = planID)
  .check plan.enabled .notFound
  .check (∀ t ∈ expiresAt, ¬t < now) .invalid
  .check (codePrefixPattern codePrefix) .invalid
  insertInvitations plan codePrefix kind maxUses expiresAt items
  .publish .invited

def redeemInvitation (fresh : Fresh) (accountID : UUID) (code idempotencyKey : String)
    (actor : Actor) : Call AccountMembership := do
  let result ← redeemInvitationTx fresh accountID code idempotencyKey actor
  .publish (.redeemed fresh.redemption)
  pure result.1

def revokeInvitation (id : UUID) : Call Unit := do
  let changed ← invitations.updateRow (fun i => i.id = id && i.status = .active)
    fun i => { i with status := .revoked }
  .check changed.isSome .conflict
  .publish (.revoked id)

inductive InvitationCall where
  | generate (planID : UUID) (kind : InvitationKind) (items : List (UUID × String)) (maxUses : Int)
      (expiresAt : Option Time) (codePrefix : String) (now : Time)
  | redeem (fresh : Fresh) (accountID : UUID) (code idempotencyKey : String) (actor : Actor)
  | provision (fresh : Fresh) (accountID : UUID) (instanceID : Option UUID)
      (username invitationCode idempotencyKey : String) (maxAttempts : Nat) (actor : Actor)
  | revoke (id : UUID)

def InvitationCall.call (env : Environment) : InvitationCall → Call Unit
  | .generate plan kind items maxUses expiresAt codePrefix now =>
    generateInvitations plan kind items maxUses expiresAt codePrefix now
  | .redeem fresh account code key actor =>
    (fun _ => ()) <$> redeemInvitation fresh account code key actor
  | .provision fresh account inst username code key attempts actor =>
    (fun _ => ()) <$> requestProvisioning env fresh account inst username code key attempts actor
  | .revoke id => revokeInvitation id

/-- A redemption that a call asks for: `now` is its clock when it checks the invitation. -/
structure Use where
  account : UUID
  code : String
  key : String
  now : Time

def InvitationCall.use : InvitationCall → Option Use
  | .redeem fresh account code key _ => some ⟨account, trimSpace code, trimSpace key, fresh.now⟩
  | .provision fresh account _ _ code key _ _ =>
    if trimSpace code ≠ "" then
      some ⟨account, trimSpace code,
        trimSpace ("provision-invite:" ++ account.text ++ ":" ++ trimSpace key), fresh.now⟩
    else none
  | _ => none

/-- The calls, each commit labelled with its call. -/
def InvitationCall.prog (env : Environment) (call : InvitationCall) :
    Prog Site Store Lock InvitationCall Err Unit :=
  (call.call env).label fun _ => call

/-! ## Agreement -/

/-- UNIQUE(invitation_id,account_id) -/
def redemptionUse (r : InvitationRedemption) : UUID × UUID := (r.invitationId, r.accountId)

def Store.redemptionsOf (db : Store) (i : InvitationCode) : List InvitationRedemption :=
  db.redemptions.filter (·.invitationId = i.id)

structure Accounted (i : InvitationCode) (db : Store) : Prop where
  counted : i.usedCount = (db.redemptionsOf i).length
  bounded : i.usedCount ≤ i.maxUses
  used : i.status ≠ .revoked → (i.status = .used ↔ i.usedCount = i.maxUses)

/-- The unique indexes, and the reference of a redemption to its invitation. -/
structure Indexes (db : Store) : Prop where
  invitationIds : UniqueBy InvitationCode.id db.invitations
  redemptionIds : UniqueBy InvitationRedemption.id db.redemptions
  uses : UniqueBy redemptionUse db.redemptions
  keys : UniqueBy InvitationRedemption.idempotencyKey db.redemptions
  known : ∀ r ∈ db.redemptions, ∃ i ∈ db.invitations, i.id = r.invitationId

/-- Every invitation is accounted for, unless it was there in the beginning. -/
structure Tables (db₀ db : Store) : Prop extends Indexes db where
  kept : ∀ i₀ ∈ db₀.invitations, ∃ i ∈ db.invitations, i.id = i₀.id
  accounted : ∀ i ∈ db.invitations, (∀ i₀ ∈ db₀.invitations, i₀.id ≠ i.id) → Accounted i db

/-! ## Commits -/

/-- The invitation after a redemption. -/
def redeemedInvitation (i : InvitationCode) : InvitationCode :=
  { i with
    usedCount := i.usedCount + 1
    status := if i.maxUses ≤ i.usedCount + 1 then .used else .active }

/-- A redemption of the invitation `i` with the row `r`. -/
structure Redeems (use : Use) (i : InvitationCode) (r : InvitationRedemption) (db : Store)
    (δ : Versions) : Prop where
  mem : i ∈ db.invitations
  code : i.code = use.code
  active : i.status = .active
  left : i.usedCount < i.maxUses
  unexpired : ∀ t ∈ i.expiresAt, ¬t < use.now
  invitations : δ.invitations = [redeemedInvitation i]
  redemptions : δ.redemptions = [r]
  row : r.invitationId = i.id ∧ r.accountId = use.account ∧ r.idempotencyKey = use.key
  granted : ∃ m ∈ δ.memberships, m.id = r.membershipId ∧ m.accountId = use.account ∧
    m.planId = i.planId

/-- What a commit of a call does to the three tables. -/
inductive Moves (call : InvitationCall) (db : Store) (δ : Versions) : Prop
  | idle (hi : δ.invitations = []) (hr : δ.redemptions = []) (hm : δ.memberships = [])
  | generated (hc : call.use = none) (hr : δ.redemptions = []) (hm : δ.memberships = [])
      (hi : ∀ i ∈ δ.invitations, (∀ i₀ ∈ db.invitations, i₀.id ≠ i.id) ∧ i.usedCount = 0 ∧
        i.status = .active ∧ 1 ≤ i.maxUses)
  | revoked (hc : call.use = none) (hr : δ.redemptions = []) (hm : δ.memberships = [])
      (i : InvitationCode) (hi : i ∈ db.invitations) (ha : i.status = .active)
      (hδ : δ.invitations = [{ i with status := .revoked }])
  | redeemed (u : Use) (hu : call.use = some u) (i : InvitationCode) (r : InvitationRedemption)
      (h : Redeems u i r db δ)

def keepInvitation (i i' : InvitationCode) : Prop :=
  i'.code = i.code ∧ i'.kind = i.kind ∧ i'.planId = i.planId ∧ i'.maxUses = i.maxUses ∧
    i'.expiresAt = i.expiresAt

theorem keepInvitation.refl (i : InvitationCode) : keepInvitation i i := ⟨rfl, rfl, rfl, rfl, rfl⟩

/-- Versions made under locks. -/
structure Invites (δ : Versions) (L : Held Lock) (db : Store) : Prop where
  invitations : Versioned InvitationCode.id (fun id => Owns L (.invitation id))
    (fun id => Owns L (.invitation id)) keepInvitation db.invitations δ.invitations
  redemptions : Versioned InvitationRedemption.id (fun id => Owns L (.redemption id))
    (fun _ => False) (fun r r' => redemptionUse r' = redemptionUse r ∧
      r'.idempotencyKey = r.idempotencyKey) db.redemptions δ.redemptions
  uses : Indexed InvitationRedemption.id redemptionUse (fun u => Owns L (.redemptionUse u.1 u.2))
    db.redemptions δ.redemptions
  keys : Indexed InvitationRedemption.id InvitationRedemption.idempotencyKey
    (fun k => Owns L (.redemptionKey k)) db.redemptions δ.redemptions

variable {db₀ db : Store} {δ δ' : Versions} {L M : Held Lock} {call : InvitationCall}

theorem Invites.mono (hLM : L ⊆ M) (h : Invites δ L db) : Invites δ M db where
  invitations := h.invitations.mono (fun _ => Owns.mono hLM) fun _ => Owns.mono hLM
  redemptions := h.redemptions.mono (fun _ => Owns.mono hLM) fun _ => id
  uses := h.uses.mono fun _ => Owns.mono hLM
  keys := h.keys.mono fun _ => Owns.mono hLM

/-- **Interference.** -/
theorem Invites.overlay (h : Invites δ L db) (h' : Invites δ' M db) (hc : Compatible L M) :
    Invites δ L (db.overlay δ') where
  invitations := h.invitations.overlay h'.invitations (fun _ hl => hl.not_owns hc)
    fun _ hl => hl.not_owns hc
  redemptions := h.redemptions.overlay h'.redemptions (fun _ hl => hl.not_owns hc) fun _ h => h.elim
  uses := h.uses.overlay h.redemptions h'.uses h'.redemptions (fun _ hl => hl.not_owns hc) fun _ h => h.elim
  keys := h.keys.overlay h.redemptions h'.keys h'.redemptions (fun _ hl => hl.not_owns hc) fun _ h => h.elim

/-- The row of a version that is not new is locked. -/
theorem Invites.owns (h : Invites δ L db) {i i' : InvitationCode} (hi : i ∈ db.invitations)
    (hi' : i' ∈ δ.invitations) (e : i.id = i'.id) : Owns L (.invitation i.id) := by
  rcases h.invitations.version i' hi' with ⟨-, -, -, -, hl⟩ | ⟨hf, -⟩
  · rwa [e]
  · exact absurd e (hf i hi)

/-- **The move stays the same**, whatever the others commit meanwhile. -/
theorem Moves.overlay (h : Moves call db δ) (hδ : Invites δ L db) (h' : Invites δ' M db)
    (hc : Compatible L M) : Moves call (db.overlay δ') δ := by
  have hstays : ∀ {i i' : InvitationCode}, i ∈ db.invitations → i' ∈ δ.invitations → i.id = i'.id →
      i ∈ (db.overlay δ').invitations := fun hi hi' e =>
    h'.invitations.mem_overlay hi ((hδ.owns hi hi' e).not_owns hc)
  cases h with
  | idle hi hr hm => exact .idle hi hr hm
  | generated hn hr hm hi =>
    refine .generated hn hr hm fun i hi' => ⟨?_, (hi i hi').2⟩
    rcases hδ.invitations.version i hi' with ⟨i₀, h₀, e, -, -⟩ | ⟨hf, hl⟩
    · exact absurd e ((hi i hi').1 i₀ h₀)
    · exact h'.invitations.fresh_overlay hf (hl.not_owns hc)
  | revoked hn hr hm i hi ha hδi =>
    have hmem : { i with status := .revoked } ∈ δ.invitations := by
      rw [hδi]
      exact List.mem_cons_self
    exact .revoked hn hr hm i (hstays hi hmem rfl) ha hδi
  | redeemed u hu i r h =>
    have hmem : redeemedInvitation i ∈ δ.invitations := by
      rw [h.invitations]
      exact List.mem_cons_self
    exact .redeemed u hu i r { h with mem := hstays h.mem hmem rfl }

/-! ## The invariant -/

theorem Redeems.redemptionsOf {u : Use} {i : InvitationCode} {r : InvitationRedemption}
    (h : Redeems u i r db δ) (hδ : Invites δ L db) (j : InvitationCode) :
    (db.overlay δ).redemptionsOf j = db.redemptionsOf j ++ if i.id = j.id then [r] else [] := by
  have hover : (db.overlay δ).redemptions = db.redemptions ++ [r] := by
    show overlay _ _ _ = _
    rw [hδ.redemptions.overlay_append, h.redemptions]
  rw [Store.redemptionsOf, hover, List.filter_append, Store.redemptionsOf]
  congr 1
  by_cases hij : i.id = j.id
  · simp [h.row.1, hij]
  · simp [h.row.1, hij]

theorem Accounted.of_redemptions {i : InvitationCode} {db' : Store} (h : Accounted i db)
    (e : db'.redemptions = db.redemptions) : Accounted i db' := by
  refine ⟨?_, h.bounded, h.used⟩
  rw [h.counted, Store.redemptionsOf, Store.redemptionsOf, e]

theorem Accounted.redeemed {i : InvitationCode} (h : Accounted i db) (hleft : i.usedCount < i.maxUses)
    {db' : Store} (hn : (db'.redemptionsOf i).length = (db.redemptionsOf i).length + 1) :
    Accounted (redeemedInvitation i) db' := by
  have hcount := h.counted
  refine ⟨?_, ?_, fun _ => ?_⟩
  · show i.usedCount + 1 = ((db'.redemptionsOf i).length : Int)
    rw [hn]
    omega
  · show i.usedCount + 1 ≤ i.maxUses
    omega
  · show (if i.maxUses ≤ i.usedCount + 1 then InvitationStatus.used else .active) = .used ↔
      i.usedCount + 1 = i.maxUses
    split
    · exact ⟨fun _ => by omega, fun _ => rfl⟩
    · exact ⟨fun e => (nomatch e), fun e => by omega⟩

/-- An invitation of after is accounted for. -/
theorem Moves.accounted (h : Moves call db δ) (hδ : Invites δ L db) (hdb : Tables db₀ db)
    {i : InvitationCode} (hi : i ∈ (db.overlay δ).invitations)
    (hv : ∀ i₀ ∈ db₀.invitations, i₀.id ≠ i.id) : Accounted i (db.overlay δ) := by
  have hsame : δ.redemptions = [] → (db.overlay δ).redemptions = db.redemptions := fun e => by
    simp [Store.overlay, e]
  cases h with
  | idle hi' hr _ =>
    rw [Store.overlay, hi', overlay_nil] at hi
    exact (hdb.accounted i hi hv).of_redemptions (hsame hr)
  | generated _ hr _ hnew =>
    rcases mem_overlay.1 hi with ⟨hi, -⟩ | hi
    · exact (hdb.accounted i hi hv).of_redemptions (hsame hr)
    · obtain ⟨hf, hcount, hactive, hmax⟩ := hnew i hi
      have hnone : (db.overlay δ).redemptionsOf i = [] := by
        rw [Store.redemptionsOf, hsame hr]
        refine List.filter_eq_nil_iff.2 fun r hr => ?_
        obtain ⟨i₀, h₀, e⟩ := hdb.known r hr
        simpa [← e] using hf i₀ h₀
      refine ⟨by rw [hnone, hcount]; rfl, by omega, fun _ => ?_⟩
      rw [hactive, hcount]
      exact ⟨fun e => (nomatch e), fun e => by omega⟩
  | revoked _ hr _ j hj ha hδj =>
    rcases mem_overlay.1 hi with ⟨hi, -⟩ | hi
    · exact (hdb.accounted i hi hv).of_redemptions (hsame hr)
    · rw [hδj, List.mem_singleton] at hi
      subst hi
      have hacc := (hdb.accounted j hj hv).of_redemptions (hsame hr)
      exact ⟨hacc.counted, hacc.bounded, fun hne => absurd rfl hne⟩
  | redeemed u hu j r h =>
    rcases mem_overlay.1 hi with ⟨hi, hne⟩ | hi
    · have hother : j.id ≠ i.id := hne (redeemedInvitation j)
        (by rw [h.invitations]; exact List.mem_cons_self)
      refine ⟨?_, (hdb.accounted i hi hv).bounded, (hdb.accounted i hi hv).used⟩
      rw [(hdb.accounted i hi hv).counted, h.redemptionsOf hδ, if_neg hother, List.append_nil]
    · rw [h.invitations, List.mem_singleton] at hi
      subst hi
      refine (hdb.accounted j h.mem hv).redeemed h.left ?_
      rw [h.redemptionsOf hδ, if_pos rfl, List.length_append, List.length_singleton]

/-- **The tables stay in agreement.** -/
theorem Tables.overlay (hdb : Tables db₀ db) (hδ : Invites δ L db) (h : Moves call db δ) :
    Tables db₀ (db.overlay δ) where
  invitationIds := hδ.invitations.uniqueBy hdb.invitationIds
  redemptionIds := hδ.redemptions.uniqueBy hdb.redemptionIds
  uses := hδ.uses.uniqueBy hdb.uses
  keys := hδ.keys.uniqueBy hdb.keys
  known r hr := by
    have hstays : (∃ i ∈ db.invitations, i.id = r.invitationId) →
        ∃ i ∈ (db.overlay δ).invitations, i.id = r.invitationId := fun ⟨i, hi, e⟩ => by
      obtain ⟨i', hi', e', -⟩ := hδ.invitations.version_overlay keepInvitation.refl
        hdb.invitationIds hi
      exact ⟨i', hi', e'.trans e⟩
    rcases mem_overlay.1 hr with ⟨hr, -⟩ | hr
    · exact hstays (hdb.known r hr)
    · cases h with
      | idle _ hr' _ | generated _ hr' _ _ | revoked _ hr' _ _ _ _ _ =>
        rw [hr'] at hr
        cases hr
      | redeemed u hu i r' h =>
        rw [h.redemptions, List.mem_singleton] at hr
        subst hr
        exact hstays ⟨i, h.mem, h.row.1.symm⟩
  kept i₀ h₀ := by
    obtain ⟨i, hi, e⟩ := hdb.kept i₀ h₀
    obtain ⟨i', hi', e', -⟩ := hδ.invitations.version_overlay keepInvitation.refl hdb.invitationIds hi
    exact ⟨i', hi', e'.trans e⟩
  accounted _ hi hv := h.accounted hδ hdb hi hv

/-- **What the calls keep to**: the event of a commit is its call. -/
def accounting (db₀ : Store) : Discipline Site Store Lock InvitationCall where
  inv := Tables db₀
  step L db call db' := ∃ δ, db' = db.overlay δ ∧ Invites δ L db ∧ Moves call db δ
  allowed _ _ := True
  step_inv := by
    rintro L db call _ hdb ⟨δ, rfl, hδ, h⟩
    exact hdb.overlay hδ h

end Sakura.Queue
