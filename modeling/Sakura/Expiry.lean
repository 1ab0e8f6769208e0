/-
  The expiry of a grant, on the four routes to `assignMembershipTx`.

  * `Route`: the routes, with the days that each passes on;
  * `GrantExtends`: the law of a grant, in exact arithmetic;
  * `grant_expiry`: what the transaction computes;
  * `grant_extends_iff`: the grants that keep the law; `wrapped_grant`: one that does not.
-/
import Sakura.Platform
import Sakura.Statements

namespace Sakura

open Txn

/-! ## Routes -/

/-- The case membership_adjust of `validateBatchPayload`. -/
def validAdjustment (payload : BatchPayload) : Bool :=
  1 ≤ payload.durationDays && payload.durationDays ≤ 3650

/-- The days of the admin route are those of the request body. -/
inductive Route where
  | admin (durationDays : Int64)
  | invitation
  | purchase (product : MembershipProduct)
  | batch (payload : BatchPayload) (valid : validAdjustment payload)

def Route.durationDays : Route → Int64
  | .admin durationDays => durationDays
  | .invitation => 0
  | .purchase product => product.durationDays
  | .batch payload _ => payload.durationDays

/-- The days given if they are positive, and those of the plan otherwise. -/
def grantDays (durationDays : Int64) (plan : MembershipPlan) : Int64 :=
  if durationDays ≤ 0 then plan.durationDays else durationDays

/-- The days given fit the nanoseconds of a `time.Duration`. -/
def Route.Bounded (route : Route) : Prop := route.durationDays.toInt ≤ maxDays

/-- Only the admin route can exceed the bound. -/
theorem Route.bounded : ∀ {route : Route}, (∀ d, route ≠ .admin d) → route.Bounded
  | .admin d, h => absurd rfl (h d)
  | .invitation, _ => by
    show (0 : Int64).toInt ≤ maxDays
    decide
  | .purchase product, _ => by
    have h := Int64.le_iff_toInt_le.1 product.durationDays_range.2
    show product.durationDays.toInt ≤ maxDays
    exact Int.le_trans h (by decide)
  | .batch payload valid, _ => by
    unfold validAdjustment at valid
    simp only [Bool.and_eq_true, decide_eq_true_eq] at valid
    have h := Int64.le_iff_toInt_le.1 valid.2
    show payload.durationDays.toInt ≤ maxDays
    exact Int.le_trans h (by decide)

/-! ## The law -/

/-- The expiry of the current membership. -/
def currentExpiry (v : DB) (accountID : UUID) : Option Time :=
  (v.memberships.find? fun m => m.accountId = accountID && m.current).map (·.expiresAt)

/-- Where a grant begins: at `start`, or at the end of the current membership if that is later. -/
def grantBase (v : DB) (accountID : UUID) (start : Time) : Time :=
  (currentExpiry v accountID).elim start (max start)

/-- A grant of `d` days from `start` on. -/
structure GrantExtends (v : DB) (accountID : UUID) (start : Time) (d : Int) (expiry : Time) : Prop where
  exact : expiry = grantBase v accountID start + d * dayNanos
  afterStart : start < expiry
  afterCurrent : ∀ t ∈ currentExpiry v accountID, t < expiry

theorem le_grantBase (v : DB) (accountID : UUID) (start : Time) :
    start ≤ grantBase v accountID start ∧
      ∀ t ∈ currentExpiry v accountID, t ≤ grantBase v accountID start := by
  unfold grantBase
  cases currentExpiry v accountID with
  | none => exact ⟨Int.le_refl _, fun _ h => (nomatch h)⟩
  | some t =>
    refine ⟨Int.le_max_left _ _, fun t' h => ?_⟩
    cases h
    exact Int.le_max_right _ _

/-- The law holds if the days are positive and their nanoseconds are exact. -/
theorem grantExtends_iff {v : DB} {accountID : UUID} {start : Time} {d : Int64} (hd : 0 < d.toInt) :
    GrantExtends v accountID start d.toInt (grantBase v accountID start + (days d).toInt) ↔
      (days d).toInt = d.toInt * dayNanos := by
  constructor
  · intro h
    exact Int.add_left_cancel h.exact
  · intro h
    have hpos : 0 < d.toInt * dayNanos := Int.mul_pos hd (by decide)
    obtain ⟨hs, hc⟩ := le_grantBase v accountID start
    rw [h]
    refine ⟨rfl, ?_, fun t ht => ?_⟩
    · exact Int.lt_of_le_of_lt hs (Int.lt_add_of_pos_right _ hpos)
    · exact Int.lt_of_le_of_lt (hc t ht) (Int.lt_add_of_pos_right _ hpos)

/-- Days that are too many wrap around. -/
theorem days_exact_iff {d : Int64} (hd : 0 ≤ d.toInt) :
    (days d).toInt = d.toInt * dayNanos ↔ d.toInt ≤ maxDays := by
  refine ⟨fun h => ?_, days_exact hd⟩
  have hlt := Int64.toInt_lt (days d)
  rw [h] at hlt
  unfold dayNanos at hlt
  unfold maxDays
  omega

/-! ## The transaction -/

variable {fresh : Fresh} {accountID planID : UUID} {startsAt : Time} {durationDays : Int64}
  {source sourceRef : String} {actor : Actor} {v v' : DB} {m : Membership}

theorem grantBase_of_current {start : Time} : ∀ {current : Option AccountMembership},
    (current = v.memberships.find? fun m => m.accountId = accountID && m.current) →
    (match current with
      | some m => if start < m.expiresAt then m.expiresAt else start
      | none => start) = grantBase v accountID start := by
  intro current h
  unfold grantBase currentExpiry
  rw [← h]
  cases current with
  | none => rfl
  | some m =>
    show (if start < m.expiresAt then m.expiresAt else start) = max start m.expiresAt
    split
    · next hlt => exact (max_eq_right (Int.le_of_lt hlt)).symm
    · next hle => exact (max_eq_left (Int.not_lt.1 hle)).symm

/-- **What a grant comes to**: the expiry that it returns, and the row that it leaves. -/
theorem grant_expiry (h : (assignMembershipTx fresh accountID planID startsAt durationDays source
    sourceRef actor).run v = some (m, v')) :
    ∃ plan ∈ v.config.membershipPlans, plan.id = planID ∧
      m.expiresAt = grantBase v accountID (if startsAt = 0 then fresh.clock else startsAt) +
        (days (grantDays durationDays plan)).toInt ∧
      ∃ row ∈ v'.memberships, row.id = m.id ∧ row.accountId = accountID ∧ row.current ∧
        row.expiresAt = stored m.expiresAt := by
  unfold assignMembershipTx at h
  obtain ⟨o, v₁, h₁, g₁⟩ := Prog.run_bind_some h
  obtain ⟨hv₁, hplan⟩ := run_selectLock h₁
  obtain ⟨plan, v₂, h₂, g₂⟩ := Prog.run_bind_some g₁
  obtain ⟨ho, hv₂⟩ := Prog.run_orFail_some h₂
  obtain ⟨_, v₃, h₃, g₃⟩ := Prog.run_bind_some g₂
  obtain ⟨-, hv₃⟩ := Prog.run_check_some h₃
  obtain ⟨current, v₄, h₄, g₄⟩ := Prog.run_bind_some g₃
  obtain ⟨hv₄, hcurrent⟩ := run_selectLock h₄
  obtain ⟨ids, v₅, h₅, g₅⟩ := Prog.run_bind_some g₄
  obtain ⟨_, v₆, -, g₆⟩ := Prog.run_bind_some g₅
  obtain ⟨_, v₇, h₇, g₇⟩ := Prog.run_bind_some g₆
  obtain ⟨hfree, hv₇⟩ := Prog.run_exec_some h₇
  cases g₇
  subst hv₁ hv₂ hv₃ hv₄ ho
  have hid := List.find?_some hplan.symm
  refine ⟨plan, List.mem_of_find?_eq_some hplan.symm, of_decide_eq_true hid, ?_, ?_⟩
  · exact congrArg (· + _) (grantBase_of_current hcurrent)
  · rw [hv₇]
    unfold insertEffects at hfree ⊢
    split
    · next htaken =>
      rw [if_pos htaken] at hfree
      cases hfree
    · exact ⟨_, mem_overlay_right (List.mem_singleton_self _), rfl, rfl, rfl, rfl⟩

/-- **A grant only ever extends a membership**, if and only if the days that its route passes on are
at most 106751. -/
theorem grant_extends_iff {route : Route}
    (h : (assignMembershipTx fresh accountID planID startsAt route.durationDays source sourceRef
      actor).run v = some (m, v')) :
    ∃ plan ∈ v.config.membershipPlans, plan.id = planID ∧
      (GrantExtends v accountID (if startsAt = 0 then fresh.clock else startsAt)
          (grantDays route.durationDays plan).toInt m.expiresAt ↔ route.Bounded) ∧
      ∃ row ∈ v'.memberships, row.id = m.id ∧ row.accountId = accountID ∧ row.current ∧
        row.expiresAt = stored m.expiresAt := by
  obtain ⟨plan, hplan, hid, hexpiry, hrow⟩ := grant_expiry h
  refine ⟨plan, hplan, hid, ?_, hrow⟩
  rw [hexpiry]
  generalize (if startsAt = 0 then fresh.clock else startsAt) = start
  unfold Route.Bounded grantDays
  have hlo := Int64.le_iff_toInt_le.1 plan.durationDays_range.1
  have hhi := Int64.le_iff_toInt_le.1 plan.durationDays_range.2
  split
  · next hd =>
    have hd := Int64.le_iff_toInt_le.1 hd
    have hpos : 0 < plan.durationDays.toInt := Int.lt_of_lt_of_le (by decide) hlo
    have hfits : plan.durationDays.toInt ≤ maxDays := Int.le_trans hhi (by decide)
    exact iff_of_true ((grantExtends_iff hpos).2 ((days_exact_iff (Int.le_of_lt hpos)).2 hfits))
      (Int.le_trans hd (by decide))
  · next hd =>
    have hpos : (0 : Int64).toInt < route.durationDays.toInt :=
      Int64.lt_iff_toInt_lt.1 (Int64.not_le.1 hd)
    exact (grantExtends_iff hpos).trans (days_exact_iff (Int.le_of_lt hpos))

/-- A grant to the shop's account on the first day. -/
def firstGrant (route : Route) : Call Membership :=
  assignMembershipTx (freshOf '0' '0' '0' '0' '0' '6' dayNanos) (idOf '1') (idOf '3') dayNanos
    route.durationDays "admin" "" ⟨"admin", "root"⟩

/-- A grant of the shop's plan, by an invitation. -/
theorem grant_extends_invitation : ∃ m v', (firstGrant .invitation).run (shop []) = some (m, v') ∧
    ∃ plan ∈ (shop []).config.membershipPlans, plan.id = idOf '3' ∧
      (GrantExtends (shop []) (idOf '1') (if dayNanos = 0 then dayNanos else dayNanos)
          (grantDays Route.invitation.durationDays plan).toInt m.expiresAt ↔
        Route.invitation.Bounded) ∧
      ∃ row ∈ v'.memberships, row.id = m.id ∧ row.accountId = idOf '1' ∧ row.current ∧
        row.expiresAt = stored m.expiresAt := by
  have hsome : ((firstGrant .invitation).run (shop [])).isSome := by decide +kernel
  obtain ⟨⟨m, v'⟩, h⟩ := Option.isSome_iff_exists.1 hsome
  exact ⟨m, v', h, grant_extends_iff h⟩

/-- A grant of 106752 days on the admin route ends before it begins. -/
theorem wrapped_grant : ¬∀ (fresh : Fresh) (accountID planID : UUID) (startsAt : Time) (route : Route)
    (source sourceRef : String) (actor : Actor) (v v' : DB) (m : Membership),
    (assignMembershipTx fresh accountID planID startsAt route.durationDays source sourceRef
      actor).run v = some (m, v') →
    ∃ plan ∈ v.config.membershipPlans, plan.id = planID ∧
      GrantExtends v accountID (if startsAt = 0 then fresh.clock else startsAt)
        (grantDays route.durationDays plan).toInt m.expiresAt := by
  intro h
  have hends : ((firstGrant (.admin 106752)).run (shop [])).any
      (fun r => decide (r.1.expiresAt < dayNanos)) = true := by decide +kernel
  cases hr : (firstGrant (.admin 106752)).run (shop []) with
  | none =>
    rw [hr] at hends
    cases hends
  | some r =>
    obtain ⟨_, _, _, hext⟩ := h _ _ _ _ (.admin 106752) _ _ _ _ r.2 r.1 hr
    rw [hr] at hends
    exact absurd hext.afterStart (Int.not_lt.2 (Int.le_of_lt (of_decide_eq_true hends)))

end Sakura
