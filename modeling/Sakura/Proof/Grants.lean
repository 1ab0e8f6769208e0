/-
  The transactions that grant membership time.

  * `assignMembership_runs`, `redeemInvitation_runs`, `processBatchItem_runs`: each keeps to the
    discipline, and what it grants extends the current membership.
-/
import Sakura.Proof.Membership
import Sakura.Batch

namespace Sakura

open Txn

variable {G : Scope} {α β : Type} {db : DB} {c : Moment} {δ : Versions}
  {ms : List AccountMembership} {m : AccountMembership} {days : Int64}

/-- A commit of memberships and of rows that nothing depends on. -/
theorem Assigned.lawful (h : At G c { δ with memberships := ms }) (ha : Assigned G c.db ms m days)
    (hs : m.source ≠ "wallet_purchase") (hδ : δ.ledger = .empty ∧ δ.rechargeOrders = [] ∧
      δ.rechargeRefunds = [] ∧ δ.purchases = []) :
    Lawful G c.db { δ with memberships := ms } := by
  obtain ⟨e₁, e₂, e₃, e₄⟩ := hδ
  refine { links := h.links, solvent := h.solvent (by simp [e₁, Ledger.empty])
           plans := ha.plans h.inv, stored := ha.storedTimes h.inv, grants := ha.grants h.inv
           bought := ha.bought h.inv h.respects fun e => absurd e hs
           posted := ?_, keys := ?_, purpose := ?_, orders := ?_, settled := ?_, purchases := ?_
           refundOrders := ?_, refunds := ?_ }
  all_goals simp [e₁, e₂, e₃, e₄, Ledger.empty]

theorem assignMembership_runs (h : Inv G db) {fresh : Fresh} {accountID planID : UUID} {startsAt : Int}
    {durationDays : Int64} {source sourceRef : String} {actor : Actor}
    (hs : source ≠ "wallet_purchase") (hfit : G.grants accountID → durationDays.toInt ≤ maxDays) :
    Runs G (assignMembership fresh accountID planID startsAt durationDays source sourceRef actor)
      (fun _ _ => True) { db := db } := by
  unfold assignMembership
  refine wp_bind.2 (assignMembershipTx_runs (At.start h) rfl hfit
    fun c₁ ms m membership h₁ _ hA _ hacc hsrc _ _ => ?_)
  refine h₁.publish_bind fun c₂ h₂ l₂ => ?_
  have hA := hA.later h₁ l₂
  refine ⟨hA.lawful h₂ (hsrc ▸ hs) ⟨rfl, rfl, rfl, rfl⟩, hA.extends h₂.inv fun i => ?_, fun _ => trivial⟩
  rw [hacc]; rfl

theorem invitation_source (k : InvitationKind) : "invitation_" ++ k.text ≠ "wallet_purchase" := by
  cases k <;> decide

/-- A commit that has written none of the tables that the invariant is about. -/
theorem At.lawful_untracked (h : At G c δ) (hδ : δ.ledger = .empty ∧ δ.rechargeOrders = [] ∧
    δ.rechargeRefunds = [] ∧ δ.purchases = [] ∧ δ.memberships = []) : Lawful G c.db δ := by
  obtain ⟨e₁, e₂, e₃, e₄, e₅⟩ := hδ
  refine { links := h.links, solvent := h.solvent (by simp [e₁, Ledger.empty]), grants := h.grants e₅
           posted := ?_, keys := ?_, purpose := ?_, orders := ?_, settled := ?_, purchases := ?_
           bought := ?_, plans := ?_, stored := ?_, refundOrders := ?_, refunds := ?_ }
  all_goals simp [e₁, e₂, e₃, e₄, e₅, Ledger.empty]

theorem overlay_redemption (r : InvitationRedemption) :
    (db.overlay δ).overlay { redemptions := [r] } =
      db.overlay { δ with redemptions := put InvitationRedemption.id δ.redemptions r } := by
  simp [DB.overlay_overlay, Versions.overlay, put]

theorem overlay_invitation (i : InvitationCode) :
    (db.overlay δ).overlay { invitations := [i] } =
      db.overlay { δ with invitations := put InvitationCode.id δ.invitations i } := by
  simp [DB.overlay_overlay, Versions.overlay, put]

theorem scanMembership_days {id : UUID} {v : DB} {membership : Membership}
    (h : scanMembership id v = some membership) : membership.days = 0 := by
  simp only [scanMembership, Option.bind_eq_bind, Option.bind_eq_some_iff] at h
  obtain ⟨_, -, _, -, h⟩ := h
  cases h
  rfl

theorem redeemInvitation_runs (h : Inv G db) {fresh : Fresh} {accountID : UUID}
    {code key : String} {actor : Actor} :
    Runs G (redeemInvitation fresh accountID code key actor) (fun _ _ => True) { db := db } := by
  have h₀ := At.start h
  unfold redeemInvitation redeemInvitationTx
  refine wp_bind.2 ?_
  refine h₀.check_bind fun _ => ?_
  refine h₀.selectLock_orFail_bind fun c₁ invitation h₁ _ _ _ _ => ?_
  refine h₁.select_bind fun c₂ h₂ _ => ?_
  split
  · refine h₂.selectOne_bind fun c₃ h₃ _ membership hm => ?_
    refine h₃.publish_bind (k := fun _ => pure membership) fun c₄ h₄ _ =>
      ⟨h₄.lawful_untracked ⟨rfl, rfl, rfl, rfl, rfl⟩, .none (fun i => ?_) rfl, fun _ => trivial⟩
    simp only [granted, scanMembership_days hm]
    split <;> rfl
  · refine h₂.check_bind fun _ => ?_
    refine wp_bind.2 (assignMembershipTx_runs h₂ rfl (fun _ => by decide)
      fun c₃ ms m membership h₃ _ hA _ hacc hsrc _ _ => ?_)
    refine h₃.insert_bind fun c₄ h₄ l₄ _ c₅ hc₅ l₅ _ => ?_
    have hA := hA.later h₃ l₅
    obtain ⟨R, h₅⟩ : ∃ R, At G c₅ { memberships := ms, redemptions := R } := by
      subst hc₅
      exact ⟨_, h₄.untracked (fun _ => overlay_redemption _) ⟨rfl, rfl, rfl, rfl, rfl, rfl⟩⟩
    have hcommit : ∀ c I, At G c { memberships := ms, redemptions := R, invitations := I } →
        Later G c₅ c → Runs G (do
          Prog.publish (.grant accountID membership.days)
          pure membership) (fun _ _ => True) c := by
      intro c I h l
      refine h.publish_bind fun c' h' l' => ?_
      have hA := hA.later (δ := { redemptions := R }) h₅ (l.trans l')
      refine ⟨hA.lawful (δ := { redemptions := R, invitations := I }) h' ?_ ⟨rfl, rfl, rfl, rfl⟩,
        hA.extends (δ := { redemptions := R, invitations := I }) h'.inv fun i => ?_, fun _ => trivial⟩
      · rw [hsrc]; exact invitation_source _
      · rw [hacc]; rfl
    refine h₅.updateRow_bind (fun c₆ h₆ l₆ _ => hcommit c₆ [] h₆ l₆)
      fun c₆ r h₆ l₆ _ _ c₇ hc₇ l₇ _ => ?_
    obtain ⟨I, h₇⟩ : ∃ I, At G c₇ { memberships := ms, redemptions := R, invitations := I } := by
      subst hc₇
      exact ⟨_, h₆.untracked (fun _ => overlay_invitation _) ⟨rfl, rfl, rfl, rfl, rfl, rfl⟩⟩
    exact hcommit c₇ I h₇ l₇

/-! ## Batch items -/

theorem overlay_batchItem (i : BatchItem) :
    (db.overlay δ).overlay { batchItems := [i] } =
      db.overlay { δ with batchItems := put BatchItem.id δ.batchItems i } := by
  simp [DB.overlay_overlay, Versions.overlay, put]

theorem overlay_tagAssignment (t : TagAssignment) :
    (db.overlay δ).overlay { tagAssignments := [t] } =
      db.overlay { δ with tagAssignments := put TagAssignment.key δ.tagAssignments t } := by
  simp [DB.overlay_overlay, Versions.overlay, put]

theorem overlay_notification (n : AccountNotification) :
    (db.overlay δ).overlay { notifications := [n] } =
      db.overlay { δ with notifications := put AccountNotification.key δ.notifications n } := by
  simp [DB.overlay_overlay, Versions.overlay, put]

theorem updateItem_runs (h : At G c δ) {id : Nat} {p : BatchItem → Bool} {set : BatchItem → BatchItem}
    {Q : Nat → Moment → Prop}
    (hQ : ∀ c' n I, At G c' { δ with batchItems := I } → Later G c c' → Q n c') :
    Runs G (updateItem id p set) Q c := by
  refine h.select_bind fun c₁ h₁ l₁ => ?_
  split
  · exact hQ c₁ 0 δ.batchItems h₁ l₁
  · refine wp_bind.1 (h₁.exec_bind (k := pure) fun c₂ h₂ l₂ _ a ha => ?_)
    cases hf : (c₂.db.overlay δ).batchItems.find? fun i => i.id = id && p i with
    | none => exact hQ _ a δ.batchItems (h₂.lock fun _ => rfl) ((l₁.trans l₂).trans .apply)
    | some i =>
      refine hQ _ a _ (h₂.untracked (fun _ => overlay_batchItem _) ?_) ((l₁.trans l₂).trans .apply)
      exact ⟨rfl, rfl, rfl, rfl, rfl, rfl⟩

theorem notificationAllowedTx_runs (h : At G c δ) {accountID : UUID} {eventKey channel : String}
    {Q : Bool → Moment → Prop} (hQ : ∀ c' b, At G c' δ → Later G c c' → Q b c') :
    Runs G (notificationAllowedTx accountID eventKey channel) Q c := by
  refine h.select_bind fun c₁ h₁ l₁ => ?_
  split
  · exact hQ c₁ true h₁ l₁
  · exact hQ c₁ _ h₁ l₁

/-- The effect of an item: rows that nothing depends on, or a grant. -/
theorem itemEffect_runs {I : List BatchItem} (h : At G c { batchItems := I }) {fresh : Fresh}
    {operation : BatchOperation} {accountID : UUID} {actor : Actor}
    (hfit : G.grants accountID → operation.payload.durationDays.toInt ≤ maxDays)
    {Q : Option (UUID × Int64) → Moment → Prop}
    (hnone : ∀ c' T N, At G c' { batchItems := I, tagAssignments := T, notifications := N } →
      Later G c c' → Q none c')
    (hsome : ∀ c' ms m d, At G c' { batchItems := I, memberships := ms } → Later G c c' →
      Assigned G c'.db ms m d → m.accountId = accountID → m.source = "batch_adjustment" →
      Q (some (accountID, d)) c') :
    Runs G (itemEffect fresh operation accountID actor) Q c := by
  unfold itemEffect
  split
  case h_1 =>
    refine h.orFail_bind fun tagID _ => ?_
    refine wp_bind.2 ?_
    refine h.select_bind fun c₁ h₁ l₁ => ?_
    refine h₁.check_bind fun _ => wp_bind.1 ?_
    refine h₁.insertOrIgnore_bind (k := fun _ => pure none) (fun c₂ h₂ l₂ => hnone c₂ [] [] h₂ (l₁.trans l₂))
      fun c₂ h₂ l₂ _ c₃ hc₃ l₃ _ => ?_
    subst hc₃
    exact hnone _ _ [] (h₂.untracked (fun _ => overlay_tagAssignment _)
      ⟨rfl, rfl, rfl, rfl, rfl, rfl⟩) (l₁.trans l₃)
  case h_2 =>
    refine h.orFail_bind fun tagID _ => ?_
    refine wp_bind.2 ?_
    refine h.select_bind fun c₁ h₁ l₁ => ?_
    split
    · exact hnone c₁ [] [] h₁ l₁
    · refine wp_bind.1 (h₁.exec_bind (k := fun _ => pure none) fun c₂ h₂ l₂ _ a ha => ?_)
      split
      · exact hnone _ [] [] (h₂.lock fun _ => rfl) ((l₁.trans l₂).trans .apply)
      · exact hnone _ _ [] (h₂.untracked (fun _ => overlay_tagAssignment _)
          ⟨rfl, rfl, rfl, rfl, rfl, rfl⟩) ((l₁.trans l₂).trans .apply)
  case h_3 =>
    refine h.orFail_bind fun planID _ => ?_
    refine wp_bind.2 (assignMembershipTx_runs h rfl hfit fun c₁ ms m membership h₁ l₁ hA _ hacc hsrc _ _ => ?_)
    exact hsome c₁ ms m membership.days h₁ l₁ hA hacc hsrc
  case h_4 =>
    refine wp_bind.2 ?_
    unfold notify
    refine wp_bind.2 (notificationAllowedTx_runs h fun c₁ allowed h₁ l₁ => ?_)
    cases allowed
    · exact hnone c₁ [] [] h₁ l₁
    · refine h₁.select_bind fun c₂ h₂ l₂ => ?_
      refine h₂.check_bind fun _ => ?_
      refine h₂.check_bind fun _ => wp_bind.1 ?_
      have l₂ := l₁.trans l₂
      refine h₂.insertOrIgnore_bind (k := fun _ => pure none)
        (fun c₃ h₃ l₃ => hnone c₃ [] [] h₃ (l₂.trans l₃)) fun c₃ h₃ l₃ _ c₄ hc₄ l₄ _ => ?_
      subst hc₄
      exact hnone _ [] _ (h₃.untracked (fun _ => overlay_notification _)
        ⟨rfl, rfl, rfl, rfl, rfl, rfl⟩) (l₂.trans l₄)

theorem processBatchItem_runs (h : Inv G db) {fresh : Fresh} {operation : BatchOperation}
    {itemID : Nat} {accountID : UUID} {workerID : String}
    (hfit : G.grants accountID → operation.payload.durationDays.toInt ≤ maxDays) :
    Runs G (processBatchItem fresh operation itemID accountID workerID) (fun _ _ => True)
      { db := db } := by
  unfold processBatchItem
  refine wp_bind.2 (updateItem_runs (At.start h) fun c₁ n I h₁ _ => ?_)
  refine h₁.check_bind fun _ => ?_
  refine wp_bind.2 (itemEffect_runs h₁ hfit (fun c₂ T N h₂ _ => ?_)
    fun c₂ ms m d h₂ _ hA hacc hsrc => ?_)
  · refine wp_bind.2 (updateItem_runs h₂ fun c₃ n I h₃ _ => ?_)
    exact h₃.publish_end (fun c₄ h₄ _ => ⟨h₄.lawful_untracked ⟨rfl, rfl, rfl, rfl, rfl⟩,
      .none (fun _ => rfl) rfl⟩) fun _ => trivial
  · refine wp_bind.2 (updateItem_runs h₂ fun c₃ n I' h₃ l₃ => ?_)
    refine h₃.publish_end (fun c₄ h₄ l₄ => ?_) fun _ => trivial
    have hA := hA.later (δ := { batchItems := I }) h₂ (l₃.trans l₄)
    refine ⟨hA.lawful (δ := { batchItems := I' }) h₄ ?_ ⟨rfl, rfl, rfl, rfl⟩,
      hA.extends (δ := { batchItems := I' }) h₄.inv fun i => ?_⟩
    · rw [hsrc]; decide
    · rw [hacc]; rfl

end Sakura
