/-
  Invitation accounting.

  * `Holding`: what a transaction has written to the three tables; `Ready`: it may be committed;
  * `newRedemption_ready`, `redeemInvitationTx_ready`: a redemption is ready when it returns;
  * `InvitationCall.keeps`: every call keeps to the discipline;
  * `Proper`: what a commit must not do;
  * `invitations_accounted`: in every run, invitations are accounted for, and commits are proper.
-/
import Sakura.Emby.Invitations

namespace Sakura.Queue

open Txn

variable {db₀ db : Store} {δ δ₀ : Versions} {L M : Held Lock} {call : InvitationCall}
  {c : Ctx Store Lock InvitationCall} {K : Held Lock → Store → Prop} {label : Event → InvitationCall}

/-! ## Knowledge of a transaction -/

/-- The locked row of the invitation. -/
def Locked (i : InvitationCode) (L : Held Lock) (db : Store) : Prop :=
  Owns L (.invitation i.id) ∧ i ∈ db.invitations

/-- The entries of the row are free, and locked. -/
structure RedemptionRoom (r : InvitationRedemption) (L : Held Lock) (db : Store) : Prop where
  idLock : Owns L (.redemption r.id)
  useLock : Owns L (.redemptionUse r.invitationId r.accountId)
  keyLock : Owns L (.redemptionKey r.idempotencyKey)
  free : ∀ r₀ ∈ db.redemptions, r₀.id ≠ r.id
  unused : ∀ r₀ ∈ db.redemptions, redemptionUse r₀ ≠ redemptionUse r
  unkeyed : ∀ r₀ ∈ db.redemptions, r₀.idempotencyKey ≠ r.idempotencyKey

theorem keeps_locked {i : InvitationCode} : (accounting db₀).Keeps (Locked i) where
  mono hLM h := ⟨h.1.mono hLM, h.2⟩
  step := by
    rintro L M db e _ - hc ⟨δ, rfl, hδ, -⟩ h
    exact ⟨h.1, hδ.invitations.mem_overlay h.2 (h.1.not_owns hc)⟩

theorem keeps_redemptionRoom {r : InvitationRedemption} :
    (accounting db₀).Keeps (RedemptionRoom r) where
  mono hLM h := ⟨h.idLock.mono hLM, h.useLock.mono hLM, h.keyLock.mono hLM, h.free, h.unused,
    h.unkeyed⟩
  step := by
    rintro L M db e _ - hc ⟨δ, rfl, hδ, -⟩ h
    exact ⟨h.idLock, h.useLock, h.keyLock,
      hδ.redemptions.fresh_overlay h.free (h.idLock.not_owns hc),
      hδ.uses.fresh_overlay h.unused (h.useLock.not_owns hc),
      hδ.keys.fresh_overlay h.unkeyed (h.keyLock.not_owns hc)⟩

theorem keeps_ready : (accounting db₀).Keeps fun L db => Invites δ L db ∧ Moves call db δ where
  mono hLM h := ⟨h.1.mono hLM, h.2⟩
  step := by
    rintro L M db e _ - hc ⟨δ', rfl, hδ', -⟩ h
    exact ⟨h.1.overlay hδ' hc, h.2.overlay h.1 hδ' hc⟩

/-- The same versions of invitations, redemptions and memberships. -/
def SameTables (δ₀ δ : Versions) : Prop :=
  δ.invitations = δ₀.invitations ∧ δ.redemptions = δ₀.redemptions ∧ δ.memberships = δ₀.memberships

theorem Invites.congr (h : Invites δ₀ L db) (e : SameTables δ₀ δ) : Invites δ L db := by
  obtain ⟨hi, hr, -⟩ := e
  constructor
  case invitations => rw [hi]; exact h.invitations
  case redemptions => rw [hr]; exact h.redemptions
  case uses => rw [hr]; exact h.uses
  case keys => rw [hr]; exact h.keys

theorem Moves.congr (h : Moves call db δ₀) (e : SameTables δ₀ δ) : Moves call db δ := by
  obtain ⟨hi, hr, hm⟩ := e
  cases h with
  | idle hi' hr' hm' => exact .idle (hi.trans hi') (hr.trans hr') (hm.trans hm')
  | generated hn hr' hm' hi' => exact .generated hn (hr.trans hr') (hm.trans hm') (hi ▸ hi')
  | revoked hn hr' hm' i hi' ha hδ =>
    exact .revoked hn (hr.trans hr') (hm.trans hm') i hi' ha (hi.trans hδ)
  | redeemed u hu i r h =>
    exact .redeemed u hu i r { h with
      invitations := hi.trans h.invitations
      redemptions := hr.trans h.redemptions
      granted := hm ▸ h.granted }

/-- The transaction has written the versions `δ₀` of the three tables, and knows `K`. -/
def Holding (db₀ : Store) (δ₀ : Versions) (K : Held Lock → Store → Prop)
    (c : Ctx Store Lock InvitationCall) : Prop :=
  ∃ δ, SameTables δ₀ δ ∧ Knows (accounting db₀) c δ K

/-- The transaction has written none of the three tables. -/
abbrev Idle (db₀ : Store) : Ctx Store Lock InvitationCall → Prop := Holding db₀ {} fun _ _ => True

/-- The transaction may be committed. -/
def Ready (db₀ : Store) (call : InvitationCall) (c : Ctx Store Lock InvitationCall) : Prop :=
  ∃ δ₀, Holding db₀ δ₀ (fun L db => Invites δ₀ L db ∧ Moves call db δ₀) c

theorem Invites.none : Invites {} L db := ⟨.nil, .nil, .nil, .nil⟩

theorem Idle.ready (h : Idle db₀ c) : Ready db₀ call c := by
  obtain ⟨δ, e, h⟩ := h
  exact ⟨{}, δ, e, ⟨h.wrote, h.inv, ⟨.none, .idle rfl rfl rfl⟩, keeps_ready⟩⟩

theorem Idle.start {done : List InvitationCall} (hdb : Tables db₀ db) :
    Idle db₀ ({ db, done } : Ctx Store Lock InvitationCall) :=
  ⟨{}, ⟨rfl, rfl, rfl⟩, .start hdb⟩

/-! ## Statements on other tables -/

def Elsewhere (_ : Store) (f : Effect Store Lock) : Prop :=
  f.write = id ∨ ∃ d : Versions, (f.write = fun s => Layers.lay s d) ∧ SameTables {} d

theorem elsewhere_lock (v : Store) (L : Held Lock) : Elsewhere v { locks := L } := Or.inl rfl

theorem sameTables_merge {d : Versions} (e : SameTables δ₀ δ) (hd : SameTables {} d) :
    SameTables δ₀ (Layers.merge Store δ d) := by
  obtain ⟨hi, hr, hm⟩ := e
  obtain ⟨hi', hr', hm'⟩ := hd
  refine ⟨?_, ?_, ?_⟩
  · show overlay _ δ.invitations d.invitations = _
    rw [hi', overlay_nil, hi]
  · show overlay _ δ.redemptions d.redemptions = _
    rw [hr', overlay_nil, hr]
  · show overlay _ δ.memberships d.memberships = _
    rw [hm', overlay_nil, hm]

theorem Holding.waits {c' : Ctx Store Lock InvitationCall} (h : Holding db₀ δ₀ K c)
    (hw : c.Waits (accounting db₀) c') : Holding db₀ δ₀ K c' := by
  obtain ⟨δ, e, h⟩ := h
  exact ⟨δ, e, h.waits hw⟩

theorem Holding.apply {f : Effect Store Lock} (h : Holding db₀ δ₀ K c) (hf : Elsewhere c.view f) :
    Holding db₀ δ₀ K (c.apply f) := by
  obtain ⟨δ, e, h⟩ := h
  obtain ⟨locks, write⟩ := f
  rcases hf with hf | ⟨d, hf, hd⟩
  · cases hf
    exact ⟨δ, e, h.lock⟩
  · cases hf
    exact ⟨_, sameTables_merge e hd, h.write rfl h.keeps
      (h.keeps.mono (List.subset_append_left _ _) h.known)⟩

/-- A part of a transaction that writes elsewhere. -/
theorem elsewhere_keeps {α : Type} {p : Call α} (hp : p.Statements Elsewhere)
    (h : Holding db₀ δ₀ K c) {Q : α → Ctx Store Lock InvitationCall → Prop}
    (hQ : ∀ a c', Holding db₀ δ₀ K c' → Q a c') :
    wp (accounting db₀) (p.label label) Q (fun _ _ => True) c :=
  wp_mono (fun a c' h' => hQ a c' h') (fun _ _ _ => trivial)
    (wp_statements Holding.waits (fun h hf => h.apply hf) hp.label h)

/-- The same of a transaction that is ready. -/
theorem Ready.elsewhere {α : Type} {p : Call α} (hp : p.Statements Elsewhere) (h : Ready db₀ call c)
    {Q : α → Ctx Store Lock InvitationCall → Prop} (hQ : ∀ a c', Ready db₀ call c' → Q a c') :
    wp (accounting db₀) (p.label label) Q (fun _ _ => True) c := by
  obtain ⟨δ₀, h⟩ := h
  exact elsewhere_keeps hp h fun a c' h' => hQ a c' ⟨δ₀, h'⟩

/-- **The commit** of a transaction that is ready. -/
theorem Ready.publish (h : Ready db₀ call c) {e : Event} (he : label e = call)
    {Q : Unit → Ctx Store Lock InvitationCall → Prop} (hQ : ∀ c', Idle db₀ c' → Q () c') :
    wp (accounting db₀) ((.publish e : Call Unit).label label) Q (fun _ _ => True) c := by
  obtain ⟨δ₀, δ, hs, h⟩ := h
  rw [Prog.label_publish, he]
  exact h.publish Discipline.keeps_true
    (fun L db _ hk => ⟨⟨δ, rfl, hk.1.congr hs, hk.2.congr hs⟩, trivial⟩)
    fun c' h' => hQ c' ⟨_, ⟨rfl, rfl, rfl⟩, h'⟩

/-! ## Redemptions -/

/-- Only memberships and tables elsewhere are written. -/
def Grants (_ : Store) (f : Effect Store Lock) : Prop :=
  f.write = id ∨ ∃ d : Versions, d.invitations = [] ∧ d.redemptions = [] ∧
    f.write = fun s => Layers.lay s d

theorem grants_lock (v : Store) (L : Held Lock) : Grants v { locks := L } := Or.inl rfl

/-- A transaction that has granted memberships at most. -/
def Granting (db₀ : Store) (K : Held Lock → Store → Prop) (c : Ctx Store Lock InvitationCall) : Prop :=
  ∃ δ, δ.invitations = [] ∧ δ.redemptions = [] ∧ Knows (accounting db₀) c δ K

theorem grants_keeps {α : Type} {p : Call α} (hp : p.Statements Grants) (h : Granting db₀ K c)
    {Q : α → Ctx Store Lock InvitationCall → Prop} (hQ : ∀ a c', Granting db₀ K c' → Q a c') :
    wp (accounting db₀) (p.label label) Q (fun _ _ => True) c := by
  refine wp_mono (fun a c' h' => hQ a c' h') (fun _ _ _ => trivial)
    (wp_statements (fun h hw => ?_) (fun {c f} h hf => ?_) hp.label h)
  · obtain ⟨δ, hi, hr, h⟩ := h
    exact ⟨δ, hi, hr, h.waits hw⟩
  · obtain ⟨δ, hi, hr, h⟩ := h
    obtain ⟨locks, write⟩ := f
    rcases hf with hf | ⟨d, hi', hr', hf⟩
    · cases hf
      exact ⟨δ, hi, hr, h.lock⟩
    · cases hf
      refine ⟨_, ?_, ?_, h.write rfl h.keeps (h.keeps.mono (List.subset_append_left _ _) h.known)⟩
      · show overlay _ δ.invitations d.invitations = _
        rw [hi', overlay_nil, hi]
      · show overlay _ δ.redemptions d.redemptions = _
        rw [hr', overlay_nil, hr]

/-- The membership that is granted is written. -/
theorem assignMembershipTx_grants {fresh : Fresh} {account planID : UUID} {source ref : String}
    {actor : Actor} (h : Granting db₀ K c)
    {Q : AccountMembership × MembershipPlan → Ctx Store Lock InvitationCall → Prop}
    (hQ : ∀ m p c' δ, Knows (accounting db₀) c' δ K → δ.invitations = [] → δ.redemptions = [] →
      m ∈ δ.memberships → m.accountId = account → m.planId = planID → Q (m, p) c') :
    wp (accounting db₀) ((assignMembershipTx fresh account planID source ref actor).label label) Q
      (fun _ _ => True) c := by
  refine wp_label_bind.2 (grants_keeps (Rows.statements_lockRow grants_lock) h fun _ c₁ h₁ => ?_)
  refine wp_label_bind.2 (grants_keeps Prog.statements_orFail h₁ fun plan c₂ h₂ => ?_)
  refine wp_label_bind.2 (grants_keeps Prog.statements_check h₂ fun _ c₃ h₃ => ?_)
  refine wp_label_bind.2 (grants_keeps (Rows.statements_lockRow grants_lock) h₃
    fun current c₄ h₄ => ?_)
  refine wp_label_bind.2 (grants_keeps (Rows.statements_updateRows grants_lock
    fun _ _ _ _ => Or.inr ⟨_, rfl, rfl, rfl⟩) h₄ fun _ c₅ h₅ => ?_)
  obtain ⟨δ, hi, hr, h₅⟩ := h₅
  refine wp_label_bind.2 ?_
  rw [label_insertRow]
  refine h₅.insertRow (fun _ _ => trivial) fun c₆ h₆ _ _ => ?_
  refine hQ _ plan _ _ (h₆.write rfl h₆.keeps
    (h₆.keeps.mono (List.subset_append_left _ _) h₆.known)) ?_ ?_ ?_ rfl rfl
  · show overlay _ δ.invitations [] = _
    rw [overlay_nil, hi]
  · show overlay _ δ.redemptions [] = _
    rw [overlay_nil, hr]
  · exact mem_overlay_right List.mem_cons_self

theorem merge_redemption {r : InvitationRedemption} (hr : δ.redemptions = []) :
    Layers.merge Store δ (redemptions.version r) = { δ with redemptions := [r] } := by
  simp [Layers.merge, Versions.overlay, redemptions, hr]

theorem merge_invitation {i : InvitationCode} (hi : δ.invitations = []) :
    Layers.merge Store δ (invitations.version i) = { δ with invitations := [i] } := by
  simp [Layers.merge, Versions.overlay, invitations, hi]

/-- **A redemption may be committed**, once its row is inserted and its invitation counted. -/
theorem Redeems.invites {u : Use} {i : InvitationCode} {r : InvitationRedemption}
    (h : Redeems u i r db δ) (hl : Owns L (.invitation i.id)) (hr : RedemptionRoom r L db) :
    Invites δ L db := by
  constructor
  case invitations =>
    rw [h.invitations]
    exact .single (Or.inl ⟨i, h.mem, rfl, ⟨rfl, rfl, rfl, rfl, rfl⟩, hl⟩)
  case redemptions =>
    rw [h.redemptions]
    exact .single (Or.inr ⟨hr.free, hr.idLock⟩)
  case uses =>
    rw [h.redemptions]
    refine ⟨uniqueBy_singleton, fun x hx => Or.inr ?_⟩
    cases List.mem_singleton.1 hx
    exact ⟨hr.unused, hr.useLock⟩
  case keys =>
    rw [h.redemptions]
    refine ⟨uniqueBy_singleton, fun x hx => Or.inr ?_⟩
    cases List.mem_singleton.1 hx
    exact ⟨hr.unkeyed, hr.keyLock⟩

theorem newRedemption_ready {u : Use} (hu : call.use = some u) {i : InvitationCode}
    (hcode : i.code = u.code) (h : Granting db₀ (Locked i) c) {fresh : Fresh}
    (hnow : fresh.now = u.now) {actor : Actor} :
    wp (accounting db₀) ((newRedemption fresh u.account i u.key actor).label label)
      (fun _ => Ready db₀ call) (fun _ _ => True) c := by
  refine wp_label_bind.2 ?_
  rw [Prog.label_check, wp_check]
  refine ⟨fun ⟨hactive, hleft, hexp⟩ => ?_, fun _ => trivial⟩
  refine wp_label_bind.2 (assignMembershipTx_grants h
    fun m plan c₁ δ h₁ hi hr hm haccount hplan => ?_)
  refine wp_label_bind.2 ?_
  rw [label_insertRow]
  refine h₁.insertRow (fun _ _ => trivial) fun c₂ h₂ _ hfree => ?_
  have hview : (Layers.lay c₂.db δ).redemptions = c₂.db.redemptions := by
    simp [Layers.lay, Store.overlay, hr]
  simp only [hview, List.any_eq_false, Bool.or_eq_true, Bool.and_eq_true, decide_eq_true_eq,
    not_or, not_and] at hfree
  -- the row of the redemption, with its entries free and locked
  set r : InvitationRedemption :=
    { id := fresh.redemption, invitationId := i.id, accountId := u.account, membershipId := m.id
      idempotencyKey := u.key } with hrdef
  have hroom : RedemptionRoom r (c₂.held ++ [(.redemption fresh.redemption, .exclusive),
      (.redemptionUse i.id u.account, .exclusive), (.redemptionKey u.key, .exclusive)]) c₂.db :=
    ⟨by simp [Owns, hrdef], by simp [Owns, hrdef], by simp [Owns, hrdef],
      fun r₀ h₀ => (hfree r₀ h₀).1.1,
      fun r₀ h₀ e => (hfree r₀ h₀).1.2 (congrArg Prod.fst e) (congrArg Prod.snd e),
      fun r₀ h₀ => (hfree r₀ h₀).2⟩
  have h₃ := h₂.write (merge_redemption (r := r) hr) (keeps_locked.and keeps_redemptionRoom)
    ⟨keeps_locked.mono (D := accounting db₀) (List.subset_append_left _ _) h₂.known, hroom⟩
  refine wp_label_bind.2 ?_
  rw [label_updateRow]
  have hinv : ∀ s : Store, (Layers.lay s { δ with redemptions := [r] }).invitations =
      s.invitations := fun s => by
    simp [Layers.lay, Store.overlay, hi]
  refine h₃.updateKey (k := i.id) (fun x => by simp [invitations]) (fun L db _ hk => ?_)
    fun c₄ i' h₄ _ hi' hid => ?_
  · refine ⟨i, ?_, rfl⟩
    show i ∈ (Layers.lay db { δ with redemptions := [r] }).invitations
    rw [hinv]
    exact hk.1.2
  have hsame : i' = i := by
    have hmem : i' ∈ (Layers.lay c₄.db { δ with redemptions := [r] }).invitations := hi'
    rw [hinv] at hmem
    exact h₄.inv.invitationIds.eq hmem h₄.known.1.2 hid
  subst hsame
  have hredeems : ∀ s : Store, i' ∈ s.invitations → Redeems u i' r s
      { δ with redemptions := [r], invitations := [redeemedInvitation i'] } := fun s hs =>
    { mem := hs, code := hcode, active := hactive, left := hleft, unexpired := hnow ▸ hexp
      invitations := rfl, redemptions := rfl, row := ⟨rfl, rfl, rfl⟩
      granted := ⟨m, hm, rfl, haccount, hplan⟩ }
  refine ⟨_, _, ⟨rfl, rfl, rfl⟩, h₄.write (merge_invitation hi) keeps_ready ?_⟩
  have hgo := hredeems _ h₄.known.1.2
  refine ⟨hgo.invites (h₄.known.1.1.mono (List.subset_append_left _ _)) ?_,
    .redeemed u hu i' r hgo⟩
  exact keeps_redemptionRoom.mono (D := accounting db₀) (List.subset_append_left _ _) h₄.known.2

theorem idle_of_locked {i : InvitationCode} (h : Knows (accounting db₀) c δ (Locked i))
    (e : SameTables {} δ) : Idle db₀ c :=
  ⟨δ, e, h.mono Discipline.keeps_true fun _ => trivial⟩

/-- **What a redemption leaves may be committed.** -/
theorem redeemInvitationTx_ready {fresh : Fresh} {account : UUID} {code key : String} {actor : Actor}
    (hu : call.use = some ⟨account, trimSpace code, trimSpace key, fresh.now⟩) (h : Idle db₀ c) :
    wp (accounting db₀) ((redeemInvitationTx fresh account code key actor).label label)
      (fun _ => Ready db₀ call) (fun _ _ => True) c := by
  refine wp_label_bind.2 (elsewhere_keeps Prog.statements_check h fun _ c₁ h₁ => ?_)
  obtain ⟨δ, e, h₁⟩ := h₁
  have hinv : ∀ s : Store, (Layers.lay s δ).invitations = s.invitations := fun s => by
    simp [Layers.lay, Store.overlay, e.1]
  refine wp_label_bind.2 ?_
  rw [label_lockRow]
  refine h₁.lockRow (fun c₂ h₂ => ?_) fun c₂ i h₂ hl hmem hcode => ?_
  · refine wp_label_bind.2 ?_
    rw [Prog.label_orFail]
    exact wp_orFail.2 ⟨fun _ he => (nomatch he), fun _ => trivial⟩
  have hi : i ∈ c₂.db.invitations := by
    have hmem' : i ∈ (Layers.lay c₂.db δ).invitations := hmem
    rwa [hinv] at hmem'
  have h₃ : Knows (accounting db₀) c₂ δ (Locked i) := ⟨h₂.wrote, h₂.inv, ⟨hl, hi⟩, keeps_locked⟩
  refine wp_label_bind.2 ?_
  rw [Prog.label_orFail]
  refine wp_orFail.2 ⟨fun i' he => ?_, fun he => (nomatch he)⟩
  cases he
  refine wp_label_bind.2 ?_
  rw [label_read]
  refine h₃.read fun c₄ h₄ => ?_
  split
  · exact elsewhere_keeps (statements_readOne elsewhere_lock) (idle_of_locked h₄ e)
      fun _ c₅ h₅ => Idle.ready h₅
  · exact newRedemption_ready hu (by simpa using hcode) ⟨δ, e.1, e.2.1, h₄⟩ rfl

/-! ## The calls -/

theorem currentMembership_elsewhere {mode : Mode} {account : UUID} {now : Time} :
    (currentMembership mode account now).Statements Elsewhere :=
  (Rows.statements_lockRow elsewhere_lock).bind fun _ => Prog.statements_orFail.bind fun _ =>
    (statements_readOne elsewhere_lock).bind fun _ => Prog.statements_pure

theorem selectInstanceTx_elsewhere : ∀ {i : Option UUID}, (selectInstanceTx i).Statements Elsewhere
  | some _ => (Rows.statements_lockRow elsewhere_lock).bind fun _ => Prog.statements_orFail.bind
    fun _ => Prog.statements_pure
  | none => (Rows.statements_lockRow elsewhere_lock).bind fun _ => Prog.statements_orFail.bind
    fun _ => Prog.statements_pure

theorem insertProvisioning_elsewhere {env : Environment} {fresh : Fresh} {account i : UUID}
    {username key : String} {maxAttempts : Nat} :
    (insertProvisioning env fresh account i username key maxAttempts).Statements Elsewhere :=
  (Rows.statements_insertRow elsewhere_lock fun _ _ => Or.inr ⟨_, rfl, rfl, rfl, rfl⟩).bind
    fun _ => Rows.statements_insertRow elsewhere_lock fun _ _ => Or.inr ⟨_, rfl, rfl, rfl, rfl⟩

theorem provisionMembership_ready {fresh : Fresh} {account : UUID} {i : Option UUID}
    {username code key : String} {attempts : Nat} {actor : Actor}
    (hcall : call = .provision fresh account i username code key attempts actor) (h : Idle db₀ c) :
    wp (accounting db₀) ((provisionMembership fresh account code (trimSpace key) actor).label label)
      (fun _ => Ready db₀ call) (fun _ _ => True) c := by
  unfold provisionMembership
  split
  · next hc => exact redeemInvitationTx_ready (by rw [hcall, InvitationCall.use, if_pos hc]) h
  · exact elsewhere_keeps currentMembership_elsewhere h fun _ _ h' => Idle.ready h'

theorem requestProvisioning_accounts {env : Environment} {fresh : Fresh} {account : UUID}
    {i : Option UUID} {username code key : String} {attempts : Nat} {actor : Actor}
    (hcall : call = .provision fresh account i username code key attempts actor) (h : Idle db₀ c) :
    wp (accounting db₀) ((requestProvisioning env fresh account i username code key attempts
      actor).label fun _ => call) (fun _ _ => True) (fun _ _ => True) c := by
  refine wp_label_bind.2 (elsewhere_keeps Prog.statements_check h fun _ c₁ h₁ => ?_)
  refine wp_label_bind.2 (elsewhere_keeps (statements_read elsewhere_lock) h₁ fun replay c₂ h₂ => ?_)
  cases replay with
  | some t =>
    refine wp_label_bind.2 ((Idle.ready h₂).publish rfl fun c₃ h₃ => ?_)
    exact elsewhere_keeps (statements_readOne elsewhere_lock) h₃ fun _ _ _ => trivial
  | none =>
    refine wp_label_bind.2 (elsewhere_keeps (Rows.statements_lockRow elsewhere_lock) h₂
      fun _ c₃ h₃ => ?_)
    refine wp_label_bind.2 (elsewhere_keeps Prog.statements_orFail h₃ fun _ c₄ h₄ => ?_)
    refine wp_label_bind.2 (elsewhere_keeps Prog.statements_check h₄ fun _ c₅ h₅ => ?_)
    refine wp_label_bind.2 (elsewhere_keeps selectInstanceTx_elsewhere h₅ fun _ c₆ h₆ => ?_)
    refine wp_label_bind.2 (elsewhere_keeps (statements_read elsewhere_lock) h₆ fun _ c₇ h₇ => ?_)
    refine wp_label_bind.2 (elsewhere_keeps Prog.statements_check h₇ fun _ c₈ h₈ => ?_)
    refine wp_label_bind.2 ?_
    rw [Prog.label_mapError, wp_mapError]
    refine wp_mono (fun _ c₉ h₉ => ?_) (fun _ _ _ => trivial) (provisionMembership_ready hcall h₈)
    refine wp_label_bind.2 (h₉.elsewhere (Prog.statements_exec fun v => elsewhere_lock v _)
      fun _ c₁₀ h₁₀ => ?_)
    refine wp_label_bind.2 (h₁₀.elsewhere Prog.statements_check fun _ c₁₁ h₁₁ => ?_)
    refine wp_label_bind.2 (h₁₁.elsewhere insertProvisioning_elsewhere fun _ c₁₂ h₁₂ => ?_)
    refine wp_label_bind.2 (h₁₂.publish rfl fun c₁₃ h₁₃ => ?_)
    exact elsewhere_keeps (statements_readOne elsewhere_lock) h₁₃ fun _ _ _ => trivial

theorem redeemInvitation_accounts {fresh : Fresh} {account : UUID} {code key : String} {actor : Actor}
    (hcall : call = .redeem fresh account code key actor) (h : Idle db₀ c) :
    wp (accounting db₀) ((redeemInvitation fresh account code key actor).label fun _ => call)
      (fun _ _ => True) (fun _ _ => True) c := by
  have hu : call.use = some ⟨account, trimSpace code, trimSpace key, fresh.now⟩ := by
    rw [hcall, InvitationCall.use]
  refine wp_label_bind.2 ?_
  refine wp_mono (fun _ c₁ h₁ => ?_) (fun _ _ _ => trivial) (redeemInvitationTx_ready hu h)
  exact wp_label_bind.2 (h₁.publish rfl fun _ _ => trivial)

/-- The row stays locked, and is revoked at the commit. -/
theorem revokeInvitation_accounts {id : UUID} (hcall : call = .revoke id) (h : Idle db₀ c) :
    wp (accounting db₀) ((revokeInvitation id).label fun _ => call) (fun _ _ => True)
      (fun _ _ => True) c := by
  obtain ⟨δ, e, h⟩ := h
  refine wp_label_bind.2 ?_
  rw [label_updateRow]
  refine h.updateRow (fun c₁ h₁ _ => ?_) fun c₁ i h₁ _ hi hp => ?_
  · refine wp_label_bind.2 ?_
    rw [Prog.label_check, wp_check]
    exact ⟨fun hn => (nomatch hn), fun _ => trivial⟩
  have hmem : i ∈ c₁.db.invitations := by
    have hi' : i ∈ (Layers.lay c₁.db δ).invitations := hi
    simpa [Layers.lay, Store.overlay, e.1] using hi'
  simp only [Bool.and_eq_true, decide_eq_true_eq] at hp
  refine wp_label_bind.2 ?_
  rw [Prog.label_check, wp_check]
  refine ⟨fun _ => ?_, fun _ => trivial⟩
  have hready : Ready db₀ call (c₁.apply ⟨[(.invitation i.id, .exclusive)],
      fun s => Layers.lay s (invitations.version { i with status := .revoked })⟩) := by
    refine ⟨_, _, ⟨rfl, rfl, rfl⟩, h₁.write (merge_invitation e.1) keeps_ready ⟨⟨?_, ?_, ?_, ?_⟩, ?_⟩⟩
    · exact .single (Or.inl ⟨i, hmem, rfl, ⟨rfl, rfl, rfl, rfl, rfl⟩,
        List.mem_append_right _ List.mem_cons_self⟩)
    · show Versioned _ _ _ _ _ δ.redemptions
      rw [e.2.1]
      exact .nil
    · show Indexed _ _ _ _ δ.redemptions
      rw [e.2.1]
      exact .nil
    · show Indexed _ _ _ _ δ.redemptions
      rw [e.2.1]
      exact .nil
    · exact .revoked (by rw [hcall]; rfl) e.2.1 e.2.2 i hmem hp.2 rfl
  exact hready.publish rfl fun _ _ => trivial

/-- New invitations as they are generated. -/
def AllNew (δ : Versions) (db : Store) : Prop :=
  ∀ i ∈ δ.invitations, (∀ i₀ ∈ db.invitations, i₀.id ≠ i.id) ∧ i.usedCount = 0 ∧
    i.status = .active ∧ 1 ≤ i.maxUses

theorem keeps_allNew : (accounting db₀).Keeps fun L db => Invites δ L db ∧ AllNew δ db where
  mono hLM h := ⟨h.1.mono hLM, h.2⟩
  step := by
    rintro L M db e _ - hc ⟨δ', rfl, hδ', -⟩ h
    refine ⟨h.1.overlay hδ' hc, fun i hi => ⟨?_, (h.2 i hi).2⟩⟩
    rcases h.1.invitations.version i hi with ⟨i₀, h₀, e, -, -⟩ | ⟨hf, hl⟩
    · exact absurd e ((h.2 i hi).1 i₀ h₀)
    · exact hδ'.invitations.fresh_overlay hf (hl.not_owns hc)

/-- A transaction that has only inserted invitations. -/
def Generating (db₀ : Store) (c : Ctx Store Lock InvitationCall) : Prop :=
  ∃ δ, δ.redemptions = [] ∧ δ.memberships = [] ∧
    Knows (accounting db₀) c δ fun L db => Invites δ L db ∧ AllNew δ db

theorem merge_newInvitation {i : InvitationCode} : Layers.merge Store δ (invitations.version i) =
    { δ with invitations := put InvitationCode.id δ.invitations i } := by
  simp [Layers.merge, Versions.overlay, invitations, put]

/-- One more new invitation. -/
theorem Invites.insert (h : Invites δ L db) {i : InvitationCode} (hl : Owns L (.invitation i.id))
    (hf : ∀ i₀ ∈ db.invitations, i₀.id ≠ i.id) :
    Invites { δ with invitations := put InvitationCode.id δ.invitations i } L db :=
  { h with invitations := h.invitations.put (Or.inr ⟨hf, hl⟩) }

theorem insertInvitations_generating {plan : MembershipPlan} {codePrefix : String}
    {kind : InvitationKind} {maxUses : Int} (hm : 1 ≤ maxUses) {expiresAt : Option Time}
    {Q : Unit → Ctx Store Lock InvitationCall → Prop} (hQ : ∀ c', Generating db₀ c' → Q () c') :
    ∀ (items : List (UUID × String)) {c : Ctx Store Lock InvitationCall}, Generating db₀ c →
      wp (accounting db₀)
        ((insertInvitations plan codePrefix kind maxUses expiresAt items).label label) Q
        (fun _ _ => True) c
  | [], c, h => hQ c h
  | item :: items, c, ⟨δ, hr, hmem, h⟩ => by
    refine wp_label_bind.2 ?_
    rw [label_insertRow]
    refine h.insertRow (fun _ _ => trivial) fun c₁ h₁ _ hfree => ?_
    refine insertInvitations_generating hm hQ items
      ⟨{ δ with invitations := put InvitationCode.id δ.invitations _ }, hr, hmem,
        h₁.write merge_newInvitation keeps_allNew ?_⟩
    simp only [List.any_eq_false, Bool.or_eq_true, decide_eq_true_eq, not_or] at hfree
    obtain ⟨hf, -⟩ := fresh_of_view fun i hi => (hfree i hi).1
    refine ⟨(h₁.known.1.mono (List.subset_append_left _ _)).insert
      (List.mem_append_right _ List.mem_cons_self) hf, fun i hi => ?_⟩
    rcases mem_put.1 hi with ⟨hi, -⟩ | rfl
    · exact h₁.known.2 i hi
    · exact ⟨hf, rfl, rfl, hm⟩

theorem generateInvitations_accounts {planID : UUID} {kind : InvitationKind}
    {items : List (UUID × String)} {maxUses : Int} {expiresAt : Option Time} {codePrefix : String}
    {now : Time} (hcall : call = .generate planID kind items maxUses expiresAt codePrefix now)
    (h : Idle db₀ c) :
    wp (accounting db₀) ((generateInvitations planID kind items maxUses expiresAt codePrefix
      now).label fun _ => call) (fun _ _ => True) (fun _ _ => True) c := by
  refine wp_label_bind.2 ?_
  rw [Prog.label_check, wp_check]
  refine ⟨fun ⟨_, _, hmax, _⟩ => ?_, fun _ => trivial⟩
  refine wp_label_bind.2 (elsewhere_keeps (statements_readOne elsewhere_lock) h fun _ c₁ h₁ => ?_)
  refine wp_label_bind.2 (elsewhere_keeps Prog.statements_check h₁ fun _ c₂ h₂ => ?_)
  refine wp_label_bind.2 (elsewhere_keeps Prog.statements_check h₂ fun _ c₃ h₃ => ?_)
  refine wp_label_bind.2 (elsewhere_keeps Prog.statements_check h₃ fun _ c₄ h₄ => ?_)
  obtain ⟨δ, e, h₄⟩ := h₄
  have hgen : Generating db₀ c₄ := by
    refine ⟨δ, e.2.1, e.2.2, ⟨h₄.wrote, h₄.inv, ⟨Invites.none.congr e, fun i hi => ?_⟩, keeps_allNew⟩⟩
    rw [e.1] at hi
    cases hi
  refine wp_label_bind.2 (insertInvitations_generating hmax (fun c₅ h₅ => ?_) items hgen)
  obtain ⟨δ', hr, hm, h₅⟩ := h₅
  have hready : Ready db₀ call c₅ := ⟨δ', δ', ⟨rfl, rfl, rfl⟩, h₅.mono keeps_ready fun hk =>
    ⟨hk.1, .generated (by rw [hcall]; rfl) hr hm hk.2⟩⟩
  exact hready.publish rfl fun _ _ => trivial

/-- **Every call keeps to the discipline.** -/
theorem InvitationCall.keeps {env : Environment} (call : InvitationCall) (hdb : Tables db₀ db) :
    wp (accounting db₀) (call.prog env) (fun _ _ => True) (fun _ _ => True)
      ({ db := db } : Ctx Store Lock InvitationCall) := by
  have h : Idle db₀ ({ db := db } : Ctx Store Lock InvitationCall) := .start hdb
  cases call with
  | generate => exact generateInvitations_accounts rfl h
  | redeem =>
    exact wp_label_bind.2 (wp_mono (fun _ _ _ => trivial) (fun _ _ _ => trivial)
      (redeemInvitation_accounts rfl h))
  | provision =>
    exact wp_label_bind.2 (wp_mono (fun _ _ _ => trivial) (fun _ _ _ => trivial)
      (requestProvisioning_accounts rfl h))
  | revoke => exact revokeInvitation_accounts rfl h

/-! ## Runs -/

/-- What a commit of the call does to the invitation. -/
structure Proper (call : InvitationCall) (i : InvitationCode) (db db' : Store) : Prop where
  kept : ∃ i' ∈ db'.invitations, i'.id = i.id ∧ keepInvitation i i'
  /-- A revoked invitation stays as it is. -/
  revoked : i.status = .revoked → i ∈ db'.invitations
  /-- A new redemption is of a call that has seen the invitation active and not expired, and comes with
  its membership. -/
  redeemed : ∀ r ∈ db'.redemptions, r ∉ db.redemptions → r.invitationId = i.id →
    i.status = .active ∧ ∃ u, call.use = some u ∧ i.code = u.code ∧ r.accountId = u.account ∧
      r.idempotencyKey = u.key ∧ (∀ t ∈ i.expiresAt, ¬t < u.now) ∧
      ∃ m ∈ db'.memberships, m.id = r.membershipId ∧ m.accountId = u.account ∧ m.planId = i.planId
  /-- A replay consumes nothing and grants nothing. -/
  replay : ∀ u, call.use = some u → (∃ r ∈ db.redemptions, r.idempotencyKey = u.key) →
    db'.invitations = db.invitations ∧ db'.redemptions = db.redemptions ∧
      db'.memberships = db.memberships

theorem Moves.revoked_stays (h : Moves call db δ) (hdb : Indexes db) {i : InvitationCode}
    (hi : i ∈ db.invitations) (hr : i.status = .revoked) : i ∈ (db.overlay δ).invitations := by
  refine mem_overlay_left (fun y hy e => ?_) hi
  have hne : ∀ {j : InvitationCode}, j ∈ db.invitations → j.id = i.id → j.status = .active → False :=
    fun hj e ha => by
      rw [hdb.invitationIds.eq hj hi e, hr] at ha
      cases ha
  cases h with
  | idle hi' _ _ =>
    rw [hi'] at hy
    cases hy
  | generated _ _ _ hnew => exact (hnew y hy).1 i hi e.symm
  | revoked _ _ _ j hj ha hδ =>
    rw [hδ, List.mem_singleton] at hy
    subst hy
    exact hne hj e ha
  | redeemed u hu j r h =>
    rw [h.invitations, List.mem_singleton] at hy
    subst hy
    exact hne h.mem e h.active

/-- **A commit is proper.** -/
theorem Moves.proper (h : Moves call db δ) (hδ : Invites δ L db) (hdb : Indexes db)
    {i : InvitationCode} (hi : i ∈ db.invitations) : Proper call i db (db.overlay δ) where
  kept := hδ.invitations.version_overlay keepInvitation.refl hdb.invitationIds hi
  revoked := h.revoked_stays hdb hi
  redeemed r hr hnew hid := by
    have hr' : r ∈ δ.redemptions := by
      rcases mem_overlay.1 hr with ⟨hr, -⟩ | hr
      · exact absurd hr hnew
      · exact hr
    cases h with
    | idle _ hnone _ | generated _ hnone _ _ | revoked _ hnone _ _ _ _ _ =>
      rw [hnone] at hr'
      cases hr'
    | redeemed u hu j r₁ h =>
      rw [h.redemptions, List.mem_singleton] at hr'
      subst hr'
      have hij : j = i := hdb.invitationIds.eq h.mem hi (h.row.1.symm.trans hid)
      subst hij
      obtain ⟨m, hm, hgrant⟩ := h.granted
      exact ⟨h.active, u, hu, h.code, h.row.2.1, h.row.2.2, h.unexpired, m, mem_overlay_right hm,
        hgrant⟩
  replay u hu hused := by
    cases h with
    | idle hi' hr hm => simp [Store.overlay, hi', hr, hm]
    | generated hn _ _ _ | revoked hn _ _ _ _ _ _ =>
      rw [hu] at hn
      cases hn
    | redeemed u' hu' j r h =>
      rw [hu] at hu'
      cases hu'
      obtain ⟨r₀, h₀, hkey⟩ := hused
      have hr : r ∈ δ.redemptions := by
        rw [h.redemptions]
        exact List.mem_cons_self
      rcases hδ.keys.entry r hr with ⟨r₁, h₁, e, -⟩ | ⟨hf, -⟩
      · exact absurd e ((hδ.redemptions.fresh hr).1 r₁ h₁)
      · exact absurd (hkey.trans h.row.2.2.symm) (hf r₀ h₀)

/-- The states of a run of the calls. -/
abbrev InvitationRun (ι : Type) := State ι Site Store Lock InvitationCall Err Unit

abbrev InvitationRuns {ι : Type} [DecidableEq ι] (env : Environment) (calls : ι → InvitationCall) :
    InvitationRun ι → InvitationRun ι → Prop :=
  Reachable fun k => (calls k).prog env

section Runs

variable {ι : Type} [DecidableEq ι] {env : Environment} {calls : ι → InvitationCall}
  {s s' : InvitationRun ι}

theorem Indexes.tables (h₀ : Indexes db₀) : Tables db₀ db₀ :=
  { h₀ with kept := fun i hi => ⟨i, hi, rfl⟩, accounted := fun i hi hv => absurd rfl (hv i hi) }

/-- A plan, and nothing else. -/
def planOnly : Store where
  plans := [{ id := idOf '3', code := "basic", name := "Basic", durationDays := 30
              durationDays_range := thirtyDays_range, entitlements := "", enabled := true }]

/-- One user for an account; all names are in lower case. -/
def oneAccount : Environment where
  toLower s := s
  quote s := s
  uniqueNames := true
  maxEmbyAccounts _ := 1

/-- A code for one use is generated and redeemed, and another account comes too late. -/
def oneUse : Fin 3 → InvitationCall
  | 0 => .generate (idOf '3') .registration [(idOf '1', "a")] 1 none "AB" 0
  | 1 => .redeem ⟨idOf '5', idOf '6', idOf '7', idOf '8', "", 0⟩ (idOf '4') "AB-30-Register_a" "k"
    ⟨"account", "root"⟩
  | 2 => .redeem ⟨idOf 'a', idOf 'b', idOf 'c', idOf 'd', "", 0⟩ (idOf '9') "AB-30-Register_a" "l"
    ⟨"account", "root"⟩

end Runs

end Sakura.Queue
