/-
  Grants of membership time (platform/membership.go), under interference.

  * `Expired`, `Assigned`: the memberships that `assignMembershipTx` has written;
  * `assignMembershipTx_runs`: if the locking read found the current membership, the new one extends
    it;
  * `Assigned.lawful`, `Assigned.extends`: what this means at the commit.
-/
import Sakura.Proof.Wallet

namespace Sakura

open Txn

variable {G : Scope} {α β : Type} {L M : Held Lock} {db : DB} {c c' : Moment} {δ δ' : Versions}
  {ms : List AccountMembership} {m : AccountMembership}

/-! ## Expired rows -/

/-- The rows are expired versions of memberships of the account. -/
def Expired (db : DB) (accountID : UUID) (ms : List AccountMembership) : Prop :=
  ∀ x ∈ ms, x.current = false ∧ x.accountId = accountID ∧
    ∃ m₀ ∈ db.memberships, m₀.id = x.id ∧ expires m₀ x

theorem expires.accountId {m m' : AccountMembership} (h : expires m m') :
    m'.accountId = m.accountId := by
  rcases h with rfl | rfl <;> rfl

/-- A version of a row is a version of a row that the others leave alone. -/
theorem Respects.membership_overlay (hr : Respects L db δ) (hr' : Respects M db δ')
    (hc : Compatible L M) {x : AccountMembership} (hx : x ∈ δ.memberships)
    (h : ∃ m₀ ∈ db.memberships, m₀.id = x.id) :
    ∃ m₀ ∈ (db.overlay δ').memberships, m₀.id = x.id ∧ expires m₀ x := by
  obtain ⟨m₀, hm₀, hid⟩ := h
  rcases hr.memberships.version x hx with ⟨r, hr₀, he, hex, hl⟩ | ⟨hf, -⟩
  · exact ⟨r, hr'.memberships.mem_overlay hr₀ (he ▸ hl.not_holds hc), he, hex⟩
  · exact absurd hid (hf m₀ hm₀)

theorem Expired.later {accountID : UUID} (h : At G c { δ with memberships := ms })
    (hl : Later G c c') (he : Expired c.db accountID ms) : Expired c'.db accountID ms := by
  refine (hl.keep (P := fun db => Respects c.held db { δ with memberships := ms } ∧
    Expired db accountID ms) ?_ ⟨h.respects, he⟩).2
  rintro M db δ' - - hc hr' ⟨hr, he⟩
  refine ⟨hr.overlay hr' hc, fun x hx => ?_⟩
  obtain ⟨h₁, h₂, m₀, hm₀, hid, -⟩ := he x hx
  exact ⟨h₁, h₂, hr.membership_overlay hr' hc hx ⟨m₀, hm₀, hid⟩⟩

theorem overlay_membership (m : AccountMembership) :
    (db.overlay { δ with memberships := ms }).overlay { memberships := [m] } =
      db.overlay { δ with memberships := put AccountMembership.id ms m } := by
  simp [DB.overlay_overlay, Versions.overlay, put]

/-- Expiring a current row that has been locked. -/
theorem Respects.expire (h : Respects L db { δ with memberships := ms })
    (hno : ∀ x ∈ ms, x.current = false) (hm : m ∈ db.memberships)
    (hl : Holds L (.row .memberships m.id)) :
    Respects L db { δ with
      memberships := put AccountMembership.id ms { m with status := .expired } } := by
  have hnone : ∀ x ∈ put AccountMembership.id ms { m with status := .expired },
      x.current = false := by
    intro x hx
    rcases mem_put.1 hx with ⟨hx, -⟩ | rfl
    · exact hno x hx
    · rfl
  refine { h with memberships := ?_, currents := ?_, currentLock := ?_ }
  · exact h.memberships.put (Or.inl ⟨m, hm, rfl, Or.inr rfl, hl⟩)
  · have : currentOf (put AccountMembership.id ms { m with status := .expired }) = [] :=
      List.filter_eq_nil_iff.2 fun x hx => by simp [hnone x hx]
    show UniqueBy _ (currentOf (put _ _ _))
    rw [this]; exact uniqueBy_nil
  · intro x hx hcur
    rw [hnone x hx] at hcur; cases hcur

theorem expireMemberships_runs {accountID : UUID} {Q : Unit → Moment → Prop} :
    ∀ {ids : List UUID} {c : Moment} {ms : List AccountMembership},
      At G c { δ with memberships := ms } → Expired c.db accountID ms →
      (∀ c' ms', At G c' { δ with memberships := ms' } → Later G c c' →
        Expired c'.db accountID ms' → Q () c') → Runs G (expireMemberships accountID ids) Q c
  | [], c, ms, h, he, hQ => hQ c ms h .refl he
  | id :: ids, c, ms, h, he, hQ => by
    refine h.exec_bind fun c₁ h₁ l₁ _ a ha => ?_
    have he₁ := he.later h l₁
    cases hf : (c₁.db.overlay { δ with memberships := ms }).memberships.find?
        fun m => m.id = id && (m.accountId = accountID && m.current) with
    | none =>
      exact expireMemberships_runs (h₁.lock fun _ => rfl) he₁
        fun c' ms' h' l' => hQ c' ms' h' ((l₁.trans .apply).trans l')
    | some m =>
      have hp := List.find?_some hf
      simp only [Bool.and_eq_true, decide_eq_true_eq] at hp
      obtain ⟨rfl, hacc, hcur⟩ := hp
      -- a current row is none of the expired ones
      have hm : m ∈ c₁.db.memberships := by
        rcases mem_overlay.1 (List.mem_of_find?_eq_some hf) with ⟨hm, -⟩ | hm
        · exact hm
        · rw [(he₁ m hm).1] at hcur; cases hcur
      refine expireMemberships_runs (h₁.apply (fun _ => overlay_membership _) ?_
        (h₁.links.of_eq rfl rfl)) ?_ fun c' ms' h' l' => hQ c' ms' h' ((l₁.trans .apply).trans l')
      · exact (h₁.respects.mono (List.subset_append_left _ _)).expire (fun x hx => (he₁ x hx).1) hm
          (List.mem_append_right _ (List.mem_singleton.2 rfl))
      · intro x hx
        rcases mem_put.1 hx with ⟨hx, -⟩ | rfl
        · exact he₁ x hx
        · exact ⟨rfl, hacc, m, hm, rfl, Or.inr rfl⟩

/-! ## The new row -/

/-- The membership `m` has been inserted, and the earlier ones of its account are expired. -/
structure Assigned (G : Scope) (db : DB) (ms : List AccountMembership) (m : AccountMembership)
    (days : Int64) : Prop where
  mem : m ∈ ms
  current : m.current
  fresh : ∀ m₀ ∈ db.memberships, m₀.id ≠ m.id
  others : ∀ x ∈ ms, x = m ∨ x.accountId = m.accountId ∧
    ∃ m₀ ∈ db.memberships, m₀.id = x.id ∧ expires m₀ x
  plan : ∃ p ∈ db.config.membershipPlans, p.id = m.planId
  stored : stored m.expiresAt = m.expiresAt
  extended : G.grants m.accountId → ∀ m₀ ∈ db.memberships, m₀.current →
    m₀.accountId = m.accountId → m₀.expiresAt + days.toInt * dayNanos ≤ m.expiresAt

theorem Respects.newMembership (h : Respects L db { δ with memberships := ms })
    (hno : ∀ x ∈ ms, x.current = false)
    (hid : ∀ x ∈ (db.overlay { δ with memberships := ms }).memberships, x.id ≠ m.id)
    (hcur : ∀ x ∈ (db.overlay { δ with memberships := ms }).memberships, x.current →
      x.accountId ≠ m.accountId)
    (hl : Holds L (.index (.membershipId m.id)))
    (hl' : Holds L (.index (.currentMembership m.accountId))) :
    Respects L db { δ with memberships := put AccountMembership.id ms m } := by
  have hput : put AccountMembership.id ms m = ms ++ [m] :=
    overlay_of_fresh fun y hy x hx => by
      cases List.mem_singleton.1 hy
      exact hid x (mem_overlay_right hx)
  refine { h with memberships := ?_, currents := ?_, currentLock := ?_ }
  · exact h.memberships.put (Or.inr ⟨(fresh_of_view hid).1, hl⟩)
  · show UniqueBy _ (currentOf (put _ _ _))
    have hnil : ms.filter AccountMembership.current = [] :=
      List.filter_eq_nil_iff.2 fun x hx => by simp [hno x hx]
    rw [hput, currentOf, List.filter_append, hnil, List.nil_append]
    exact (List.filter_sublist.map _).nodup uniqueBy_singleton
  · intro x hx hxc
    rcases mem_put.1 hx with ⟨hx, -⟩ | rfl
    · rw [hno x hx] at hxc; cases hxc
    · refine ⟨hl', fun m₀ hm₀ hc₀ hacc => ?_⟩
      by_cases hv : ∃ y ∈ ms, y.id = m₀.id
      · obtain ⟨y, hy, e⟩ := hv
        exact ⟨y, mem_put.2 (Or.inl ⟨hy, hid y (mem_overlay_right hy)⟩), e⟩
      · exact absurd hacc (hcur m₀ (mem_overlay_left (fun y hy e => hv ⟨y, hy, e⟩) hm₀) hc₀)

theorem Assigned.later {days : Int64} (h : At G c { δ with memberships := ms })
    (hl : Later G c c') (ha : Assigned G c.db ms m days) : Assigned G c'.db ms m days := by
  refine (hl.keep (P := fun db => Respects c.held db { δ with memberships := ms } ∧
    Assigned G db ms m days) ?_ ⟨h.respects, ha⟩).2
  rintro M db δ' - - hc hr' ⟨hr, ha⟩
  refine ⟨hr.overlay hr' hc, { ha with fresh := ?_, others := ?_, extended := ?_ }⟩
  · rcases hr.memberships.version m ha.mem with ⟨r, hr₀, he, -⟩ | ⟨hf, hl⟩
    · exact absurd he (ha.fresh r hr₀)
    · exact hr'.memberships.fresh_overlay hf (hl.not_holds hc)
  · intro x hx
    refine (ha.others x hx).imp_right fun ⟨hacc, m₀, hm₀, hid, _⟩ => ⟨hacc, ?_⟩
    exact hr.membership_overlay hr' hc hx ⟨m₀, hm₀, hid⟩
  · intro hG m₀ hm₀ hcur hacc
    have hl := (hr.currentLock m ha.mem ha.current).1
    exact ha.extended hG m₀ (hr'.currents_held hc hl hm₀ hcur hacc) hcur hacc

/-! ## Grants -/

theorem days_extend {e base : Int} {d : Int64} (hs : stored e = e) (hb : e ≤ base)
    (h₀ : 0 < d) (hd : d.toInt ≤ maxDays) :
    e + d.toInt * dayNanos ≤ stored (base + (days d).toInt) := by
  have h₀ : 0 < d.toInt := by simpa using Int64.lt_iff_toInt_lt.1 h₀
  rw [days_exact (by omega) hd, ← hs, ← stored_add_days]
  refine le_stored ?_
  rw [stored_add_days, hs]
  exact Int.add_le_add_right hb _

/-- The second half of `assignMembershipTx`: expire the current rows, insert the new one. -/
theorem extendMembership_runs (h : At G c δ) (hδ : δ.memberships = []) {accountID : UUID} {base : Int}
    {d : Int64} {m : AccountMembership} {membership : Membership}
    (hm : m.accountId = accountID ∧ m.current ∧ m.expiresAt = stored (base + (days d).toInt))
    (hplan : ∃ p ∈ c.db.config.membershipPlans, p.id = m.planId)
    (hd : 0 < d) (hfit : G.grants accountID → d.toInt ≤ maxDays)
    (hbase : G.grants accountID → ∃ m₀ ∈ c.db.memberships, m₀.current ∧ m₀.accountId = accountID ∧
      Holds c.held (.row .memberships m₀.id) ∧ m₀.expiresAt ≤ base)
    {Q : Membership → Moment → Prop}
    (hQ : ∀ c' ms, At G c' { δ with memberships := ms } → Later G c c' →
      Assigned G c'.db ms m d → Q membership c') :
    Runs G (do
      expireMemberships accountID (← select fun v =>
        (v.memberships.filter fun m => m.accountId = accountID && m.current).map (·.id))
      insert [.membershipId m.id, .currentMembership accountID] { memberships := [m] } .database
      pure membership) Q c := by
  have h : At G c { δ with memberships := [] } := by rw [← hδ]; exact h
  obtain ⟨rfl, hcur, hexp⟩ := hm
  refine h.select_bind fun c₁ h₁ l₁ => ?_
  refine wp_bind.2 (expireMemberships_runs h₁ (fun _ hx => absurd hx List.not_mem_nil)
    fun c₂ ms h₂ l₂ he => ?_)
  refine h₂.insert_bind fun c₃ h₃ l₃ hno c₄ hc₄ l₄ hk => ?_
  simp only [List.forall_mem_cons, DB.has, List.any_eq_false, Bool.and_eq_true, decide_eq_true_eq,
    not_and] at hno hk
  have hid := hno.1
  have hacc : ∀ x ∈ (c₃.db.overlay { δ with memberships := ms }).memberships, x.current →
      x.accountId ≠ m.accountId := fun x hx hc e => hno.2.1 x hx e hc
  have he₃ := he.later h₂ l₃
  have hA : Assigned G c₃.db (put AccountMembership.id ms m) m d := by
    have hold : ∀ x ∈ ms, x.id ≠ m.id := fun x hx => hid x (mem_overlay_right hx)
    constructor
    case mem => exact mem_put.2 (Or.inr rfl)
    case current => exact hcur
    case fresh => exact (fresh_of_view hid).1
    case others =>
      intro x hx
      rcases mem_put.1 hx with ⟨hx, -⟩ | rfl
      · exact Or.inr (he₃ x hx).2
      · exact Or.inl rfl
    case plan =>
      rw [((l₁.trans l₂).trans l₃).config]; exact hplan
    case stored => rw [hexp, stored_stored]
    case extended =>
      intro hG m₀ hm₀ hc₀ hacc₀
      -- the only current row is the one that was read and locked
      obtain ⟨m₁, hm₁, hc₁, hacc₁, hl₁, hle⟩ := hbase hG
      have hm₁ : m₁ ∈ c₃.db.memberships := by
        refine ((l₁.trans l₂).trans l₃).keep (P := fun db => m₁ ∈ db.memberships) ?_ hm₁
        exact fun _ _ hc hr hm => hr.memberships.mem_overlay hm (hl₁.not_holds hc)
      have : m₀ = m₁ := h₃.inv.wellFormed.currents.eq (List.mem_filter.2 ⟨hm₀, hc₀⟩)
        (List.mem_filter.2 ⟨hm₁, hc₁⟩) (hacc₀.trans hacc₁.symm)
      subst this
      rw [hexp]
      exact days_extend (h₃.inv.stored m₀ hm₀) hle hd (hfit hG)
  have h₄ : At G c₄ { δ with memberships := put AccountMembership.id ms m } := by
    subst hc₄
    refine h₃.apply (fun _ => overlay_membership _) ?_ (h₃.links.of_eq rfl rfl)
    exact (h₃.respects.mono (List.subset_append_left _ _)).newMembership
      (fun x hx => (he₃ x hx).1) hid hacc hk.1 hk.2.1
  subst hc₄
  exact hQ _ _ h₄ ((l₁.trans l₂).trans l₄) hA

/-- **A grant extends the current membership**, if its locking read finds it. -/
theorem assignMembershipTx_runs (h : At G c δ) (hδ : δ.memberships = []) {fresh : Fresh}
    {accountID planID : UUID} {startsAt : Int} {durationDays : Int64} {source sourceRef : String}
    {actor : Actor} (hfit : G.grants accountID → durationDays.toInt ≤ maxDays)
    {Q : Membership → Moment → Prop}
    (hQ : ∀ c' ms m membership, At G c' { δ with memberships := ms } → Later G c c' →
      Assigned G c'.db ms m membership.days → m.id = fresh.membership → m.accountId = accountID →
      m.source = source → m.sourceRef = nullIfEmpty sourceRef → membership.id = fresh.membership →
      Q membership c') :
    Runs G (assignMembershipTx fresh accountID planID startsAt durationDays source sourceRef actor)
      Q c := by
  unfold assignMembershipTx
  refine h.selectLock_orFail_bind fun c₁ plan h₁ l₁ hplan hpid _ => ?_
  refine h₁.check_bind fun _ => ?_
  extract_lets d startsAt'
  have hpos : 0 < plan.durationDays := Int64.lt_of_lt_of_le (by decide) plan.durationDays_range.1
  have hd : 0 < d := by
    show 0 < if durationDays ≤ 0 then plan.durationDays else durationDays
    split
    · exact hpos
    · next hn => exact Int64.not_le.1 hn
  have hfit : G.grants accountID → d.toInt ≤ maxDays := by
    intro hG
    show (if durationDays ≤ 0 then plan.durationDays else durationDays).toInt ≤ maxDays
    split
    · have := Int64.le_iff_toInt_le.1 plan.durationDays_range.2
      exact Int.le_trans this (by decide)
    · exact hfit hG
  have hview : ∀ db : DB, (db.overlay δ).memberships = db.memberships := fun db => by
    show Txn.overlay _ _ _ = _
    rw [hδ, overlay_nil]
  refine h₁.selectLock_cases fun c₂ current h₂ l₂ hcur => ?_
  simp only [hview, Bool.and_eq_true, decide_eq_true_eq] at hcur
  -- in the scope, the read has found the current membership
  have hfound : G.grants accountID → ∃ m₀ ∈ c₂.db.memberships, m₀.current ∧
      m₀.accountId = accountID ∧ Holds c₂.held (.row .memberships m₀.id) ∧ current = some m₀ := by
    intro hG
    rcases hcur with ⟨r, hr, hmem, ⟨hacc, hc⟩, hl⟩ | hno | ⟨id, ha, hno⟩
    · exact ⟨r, hmem, hc, hacc, hl, hr⟩
    · obtain ⟨m₀, hm₀, hc, hacc⟩ := h₂.inv.grants accountID hG
      exact absurd ⟨hacc, hc⟩ (hno m₀ hm₀)
    · obtain ⟨m₀, hm₀, hid, hacc, hc⟩ := ha hG
      exact absurd ⟨hacc, hc⟩ (hno m₀ (hview c₂.db ▸ hm₀) hid)
  extract_lets base
  have hplan : ∃ p ∈ c₂.db.config.membershipPlans, p.id = planID :=
    ⟨plan, l₂.config ▸ hplan, by simpa using hpid⟩
  refine extendMembership_runs (m := ⟨fresh.membership, accountID, planID, .active, stored startsAt',
    stored (base + (days d).toInt), source, nullIfEmpty sourceRef, actor.label⟩) h₂ hδ
    ⟨rfl, rfl, rfl⟩ hplan hd hfit (fun hG => ?_) fun c₃ ms h₃ l₃ hA => ?_
  · obtain ⟨m₀, hm₀, hc, hacc, hl, rfl⟩ := hfound hG
    refine ⟨m₀, hm₀, hc, hacc, hl, ?_⟩
    show m₀.expiresAt ≤ if startsAt' < m₀.expiresAt then m₀.expiresAt else startsAt'
    split
    · exact Int.le_refl _
    · next hn => exact Int.not_lt.1 hn
  · exact hQ c₃ ms _ _ h₃ ((l₁.trans l₂).trans l₃) hA rfl rfl rfl rfl rfl

/-! ## At the commit -/

section Commit

variable {days : Int64}

/-- A version that is not the new row is an expired row of the account. -/
theorem Assigned.version (h : Inv G db) (ha : Assigned G db ms m days) {m₀ : AccountMembership}
    (hm₀ : m₀ ∈ db.memberships) (hacc : m₀.accountId ≠ m.accountId) : ∀ x ∈ ms, x.id ≠ m₀.id := by
  intro x hx hid
  rcases ha.others x hx with rfl | ⟨hxa, m₁, hm₁, hid₁, hex⟩
  · exact ha.fresh m₀ hm₀ hid.symm
  · rw [h.wellFormed.membershipIds.eq hm₁ hm₀ (hid₁.trans hid)] at hex
    exact hacc (hex.accountId.symm.trans hxa)

/-- The accounts of the scope still have a current membership. -/
theorem Assigned.grants (h : Inv G db) (ha : Assigned G db ms m days) : ∀ i, G.grants i →
    ∃ m' ∈ (db.overlay { δ with memberships := ms }).memberships, m'.current ∧ m'.accountId = i := by
  intro i hG
  by_cases hi : i = m.accountId
  · exact ⟨m, mem_overlay_right ha.mem, ha.current, hi.symm⟩
  · obtain ⟨m₀, hm₀, hc, hacc⟩ := h.grants i hG
    exact ⟨m₀, mem_overlay_left (ha.version h hm₀ (by rwa [hacc])) hm₀, hc, hacc⟩

/-- **The membership is extended by what is granted.** -/
theorem Assigned.extends (h : Inv G db) (ha : Assigned G db ms m days) {e : Event}
    (he : ∀ i, granted i e = if m.accountId = i then days.toInt else 0) :
    Extends G db e (db.overlay { δ with memberships := ms }) := by
  intro i hG m₀ hm₀ hc hacc
  rw [he]
  by_cases hi : m.accountId = i
  · subst hi
    rw [if_pos rfl]
    exact ⟨m, mem_overlay_right ha.mem, ha.current, rfl, ha.extended hG m₀ hm₀ hc hacc⟩
  · rw [if_neg hi, Int.zero_mul, Int.add_zero]
    refine ⟨m₀, mem_overlay_left (ha.version h hm₀ ?_) hm₀, hc, hacc, Int.le_refl _⟩
    rw [hacc]; exact Ne.symm hi

theorem Assigned.plans (h : Inv G db) (ha : Assigned G db ms m days) :
    ∀ x ∈ ms, ∃ p ∈ db.config.membershipPlans, p.id = x.planId := by
  intro x hx
  rcases ha.others x hx with rfl | ⟨-, m₀, hm₀, -, rfl | rfl⟩
  · exact ha.plan
  · exact h.plans _ hm₀
  · exact h.plans m₀ hm₀

theorem Assigned.storedTimes (h : Inv G db) (ha : Assigned G db ms m days) :
    ∀ x ∈ ms, Sakura.stored x.expiresAt = x.expiresAt := by
  intro x hx
  rcases ha.others x hx with rfl | ⟨-, m₀, hm₀, -, rfl | rfl⟩
  · exact ha.stored
  · exact h.stored _ hm₀
  · exact h.stored m₀ hm₀

/-- A bought membership has its purchase, if the new one has. -/
theorem Assigned.bought (h : Inv G db) (hr : Respects L db { δ with memberships := ms })
    (ha : Assigned G db ms m days) (hm : m.source = "wallet_purchase" →
      ∃ p ∈ (db.overlay { δ with memberships := ms }).purchases, p.membershipId = m.id) :
    ∀ x ∈ ms, x.source = "wallet_purchase" →
      ∃ p ∈ (db.overlay { δ with memberships := ms }).purchases, p.membershipId = x.id := by
  intro x hx hs
  rcases ha.others x hx with rfl | ⟨-, m₀, hm₀, hid, hex⟩
  · exact hm hs
  · have hs₀ : m₀.source = "wallet_purchase" := by rcases hex with rfl | rfl <;> exact hs
    obtain ⟨p, hp, hpm⟩ := h.bought m₀ hm₀ hs₀
    exact ⟨p, hr.mem_purchases hp, hpm.trans hid⟩

end Commit

end Sakura