/-
  Sessions of an account that leaves the status `active`.

  * `Request.Opens…`: what a login commits and an authentication accepts, by what they have read;
  * `sessions_end`: while sessions are only inserted `asRead`, no session whose login had read the status
    before a lifecycle change is accepted after it;
  * `lateSession_accepted`: a session inserted by a login that the change has overtaken comes to life when
    the account is made active again.
-/
import Sakura.Identity.Owners
import Sakura.Txn.Traces

namespace Sakura.Identity

open Txn

/-! ## What a login reads -/

/-- A session is created at the revision that the account had in `db`. -/
def AtRevision (db : Store) (e : Event) : Prop :=
  ∀ id a r, e = .session id a r → ∃ x ∈ db.accounts, x.id = a ∧ x.revision = r

/-- The accepted session was open in `db`. -/
def Open (db : Store) (reply : Reply) : Prop :=
  ∀ a id perms, reply = .principal a id perms →
    ∃ s ∈ db.sessions, s.id = id ∧ s.accountId = a ∧ s.revokedAt = none

theorem getAccount_sure {id : UUID} {E : Event → Prop} :
    (getAccount id).Sure (fun _ => True) E :=
  Prog.sure_readOne.bind fun _ _ => Prog.sure_pure trivial

theorem useIdentity_sure {l : Login} {id : UUID} {hash : String} {db : Store} :
    (useIdentity l id hash).Sure (fun _ => True) (AtRevision db) := by
  have hpublish : ∀ {p set}, (identities.updateRows p set >>= fun _ =>
      .publish (.identityUsed id) : Call Unit).Sure (fun _ => True) (AtRevision db) :=
    fun {p set} => Prog.sure_updateRows.bind fun _ _ => Prog.sure_publish (by simp [AtRevision])
  unfold useIdentity
  split
  · split
    · exact trivial
    · exact hpublish
  · exact hpublish

theorem createSession_sure {sec : Security} {l : Login} {db : Store} {a : Account}
    (ha : a ∈ db.accounts) :
    (createSession sec l a.id a.revision).Sure (fun _ => True) (AtRevision db) := by
  refine Prog.Sure.bind (R := fun _ => True) (Prog.sure_query fun _ => trivial) fun _ _ => ?_
  refine Prog.Sure.bind (R := fun _ => True) Prog.sure_exec fun _ _ => ?_
  refine Prog.Sure.bind (R := fun _ => True) (Prog.sure_publish fun id b r e => ?_) fun _ _ => ?_
  · cases e
    exact ⟨a, ha, rfl, rfl⟩
  · exact getAccount_sure.bind fun _ _ => Prog.sure_pure trivial

theorem authenticateLocal_opens {sec : Security} {l : Login} {username password : String} :
    (authenticateLocal sec l username password).Opens (fun _ _ => True) AtRevision := by
  unfold authenticateLocal
  cases normalizeUsername sec username with
  | none => trivial
  | some normalized =>
    intro v
    refine Prog.Sure.bind (p := .orFail Error.invalidCredentials (v.localIdentity normalized))
      Prog.sure_orFail fun ⟨i, a⟩ hia => ?_
    refine Prog.sure_check.bind fun _ _ => Prog.sure_check.bind fun _ _ => ?_
    exact useIdentity_sure.bind fun _ _ => createSession_sure (localIdentity_mem hia)

theorem authenticateSession_opens {sec : Security} {now : Time} {token : String} :
    (authenticateSession sec now token).Opens Open (fun _ _ => True) := by
  intro v
  refine Prog.Sure.bind (p := .orFail Error.invalidCredentials (v.openSession (sec.hashToken token) now))
    Prog.sure_orFail fun ⟨s, a⟩ hsa => ?_
  refine Prog.sure_check.bind fun _ _ => ?_
  refine Prog.Sure.bind (R := fun _ => True) (Prog.sure_query fun _ => trivial) fun perms _ => ?_
  refine Prog.sure_updateRow.bind fun _ _ => (Prog.sure_publish trivial).bind fun _ _ => ?_
  refine Prog.sure_pure fun b id ps e => ?_
  cases e
  simp only [Store.openSession, Option.bind_eq_bind, Option.bind_eq_some_iff] at hsa
  obtain ⟨s', hs', a', ha', e⟩ := hsa
  cases e
  have hp := List.find?_some hs'
  have hid := List.find?_some ha'
  simp only [Bool.and_eq_true, decide_eq_true_eq] at hp hid
  exact ⟨s, List.mem_of_find?_eq_some hs', rfl, hid.symm, hp.1.2⟩

/-! ## What commits keep -/

/-- No session is lost, nor comes to life again. -/
theorem Commit.keeps_session {strict : Prop} {L : Held Lock} {db : Store} {e : Event} {δ : Versions}
    (hdb : db.WellFormed) (h : Commit strict L db e δ) {s : Session} (hs : s ∈ db.sessions) :
    ∃ s' ∈ (db.overlay δ).sessions, s'.id = s.id ∧ keepsRevoked s s' :=
  h.respects.sessions.version_overlay (fun _ => ⟨rfl, fun h => h⟩) hdb.sessionIds hs

/-- The revision of an account never falls. -/
theorem Commit.keeps_revision {strict : Prop} {L : Held Lock} {db : Store} {e : Event} {δ : Versions}
    (hdb : db.WellFormed) (h : Commit strict L db e δ) {a : UUID} {n : Nat}
    (ha : ∃ x ∈ db.accounts, x.id = a ∧ n ≤ x.revision) :
    ∃ x ∈ (db.overlay δ).accounts, x.id = a ∧ n ≤ x.revision := by
  obtain ⟨x, hx, hid, hn⟩ := ha
  obtain ⟨y, hy, hyid, rfl | hxy⟩ := SinceRead.overlay (a := x) (L := L) ⟨x, hx, rfl, Or.inl rfl⟩
    hdb h.respects
  · exact ⟨y, hy, hid, hn⟩
  · exact ⟨y, hy, hyid.trans hid, hn.trans hxy.le⟩

/-- A session that was created has a row. -/
theorem Commits.session {strict : Prop} {db₀ db : Store} {es : List Event}
    (h : (discipline strict).Commits db₀ es db) {id a : UUID} {r : Nat}
    (he : Event.session id a r ∈ es) : ∃ s ∈ db.sessions, s.id = id ∧ s.accountId = a := by
  induction h with
  | nil => cases he
  | @snoc es db' L e db'' _ hi hs ih =>
    obtain ⟨δ, rfl, hc⟩ := hs
    rcases List.mem_append.1 he with he | he
    · obtain ⟨s, hs, hid, ha⟩ := ih he
      obtain ⟨s', hs', hid', hk⟩ := hc.keeps_session hi hs
      exact ⟨s', hs', hid'.trans hid, hk.1.trans ha⟩
    · obtain ⟨s, hs, hid, ha⟩ := (hc.session id a r (List.mem_singleton.1 he).symm).2.1
      exact ⟨s, mem_overlay_right hs, hid, ha⟩

/-! ## Suspended accounts -/

variable {ι : Type} [DecidableEq ι] {sec : Security} {reqs : ι → Request} {db₀ : Store}
  {s s' : State ι Site Store Lock Event Error Reply}

omit [DecidableEq ι] in
theorem keeps_all (sec : Security) (reqs : ι → Request) : ∀ i db, (discipline True).inv db →
    wp (discipline True) (calls sec reqs i) (fun _ _ => True) (fun _ _ => True) { db := db } :=
  fun i db hi => (reqs i).keeps True sec db hi

/-- A session of a state has a later version in every later one. -/
theorem session_later (hdb : db₀.WellFormed)
    (h : ReachableIf (calls sec reqs) (discipline True).allowed (fresh ι db₀) s)
    (hr : ReachableIf (calls sec reqs) (discipline True).allowed s s') {x : Session}
    (hx : x ∈ s.db.sessions) : ∃ x' ∈ s'.db.sessions, x'.id = x.id ∧ keepsRevoked x x' := by
  refine Sound.later (Q := fun _ _ _ => True) (E := fun _ _ _ => True)
    (P := fun db => ∃ x' ∈ db.sessions, x'.id = x.id ∧ keepsRevoked x x') (keeps_all sec reqs) ?_
    (sound hdb h) hr ⟨x, hx, rfl, rfl, fun h => h⟩
  rintro db L e _ hi ⟨δ, rfl, hc⟩ ⟨y, hy, hid, hk⟩
  obtain ⟨z, hz, hzid, hzk⟩ := hc.keeps_session hi hy
  exact ⟨z, hz, hzid.trans hid, hzk.1.trans hk.1, fun h => hzk.2 (hk.2 h)⟩

theorem revision_later (hdb : db₀.WellFormed)
    (h : ReachableIf (calls sec reqs) (discipline True).allowed (fresh ι db₀) s)
    (hr : ReachableIf (calls sec reqs) (discipline True).allowed s s') {a : UUID} {n : Nat}
    (ha : ∃ x ∈ s.db.accounts, x.id = a ∧ n ≤ x.revision) :
    ∃ x ∈ s'.db.accounts, x.id = a ∧ n ≤ x.revision := by
  refine Sound.later (Q := fun _ _ _ => True) (E := fun _ _ _ => True)
    (P := fun db => ∃ x ∈ db.accounts, x.id = a ∧ n ≤ x.revision) (keeps_all sec reqs) ?_
    (sound hdb h) hr ha
  rintro db L e _ hi ⟨δ, rfl, hc⟩ ha
  exact hc.keeps_revision hi ha

/-- A session that a login commits has the revision of the status that it read. -/
theorem login_revision {i : ι} {l : Login} {username password : String}
    (hi : reqs i = .authenticateLocal l username password) (hdb : db₀.WellFormed)
    (h : ReachableIf (calls sec reqs) (discipline True).allowed (fresh ι db₀) s)
    (hb : Begun (calls sec reqs) s i)
    (hr : ReachableIf (calls sec reqs) (discipline True).allowed s s') {id a : UUID} {r : Nat}
    (he : (i, Event.session id a r) ∈ s'.log) : ∃ x ∈ s.db.accounts, x.id = a ∧ r ≤ x.revision := by
  have hopens : (calls sec reqs i).Opens (fun _ _ => True) AtRevision := by
    show ((reqs i).call sec).Opens _ _
    rw [hi]
    exact authenticateLocal_opens
  rcases Begun.after hopens (fun hb => hb.1 rfl) h with ⟨hn, -⟩ | ⟨t, ht, ht', ha⟩
  · exact absurd hb hn
  · obtain ⟨x, hx, hid, hrev⟩ : ∃ x ∈ t.db.accounts, x.id = a ∧ x.revision = r := by
      rcases (ha.run hr).logged _ he with he | he
      · cases he
      · exact he id a r rfl
    exact revision_later hdb ht ht' ⟨x, hx, hid, hrev.ge⟩

/-- A session that is accepted was open in some state since. -/
theorem accepted_open {k : ι} {now : Time} {token : String}
    (hk : reqs k = .authenticateSession now token) (hb : ¬Begun (calls sec reqs) s k)
    (hr : ReachableIf (calls sec reqs) (discipline True).allowed s s') {a id : UUID}
    {perms : List String} (hacc : s'.phase k = .ended (.ok (.principal a id perms))) :
    ∃ t, ReachableIf (calls sec reqs) (discipline True).allowed s t ∧
      ReachableIf (calls sec reqs) (discipline True).allowed t s' ∧
      ∃ x ∈ t.db.sessions, x.id = id ∧ x.accountId = a ∧ x.revokedAt = none := by
  have hopens : (calls sec reqs k).Opens Open fun _ _ => True := by
    show ((reqs k).call sec).Opens _ _
    rw [hk]
    exact authenticateSession_opens
  rcases Begun.after hopens hb hr with ⟨hn, -⟩ | ⟨t, ht, ht', ha⟩
  · rcases not_begun.1 hn with h | h <;> rw [hacc] at h <;> cases h
  · exact ⟨t, ht, ht', ha.returned _ hacc a id perms rfl⟩

/-- **A lifecycle change out of `active` ends every earlier session for good**, in the runs where the
INSERT of a session always finds the account as its status was read: after the change, no session is
accepted that existed before it, nor one whose login had read the status before it. -/
theorem sessions_end {s₁ s₂ s₃ : State ι Site Store Lock Event Error Reply} (hdb : db₀.WellFormed)
    (h₁ : ReachableIf (calls sec reqs) asRead (fresh ι db₀) s₁)
    (hs : Step (calls sec reqs) asRead s₁ s₂) {j : ι} {a : UUID} {t : AccountStatus}
    (ht : t ≠ .active) (hlog : s₂.log = s₁.log ++ [(j, .lifecycle a .active t)])
    (h₂ : ReachableIf (calls sec reqs) asRead s₂ s₃) {k : ι} {now : Time} {token : String}
    (hk : reqs k = .authenticateSession now token) (hb : ¬Begun (calls sec reqs) s₂ k) {id : UUID}
    {perms : List String} (hacc : s₃.phase k = .ended (.ok (.principal a id perms))) :
    (∀ x ∈ s₁.db.sessions, x.id ≠ id) ∧
      ∀ i l username password b r, reqs i = .authenticateLocal l username password →
        Begun (calls sec reqs) s₁ i → (i, .session id b r) ∉ s₃.log := by
  have hallow : ∀ site v, asRead site v → (discipline True).allowed site v := fun _ _ h _ => h
  replace h₁ := h₁.mono hallow
  replace hs := hs.mono hallow
  replace h₂ := h₂.mono hallow
  have h₁₂ := h₁.tail hs
  obtain ⟨L, δ, hδ, hc⟩ := (sound hdb h₁).step_commit hs hlog
  obtain ⟨-, ⟨y, hy, hya, -⟩, hrevoked⟩ := hc.lifecycle a .active t rfl
  obtain ⟨u, hu, hu', x, hx, hid, hxa, hopen⟩ := accepted_open hk hb h₂ hacc
  have huniq : UniqueBy Session.id u.db.sessions := (sound hdb (h₁₂.trans hu)).inv.sessionIds
  -- the accepted session is none of those that the change has seen
  have hnew : ∀ z ∈ s₂.db.sessions, z.id ≠ id := by
    intro z hz hzid
    obtain ⟨z', hz', hzid', hkeep⟩ := session_later hdb h₁₂ hu hz
    rw [huniq.eq hz' hx (hzid'.trans (hzid.trans hid.symm))] at hkeep
    rw [hδ] at hz
    exact hkeep.2 (hrevoked ht z hz (hkeep.1.symm.trans hxa)) hopen
  refine ⟨fun z hz hzid => ?_, fun i l username password b r hi hbegun he => ?_⟩
  · obtain ⟨z', hz', hzid', -⟩ := session_later hdb h₁ (.tail .refl hs) hz
    exact hnew z' hz' (hzid'.trans hzid)
  · -- the session belongs to the account that it is accepted for
    obtain ⟨z, hz, hzid, hzb⟩ := Commits.session (sound hdb (h₁₂.trans h₂)).commits
      (List.mem_map.2 ⟨_, he, rfl⟩)
    obtain ⟨x', hx', hxid', hkeep⟩ := session_later hdb (h₁₂.trans hu) hu' hx
    have hz' : z = x' := UniqueBy.eq (sound hdb (h₁₂.trans h₂)).inv.sessionIds hz hx'
      (hzid.trans (hxid'.trans hid).symm)
    have hba : b = a := by rw [← hzb, hz', hkeep.1, hxa]
    subst hba
    obtain ⟨w, hw, hwid, hwrev⟩ := login_revision hi hdb h₁ hbegun (.head hs h₂) he
    have hlater : ∃ v ∈ s₂.db.accounts, v.id = b ∧ r + 1 ≤ v.revision := by
      rcases hc.respects.accounts.version y hy with ⟨y₀, hy₀, e₀, hlt, -⟩ | ⟨hf, -⟩
      · have hw₀ : w = y₀ := (sound hdb h₁).inv.accountIds.eq hw hy₀ (hwid.trans (e₀.trans hya).symm)
        subst hw₀
        exact ⟨y, hδ ▸ mem_overlay_right hy, hya, hwrev.trans_lt hlt⟩
      · exact absurd (hwid.trans hya.symm) (hf w hw)
    rcases Sound.committed (D := discipline True) (Q := fun _ _ _ => True) (E := fun _ _ _ => True)
        (P := fun db => ∃ v ∈ db.accounts, v.id = b ∧ r + 1 ≤ v.revision)
        (keeps_all sec reqs) (fun hi ⟨_, e, hc⟩ h => e ▸ hc.keeps_revision hi h) (sound hdb h₁₂) h₂
        hlater he with he | ⟨db, M, db', hi', ⟨v, hv, hvid, hvrev⟩, δ', -, hc'⟩
    · obtain ⟨z', hz', hzid', -⟩ := Commits.session (sound hdb h₁₂).commits
        (List.mem_map.2 ⟨_, he, rfl⟩)
      exact hnew z' hz' hzid'
    · obtain ⟨v', hv', hvid', hvrev', -⟩ := (hc'.session id b r rfl).2.2 trivial
      rw [hi'.accountIds.eq hv' hv (hvid'.trans hvid.symm)] at hvrev'
      omega

/-! ## Runs -/

/-- A login of the first owner, with the session and the token of a digit. -/
def loginOf (digit : Char) : Request :=
  .authenticateLocal ⟨idOf digit, "token".push digit, "csrf", none, 0, 0, 1000⟩ "sakura" "hash"

/-- The first owner logs in, is suspended and made active again, and a session is authenticated. -/
def suspendedOwner (digit : Char) : Fin 5 → Request
  | 0 => loginOf '6'
  | 1 => .changeLifecycle 0 (idOf '1') (some .suspended) "left"
  | 2 => .changeLifecycle 0 (idOf '1') (some .active) "back"
  | 3 => loginOf '7'
  | 4 => .authenticateSession 0 ("token".push digit)

/-- What is computed of the states before and after the suspension and of the last state. -/
def accepts (k : Fin 5) (id : UUID) (s₁ s₂ s₃ : State (Fin 5) Site Store Lock Event Error Reply) :
    Bool :=
  decide (s₂.log = s₁.log ++ [(1, .lifecycle (idOf '1') .active .suspended)]) &&
    (s₂.phase k).isIdle && match (s₃.phase k).answer with
      | some (.ok r) => decide (r = .principal (idOf '1') id [])
      | _ => false

theorem accepts_spec {sec : Security} {reqs : Fin 5 → Request} {k : Fin 5} {id : UUID}
    {s₁ s₂ s₃ : State (Fin 5) Site Store Lock Event Error Reply} (h : accepts k id s₁ s₂ s₃ = true) :
    s₂.log = s₁.log ++ [(1, .lifecycle (idOf '1') .active .suspended)] ∧
      ¬Begun (calls sec reqs) s₂ k ∧ s₃.phase k = .ended (.ok (.principal (idOf '1') id [])) := by
  simp only [accepts, Bool.and_eq_true, decide_eq_true_eq] at h
  obtain ⟨⟨hlog, hidle⟩, h⟩ := h
  refine ⟨hlog, not_begun_of_isIdle hidle, ?_⟩
  split at h
  · next r hr =>
    rw [Phase.eq_of_answer hr, of_decide_eq_true h]
  · cases h

/-- The first session ends with the suspension; the second login's session is accepted. -/
theorem sessions_end_newLogin :
    ∃ s₁ s₂ s₃, ReachableIf (calls plainSecurity (suspendedOwner '7')) asRead (fresh _ twoOwners) s₁ ∧
      Step (calls plainSecurity (suspendedOwner '7')) asRead s₁ s₂ ∧
      ReachableIf (calls plainSecurity (suspendedOwner '7')) asRead s₂ s₃ ∧
      s₃.phase 4 = .ended (.ok (.principal (idOf '1') (idOf '7') [])) ∧
      (∀ x ∈ s₁.db.sessions, x.id ≠ idOf '7') ∧
      (Begun (calls plainSecurity (suspendedOwner '7')) s₁ 0 →
        (0, .session (idOf '7') (idOf '1') 0) ∉ s₃.log) := by
  obtain ⟨s₁, s₂, s₃, h₁, hs, h₂, h⟩ := replay_step_any (List.finRange 5) (by decide)
    (calls plainSecurity (suspendedOwner '7')) asRead
    (List.replicate 10 0 ++ List.replicate 11 1) 1
    (List.replicate 2 1 ++ List.replicate 8 2 ++ List.replicate 10 3 ++ List.replicate 6 4)
    (fresh (Fin 5) twoOwners) (accepts 4 (idOf '7')) (by decide +kernel)
  obtain ⟨hlog, hb, hacc⟩ := accepts_spec h
  have hend := sessions_end twoOwners_wellFormed h₁ hs (by decide) hlog h₂ (k := 4) rfl hb hacc
  exact ⟨s₁, s₂, s₃, h₁, hs, h₂, hacc, hend.1, hend.2 0 _ _ _ _ _ rfl⟩

/-- **The late session comes to life**: the login has read the status, the account is suspended, the
session is inserted, the account is made active again, and the session is accepted. -/
theorem lateSession_accepted :
    ∃ s₁ s₂ s₃, Reachable (calls plainSecurity (suspendedOwner '6')) (fresh _ twoOwners) s₁ ∧
      Step (calls plainSecurity (suspendedOwner '6')) (fun _ _ => True) s₁ s₂ ∧
      s₂.log = s₁.log ++ [(1, .lifecycle (idOf '1') .active .suspended)] ∧
      Reachable (calls plainSecurity (suspendedOwner '6')) s₂ s₃ ∧
      ¬Begun (calls plainSecurity (suspendedOwner '6')) s₂ 4 ∧
      s₃.phase 4 = .ended (.ok (.principal (idOf '1') (idOf '6') [])) ∧
      Begun (calls plainSecurity (suspendedOwner '6')) s₁ 0 ∧
      (0, .session (idOf '6') (idOf '1') 0) ∈ s₃.log := by
  obtain ⟨s₁, s₂, s₃, h₁, hs, h₂, h⟩ := replay_step_any (List.finRange 5) (by decide)
    (calls plainSecurity (suspendedOwner '6')) (fun _ _ => True)
    (List.replicate 5 0 ++ List.replicate 10 1) 1
    (List.replicate 2 1 ++ List.replicate 5 0 ++ List.replicate 8 2 ++ List.replicate 6 4)
    (fresh (Fin 5) twoOwners) (fun s₁ s₂ s₃ => accepts 4 (idOf '6') s₁ s₂ s₃ &&
      decide ((s₁.phase 0).done ≠ [] ∧ (0, .session (idOf '6') (idOf '1') 0) ∈ s₃.log))
    (by decide +kernel)
  simp only [Bool.and_eq_true, decide_eq_true_eq] at h
  obtain ⟨hlog, hb, hacc⟩ := accepts_spec h.1
  exact ⟨s₁, s₂, s₃, h₁, hs, hlog, h₂, hb, hacc, begun_of_done h.2.1, h.2.2⟩

end Sakura.Identity
