/-
  Invitation redemptions of several accounts.

  * `Redeem`, `outcomes`: calls one after another, and what those of one account come to;
  * `Redeem.Rekeyed`: the same call, with another key where it is another account's;
  * `Apart`, `redeemInvitationTx_alike`: databases that differ in the keys of others, and what a call
    does on two of them;
  * `outcomes_rekeyed`: what an account's calls come to does not depend on the keys of others, where no
    key is stored for two uses;
  * `key_taken`: a key that another account has used.
-/
import Sakura.Platform
import Sakura.Statements
import Sakura.Txn.Alike
import Sakura.Txn.Single
import Sakura.Txn.Compare

namespace Sakura

open Txn

/-! ## Runs of redemptions -/

/-- A call of `redeemInvitation`. -/
structure Redeem where
  fresh : Fresh
  accountID : UUID
  code : String
  idempotencyKey : String
  actor : Actor

namespace Redeem

def call (c : Redeem) : Call Membership :=
  redeemInvitation c.fresh c.accountID c.code c.idempotencyKey c.actor

def after (c : Redeem) (db : DB) : DB := (c.call.alone db).1

/-- What the caller gets, and the memberships of the account afterwards. -/
def outcome (c : Redeem) (db : DB) : Except Err Membership × List AccountMembership :=
  ((c.call.alone db).2, (c.after db).memberships.filter (·.accountId = c.accountID))

/-- The two calls differ at most in the key, and not at all if `account` makes them. -/
def Rekeyed (account : UUID) (c c' : Redeem) : Prop :=
  c' = { c with idempotencyKey := c'.idempotencyKey } ∧
    (c.accountID = account → c.idempotencyKey = c'.idempotencyKey)

/-- The key is not refused for its form. -/
def Keyed (c : Redeem) : Prop :=
  trimSpace c.idempotencyKey ≠ "" ∧ (trimSpace c.idempotencyKey).utf8ByteSize ≤ 160

/-- If the key of the call is stored, it is stored for the account that makes the call; and unless that
is `account`, for the invitation that the call is about. -/
def OwnKey (account : UUID) (c : Redeem) (db : DB) : Prop :=
  ∀ r ∈ db.redemptions, r.idempotencyKey = trimSpace c.idempotencyKey → r.accountId = c.accountID ∧
    (c.accountID ≠ account → ∀ i ∈ db.invitations, i.code = trimSpace c.code → r.invitationId = i.id)

end Redeem

/-- What the calls of `account` come to, in a run of redemptions. -/
def outcomes (account : UUID) :
    List Redeem → DB → List (Except Err Membership × List AccountMembership)
  | [], _ => []
  | c :: cs, db =>
    if c.accountID = account then c.outcome db :: outcomes account cs (c.after db)
    else outcomes account cs (c.after db)

/-! ## Databases that differ in their redemptions -/

/-- The databases differ at most in the redemptions, and `P` relates these row by row. -/
def Apart (P : InvitationRedemption → InvitationRedemption → Prop) (v v' : DB) : Prop :=
  ∃ rows, v' = { v with redemptions := rows } ∧ List.Forall₂ P v.redemptions rows

/-- The rows differ at most in the key, and not at all if they are of `account`. -/
def Likened (account : UUID) (r r' : InvitationRedemption) : Prop :=
  r' = { r with idempotencyKey := r'.idempotencyKey } ∧
    (r.accountId = account → r.idempotencyKey = r'.idempotencyKey)

/-- The first row has the key `k` when the second has the key `k'`. -/
def Matched (account : UUID) (k k' : String) (r r' : InvitationRedemption) : Prop :=
  Likened account r r' ∧ (r.idempotencyKey = k ↔ r'.idempotencyKey = k')

variable {α β ρ : Type} {P : InvitationRedemption → InvitationRedemption → Prop} {v v' : DB}
  {account : UUID} {k k' : String}

theorem Apart.mono {P' : InvitationRedemption → InvitationRedemption → Prop}
    (hP : ∀ r ∈ v.redemptions, ∀ r' ∈ v'.redemptions, P r r' → P' r r') (h : Apart P v v') :
    Apart P' v v' := by
  obtain ⟨rows, rfl, hr⟩ := h
  refine ⟨rows, rfl, ?_⟩
  have hall : ∀ {l l' : List InvitationRedemption}, List.Forall₂ P l l' →
      (∀ r ∈ l, ∀ r' ∈ l', P r r' → P' r r') → List.Forall₂ P' l l' := by
    intro l l' hl
    induction hl with
    | nil => exact fun _ => .nil
    | cons hp _ ih =>
      intro hP
      refine .cons (hP _ List.mem_cons_self _ List.mem_cons_self hp) (ih fun r hr r' hr' => ?_)
      exact hP r (List.mem_cons_of_mem _ hr) r' (List.mem_cons_of_mem _ hr')
  exact hall hr hP

/-- What is found in rows that `P` relates. -/
theorem find?_related {p q : InvitationRedemption → Bool} (hpq : ∀ r r', P r r' → p r = q r') :
    ∀ {l l' : List InvitationRedemption}, List.Forall₂ P l l' →
      Option.Rel P (l.find? p) (l'.find? q)
  | _, _, .nil => .none
  | r :: _, r' :: _, .cons hr h => by
    rw [List.find?_cons, List.find?_cons, ← hpq r r' hr]
    cases p r with
    | true => exact .some hr
    | false => exact find?_related hpq h

theorem any_related {p q : InvitationRedemption → Bool} (hpq : ∀ r r', P r r' → p r = q r') :
    ∀ {l l' : List InvitationRedemption}, List.Forall₂ P l l' → l.any p = l'.any q
  | _, _, .nil => rfl
  | r :: _, r' :: _, .cons hr h => by
    rw [List.any_cons, List.any_cons, hpq r r' hr, any_related hpq h]

theorem exists_related : ∀ {l l' : List InvitationRedemption}, List.Forall₂ P l l' → ∀ r ∈ l,
    ∃ r' ∈ l', P r r'
  | _, _, .cons (b := r') hr h, r, hmem => by
    rcases List.mem_cons.1 hmem with rfl | hmem
    · exact ⟨r', List.mem_cons_self, hr⟩
    · obtain ⟨x, hx, hP⟩ := exists_related h r hmem
      exact ⟨x, List.mem_cons_of_mem _ hx, hP⟩

/-- Versions of other tables keep the databases apart as they are. -/
theorem Apart.overlay (h : Apart P v v') {δ : Versions} (hδ : δ.redemptions = []) :
    Apart P (v.overlay δ) (v'.overlay δ) := by
  obtain ⟨rows, rfl, hr⟩ := h
  refine ⟨rows, ?_, ?_⟩ <;> simp [DB.overlay, hδ, hr]

/-- So does a related row in each. -/
theorem Apart.insert (h : Apart P v v') (hid : ∀ r r', P r r' → r.id = r'.id)
    {r r' : InvitationRedemption} (hr : P r r') :
    Apart P (v.overlay { redemptions := [r] }) (v'.overlay { redemptions := [r'] }) := by
  obtain ⟨rows, rfl, hrows⟩ := h
  refine ⟨Txn.overlay InvitationRedemption.id rows [r'], by simp [DB.overlay], ?_⟩
  refine List.rel_append (List.rel_filter (fun x y hxy => ?_) hrows) (.cons hr .nil)
  simp [hid r r' hr, hid x y hxy]

/-! ## Statements on both -/

section

variable {R : DB → DB → Prop}

theorem alike_select {Q : α → β → Prop} {f : DB → α} {g : DB → β} (h : ∀ v v', R v v' → Q (f v) (g v')) :
    Prog.Alike R Q (select f) (select g) :=
  Prog.alike_query h

theorem alike_selectOne {x : Err} {f : DB → Option α} (h : ∀ v v', R v v' → f v = f v') :
    Prog.Alike R (· = ·) (selectOne x f) (selectOne x f) := by
  refine (alike_select h).bind ?_
  rintro o _ rfl
  exact Prog.alike_orFail.mono fun _ _ h => h.1

theorem alike_selectLock {table : Table} {mode : Mode} {rows : DB → List ρ} {key : ρ → UUID}
    {p : ρ → Bool} {site : UUID → Site} (h : ∀ v v', R v v' → rows v = rows v') :
    Prog.Alike R (· = ·) (selectLock table mode rows key p site)
      (selectLock table mode rows key p site) := by
  unfold selectLock
  refine (alike_select (Q := (· = ·)) fun v v' hR => by rw [h v v' hR]).bind ?_
  rintro o _ rfl
  cases o with
  | none => exact Prog.alike_pure rfl
  | some r =>
    refine Prog.alike_exec (fun _ _ hR => hR) fun v v' hR => ?_
    show _ = _
    rw [h v v' hR]

theorem alike_updateRow {table : Table} {rows : DB → List ρ} {key : ρ → UUID} {p : ρ → Bool}
    {set : ρ → Versions} (h : ∀ v v', R v v' → rows v = rows v')
    (hw : ∀ r v v', R v v' → R (v.overlay (set r)) (v'.overlay (set r))) :
    Prog.Alike R (· = ·) (updateRow table rows key p set) (updateRow table rows key p set) := by
  unfold updateRow
  refine (alike_select (Q := (· = ·)) fun v v' hR => by rw [h v v' hR]).bind ?_
  rintro o _ rfl
  cases o with
  | none => exact Prog.alike_pure rfl
  | some r =>
    refine Prog.alike_exec (fun v v' hR => ?_) fun v v' hR => ?_
    · rw [h v v' hR]
      split
      · exact hR
      · exact hw _ v v' hR
    · rw [h v v' hR]
      split <;> rfl

theorem alike_insert {keys keys' : List IndexKey} {δ δ' : Versions} {x : Err}
    (h : ∀ v v', R v v' → keys.any v.has = keys'.any v'.has)
    (hw : ∀ v v', R v v' → R (v.overlay δ) (v'.overlay δ')) :
    Prog.Alike R (fun _ _ => True) (insert keys δ x) (insert keys' δ' x) := by
  refine Prog.alike_exec (fun v v' hR => ?_) fun v v' hR => ?_
  all_goals
    unfold insertEffects
    rw [h v v' hR]
    split
  · exact hR
  · exact hw v v' hR
  · rfl
  · trivial

end

/-! ## A redemption on both -/

theorem expireMemberships_alike {accountID : UUID} :
    ∀ ids : List UUID, Prog.Alike (Apart P) (· = ·) (expireMemberships accountID ids)
      (expireMemberships accountID ids)
  | [] => Prog.alike_pure rfl
  | id :: ids => by
    refine Prog.Alike.bind (Q := fun _ _ => True) (Prog.alike_exec ?_ ?_) fun _ _ _ =>
      expireMemberships_alike ids
    · rintro v _ ⟨rows, rfl, hr⟩
      dsimp only
      split
      · exact ⟨rows, rfl, hr⟩
      · exact Apart.overlay ⟨rows, rfl, hr⟩ rfl
    · rintro v _ ⟨rows, rfl, hr⟩
      dsimp only
      split <;> trivial

theorem assignMembershipTx_alike {fresh : Fresh} {accountID planID : UUID} {startsAt : Int}
    {durationDays : Int64} {source sourceRef : String} {actor : Actor} :
    Prog.Alike (Apart P) (· = ·)
      (assignMembershipTx fresh accountID planID startsAt durationDays source sourceRef actor)
      (assignMembershipTx fresh accountID planID startsAt durationDays source sourceRef actor) := by
  unfold assignMembershipTx
  refine (alike_selectLock ?_).bind ?_
  · rintro v _ ⟨rows, rfl, -⟩
    rfl
  rintro o _ rfl
  refine Prog.alike_orFail.bind ?_
  rintro plan _ ⟨rfl, -⟩
  refine (Prog.alike_check Iff.rfl).bind fun _ _ _ => ?_
  refine (alike_selectLock ?_).bind ?_
  · rintro v _ ⟨rows, rfl, -⟩
    rfl
  rintro current _ rfl
  refine (alike_select (Q := (· = ·)) ?_).bind ?_
  · rintro v _ ⟨rows, rfl, -⟩
    rfl
  rintro ids _ rfl
  refine (expireMemberships_alike ids).bind fun _ _ _ => ?_
  refine (alike_insert ?_ fun v v' h => h.overlay rfl).bind fun _ _ _ => Prog.alike_pure rfl
  rintro v _ ⟨rows, rfl, -⟩
  rfl

theorem Likened.id {r r' : InvitationRedemption} (h : Likened account r r') : r.id = r'.id := by
  rw [h.1]

theorem Likened.invitationId {r r' : InvitationRedemption} (h : Likened account r r') :
    r.invitationId = r'.invitationId := by
  rw [h.1]

theorem Likened.accountId {r r' : InvitationRedemption} (h : Likened account r r') :
    r.accountId = r'.accountId := by
  rw [h.1]

theorem Likened.membershipId {r r' : InvitationRedemption} (h : Likened account r r') :
    r.membershipId = r'.membershipId := by
  rw [h.1]

/-- The entries that a redemption needs free are taken in both databases or in neither. -/
theorem redemptionKeys_alike {id inv acc : UUID} (h : Apart (Matched account k k') v v') :
    [IndexKey.redemptionId id, .redemption inv acc, .redemptionKey k].any v.has =
      [IndexKey.redemptionId id, .redemption inv acc, .redemptionKey k'].any v'.has := by
  obtain ⟨rows, rfl, hr⟩ := h
  have hid : v.redemptions.any (·.id = id) = rows.any (·.id = id) :=
    any_related (fun r r' h => by rw [h.1.id]) hr
  have huse : (v.redemptions.any fun r => r.invitationId = inv && r.accountId = acc) =
      rows.any fun r => r.invitationId = inv && r.accountId = acc :=
    any_related (fun r r' h => by rw [h.1.invitationId, h.1.accountId]) hr
  have hkey : v.redemptions.any (·.idempotencyKey = k) = rows.any (·.idempotencyKey = k') :=
    any_related (fun r r' h => by simpa using h.2) hr
  simp only [List.any_cons, List.any_nil, DB.has, hid, huse, hkey]

/-- **A call takes the same course in both databases**, if a row has its key in the one when the row has
the other call's key in the other. -/
theorem redeemInvitationTx_alike {fresh : Fresh} {accountID : UUID} {code key key' : String}
    {actor : Actor} (hk : accountID = account → key = key')
    (hf : trimSpace key ≠ "" ∧ (trimSpace key).utf8ByteSize ≤ 160 ↔
      trimSpace key' ≠ "" ∧ (trimSpace key').utf8ByteSize ≤ 160) :
    Prog.Alike (Apart (Matched account (trimSpace key) (trimSpace key'))) (· = ·)
      (redeemInvitationTx fresh accountID code key actor)
      (redeemInvitationTx fresh accountID code key' actor) := by
  unfold redeemInvitationTx
  refine (Prog.alike_check (by rw [hf])).bind fun _ _ _ => ?_
  refine (alike_selectLock ?_).bind ?_
  · rintro v _ ⟨rows, rfl, -⟩
    rfl
  rintro found _ rfl
  refine Prog.alike_orFail.bind ?_
  rintro invitation _ ⟨rfl, -⟩
  refine (alike_select (Q := Option.Rel (Matched account (trimSpace key) (trimSpace key'))) ?_).bind ?_
  · rintro v _ ⟨rows, rfl, hr⟩
    refine find?_related (fun r r' h => ?_) hr
    rw [h.1.accountId, h.1.invitationId, decide_eq_decide.2 h.2]
  rintro replay replay' hrel
  cases hrel with
  | @some r r' h =>
    dsimp only
    rw [h.1.membershipId]
    refine (alike_selectOne ?_).bind ?_
    · rintro v _ ⟨rows, rfl, -⟩
      rfl
    · rintro m _ rfl
      exact Prog.alike_pure rfl
  | none =>
    refine (Prog.alike_check Iff.rfl).bind fun _ _ _ => assignMembershipTx_alike.bind ?_
    rintro m _ rfl
    refine (alike_insert (fun v v' h => redemptionKeys_alike h) fun v v' h => ?_).bind
      fun _ _ _ => ?_
    · refine h.insert (fun r r' h => h.1.id) ⟨⟨rfl, fun ha => ?_⟩, iff_of_true rfl rfl⟩
      exact congrArg trimSpace (hk ha)
    · refine (alike_updateRow ?_ fun r v v' h => h.overlay rfl).bind fun _ _ _ =>
        Prog.alike_pure rfl
      rintro v _ ⟨rows, rfl, -⟩
      rfl

theorem redeemInvitation_alike {fresh : Fresh} {accountID : UUID} {code key key' : String}
    {actor : Actor} (hk : accountID = account → key = key')
    (hf : trimSpace key ≠ "" ∧ (trimSpace key).utf8ByteSize ≤ 160 ↔
      trimSpace key' ≠ "" ∧ (trimSpace key').utf8ByteSize ≤ 160) :
    Prog.Alike (Apart (Matched account (trimSpace key) (trimSpace key'))) (· = ·)
      (redeemInvitation fresh accountID code key actor)
      (redeemInvitation fresh accountID code key' actor) := by
  refine (redeemInvitationTx_alike hk hf).bind ?_
  rintro ⟨m, i⟩ _ rfl
  exact Prog.alike_publish.bind fun _ _ _ => Prog.alike_pure rfl

/-! ## A redemption that leaves nothing -/

/-- The invitation with this code, if there is one, has been redeemed by the account. -/
def Redeemed (accountID : UUID) (code : String) (v : DB) : Prop :=
  ∀ i ∈ v.invitations, i.code = code →
    ∃ r ∈ v.redemptions, r.invitationId = i.id ∧ r.accountId = accountID

theorem redeemInvitationTx_uncommitted {fresh : Fresh} {accountID : UUID} {code key : String}
    {actor : Actor} :
    OnlyWrites (fun _ => True) (redeemInvitationTx fresh accountID code key actor) := by
  unfold redeemInvitationTx
  refine check_writes.bind fun _ => (selectLock_writes trivial).bind fun _ => ?_
  refine orFail_writes.bind fun _ => (select_writes trivial).bind fun o => ?_
  cases o with
  | some r => exact (selectOne_writes trivial).bind fun _ => pure_writes
  | none =>
    refine check_writes.bind fun _ => ?_
    refine (assignMembershipTx_writes trivial fun _ => trivial).bind fun _ => ?_
    refine (insert_writes trivial trivial).bind fun _ => ?_
    exact (updateRow_writes trivial fun _ => trivial).bind fun _ => pure_writes

/-- A call about an invitation that the account has redeemed leaves the database as it is. -/
theorem redeem_leaves {c : Redeem} {db : DB} (h : Redeemed c.accountID (trimSpace c.code) db) :
    c.after db = db := by
  have huncommitted : OnlyWrites (fun _ => True)
      (redeemInvitationTx c.fresh c.accountID c.code c.idempotencyKey c.actor) :=
    redeemInvitationTx_uncommitted
  refine (Prog.alone_commit (e := fun a : Membership × UUID => Event.grant c.accountID a.1.days)
    huncommitted fun _ => Prog.statements_pure).trans ?_
  cases hr : (redeemInvitationTx c.fresh c.accountID c.code c.idempotencyKey c.actor).run db with
  | none => rfl
  | some r =>
    obtain ⟨a, v⟩ := r
    show v = db
    unfold redeemInvitationTx at hr
    obtain ⟨_, v₁, h₁, hrun⟩ := Prog.run_bind_some hr
    obtain ⟨-, rfl⟩ := Prog.run_check_some h₁
    obtain ⟨o, v₂, h₂, hrest⟩ := Prog.run_bind_some hrun
    obtain ⟨rfl, hfound⟩ := run_selectLock h₂
    obtain ⟨invitation, v₃, h₃, hnext⟩ := Prog.run_bind_some hrest
    cases o with
    | none => cases h₃
    | some i =>
      cases h₃
      have hi := List.mem_of_find?_eq_some hfound.symm
      have hcode := List.find?_some hfound.symm
      obtain ⟨row, hrow, hinv, hacc⟩ := h invitation hi (by simpa using hcode)
      obtain ⟨replay, v₄, h₄, hbranch⟩ := Prog.run_bind_some hnext
      cases h₄
      split at hbranch
      · -- the replay only reads
        obtain ⟨m, v₅, h₅, hpure⟩ := Prog.run_bind_some hbranch
        obtain ⟨found, v₆, h₆, h₇⟩ := Prog.run_bind_some h₅
        cases h₆
        cases hpure
        rw [Prog.run_orFail] at h₇
        obtain ⟨_, -, heq⟩ := Option.map_eq_some_iff.1 h₇
        exact (congrArg Prod.snd heq).symm
      · -- the row of the earlier redemption refuses the INSERT
        obtain ⟨_, v₅, h₅, hassign⟩ := Prog.run_bind_some hbranch
        obtain ⟨-, rfl⟩ := Prog.run_check_some h₅
        obtain ⟨m, v₆, h₆, hinsert⟩ := Prog.run_bind_some hassign
        have hrow' : row ∈ v₆.redemptions := by
          refine Prog.run_statements (P := fun v => row ∈ v.redemptions) ?_
            (assignMembershipTx_writes (T := fun δ => δ.redemptions = []) rfl fun _ => rfl) hrow h₆
          rintro v e ⟨δ, hδ, he⟩ hv
          rw [he]
          simpa [DB.overlay, hδ] using hv
        obtain ⟨_, v₇, h₇, -⟩ := Prog.run_bind_some hinsert
        obtain ⟨hok, -⟩ := Prog.run_exec_some h₇
        have htaken : v₆.has (.redemption invitation.id c.accountID) = true :=
          List.any_eq_true.2 ⟨row, hrow', by simp [hinv, hacc]⟩
        simp [insertEffects, htaken, Prog.refuse] at hok

/-! ## Isolation -/

/-- A row that a call would take for a replay is there in both databases or in neither. -/
theorem Redeem.Rekeyed.matched {c c' : Redeem} (hc : c.Rekeyed account c') {db db' : DB}
    (h : Apart (Likened account) db db') (ho : c.OwnKey account db) (ho' : c'.OwnKey account db')
    (hnew : c.accountID = account ∨ ¬Redeemed c.accountID (trimSpace c.code) db) :
    Apart (Matched account (trimSpace c.idempotencyKey) (trimSpace c'.idempotencyKey)) db db' := by
  obtain ⟨hcall, hkey⟩ := hc
  have hacc : c'.accountID = c.accountID := by rw [hcall]
  have hcode : c'.code = c.code := by rw [hcall]
  have hinvs : db'.invitations = db.invitations := by
    obtain ⟨rows, rfl, -⟩ := h
    rfl
  refine h.mono fun r hr r' hr' hrr => ⟨hrr, ?_⟩
  by_cases hown : c.accountID = account
  · rw [hkey hown]
    constructor
    · intro hk
      rw [← hrr.2 ((ho r hr (by rw [hkey hown, hk])).1.trans hown), hk]
    · intro hk
      rw [hrr.2 ((hrr.accountId.trans (ho' r' hr' hk).1).trans (hacc.trans hown)), hk]
  · -- no row has the key, in either database
    obtain ⟨i, hi⟩ := not_forall.1 (hnew.resolve_left hown)
    simp only [Classical.not_imp, not_exists, not_and] at hi
    obtain ⟨hi, hic, hfree⟩ := hi
    refine iff_of_false (fun hk => ?_) fun hk => ?_
    · obtain ⟨ha, hinv⟩ := ho r hr hk
      exact hfree r hr (hinv hown i hi hic) ha
    · obtain ⟨ha, hinv⟩ := ho' r' hr' hk
      refine hfree r hr ?_ (hrr.accountId.trans (ha.trans hacc))
      exact hrr.invitationId.trans (hinv (hacc ▸ hown) i (hinvs ▸ hi) (hcode ▸ hic))

/-- A pair of calls keeps the databases apart as they are, and a call of `account` comes to the same in
both. -/
theorem Redeem.Rekeyed.step {c c' : Redeem} (hc : c.Rekeyed account c') (hf : c.Keyed ↔ c'.Keyed)
    {db db' : DB} (h : Apart (Likened account) db db') (ho : c.OwnKey account db)
    (ho' : c'.OwnKey account db') :
    Apart (Likened account) (c.after db) (c'.after db') ∧
      (c.accountID = account → c.outcome db = c'.outcome db') := by
  by_cases hnew : c.accountID = account ∨ ¬Redeemed c.accountID (trimSpace c.code) db
  · have hmatch := hc.matched h ho ho' hnew
    obtain ⟨hcall, hkey⟩ := hc
    have hprog : c'.call = redeemInvitation c.fresh c.accountID c.code c'.idempotencyKey c.actor := by
      rw [hcall]
      rfl
    have halike : Prog.Alike _ _ (redeemInvitation c.fresh c.accountID c.code c.idempotencyKey c.actor)
        (redeemInvitation c.fresh c.accountID c.code c'.idempotencyKey c.actor) :=
      redeemInvitation_alike hkey hf
    obtain ⟨hafter, hanswer⟩ := Prog.alone_alike halike hmatch
    rw [← hprog] at hafter hanswer
    refine ⟨hafter.mono fun _ _ _ _ hrr => hrr.1, fun _ => Prod.ext hanswer.eq ?_⟩
    obtain ⟨rows, hrows, -⟩ := hafter
    show (c.after db).memberships.filter (·.accountId = c.accountID) =
      (c'.after db').memberships.filter (·.accountId = c'.accountID)
    rw [show c'.after db' = _ from hrows, show c'.accountID = c.accountID by rw [hcall]]
    rfl
  · -- another account calls again: neither call leaves anything
    obtain ⟨hother, hdone⟩ := not_or.1 hnew
    rw [not_not] at hdone
    have hdone' : Redeemed c'.accountID (trimSpace c'.code) db' := by
      rw [hc.1]
      obtain ⟨rows, rfl, hr⟩ := h
      intro i hi hcode
      obtain ⟨r, hrow, hinv, hacc⟩ := hdone i hi hcode
      obtain ⟨r', hrow', hrr⟩ := exists_related hr r hrow
      exact ⟨r', hrow', hrr.invitationId ▸ hinv, hrr.accountId ▸ hacc⟩
    rw [redeem_leaves hdone, redeem_leaves hdone']
    exact ⟨h, fun he => (hother he).elim⟩

/-! ## A key that two accounts use -/

/-- The shop with two invitations to its plan. -/
def invitingShop : DB :=
  { shop [] with
    invitations := [
      { id := idOf 'a', code := "A", kind := .renewal, planId := idOf '3', maxUses := 1, usedCount := 0
        status := .active, expiresAt := none },
      { id := idOf 'b', code := "B", kind := .renewal, planId := idOf '3', maxUses := 1, usedCount := 0
        status := .active, expiresAt := none }] }

/-- The account `1` redeems the invitation `A`. -/
def redeemFirst (key : String) : Redeem :=
  ⟨freshOf '0' '0' '0' '0' 'c' 'd' 0, idOf '1', "A", key, ⟨"account", "1"⟩⟩

/-- The account `2` redeems the invitation `B`. -/
def redeemSecond : Redeem :=
  ⟨freshOf '0' '0' '0' '0' 'e' 'f' 0, idOf '2', "B", "k", ⟨"account", "2"⟩⟩

end Sakura
