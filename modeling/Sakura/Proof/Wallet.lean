/-
  The movements of platform/wallet.go, under interference.

  * `setup`, `booked`: the versions of a transaction before and after it has posted a movement;
  * `Usable`: an account that a transaction may move money on;
  * `ensureWalletTx_bind`, `systemLedgerAccountTx_bind`, `requireBalance_bind`, `postLedgerTx_bind`:
    what each of these leaves behind.
-/
import Sakura.Proof.Session

namespace Sakura

open Txn

variable {G : Scope} {α β : Type} {L : Held Lock} {db : DB} {c c' : Moment}
  {A : List LedgerAccount} {W : List Wallet} {t : LedgerTransaction} {es : List LedgerEntry}

/-- New accounts and wallets, but no movement. -/
def setup (A : List LedgerAccount) (W : List Wallet) : Versions :=
  { ledger := ⟨A, [], []⟩, wallets := W }

/-- One movement, with its accounts and wallets. -/
def booked (A : List LedgerAccount) (W : List Wallet) (t : LedgerTransaction)
    (es : List LedgerEntry) : Versions :=
  { ledger := ⟨A, [t], es⟩, wallets := W }

/-! ## Rows of one transaction -/

theorem Respects.account (h : Respects L db (setup A W)) {a : LedgerAccount}
    (hid : ∀ b ∈ (db.overlay (setup A W)).ledger.accounts, b.id ≠ a.id)
    (hkey : ∀ b ∈ (db.overlay (setup A W)).ledger.accounts, b.key ≠ a.key)
    (hl : Holds L (.ledger (.accountId a.id))) (hl' : Holds L (.ledger (.accountKey a.key))) :
    Respects L db (setup (put LedgerAccount.id A a) W) :=
  { h with
    accounts := h.accounts.put (Or.inr ⟨fun b hb => hid b (h.mem_accounts hb), hl⟩)
    accountKeys := h.accountKeys.put (Or.inr ⟨fun b hb => hkey b (h.mem_accounts hb), hl'⟩)
      fun b hb e => absurd e (hkey b (mem_overlay_right hb))
    entryAccount := fun _ he => by cases he }

/-- The key of a wallet is that of all its versions. -/
theorem Respects.wallet_version {δ : Versions} (hdb : db.WellFormed) (h : Respects L db δ) {w : Wallet}
    (hw : w ∈ db.wallets) : ∃ w' ∈ (db.overlay δ).wallets, w'.key = w.key := by
  obtain ⟨w', hw', -, h₁, -, h₃⟩ :=
    h.wallets.version_overlay (fun _ => ⟨rfl, rfl, rfl⟩) hdb.walletIds hw
  exact ⟨w', hw', by rw [Wallet.key, Wallet.key, h₁, h₃]⟩

theorem Respects.newWallet (hdb : db.WellFormed) (h : Respects L db (setup A W)) {w : Wallet}
    (hid : ∀ w' ∈ (db.overlay (setup A W)).wallets, w'.id ≠ w.id)
    (hkey : ∀ w' ∈ (db.overlay (setup A W)).wallets, w'.key ≠ w.key)
    (hl : Holds L (.index (.walletId w.id))) (hl' : Holds L (.index (.wallet w.accountId w.currency))) :
    Respects L db (setup A (put Wallet.id W w)) :=
  { h with
    entryAccount := fun _ he => by cases he
    wallets := h.wallets.put (Or.inr ⟨(fresh_of_view hid).1, hl⟩)
    walletKeys := by
      refine h.walletKeys.put (Or.inr ⟨fun w' hw' e => ?_, hl'⟩) fun w' hw' e => ?_
      · obtain ⟨w'', hw'', e'⟩ := h.wallet_version hdb hw'
        exact hkey w'' hw'' (e'.trans e)
      · exact absurd e (hkey w' (mem_overlay_right hw')) }

theorem sameWallet.key {w w' : Wallet} (h : sameWallet w w') : w'.key = w.key := by
  rw [Wallet.key, Wallet.key, h.1, h.2.2]

theorem sameWallet.trans {w w' w'' : Wallet} (h : sameWallet w w') (h' : sameWallet w' w'') :
    sameWallet w w'' :=
  ⟨h'.1.trans h.1, h'.2.1.trans h.2.1, h'.2.2.trans h.2.2⟩

theorem Respects.updateWallet (hdb : db.WellFormed) (h : Respects L db (setup A W)) {w w' : Wallet}
    (hw : w ∈ (db.overlay (setup A W)).wallets) (hl : Holds L (.row .wallets w.id))
    (hid : w'.id = w.id) (hs : sameWallet w w') :
    Respects L db (setup A (put Wallet.id W w')) :=
  { h with
    entryAccount := fun _ he => by cases he
    wallets := by
      refine h.wallets.put ?_
      rw [hid]
      rcases mem_overlay.1 hw with ⟨hw, -⟩ | hw
      · exact Or.inl ⟨w, hw, rfl, hs, hl⟩
      · rcases h.wallets.version w hw with ⟨w₀, h₀, e, hs', -⟩ | hn
        · exact Or.inl ⟨w₀, h₀, e, hs'.trans hs, hl⟩
        · exact Or.inr hn
    walletKeys := by
      refine h.walletKeys.put ?_ fun x hx e => ?_
      · rw [hid, hs.key]
        rcases mem_overlay.1 hw with ⟨hw, -⟩ | hw
        · exact Or.inl ⟨w, hw, rfl, rfl⟩
        · exact h.walletKeys.entry w hw
      · rw [hid, (h.wellFormed hdb).walletKeys.eq (mem_overlay_right hx) hw (e.trans hs.key)] }

theorem Respects.draft (h : Respects L db (setup A W))
    (hid : ∀ u ∈ db.ledger.transactions, u.id ≠ t.id)
    (hkey : ∀ u ∈ db.ledger.transactions, u.idempotencyKey ≠ t.idempotencyKey)
    (hl : Holds L (.ledger (.transactionId t.id)))
    (hl' : Holds L (.ledger (.idempotencyKey t.idempotencyKey))) :
    Respects L db (booked A W t []) :=
  { h with
    transactions := ⟨uniqueBy_singleton, fun u hu => by
      cases List.mem_singleton.1 hu; exact Or.inr ⟨hid, hl⟩⟩
    transactionKeys := ⟨uniqueBy_singleton, fun u hu => by
      cases List.mem_singleton.1 hu; exact Or.inr ⟨hkey, hl'⟩⟩
    entryTransaction := fun _ he => by cases he
    entryAccount := fun _ he => by cases he }

theorem Respects.post (h : Respects L db (booked A W t es)) {t' : LedgerTransaction}
    (hid : t'.id = t.id) (hkey : t'.idempotencyKey = t.idempotencyKey) :
    Respects L db (booked A W t' es) :=
  { h with
    transactions := ⟨uniqueBy_singleton, fun u hu => by
      cases List.mem_singleton.1 hu
      rw [hid]; exact Or.inr (h.transactions.fresh (List.mem_singleton.2 rfl))⟩
    transactionKeys := ⟨uniqueBy_singleton, fun u hu => by
      cases List.mem_singleton.1 hu
      rw [hid, hkey]; exact h.transactionKeys.entry t (List.mem_singleton.2 rfl)⟩
    entryTransaction := fun e he => by
      obtain ⟨u, hu, e'⟩ := h.entryTransaction e he
      cases List.mem_singleton.1 hu
      exact ⟨t', List.mem_singleton.2 rfl, hid.trans e'⟩ }

/-- An account that the transaction may move money on: if it is a wallet, the wallet is held. -/
def Usable (c : Moment) (A : List LedgerAccount) (id : UUID)
    (key : OwnerType × String × String × String) : Prop :=
  ∃ a, (a ∈ c.db.ledger.accounts ∨ a ∈ A) ∧ a.id = id ∧ a.key = key ∧
    ∀ i cur, key = walletKey i cur → HoldsWallet c.held c.db i cur

theorem Respects.entry {key : OwnerType × String × String × String}
    (h : Respects c.held c.db (booked A W t es)) {e : LedgerEntry} (ht : e.transactionId = t.id)
    (hu : Usable c A e.ledgerAccountId key) :
    Respects c.held c.db (booked A W t (es ++ [e])) :=
  { h with
    entryTransaction := fun e' he' => by
      rcases List.mem_append.1 he' with he' | he'
      · exact h.entryTransaction e' he'
      · cases List.mem_singleton.1 he'
        exact ⟨t, List.mem_singleton.2 rfl, ht.symm⟩
    entryAccount := fun e' he' => by
      rcases List.mem_append.1 he' with he' | he'
      · exact h.entryAccount e' he'
      · cases List.mem_singleton.1 he'
        obtain ⟨a, ha, hid, hk, hw⟩ := hu
        exact ⟨a, ha, hid, fun i cur hk' => hw i cur (hk.symm.trans hk')⟩ }

/-! ## What stays true -/

theorem Usable.later {A' : List LedgerAccount} {id : UUID}
    {key : OwnerType × String × String × String} (h : Usable c A id key) (hl : Later G c c')
    (hA : A ⊆ A') : Usable c' A' id key := by
  obtain ⟨a, ha, hid, hk, hw⟩ := h
  refine ⟨a, ?_, hid, hk, fun i cur hk' => ?_⟩
  · rcases ha with ha | ha
    · exact Or.inl (hl.keep (P := fun db => a ∈ db.ledger.accounts)
        (fun _ _ _ hr h => hr.mem_accounts h) ha)
    · exact Or.inr (hA ha)
  · refine HoldsWallet.mono hl.held ?_
    exact hl.keep (P := fun db => HoldsWallet c.held db i cur)
      (fun _ _ hc hr h => h.overlay hr hc) (hw i cur hk')

theorem Usable.mem_view {δ : Versions} {id : UUID} {key : OwnerType × String × String × String}
    (h : Usable c δ.ledger.accounts id key) (hr : Respects c.held c.db δ) :
    ∃ a ∈ (c.db.overlay δ).ledger.accounts, a.id = id ∧ a.key = key := by
  obtain ⟨a, ha, hid, hk, -⟩ := h
  rcases ha with ha | ha
  · exact ⟨a, hr.mem_accounts ha, hid, hk⟩
  · exact ⟨a, mem_overlay_right ha, hid, hk⟩

/-- What is on a wallet stays there while it is held. -/
theorem Usable.movements {δ : Versions} {id : UUID} {key : OwnerType × String × String × String}
    {i : UUID} {cur : String} (h : Usable c δ.ledger.accounts id key) (hk : key = walletKey i cur)
    (hr : Respects c.held c.db δ) (hl : Later G c c') :
    c'.db.ledger.movements id = c.db.ledger.movements id := by
  obtain ⟨a, ha, rfl, hak, hw⟩ := h
  have hw := hw i cur hk
  refine (hl.keep (P := fun db => Respects c.held db δ ∧ HoldsWallet c.held db i cur ∧
    (a ∈ db.ledger.accounts ∨ a ∈ δ.ledger.accounts) ∧
    db.ledger.movements a.id = c.db.ledger.movements a.id) ?_ ⟨hr, hw, ha, rfl⟩).2.2.2
  rintro M db δ' hi - hc hr' ⟨hr, hw, ha, hm⟩
  refine ⟨hr.overlay hr' hc, hw.overlay hr' hc, ha.imp_left hr'.mem_accounts, ?_⟩
  show (db.ledger.overlay δ'.ledger).movements a.id = _
  rw [Ledger.movements_overlay, hr.movements_held hi.wellFormed hr' hc ha (hak.trans hk) hw, hm,
    Int.add_zero]

/-- A lock on a wallet that the transaction sees is a hold on it. -/
theorem Respects.holdsWallet {δ : Versions} (h : Respects L db δ) {w : Wallet}
    (hw : w ∈ (db.overlay δ).wallets) (hl : Holds L (.row .wallets w.id)) :
    HoldsWallet L db w.accountId w.currency := by
  rcases mem_overlay.1 hw with ⟨hw, -⟩ | hw
  · exact Or.inl ⟨w, hw, rfl, hl⟩
  · rcases h.walletKeys.entry w hw with ⟨w₀, h₀, e, ek⟩ | ⟨hn, hk⟩
    · exact Or.inl ⟨w₀, h₀, ek, e ▸ hl⟩
    · exact Or.inr ⟨hn, hk⟩

/-! ## The accounts of a movement -/

theorem overlay_setup_account (a : LedgerAccount) :
    ({ db.overlay (setup A W) with ledger := (db.overlay (setup A W)).ledger.writeAccount a } : DB) =
      db.overlay (setup (put LedgerAccount.id A a) W) := by
  simp [DB.overlay, setup, Ledger.writeAccount, Ledger.overlay, put, Txn.overlay_assoc]

theorem overlay_setup_wallet (w : Wallet) :
    (db.overlay (setup A W)).overlay { wallets := [w] } = db.overlay (setup A (put Wallet.id W w)) := by
  simp [DB.overlay_overlay, Versions.overlay, setup, put]

theorem Links.account (h : Links (db.overlay (setup A W))) {a : LedgerAccount}
    (hid : ∀ b ∈ (db.overlay (setup A W)).ledger.accounts, b.id ≠ a.id)
    (ha : a.ownerType = .account → ∃ i cur, a.key = walletKey i cur) :
    Links (db.overlay (setup (put LedgerAccount.id A a) W)) := by
  have hacc : (db.overlay (setup (put LedgerAccount.id A a) W)).ledger.accounts =
      put LedgerAccount.id (db.overlay (setup A W)).ledger.accounts a := put_overlay.symm
  constructor
  · intro w hw
    obtain ⟨b, hb, hk⟩ := h.wallets w hw
    exact ⟨b, by rw [hacc]; exact mem_put.2 (Or.inl ⟨hb, hid b hb⟩), hk⟩
  · intro b hb ho
    rw [hacc] at hb
    rcases mem_put.1 hb with ⟨hb, -⟩ | rfl
    · exact h.owners b hb ho
    · exact ha ho

theorem Links.wallet (h : Links (db.overlay (setup A W))) {w : Wallet}
    (ha : ∃ a ∈ (db.overlay (setup A W)).ledger.accounts,
      a.id = w.ledgerAccountId ∧ a.key = walletKey w.accountId w.currency) :
    Links (db.overlay (setup A (put Wallet.id W w))) := by
  have hw : (db.overlay (setup A (put Wallet.id W w))).wallets =
      put Wallet.id (db.overlay (setup A W)).wallets w := put_overlay.symm
  refine ⟨fun w' hw' => ?_, h.owners⟩
  rw [hw] at hw'
  rcases mem_put.1 hw' with ⟨hw', -⟩ | rfl
  · exact h.wallets w' hw'
  · exact ha

/-- An account is there already, or is inserted. -/
theorem At.insertAccount_bind (h : At G c (setup A W)) {a : LedgerAccount} {x : Err}
    {k : Unit → Call β} {Q : β → Moment → Prop}
    (ha : a.ownerType = .account → ∃ i cur, a.key = walletKey i cur)
    (hk : ∀ c' A', At G c' (setup A' W) → Later G c c' → A ⊆ A' → Runs G (k ()) Q c') :
    Runs G (ledger x (.insertAccountOrIgnore a) >>= k) Q c := by
  refine h.ledger_bind fun c₁ h₁ hl hres c₂ he hl₂ => ?_
  simp only [Dml.run, Ledger.insertAccountOrIgnore] at hres he
  by_cases hany : (c₁.db.overlay (setup A W)).ledger.accounts.any fun b => b.key = a.key
  · rw [if_pos hany] at he
    exact he ▸ hk _ A (h₁.lock fun _ => rfl) (hl.trans .apply) (List.Subset.refl _)
  · rw [if_neg hany] at hres he
    obtain ⟨hno, hins⟩ := Ledger.insertAccount_ok hres
    rw [hins] at he
    have hid := fun b hb => (hno b hb).1
    refine hk c₂ (put LedgerAccount.id A a) ?_ hl₂ fun b hb => ?_
    · subst he
      refine h₁.apply (fun db => overlay_setup_account a) ?_ (h₁.links.account hid ha)
      exact (h₁.respects.mono (List.subset_append_left _ _)).account hid
        (fun b hb => (hno b hb).2) (List.mem_append_right _ (by simp))
        (List.mem_append_right _ (by simp))
    · exact mem_put.2 (Or.inl ⟨hb, hid b (mem_overlay_right hb)⟩)

/-- The second half of `ensureWalletTx`: set the status of the wallet and lock it. -/
theorem lockWallet_runs (h : At G c (setup A W)) {accountID : UUID} {currency : String}
    {status : WalletStatus} {Q : Wallet → Moment → Prop}
    (hQ : ∀ c' W' w, At G c' (setup A W') → Later G c c' →
      Usable c' A w.ledgerAccountId (walletKey accountID currency) → Q w c') :
    Runs G (do
      let _ ← updateRow .wallets DB.wallets Wallet.id
        (fun w => w.accountId = accountID && w.currency = currency && w.status ≠ .closed)
        fun w => { wallets := [{ w with status }] }
      Prog.orFail .database (← selectLock .wallets .exclusive DB.wallets Wallet.id
        fun w => w.accountId = accountID && w.currency = currency)) Q c := by
  have hlock : ∀ c₁ W', At G c₁ (setup A W') → Later G c c₁ → Runs G (do
      Prog.orFail .database (← selectLock .wallets .exclusive DB.wallets Wallet.id
        fun w => w.accountId = accountID && w.currency = currency)) Q c₁ := by
    intro c₁ W' h₁ l₁
    refine h₁.selectLock_bind (fun _ h₂ _ _ => h₂.done) (fun c₂ w h₂ l₂ hw hp hl => ?_)
      fun _ _ h₂ _ _ _ => h₂.done
    simp only [Bool.and_eq_true, decide_eq_true_eq] at hp
    refine hQ c₂ W' w h₂ (l₁.trans l₂) ?_
    obtain ⟨a, ha, hid, hk⟩ := h₂.links.wallets w hw
    refine ⟨a, (mem_overlay.1 ha).imp_left And.left, hid, ?_, fun i cur hk' => ?_⟩
    · rw [hk, hp.1, hp.2]
    · obtain ⟨rfl, rfl⟩ := walletKey_inj hk'
      exact hp.1 ▸ hp.2 ▸ h₂.respects.holdsWallet hw hl
  refine h.updateRow_bind (fun c₁ h₁ l₁ _ => hlock c₁ W h₁ l₁) fun c₁ w h₁ l₁ hw hp c₂ he l₂ hl => ?_
  refine hlock c₂ (put Wallet.id W { w with status }) ?_ l₂
  subst he
  refine h₁.apply (fun db => overlay_setup_wallet _) ?_ ?_
  · exact (h₁.respects.mono (List.subset_append_left _ _)).updateWallet h₁.inv.wellFormed hw hl rfl
      ⟨rfl, rfl, rfl⟩
  · exact h₁.links.wallet (h₁.links.wallets w hw)

/-- The wallet of an account, held from here on, with its ledger account. -/
theorem ensureWalletTx_runs (h : At G c {}) {fresh : Fresh} {accountID : UUID} {currency : String}
    {Q : Wallet → Moment → Prop}
    (hQ : ∀ c' A W w, At G c' (setup A W) → Later G c c' →
      Usable c' A w.ledgerAccountId (walletKey accountID currency) → Q w c') :
    Runs G (ensureWalletTx fresh accountID currency) Q c := by
  unfold ensureWalletTx
  refine h.selectOne_bind fun c₁ h₁ l₁ status _ => ?_
  have h₁ : At G c₁ (setup [] []) := h₁
  refine h₁.insertAccount_bind (fun _ => ⟨accountID, currency, rfl⟩) fun c₂ A h₂ l₂ _ => ?_
  refine h₂.selectOne_bind fun c₃ h₃ l₃ ledgerID hled => ?_
  have l₃ := (l₁.trans l₂).trans l₃
  -- the ledger account that the wallet refers to
  have hacc : ∃ a, (a ∈ c₃.db.ledger.accounts ∨ a ∈ A) ∧ a.id = ledgerID ∧
      a.key = walletKey accountID currency := by
    obtain ⟨a, ha, rfl⟩ := Option.map_eq_some_iff.1 hled
    refine ⟨a, ?_, rfl, by simpa using List.find?_some ha⟩
    exact (mem_overlay.1 (List.mem_of_find?_eq_some ha)).imp_left And.left
  refine h₃.insertOrIgnore_bind
    (fun c₄ h₄ l₄ => lockWallet_runs h₄ fun c' W w h' l' => hQ c' A W w h' ((l₃.trans l₄).trans l'))
    fun c₄ h₄ l₄ hno c₅ he l₅ hk => ?_
  refine lockWallet_runs (W := put Wallet.id []
    ⟨fresh.wallet, accountID, ledgerID, currency, walletStatusOf status⟩) ?_ fun c' W w h' l' =>
    hQ c' A W w h' ((l₃.trans l₅).trans l')
  subst he
  simp only [List.forall_mem_cons, DB.has, List.any_eq_false, Bool.and_eq_true, decide_eq_true_eq,
    not_and] at hno hk
  refine h₄.apply (fun db => overlay_setup_wallet _) ?_ (h₄.links.wallet ?_)
  · refine (h₄.respects.mono (List.subset_append_left _ _)).newWallet h₄.inv.wellFormed hno.1
      (fun w' hw' e => ?_) hk.1 hk.2.1
    obtain ⟨e₁, e₂⟩ := Prod.mk.inj e
    exact hno.2.1 w' hw' e₁ e₂
  · obtain ⟨a, ha, hid, hak⟩ := hacc
    rcases ha with ha | ha
    · refine ⟨a, h₄.respects.mem_accounts ?_, hid, hak⟩
      exact l₄.keep (P := fun db => a ∈ db.ledger.accounts) (fun _ _ _ hr h => hr.mem_accounts h) ha
    · exact ⟨a, mem_overlay_right ha, hid, hak⟩

/-- A system account; money may be moved on it without a lock. -/
theorem systemLedgerAccountTx_runs (h : At G c (setup A W)) {fresh : Fresh} {code currency : String}
    {Q : UUID → Moment → Prop}
    (hQ : ∀ c' A' id, At G c' (setup A' W) → Later G c c' → A ⊆ A' →
      Usable c' A' id (systemKey code currency) → Q id c') :
    Runs G (systemLedgerAccountTx fresh code currency) Q c := by
  unfold systemLedgerAccountTx
  refine h.insertAccount_bind (fun h => by cases h) fun c₁ A' h₁ l₁ hA => ?_
  refine h₁.selectOne_runs fun c₂ h₂ l₂ id hid => ?_
  refine hQ c₂ A' id h₂ (l₁.trans l₂) hA ?_
  obtain ⟨a, ha, rfl⟩ := Option.map_eq_some_iff.1 hid
  have hk := List.find?_some ha
  simp only [Bool.and_eq_true, decide_eq_true_eq] at hk
  refine ⟨a, (mem_overlay.1 (List.mem_of_find?_eq_some ha)).imp_left And.left, rfl, hk.1, ?_⟩
  intro i cur h
  cases h

/-! ## Balances -/

/-- A balance that has been read and found sufficient. -/
theorem requireBalance_runs (h : At G c (setup A W)) {id : UUID} {amount : Int64}
    {Q : Unit → Moment → Prop}
    (hQ : ∀ c', At G c' (setup A W) → Later G c c' → amount.toInt ≤ c'.db.ledger.movements id →
      Q () c') : Runs G (requireBalance id amount) Q c := by
  unfold requireBalance walletBalanceTx
  refine h.selectOne_bind fun c₁ h₁ l₁ balance hb => ?_
  refine wp_check.2 ⟨fun hlt => hQ c₁ h₁ l₁ ?_, fun _ => h₁.done⟩
  have hview : (c₁.db.overlay (setup A W)).ledger.balance id = c₁.db.ledger.balance id := by
    simp [Ledger.balance, Ledger.isPosted, DB.overlay, Ledger.overlay, setup]
  rw [← h₁.inv.wellFormed.balance_eq h₁.inv.posted, ← hview, ← scanInt64_eq hb]
  rw [Int64.lt_iff_toInt_lt] at hlt
  omega

/-! ## Movements -/

theorem overlay_booked_entry (e : LedgerEntry) :
    ({ db.overlay (booked A W t es) with
        ledger := (db.overlay (booked A W t es)).ledger.addEntry e } : DB) =
      db.overlay (booked A W t (es ++ [e])) := by
  simp [DB.overlay, booked, Ledger.addEntry, Ledger.overlay]

theorem overlay_booked_post {t' : LedgerTransaction} (h : t'.id = t.id) :
    ({ db.overlay (booked A W t es) with
        ledger := (db.overlay (booked A W t es)).ledger.writeTransaction t' } : DB) =
      db.overlay (booked A W t' es) := by
  simp only [DB.overlay, booked, Ledger.writeTransaction, Ledger.overlay, overlay_nil,
    List.append_nil, Txn.overlay_assoc]
  rw [show Txn.overlay LedgerTransaction.id [t] [t'] = [t'] from put_cons_self h.symm]

theorem overlay_setup_draft :
    ({ db.overlay (setup A W) with
        ledger := (db.overlay (setup A W)).ledger.writeTransaction t } : DB) =
      db.overlay (booked A W t []) := by
  simp [DB.overlay, setup, booked, Ledger.writeTransaction, Ledger.overlay]

/-- What an entry and a posting have in common. -/
def LedgerEntry.row (e : LedgerEntry) : UUID × Side × Int64 := (e.ledgerAccountId, e.side, e.amount)

def LedgerPosting.row (p : LedgerPosting) : UUID × Side × Int64 := (p.accountId, p.side, p.amount)

/-- The entries `es` of `t` are those of the postings. -/
def Entered (t : LedgerTransaction) (es : List LedgerEntry) (ps : List LedgerPosting) : Prop :=
  es.map LedgerEntry.row = ps.map LedgerPosting.row ∧ ∀ e ∈ es, e.transactionId = t.id

theorem insertEntry_runs (h : At G c (booked A W t es)) {p : LedgerPosting}
    (hu : ∃ key, Usable c A p.accountId key) {Q : Unit → Moment → Prop}
    (hQ : ∀ c' e, At G c' (booked A W t (es ++ [e])) → Later G c c' → e.row = p.row →
      e.transactionId = t.id → Q () c') : Runs G (insertEntry t.id p) Q c := by
  unfold insertEntry
  split
  · next hpos =>
    refine wp_bind.1 (h.ledger_bind (k := pure) fun c₁ h₁ l₁ hres c₂ he l₂ => ?_)
    simp only [Dml.run] at hres he
    rw [Ledger.insertEntry_ok hres] at he
    refine hQ c₂ ⟨t.id, p.accountId, p.side, p.amount, hpos⟩ ?_ l₂ rfl rfl
    obtain ⟨key, hu⟩ := hu
    have hu₂ : Usable c₂ A p.accountId key := hu.later l₂ (List.Subset.refl _)
    subst he
    refine h₁.apply (fun _ => overlay_booked_entry _) ?_ (h₁.links.of_eq rfl rfl)
    exact Respects.entry (c := c₁.apply _) (h₁.respects.mono (List.subset_append_left _ _)) rfl hu₂
  · exact h.done

theorem insertEntries_runs {Q : Unit → Moment → Prop} : ∀ {ps : List LedgerPosting} {c : Moment}
    {es : List LedgerEntry}, At G c (booked A W t es) →
    (∀ p ∈ ps, ∃ key, Usable c A p.accountId key) →
    (∀ c' es', At G c' (booked A W t (es ++ es')) → Later G c c' → Entered t es' ps → Q () c') →
    Runs G (insertEntries t.id ps) Q c
  | [], c, es, h, _, hQ => hQ c [] (by simpa using h) .refl ⟨rfl, by simp⟩
  | p :: ps, c, es, h, hu, hQ => by
    refine wp_bind.2 (insertEntry_runs h (hu p List.mem_cons_self) fun c₁ e h₁ l₁ hrow hid => ?_)
    refine insertEntries_runs h₁ (fun q hq => ?_) fun c₂ es' h₂ l₂ hes => ?_
    · obtain ⟨key, hq⟩ := hu q (List.mem_cons_of_mem _ hq)
      exact ⟨key, hq.later l₁ (List.Subset.refl _)⟩
    · refine hQ c₂ (e :: es') (by simpa using h₂) (l₁.trans l₂) ⟨?_, ?_⟩
      · rw [List.map_cons, List.map_cons, hrow, hes.1]
      · exact List.forall_mem_cons.2 ⟨hid, hes.2⟩

/-- A transaction that was posted for these values. -/
structure Filed (t : LedgerTransaction) (kind : TransactionKind)
    (idempotencyKey referenceType referenceID : String) : Prop where
  kind : t.kind = kind
  key : t.idempotencyKey = trimSpace idempotencyKey
  referenceType : t.referenceType = nullIfEmpty referenceType
  referenceId : t.referenceId = nullIfEmpty referenceID
  posted : t.status = .posted

theorem ledgerTransactionTx_runs {δ : Versions} (h : At G c δ) {id : UUID}
    {Q : LedgerItem → Moment → Prop}
    (hQ : ∀ c' item, At G c' δ → Later G c c' →
      item.transaction ∈ (c'.db.overlay δ).ledger.transactions → item.transaction.id = id →
      Q item c') :
    Runs G (ledgerTransactionTx id) Q c := by
  unfold ledgerTransactionTx
  refine h.selectOne_bind fun c₁ h₁ l₁ t ht => ?_
  refine h₁.select_bind fun c₂ h₂ l₂ => ?_
  have hid := List.find?_some ht
  simp only [Bool.and_eq_true, decide_eq_true_eq] at hid
  refine hQ c₂ _ h₂ (l₁.trans l₂) ?_ hid.1
  rcases mem_overlay.1 (List.mem_of_find?_eq_some ht) with ⟨ht, -⟩ | ht
  · refine h₂.respects.mem_transactions ?_
    exact l₂.keep (P := fun db => t ∈ db.ledger.transactions)
      (fun _ _ _ hr h => hr.mem_transactions h) ht
  · exact mem_overlay_right ht

/-- Posting a draft with its entries. -/
theorem postDraft_runs (h : At G c (booked A W t es)) (hd : t.status = .draft) {now : Time}
    {Q : Unit → Moment → Prop}
    (hQ : ∀ c', At G c' (booked A W { t with status := .posted, postedAt := some now } es) →
      Later G c c' → Q () c') :
    Runs G (ledger .database (.updateTransaction t.id (·.status = .draft)
      (fun t => { t with status := .posted, postedAt := some now }) now)) Q c := by
  refine wp_bind.1 (h.ledger_bind (k := pure) fun c₁ h₁ l₁ hres c₂ he l₂ => ?_)
  simp only [Dml.run] at hres he
  have hf : (c₁.db.overlay (booked A W t es)).ledger.transactions.find?
      (fun u => u.id = t.id && u.status = .draft) = some t := by
    have hmem : t ∈ (c₁.db.overlay (booked A W t es)).ledger.transactions :=
      mem_overlay_right (List.mem_singleton.2 rfl)
    cases hf : (c₁.db.overlay (booked A W t es)).ledger.transactions.find?
        (fun u => u.id = t.id && u.status = .draft) with
    | none => exact absurd (List.find?_eq_none.1 hf t hmem) (by simp [hd])
    | some u =>
      have hu := List.find?_some hf
      simp only [Bool.and_eq_true, decide_eq_true_eq] at hu
      rw [h₁.wellFormed.transactionIds.eq (List.mem_of_find?_eq_some hf) hmem hu.1]
  obtain ⟨new, hg, hupd⟩ := Ledger.updateTransaction_ok hf hres
  rw [hupd] at he
  have hnew : new = { t with status := .posted, postedAt := some now } := by
    simp only [sakuraLedgerTransactionGuard] at hg
    split at hg
    · split at hg
      · cases hg
      · split at hg
        · cases hg
        · split at hg
          · cases hg
          · cases hg; rfl
    · cases hg
  subst hnew
  refine hQ c₂ ?_ l₂
  subst he
  refine h₁.apply (fun _ => overlay_booked_post rfl) ?_ (h₁.links.of_eq rfl rfl)
  exact (h₁.respects.mono (List.subset_append_left _ _)).post rfl rfl

/-- **One movement for each key.**  Either a transaction with this key was posted before, and this
one adds nothing, or it has posted one of its own. -/
theorem postLedgerTx_runs (h : At G c (setup A W)) {fresh : Fresh} {kind : TransactionKind}
    {currency key referenceType referenceID description : String} {reversalOf : Option UUID}
    {metadata : List (String × String)} {actor : Actor} {ps : List LedgerPosting}
    (hu : ∀ p ∈ ps, ∃ key, Usable c A p.accountId key) {Q : LedgerItem → Moment → Prop}
    (hold : ∀ c' item, At G c' (setup A W) → Later G c c' →
      item.transaction ∈ c'.db.ledger.transactions →
      item.transaction.idempotencyKey = trimSpace key → Q item c')
    (hnew : ∀ c' t es item, At G c' (booked A W t es) → Later G c c' →
      Filed t kind key referenceType referenceID → Entered t es ps → item.transaction.id = t.id →
      Q item c') :
    Runs G (postLedgerTx fresh kind currency key referenceType referenceID description reversalOf
      metadata actor ps) Q c := by
  unfold postLedgerTx
  refine h.check_bind fun _ => ?_
  refine h.select_bind fun c₁ h₁ l₁ => ?_
  have hview : ∀ db : DB, (db.overlay (setup A W)).ledger.transactions = db.ledger.transactions :=
    fun _ => overlay_nil
  rw [hview]
  cases hf : c₁.db.ledger.transactions.find? (·.idempotencyKey = trimSpace key) with
  | some existing =>
    refine ledgerTransactionTx_runs h₁ fun c₂ item h₂ l₂ hmem hid => ?_
    rw [hview] at hmem
    have hex : existing ∈ c₂.db.ledger.transactions :=
      l₂.keep (P := fun db => existing ∈ db.ledger.transactions)
        (fun _ _ _ hr h => hr.mem_transactions h) (List.mem_of_find?_eq_some hf)
    refine hold c₂ item h₂ (l₁.trans l₂) hmem ?_
    rw [h₂.inv.wellFormed.transactionIds.eq hmem hex hid]
    simpa using List.find?_some hf
  | none =>
    refine h₁.orFail_bind fun sums _ => ?_
    refine h₁.check_bind fun _ => ?_
    refine h₁.ledger_bind fun c₂ h₂ l₂ hres c₃ he l₃ => ?_
    simp only [Dml.run] at hres he
    obtain ⟨hno, hins⟩ := Ledger.insertTransaction_ok hres
    rw [hins] at he
    rw [hview] at hno
    generalize hrow : (LedgerTransaction.mk _ _ _ _ _ _ _ _ _ _ _ _ _ _) = t at he hno
    have h₃ : At G c₃ (booked A W t []) := by
      subst he
      refine h₂.apply (fun _ => overlay_setup_draft) ?_ (h₂.links.of_eq rfl rfl)
      exact (h₂.respects.mono (List.subset_append_left _ _)).draft (fun u hu => (hno u hu).1)
        (fun u hu => (hno u hu).2) (List.mem_append_right _ (by simp))
        (List.mem_append_right _ (by simp))
    have hid : t.id = fresh.transaction := by rw [← hrow]
    rw [← hid]
    refine wp_bind.2 (insertEntries_runs h₃ (fun p hp => ?_) fun c₄ es h₄ l₄ hes => ?_)
    · obtain ⟨key, hp⟩ := hu p hp
      exact ⟨key, hp.later (l₁.trans l₃) (List.Subset.refl _)⟩
    · refine wp_bind.2 (postDraft_runs h₄ (by rw [← hrow]) fun c₅ h₅ l₅ => ?_)
      refine ledgerTransactionTx_runs h₅ fun c₆ item h₆ l₆ _ hitem => ?_
      have l₆ := (((l₁.trans l₃).trans l₄).trans l₅).trans l₆
      refine hnew c₆ _ es item h₆ l₆ ?_ ⟨hes.1, hes.2⟩ hitem
      subst hrow
      exact ⟨rfl, rfl, rfl, rfl, rfl⟩

/-! ## Movements at a commit -/

section Commit

variable {δ : Versions}

/-- What an entry adds to the balance of its account. -/
def rowAmount (r : UUID × Side × Int64) : Int := if r.2.1 = .credit then r.2.2.toInt else -r.2.2.toInt

theorem Entered.movements {ps : List LedgerPosting} (h : Entered t es ps) (A : List LedgerAccount)
    (ts : List LedgerTransaction) (id : UUID) :
    (Ledger.mk A ts es).movements id =
      (((ps.map LedgerPosting.row).filter (·.1 = id)).map rowAmount).sum := by
  rw [← h.1, List.filter_map, List.map_map]
  rfl

/-- No wallet was overdrawn before, and a new account has no entries. -/
theorem At.movements_nonneg (h : At G c δ) {a : LedgerAccount}
    (ha : a ∈ (c.db.overlay δ).ledger.accounts) (ho : a.ownerType = .account) :
    0 ≤ c.db.ledger.movements a.id := by
  rcases mem_overlay.1 ha with ⟨ha, -⟩ | ha
  · rw [← h.inv.wellFormed.balance_eq h.inv.posted]
    exact h.inv.solvent a ha ho
  · have hno : c.db.ledger.entries.filter (·.ledgerAccountId = a.id) = [] := by
      refine List.filter_eq_nil_iff.2 fun e he hid => ?_
      obtain ⟨b, hb, hbid⟩ := h.inv.wellFormed.entryAccount e he
      exact (h.respects.accounts.fresh ha).1 b hb (hbid.trans (of_decide_eq_true hid))
    simp [Ledger.movements, hno]

/-- Without a movement, no wallet is overdrawn. -/
theorem At.solvent (h : At G c δ) (hno : δ.ledger.entries = []) :
    ∀ a ∈ (c.db.overlay δ).ledger.accounts, a.ownerType = .account →
      0 ≤ (c.db.overlay δ).ledger.movements a.id := by
  intro a ha ho
  show 0 ≤ (c.db.ledger.overlay δ.ledger).movements a.id
  rw [Ledger.movements_overlay]
  have : δ.ledger.movements a.id = 0 := by simp [Ledger.movements, hno]
  have := h.movements_nonneg ha ho
  omega

/-- Nor by a movement of `v` from `x` to `y`, if `x` is a system account or has as much. -/
theorem At.solvent_of_entered (h : At G c δ) {ps : List LedgerPosting} {x y : UUID} {v : Int64}
    (hes : Entered t δ.ledger.entries ps)
    (hps : ps = [⟨x, .debit, v⟩, ⟨y, .credit, v⟩] ∨ ps = [⟨y, .credit, v⟩, ⟨x, .debit, v⟩])
    (hx : (∃ code cur, Usable c δ.ledger.accounts x (systemKey code cur)) ∨
      v.toInt ≤ c.db.ledger.movements x) :
    ∀ a ∈ (c.db.overlay δ).ledger.accounts, a.ownerType = .account →
      0 ≤ (c.db.overlay δ).ledger.movements a.id := by
  intro a ha ho
  have hv : 0 < v.toInt := by
    have hmem : (x, Side.debit, v) ∈ δ.ledger.entries.map LedgerEntry.row := by
      rw [hes.1]; rcases hps with rfl | rfl <;> simp [LedgerPosting.row]
    obtain ⟨e, -, he⟩ := List.mem_map.1 hmem
    have := Int64.lt_iff_toInt_lt.1 e.amount_pos
    rw [← (Prod.mk.inj (Prod.mk.inj he).2).2]
    simpa using this
  have hsum : δ.ledger.movements a.id =
      (if x = a.id then -v.toInt else 0) + if y = a.id then v.toInt else 0 := by
    rw [hes.movements δ.ledger.accounts δ.ledger.transactions]
    rcases hps with rfl | rfl <;> by_cases hxa : x = a.id <;> by_cases hya : y = a.id <;>
      simp [LedgerPosting.row, rowAmount, hxa, hya]
  have hbase := h.movements_nonneg ha ho
  show 0 ≤ (c.db.ledger.overlay δ.ledger).movements a.id
  rw [Ledger.movements_overlay, hsum]
  by_cases hxa : x = a.id
  · have hcov : v.toInt ≤ c.db.ledger.movements a.id := by
      rcases hx with ⟨code, cur, hu⟩ | hx
      · obtain ⟨b, hb, hid, hk⟩ := hu.mem_view h.respects
        rw [h.wellFormed.accountIds.eq hb ha (hid.trans hxa)] at hk
        rw [show a.ownerType = .system from congrArg Prod.fst hk] at ho
        cases ho
      · exact hxa ▸ hx
    split <;> split <;> omega
  · rw [if_neg hxa]; split <;> omega

/-- The movement between the accounts with two keys. -/
theorem At.moves (h : At G c δ) (ht : δ.ledger.transactions = [t]) {x y : UUID} {v : Int64}
    {kx ky : OwnerType × String × String × String}
    (hes : Entered t δ.ledger.entries [⟨x, .debit, v⟩, ⟨y, .credit, v⟩])
    (hx : Usable c δ.ledger.accounts x kx) (hy : Usable c δ.ledger.accounts y ky) :
    (c.db.overlay δ).ledger.Moves t kx ky v := by
  obtain ⟨d, hd, rfl, hdk⟩ := hx.mem_view h.respects
  obtain ⟨e, he, rfl, hek⟩ := hy.mem_view h.respects
  refine ⟨d, hd, e, he, hdk, hek, ?_⟩
  have hfresh := (h.respects.transactions.fresh (ht ▸ List.mem_singleton.2 rfl : t ∈ _)).1
  have hof : (c.db.overlay δ).ledger.entriesOf t.id = δ.ledger.entries := by
    show List.filter _ (c.db.ledger.entries ++ δ.ledger.entries) = _
    rw [List.filter_append, List.filter_eq_nil_iff.2, List.nil_append, List.filter_eq_self.2]
    · exact fun e he => by simpa using hes.2 e he
    · intro e he hid
      obtain ⟨u, hu, huid⟩ := h.inv.wellFormed.entryTransaction e he
      exact hfresh u hu (huid.trans (of_decide_eq_true hid))
  rw [hof]
  exact hes.1

theorem At.grants (h : At G c δ) (hm : δ.memberships = []) : ∀ i, G.grants i →
    ∃ m ∈ (c.db.overlay δ).memberships, m.current ∧ m.accountId = i := by
  intro i hi
  show ∃ m ∈ Txn.overlay _ _ _, _
  rw [hm, overlay_nil]
  exact h.inv.grants i hi

end Commit

/-! ## Adjustments -/

theorem adjustWallet_runs (h : Inv G db) {fresh : Fresh} {accountID : UUID} {amount : Int64}
    {currency reason key : String} {actor : Actor} :
    Runs G (adjustWallet fresh accountID amount currency reason key actor) (fun _ _ => True)
      { db := db } := by
  have h₀ := At.start h
  unfold adjustWallet
  refine h₀.check_bind fun _ => h₀.select_bind fun c₁ h₁ _ => ?_
  split
  · exact ledgerTransactionTx_runs h₁ fun _ _ _ _ _ _ => trivial
  refine wp_bind.2 (ensureWalletTx_runs h₁ fun c₂ A W wallet h₂ _ hw => ?_)
  refine h₂.check_bind fun _ => ?_
  refine wp_bind.2 (systemLedgerAccountTx_runs h₂ fun c₃ A' system h₃ l₃ hA hsys => ?_)
  have hw := hw.later l₃ hA
  have hkey : (trimSpace (adjustKey accountID key)).toList.head? = some 'a' :=
    trimSpace_head (by simp [adjustKey, String.toList_append]) (by decide)
  -- what follows the balance check, for the postings `ps` of either direction
  have hpost : ∀ (c : Moment) (ps : List LedgerPosting) (x y : UUID) (v : Int64),
      At G c (setup A' W) → (∀ p ∈ ps, ∃ key, Usable c A' p.accountId key) →
      (ps = [⟨x, .debit, v⟩, ⟨y, .credit, v⟩] ∨ ps = [⟨y, .credit, v⟩, ⟨x, .debit, v⟩]) →
      (∀ c', Later G c c' → (∃ code cur, Usable c' A' x (systemKey code cur)) ∨
        v.toInt ≤ c'.db.ledger.movements x) → Runs G (do
      let item ← postLedgerTx fresh .adminAdjustment (normalizeCurrency currency)
        (adjustKey accountID key) "account" accountID.text reason none
        [("signed_amount", toString amount)] actor ps
      Prog.publish (.adjust item.transaction.id)
      pure item) (fun _ _ => True) c := by
    intro c ps x y v h hu hps hx
    refine wp_bind.2 ?_
    refine postLedgerTx_runs h hu (fun c₁ item h₁ _ _ _ => ?_)
      fun c₁ t es item h₁ l₁ hf hes _ => ?_
    · refine h₁.publish_bind fun c₂ h₂ _ => ⟨?_, .none (fun _ => rfl) rfl, fun _ => trivial⟩
      exact { links := h₂.links, solvent := h₂.solvent rfl, grants := h₂.grants rfl }
    · refine h₁.publish_bind fun c₂ h₂ l₂ => ⟨?_, .none (fun _ => rfl) rfl, fun _ => trivial⟩
      refine { links := h₂.links, posted := ?_, keys := ?_, purpose := ?_, solvent := ?_, grants := h₂.grants rfl }
      · exact List.forall_mem_singleton.2 hf.posted
      · exact List.forall_mem_singleton.2 (by rw [hf.key, hf.kind]; exact hkey)
      · exact List.forall_mem_singleton.2 (by unfold Purpose; rw [hf.kind]; trivial)
      · exact h₂.solvent_of_entered hes hps (hx c₂ (l₁.trans l₂))
  by_cases hneg : amount < 0
  · simp only [if_pos hneg]
    refine wp_bind.2 (requireBalance_runs h₃ fun c₄ h₄ l₄ hbal => ?_)
    have hw := hw.later l₄ (List.Subset.refl _)
    refine hpost c₄ _ wallet.ledgerAccountId system (-amount) h₄ ?_ (Or.inr rfl) fun c' l => Or.inr ?_
    · simp only [List.forall_mem_cons, List.not_mem_nil, false_imp_iff, implies_true, and_true]
      exact ⟨⟨_, hsys.later l₄ (List.Subset.refl _)⟩, ⟨_, hw⟩⟩
    · rw [hw.movements (δ := setup A' W) rfl h₄.respects l]
      exact hbal
  · simp only [if_neg hneg]
    refine hpost c₃ _ system wallet.ledgerAccountId amount h₃ ?_ (Or.inl rfl) fun c' l =>
      Or.inl ⟨_, _, hsys.later l (List.Subset.refl _)⟩
    simp only [List.forall_mem_cons, List.not_mem_nil, false_imp_iff, implies_true, and_true]
    exact ⟨⟨_, hsys⟩, ⟨_, hw⟩⟩

end Sakura