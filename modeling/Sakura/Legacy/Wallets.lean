/-
  What the import does to the imported wallets.

  * `Ledger.Linked`, `Ledger.walletBalance`, `Ledger.ImportedOnly`: ledgers, and what is said of a
    wallet;
  * `Ledger.Opens`, `Ledger.Posts`: accounts that are opened, and a movement that is posted;
  * `Ledger.Imports`: the same as it shows in every wallet; `importWallet_imports`,
    `importLegacyLedger_imports`.
-/
import Sakura.Import
import Sakura.Ledger.Balance
import Sakura.Txn.Single

namespace Sakura

open Txn

/-! ## Wallets in the ledger -/

namespace Ledger

/-- Each entry has its transaction and its account. -/
structure Linked (L : Ledger) : Prop where
  accounts : UniqueBy LedgerAccount.id L.accounts
  transactions : UniqueBy LedgerTransaction.id L.transactions
  entries : ∀ e ∈ L.entries, ∃ t ∈ L.transactions, t.id = e.transactionId
  owners : ∀ e ∈ L.entries, ∃ a ∈ L.accounts, a.id = e.ledgerAccountId

theorem Inv.linked {L : Ledger} (h : L.Inv) : L.Linked :=
  ⟨h.accounts, h.transactions, h.entries, h.owners⟩

/-- The ledger account of the wallet. -/
def walletAccount (L : Ledger) (accountID : UUID) (currency : String) : Option LedgerAccount :=
  L.accounts.find? (·.key = walletKey accountID currency)

/-- The posted balance of the wallet. -/
def walletBalance (L : Ledger) (accountID : UUID) (currency : String) : Int :=
  match L.walletAccount accountID currency with
  | some a => L.balance a.id
  | none => 0

def hasKey (L : Ledger) (key : String) : Bool := L.transactions.any (·.idempotencyKey = key)

/-- The ledger account of a wallet. -/
def isWallet (L : Ledger) (id : UUID) : Bool :=
  L.accounts.any fun a => a.id = id && a.ownerType = .account && a.code = "wallet"

/-- A posted movement in the currency that was imported. -/
def isImported (L : Ledger) (currency : String) (id : UUID) : Bool :=
  L.transactions.any fun t => t.id = id && t.status = .posted &&
    t.referenceType = some "legacy_wallet" && t.currency = currency

/-- The sum of the imported movements of a currency on wallets. -/
def importedTotal (L : Ledger) (currency : String) : Int :=
  ((L.entries.filter fun e => L.isImported currency e.transactionId &&
    L.isWallet e.ledgerAccountId).map LedgerEntry.signed).sum

end Ledger

/-- A posted movement that was imported for the wallet. -/
def LedgerTransaction.legacyWallet (t : LedgerTransaction) (accountID : UUID) (currency : String) :
    Bool :=
  t.status = .posted && t.referenceType = some "legacy_wallet" &&
    t.referenceId = some accountID.text && t.currency = currency

/-- All movements on the wallet were imported. -/
def Ledger.ImportedOnly (L : Ledger) (accountID : UUID) (currency : String) : Prop :=
  ∀ a ∈ L.accounts, a.key = walletKey accountID currency → ∀ e ∈ L.entries,
    e.ledgerAccountId = a.id →
      ∃ t ∈ L.transactions, t.id = e.transactionId ∧ t.legacyWallet accountID currency

theorem systemKey_ne_walletKey {code c c' : String} {a : UUID} :
    systemKey code c ≠ walletKey a c' := by
  simp [systemKey, walletKey]

variable {L L' : Ledger} {a : UUID} {c : String}

theorem Ledger.mem_of_walletAccount {x : LedgerAccount} (h : L.walletAccount a c = some x) :
    x ∈ L.accounts ∧ x.key = walletKey a c :=
  ⟨List.mem_of_find?_eq_some h, by simpa using List.find?_some h⟩

/-- What the import sums up is the posted balance. -/
theorem importedBalance_eq (h : L.ImportedOnly a c) {x : LedgerAccount}
    (hx : L.walletAccount a c = some x) {v : DB} (hv : v.ledger = L) :
    importedBalance a c x.id v = L.walletBalance a c := by
  subst hv
  obtain ⟨hmem, hkey⟩ := Ledger.mem_of_walletAccount hx
  unfold Ledger.walletBalance importedBalance Ledger.balance
  rw [hx]
  refine congrArg List.sum (congrArg _ (List.filter_congr fun e he => ?_))
  by_cases heq : e.ledgerAccountId = x.id
  · obtain ⟨t, ht, hid, hl⟩ := h x hmem hkey e he heq
    simp only [LedgerTransaction.legacyWallet, Bool.and_eq_true, decide_eq_true_eq] at hl
    have hany : (v.ledger.transactions.any fun t => t.id = e.transactionId && t.status = .posted &&
        t.referenceType = some "legacy_wallet" && t.referenceId = some a.text && t.currency = c) =
        true := List.any_eq_true.2 ⟨t, ht, by simp [hid, hl]⟩
    have hposted : v.ledger.isPosted e.transactionId = true :=
      List.any_eq_true.2 ⟨t, ht, by simp [hid, hl]⟩
    rw [hany, hposted]
  · simp [heq]

/-! ## Accounts that are opened -/

/-- `L'` is `L` with further accounts. -/
structure Ledger.Opens (L L' : Ledger) : Prop where
  accounts : ∃ as, L'.accounts = L.accounts ++ as
  unique : UniqueBy LedgerAccount.id L'.accounts
  transactions : L'.transactions = L.transactions
  entries : L'.entries = L.entries

namespace Ledger.Opens

theorem refl (h : L.Linked) : L.Opens L := ⟨⟨[], by simp⟩, h.accounts, rfl, rfl⟩

theorem trans {L'' : Ledger} (h : L.Opens L') (h' : L'.Opens L'') : L.Opens L'' where
  accounts := by
    obtain ⟨as, e⟩ := h.accounts
    obtain ⟨as', e'⟩ := h'.accounts
    exact ⟨as ++ as', by rw [e', e, List.append_assoc]⟩
  unique := h'.unique
  transactions := h'.transactions.trans h.transactions
  entries := h'.entries.trans h.entries

theorem mem (h : L.Opens L') {x : LedgerAccount} (hx : x ∈ L.accounts) : x ∈ L'.accounts := by
  obtain ⟨as, e⟩ := h.accounts
  rw [e]
  exact List.mem_append_left _ hx

theorem linked (h : L.Opens L') (hL : L.Linked) : L'.Linked where
  accounts := h.unique
  transactions := h.transactions ▸ hL.transactions
  entries := by rw [h.transactions, h.entries]; exact hL.entries
  owners e he := by
    rw [h.entries] at he
    obtain ⟨x, hx, hid⟩ := hL.owners e he
    exact ⟨x, h.mem hx, hid⟩

/-- No entry is on an account that was not there. -/
theorem old (h : L.Opens L') (hL : L.Linked) {x : LedgerAccount} (hx : x ∈ L'.accounts)
    {e : LedgerEntry} (he : e ∈ L.entries) (hid : e.ledgerAccountId = x.id) : x ∈ L.accounts := by
  obtain ⟨y, hy, hyid⟩ := hL.owners e he
  rw [h.unique.eq hx (h.mem hy) (hid.symm.trans hyid.symm)]
  exact hy

theorem walletBalance (h : L.Opens L') (hL : L.Linked) :
    L'.walletBalance a c = L.walletBalance a c := by
  have hbal : ∀ id, L'.balance id = L.balance id := fun id => by
    simp only [balance, isPosted, h.transactions, h.entries]
  obtain ⟨as, e⟩ := h.accounts
  unfold Ledger.walletBalance walletAccount
  rw [e, List.find?_append]
  cases hf : L.accounts.find? (·.key = walletKey a c) with
  | some x => exact hbal x.id
  | none =>
    cases hf' : as.find? (·.key = walletKey a c) with
    | none => rfl
    | some x =>
      have hx : x ∈ L'.accounts := e ▸ List.mem_append_right _ (List.mem_of_find?_eq_some hf')
      have hkey : x.key = walletKey a c := by simpa using List.find?_some hf'
      show L'.balance x.id = 0
      rw [hbal, balance, List.filter_eq_nil_iff.2, List.map_nil, List.sum_nil]
      intro y hy hp
      simp only [Bool.and_eq_true, decide_eq_true_eq] at hp
      have hold := h.old hL hx hy hp.1
      exact absurd hkey (by simpa using List.find?_eq_none.1 hf x hold)

theorem importedOnly (h : L.Opens L') (hL : L.Linked) (hc : L.ImportedOnly a c) :
    L'.ImportedOnly a c := by
  intro x hx hkey e he hid
  rw [h.entries] at he
  rw [h.transactions]
  exact hc x (h.old hL hx he hid) hkey e he hid

theorem importedTotal (h : L.Opens L') (hL : L.Linked) :
    L'.importedTotal c = L.importedTotal c := by
  have hwallet : ∀ e ∈ L.entries, L'.isWallet e.ledgerAccountId = L.isWallet e.ledgerAccountId :=
    fun e he => by
      refine Bool.eq_iff_iff.2 ⟨fun hw => ?_, fun hw => ?_⟩ <;>
        obtain ⟨x, hx, hp⟩ := List.any_eq_true.1 hw
      · have hid : e.ledgerAccountId = x.id := by
          simp only [Bool.and_eq_true, decide_eq_true_eq] at hp
          exact hp.1.1.symm
        exact List.any_eq_true.2 ⟨x, h.old hL hx he hid, hp⟩
      · exact List.any_eq_true.2 ⟨x, h.mem hx, hp⟩
  unfold Ledger.importedTotal
  rw [h.entries]
  refine congrArg List.sum (congrArg _ (List.filter_congr fun e he => ?_))
  rw [hwallet e he, isImported, isImported, h.transactions]

end Ledger.Opens

/-! ## A movement that is posted -/

/-- `L'` is `L` with the imported movement `t` of `n` on the wallet. -/
structure Ledger.Posts (L L' : Ledger) (a : UUID) (c : String) (t : LedgerTransaction) (n : Int) :
    Prop where
  accounts : L'.accounts = L.accounts
  transactions : L'.transactions = L.transactions ++ [t]
  legacy : t.legacyWallet a c
  fresh : ∀ u ∈ L.transactions, u.id ≠ t.id ∧ u.idempotencyKey ≠ t.idempotencyKey
  entries : ∃ e e', L'.entries = L.entries ++ [e, e'] ∧ e.transactionId = t.id ∧
    e'.transactionId = t.id ∧ e'.signed = n ∧
    (∃ x ∈ L.accounts, x.id = e.ledgerAccountId ∧ x.ownerType = .system) ∧
    ∃ x, L.walletAccount a c = some x ∧ x.id = e'.ledgerAccountId

namespace Ledger.Posts

variable {t : LedgerTransaction} {n : Int}

theorem linked (h : L.Posts L' a c t n) (hL : L.Linked) : L'.Linked where
  accounts := h.accounts ▸ hL.accounts
  transactions := by
    rw [h.transactions]
    unfold UniqueBy
    rw [List.map_append]
    refine List.Nodup.append hL.transactions (List.nodup_singleton _) fun id hid hid' => ?_
    obtain ⟨u, hu, rfl⟩ := List.mem_map.1 hid
    exact (h.fresh u hu).1 (by simpa using hid')
  entries f hf := by
    obtain ⟨e, e', hent, he, he', -⟩ := h.entries
    rw [hent] at hf
    rw [h.transactions]
    rcases List.mem_append.1 hf with hf | hf
    · obtain ⟨u, hu, hid⟩ := hL.entries f hf
      exact ⟨u, List.mem_append_left _ hu, hid⟩
    · refine ⟨t, List.mem_append_right _ (List.mem_singleton_self _), ?_⟩
      rcases List.mem_pair.1 hf with rfl | rfl
      · exact he.symm
      · exact he'.symm
  owners f hf := by
    obtain ⟨e, e', hent, -, -, -, ⟨x, hx, hxe, -⟩, y, hy, hye⟩ := h.entries
    rw [hent] at hf
    rw [h.accounts]
    rcases List.mem_append.1 hf with hf | hf
    · exact hL.owners f hf
    · rcases List.mem_pair.1 hf with rfl | rfl
      · exact ⟨x, hx, hxe⟩
      · exact ⟨y, (mem_of_walletAccount hy).1, hye⟩

/-- An entry that was there is of another transaction. -/
theorem other (h : L.Posts L' a c t n) (hL : L.Linked) {e : LedgerEntry} (he : e ∈ L.entries) :
    t.id ≠ e.transactionId := by
  obtain ⟨u, hu, hid⟩ := hL.entries e he
  rw [← hid]
  exact (h.fresh u hu).1.symm

theorem legacy_eq (h : L.Posts L' a c t n) : t.status = .posted ∧
    t.referenceType = some "legacy_wallet" ∧ t.referenceId = some a.text ∧ t.currency = c := by
  have hl := h.legacy
  simpa only [LedgerTransaction.legacyWallet, Bool.and_eq_true, decide_eq_true_eq, and_assoc] using hl

theorem isPosted (h : L.Posts L' a c t n) {id : UUID} :
    L'.isPosted id = (L.isPosted id || decide (t.id = id)) := by
  simp [Ledger.isPosted, h.transactions, h.legacy_eq.1]

theorem isImported (h : L.Posts L' a c t n) {c' : String} {id : UUID} :
    L'.isImported c' id = (L.isImported c' id || (decide (t.id = id) && decide (c = c'))) := by
  obtain ⟨h₁, h₂, -, rfl⟩ := h.legacy_eq
  simp [Ledger.isImported, h.transactions, h₁, h₂]

theorem isWallet (h : L.Posts L' a c t n) : L'.isWallet = L.isWallet := by
  unfold Ledger.isWallet
  rw [h.accounts]

/-- Of the two entries only the second one may count. -/
theorem sum_pair {p : LedgerEntry → Bool} {e e' : LedgerEntry} (he : p e = false) :
    (([e, e'].filter p).map LedgerEntry.signed).sum = if p e' then e'.signed else 0 := by
  rw [List.filter_cons_of_neg (by simp [he])]
  by_cases he' : p e' <;> simp [he']

/-- The balance of every account but the system's. -/
theorem balance (h : L.Posts L' a c t n) (hL : L.Linked) {x : LedgerAccount} (hx : x ∈ L.accounts)
    (hown : x.ownerType = .account) : L'.balance x.id =
      L.balance x.id + if L.walletAccount a c = some x then n else 0 := by
  obtain ⟨e, e', hent, he, he', hn, ⟨y, hy, hye, hysys⟩, z, hz, hze⟩ := h.entries
  have hne : e.ledgerAccountId ≠ x.id := fun heq => by
    rw [hL.accounts.eq hy hx (hye.trans heq), hown] at hysys
    cases hysys
  have hold : (L.entries.filter fun f => decide (f.ledgerAccountId = x.id) &&
      L'.isPosted f.transactionId) = L.entries.filter fun f =>
        decide (f.ledgerAccountId = x.id) && L.isPosted f.transactionId :=
    List.filter_congr fun f hf => by rw [h.isPosted, decide_eq_false (h.other hL hf), Bool.or_false]
  have hpe : L'.isPosted e'.transactionId = true := by simp [h.isPosted, he']
  unfold Ledger.balance
  rw [hent, List.filter_append, hold, List.map_append, List.sum_append, sum_pair (by simp [hne]), hz,
    hpe, hn]
  congr 1
  refine if_congr ⟨fun heq => ?_, fun heq => ?_⟩ rfl rfl
  · simp only [Bool.and_true, decide_eq_true_eq] at heq
    rw [hL.accounts.eq (mem_of_walletAccount hz).1 hx (hze.trans heq)]
  · cases heq
    simp [hze]

theorem walletBalance (h : L.Posts L' a c t n) (hL : L.Linked) {a' : UUID} {c' : String} :
    L'.walletBalance a' c' = L.walletBalance a' c' + if a' = a ∧ c' = c then n else 0 := by
  obtain ⟨-, -, -, -, -, -, -, z, hz, -⟩ := h.entries
  have hacc : L'.walletAccount a' c' = L.walletAccount a' c' := by
    unfold walletAccount
    rw [h.accounts]
  unfold Ledger.walletBalance
  rw [hacc]
  cases hf : L.walletAccount a' c' with
  | none =>
    have hno : ¬(a' = a ∧ c' = c) := by
      rintro ⟨rfl, rfl⟩
      rw [hf] at hz
      cases hz
    simp [hno]
  | some x =>
    obtain ⟨hx, hkey⟩ := mem_of_walletAccount hf
    show L'.balance x.id = L.balance x.id + _
    rw [h.balance hL hx (congrArg Prod.fst hkey)]
    congr 1
    refine if_congr ⟨fun heq => ?_, ?_⟩ rfl rfl
    · have hkey' := (mem_of_walletAccount heq).2
      rw [hkey] at hkey'
      exact walletKey_inj hkey'
    · rintro ⟨rfl, rfl⟩
      exact hf

theorem importedTotal (h : L.Posts L' a c t n) (hL : L.Linked) {c' : String} :
    L'.importedTotal c' = L.importedTotal c' + if c' = c then n else 0 := by
  obtain ⟨e, e', hent, he, he', hn, ⟨y, hy, hye, hysys⟩, z, hz, hze⟩ := h.entries
  obtain ⟨hzmem, hzkey⟩ := mem_of_walletAccount hz
  have hsystem : L.isWallet e.ledgerAccountId = false := by
    refine List.any_eq_false.2 fun x hx hp => ?_
    simp only [Bool.and_eq_true, decide_eq_true_eq] at hp
    rw [hL.accounts.eq hx hy (hp.1.1.trans hye.symm), hysys] at hp
    cases hp.1.2
  have hwallet : L.isWallet e'.ledgerAccountId = true := by
    refine List.any_eq_true.2 ⟨z, hzmem, ?_⟩
    simp only [LedgerAccount.key, walletKey, Prod.mk.injEq] at hzkey
    simp [hze, hzkey]
  have hold : (L.entries.filter fun f => L'.isImported c' f.transactionId &&
      L'.isWallet f.ledgerAccountId) = L.entries.filter fun f =>
        L.isImported c' f.transactionId && L.isWallet f.ledgerAccountId :=
    List.filter_congr fun f hf => by
      rw [h.isImported, decide_eq_false (h.other hL hf), Bool.false_and, Bool.or_false, h.isWallet]
  have hnew : L.isImported c' t.id = false := by
    refine List.any_eq_false.2 fun u hu hp => ?_
    simp only [Bool.and_eq_true, decide_eq_true_eq] at hp
    exact (h.fresh u hu).1 hp.1.1.1
  unfold Ledger.importedTotal
  rw [hent, List.filter_append, hold, List.map_append, List.sum_append,
    sum_pair (by simp [h.isWallet, hsystem]), hn]
  congr 1
  refine if_congr ?_ rfl rfl
  rw [h.isImported, h.isWallet, hwallet, he', hnew]
  simp only [decide_true, Bool.false_or, Bool.true_and, Bool.and_true, decide_eq_true_eq]
  exact eq_comm

theorem importedOnly (h : L.Posts L' a c t n) (hL : L.Linked) {a' : UUID} {c' : String}
    (hc : L.ImportedOnly a' c') : L'.ImportedOnly a' c' := by
  intro x hx hkey f hf hfx
  rw [h.accounts] at hx
  obtain ⟨e, e', hent, he, he', hn, ⟨y, hy, hye, hysys⟩, z, hz, hze⟩ := h.entries
  rw [hent] at hf
  rw [h.transactions]
  rcases List.mem_append.1 hf with hf | hf
  · obtain ⟨u, hu, hid, hl⟩ := hc x hx hkey f hf hfx
    exact ⟨u, List.mem_append_left _ hu, hid, hl⟩
  · refine ⟨t, List.mem_append_right _ (List.mem_singleton_self _), ?_⟩
    rcases List.mem_pair.1 hf with rfl | rfl
    · rw [hL.accounts.eq hy hx (hye.trans hfx)] at hysys
      rw [show x.ownerType = .account from congrArg Prod.fst hkey] at hysys
      cases hysys
    · obtain ⟨hzmem, hzkey⟩ := mem_of_walletAccount hz
      rw [hL.accounts.eq hzmem hx (hze.trans hfx), hkey] at hzkey
      obtain ⟨rfl, rfl⟩ := walletKey_inj hzkey
      exact ⟨he'.symm, h.legacy⟩

theorem hasKey (h : L.Posts L' a c t n) {k : String} :
    L'.hasKey k ↔ L.hasKey k ∨ k = t.idempotencyKey := by
  simp [Ledger.hasKey, h.transactions, @eq_comm _ k]

end Ledger.Posts

/-! ## Movements, as the wallets show them -/

/-- `L'` is `L` after an import into the wallet that adds `n` to it, and the key `key` if `new`. -/
structure Ledger.Imports (L L' : Ledger) (a : UUID) (c key : String) (new : Prop) (n : Int) : Prop where
  linked : L'.Linked
  importedOnly : ∀ a' c', L.ImportedOnly a' c' → L'.ImportedOnly a' c'
  balance : ∀ a' c', L'.walletBalance a' c' =
    L.walletBalance a' c' + if a' = a ∧ c' = c then n else 0
  total : ∀ c', L'.importedTotal c' = L.importedTotal c' + if c' = c then n else 0
  keys : ∀ k, L'.hasKey k ↔ L.hasKey k ∨ new ∧ k = key

variable {key : String} {new : Prop} {n : Int}

/-- Only accounts are opened. -/
theorem Ledger.Opens.imports (h : L.Opens L') (hL : L.Linked) (hnew : ¬new) :
    L.Imports L' a c key new 0 where
  linked := h.linked hL
  importedOnly _ _ := h.importedOnly hL
  balance _ _ := by simp [h.walletBalance hL]
  total _ := by simp [h.importedTotal hL]
  keys k := by simp [Ledger.hasKey, h.transactions, hnew]

/-- Accounts are opened, and a movement is posted. -/
theorem Ledger.Opens.imports_posts {L₁ : Ledger} (h : L.Opens L₁) (hL : L.Linked)
    {t : LedgerTransaction} (h' : L₁.Posts L' a c t n) (hkey : t.idempotencyKey = key) (hnew : new) :
    L.Imports L' a c key new n where
  linked := h'.linked (h.linked hL)
  importedOnly _ _ hc := h'.importedOnly (h.linked hL) (h.importedOnly hL hc)
  balance _ _ := by rw [h'.walletBalance (h.linked hL), h.walletBalance hL]
  total _ := by rw [h'.importedTotal (h.linked hL), h.importedTotal hL]
  keys k := by
    rw [h'.hasKey, hkey]
    simp [Ledger.hasKey, h.transactions, hnew]

/-! ## Statements -/

section Statements

variable {α : Type} {v v' : DB} {r : α}

theorem run_selectOne {x : Err} {f : DB → Option α} (h : (selectOne x f).run v = some (r, v')) :
    v' = v ∧ f v = some r := by
  obtain ⟨o, v₁, h₁, h₂⟩ := Prog.run_bind_some h
  cases h₁
  rw [Prog.run_orFail, Option.map_eq_some_iff] at h₂
  obtain ⟨r', hr, he⟩ := h₂
  cases he
  exact ⟨rfl, hr⟩

theorem run_ledger {x : Err} {d : Dml} (h : (ledger x d).run v = some ((), v')) :
    (d.run v.ledger).result = .ok () ∧ v'.ledger = (d.run v.ledger).write v.ledger := by
  obtain ⟨hr, rfl⟩ := Prog.run_exec_some h
  refine ⟨?_, rfl⟩
  unfold ledgerEffects at hr
  cases hres : (d.run v.ledger).result with
  | ok _ => rfl
  | error _ =>
    rw [hres] at hr
    cases hr

/-- An INSERT into another table. -/
theorem run_insertOrIgnore {conflict : IndexKey} {keys : List IndexKey} {δ : Versions} {x : Err}
    (hδ : δ.ledger = .empty) (h : (insertOrIgnore conflict keys δ x).run v = some ((), v')) :
    v'.ledger = v.ledger := by
  obtain ⟨-, rfl⟩ := Prog.run_exec_some h
  split
  · rfl
  · unfold insertEffects
    split
    · rfl
    · show v.ledger.overlay δ.ledger = _
      rw [hδ, Ledger.overlay_empty]

theorem run_insertAccountOrIgnore {x : Err} {acc : LedgerAccount} (hL : v.ledger.Linked)
    (h : (ledger x (.insertAccountOrIgnore acc)).run v = some ((), v')) :
    v.ledger.Opens v'.ledger := by
  obtain ⟨hr, hv⟩ := run_ledger h
  rw [hv]
  have hr' : (v.ledger.insertAccountOrIgnore acc).result = .ok () := hr
  show v.ledger.Opens ((v.ledger.insertAccountOrIgnore acc).write v.ledger)
  unfold Ledger.insertAccountOrIgnore at hr' ⊢
  split at hr'
  · next hany =>
    rw [if_pos hany]
    exact .refl hL
  · next hany =>
    rw [if_neg hany]
    obtain ⟨hfresh, he⟩ := Ledger.insertAccount_ok hr'
    rw [he]
    have hfresh' : ∀ y ∈ [acc], ∀ x ∈ v.ledger.accounts, x.id ≠ y.id := fun y hy x hx => by
      cases List.mem_singleton.1 hy
      exact (hfresh x hx).1
    refine ⟨⟨[acc], overlay_of_fresh hfresh'⟩, ?_, overlay_nil, List.append_nil _⟩
    exact hL.accounts.put fun x hx e => absurd e (hfresh x hx).1

/-- The accounts of the wallet. -/
theorem run_ensureWalletAccounts {deterministicUUID : String → UUID} {s w : UUID}
    (hL : v.ledger.Linked)
    (h : (ensureWalletAccounts deterministicUUID a c).run v = some ((s, w), v')) :
    v.ledger.Opens v'.ledger ∧ (∃ y ∈ v'.ledger.accounts, y.id = s ∧ y.ownerType = .system) ∧
      ∃ x, v'.ledger.walletAccount a c = some x ∧ x.id = w := by
  obtain ⟨⟨⟩, v₁, h₁, h⟩ := Prog.run_bind_some h
  obtain ⟨s', v₂, h₂, h⟩ := Prog.run_bind_some h
  obtain ⟨⟨⟩, v₃, h₃, h⟩ := Prog.run_bind_some h
  obtain ⟨w', v₄, h₄, h⟩ := Prog.run_bind_some h
  obtain ⟨⟨⟩, v₅, h₅, h⟩ := Prog.run_bind_some h
  cases h
  obtain ⟨rfl, hs⟩ := run_selectOne h₂
  obtain ⟨rfl, hw⟩ := run_selectOne h₄
  have ho₁ := run_insertAccountOrIgnore hL h₁
  have ho₃ := run_insertAccountOrIgnore (ho₁.linked hL) h₃
  have he := run_insertOrIgnore rfl h₅
  obtain ⟨y, hy, rfl⟩ := Option.map_eq_some_iff.1 hs
  obtain ⟨x, hx, rfl⟩ := Option.map_eq_some_iff.1 hw
  rw [he]
  refine ⟨ho₁.trans ho₃, ⟨y, ho₃.mem (List.mem_of_find?_eq_some hy), rfl, ?_⟩, x, hx, rfl⟩
  have hkey : y.key = systemKey "legacy_migration" c := by simpa using List.find?_some hy
  exact congrArg Prod.fst hkey

theorem run_insertEntry {id : UUID} {p : LedgerPosting}
    (h : (insertEntry id p).run v = some ((), v')) :
    ∃ hp : 0 < p.amount, v'.ledger.entries = v.ledger.entries ++ [⟨id, p.accountId, p.side, p.amount, hp⟩] ∧
      v'.ledger.accounts = v.ledger.accounts ∧ v'.ledger.transactions = v.ledger.transactions := by
  unfold insertEntry at h
  split at h
  · next hp =>
    obtain ⟨hr, hv⟩ := run_ledger h
    have he : v'.ledger = v.ledger.addEntry ⟨id, p.accountId, p.side, p.amount, hp⟩ := by
      rw [hv]
      show (v.ledger.insertEntry _).write v.ledger = _
      rw [Ledger.insertEntry_ok hr]
    rw [he]
    exact ⟨hp, rfl, overlay_nil, overlay_nil⟩
  · cases h

/-- The draft is posted. -/
theorem run_postDraft {x : Err} {set : LedgerTransaction → LedgerTransaction} {now : Time}
    {t : LedgerTransaction} {ts : List LedgerTransaction}
    (hts : v.ledger.transactions = ts ++ [t]) (hfresh : ∀ u ∈ ts, u.id ≠ t.id)
    (h : (ledger x (.updateTransaction t.id (fun _ => true) set now)).run v = some ((), v')) :
    ∃ t', t.sameColumns t' ∧ t'.status = .posted ∧ v'.ledger.transactions = ts ++ [t'] ∧
      v'.ledger.accounts = v.ledger.accounts ∧ v'.ledger.entries = v.ledger.entries := by
  obtain ⟨hr, hv⟩ := run_ledger h
  have hf : v.ledger.transactions.find? (fun u => u.id = t.id && (fun _ => true) u) = some t := by
    rw [hts, List.find?_append, List.find?_eq_none.2 fun u hu hp => hfresh u hu (by simpa using hp)]
    simp
  obtain ⟨t', hg, he⟩ := Ledger.updateTransaction_ok hf hr
  have hpost : t.sameColumns t' ∧ t'.status = .posted := by
    unfold sakuraLedgerTransactionGuard at hg
    simp only at hg
    split at hg
    · next hc =>
      split at hg
      · cases hg
      · split at hg
        · cases hg
        · split at hg
          · cases hg
          · cases hg
            exact ⟨hc.2.2, hc.2.1⟩
    · cases hg
  have hv' : v'.ledger = v.ledger.writeTransaction t' := by
    rw [hv]
    show (v.ledger.updateTransaction t.id _ set now).write v.ledger = _
    rw [he]
  rw [hv']
  refine ⟨t', hpost.1, hpost.2, ?_, overlay_nil, List.append_nil _⟩
  show put LedgerTransaction.id v.ledger.transactions t' = _
  rw [hts, put, overlay, List.filter_append]
  congr 1
  rw [List.filter_eq_self.2 fun u hu => ?_, List.filter_eq_nil_iff.2 fun u hu => ?_, List.append_nil]
  · cases List.mem_singleton.1 hu
    simp [hpost.1.1]
  · have hne := hfresh u hu
    rw [hpost.1.1] at hne
    simpa using hne

/-- The side and amount of an imported movement on the wallet. -/
theorem signed_wallet {id w : UUID} {amount : Int64}
    (hp : 0 < if amount < 0 then -amount else amount) :
    (LedgerEntry.mk id w (if amount < 0 then .debit else .credit)
      (if amount < 0 then -amount else amount) hp).signed = amount.toInt := by
  unfold LedgerEntry.signed
  by_cases hneg : amount < 0
  · simp only [if_pos hneg] at hp ⊢
    have hmin := Int64.lt_iff_toInt_lt.1 hp
    have hlt := Int64.lt_iff_toInt_lt.1 hneg
    have hle := amount.le_toInt
    have hle' := amount.toInt_lt
    rw [Int64.toInt_neg] at hmin ⊢
    simp only [reduceCtorEq, if_false]
    rcases eq_or_ne amount.toInt (-2 ^ 63) with h | h
    · rw [h] at hmin
      exact absurd hmin (by decide)
    · rw [Int.bmod_eq_of_le (by simp; omega) (by simp; omega)]
      omega
  · simp only [if_neg hneg, if_true]

/-- A new movement is posted. -/
theorem run_post {t : LedgerTransaction} {s w : UUID} {amount : Int64} {postedAt now : Time}
    (ht : t.status = .draft ∧ t.referenceType = some "legacy_wallet" ∧
      t.referenceId = some a.text ∧ t.currency = c)
    (hs : ∃ y ∈ v.ledger.accounts, y.id = s ∧ y.ownerType = .system)
    (hw : ∃ x, v.ledger.walletAccount a c = some x ∧ x.id = w)
    (h : (do
      ledger .database (.insertTransaction t now)
      postImported t.id s w amount postedAt now : Call Unit).run v = some ((), v')) :
    ∃ t', v.ledger.Posts v'.ledger a c t' amount.toInt ∧ t'.idempotencyKey = t.idempotencyKey := by
  obtain ⟨⟨⟩, v₁, h₁, h⟩ := Prog.run_bind_some h
  obtain ⟨⟨⟩, v₃, h₃, h₄⟩ := Prog.run_bind_some h
  obtain ⟨⟨⟩, v₂, h₂, h₃⟩ := Prog.run_bind_some h₃
  obtain ⟨⟨⟩, v₃', h₃, he⟩ := Prog.run_bind_some h₃
  cases he
  obtain ⟨hr, hv₁⟩ := run_ledger h₁
  obtain ⟨hfresh, hok⟩ := Ledger.insertTransaction_ok hr
  have hl₁ : v₁.ledger = v.ledger.writeTransaction t := by
    rw [hv₁]
    show (v.ledger.insertTransaction t now).write v.ledger = _
    rw [hok]
  have hts₁ : v₁.ledger.transactions = v.ledger.transactions ++ [t] := by
    rw [hl₁]
    refine overlay_of_fresh fun y hy u hu => ?_
    cases List.mem_singleton.1 hy
    exact (hfresh u hu).1
  have hacc₁ : v₁.ledger.accounts = v.ledger.accounts := by rw [hl₁]; exact overlay_nil
  have hent₁ : v₁.ledger.entries = v.ledger.entries := by rw [hl₁]; exact List.append_nil _
  obtain ⟨hp, hent₂, hacc₂, hts₂⟩ := run_insertEntry h₂
  obtain ⟨hp', hent₃, hacc₃, hts₃⟩ := run_insertEntry h₃
  obtain ⟨t', hsame, hposted, hts₄, hacc₄, hent₄⟩ := run_postDraft (hts₃.trans (hts₂.trans hts₁))
    (fun u hu => (hfresh u hu).1) h₄
  obtain ⟨hid, -, hkey, -, hcur, href, hrefId, -⟩ := hsame
  refine ⟨t', ⟨hacc₄.trans (hacc₃.trans (hacc₂.trans hacc₁)), hts₄, ?_, fun u hu => ?_,
    ⟨t.id, s, if amount < 0 then .credit else .debit, _, hp⟩,
    ⟨t.id, w, if amount < 0 then .debit else .credit, _, hp'⟩, ?_, hid, hid, signed_wallet hp', hs,
    hw⟩, hkey.symm⟩
  · simp [LedgerTransaction.legacyWallet, hposted, ← href, ← hrefId, ← hcur, ht]
  · rw [← hid, ← hkey]
    exact hfresh u hu
  · rw [hent₄, hent₃, hent₂, hent₁, List.append_assoc]
    rfl

end Statements

/-! ## Imports -/

/-- The idempotency key under which a final balance is posted. -/
def walletImportKey (accountID : UUID) (currency : String) (balance : Int64) : String :=
  "legacy-wallet:" ++ accountID.text ++ ":" ++ currency ++ ":balance:" ++ toString balance

/-- The idempotency key under which an old movement is posted. -/
def ledgerImportKey (id : Int64) : String := "legacy-ledger:account_ledger_entries:" ++ toString id

/-- The import of the balance posts nothing. -/
def Ledger.Settled (L : Ledger) (a : UUID) (c : String) (balance : Int64) : Prop :=
  balance.toInt = L.walletBalance a c ∨ L.hasKey (walletImportKey a c balance)

instance (L : Ledger) (a : UUID) (c : String) (balance : Int64) :
    Decidable (L.Settled a c balance) :=
  inferInstanceAs (Decidable (_ ∨ _))

/-- What the import of the balance posts: the difference, in 64 bits. -/
def Ledger.correction (L : Ledger) (a : UUID) (c : String) (balance : Int64) : Int :=
  if L.Settled a c balance then 0 else (balance.toInt - L.walletBalance a c).bmod (2 ^ 64)

/-- The old movement is not posted. -/
def Ledger.Recorded (L : Ledger) (entry : LegacyLedger) : Prop :=
  entry.amount = 0 ∨ L.hasKey (ledgerImportKey entry.id)

instance (L : Ledger) (entry : LegacyLedger) : Decidable (L.Recorded entry) :=
  inferInstanceAs (Decidable (_ ∨ _))

section Imports

variable {deterministicUUID : String → UUID} {now : Time} {v v' : DB}

theorem Ledger.Opens.hasKey (h : L.Opens L') {k : String} : L'.hasKey k = L.hasKey k := by
  unfold Ledger.hasKey
  rw [h.transactions]

/-- **The import of a balance** posts the difference to what was imported before, unless it is zero or
the key of this balance exists. -/
theorem importWallet_imports {balance : Int64} (hL : v.ledger.Linked)
    (h : (importWallet deterministicUUID a c balance now).run v = some ((), v')) :
    ∃ new n, v.ledger.Imports v'.ledger a c (walletImportKey a c balance) new n ∧
      (v.ledger.ImportedOnly a c →
        (new ↔ ¬v.ledger.Settled a c balance) ∧ n = v.ledger.correction a c balance) := by
  obtain ⟨⟨s, w⟩, v₁, h₁, hrest⟩ := Prog.run_bind_some h
  obtain ⟨imported, v₂, h₂, hpost⟩ := Prog.run_bind_some hrest
  obtain ⟨rfl, himp⟩ := run_selectOne h₂
  obtain ⟨ho, hs, x, hx, rfl⟩ := run_ensureWalletAccounts hL h₁
  have hsum : v.ledger.ImportedOnly a c → imported.toInt = v.ledger.walletBalance a c := fun hc => by
    rw [scanInt64_eq himp, importedBalance_eq (ho.importedOnly hL hc) hx rfl, ho.walletBalance hL]
  have hzero : v.ledger.ImportedOnly a c →
      (balance - imported = 0 ↔ balance.toInt = v.ledger.walletBalance a c) := fun hc => by
    have hsub : balance - imported = 0 ↔ balance = imported := by grind
    rw [← hsum hc, hsub, Int64.toInt_inj]
  have hset : v.ledger.ImportedOnly a c → v.ledger.Settled a c balance →
      (False ↔ ¬v.ledger.Settled a c balance) ∧ 0 = v.ledger.correction a c balance := fun _ hset =>
    ⟨by simp [hset], by rw [Ledger.correction, if_pos hset]⟩
  simp only at hpost
  split at hpost
  · next hd =>
    cases hpost
    exact ⟨False, 0, ho.imports hL id, fun hc => hset hc (Or.inl ((hzero hc).1 hd))⟩
  · next hd =>
    obtain ⟨found, v₃, h₃, hpost⟩ := Prog.run_bind_some hpost
    cases h₃
    have hkey : (v₂.ledger.transactions.any
        (·.idempotencyKey = walletImportKey a c balance)) =
        v.ledger.hasKey (walletImportKey a c balance) := ho.hasKey
    split at hpost
    · next hfound =>
      cases hpost
      exact ⟨False, 0, ho.imports hL id, fun hc => hset hc (Or.inr (hkey ▸ hfound))⟩
    · next hfound =>
      obtain ⟨t, hposts, hk⟩ := run_post ⟨rfl, rfl, rfl, rfl⟩ hs ⟨x, hx, rfl⟩ hpost
      refine ⟨True, _, ho.imports_posts hL hposts hk trivial, fun hc => ?_⟩
      have hno : ¬v.ledger.Settled a c balance := by
        rintro (he | he)
        · exact hd ((hzero hc).2 he)
        · rw [hkey.symm.trans hfound] at he
          cases he
      refine ⟨by simp [hno], ?_⟩
      rw [Ledger.correction, if_neg hno, Int64.toInt_sub, hsum hc]

/-- **The import of an old movement** posts it once. -/
theorem importLegacyLedger_imports {entry : LegacyLedger} (hL : v.ledger.Linked)
    (h : (importLegacyLedger deterministicUUID a c entry now).run v = some ((), v')) :
    v.ledger.Imports v'.ledger a c (ledgerImportKey entry.id) (¬v.ledger.Recorded entry)
      (if v.ledger.Recorded entry then 0 else entry.amount.toInt) := by
  unfold importLegacyLedger at h
  split at h
  · next hz =>
    cases h
    have hrec : v.ledger.Recorded entry := Or.inl hz
    rw [if_pos hrec]
    exact (Ledger.Opens.refl hL).imports hL (not_not.2 hrec)
  · next hz =>
    obtain ⟨⟨s, w⟩, v₁, h₁, hrest⟩ := Prog.run_bind_some h
    obtain ⟨ho, hs, x, hx, rfl⟩ := run_ensureWalletAccounts hL h₁
    obtain ⟨found, v₂, h₂, hpost⟩ := Prog.run_bind_some hrest
    cases h₂
    have hkey : (v₁.ledger.transactions.any (·.idempotencyKey = ledgerImportKey entry.id)) =
        v.ledger.hasKey (ledgerImportKey entry.id) := ho.hasKey
    split at hpost
    · next hfound =>
      cases hpost
      have hrec : v.ledger.Recorded entry := Or.inr (hkey ▸ hfound)
      rw [if_pos hrec]
      exact ho.imports hL (not_not.2 hrec)
    · next hfound =>
      have hrec : ¬v.ledger.Recorded entry := by
        rintro (he | he)
        · exact hz he
        · rw [hkey.symm.trans hfound] at he
          cases he
      obtain ⟨t, hposts, hk⟩ := run_post ⟨rfl, rfl, rfl, rfl⟩ hs ⟨x, hx, rfl⟩ hpost
      rw [if_neg hrec]
      exact ho.imports_posts hL hposts hk hrec

end Imports

end Sakura
