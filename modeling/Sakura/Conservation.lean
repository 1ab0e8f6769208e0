/-
  The programs of the platform as clients of the ledger.

  * `Request.client`, `importBalances_client`: they touch the ledger only by statements that run its
    triggers;
  * `LedgerCall`: these programs and those of any other client;
  * `ledger_conserved`: what is posted balances, and stays as it is.
-/
import Sakura.Platform
import Sakura.Statements
import Sakura.Import

namespace Sakura

open Txn

variable {α ρ : Type}

/-! ## Statements -/

/-- A program on the platform's tables that leaves the triggers of the ledger in place. -/
abbrev LedgerClient (p : Call α) : Prop := DB.store.Client p

/-- Versions of other tables leave the ledger as it is. -/
def offLedger (δ : Versions) : Prop := δ.ledger = .empty

/-- A program that writes other tables only is a client of the ledger. -/
theorem OnlyWrites.client : ∀ {p : Call α}, OnlyWrites offLedger p → LedgerClient p
  | .ret _, _ => trivial
  | .fail _, _ => trivial
  | .stmt _ _ next, hp => fun v => by
    obtain ⟨⟨δ, hδ, hw⟩, hnext⟩ := hp v
    refine ⟨Or.inl fun db => ?_, OnlyWrites.client (p := next v) hnext⟩
    rw [hw]
    show db.ledger.overlay δ.ledger = db.ledger
    rw [hδ, Ledger.overlay_empty]
  | .commit _ _, hp => hp.elim
  | .rollback _, hp => hp.elim

theorem client_select {f : DB → α} : LedgerClient (select f) := OnlyWrites.client (select_writes (T := offLedger) rfl)

theorem client_selectOne {x : Err} {f : DB → Option α} : LedgerClient (selectOne x f) :=
  OnlyWrites.client (selectOne_writes (T := offLedger) rfl)

theorem client_selectLock {table : Table} {mode : Mode} {rows : DB → List ρ} {key : ρ → UUID}
    {p : ρ → Bool} {site : UUID → Site} : LedgerClient (selectLock table mode rows key p site) :=
  OnlyWrites.client (selectLock_writes (T := offLedger) rfl)

theorem client_updateRow {table : Table} {rows : DB → List ρ} {key : ρ → UUID} {p : ρ → Bool}
    {set : ρ → Versions} (h : ∀ r, (set r).ledger = .empty) :
    LedgerClient (updateRow table rows key p set) :=
  OnlyWrites.client (updateRow_writes (T := offLedger) rfl h)

theorem client_insert {keys : List IndexKey} {δ : Versions} {x : Err} (h : δ.ledger = .empty) :
    LedgerClient (insert keys δ x) :=
  OnlyWrites.client (insert_writes (T := offLedger) rfl h)

theorem client_insertOrIgnore {conflict : IndexKey} {keys : List IndexKey} {δ : Versions} {x : Err}
    (h : δ.ledger = .empty) : LedgerClient (insertOrIgnore conflict keys δ x) :=
  OnlyWrites.client (insertOrIgnore_writes (T := offLedger) rfl h)

/-- A statement on the ledger runs one `Dml`. -/
theorem client_ledger {x : Err} {d : Dml} : LedgerClient (ledger x d) :=
  LedgerStore.client_exec fun _ => Or.inr ⟨d, fun _ hl => List.mem_map.2 ⟨_, hl, rfl⟩, fun _ => rfl⟩

theorem client_publish {e : Event} : LedgerClient (.publish e) := trivial

theorem LedgerClient.bind {β : Type} {p : Call α} {f : α → Call β} (h : LedgerClient p)
    (hf : ∀ a, LedgerClient (f a)) : LedgerClient (p >>= f) :=
  LedgerStore.client_bind h hf

theorem client_pure {a : α} : LedgerClient (pure a) := trivial

theorem client_fail {x : Err} : LedgerClient (.fail x : Call α) := trivial

theorem client_check {p : Prop} [Decidable p] {x : Err} : LedgerClient (.check p x) :=
  LedgerStore.client_check

theorem client_orFail {x : Err} {o : Option α} : LedgerClient (.orFail x o) :=
  LedgerStore.client_orFail

/-! ## Wallets -/

theorem ensureWalletTx_client {fresh : Fresh} {accountID : UUID} {currency : String} :
    LedgerClient (ensureWalletTx fresh accountID currency) := by
  refine client_selectOne.bind fun _ => client_ledger.bind fun _ => client_selectOne.bind fun _ => ?_
  refine (client_insertOrIgnore rfl).bind fun _ => (client_updateRow fun _ => rfl).bind fun _ => ?_
  exact client_selectLock.bind fun _ => client_orFail

theorem requireBalance_client {id : UUID} {amount : Int64} :
    LedgerClient (requireBalance id amount) :=
  client_selectOne.bind fun _ => client_check

theorem systemLedgerAccountTx_client {fresh : Fresh} {code currency : String} :
    LedgerClient (systemLedgerAccountTx fresh code currency) :=
  client_ledger.bind fun _ => client_selectOne

theorem ledgerTransactionTx_client {id : UUID} : LedgerClient (ledgerTransactionTx id) :=
  client_selectOne.bind fun _ => client_select.bind fun _ => client_pure

theorem insertEntries_client {id : UUID} :
    ∀ ps : List LedgerPosting, LedgerClient (insertEntries id ps)
  | [] => client_pure
  | p :: ps => by
    refine LedgerClient.bind ?_ fun _ => insertEntries_client ps
    unfold insertEntry
    split
    · exact client_ledger
    · exact client_fail

theorem postLedgerTx_client {fresh : Fresh} {kind : TransactionKind}
    {currency key referenceType referenceID description : String} {reversalOf : Option UUID}
    {metadata : List (String × String)} {actor : Actor} {postings : List LedgerPosting} :
    LedgerClient (postLedgerTx fresh kind currency key referenceType referenceID description
      reversalOf metadata actor postings) := by
  unfold postLedgerTx
  refine client_check.bind fun _ => client_select.bind fun o => ?_
  split
  · exact ledgerTransactionTx_client
  · refine client_orFail.bind fun _ => client_check.bind fun _ => client_ledger.bind fun _ => ?_
    refine (insertEntries_client _).bind fun _ => client_ledger.bind fun _ => ?_
    exact ledgerTransactionTx_client

theorem adjustWallet_client {fresh : Fresh} {accountID : UUID} {amount : Int64}
    {currency reason key : String} {actor : Actor} :
    LedgerClient (adjustWallet fresh accountID amount currency reason key actor) := by
  unfold adjustWallet
  refine client_check.bind fun _ => client_select.bind fun o => ?_
  split
  · exact ledgerTransactionTx_client
  · refine ensureWalletTx_client.bind fun _ => client_check.bind fun _ => ?_
    refine systemLedgerAccountTx_client.bind fun _ => LedgerClient.bind ?_ fun _ => ?_
    · split
      · exact requireBalance_client
      · exact client_pure
    · exact postLedgerTx_client.bind fun _ => client_publish.bind fun _ => client_pure

/-! ## Memberships -/

theorem assignMembershipTx_client {fresh : Fresh} {accountID planID : UUID} {startsAt : Int}
    {durationDays : Int64} {source sourceRef : String} {actor : Actor} :
    LedgerClient (assignMembershipTx fresh accountID planID startsAt durationDays source sourceRef
      actor) :=
  OnlyWrites.client (assignMembershipTx_writes (T := offLedger) rfl fun _ => rfl)

theorem redeemInvitation_client {fresh : Fresh} {accountID : UUID} {code key : String}
    {actor : Actor} : LedgerClient (redeemInvitation fresh accountID code key actor) := by
  unfold redeemInvitation redeemInvitationTx
  refine LedgerClient.bind ?_ fun _ => client_publish.bind fun _ => client_pure
  refine client_check.bind fun _ => client_selectLock.bind fun _ => client_orFail.bind fun _ => ?_
  refine client_select.bind fun o => ?_
  split
  · exact client_selectOne.bind fun _ => client_pure
  · refine client_check.bind fun _ => assignMembershipTx_client.bind fun _ => ?_
    exact (client_insert rfl).bind fun _ => (client_updateRow fun _ => rfl).bind fun _ => client_pure

/-! ## Orders and purchases -/

theorem createRechargeOrder_client {fresh : Fresh} {accountID productID : UUID}
    {provider key : String} :
    LedgerClient (createRechargeOrder fresh accountID productID provider key) := by
  unfold createRechargeOrder
  refine client_check.bind fun _ => client_select.bind fun o => ?_
  split
  · exact client_selectOne
  · refine client_select.bind fun _ => client_check.bind fun _ => client_selectLock.bind fun _ => ?_
    refine client_orFail.bind fun _ => client_check.bind fun _ => client_selectOne.bind fun _ => ?_
    refine client_check.bind fun _ => client_select.bind fun _ => (client_insert rfl).bind fun _ => ?_
    exact client_publish.bind fun _ => client_selectOne

theorem markPaid_client {id transactionID : UUID} {externalOrderID : String} {amountMinor : Int64}
    {now : Int} : LedgerClient (markPaid id externalOrderID amountMinor transactionID now) := by
  refine OnlyWrites.client (Prog.statements_exec fun v => ?_)
  split
  · exact writes_locks (T := offLedger) rfl
  · split
    · exact writes_locks (T := offLedger) rfl
    · exact writes_overlay (by rfl)

theorem confirmRecharge_client {fresh : Fresh} {provider eventID orderNo externalOrderID : String}
    {amountMinor : Int64} :
    LedgerClient (confirmRecharge fresh provider eventID orderNo externalOrderID amountMinor) := by
  unfold confirmRecharge
  refine client_check.bind fun _ => client_select.bind fun o => ?_
  split
  · exact client_selectOne.bind fun _ => client_check.bind fun _ => client_pure
  · refine client_selectLock.bind fun _ => client_orFail.bind fun _ => client_selectOne.bind fun _ => ?_
    split
    · refine client_check.bind fun _ => (client_insert rfl).bind fun _ => ?_
      exact client_publish.bind fun _ => client_selectOne
    · refine client_check.bind fun _ => ensureWalletTx_client.bind fun _ => ?_
      refine systemLedgerAccountTx_client.bind fun _ => postLedgerTx_client.bind fun _ => ?_
      refine (client_insert rfl).bind fun _ => markPaid_client.bind fun _ => ?_
      exact client_publish.bind fun _ => client_selectOne

theorem insertRefund_client {id orderID transactionID : UUID} {no reason key : String}
    {w x : Int64} {actor : Actor} :
    LedgerClient (insertRefund id no orderID w x reason transactionID key actor) := by
  unfold insertRefund
  split
  · exact client_insert rfl
  · exact client_fail

theorem refundRecharge_client {fresh : Fresh} {orderID : UUID} {w x : Int64} {reason key : String}
    {actor : Actor} : LedgerClient (refundRecharge fresh orderID w x reason key actor) := by
  unfold refundRecharge
  refine client_check.bind fun _ => client_select.bind fun o => ?_
  split
  · exact client_selectOne
  · refine client_selectLock.bind fun _ => client_orFail.bind fun _ => client_selectOne.bind fun _ => ?_
    refine client_check.bind fun _ => LedgerClient.bind LedgerStore.client_query fun _ => ?_
    refine client_orFail.bind fun _ => client_orFail.bind fun _ => client_check.bind fun _ => ?_
    refine client_check.bind fun _ => ensureWalletTx_client.bind fun _ => ?_
    refine requireBalance_client.bind fun _ => systemLedgerAccountTx_client.bind fun _ => ?_
    refine postLedgerTx_client.bind fun _ => insertRefund_client.bind fun _ => ?_
    refine LedgerClient.bind ?_ fun _ => client_publish.bind fun _ => client_selectOne
    exact (client_updateRow fun _ => rfl).bind fun _ => client_pure

theorem membershipPurchaseTx_client {id : UUID} : LedgerClient (membershipPurchaseTx id) :=
  client_selectOne.bind fun _ => client_selectOne.bind fun _ => client_pure

theorem purchaseMembership_client {fresh : Fresh} {accountID productID : UUID} {key : String}
    {actor : Actor} : LedgerClient (purchaseMembership fresh accountID productID key actor) := by
  unfold purchaseMembership
  refine client_check.bind fun _ => client_select.bind fun o => ?_
  split
  · exact membershipPurchaseTx_client
  · refine LedgerClient.bind ?_ fun _ => client_check.bind fun _ => ?_
    · refine client_selectLock.bind fun _ => client_orFail.bind fun _ => ?_
      exact client_selectLock.bind fun _ => client_orFail.bind fun _ => client_pure
    · refine ensureWalletTx_client.bind fun _ => client_check.bind fun _ => ?_
      refine requireBalance_client.bind fun _ => systemLedgerAccountTx_client.bind fun _ => ?_
      refine postLedgerTx_client.bind fun _ => assignMembershipTx_client.bind fun _ => ?_
      refine (client_insert rfl).bind fun _ => client_publish.bind fun _ => ?_
      exact membershipPurchaseTx_client.bind fun _ => client_check.bind fun _ => client_pure

/-! ## Batch items -/

theorem updateItem_client {id : Nat} {p : BatchItem → Bool} {set : BatchItem → BatchItem}
    {site : Site} : LedgerClient (updateItem id p set site) := by
  refine client_select.bind fun o => ?_
  split
  · exact client_pure
  · refine OnlyWrites.client (Prog.statements_exec fun v => ?_)
    split
    · exact writes_locks (T := offLedger) rfl
    · exact writes_overlay (by rfl)

theorem processBatchItem_client {fresh : Fresh} {operation : BatchOperation} {itemID : Nat}
    {accountID : UUID} {workerID : String} :
    LedgerClient (processBatchItem fresh operation itemID accountID workerID) := by
  refine updateItem_client.bind fun _ => client_check.bind fun _ => LedgerClient.bind ?_ fun _ => ?_
  · exact OnlyWrites.client (itemEffect_writes (T := offLedger) rfl (fun _ => rfl) (fun _ => rfl) fun _ => rfl)
  · exact updateItem_client.bind fun _ => client_publish

/-- **The calls of the platform are clients of the ledger.** -/
theorem Request.client (r : Request) : LedgerClient r.call := by
  cases r with
  | createRechargeOrder => exact createRechargeOrder_client.bind fun _ => client_pure
  | confirmRecharge => exact confirmRecharge_client.bind fun _ => client_pure
  | refundRecharge => exact refundRecharge_client.bind fun _ => client_pure
  | adjustWallet => exact adjustWallet_client.bind fun _ => client_pure
  | purchaseMembership => exact purchaseMembership_client.bind fun _ => client_pure
  | assignMembership =>
    exact (assignMembershipTx_client.bind fun _ => client_publish.bind fun _ => client_pure).bind
      fun _ => client_pure
  | redeemInvitation => exact redeemInvitation_client.bind fun _ => client_pure
  | processBatchItem => exact processBatchItem_client

/-! ## The import -/

variable {deterministicUUID : String → UUID} {accountID : UUID} {currency : String} {now : Int}

theorem ensureWalletAccounts_client :
    LedgerClient (ensureWalletAccounts deterministicUUID accountID currency) := by
  refine client_ledger.bind fun _ => client_selectOne.bind fun _ => client_ledger.bind fun _ => ?_
  exact client_selectOne.bind fun _ => (client_insertOrIgnore rfl).bind fun _ => client_pure

theorem postImported_client {txnID systemID walletID : UUID} {amount : Int64} {postedAt : Int} :
    LedgerClient (postImported txnID systemID walletID amount postedAt now) :=
  (insertEntries_client _).bind fun _ => client_ledger

theorem importWallet_client {balance : Int64} :
    LedgerClient (importWallet deterministicUUID accountID currency balance now) := by
  unfold importWallet
  refine ensureWalletAccounts_client.bind fun _ => client_selectOne.bind fun _ => ?_
  dsimp only
  split
  · exact client_pure
  · refine client_select.bind fun o => ?_
    split
    · exact client_pure
    · exact client_ledger.bind fun _ => postImported_client

theorem importLegacyLedger_client {entry : LegacyLedger} :
    LedgerClient (importLegacyLedger deterministicUUID accountID currency entry now) := by
  unfold importLegacyLedger
  split
  · exact client_pure
  · refine ensureWalletAccounts_client.bind fun _ => client_select.bind fun o => ?_
    split
    · exact client_pure
    · exact client_ledger.bind fun _ => postImported_client

theorem importEntries_client :
    ∀ es : List (Imported LegacyLedger), LedgerClient (importEntries deterministicUUID now es)
  | [] => client_pure
  | _ :: es => importLegacyLedger_client.bind fun _ => importEntries_client es

theorem importWallets_client :
    ∀ ws : List (Imported Int64), LedgerClient (importWallets deterministicUUID now ws)
  | [] => client_pure
  | w :: ws => by
    refine LedgerClient.bind ?_ fun _ => importWallets_client ws
    split
    · exact client_pure
    · exact importWallet_client

/-- **The import is a client of the ledger.** -/
theorem importBalances_client {entries : List (Imported LegacyLedger)}
    {wallets : List (Imported Int64)} :
    LedgerClient (importBalances deterministicUUID entries wallets now) :=
  (importEntries_client _).bind fun _ => (importWallets_client _).bind fun _ => client_publish

/-! ## Conservation -/

/-- A call that writes the ledger: one of the platform, an import from v2, or any other program that
leaves the triggers in place. -/
inductive LedgerCall where
  | request (r : Request)
  | legacyImport (deterministicUUID : String → UUID) (entries : List (Imported LegacyLedger))
      (wallets : List (Imported Int64)) (now : Time)
  | other (p : Call Unit) (h : LedgerClient p)

def LedgerCall.call : LedgerCall → Call Unit
  | .request r => r.call
  | .legacyImport deterministicUUID entries wallets now =>
    importBalances deterministicUUID entries wallets now
  | .other p _ => p

theorem LedgerCall.client : ∀ c : LedgerCall, LedgerClient c.call
  | .request r => r.client
  | .legacyImport .. => importBalances_client
  | .other _ h => h

/-- **The ledger is conserved.**  Whatever calls write it, and however their statements interleave:
a posted transaction has two entries or more, of equal and positive sums, on accounts of its
currency; it keeps its row and its entries in every later state; and over all accounts of a currency
credits minus debits is 0. -/
theorem ledger_conserved {ι : Type} [DecidableEq ι] {calls : ι → LedgerCall} {db : DB}
    {s s' : Running ι} (hu : UniqueBy LedgerAccount.id db.ledger.accounts)
    (ht : db.ledger.transactions = []) (he : db.ledger.entries = [])
    (h : Reachable (fun i => (calls i).call) (Running.over ι db) s)
    (h' : Reachable (fun i => (calls i).call) s s') :
    (∀ t ∈ s.db.ledger.transactions, t.status = .posted → t.Balanced s.db.ledger) ∧
    (∀ t ∈ s.db.ledger.transactions, t.status = .posted →
      t ∈ s'.db.ledger.transactions ∧
        s'.db.ledger.entriesOf t.id = s.db.ledger.entriesOf t.id) ∧
    ∀ currency, s.db.ledger.total currency = 0 := by
  have hw : ∀ i db, (DB.store.discipline Site Event).inv db →
      wp (DB.store.discipline Site Event) (calls i).call (fun _ _ => True) (fun _ _ => True)
        { db := db } := fun i db _ => (calls i).client.wp_true .start
  have hs : Sound (DB.store.discipline Site Event) (fun i => (calls i).call) (fun _ _ _ => True)
      (fun _ _ _ => True) db s := Sound.of_reachable hw (.empty hu ht he) h
  refine ⟨hs.inv.balanced, fun t ht hp => ?_, hs.inv.zero_sum⟩
  -- a commit that keeps the transaction and its entries, one after the other
  refine hs.later hw (P := fun db => t ∈ db.ledger.transactions ∧
    db.ledger.entriesOf t.id = s.db.ledger.entriesOf t.id) ?_ h' ⟨ht, rfl⟩
  rintro db₁ L e db₂ hi ⟨δ, hδ, ha⟩ ⟨hmem, hentries⟩
  have hk := ha.posted hi hmem hp
  rw [show db₂.ledger = db₁.ledger.overlay δ from hδ]
  exact ⟨hk.1, hk.2.trans hentries⟩

/-- An adjustment, and a client that adds a third entry to its transaction. -/
def intruder : Fin 2 → LedgerCall
  | 0 => .request (.adjustWallet (freshOf '5' '6' '7' '8' '0' '0' 0) (idOf '1') 2 "" "gift" "a"
      ⟨"admin", "root"⟩)
  | 1 => .other (ledger .database (.insertEntry ⟨idOf '8', idOf '5', .debit, 1, by decide⟩))
      client_ledger

theorem ledger_conserved_intruder :
    ∃ s s', Reachable (fun i => (intruder i).call) (Running.over (Fin 2) (shop [])) s ∧
      Reachable (fun i => (intruder i).call) s s' ∧
      (s.db.ledger.transactions.map (·.status) = [.posted] ∧
        s'.db.ledger.entries.length = 2) ∧ s.db.ledger.total "POINTS" = 0 := by
  obtain ⟨s, hs, hf⟩ := replay_any [0, 1] (by decide) (fun i => (intruder i).call)
    (fun _ _ => True) (List.replicate 21 0) (Running.over (Fin 2) (shop []))
    (fun s => decide (s.db.ledger.transactions.map (·.status) = [.posted]) &&
      (replay [0, 1] (fun i => (intruder i).call) (fun _ _ => True) (List.replicate 3 1) s).any
        fun s' : Running (Fin 2) => decide (s'.db.ledger.entries.length = 2)) (by decide +kernel)
  obtain ⟨hposted, hf'⟩ := (Bool.and_eq_true _ _).mp hf
  cases hr : replay [0, 1] (fun i => (intruder i).call) (fun _ _ => True) (List.replicate 3 1) s with
  | none => rw [hr] at hf'; cases hf'
  | some s' =>
    rw [hr] at hf'
    have hs' := replay_reachable (by decide) _ hr
    exact ⟨s, s', hs, hs', ⟨of_decide_eq_true hposted, of_decide_eq_true hf'⟩,
      (ledger_conserved shop_initial.accountIds rfl rfl hs hs').2.2 "POINTS"⟩

end Sakura
