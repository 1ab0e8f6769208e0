/-
  Imports of a source whose wallet changes from one import to the next.

  * `LegacySource.OneBalance`: a wallet with one row, `Elsewhere`: what happens between two imports;
  * `Reimported`: the states that imports reach;
  * `imports_converge_iff`: when an import leaves the wallet with the balance of its row.
-/
import Sakura.Legacy.Rows

namespace Sakura

open Txn

variable {im : Importer} {a : UUID} {c : String} {L L' : Ledger}

/-! ## One wallet -/

/-- One row of the source is imported into the wallet, with the balance `b`. -/
def LegacySource.OneBalance (source : LegacySource) (im : Importer) (a : UUID) (c : String)
    (b : Int64) : Prop :=
  0 ≤ b ∧ (source.wallets.filter fun w =>
    walletOf im source.idMap w.accountID w.balanceType = some (a, c)).map (·.balance) = [b]

instance {source : LegacySource} {b : Int64} : Decidable (source.OneBalance im a c b) :=
  inferInstanceAs (Decidable (_ ∧ _))

/-- The posted balance with the old movements that an import of the source adds to it. -/
def LegacySource.balanceBefore (source : LegacySource) (im : Importer) (a : UUID) (c : String)
    (L : Ledger) : Int :=
  L.walletBalance a c + L.newMovements (movementsOf im source.idMap a c source.entries)

/-- From the balance `s` the import gets to `b`: there is nothing to post, or no transaction has the
key of the balance `b` and the difference is a 64-bit number. -/
def Ledger.Adjustable (L : Ledger) (a : UUID) (c : String) (s : Int) (b : Int64) : Prop :=
  b.toInt = s ∨ (L.hasKey (walletImportKey a c b) = false ∧
    -2 ^ 63 ≤ b.toInt - s ∧ b.toInt - s < 2 ^ 63)

instance {s : Int} {b : Int64} : Decidable (L.Adjustable a c s b) :=
  inferInstanceAs (Decidable (_ ∨ _))

theorem LegacySource.OneBalance.balancesOf {source : LegacySource} {b : Int64}
    (h : source.OneBalance im a c b) : balancesOf im source.idMap a c source.wallets = [b] := by
  obtain ⟨hb, hone⟩ := h
  obtain ⟨w, hw, rfl⟩ := List.map_eq_singleton_iff.1 hone
  have hneg : ¬w.balance < 0 := Int64.not_lt.2 hb
  have hsplit : (source.wallets.filter fun w =>
      walletOf im source.idMap w.accountID w.balanceType = some (a, c) &&
        !decide (w.balance < 0)) = [w].filter fun w => !decide (w.balance < 0) := by
    rw [← hw, List.filter_filter]
    exact List.filter_congr fun _ _ => Bool.and_comm _ _
  unfold Sakura.balancesOf
  rw [hsplit, List.filter_cons_of_pos (by simp [hneg])]
  rfl

/-- Setting a balance reaches it. -/
theorem Posting.set_balance_iff {p : Posting} {b : Int64} : (p.set b).balance = b.toInt ↔
    b.toInt = p.balance ∨ (p.seen b = false ∧
      -2 ^ 63 ≤ b.toInt - p.balance ∧ b.toInt - p.balance < 2 ^ 63) := by
  unfold Posting.set
  by_cases heq : b.toInt = p.balance
  · simp [heq]
  · cases hseen : p.seen b with
    | true => simp [heq, Ne.symm heq]
    | false =>
      have hfit : (b.toInt - p.balance).bmod (2 ^ 64) = b.toInt - p.balance ↔
          -2 ^ 63 ≤ b.toInt - p.balance ∧ b.toInt - p.balance < 2 ^ 63 := by
        rw [Int.bmod_def]
        omega
      rw [if_neg (by simp [heq]), ← hfit]
      show p.balance + _ = _ ↔ _
      simp only [heq, true_and, false_or]
      omega

/-! ## Histories -/

/-- Other changes of the ledger: they leave what is posted, and add no entry to the wallet. -/
structure Elsewhere (a : UUID) (c : String) (L L' : Ledger) : Prop where
  linked : L'.Linked
  posted : ∀ t ∈ L.transactions, t.status = .posted → t ∈ L'.transactions
  entries : ∀ x' ∈ L'.accounts, x'.key = walletKey a c → ∀ e ∈ L'.entries,
    e.ledgerAccountId = x'.id → e ∈ L.entries ∧ ∃ x ∈ L.accounts, x.id = x'.id ∧ x.key = x'.key

theorem Elsewhere.importedOnly (h : Elsewhere a c L L') (hc : L.ImportedOnly a c) :
    L'.ImportedOnly a c := by
  intro x' hx' hkey e he hid
  obtain ⟨he₀, x, hx, hxid, hxkey⟩ := h.entries x' hx' hkey e he hid
  obtain ⟨t, ht, hte, hl⟩ := hc x hx (hxkey.trans hkey) e he₀ (hid.trans hxid.symm)
  refine ⟨t, h.posted t ht ?_, hte, hl⟩
  simp only [LedgerTransaction.legacyWallet, Bool.and_eq_true, decide_eq_true_eq] at hl
  exact hl.1.1.1

/-- The states that imports reach from `db₀`, with any other changes between them; an import that
fails leaves the state. -/
inductive Reimported (im : Importer) (a : UUID) (c : String) (db₀ : DB) : DB → Prop where
  | start : Reimported im a c db₀ db₀
  | elsewhere {db db' : DB} : Reimported im a c db₀ db → Elsewhere a c db.ledger db'.ledger →
      Reimported im a c db₀ db'
  | run {db db' : DB} {source : LegacySource} {now : Time} : Reimported im a c db₀ db →
      UniqueBy (·.entry.id) source.entries →
      (importRun im source now).alone db = (db', .ok ()) → Reimported im a c db₀ db'

/-- All movements on the wallet stay imported ones. -/
theorem Reimported.importedOnly {db₀ db : DB} (h : Reimported im a c db₀ db)
    (hL : db₀.ledger.Linked) (hc : db₀.ledger.ImportedOnly a c) :
    db.ledger.Linked ∧ db.ledger.ImportedOnly a c := by
  induction h with
  | start => exact ⟨hL, hc⟩
  | elsewhere _ he ih => exact ⟨he.linked, he.importedOnly ih.2⟩
  | run _ hu hr ih =>
    obtain ⟨hL', hc', -⟩ := importRun_posting ih.1 ih.2 hu hr
    exact ⟨hL', hc'⟩

/-- **Repeated imports**: after any history an import leaves the wallet with the balance of its row
exactly if it can post the difference to it. -/
theorem imports_converge_iff {db₀ db db' : DB} {source : LegacySource} {b : Int64} {now : Time}
    (hL : db₀.ledger.Linked) (hc : db₀.ledger.ImportedOnly a c) (h : Reimported im a c db₀ db)
    (hu : UniqueBy (·.entry.id) source.entries) (hb : source.OneBalance im a c b)
    (hr : (importRun im source now).alone db = (db', .ok ())) :
    db'.ledger.walletBalance a c = b.toInt ↔
      db.ledger.Adjustable a c (source.balanceBefore im a c db.ledger) b := by
  obtain ⟨hL₁, hc₁⟩ := h.importedOnly hL hc
  obtain ⟨-, -, hp⟩ := importRun_posting hL₁ hc₁ hu hr
  have hset : db'.ledger.walletBalance a c = (db'.ledger.posting a c).balance := rfl
  rw [hset, hp, hb.balancesOf]
  exact Posting.set_balance_iff

/-! ## A small source -/

theorem toUpper_eq_empty (s : String) : toUpper s = "" ↔ s = "" := by
  unfold toUpper
  rw [← String.toList_inj, ← String.toList_inj]
  simp

/-- An identifier for a text, from its bytes. -/
def bytesID (s : String) : UUID :=
  idOf (Char.ofNat (s.toByteArray.data.toList.foldl (fun n d => (n * 31 + d.toNat) % 50000) 7))

/-- An import with the casing of ASCII letters. -/
def asciiImporter : Importer := ⟨⟨toLower, toUpper, rfl, toUpper_eq_empty⟩, bytesID⟩

/-- One account, with one wallet. -/
def oneWallet (b : Int64) : LegacySource where
  idMap _ := some (idOf '1')
  entries := []
  wallets := [⟨"1", "points", b⟩]

/-- A target without rows. -/
def freshTarget : DB where
  config :=
    { accounts := [], paymentWebhooks := [], orderTtlMinutes := none, batchChunkSize := none
      rechargeProducts := [], membershipPlans := [], membershipProducts := [], tags := []
      notificationPreferences := [], telegramAccounts := [] }
  ledger := .empty
  wallets := []
  rechargeOrders := []
  callbackEvents := []
  rechargeRefunds := []
  purchases := []
  memberships := []
  invitations := []
  redemptions := []
  batchOperations := []
  batchItems := []
  tagAssignments := []
  notifications := []

theorem freshTarget_linked : freshTarget.ledger.Linked :=
  ⟨List.nodup_nil, List.nodup_nil, fun _ h => absurd h List.not_mem_nil,
    fun _ h => absurd h List.not_mem_nil⟩

theorem freshTarget_importedOnly : freshTarget.ledger.ImportedOnly a c :=
  fun _ h => absurd h List.not_mem_nil

/-- The state after imports of the wallet with each of the balances. -/
def afterBalances (bs : List Int64) : DB :=
  bs.foldl (fun db b => ((importRun asciiImporter (oneWallet b) 0).alone db).1) freshTarget

theorem afterBalances_append (bs : List Int64) (b : Int64)
    (h : ((importRun asciiImporter (oneWallet b) 0).alone (afterBalances bs)).2 = .ok ()) :
    (importRun asciiImporter (oneWallet b) 0).alone (afterBalances bs) =
      (afterBalances (bs ++ [b]), .ok ()) := by
  refine Prod.ext ?_ h
  unfold afterBalances
  rw [List.foldl_append]
  rfl

theorem afterBalances_five : (importRun asciiImporter (oneWallet 5) 0).alone freshTarget =
    (afterBalances [5], .ok ()) :=
  afterBalances_append [] 5 (by decide +kernel)

theorem afterBalances_three : (importRun asciiImporter (oneWallet 3) 0).alone (afterBalances [5]) =
    (afterBalances [5, 3], .ok ()) :=
  afterBalances_append [5] 3 (by decide +kernel)

/-- The balance falls, and is reached. -/
theorem imports_converge_fallingBalance :
    (afterBalances [5, 3]).ledger.walletBalance (idOf '1') "POINTS" = 3 := by
  have hu : ∀ b, UniqueBy (·.entry.id) (oneWallet b).entries := fun _ => List.nodup_nil
  have hb : (oneWallet 3).OneBalance asciiImporter (idOf '1') "POINTS" 3 := by decide +kernel
  have hadjust : (afterBalances [5]).ledger.Adjustable (idOf '1') "POINTS"
      ((oneWallet 3).balanceBefore asciiImporter (idOf '1') "POINTS" (afterBalances [5]).ledger) 3 :=
    by decide +kernel
  exact (imports_converge_iff freshTarget_linked freshTarget_importedOnly
    (Reimported.start.run (hu 5) afterBalances_five) (hu 3) hb afterBalances_three).2 hadjust

/-- The wallet of the source goes from 5 to 3 and back; the third import leaves it at 3. -/
theorem returningBalance_lost :
    (∀ b ∈ [5, 3], (oneWallet b).OneBalance asciiImporter (idOf '1') "POINTS" b) ∧
      (importRun asciiImporter (oneWallet 5) 0).alone freshTarget = (afterBalances [5], .ok ()) ∧
      (importRun asciiImporter (oneWallet 3) 0).alone (afterBalances [5]) =
        (afterBalances [5, 3], .ok ()) ∧
      (importRun asciiImporter (oneWallet 5) 0).alone (afterBalances [5, 3]) =
        (afterBalances [5, 3, 5], .ok ()) ∧
      (afterBalances [5, 3, 5]).ledger.walletBalance (idOf '1') "POINTS" = 3 := by
  refine ⟨?_, afterBalances_five, afterBalances_three, ?_, by decide +kernel⟩
  · exact List.forall_mem_cons.2
      ⟨by decide +kernel, List.forall_mem_singleton.2 (by decide +kernel)⟩
  · exact afterBalances_append [5, 3] 5 (by decide +kernel)

end Sakura
