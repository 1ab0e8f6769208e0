/-
  The rows that an import reads of the v2 database (legacyimport/importer.go).

  * `Casing`, `importCurrency`: the currency of a balance type;
  * `LegacyWallet`, `LegacyLedgerRow`, `LegacySource`: the rows, `importRun`: their import;
  * `Posting`: a wallet and what a row does to it; `importWalletRows_posting`,
    `importLedgerRows_posting`: what both loops do to a wallet.
-/
import Sakura.Text
import Sakura.Legacy.Keys

namespace Sakura

open Txn

/-! ## Currencies -/

/-- `strings.ToLower` and `strings.ToUpper`. -/
structure Casing where
  toLower : String → String
  toUpper : String → String
  toLower_empty : toLower "" = ""
  toUpper_eq_empty : ∀ s, toUpper s = "" ↔ s = ""

/-- `value[:16]` -/
def cutCurrency (value : String) : Bytes :=
  if 16 < (bytesOf value).length then (bytesOf value).take 16 else bytesOf value

/-- `normalizeCurrency` of the importer. -/
def importCurrency (casing : Casing) (value : String) : Bytes :=
  let name := casing.toLower (trimSpace value)
  if name = "coins" ∨ name = "points" ∨ name = "point" then bytesOf "POINTS"
  else if name = "registration_days" ∨ name = "days" then bytesOf "REGISTRATION_DAYS"
  else
    let value := casing.toUpper (trimSpace value)
    if value = "" then bytesOf "POINTS" else cutCurrency value

/-! ## Rows -/

/-- A row of account_wallets. -/
structure LegacyWallet where
  accountID : String
  balanceType : String
  balance : Int64

/-- A row of account_ledger_entries. -/
structure LegacyLedgerRow where
  accountID : String
  balanceType : String
  entry : LegacyLedger

/-- What an import reads: the accounts of v3 by their v2 ids, and the rows. -/
structure LegacySource where
  idMap : String → Option UUID
  entries : List LegacyLedgerRow
  wallets : List LegacyWallet

/-- The casing, and `uuid.NewSHA1(uuid.NameSpaceURL, …)`. -/
structure Importer where
  casing : Casing
  deterministicUUID : String → UUID

variable (im : Importer) (idMap : String → Option UUID)

/-- A currency is a parameter of every statement: it must be a text that the columns VARCHAR(16)
accept. -/
def withCurrency (currency : Bytes) (f : String → Call Unit) : Call Unit :=
  match storedText 16 currency with
  | some currency => f currency
  | none => .fail .database

/-- One of amount zero is left before its currency is used. -/
def importLedgerRow (now : Time) (row : LegacyLedgerRow) : Call Unit :=
  match idMap row.accountID with
  | none => pure ()
  | some accountID =>
    if row.entry.amount = 0 then pure ()
    else withCurrency (importCurrency im.casing row.balanceType) fun currency =>
      importLegacyLedger im.deterministicUUID accountID currency row.entry now

def importLedgerRows (now : Time) : List LegacyLedgerRow → Call Unit
  | [] => pure ()
  | row :: rows => do
    importLedgerRow im idMap now row
    importLedgerRows now rows

/-- A negative balance is left for a manual decision. -/
def importWalletRow (now : Time) (wallet : LegacyWallet) : Call Unit :=
  match idMap wallet.accountID with
  | none => pure ()
  | some accountID =>
    if wallet.balance < 0 then pure ()
    else withCurrency (importCurrency im.casing wallet.balanceType) fun currency =>
      importWallet im.deterministicUUID accountID currency wallet.balance now

def importWalletRows (now : Time) : List LegacyWallet → Call Unit
  | [] => pure ()
  | wallet :: wallets => do
    importWalletRow im idMap now wallet
    importWalletRows now wallets

/-- The ledger part of `Importer.Run`. -/
def importRun (source : LegacySource) (now : Time) : Call Unit := do
  importLedgerRows im source.idMap now source.entries
  importWalletRows im source.idMap now source.wallets
  .publish .legacyImport

/-- The wallet that a row of a balance type is imported into. -/
def walletOf (accountID balanceType : String) : Option (UUID × String) :=
  match idMap accountID, storedText 16 (importCurrency im.casing balanceType) with
  | some accountID, some currency => some (accountID, currency)
  | _, _ => none

/-- The balances that are imported into the wallet, in their order. -/
def balancesOf (a : UUID) (c : String) (wallets : List LegacyWallet) : List Int64 :=
  (wallets.filter fun w => walletOf im idMap w.accountID w.balanceType = some (a, c) &&
    !decide (w.balance < 0)).map (·.balance)

/-- The movements that are imported into the wallet, in their order. -/
def movementsOf (a : UUID) (c : String) (rows : List LegacyLedgerRow) : List LegacyLedger :=
  (rows.filter fun r => walletOf im idMap r.accountID r.balanceType = some (a, c)).map (·.entry)

/-! ## A wallet -/

/-- The posted balance of a wallet, and the final balances whose keys exist. -/
@[ext] structure Posting where
  balance : Int
  seen : Int64 → Bool

/-- A row of the wallet sets its balance, unless that was done before. -/
def Posting.set (p : Posting) (b : Int64) : Posting :=
  if b.toInt = p.balance ∨ p.seen b then p
  else ⟨p.balance + (b.toInt - p.balance).bmod (2 ^ 64), fun x => p.seen x || decide (x = b)⟩

def Ledger.posting (L : Ledger) (a : UUID) (c : String) : Posting :=
  ⟨L.walletBalance a c, fun b => L.hasKey (walletImportKey a c b)⟩

variable {im idMap} {a : UUID} {c : String} {v v' : DB} {now : Time}

theorem run_withCurrency {bs : Bytes} {f : String → Call Unit}
    (h : (withCurrency bs f).run v = some ((), v')) :
    ∃ currency, storedText 16 bs = some currency ∧ (f currency).run v = some ((), v') := by
  unfold withCurrency at h
  split at h
  · next currency hs => exact ⟨currency, hs, h⟩
  · cases h

/-- A row changes the wallet that it is imported into. -/
theorem importWallet_posting {a' : UUID} {c' : String} {b : Int64} (hL : v.ledger.Linked)
    (hc : v.ledger.ImportedOnly a c)
    (h : (importWallet im.deterministicUUID a' c' b now).run v = some ((), v')) :
    v'.ledger.Linked ∧ v'.ledger.ImportedOnly a c ∧ v'.ledger.posting a c =
      if a = a' ∧ c = c' then (v.ledger.posting a c).set b else v.ledger.posting a c := by
  obtain ⟨new, n, hm, hown⟩ := importWallet_imports hL h
  refine ⟨hm.linked, hm.importedOnly a c hc, ?_⟩
  by_cases hac : a = a' ∧ c = c'
  · obtain ⟨rfl, rfl⟩ := hac
    obtain ⟨hnew, rfl⟩ := hown hc
    have hbal := hm.balance a c
    rw [if_pos ⟨rfl, rfl⟩] at hbal ⊢
    unfold Ledger.correction at hbal
    unfold Posting.set
    split at hbal
    · next hs =>
      rw [if_pos (show b.toInt = (v.ledger.posting a c).balance ∨ (v.ledger.posting a c).seen b = true
        from hs)]
      refine Posting.ext (by simpa [Ledger.posting] using hbal) (funext fun x => ?_)
      refine Bool.eq_iff_iff.2 ((hm.keys _).trans ⟨?_, Or.inl⟩)
      rintro (hk | ⟨hk, -⟩)
      · exact hk
      · exact absurd hs (hnew.1 hk)
    · next hs =>
      rw [if_neg (show ¬(b.toInt = (v.ledger.posting a c).balance ∨
        (v.ledger.posting a c).seen b = true) from hs)]
      refine Posting.ext hbal (funext fun x => ?_)
      refine Bool.eq_iff_iff.2 ((hm.keys _).trans ?_)
      simp only [Ledger.posting, Bool.or_eq_true, decide_eq_true_eq]
      refine or_congr_right ⟨fun hk => (walletImportKey_inj hk.2).2.2, ?_⟩
      rintro rfl
      exact ⟨hnew.2 hs, rfl⟩
  · rw [if_neg hac]
    refine Posting.ext ?_ (funext fun x => ?_)
    · have hbal := hm.balance a c
      rwa [if_neg hac, Int.add_zero] at hbal
    · refine Bool.eq_iff_iff.2 ((hm.keys _).trans ⟨?_, Or.inl⟩)
      rintro (hk | ⟨-, hk⟩)
      · exact hk
      · exact absurd ⟨(walletImportKey_inj hk).1, (walletImportKey_inj hk).2.1⟩ hac

theorem importWalletRow_posting {w : LegacyWallet} (hL : v.ledger.Linked)
    (hc : v.ledger.ImportedOnly a c)
    (h : (importWalletRow im idMap now w).run v = some ((), v')) :
    v'.ledger.Linked ∧ v'.ledger.ImportedOnly a c ∧ v'.ledger.posting a c =
      (balancesOf im idMap a c [w]).foldl Posting.set (v.ledger.posting a c) := by
  have hskip : balancesOf im idMap a c [w] = [] → v' = v → v'.ledger.Linked ∧
      v'.ledger.ImportedOnly a c ∧ v'.ledger.posting a c =
        (balancesOf im idMap a c [w]).foldl Posting.set (v.ledger.posting a c) := by
    rintro he rfl
    exact ⟨hL, hc, by rw [he]; rfl⟩
  unfold importWalletRow at h
  split at h
  · next hid =>
    cases h
    exact hskip (by simp [balancesOf, walletOf, hid]) rfl
  · next a' hid =>
    split at h
    · next hneg =>
      cases h
      exact hskip (by simp [balancesOf, hneg]) rfl
    · next hneg =>
      obtain ⟨c', hs, h₁⟩ := run_withCurrency h
      obtain ⟨hL₁, hc₁, hp⟩ := importWallet_posting hL hc h₁
      refine ⟨hL₁, hc₁, ?_⟩
      rw [hp]
      have hinto : walletOf im idMap w.accountID w.balanceType = some (a', c') := by
        simp [walletOf, hid, hs]
      by_cases hac : a = a' ∧ c = c'
      · obtain ⟨rfl, rfl⟩ := hac
        have hone : balancesOf im idMap a c [w] = [w.balance] := by simp [balancesOf, hinto, hneg]
        rw [hone, if_pos ⟨rfl, rfl⟩]
        rfl
      · have hnone : balancesOf im idMap a c [w] = [] := by
          have hne : ¬(a' = a ∧ c' = c) := fun e => hac ⟨e.1.symm, e.2.symm⟩
          simp [balancesOf, hinto, hne]
        rw [hnone, if_neg hac]
        rfl

/-- **The loop over the wallets** sets the balance of a wallet by its rows, one after the other. -/
theorem importWalletRows_posting : ∀ {wallets : List LegacyWallet} {v v' : DB},
    v.ledger.Linked → v.ledger.ImportedOnly a c →
    (importWalletRows im idMap now wallets).run v = some ((), v') →
    v'.ledger.Linked ∧ v'.ledger.ImportedOnly a c ∧ v'.ledger.posting a c =
      (balancesOf im idMap a c wallets).foldl Posting.set (v.ledger.posting a c)
  | [], _, _, hL, hc, h => by
    cases h
    exact ⟨hL, hc, rfl⟩
  | w :: ws, v, v', hL, hc, h => by
    obtain ⟨⟨⟩, v₁, h₁, h₂⟩ := Prog.run_bind_some h
    obtain ⟨hL₁, hc₁, hp₁⟩ := importWalletRow_posting hL hc h₁
    obtain ⟨hL₂, hc₂, hp₂⟩ := importWalletRows_posting hL₁ hc₁ h₂
    refine ⟨hL₂, hc₂, ?_⟩
    rw [hp₂, hp₁, ← List.foldl_append]
    congr 1
    unfold balancesOf
    rw [← List.map_append, ← List.filter_append, List.singleton_append]

/-! ## Old movements -/

/-- The sum of those movements that were not imported before. -/
def Ledger.newMovements (L : Ledger) (es : List LegacyLedger) : Int :=
  ((es.filter fun e => decide ¬L.Recorded e).map (·.amount.toInt)).sum

/-- The wallet with `n` more. -/
def Posting.add (p : Posting) (n : Int) : Posting := ⟨p.balance + n, p.seen⟩

/-- What the loop over old movements keeps, and what it does to a wallet. -/
structure Ledger.Replays (L L' : Ledger) (a : UUID) (c : String) (n : Int) (ids : List Int64) :
    Prop where
  linked : L'.Linked
  importedOnly : L.ImportedOnly a c → L'.ImportedOnly a c
  posting : L'.posting a c = (L.posting a c).add n
  keys : ∀ i, i ∉ ids → L'.hasKey (ledgerImportKey i) = L.hasKey (ledgerImportKey i)

theorem Ledger.Replays.refl {L : Ledger} {ids : List Int64} (hL : L.Linked) :
    L.Replays L a c 0 ids :=
  ⟨hL, id, by simp [Posting.add], fun _ _ => rfl⟩

theorem importLedgerRow_replays {r : LegacyLedgerRow} (hL : v.ledger.Linked)
    (h : (importLedgerRow im idMap now r).run v = some ((), v')) :
    v.ledger.Replays v'.ledger a c
      (v.ledger.newMovements (movementsOf im idMap a c [r])) [r.entry.id] := by
  have hskip : v.ledger.newMovements (movementsOf im idMap a c [r]) = 0 → v' = v →
      v.ledger.Replays v'.ledger a c
        (v.ledger.newMovements (movementsOf im idMap a c [r])) [r.entry.id] := by
    rintro he rfl
    rw [he]
    exact .refl hL
  unfold importLedgerRow at h
  split at h
  · next hid =>
    cases h
    exact hskip (by simp [movementsOf, walletOf, hid, Ledger.newMovements]) rfl
  · next a' hid =>
    split at h
    · next hzero =>
      cases h
      refine hskip ?_ rfl
      have hrec : v.ledger.Recorded r.entry := Or.inl hzero
      by_cases hin : walletOf im idMap r.accountID r.balanceType = some (a, c) <;>
        simp [Ledger.newMovements, movementsOf, hin, hrec]
    · next hzero =>
      obtain ⟨c', hs, h₁⟩ := run_withCurrency h
      have hm := importLegacyLedger_imports hL h₁
      have hinto : walletOf im idMap r.accountID r.balanceType = some (a', c') := by
        simp [walletOf, hid, hs]
      refine ⟨hm.linked, hm.importedOnly a c, Posting.ext ?_ (funext fun x => ?_), fun i hi => ?_⟩
      · refine (hm.balance a c).trans (congrArg _ ?_)
        by_cases hac : a = a' ∧ c = c'
        · obtain ⟨rfl, rfl⟩ := hac
          by_cases hrec : v.ledger.Recorded r.entry <;>
            simp [movementsOf, hinto, Ledger.newMovements, hrec]
        · have hne : ¬(a' = a ∧ c' = c) := fun e => hac ⟨e.1.symm, e.2.symm⟩
          simp [movementsOf, hinto, Ledger.newMovements, hac, hne]
      · refine Bool.eq_iff_iff.2 ((hm.keys _).trans ⟨?_, Or.inl⟩)
        rintro (hk | ⟨-, hk⟩)
        · exact hk
        · exact absurd hk.symm ledgerImportKey_ne_walletImportKey
      · refine Bool.eq_iff_iff.2 ((hm.keys _).trans ⟨?_, Or.inl⟩)
        rintro (hk | ⟨-, hk⟩)
        · exact hk
        · exact absurd (ledgerImportKey_inj hk) (by simpa using hi)

/-- **The loop over the old movements** adds the new ones to the wallet; their ids are a primary key. -/
theorem importLedgerRows_replays : ∀ {rows : List LegacyLedgerRow} {v v' : DB}, v.ledger.Linked →
    UniqueBy (·.entry.id) rows → (importLedgerRows im idMap now rows).run v = some ((), v') →
    v.ledger.Replays v'.ledger a c (v.ledger.newMovements (movementsOf im idMap a c rows))
      (rows.map (·.entry.id))
  | [], _, _, hL, _, h => by
    cases h
    exact .refl hL
  | r :: rs, v, v', hL, hu, h => by
    obtain ⟨hr, hrs⟩ := List.nodup_cons.1 hu
    obtain ⟨⟨⟩, v₁, h₁, h₂⟩ := Prog.run_bind_some h
    have hone := importLedgerRow_replays (a := a) (c := c) hL h₁
    have hrest := importLedgerRows_replays hone.linked hrs h₂
    have hsame : v₁.ledger.newMovements (movementsOf im idMap a c rs) =
        v.ledger.newMovements (movementsOf im idMap a c rs) := by
      unfold Ledger.newMovements
      refine congrArg List.sum (congrArg _ (List.filter_congr fun e he => ?_))
      obtain ⟨r', hr', rfl⟩ := List.mem_map.1 he
      have hne : r'.entry.id ∉ [r.entry.id] := fun hmem => hr (List.mem_map.2
        ⟨r', (List.mem_filter.1 hr').1, List.mem_singleton.1 hmem⟩)
      refine decide_eq_decide.2 (not_congr ?_)
      rw [Ledger.Recorded, Ledger.Recorded, hone.keys _ hne]
    have hsum : v.ledger.newMovements (movementsOf im idMap a c (r :: rs)) =
        v.ledger.newMovements (movementsOf im idMap a c [r]) +
          v.ledger.newMovements (movementsOf im idMap a c rs) := by
      unfold Ledger.newMovements movementsOf
      rw [← List.sum_append, ← List.map_append, ← List.filter_append, ← List.map_append,
        ← List.filter_append, List.singleton_append]
    refine ⟨hrest.linked, fun hc => hrest.importedOnly (hone.importedOnly hc), ?_, fun i hi => ?_⟩
    · rw [hrest.posting, hone.posting, hsame, hsum]
      exact Posting.ext (Int.add_assoc _ _ _) rfl
    · simp only [List.map_cons, List.mem_cons, not_or] at hi
      rw [hrest.keys i hi.2, hone.keys i (by simpa using hi.1)]

/-! ## The whole import -/

section Statements

/-- The program commits nothing. -/
abbrev Uncommitted {α : Type} (p : Call α) : Prop := p.Statements fun _ _ => True

variable {deterministicUUID : String → UUID}

theorem ledger_uncommitted {x : Err} {d : Dml} : Uncommitted (ledger x d) :=
  Prog.statements_exec fun _ => trivial

theorem selectOne_uncommitted {α : Type} {x : Err} {f : DB → Option α} :
    Uncommitted (selectOne x f) :=
  (Prog.statements_query fun _ => trivial).bind fun _ => Prog.statements_orFail

theorem ensureWalletAccounts_uncommitted :
    Uncommitted (ensureWalletAccounts deterministicUUID a c) := by
  refine ledger_uncommitted.bind fun _ => selectOne_uncommitted.bind fun _ => ?_
  refine ledger_uncommitted.bind fun _ => selectOne_uncommitted.bind fun _ => ?_
  exact (Prog.statements_exec fun _ => trivial).bind fun _ => Prog.statements_pure

theorem postImported_uncommitted {id s w : UUID} {amount : Int64} {postedAt : Time} :
    Uncommitted (postImported id s w amount postedAt now) := by
  have hentry : ∀ p, Uncommitted (insertEntry id p) := fun p => by
    unfold insertEntry
    split
    · exact ledger_uncommitted
    · trivial
  refine Prog.Statements.bind ?_ fun _ => ledger_uncommitted
  exact (hentry _).bind fun _ => (hentry _).bind fun _ => Prog.statements_pure

theorem importWallet_uncommitted {b : Int64} :
    Uncommitted (importWallet deterministicUUID a c b now) := by
  refine ensureWalletAccounts_uncommitted.bind fun _ => selectOne_uncommitted.bind fun _ => ?_
  dsimp only
  split
  · exact Prog.statements_pure
  · refine (Prog.statements_query fun _ => trivial).bind fun o => ?_
    split
    · exact Prog.statements_pure
    · exact ledger_uncommitted.bind fun _ => postImported_uncommitted

theorem importLegacyLedger_uncommitted {entry : LegacyLedger} :
    Uncommitted (importLegacyLedger deterministicUUID a c entry now) := by
  unfold importLegacyLedger
  split
  · exact Prog.statements_pure
  · refine ensureWalletAccounts_uncommitted.bind fun _ => ?_
    refine (Prog.statements_query fun _ => trivial).bind fun o => ?_
    split
    · exact Prog.statements_pure
    · exact ledger_uncommitted.bind fun _ => postImported_uncommitted

theorem withCurrency_uncommitted {bs : Bytes} {f : String → Call Unit}
    (h : ∀ currency, Uncommitted (f currency)) : Uncommitted (withCurrency bs f) := by
  unfold withCurrency
  split
  · exact h _
  · trivial

theorem importLedgerRows_uncommitted :
    ∀ rows : List LegacyLedgerRow, Uncommitted (importLedgerRows im idMap now rows)
  | [] => Prog.statements_pure
  | row :: rows => by
    refine Prog.Statements.bind ?_ fun _ => importLedgerRows_uncommitted rows
    unfold importLedgerRow
    split
    · exact Prog.statements_pure
    · split
      · exact Prog.statements_pure
      · exact withCurrency_uncommitted fun _ => importLegacyLedger_uncommitted

theorem importWalletRows_uncommitted :
    ∀ wallets : List LegacyWallet, Uncommitted (importWalletRows im idMap now wallets)
  | [] => Prog.statements_pure
  | w :: ws => by
    refine Prog.Statements.bind ?_ fun _ => importWalletRows_uncommitted ws
    unfold importWalletRow
    split
    · exact Prog.statements_pure
    · split
      · exact Prog.statements_pure
      · exact withCurrency_uncommitted fun _ => importWallet_uncommitted

end Statements

/-- An import that completes leaves what its two loops do. -/
theorem importRun_completes {source : LegacySource} {db db' : DB}
    (h : (importRun im source now).alone db = (db', .ok ())) :
    ∃ v, (importLedgerRows im source.idMap now source.entries).run db = some ((), v) ∧
      (importWalletRows im source.idMap now source.wallets).run v = some ((), db') := by
  have hp : Uncommitted (importLedgerRows im source.idMap now source.entries >>= fun _ =>
      importWalletRows im source.idMap now source.wallets) :=
    (importLedgerRows_uncommitted _).bind fun _ => importWalletRows_uncommitted _
  rw [importRun, ← Prog.bind_assoc, Prog.alone_publish hp] at h
  obtain ⟨⟨⟩, h⟩ := h
  obtain ⟨⟨⟩, v, h₁, h₂⟩ := Prog.run_bind_some h
  exact ⟨v, h₁, h₂⟩

/-- **What an import does to a wallet**: it adds the new old movements, and sets the balance by the rows
of the wallet. -/
theorem importRun_posting {source : LegacySource} {db db' : DB} (hL : db.ledger.Linked)
    (hc : db.ledger.ImportedOnly a c) (hu : UniqueBy (·.entry.id) source.entries)
    (h : (importRun im source now).alone db = (db', .ok ())) :
    db'.ledger.Linked ∧ db'.ledger.ImportedOnly a c ∧ db'.ledger.posting a c =
      (balancesOf im source.idMap a c source.wallets).foldl Posting.set
        ((db.ledger.posting a c).add
          (db.ledger.newMovements (movementsOf im source.idMap a c source.entries))) := by
  obtain ⟨v, h₁, h₂⟩ := importRun_completes h
  have hr := importLedgerRows_replays (a := a) (c := c) hL hu h₁
  have hw := importWalletRows_posting hr.linked (hr.importedOnly hc) h₂
  rwa [hr.posting] at hw

end Sakura
