/-
  The reconciliation report on wallets (reconcile/reconcile.go).

  * `checkerCurrency`, `Totals`: currencies and maps of the checker;
  * `sourceWalletTotals`, `queryTotals`: the totals of v2 and of v3;
  * `moneyChecks`: the checks of the report, one for each currency.
-/
import Mathlib.Data.List.Dedup
import Mathlib.Data.List.Sort
import Sakura.Legacy.Rows

namespace Sakura

open Txn

/-! ## Maps -/

/-- A `map[string]int64`; the first entry of a key counts. -/
abbrev Totals := List (Bytes × Int64)

namespace Totals

/-- `out[key]` -/
def get (out : Totals) (key : Bytes) : Int64 :=
  match out.find? (·.1 = key) with
  | some entry => entry.2
  | none => 0

/-- `out[key] = value` -/
def put (out : Totals) (key : Bytes) (value : Int64) : Totals := (key, value) :: out

def keys (out : Totals) : List Bytes := out.map (·.1)

variable {out : Totals} {key k : Bytes} {value : Int64}

@[simp] theorem get_nil : get [] k = 0 := rfl

@[simp] theorem keys_put : (out.put key value).keys = key :: out.keys := rfl

theorem get_put : (out.put key value).get k = if key = k then value else out.get k := by
  unfold get put
  by_cases h : key = k
  · rw [List.find?_cons_of_pos (by simp [h]), if_pos h]
  · rw [List.find?_cons_of_neg (by simp [h]), if_neg h]

end Totals

/-! ## Totals of v2 -/

/-- `normalizeCurrency` of the checker. -/
def checkerCurrency (casing : Casing) (value : String) : Bytes :=
  let name := casing.toLower (trimSpace value)
  if name = "coins" ∨ name = "points" ∨ name = "point" then bytesOf "POINTS"
  else if name = "registration_days" ∨ name = "days" then bytesOf "REGISTRATION_DAYS"
  else cutCurrency (casing.toUpper (trimSpace value))

/-- The rows of account_wallets in groups: `GROUP BY balance_type` takes balance types together that
the collation takes for equal, and shows one of them. -/
structure GroupedBy (collate : String → String) (wallets : List LegacyWallet)
    (groups : List (String × List LegacyWallet)) : Prop where
  rows : (groups.flatMap (·.2)).Perm wallets
  shown : ∀ g ∈ groups, g.1 ∈ g.2.map (·.balanceType)
  same : ∀ g ∈ groups, ∀ w ∈ g.2, collate w.balanceType = collate g.1
  apart : UniqueBy (fun g => collate g.1) groups

variable (casing : Casing)

/-- `out[normalizeCurrency(key)] += value` for each group. -/
def sourceWalletTotals (out : Totals) : List (String × List LegacyWallet) → Option Totals
  | [] => some out
  | (key, wallets) :: groups =>
    match scanInt64 (wallets.map (·.balance.toInt)).sum with
    | none => none
    | some value =>
      let currency := checkerCurrency casing key
      sourceWalletTotals (out.put currency (out.get currency + value)) groups

/-! ## Totals of v3 -/

/-- `queryTotals` for a query that has a row for each of the currencies. -/
def queryTotals (total : String → Int) : List String → Option Totals
  | [] => some []
  | currency :: currencies =>
    match scanInt64 (total currency), queryTotals total currencies with
    | some value, some out => some (out.put (bytesOf currency) value)
    | _, _ => none

namespace Ledger

/-- The currencies of the posted movements that were imported into wallets. -/
def importedCurrencies (L : Ledger) : List String :=
  (L.transactions.filter fun t => t.status = .posted && t.referenceType = some "legacy_wallet" &&
    L.entries.any fun e => e.transactionId = t.id && L.isWallet e.ledgerAccountId).map (·.currency)

/-- The ledger accounts of the wallets in a currency. -/
def walletsIn (L : Ledger) (currency : String) : List LedgerAccount :=
  L.accounts.filter fun a => a.ownerType = .account && a.code = "wallet" && a.currency = currency

def currentTotal (L : Ledger) (currency : String) : Int :=
  ((L.walletsIn currency).map fun a => L.balance a.id).sum

/-- The currencies of the wallets. -/
def currentCurrencies (L : Ledger) : List String :=
  (L.accounts.filter fun a => a.ownerType = .account && a.code = "wallet").map (·.currency)

end Ledger

/-! ## What the totals hold -/

section

variable {casing} {out out' : Totals} {k : Bytes}

/-- The balances of the groups that are counted under a key. -/
def groupsTotal (casing : Casing) (k : Bytes) (groups : List (String × List LegacyWallet)) : Int :=
  ((groups.filter fun g => checkerCurrency casing g.1 = k).map fun g =>
    (g.2.map (·.balance.toInt)).sum).sum

theorem sourceWalletTotals_get : ∀ {groups : List (String × List LegacyWallet)} {out : Totals},
    sourceWalletTotals casing out groups = some out' →
      out'.get k = out.get k + Int64.ofInt (groupsTotal casing k groups) ∧
        (k ∈ out'.keys ↔ k ∈ out.keys ∨ ∃ g ∈ groups, checkerCurrency casing g.1 = k)
  | [], out, h => by
    cases h
    simp [groupsTotal]
  | (key, wallets) :: groups, out, h => by
    unfold sourceWalletTotals at h
    split at h
    · cases h
    · next value hvalue =>
      obtain ⟨hget, hkeys⟩ := sourceWalletTotals_get h
      have hint : value = Int64.ofInt (wallets.map (·.balance.toInt)).sum := by
        rw [← scanInt64_eq hvalue, Int64.ofInt_toInt]
      constructor
      · rw [hget, Totals.get_put, groupsTotal, groupsTotal]
        by_cases hk : checkerCurrency casing key = k
        · subst hk
          rw [if_pos rfl, List.filter_cons_of_pos (by simp), List.map_cons, List.sum_cons,
            Int64.ofInt_add, hint, Int64.add_assoc]
        · rw [if_neg hk, List.filter_cons_of_neg (by simpa using hk)]
      · rw [hkeys, Totals.keys_put, List.mem_cons, List.exists_mem_cons_iff, @eq_comm _ k, or_assoc]
        exact or_left_comm

theorem queryTotals_get {total : String → Int} : ∀ {currencies : List String} {out : Totals},
    queryTotals total currencies = some out →
      (∀ c ∈ currencies, (out.get (bytesOf c)).toInt = total c) ∧
        (k ∈ out.keys ↔ ∃ c ∈ currencies, bytesOf c = k)
  | [], out, h => by
    cases h
    simp [Totals.keys]
  | c :: cs, out, h => by
    unfold queryTotals at h
    split at h
    · next value out₁ hvalue hout =>
      cases h
      obtain ⟨hget, hkeys⟩ := queryTotals_get hout
      constructor
      · intro c' hc'
        rw [Totals.get_put]
        split
        · next heq => rw [← bytesOf_inj heq, scanInt64_eq hvalue]
        · next hne =>
          refine hget c' ((List.mem_cons.1 hc').resolve_left ?_)
          rintro rfl
          exact hne rfl
      · rw [Totals.keys_put, List.mem_cons, hkeys]
        simp [@eq_comm _ k]
    · cases h

end

/-! ## Checks -/

structure MoneyCheck where
  currency : Bytes
  source : Int64
  imported : Int64
  current : Int64
  difference : Int64
  deriving DecidableEq

/-- The wallet checks of `Checker.Run`, in the order of their currencies. -/
def moneyChecks (groups : List (String × List LegacyWallet)) (L : Ledger) :
    Option (List MoneyCheck) := do
  let source ← sourceWalletTotals casing [] groups
  let imported ← queryTotals L.importedTotal L.importedCurrencies.dedup
  let current ← queryTotals L.currentTotal L.currentCurrencies.dedup
  let ordered := ((source.keys ++ imported.keys ++ current.keys).dedup).insertionSort (· ≤ ·)
  some (ordered.map fun currency =>
    { currency, source := source.get currency, imported := imported.get currency
      current := current.get currency
      difference := imported.get currency - source.get currency })

variable {casing}

end Sakura
