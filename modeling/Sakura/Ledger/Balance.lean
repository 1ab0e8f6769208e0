/-
  What the ledger triggers are for.

  * `LedgerTransaction.Balanced`, `Ledger.Inv`: what the guards promise of the posted transactions;
  * `Ledger.balance`, `Ledger.Inv.zero_sum`: per currency, the balances of all accounts add up to
    zero;
  * `Ledger.Admissible`: the row versions that a transaction with given locks may commit;
  * `Admissible.overlay`: what the others may commit meanwhile does not make them inadmissible, and
    `Admissible.run`: neither does a statement of its own.
-/
import Sakura.Ledger.Schema

namespace Sakura

open Txn

/-! ## Balanced transactions -/

/-- A transaction whose entries are at least two, balance, and are on accounts of its currency. -/
structure LedgerTransaction.Balanced (L : Ledger) (t : LedgerTransaction) : Prop where
  entries : 2 ≤ (L.entriesOf t.id).length
  positive : 0 < sumOf .debit (L.entriesOf t.id)
  equal : sumOf .debit (L.entriesOf t.id) = sumOf .credit (L.entriesOf t.id)
  currency : ∀ e ∈ L.entriesOf t.id, ∃ a ∈ L.accounts, a.id = e.ledgerAccountId ∧
    a.currency = t.currency

namespace Ledger

/-- The tables as the constraints and triggers keep them. -/
structure Inv (L : Ledger) : Prop where
  accounts : UniqueBy LedgerAccount.id L.accounts
  transactions : UniqueBy LedgerTransaction.id L.transactions
  entries : ∀ e ∈ L.entries, ∃ t ∈ L.transactions, t.id = e.transactionId
  owners : ∀ e ∈ L.entries, ∃ a ∈ L.accounts, a.id = e.ledgerAccountId
  balanced : ∀ t ∈ L.transactions, t.status = .posted → t.Balanced L

theorem Inv.empty {L : Ledger} (ha : UniqueBy LedgerAccount.id L.accounts)
    (ht : L.transactions = []) (he : L.entries = []) : L.Inv where
  accounts := ha
  transactions := by rw [ht]; exact uniqueBy_nil
  entries e h := by simp [he] at h
  owners e h := by simp [he] at h
  balanced t h := by simp [ht] at h

theorem mem_entriesOf {L : Ledger} {id : UUID} {e : LedgerEntry} :
    e ∈ L.entriesOf id ↔ e ∈ L.entries ∧ e.transactionId = id := by
  simp [entriesOf]

/-- The join with the accounts loses no entry and repeats none. -/
theorem joined_map_fst {L : Ledger} (hu : UniqueBy LedgerAccount.id L.accounts) {id : UUID}
    (ho : ∀ e ∈ L.entriesOf id, ∃ a ∈ L.accounts, a.id = e.ledgerAccountId) :
    (L.joined id).map (·.1) = L.entriesOf id := by
  unfold joined
  generalize L.entriesOf id = es at ho
  induction es with
  | nil => rfl
  | cons e es ih =>
    obtain ⟨a, ha, hae⟩ := ho e List.mem_cons_self
    have hf : L.accounts.filter (·.id = e.ledgerAccountId) = [a] := by
      rw [← hae]; exact hu.filter_eq ha
    rw [List.flatMap_cons, hf, List.map_append, ih fun e' he' => ho e' (List.mem_cons_of_mem _ he')]
    rfl

theorem mem_joined {L : Ledger} {id : UUID} {e : LedgerEntry} {a : LedgerAccount} :
    (e, a) ∈ L.joined id ↔ e ∈ L.entriesOf id ∧ a ∈ L.accounts ∧ a.id = e.ledgerAccountId := by
  simp only [joined, List.mem_flatMap, List.mem_map, List.mem_filter, decide_eq_true_eq,
    Prod.mk.injEq]
  constructor
  · rintro ⟨e', he', a', ⟨ha', hid⟩, rfl, rfl⟩; exact ⟨he', ha', hid⟩
  · rintro ⟨he, ha, hid⟩; exact ⟨e, he, a, ⟨ha, hid⟩, rfl, rfl⟩

/-- The rows that the guard counts are those of a balanced transaction. -/
theorem balanced_of_rows {L : Ledger} (hu : UniqueBy LedgerAccount.id L.accounts)
    {t : LedgerTransaction}
    (ho : ∀ e ∈ L.entriesOf t.id, ∃ a ∈ L.accounts, a.id = e.ledgerAccountId)
    (h : balancedRows t.currency (L.joined t.id)) : t.Balanced L := by
  have hfst := joined_map_fst hu ho
  obtain ⟨h₁, h₂, h₃, h₄⟩ := h
  rw [hfst] at h₂ h₃
  refine ⟨by rw [← hfst, List.length_map]; exact h₁, h₂, h₃, fun e he => ?_⟩
  obtain ⟨a, ha, hae⟩ := ho e he
  exact ⟨a, ha, hae, h₄ (e, a) (mem_joined.2 ⟨he, ha, hae⟩)⟩

/-! ## Balances -/

/-- A posted transaction with this id. -/
def isPosted (L : Ledger) (id : UUID) : Bool :=
  L.transactions.any fun t => t.id = id && t.status = .posted

/-- `SELECT COALESCE(SUM(…),0) FROM ledger_entries e JOIN ledger_transactions t ON
t.id=e.transaction_id AND t.status='posted' WHERE e.ledger_account_id=…` -/
def balance (L : Ledger) (accountId : UUID) : Int :=
  ((L.entries.filter fun e => e.ledgerAccountId = accountId && L.isPosted e.transactionId).map
    LedgerEntry.signed).sum

/-- Credits minus debits of all accounts of a currency. -/
def total (L : Ledger) (currency : String) : Int :=
  ((L.accounts.filter (·.currency = currency)).map fun a => L.balance a.id).sum

theorem sum_signed (es : List LedgerEntry) :
    (es.map LedgerEntry.signed).sum = sumOf .credit es - sumOf .debit es := by
  unfold sumOf
  induction es with
  | nil => rfl
  | cons e es ih => cases h : e.side <;> simp [LedgerEntry.signed, h, ih] <;> omega

/-- An entry is on an account of currency `c` and posted just if its transaction is a posted one of
currency `c`. -/
theorem Inv.entry_currency {L : Ledger} (h : L.Inv) {c : String} {e : LedgerEntry}
    (he : e ∈ L.entries) :
    (∃ a ∈ L.accounts, a.id = e.ledgerAccountId ∧ a.currency = c ∧ L.isPosted e.transactionId) ↔
      ∃ t ∈ L.transactions, t.id = e.transactionId ∧ t.status = .posted ∧ t.currency = c := by
  have hcur : ∀ t ∈ L.transactions, t.id = e.transactionId → t.status = .posted →
      ∃ a ∈ L.accounts, a.id = e.ledgerAccountId ∧ a.currency = t.currency := fun t ht hid hs =>
    (h.balanced t ht hs).currency e (mem_entriesOf.2 ⟨he, hid.symm⟩)
  constructor
  · rintro ⟨a, ha, hae, hac, hp⟩
    obtain ⟨t, ht, htp⟩ := List.any_eq_true.1 hp
    simp only [Bool.and_eq_true, decide_eq_true_eq] at htp
    obtain ⟨a', ha', hae', hac'⟩ := hcur t ht htp.1 htp.2
    rw [h.accounts.eq ha' ha (hae'.trans hae.symm), hac] at hac'
    exact ⟨t, ht, htp.1, htp.2, hac'.symm⟩
  · rintro ⟨t, ht, hid, hs, rfl⟩
    obtain ⟨a, ha, hae, hac⟩ := hcur t ht hid hs
    exact ⟨a, ha, hae, hac, List.any_eq_true.2 ⟨t, ht, by simp [hid, hs]⟩⟩

/-- **Conservation**: per currency, credits equal debits over all accounts. -/
theorem Inv.zero_sum {L : Ledger} (h : L.Inv) (c : String) : L.total c = 0 := by
  -- account by account and transaction by transaction, the same entries are added up
  have hacc : L.total c = (L.entries.map fun e => if ∃ a ∈ L.accounts, a.id = e.ledgerAccountId ∧
      (a.currency = c && L.isPosted e.transactionId) then e.signed else 0).sum := by
    have hb : ∀ a : LedgerAccount, (if decide (a.currency = c) then L.balance a.id else 0) = (L.entries.map fun e =>
        if a.id = e.ledgerAccountId ∧ (a.currency = c && L.isPosted e.transactionId)
          then e.signed else 0).sum := fun a => by
      by_cases hac : a.currency = c
      · simp only [hac, decide_true, if_true, balance, sum_filter, Bool.true_and, Bool.and_eq_true,
          decide_eq_true_eq, @eq_comm _ a.id]
      · simp [hac]
    simp only [total, sum_filter, hb]
    rw [sum_comm]
    refine congrArg List.sum (List.map_congr_left fun e _ => ?_)
    exact h.accounts.sum_ite (fun a => a.currency = c && L.isPosted e.transactionId) _ _
  have htx : ((L.transactions.filter fun t => t.status = .posted && t.currency = c).map fun t =>
      ((L.entriesOf t.id).map LedgerEntry.signed).sum).sum = (L.entries.map fun e =>
        if ∃ t ∈ L.transactions, t.id = e.transactionId ∧ (t.status = .posted && t.currency = c)
          then e.signed else 0).sum := by
    have hb : ∀ t : LedgerTransaction, (if (t.status = .posted && t.currency = c : Bool) then
        ((L.entriesOf t.id).map LedgerEntry.signed).sum else 0) = (L.entries.map fun e =>
          if t.id = e.transactionId ∧ (t.status = .posted && t.currency = c : Bool)
            then e.signed else 0).sum := fun t => by
      by_cases ht : (t.status = .posted && t.currency = c : Bool)
      · simp only [ht, if_true, entriesOf, sum_filter, decide_eq_true_eq, and_true,
          @eq_comm _ t.id]
      · simp [ht]
    simp only [sum_filter, hb]
    rw [sum_comm]
    refine congrArg List.sum (List.map_congr_left fun e _ => ?_)
    exact h.transactions.sum_ite (fun t => t.status = .posted && t.currency = c) _ _
  rw [hacc]
  calc _ = _ := congrArg List.sum (List.map_congr_left fun e he => if_congr
          (by simpa only [Bool.and_eq_true, decide_eq_true_eq] using h.entry_currency he) rfl rfl)
    _ = _ := htx.symm
    _ = 0 := by
      refine List.sum_eq_zero fun x hx => ?_
      obtain ⟨t, ht, rfl⟩ := List.mem_map.1 hx
      obtain ⟨ht, hp⟩ := List.mem_filter.1 ht
      have hbal := h.balanced t ht (by simp at hp; exact hp.1)
      rw [sum_signed, hbal.equal]; omega

/-! ## What a transaction may commit -/

/-- The locks `H` of one transaction and `H'` of another do not exclude each other. -/
def Apart (H H' : LedgerLock → Mode → Prop) : Prop :=
  ∀ l m m', H l m → H' l m' → m = .share ∧ m' = .share

/-- The versions `δ` that a transaction holding `H` may commit over `L`: new rows under ids it has
locked, accounts that keep their currency, drafts that it has locked and posts balanced, and entries
of drafts that nobody can post meanwhile. -/
structure Admissible (H : LedgerLock → Mode → Prop) (L δ : Ledger) : Prop where
  accounts : UniqueBy LedgerAccount.id δ.accounts
  transactions : UniqueBy LedgerTransaction.id δ.transactions
  currency : ∀ a ∈ δ.accounts, ∀ b ∈ L.accounts, b.id = a.id → b.currency = a.currency
  newAccount : ∀ a ∈ δ.accounts, (∃ b ∈ L.accounts, b.id = a.id) ∨ H (.accountId a.id) .exclusive
  version : ∀ t ∈ δ.transactions,
    (∃ u ∈ L.transactions, u.id = t.id ∧ u.status = .draft ∧ t.status = .posted ∧
      H (.transaction t.id) .exclusive) ∨
    (∀ u ∈ L.transactions, u.id ≠ t.id) ∧ H (.transactionId t.id) .exclusive
  balanced : ∀ t ∈ δ.transactions, t.status = .posted → t.Balanced (L.overlay δ)
  entries : ∀ e ∈ δ.entries,
    (∃ u ∈ L.transactions, u.id = e.transactionId ∧ u.status = .draft ∧
      ∃ m, H (.transaction e.transactionId) m) ∨
    ∃ t ∈ δ.transactions, t.id = e.transactionId ∧ ∀ u ∈ L.transactions, u.id ≠ t.id
  owners : ∀ e ∈ δ.entries, ∃ a ∈ (L.overlay δ).accounts, a.id = e.ledgerAccountId

theorem Admissible.empty {H : LedgerLock → Mode → Prop} {L : Ledger} : Admissible H L .empty where
  accounts := uniqueBy_nil
  transactions := uniqueBy_nil
  currency _ h := by cases h
  newAccount _ h := by cases h
  version _ h := by cases h
  balanced _ h := by cases h
  entries _ h := by cases h
  owners _ h := by cases h

theorem Admissible.mono {H H' : LedgerLock → Mode → Prop} (hH : ∀ l m, H l m → H' l m) {L δ : Ledger}
    (h : Admissible H L δ) : Admissible H' L δ where
  accounts := h.accounts
  transactions := h.transactions
  currency := h.currency
  newAccount a ha := (h.newAccount a ha).imp_right (hH _ _)
  version t ht := (h.version t ht).imp (fun ⟨u, hu, h₁, h₂, h₃, h₄⟩ => ⟨u, hu, h₁, h₂, h₃, hH _ _ h₄⟩)
    fun ⟨h₁, h₂⟩ => ⟨h₁, hH _ _ h₂⟩
  balanced := h.balanced
  entries e he := (h.entries e he).imp_left fun ⟨u, hu, h₁, h₂, m, h₃⟩ => ⟨u, hu, h₁, h₂, m, hH _ _ h₃⟩
  owners := h.owners

variable {H H' : LedgerLock → Mode → Prop} {L δ δ' : Ledger}

/-- An account keeps its id and currency under versions that do. -/
theorem account_overlay
    (h : ∀ a ∈ δ.accounts, ∀ b ∈ L.accounts, b.id = a.id → b.currency = a.currency)
    {a : LedgerAccount} (ha : a ∈ L.accounts) :
    ∃ b ∈ (L.overlay δ).accounts, b.id = a.id ∧ b.currency = a.currency := by
  by_cases hv : ∃ b ∈ δ.accounts, b.id = a.id
  · obtain ⟨b, hb, hid⟩ := hv
    exact ⟨b, mem_overlay_right hb, hid, (h b hb a ha hid.symm).symm⟩
  · exact ⟨a, mem_overlay_left (fun b hb hid => hv ⟨b, hb, hid⟩) ha, rfl, rfl⟩

theorem Admissible.account (h : Admissible H L δ) {a : LedgerAccount} (ha : a ∈ L.accounts) :
    ∃ b ∈ (L.overlay δ).accounts, b.id = a.id ∧ b.currency = a.currency :=
  account_overlay h.currency ha

/-- A posted transaction is never written again. -/
theorem Admissible.not_posted (hL : L.Inv) (h : Admissible H L δ) {t : LedgerTransaction}
    (ht : t ∈ L.transactions) (hs : t.status = .posted) : ∀ u ∈ δ.transactions, u.id ≠ t.id := by
  intro u hu hid
  rcases h.version u hu with ⟨v, hv, hvid, hvs, -⟩ | ⟨hnew, -⟩
  · rw [hL.transactions.eq hv ht (hvid.trans hid), hs] at hvs; cases hvs
  · exact hnew t ht hid.symm

/-- Nor is an entry added to it. -/
theorem Admissible.entriesOf_posted (hL : L.Inv) (h : Admissible H L δ) {t : LedgerTransaction}
    (ht : t ∈ L.transactions) (hs : t.status = .posted) :
    (L.overlay δ).entriesOf t.id = L.entriesOf t.id := by
  have hno : δ.entriesOf t.id = [] := by
    refine List.filter_eq_nil_iff.2 fun e he hid => ?_
    have hid : e.transactionId = t.id := by simpa using hid
    rcases h.entries e he with ⟨u, hu, huid, hus, -⟩ | ⟨u, -, huid, hnew⟩
    · rw [hL.transactions.eq hu ht (huid.trans hid), hs] at hus; cases hus
    · exact hnew t ht (hid.symm.trans huid.symm)
  show List.filter _ (L.entries ++ δ.entries) = _
  rw [List.filter_append]
  exact (congrArg _ hno).trans (List.append_nil _)

/-- **Posted transactions are immutable.** -/
theorem Admissible.posted (hL : L.Inv) (h : Admissible H L δ) {t : LedgerTransaction}
    (ht : t ∈ L.transactions) (hs : t.status = .posted) :
    t ∈ (L.overlay δ).transactions ∧ (L.overlay δ).entriesOf t.id = L.entriesOf t.id :=
  ⟨mem_overlay_left (h.not_posted hL ht hs) ht, h.entriesOf_posted hL ht hs⟩

/-- The invariant survives an admissible commit. -/
theorem Admissible.inv (hL : L.Inv) (h : Admissible H L δ) : (L.overlay δ).Inv where
  accounts := hL.accounts.overlay h.accounts fun _ _ _ _ e => e
  transactions := hL.transactions.overlay h.transactions fun _ _ _ _ e => e
  entries e he := by
    have hover : ∀ u ∈ L.transactions, u.id = e.transactionId →
        ∃ t ∈ (L.overlay δ).transactions, t.id = e.transactionId := fun u hu hid => by
      by_cases hv : ∃ t ∈ δ.transactions, t.id = u.id
      · obtain ⟨t, ht, h'⟩ := hv; exact ⟨t, mem_overlay_right ht, h'.trans hid⟩
      · exact ⟨u, mem_overlay_left (fun t ht h' => hv ⟨t, ht, h'⟩) hu, hid⟩
    rcases List.mem_append.1 he with he | he
    · obtain ⟨u, hu, hid⟩ := hL.entries e he; exact hover u hu hid
    · rcases h.entries e he with ⟨u, hu, hid, -⟩ | ⟨t, ht, hid, -⟩
      · exact hover u hu hid
      · exact ⟨t, mem_overlay_right ht, hid⟩
  owners e he := by
    rcases List.mem_append.1 he with he | he
    · obtain ⟨a, ha, hid⟩ := hL.owners e he
      obtain ⟨b, hb, hb', -⟩ := h.account ha
      exact ⟨b, hb, hb'.trans hid⟩
    · exact h.owners e he
  balanced t ht hs := by
    rcases mem_overlay.1 ht with ⟨ht, -⟩ | ht
    · have hent := h.entriesOf_posted hL ht hs
      obtain ⟨h₁, h₂, h₃, h₄⟩ := hL.balanced t ht hs
      refine ⟨hent ▸ h₁, hent ▸ h₂, hent ▸ h₃, fun e he => ?_⟩
      obtain ⟨a, ha, hid, hc⟩ := h₄ e (hent ▸ he)
      obtain ⟨b, hb, hb', hbc⟩ := h.account ha
      exact ⟨b, hb, hb'.trans hid, hbc.trans hc⟩
    · exact h.balanced t ht hs

/-! ## Interference -/

/-- A transaction row with a lock on it is not written by the others. -/
theorem Admissible.keeps (h' : Admissible H' L δ') (hA : Apart H H') {u : LedgerTransaction}
    (hu : u ∈ L.transactions) {m : Mode} (hm : H (.transaction u.id) m) :
    ∀ v ∈ δ'.transactions, v.id ≠ u.id := by
  intro v hv hid
  rcases h'.version v hv with ⟨-, -, -, -, -, hl⟩ | ⟨hnew, -⟩
  · rw [hid] at hl
    have := (hA _ _ _ hm hl).2
    cases this
  · exact hnew u hu hid.symm

/-- What the others commit does not touch the transactions that a transaction may write. -/
theorem Admissible.entriesOf_own (h : Admissible H L δ) (h' : Admissible H' L δ')
    (hA : Apart H H') {t : LedgerTransaction} (ht : t ∈ δ.transactions) :
    δ'.entriesOf t.id = [] := by
  refine List.filter_eq_nil_iff.2 fun e he hid => ?_
  have hid : e.transactionId = t.id := by simpa using hid
  rcases h.version t ht with ⟨u, hu, huid, -, -, hl⟩ | ⟨hnew, hl⟩
  · rcases h'.entries e he with ⟨v, -, -, -, m, hm⟩ | ⟨v, -, hvid, hvnew⟩
    · rw [hid] at hm
      have := (hA _ _ _ hl hm).1
      cases this
    · exact hvnew u hu (huid.trans (hid.symm.trans hvid.symm))
  · rcases h'.entries e he with ⟨v, hv, hvid, -⟩ | ⟨v, hv, hvid, hvnew⟩
    · exact hnew v hv (hvid.trans hid)
    · rcases h'.version v hv with ⟨w, hw, hwid, -⟩ | ⟨-, hl'⟩
      · exact hvnew w hw hwid
      · rw [hvid.trans hid] at hl'
        have := (hA _ _ _ hl hl').1
        cases this

theorem Admissible.currency_overlay (h : Admissible H L δ) (h' : Admissible H' L δ')
    (hA : Apart H H') :
    ∀ a ∈ δ.accounts, ∀ b ∈ (L.overlay δ').accounts, b.id = a.id → b.currency = a.currency := by
  intro a ha b hb hid
  rcases mem_overlay.1 hb with ⟨hb, -⟩ | hb
  · exact h.currency a ha b hb hid
  · rcases h.newAccount a ha with ⟨c, hc, hcid⟩ | hl
    · exact (h'.currency b hb c hc (hcid.trans hid.symm)).symm.trans (h.currency a ha c hc hcid)
    · rcases h'.newAccount b hb with ⟨c, hc, hcid⟩ | hl'
      · exact (h'.currency b hb c hc hcid).symm.trans (h.currency a ha c hc (hcid.trans hid))
      · rw [hid] at hl'
        have := (hA _ _ _ hl hl').1
        cases this

/-- **Interference.**  What is admissible stays so when the others commit. -/
theorem Admissible.overlay (h : Admissible H L δ) (h' : Admissible H' L δ') (hA : Apart H H') :
    Admissible H (L.overlay δ') δ where
  accounts := h.accounts
  transactions := h.transactions
  currency := h.currency_overlay h' hA
  newAccount a ha := by
    refine (h.newAccount a ha).imp_left fun ⟨b, hb, hid⟩ => ?_
    obtain ⟨c, hc, hcid, -⟩ := h'.account hb
    exact ⟨c, hc, hcid.trans hid⟩
  version t ht := by
    rcases h.version t ht with ⟨u, hu, hid, hus, hts, hl⟩ | ⟨hnew, hl⟩
    · exact Or.inl ⟨u, mem_overlay_left (h'.keeps hA hu (hid ▸ hl)) hu, hid, hus, hts, hl⟩
    · refine Or.inr ⟨fun u hu hid => ?_, hl⟩
      rcases mem_overlay.1 hu with ⟨hu, -⟩ | hu
      · exact hnew u hu hid
      · rcases h'.version u hu with ⟨v, hv, hvid, -⟩ | ⟨-, hl'⟩
        · exact hnew v hv (hvid.trans hid)
        · rw [hid] at hl'
          have := (hA _ _ _ hl hl').1
          cases this
  balanced t ht hs := by
    have hent : ((L.overlay δ').overlay δ).entriesOf t.id = (L.overlay δ).entriesOf t.id := by
      show List.filter _ ((L.entries ++ δ'.entries) ++ δ.entries) =
        List.filter _ (L.entries ++ δ.entries)
      have := h.entriesOf_own h' hA ht
      unfold entriesOf at this
      simp [this]
    obtain ⟨h₁, h₂, h₃, h₄⟩ := h.balanced t ht hs
    refine ⟨hent ▸ h₁, hent ▸ h₂, hent ▸ h₃, fun e he => ?_⟩
    obtain ⟨a, ha, hid, hc⟩ := h₄ e (hent ▸ he)
    rcases mem_overlay.1 ha with ⟨ha, -⟩ | ha
    · obtain ⟨b, hb, hbid, hbc⟩ := h'.account ha
      obtain ⟨c, hc', hcid, hcc⟩ := account_overlay (h.currency_overlay h' hA) hb
      exact ⟨c, hc', hcid.trans (hbid.trans hid), hcc.trans (hbc.trans hc)⟩
    · exact ⟨a, mem_overlay_right ha, hid, hc⟩
  entries e he := by
    rcases h.entries e he with ⟨u, hu, hid, hs, m, hm⟩ | ⟨t, ht, hid, hnew⟩
    · exact Or.inl ⟨u, mem_overlay_left (h'.keeps hA hu (hid ▸ hm)) hu, hid, hs, m, hm⟩
    · refine Or.inr ⟨t, ht, hid, fun u hu huid => ?_⟩
      rcases mem_overlay.1 hu with ⟨hu, -⟩ | hu
      · exact hnew u hu huid
      · rcases h.version t ht with ⟨v, hv, hvid, -⟩ | ⟨-, hl⟩
        · exact hnew v hv hvid
        · rcases h'.version u hu with ⟨v, hv, hvid, -⟩ | ⟨-, hl'⟩
          · exact hnew v hv (hvid.trans huid)
          · rw [huid] at hl'
            have := (hA _ _ _ hl hl').1
            cases this
  owners e he := by
    obtain ⟨a, ha, hid⟩ := h.owners e he
    rcases mem_overlay.1 ha with ⟨ha, -⟩ | ha
    · obtain ⟨b, hb, hbid, -⟩ := h'.account ha
      obtain ⟨c, hc, hcid, -⟩ := account_overlay (h.currency_overlay h' hA) hb
      exact ⟨c, hc, hcid.trans (hbid.trans hid)⟩
    · exact ⟨a, mem_overlay_right ha, hid⟩

/-! ## The statements of a transaction -/

theorem transaction_overlay {u : LedgerTransaction} (hu : u ∈ L.transactions) :
    ∃ v ∈ (L.overlay δ).transactions, v.id = u.id := by
  by_cases hv : ∃ v ∈ δ.transactions, v.id = u.id
  · obtain ⟨v, hv, hid⟩ := hv; exact ⟨v, mem_overlay_right hv, hid⟩
  · exact ⟨u, mem_overlay_left (fun v hv' hid => hv ⟨v, hv', hid⟩) hu, rfl⟩

/-- Writing an account: it is new, or keeps the currency that the transaction sees. -/
theorem Admissible.writeAccount (h : Admissible H L δ) {a : LedgerAccount}
    (hview : ∀ b ∈ (L.overlay δ).accounts, b.id = a.id → b.currency = a.currency)
    (hnew : (∃ b ∈ L.accounts, b.id = a.id) ∨ H (.accountId a.id) .exclusive) :
    Admissible H L (δ.overlay ⟨[a], [], []⟩) := by
  have hacc : ∀ b ∈ (L.overlay δ).accounts,
      ∃ c ∈ (L.overlay (δ.overlay ⟨[a], [], []⟩)).accounts, c.id = b.id ∧ c.currency = b.currency :=
    fun b hb => by
      rw [← overlay_assoc]
      exact account_overlay (fun x hx c hc hid => by cases List.mem_singleton.1 hx; exact hview c hc hid) hb
  have htx : (δ.overlay ⟨[a], [], []⟩).transactions = δ.transactions := by simp [Ledger.overlay]
  have hent : (δ.overlay ⟨[a], [], []⟩).entries = δ.entries := by simp [Ledger.overlay]
  constructor
  case accounts => exact h.accounts.put fun _ _ e => e
  case transactions => rw [htx]; exact h.transactions
  case currency =>
    intro x hx b hb hid
    rcases mem_put.1 hx with ⟨hx, -⟩ | rfl
    · exact h.currency x hx b hb hid
    · obtain ⟨c, hc, hcid, hcc⟩ := h.account hb
      exact hcc.symm.trans (hview c hc (hcid.trans hid))
  case newAccount =>
    intro x hx
    rcases mem_put.1 hx with ⟨hx, -⟩ | rfl
    · exact h.newAccount x hx
    · exact hnew
  case version => rw [htx]; exact h.version
  case balanced =>
    rw [htx]
    intro t ht hs
    obtain ⟨h₁, h₂, h₃, h₄⟩ := h.balanced t ht hs
    have he : (L.overlay (δ.overlay ⟨[a], [], []⟩)).entriesOf t.id = (L.overlay δ).entriesOf t.id := by
      simp [entriesOf, Ledger.overlay]
    refine ⟨he ▸ h₁, he ▸ h₂, he ▸ h₃, fun e hm => ?_⟩
    obtain ⟨b, hb, hid, hc⟩ := h₄ e (he ▸ hm)
    obtain ⟨c, hc', hcid, hcc⟩ := hacc b hb
    exact ⟨c, hc', hcid.trans hid, hcc.trans hc⟩
  case entries => rw [htx, hent]; exact h.entries
  case owners =>
    rw [hent]
    intro e he
    obtain ⟨b, hb, hid⟩ := h.owners e he
    obtain ⟨c, hc, hcid, -⟩ := hacc b hb
    exact ⟨c, hc, hcid.trans hid⟩

/-- Writing a transaction: a new one, or a locked draft that is posted balanced. -/
theorem Admissible.writeTransaction (h : Admissible H L δ) {t : LedgerTransaction}
    (hver : (∃ u ∈ L.transactions, u.id = t.id ∧ u.status = .draft ∧ t.status = .posted ∧
        H (.transaction t.id) .exclusive) ∨
      (∀ u ∈ L.transactions, u.id ≠ t.id) ∧ H (.transactionId t.id) .exclusive)
    (hbal : t.status = .posted → t.Balanced (L.overlay δ)) :
    Admissible H L (δ.overlay ⟨[], [t], []⟩) := by
  have hacc : (L.overlay (δ.overlay ⟨[], [t], []⟩)).accounts = (L.overlay δ).accounts := by
    simp [Ledger.overlay]
  have hent : (δ.overlay ⟨[], [t], []⟩).entries = δ.entries := by simp [Ledger.overlay]
  have hof : ∀ id, (L.overlay (δ.overlay ⟨[], [t], []⟩)).entriesOf id = (L.overlay δ).entriesOf id :=
    fun id => by simp [entriesOf, Ledger.overlay]
  constructor
  case accounts => simpa [Ledger.overlay] using h.accounts
  case transactions => exact h.transactions.put fun _ _ e => e
  case currency => simpa [Ledger.overlay] using h.currency
  case newAccount => simpa [Ledger.overlay] using h.newAccount
  case version =>
    intro x hx
    rcases mem_put.1 hx with ⟨hx, -⟩ | rfl
    · exact h.version x hx
    · exact hver
  case balanced =>
    intro x hx hs
    have hb : x.Balanced (L.overlay δ) := by
      rcases mem_put.1 hx with ⟨hx, -⟩ | rfl
      · exact h.balanced x hx hs
      · exact hbal hs
    obtain ⟨h₁, h₂, h₃, h₄⟩ := hb
    exact ⟨hof x.id ▸ h₁, hof x.id ▸ h₂, hof x.id ▸ h₃, fun e he => hacc ▸ h₄ e (hof x.id ▸ he)⟩
  case entries =>
    rw [hent]
    intro e he
    refine (h.entries e he).imp_right ?_
    rintro ⟨x, hx, hid, hnew⟩
    by_cases hxt : x.id = t.id
    · exact ⟨t, mem_put.2 (Or.inr rfl), hxt.symm.trans hid, fun u hu e => hnew u hu (e.trans hxt.symm)⟩
    · exact ⟨x, mem_put.2 (Or.inl ⟨hx, hxt⟩), hid, hnew⟩
  case owners => rw [hent, hacc]; exact h.owners

/-- Adding an entry: to a draft that is locked or the transaction's own. -/
theorem Admissible.addEntry (h : Admissible H L δ) {e : LedgerEntry}
    (hdraft : (∃ u ∈ L.transactions, u.id = e.transactionId ∧ u.status = .draft ∧
        ∃ m, H (.transaction e.transactionId) m) ∨
      ∃ t ∈ δ.transactions, t.id = e.transactionId ∧ ∀ u ∈ L.transactions, u.id ≠ t.id)
    (hown : ∀ t ∈ δ.transactions, t.status = .posted → t.id ≠ e.transactionId)
    (howner : ∃ a ∈ (L.overlay δ).accounts, a.id = e.ledgerAccountId) :
    Admissible H L (δ.overlay ⟨[], [], [e]⟩) := by
  have hacc : (L.overlay (δ.overlay ⟨[], [], [e]⟩)).accounts = (L.overlay δ).accounts := by
    simp [Ledger.overlay]
  have htx : (δ.overlay ⟨[], [], [e]⟩).transactions = δ.transactions := by simp [Ledger.overlay]
  constructor
  case accounts => simpa [Ledger.overlay] using h.accounts
  case transactions => rw [htx]; exact h.transactions
  case currency => simpa [Ledger.overlay] using h.currency
  case newAccount => simpa [Ledger.overlay] using h.newAccount
  case version => rw [htx]; exact h.version
  case balanced =>
    rw [htx]
    intro t ht hs
    have hof : (L.overlay (δ.overlay ⟨[], [], [e]⟩)).entriesOf t.id = (L.overlay δ).entriesOf t.id := by
      have hne : e.transactionId ≠ t.id := (hown t ht hs).symm
      simp [entriesOf, Ledger.overlay, hne]
    obtain ⟨h₁, h₂, h₃, h₄⟩ := h.balanced t ht hs
    exact ⟨hof ▸ h₁, hof ▸ h₂, hof ▸ h₃, fun f hf => hacc ▸ h₄ f (hof ▸ hf)⟩
  case entries =>
    rw [htx]
    intro f hf
    rcases List.mem_append.1 hf with hf | hf
    · exact h.entries f hf
    · cases List.mem_singleton.1 hf; exact hdraft
  case owners =>
    rw [hacc]
    intro f hf
    rcases List.mem_append.1 hf with hf | hf
    · exact h.owners f hf
    · cases List.mem_singleton.1 hf; exact howner

end Ledger

end Sakura
