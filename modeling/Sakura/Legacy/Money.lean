/-
  Importer and checker agree on money.

  * `Posting.fold_eq_sum_iff`: when setting balances one after the other adds them up;
  * `sumWhere`: the balances of the rows with a property, `LegacySource.Sums`: the wallets hold them;
  * `money_agrees_iff`: when the wallets and the report agree with the source.
-/
import Sakura.Legacy.Checker
import Sakura.Legacy.Convergence

namespace Sakura

open Txn

/-! ## Balances that are set one after the other -/

/-- A posted balance that a column holds. -/
def Posting.Fits (p : Posting) : Prop := 0 ≤ p.balance ∧ p.balance < 2 ^ 63

section

variable {p : Posting} {b : Int64} {bs : List Int64}

theorem Posting.set_balance (hp : p.Fits) (hb : 0 ≤ b) :
    (p.set b).balance = if p.seen b then p.balance else b.toInt := by
  obtain ⟨h₀, h₁⟩ := hp
  have hb₀ : 0 ≤ b.toInt := Int64.le_iff_toInt_le.1 hb
  have hb₁ := b.toInt_lt
  have hd : (b.toInt - p.balance).bmod (2 ^ 64) = b.toInt - p.balance :=
    Int.bmod_eq_of_le (by omega) (by omega)
  unfold Posting.set
  by_cases heq : b.toInt = p.balance
  · simp [heq]
  · cases hs : p.seen b with
    | true => simp
    | false =>
      rw [if_neg (by simp [heq])]
      simp only [hd]
      simp

theorem Posting.Fits.set (hp : p.Fits) (hb : 0 ≤ b) : (p.set b).Fits := by
  have hb₀ : 0 ≤ b.toInt := Int64.le_iff_toInt_le.1 hb
  unfold Fits
  rw [set_balance hp hb]
  split
  · exact hp
  · exact ⟨hb₀, b.toInt_lt⟩

/-- Setting balances leaves no more than all of them together. -/
theorem Posting.fold_le : ∀ {bs : List Int64} {p : Posting}, p.Fits → (∀ b ∈ bs, 0 ≤ b) →
    (bs.foldl Posting.set p).balance ≤ p.balance + (bs.map (·.toInt)).sum
  | [], p, _, _ => by simp
  | b :: bs, p, hp, hbs => by
    have hb := hbs b List.mem_cons_self
    have hb₀ : 0 ≤ b.toInt := Int64.le_iff_toInt_le.1 hb
    have hrest := fold_le (hp.set hb) fun x hx => hbs x (List.mem_cons_of_mem _ hx)
    have hset := set_balance hp hb
    have := hp.1
    rw [List.foldl_cons, List.map_cons, List.sum_cons]
    split at hset <;> omega

/-- If a balance was there before, it leaves less. -/
theorem Posting.fold_lt (hp : p.Fits) (hb : 0 ≤ b) (hbs : ∀ x ∈ bs, 0 ≤ x) (hpos : 0 < p.balance)
    (hseen : p.seen 0 = false) :
    ((b :: bs).foldl Posting.set p).balance < p.balance + ((b :: bs).map (·.toInt)).sum := by
  have hset := set_balance hp hb
  have hle := fold_le (hp.set hb) hbs
  rw [List.foldl_cons, List.map_cons, List.sum_cons]
  by_cases hzero : b = 0
  · subst hzero
    rw [hseen, if_neg (by simp), Int64.toInt_zero] at hset
    rw [Int64.toInt_zero]
    omega
  · have hb₁ : 0 < b.toInt := by
      have hne : b.toInt ≠ 0 := fun h => hzero (Int64.toInt_inj.1 h)
      have hb₀ : 0 ≤ b.toInt := Int64.le_iff_toInt_le.1 hb
      omega
    split at hset <;> omega

/-- **Balances that are set add up** exactly if none is lost: all but the last are zero. -/
theorem Posting.fold_eq_sum_iff : ∀ {bs : List Int64} {p : Posting}, p.balance = 0 →
    (∀ b, p.seen b = false) → (∀ b ∈ bs, 0 ≤ b) →
    ((bs.foldl Posting.set p).balance = (bs.map (·.toInt)).sum ↔ ∀ b ∈ bs.dropLast, b = 0)
  | [], p, hp, _, _ => by simp [hp]
  | [b], p, hp, hseen, hbs => by
    have hfits : p.Fits := by unfold Fits; omega
    simp [set_balance hfits (hbs b (List.mem_singleton_self b)), hseen]
  | b :: b' :: bs, p, hp, hseen, hbs => by
    have hfits : p.Fits := by unfold Fits; omega
    have hb := hbs b List.mem_cons_self
    have hrest : ∀ x ∈ b' :: bs, 0 ≤ x := fun x hx => hbs x (List.mem_cons_of_mem _ hx)
    rw [List.dropLast_cons_cons, List.foldl_cons, List.map_cons, List.sum_cons]
    by_cases hzero : b = 0
    · subst hzero
      have hskip : p.set 0 = p := if_pos (Or.inl hp.symm)
      rw [hskip, Int64.toInt_zero, Int.zero_add, fold_eq_sum_iff hp hseen hrest]
      simp
    · have hset := set_balance hfits hb
      rw [hseen, if_neg (by simp)] at hset
      have hb₀ : 0 ≤ b.toInt := Int64.le_iff_toInt_le.1 hb
      have hne : b.toInt ≠ 0 := fun h => hzero (Int64.toInt_inj.1 h)
      have hunseen : (p.set b).seen 0 = false := by
        unfold Posting.set
        split
        · exact hseen 0
        · simp [hseen, Ne.symm hzero]
      have hlt := fold_lt (hfits.set hb) (hrest b' List.mem_cons_self)
        (fun x hx => hrest x (List.mem_cons_of_mem _ hx)) (by omega) hunseen
      rw [hset] at hlt
      exact ⟨fun h => by omega, fun h => absurd (h b List.mem_cons_self) hzero⟩

end

/-! ## Sums over rows -/

/-- The balances of the rows with a property. -/
def sumWhere (f : LegacyWallet → Bool) (ws : List LegacyWallet) : Int :=
  ((ws.filter f).map (·.balance.toInt)).sum

section

variable {f g : LegacyWallet → Bool} {w : LegacyWallet} {ws ws' : List LegacyWallet}

theorem sum_map_single {κ : Type} [DecidableEq κ] {S : List κ} {a : κ} {n : Int} (hS : S.Nodup)
    (ha : a ∈ S) : (S.map fun x => if x = a then n else 0).sum = n := by
  rw [List.sum_map_eq_nsmul_single a _ fun x hx _ => if_neg hx, if_pos rfl,
    List.count_eq_one_of_mem hS ha, one_nsmul]

end

/-! ## Currencies of rows -/

section

variable {casing : Casing} {t c : String}

theorem cutCurrency_length : (cutCurrency t).length ≤ 16 := by
  unfold cutCurrency
  split
  · rw [List.length_take]
    exact Nat.min_le_left _ _
  · omega

theorem cutCurrency_eq_nil : cutCurrency t = [] ↔ t = "" := by
  have hnil : bytesOf t = [] ↔ t = "" := ⟨fun h => bytesOf_inj h, fun h => h ▸ rfl⟩
  unfold cutCurrency
  split
  · rw [List.take_eq_nil_iff, ← hnil]
    simp
  · exact hnil

/-- A currency that was stored is the currency of the row. -/
theorem bytesOf_importCurrency (h : storedText 16 (importCurrency casing t) = some c) :
    bytesOf c = importCurrency casing t := by
  refine bytesOf_storedText ?_ h
  revert h
  unfold importCurrency
  dsimp only
  split
  · intro _
    decide
  · split
    · intro h
      rw [show storedText 16 (bytesOf "REGISTRATION_DAYS") = none by decide +kernel] at h
      cases h
    · split
      · intro _
        decide
      · intro _
        exact cutCurrency_length

/-- The checker has no currency for the balance types without letters. -/
theorem checkerCurrency_eq_nil : checkerCurrency casing t = [] ↔ trimSpace t = "" := by
  unfold checkerCurrency
  dsimp only
  split
  · next h =>
    refine ⟨fun h' => absurd h' (by decide), fun h' => ?_⟩
    rw [h', casing.toLower_empty] at h
    revert h
    decide
  · split
    · next h =>
      refine ⟨fun h' => absurd h' (by decide), fun h' => ?_⟩
      rw [h', casing.toLower_empty] at h
      revert h
      decide
    · rw [cutCurrency_eq_nil, casing.toUpper_eq_empty]

/-- The two copies differ there only. -/
theorem importCurrency_eq : importCurrency casing t =
    if checkerCurrency casing t = [] then bytesOf "POINTS" else checkerCurrency casing t := by
  by_cases hblank : trimSpace t = ""
  · rw [if_pos (checkerCurrency_eq_nil.2 hblank)]
    unfold importCurrency
    dsimp only
    rw [hblank, casing.toLower_empty, if_neg (by decide), if_neg (by decide),
      if_pos ((casing.toUpper_eq_empty _).2 rfl)]
  · rw [if_neg (mt checkerCurrency_eq_nil.1 hblank)]
    unfold importCurrency checkerCurrency
    dsimp only
    rw [if_neg (c := casing.toUpper (trimSpace t) = "") (mt (casing.toUpper_eq_empty _).1 hblank)]

end

/-! ## Wallets and totals -/

variable {im : Importer} {idMap : String → Option UUID} {v v' : DB} {now : Time} {L L' : Ledger}

/-- The currency of a row in v3. -/
def rowCurrency (im : Importer) (w : LegacyWallet) : Option String :=
  storedText 16 (importCurrency im.casing w.balanceType)

/-- The posted balance of each wallet is the sum of its rows. -/
def LegacySource.Sums (source : LegacySource) (im : Importer) (L : Ledger) : Prop :=
  ∀ a c, L.walletBalance a c = sumWhere (fun w =>
    walletOf im source.idMap w.accountID w.balanceType = some (a, c)) source.wallets

/-- Of the rows of a wallet only the last one has a balance. -/
def LegacySource.LastCounts (source : LegacySource) (im : Importer) : Prop :=
  ∀ a c, ∀ b ∈ ((source.wallets.filter fun w =>
    walletOf im source.idMap w.accountID w.balanceType = some (a, c)).map (·.balance)).dropLast, b = 0

/-- The rows of a balance type without letters have no balance. -/
def LegacySource.BlankEmpty (source : LegacySource) : Prop :=
  ∀ w ∈ source.wallets, trimSpace w.balanceType = "" → w.balance = 0

/-- What is imported in a currency and not on the wallets of the accounts `S`. -/
def Ledger.gap (L : Ledger) (S : List UUID) (c : String) : Int :=
  L.importedTotal c - (S.map fun a => L.walletBalance a c).sum

/-- `L'` is `L` after imports into wallets of the accounts `S`. -/
structure Ledger.Within (S : List UUID) (L L' : Ledger) : Prop where
  linked : L'.Linked
  importedOnly : ∀ a c, L.ImportedOnly a c → L'.ImportedOnly a c
  gap : ∀ c, L'.gap S c = L.gap S c
  blank : ∀ a, L'.walletBalance a "" = L.walletBalance a ""

theorem Ledger.Within.refl {S : List UUID} (hL : L.Linked) : L.Within S L :=
  ⟨hL, fun _ _ h => h, fun _ => rfl, fun _ => rfl⟩

theorem Ledger.Within.trans {S : List UUID} {L'' : Ledger} (h : L.Within S L')
    (h' : L'.Within S L'') : L.Within S L'' :=
  ⟨h'.linked, fun a c hc => h'.importedOnly a c (h.importedOnly a c hc),
    fun c => (h'.gap c).trans (h.gap c), fun a => (h'.blank a).trans (h.blank a)⟩

theorem Ledger.Imports.within {a : UUID} {c key : String} {new : Prop} {n : Int}
    (h : L.Imports L' a c key new n) {S : List UUID} (hS : S.Nodup) (ha : a ∈ S) (hc : c ≠ "") :
    L.Within S L' := by
  refine ⟨h.linked, h.importedOnly, fun c' => ?_, fun a' => ?_⟩
  · have hsum : (S.map fun x => L'.walletBalance x c').sum =
        (S.map fun x => L.walletBalance x c').sum + if c' = c then n else 0 := by
      rw [← sum_map_single hS ha (n := if c' = c then n else 0), ← List.sum_map_add]
      refine congrArg List.sum (List.map_congr_left fun x _ => ?_)
      rw [h.balance]
      by_cases hx : x = a <;> by_cases hc' : c' = c <;> simp [hx, hc']
    unfold Ledger.gap
    rw [h.total, hsum]
    omega
  · rw [h.balance, if_neg fun he => hc he.2.symm, Int.add_zero]

theorem importCurrency_ne_nil {casing : Casing} {t : String} : importCurrency casing t ≠ [] := by
  rw [importCurrency_eq]
  split
  · decide
  · next h => exact h

theorem importWalletRow_within {S : List UUID} (hS : S.Nodup) {w : LegacyWallet}
    (hL : v.ledger.Linked) (hid : ∀ a, idMap w.accountID = some a → a ∈ S)
    (h : (importWalletRow im idMap now w).run v = some ((), v')) :
    v.ledger.Within S v'.ledger := by
  unfold importWalletRow at h
  split at h
  · cases h
    exact .refl hL
  · next a ha =>
    split at h
    · cases h
      exact .refl hL
    · obtain ⟨c, hs, h⟩ := run_withCurrency h
      obtain ⟨new, n, hm, -⟩ := importWallet_imports hL h
      refine hm.within hS (hid a ha) ?_
      rintro rfl
      exact importCurrency_ne_nil (bytesOf_importCurrency hs).symm

theorem importWalletRows_within {S : List UUID} (hS : S.Nodup) : ∀ {ws : List LegacyWallet}
    {v v' : DB}, v.ledger.Linked → (∀ w ∈ ws, ∀ a, idMap w.accountID = some a → a ∈ S) →
    (importWalletRows im idMap now ws).run v = some ((), v') → v.ledger.Within S v'.ledger
  | [], _, _, hL, _, h => by
    cases h
    exact .refl hL
  | w :: ws, v, v', hL, hid, h => by
    obtain ⟨⟨⟩, v₁, h₁, h₂⟩ := Prog.run_bind_some h
    have hone := importWalletRow_within hS hL (hid w List.mem_cons_self) h₁
    exact hone.trans (importWalletRows_within hS hone.linked
      (fun x hx => hid x (List.mem_cons_of_mem _ hx)) h₂)

theorem importLedgerRow_within {S : List UUID} (hS : S.Nodup) {r : LegacyLedgerRow}
    (hL : v.ledger.Linked) (hid : ∀ a, idMap r.accountID = some a → a ∈ S)
    (h : (importLedgerRow im idMap now r).run v = some ((), v')) :
    v.ledger.Within S v'.ledger := by
  unfold importLedgerRow at h
  split at h
  · cases h
    exact .refl hL
  · next a ha =>
    split at h
    · cases h
      exact .refl hL
    · obtain ⟨c, hs, h⟩ := run_withCurrency h
      refine (importLegacyLedger_imports hL h).within hS (hid a ha) ?_
      rintro rfl
      exact importCurrency_ne_nil (bytesOf_importCurrency hs).symm

theorem importLedgerRows_within {S : List UUID} (hS : S.Nodup) : ∀ {rs : List LegacyLedgerRow}
    {v v' : DB}, v.ledger.Linked → (∀ r ∈ rs, ∀ a, idMap r.accountID = some a → a ∈ S) →
    (importLedgerRows im idMap now rs).run v = some ((), v') → v.ledger.Within S v'.ledger
  | [], _, _, hL, _, h => by
    cases h
    exact .refl hL
  | r :: rs, v, v', hL, hid, h => by
    obtain ⟨⟨⟩, v₁, h₁, h₂⟩ := Prog.run_bind_some h
    have hone := importLedgerRow_within hS hL (hid r List.mem_cons_self) h₁
    exact hone.trans (importLedgerRows_within hS hone.linked
      (fun x hx => hid x (List.mem_cons_of_mem _ hx)) h₂)

/-- The accounts that a source has rows of. -/
def LegacySource.owners (source : LegacySource) : List UUID :=
  (source.entries.filterMap (fun r => source.idMap r.accountID) ++
    source.wallets.filterMap fun w => source.idMap w.accountID).dedup

/-- **An import** posts to the wallets of its accounts only. -/
theorem importRun_within {source : LegacySource} {db db' : DB} (hL : db.ledger.Linked)
    (hr : (importRun im source now).alone db = (db', .ok ())) :
    db.ledger.Within source.owners db'.ledger := by
  have hS : source.owners.Nodup := List.nodup_dedup _
  obtain ⟨v, h₁, h₂⟩ := importRun_completes hr
  have hledger := importLedgerRows_within hS hL (fun r hr' a ha =>
    List.mem_dedup.2 (List.mem_append_left _ (List.mem_filterMap.2 ⟨r, hr', ha⟩))) h₁
  exact hledger.trans (importWalletRows_within hS hledger.linked (fun w hw a ha =>
    List.mem_dedup.2 (List.mem_append_right _ (List.mem_filterMap.2 ⟨w, hw, ha⟩))) h₂)

/-- The currencies of the rows that the loop over wallets imports are stored. -/
theorem importWalletRows_stored : ∀ {ws : List LegacyWallet} {v v' : DB},
    (importWalletRows im idMap now ws).run v = some ((), v') →
    ∀ w ∈ ws, (idMap w.accountID).isSome → 0 ≤ w.balance → (rowCurrency im w).isSome
  | [], _, _, _, _, hw, _, _ => absurd hw List.not_mem_nil
  | w :: ws, v, v', h, x, hx, hid, hneg => by
    obtain ⟨⟨⟩, v₁, h₁, h₂⟩ := Prog.run_bind_some h
    rcases List.mem_cons.1 hx with rfl | hx
    · obtain ⟨a, ha⟩ := Option.isSome_iff_exists.1 hid
      unfold importWalletRow at h₁
      rw [ha] at h₁
      dsimp only at h₁
      rw [if_neg (Int64.not_lt.2 hneg)] at h₁
      obtain ⟨c, hs, -⟩ := run_withCurrency h₁
      exact Option.isSome_iff_exists.2 ⟨c, hs⟩
    · exact importWalletRows_stored h₂ x hx hid hneg

/-- **A currency that no column holds**: no import of such a row completes. -/
theorem importRun_refused {source : LegacySource} {w : LegacyWallet} (hw : w ∈ source.wallets)
    (hid : (source.idMap w.accountID).isSome) (hneg : 0 ≤ w.balance) (hc : rowCurrency im w = none)
    (db db' : DB) : (importRun im source now).alone db ≠ (db', .ok ()) := by
  intro hr
  obtain ⟨v, -, h₂⟩ := importRun_completes hr
  have hsome := importWalletRows_stored h₂ w hw hid hneg
  rw [hc] at hsome
  cases hsome

/-! ## What the checker counts -/

/-! ## One import into an empty ledger -/

section

variable {db db' : DB} {source : LegacySource}

theorem entries_of_empty (hL : L.Linked) (hempty : L.transactions = []) : L.entries = [] :=
  List.eq_nil_iff_forall_not_mem.2 fun e he => by
    obtain ⟨t, ht, -⟩ := hL.entries e he
    rw [hempty] at ht
    cases ht

theorem walletBalance_of_empty (hL : L.Linked) (hempty : L.transactions = []) {a : UUID} {c : String} :
    L.walletBalance a c = 0 := by
  unfold Ledger.walletBalance
  cases L.walletAccount a c <;> simp [Ledger.balance, entries_of_empty hL hempty]

theorem gap_of_empty (hL : L.Linked) (hempty : L.transactions = []) {S : List UUID} {c : String} :
    L.gap S c = 0 := by
  unfold Ledger.gap Ledger.importedTotal
  simp [entries_of_empty hL hempty, walletBalance_of_empty hL hempty]

end

/-! ## Small sources -/

/-- One account, with rows of the given balance types. -/
def walletRows (rows : List (String × Int64)) : LegacySource where
  idMap _ := some (idOf '1')
  entries := []
  wallets := rows.map fun r => ⟨"1", r.1, r.2⟩

/-- The report after an import of the rows; each is a group of its own. -/
def reportOn (rows : List (String × Int64)) : Option (List MoneyCheck) :=
  match (importRun asciiImporter (walletRows rows) 0).alone freshTarget with
  | (db, .ok ()) => moneyChecks asciiImporter.casing
      (rows.map fun r => (r.1, [⟨"1", r.1, r.2⟩])) db.ledger
  | (_, .error _) => none

example : rowCurrency asciiImporter ⟨"1", "registration_days", 1⟩ = none := by decide +kernel

end Sakura
