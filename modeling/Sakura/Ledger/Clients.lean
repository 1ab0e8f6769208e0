/-
  Clients of the ledger tables.

  A client is any program whose statements on the ledger are INSERTs, UPDATEs and DELETEs that run
  the triggers; the code's own programs are clients.

  * `Ledger.Keeps`, `Ledger.run_keeps`: each such statement keeps its transaction's versions admissible;
  * `LedgerStore`, `Client`: programs over a store that has the ledger tables in it;
  * `ledgerDiscipline`, `Client.wp`: clients keep to the discipline of the ledger.
-/
import Sakura.Ledger.Balance
import Sakura.Txn.Rely

namespace Sakura

open Txn

namespace Ledger

variable {H : LedgerLock → Mode → Prop} {L δ : Ledger}

/-! ## Statements -/

/-- After the statement the transaction's own versions `δ` have become admissible versions. -/
def Keeps (H : LedgerLock → Mode → Prop) (L δ : Ledger) (o : LedgerOutcome) : Prop :=
  ∃ δ', (∀ K : Ledger, o.write (K.overlay δ) = K.overlay δ') ∧
    Admissible (fun l m => H l m ∨ (l, m) ∈ o.locks) L δ'

theorem Keeps.refuse (h : Admissible H L δ) (x : LedgerErr) : Keeps H L δ (Prog.refuse x) :=
  ⟨δ, fun _ => rfl, h.mono fun _ _ => Or.inl⟩

theorem Keeps.nothing (h : Admissible H L δ) : Keeps H L δ { result := .ok () } :=
  ⟨δ, fun _ => rfl, h.mono fun _ _ => Or.inl⟩

/-- The accounts and transactions that the transaction sees have unique ids. -/
theorem Admissible.view_accounts (hL : L.Inv) (h : Admissible H L δ) :
    UniqueBy LedgerAccount.id (L.overlay δ).accounts :=
  hL.accounts.overlay h.accounts fun _ _ _ _ e => e

theorem Admissible.view_transactions (hL : L.Inv) (h : Admissible H L δ) :
    UniqueBy LedgerTransaction.id (L.overlay δ).transactions :=
  hL.transactions.overlay h.transactions fun _ _ _ _ e => e

theorem Admissible.view_owners (hL : L.Inv) (h : Admissible H L δ) {e : LedgerEntry}
    (he : e ∈ (L.overlay δ).entries) : ∃ a ∈ (L.overlay δ).accounts, a.id = e.ledgerAccountId := by
  rcases List.mem_append.1 he with he | he
  · obtain ⟨a, ha, hid⟩ := hL.owners e he
    obtain ⟨b, hb, hb', -⟩ := h.account ha
    exact ⟨b, hb, hb'.trans hid⟩
  · exact h.owners e he

/-- A draft that the transaction sees is committed, or its own new row. -/
theorem Admissible.draft (h : Admissible H L δ) {t : LedgerTransaction}
    (ht : t ∈ (L.overlay δ).transactions) (hs : t.status = .draft) :
    t ∈ L.transactions ∨
      t ∈ δ.transactions ∧ (∀ u ∈ L.transactions, u.id ≠ t.id) ∧ H (.transactionId t.id) .exclusive := by
  rcases mem_overlay.1 ht with ⟨ht, -⟩ | ht
  · exact Or.inl ht
  · rcases h.version t ht with ⟨-, -, -, -, hp, -⟩ | hnew
    · rw [hs] at hp; cases hp
    · exact Or.inr ⟨ht, hnew⟩

theorem insertAccount_keeps (h : Admissible H L δ) (a : LedgerAccount) :
    Keeps H L δ ((L.overlay δ).insertAccount a) := by
  unfold insertAccount
  split
  · exact .refuse h _
  · next hno =>
    simp only [Bool.not_eq_true, List.any_eq_false, Bool.or_eq_true, decide_eq_true_eq,
      not_or] at hno
    refine ⟨_, fun K => overlay_assoc K δ _, (h.mono fun _ _ => Or.inl).writeAccount ?_ ?_⟩
    · exact fun b hb hid => absurd hid (hno b hb).1
    · exact Or.inr (Or.inr (by simp))

theorem updateAccount_keeps (hL : L.Inv) (h : Admissible H L δ) (id : UUID)
    (set : LedgerAccount → LedgerAccount) : Keeps H L δ ((L.overlay δ).updateAccount id set) := by
  unfold updateAccount
  split
  · exact .nothing h
  · next old hf =>
    have hold := List.mem_of_find?_eq_some hf
    have hid : old.id = id := by simpa using List.find?_some hf
    dsimp only
    split
    · exact .refuse h _
    · refine ⟨_, fun K => overlay_assoc K δ _, (h.mono fun _ _ => Or.inl).writeAccount ?_ ?_⟩
      · intro b hb hbid
        rw [(h.view_accounts hL).eq hb hold hbid]
      · rcases mem_overlay.1 hold with ⟨ho, -⟩ | ho
        · exact Or.inl ⟨old, ho, rfl⟩
        · exact (h.newAccount old ho).imp_right Or.inl

theorem insertTransaction_keeps (h : Admissible H L δ) (t : LedgerTransaction) (now : Time) :
    Keeps H L δ ((L.overlay δ).insertTransaction t now) := by
  unfold insertTransaction
  split
  · exact .refuse h _
  · next t' hg =>
    have hdraft : t'.status = .draft := by
      simp only [sakuraLedgerTransactionGuard] at hg
      split at hg
      · cases hg
      · next hn => cases hg; simpa using fun e => hn (Or.inl e)
    split
    · exact .refuse h _
    · next hno =>
      simp only [Bool.not_eq_true, List.any_eq_false, Bool.or_eq_true, decide_eq_true_eq,
        not_or] at hno
      refine ⟨_, fun K => overlay_assoc K δ _, (h.mono fun _ _ => Or.inl).writeTransaction ?_ ?_⟩
      · refine Or.inr ⟨fun u hu hid => ?_, Or.inr (by simp)⟩
        obtain ⟨v, hv, hvid⟩ := transaction_overlay (δ := δ) hu
        exact (hno v hv).1.1 (hvid.trans hid)
      · intro hs; rw [hdraft] at hs; cases hs

/-- What the guard lets an update do to a transaction: post a draft that balances. -/
theorem guard_update {now : Time} {old new t : LedgerTransaction} {K : Ledger}
    (h : sakuraLedgerTransactionGuard K now (.update old new) = .ok t) :
    old.status = .draft ∧ t.status = .posted ∧ old.sameColumns t ∧
      balancedRows t.currency (K.joined t.id) := by
  simp only [sakuraLedgerTransactionGuard] at h
  split at h
  · next hc =>
    split at h
    · cases h
    · split at h
      · cases h
      · split at h
        · cases h
        · next hb => cases h; exact ⟨hc.1, hc.2.1, hc.2.2, not_not.1 hb⟩
  · cases h

theorem updateTransaction_keeps (hL : L.Inv) (h : Admissible H L δ) (id : UUID)
    (which : LedgerTransaction → Bool) (set : LedgerTransaction → LedgerTransaction) (now : Time) :
    Keeps H L δ ((L.overlay δ).updateTransaction id which set now) := by
  unfold updateTransaction
  split
  · exact .nothing h
  · next old hf =>
    have hold := List.mem_of_find?_eq_some hf
    have hid : old.id = id := by have := List.find?_some hf; simp at this; exact this.1
    split
    · exact .refuse h _
    · next new hg =>
      obtain ⟨hdraft, hposted, hcols, hrows⟩ := guard_update hg
      have hnid : old.id = new.id := hcols.1
      refine ⟨_, fun K => overlay_assoc K δ _, (h.mono fun _ _ => Or.inl).writeTransaction ?_ ?_⟩
      · rcases h.draft hold hdraft with ho | ⟨-, hnew, hl⟩
        · exact Or.inl ⟨old, ho, hnid, hdraft, hposted, Or.inr (by simp [← hnid, hid])⟩
        · exact Or.inr ⟨fun u hu e => hnew u hu (e.trans hnid.symm), Or.inl (hnid ▸ hl)⟩
      · intro _
        refine balanced_of_rows (h.view_accounts hL) (fun e he => ?_) hrows
        exact h.view_owners hL (mem_entriesOf.1 he).1

theorem insertEntry_keeps (hL : L.Inv) (h : Admissible H L δ) (e : LedgerEntry) :
    Keeps H L δ ((L.overlay δ).insertEntry e) := by
  unfold insertEntry
  split
  · exact .refuse h _
  · next e' hg =>
    obtain ⟨rfl, hst⟩ : e = e' ∧ (L.overlay δ).statusOf e.transactionId = some .draft := by
      simp only [sakuraLedgerEntryGuard] at hg
      split at hg
      · next hs => cases hg; exact ⟨rfl, hs⟩
      · cases hg
    obtain ⟨t, hf, hdraft⟩ := Option.map_eq_some_iff.1 hst
    have ht := List.mem_of_find?_eq_some hf
    have hid : t.id = e.transactionId := by simpa using List.find?_some hf
    split
    · exact .refuse h _
    · next hown =>
      split
      · exact .refuse h _
      · refine ⟨_, fun K => overlay_assoc K δ _, (h.mono fun _ _ => Or.inl).addEntry ?_ ?_ ?_⟩
        · rcases h.draft ht hdraft with ht' | ⟨ht', hnew, -⟩
          · exact Or.inl ⟨t, ht', hid, hdraft, .share, Or.inr (by simp)⟩
          · exact Or.inr ⟨t, ht', hid, hnew⟩
        · intro u hu hs huid
          have := (h.view_transactions hL).eq (mem_overlay_right hu) ht (huid.trans hid.symm)
          rw [this, hdraft] at hs; cases hs
        · simpa using hown

/-- **Every statement keeps the versions of its transaction admissible.** -/
theorem run_keeps (hL : L.Inv) (h : Admissible H L δ) (d : Dml) :
    Keeps H L δ (d.run (L.overlay δ)) := by
  cases d with
  | insertAccount a => exact insertAccount_keeps h a
  | insertAccountOrIgnore a =>
    simp only [Dml.run, insertAccountOrIgnore]
    split
    · exact .nothing h
    · exact insertAccount_keeps h a
  | updateAccount id set => exact updateAccount_keeps hL h id set
  | insertTransaction t now => exact insertTransaction_keeps h t now
  | updateTransaction id which set now => exact updateTransaction_keeps hL h id which set now
  | deleteTransaction id which =>
    simp only [Dml.run, deleteTransaction]
    split
    · exact .nothing h
    · exact .refuse h _
  | insertEntry e => exact insertEntry_keeps hL h e
  | updateEntry which set =>
    simp only [Dml.run, changeEntries]
    split
    · exact .nothing h
    · exact .refuse h _
  | deleteEntry which =>
    simp only [Dml.run, changeEntries]
    split
    · exact .nothing h
    · exact .refuse h _

end Ledger

/-! ## Clients -/

variable {ι ν σ ℓ ε χ α β : Type}

/-- Where a store keeps the ledger tables, and their locks. -/
structure LedgerStore (σ ℓ : Type) where
  ledger : σ → Ledger
  lock : LedgerLock → ℓ

namespace LedgerStore

variable (S : LedgerStore σ ℓ)

def holds (L : Held ℓ) (l : LedgerLock) (m : Mode) : Prop := (S.lock l, m) ∈ L

/-- A statement of a client that sees `v`: it leaves the ledger alone or runs one `Dml` on it. -/
def Statement (v : σ) (f : Effect σ ℓ) : Prop :=
  (∀ db, S.ledger (f.write db) = S.ledger db) ∨
    ∃ d : Dml, (∀ x ∈ (d.run (S.ledger v)).locks, (S.lock x.1, x.2) ∈ f.locks) ∧
      ∀ db, S.ledger (f.write db) = (d.run (S.ledger v)).write (S.ledger db)

/-- A program that touches the ledger tables only by statements that run their triggers. -/
def Client : Prog ν σ ℓ ε χ α → Prop
  | .ret _ => True
  | .fail _ => True
  | .stmt _ eff next => ∀ v, S.Statement v (eff v) ∧ Client (next v)
  | .commit _ next => Client next
  | .rollback next => Client next

/-- Commits of admissible versions. -/
def discipline (ν ε : Type) : Discipline ν σ ℓ ε where
  inv db := (S.ledger db).Inv
  step L db _ db' := ∃ δ, S.ledger db' = (S.ledger db).overlay δ ∧
    Ledger.Admissible (S.holds L) (S.ledger db) δ
  allowed _ _ := True
  step_inv := fun hi ⟨_, he, ha⟩ => he ▸ ha.inv hi

variable {S}

theorem holds_apart {L M : Held ℓ} (h : Compatible L M) : Ledger.Apart (S.holds L) (S.holds M) :=
  fun _ _ _ hl hm => h _ hl _ hm rfl

/-- The open transaction of a client has admissible versions. -/
def Open (S : LedgerStore σ ℓ) (c : Ctx σ ℓ ε) : Prop :=
  ∃ δ, (∀ db, S.ledger (c.writes db) = (S.ledger db).overlay δ) ∧
    Ledger.Admissible (S.holds c.held) (S.ledger c.db) δ

theorem Open.start {db : σ} {done : List ε} : S.Open ({ db := db, done := done } : Ctx σ ℓ ε) :=
  ⟨.empty, fun _ => (Ledger.overlay_empty _).symm, .empty⟩

/-- Other commits leave it so. -/
theorem Open.waits {c c' : Ctx σ ℓ ε} (h : S.Open c) (hw : c.Waits (S.discipline ν ε) c') :
    S.Open c' := by
  obtain ⟨δ, hwr, ha⟩ := h
  obtain ⟨db, hr, -, rfl⟩ := hw
  refine ⟨δ, hwr, ?_⟩
  refine Discipline.rely_induction (P := fun db => Ledger.Admissible (S.holds c.held) (S.ledger db) δ)
    ?_ hr ha
  rintro M db e db' - hc ⟨δ', he, ha'⟩ h
  rw [he]; exact h.overlay ha' (holds_apart hc)

/-- So does its own next statement. -/
theorem Open.apply {c : Ctx σ ℓ ε} (h : S.Open c) (hi : (S.ledger c.db).Inv) {f : Effect σ ℓ}
    (hf : S.Statement c.view f) : S.Open (c.apply f) := by
  obtain ⟨δ, hwr, ha⟩ := h
  rcases hf with hf | ⟨d, hl, hf⟩
  · exact ⟨δ, fun db => (hf _).trans (hwr db), ha.mono fun _ _ hm => List.mem_append_left _ hm⟩
  · have hview : S.ledger c.view = (S.ledger c.db).overlay δ := hwr c.db
    rw [hview] at hl hf
    obtain ⟨δ', hwr', ha'⟩ := Ledger.run_keeps hi ha d
    refine ⟨δ', fun db => ?_, ha'.mono fun l m hm => ?_⟩
    · show S.ledger (f.write (c.writes db)) = _
      rw [hf, hwr, hwr']
    · rcases hm with hm | hm
      · exact List.mem_append_left _ hm
      · exact List.mem_append_right _ (hl _ hm)

/-- **Clients keep to the discipline of the ledger.** -/
theorem Client.wp_true : ∀ {p : Prog ν σ ℓ ε χ α} {c : Ctx σ ℓ ε}, S.Client p → S.Open c →
    wp (S.discipline ν ε) p (fun _ _ => True) (fun _ _ => True) c
  | .ret _, _, _, _ => trivial
  | .fail _, _, _, _ => trivial
  | .stmt _ _ _, _, hp, ho => fun c' hw _ => by
    have hi : (S.ledger c'.db).Inv := by obtain ⟨db, -, hi, rfl⟩ := hw; exact hi
    exact (hp c'.view).2.wp_true ((ho.waits hw).apply hi (hp c'.view).1)
  | .commit _ _, _, hp, ho => fun c' hw => by
    obtain ⟨δ, hwr, ha⟩ := ho.waits hw
    exact ⟨⟨δ, hwr c'.db, ha⟩, Client.wp_true hp .start⟩
  | .rollback next, _, hp, _ => Client.wp_true (p := next) hp .start

/-! ### Building clients -/

theorem client_bind {f : α → Prog ν σ ℓ ε χ β} : ∀ {p : Prog ν σ ℓ ε χ α}, S.Client p →
    (∀ a, S.Client (f a)) → S.Client (p >>= f)
  | .ret a, _, hf => hf a
  | .fail _, _, _ => trivial
  | .stmt _ _ next, hp, hf => fun v => ⟨(hp v).1, client_bind (p := next v) (hp v).2 hf⟩
  | .commit _ next, hp, hf => client_bind (p := next) hp hf
  | .rollback next, hp, hf => client_bind (p := next) hp hf

theorem client_query {site : ν} {f : σ → α} : S.Client (.query site f : Prog ν σ ℓ ε χ α) :=
  fun _ => ⟨Or.inl fun _ => rfl, trivial⟩

theorem client_exec {site : ν} {f : σ → Prog.Outcome σ ℓ χ α}
    (h : ∀ v, S.Statement v (f v).toEffect) : S.Client (.exec site f : Prog ν σ ℓ ε χ α) := by
  refine fun v => ⟨h v, ?_⟩
  show S.Client (Prog.ofExcept (f v).result)
  cases (f v).result <;> trivial

theorem client_check {p : Prop} [Decidable p] {x : χ} :
    S.Client (.check p x : Prog ν σ ℓ ε χ Unit) := by
  unfold Prog.check; split <;> trivial

theorem client_orFail {x : χ} {o : Option α} : S.Client (.orFail x o : Prog ν σ ℓ ε χ α) := by
  cases o <;> trivial

end LedgerStore

end Sakura
