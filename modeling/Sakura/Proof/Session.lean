/-
  Reasoning about an open transaction of the platform code.

  * `At`: the open transaction has written the versions `δ`, under locks;
  * `Later`: the same transaction some statements on, and what has stayed true meanwhile;
  * `Runs` and its rules: `select_bind`, `check_bind`, `exec_bind`, `selectLock_bind`, `insert_bind`,
    `ledger_bind`, `publish`: one for each form of statement.
-/
import Sakura.Invariant

namespace Sakura

open Txn

variable {G : Scope} {α β ρ : Type}

/-- What a running call knows. -/
abbrev Moment := Ctx DB Lock Event

/-- From `c` the program keeps to the discipline and returns with `Q`; where it fails, it has
committed nothing. -/
abbrev Runs (G : Scope) (p : Call α) (Q : α → Moment → Prop) (c : Moment) : Prop :=
  wp (discipline G) p Q (fun _ c => c.done = []) c

/-! ## An open transaction -/

/-- The open transaction has written the versions `δ`. -/
structure At (G : Scope) (c : Moment) (δ : Versions) : Prop where
  writes : ∀ db, c.writes db = db.overlay δ
  inv : Inv G c.db
  done : c.done = []
  respects : Respects c.held c.db δ
  links : Links (c.db.overlay δ)

/-- `c'` is a later moment of the transaction of `c`. -/
structure Later (G : Scope) (c c' : Moment) : Prop where
  held : c.held ⊆ c'.held
  rely : (discipline G).rely c.held c.db c'.db

theorem Later.refl {c : Moment} : Later G c c := ⟨List.Subset.refl _, .refl⟩

theorem Later.trans {c c' c'' : Moment} (h : Later G c c') (h' : Later G c' c'') : Later G c c'' :=
  ⟨List.Subset.trans h.held h'.held,
    Discipline.rely_trans h.rely (Discipline.rely_mono h.held h'.rely)⟩

theorem Later.apply {c : Moment} {f : Effect DB Lock} : Later G c (c.apply f) :=
  ⟨List.subset_append_left _ _, .refl⟩

theorem Later.of_waits {c c' : Moment} (h : c.Waits (discipline G) c') : Later G c c' := by
  obtain ⟨db, hr, -, rfl⟩ := h
  exact ⟨List.Subset.refl _, hr⟩

/-- What no commit of the others destroys is still true later. -/
theorem Later.keep {c c' : Moment} (h : Later G c c') {P : DB → Prop}
    (hP : ∀ {M db δ}, Inv G db → Inv G (db.overlay δ) → Compatible c.held M → Respects M db δ →
      P db → P (db.overlay δ)) (h₀ : P c.db) : P c'.db := by
  refine Discipline.rely_induction ?_ h.rely h₀
  rintro M db e db' hi hc ⟨δ, rfl, hr, hi', -⟩ hp
  exact hP hi hi' hc hr hp

theorem Later.config {c c' : Moment} (h : Later G c c') : c'.db.config = c.db.config :=
  h.keep (P := fun db => db.config = c.db.config) (fun _ _ _ _ hp => hp) rfl

/-- The links of the view survive the commits of the others. -/
theorem Links.overlay {L M : Held Lock} {db : DB} {δ δ' : Versions} (h : Links (db.overlay δ))
    (hi : Links (db.overlay δ')) (hr : Respects L (db.overlay δ') δ) (hr' : Respects M db δ') :
    Links ((db.overlay δ').overlay δ) where
  wallets w hw := by
    rcases mem_overlay.1 hw with ⟨hw, -⟩ | hw
    · obtain ⟨a, ha, hk⟩ := hi.wallets w hw
      exact ⟨a, hr.mem_accounts ha, hk⟩
    · obtain ⟨a, ha, hk⟩ := h.wallets w (mem_overlay_right hw)
      rcases mem_overlay.1 ha with ⟨ha, -⟩ | ha
      · exact ⟨a, hr.mem_accounts (hr'.mem_accounts ha), hk⟩
      · exact ⟨a, mem_overlay_right ha, hk⟩
  owners a ha ho := by
    rcases mem_overlay.1 ha with ⟨ha, -⟩ | ha
    · exact hi.owners a ha ho
    · exact h.owners a (mem_overlay_right ha) ho

namespace At

variable {c c' : Moment} {δ : Versions}

theorem start {db : DB} (h : Inv G db) : At G { db := db } {} where
  writes _ := (DB.overlay_none _).symm
  inv := h
  done := rfl
  respects := .none
  links := by rw [DB.overlay_none]; exact h.links

theorem view (h : At G c δ) : c.view = c.db.overlay δ := h.writes c.db

theorem waits (h : At G c δ) (hw : c.Waits (discipline G) c') : At G c' δ := by
  have hl := Later.of_waits hw
  obtain ⟨db, hr, hi, rfl⟩ := hw
  have hk : Respects c.held db δ ∧ Links (db.overlay δ) := by
    refine hl.keep (P := fun db => Respects c.held db δ ∧ Links (db.overlay δ)) ?_
      ⟨h.respects, h.links⟩
    intro M db δ' _ hi' hc hr' ⟨hr, hlk⟩
    have hr₁ := hr.overlay hr' hc
    exact ⟨hr₁, hlk.overlay hi'.links hr₁ hr'⟩
  exact ⟨h.writes, hi, h.done, hk.1, hk.2⟩

/-- A statement takes locks and writes. -/
theorem apply (h : At G c δ) {f : Effect DB Lock} {δ' : Versions}
    (hw : ∀ db : DB, f.write (db.overlay δ) = db.overlay δ')
    (hr : Respects (c.held ++ f.locks) c.db δ') (hl : Links (c.db.overlay δ')) :
    At G (c.apply f) δ' where
  writes db := (congrArg f.write (h.writes db)).trans (hw db)
  inv := h.inv
  done := h.done
  respects := hr
  links := hl

/-- A statement takes locks only. -/
theorem lock (h : At G c δ) {f : Effect DB Lock} (hw : ∀ db, f.write db = db) :
    At G (c.apply f) δ :=
  h.apply (fun _ => hw _) (h.respects.mono (List.subset_append_left _ _)) h.links

/-- A statement writes a table that no lock has to protect. -/
theorem untracked (h : At G c δ) {f : Effect DB Lock} {δ' : Versions}
    (hw : ∀ db : DB, f.write (db.overlay δ) = db.overlay δ')
    (hs : δ'.ledger = δ.ledger ∧ δ'.wallets = δ.wallets ∧ δ'.rechargeOrders = δ.rechargeOrders ∧
      δ'.rechargeRefunds = δ.rechargeRefunds ∧ δ'.purchases = δ.purchases ∧
      δ'.memberships = δ.memberships) : At G (c.apply f) δ' := by
  obtain ⟨e₁, e₂, e₃, e₄, e₅, e₆⟩ := hs
  have hr := h.respects.mono (List.subset_append_left c.held f.locks)
  refine h.apply hw ?_ (h.links.of_eq ?_ ?_)
  · exact ⟨e₁ ▸ hr.accounts, e₁ ▸ hr.accountKeys, e₁ ▸ hr.transactions, e₁ ▸ hr.transactionKeys,
      e₁ ▸ hr.entryTransaction, e₁ ▸ hr.entryAccount, e₂ ▸ hr.wallets, e₂ ▸ hr.walletKeys,
      e₃ ▸ hr.orders, e₄ ▸ hr.refunds, e₄ ▸ hr.refundOrders, e₅ ▸ hr.purchases,
      e₅ ▸ hr.purchaseKeys, e₆ ▸ hr.memberships, e₆ ▸ hr.currents, e₆ ▸ hr.currentLock⟩
  · simp [DB.overlay, Ledger.overlay, e₁]
  · simp [DB.overlay, e₂]

theorem wellFormed (h : At G c δ) : (c.db.overlay δ).WellFormed :=
  h.respects.wellFormed h.inv.wellFormed

/-! ## Rules for statements -/

section Rules

variable {Q : β → Moment → Prop}

theorem exec_bind (h : At G c δ) {site : Site} {f : DB → Effects α} {k : α → Call β}
    (hk : ∀ c', At G c' δ → Later G c c' → G.allows site (c'.db.overlay δ) →
      ∀ a, (f (c'.db.overlay δ)).result = .ok a →
        Runs G (k a) Q (c'.apply (f (c'.db.overlay δ)).toEffect)) :
    Runs G (Prog.exec site f >>= k) Q c := by
  refine wp_bind.2 (wp_exec.2 fun c' hw ha => ?_)
  have h' := h.waits hw
  rw [h'.view] at ha ⊢
  cases hres : (f (c'.db.overlay δ)).result with
  | ok a => exact hk c' h' (.of_waits hw) ha a hres
  | error x => exact h'.done

theorem query_bind (h : At G c δ) {site : Site} {f : DB → α} {k : α → Call β}
    (hk : ∀ c', At G c' δ → Later G c c' → G.allows site (c'.db.overlay δ) →
      Runs G (k (f (c'.db.overlay δ))) Q c') :
    Runs G (Prog.query site f >>= k) Q c := by
  refine wp_bind.2 (wp_query.2 fun c' hw ha => ?_)
  have h' := h.waits hw
  rw [h'.view] at ha ⊢
  exact hk c' h' (.of_waits hw) ha

theorem select_bind (h : At G c δ) {f : DB → α} {k : α → Call β}
    (hk : ∀ c', At G c' δ → Later G c c' → Runs G (k (f (c'.db.overlay δ))) Q c') :
    Runs G (select f >>= k) Q c :=
  h.query_bind fun c' h' hl _ => hk c' h' hl

theorem orFail_bind (h : At G c δ) {x : Err} {o : Option α} {k : α → Call β}
    (hk : ∀ a, o = some a → Runs G (k a) Q c) : Runs G (Prog.orFail x o >>= k) Q c :=
  wp_bind.2 (wp_orFail.2 ⟨hk, fun _ => h.done⟩)

theorem check_bind (h : At G c δ) {p : Prop} [Decidable p] {x : Err} {k : Unit → Call β}
    (hk : p → Runs G (k ()) Q c) : Runs G (Prog.check p x >>= k) Q c :=
  wp_bind.2 (wp_check.2 ⟨hk, fun _ => h.done⟩)

theorem selectOne_runs (h : At G c δ) {x : Err} {f : DB → Option α} {Q : α → Moment → Prop}
    (hQ : ∀ c', At G c' δ → Later G c c' → ∀ a, f (c'.db.overlay δ) = some a → Q a c') :
    Runs G (selectOne x f) Q c := by
  refine wp_bind.2 (wp_query.2 fun c' hw _ => ?_)
  have h' := h.waits hw
  rw [h'.view]
  exact wp_orFail.2 ⟨hQ c' h' (.of_waits hw), fun _ => h'.done⟩

theorem selectOne_bind (h : At G c δ) {x : Err} {f : DB → Option α} {k : α → Call β}
    (hk : ∀ c', At G c' δ → Later G c c' → ∀ a, f (c'.db.overlay δ) = some a → Runs G (k a) Q c') :
    Runs G (selectOne x f >>= k) Q c :=
  wp_bind.2 (h.selectOne_runs hk)

/-- A locking read: no row, or the row found that still satisfies `p` when it is locked. -/
theorem selectLock_bind (h : At G c δ) {table : Table} {mode : Mode} {rows : DB → List ρ}
    {key : ρ → UUID} {p : ρ → Bool} {site : UUID → Site} {k : Option ρ → Call β}
    (hnone : ∀ c', At G c' δ → Later G c c' → (rows (c'.db.overlay δ)).find? p = none →
      Runs G (k none) Q c')
    (hsome : ∀ c' r, At G c' δ → Later G c c' → r ∈ rows (c'.db.overlay δ) → p r →
      (.row table (key r), mode) ∈ c'.held → Runs G (k (some r)) Q c')
    (hgone : ∀ c' r, At G c' δ → Later G c c' → G.allows (site (key r)) (c'.db.overlay δ) →
      (∀ r' ∈ rows (c'.db.overlay δ), key r' = key r → ¬p r') → Runs G (k none) Q c') :
    Runs G (selectLock table mode rows key p site >>= k) Q c := by
  refine wp_bind.2 (wp_bind.2 (wp_query.2 fun c₁ hw₁ _ => ?_))
  have h₁ := h.waits hw₁
  rw [h₁.view]
  cases hf : (rows (c₁.db.overlay δ)).find? p with
  | none => exact hnone c₁ h₁ (.of_waits hw₁) hf
  | some r =>
    refine wp_exec.2 fun c₂ hw₂ ha => ?_
    have h₂ := h₁.waits hw₂
    rw [h₂.view] at ha ⊢
    have hl := ((Later.of_waits hw₁).trans (.of_waits hw₂)).trans (Later.apply (G := G)
      (f := ⟨[(.row table (key r), mode)], id⟩))
    have h₃ : At G (c₂.apply ⟨[(.row table (key r), mode)], id⟩) δ := h₂.lock fun _ => rfl
    show Runs G (k ((rows (c₂.db.overlay δ)).find? _)) Q _
    cases hf' : (rows (c₂.db.overlay δ)).find? fun r' => key r' = key r && p r' with
    | none =>
      refine hgone _ r h₃ hl ha fun r' hr' he hp => ?_
      exact absurd (List.find?_eq_none.1 hf' r' hr') (by simp [he, hp])
    | some r' =>
      have hp := List.find?_some hf'
      simp only [Bool.and_eq_true, decide_eq_true_eq] at hp
      refine hsome _ r' h₃ hl (List.mem_of_find?_eq_some hf') hp.2 ?_
      exact List.mem_append_right _ (by simp [hp.1])

/-- The same, for a program that goes on either way. -/
theorem selectLock_cases (h : At G c δ) {table : Table} {mode : Mode} {rows : DB → List ρ}
    {key : ρ → UUID} {p : ρ → Bool} {site : UUID → Site} {k : Option ρ → Call β}
    (hk : ∀ c' o, At G c' δ → Later G c c' →
      ((∃ r, o = some r ∧ r ∈ rows (c'.db.overlay δ) ∧ p r ∧ (.row table (key r), mode) ∈ c'.held) ∨
        (∀ r ∈ rows (c'.db.overlay δ), ¬p r) ∨ ∃ id, G.allows (site id) (c'.db.overlay δ) ∧
          ∀ r ∈ rows (c'.db.overlay δ), key r = id → ¬p r) → Runs G (k o) Q c') :
    Runs G (selectLock table mode rows key p site >>= k) Q c :=
  h.selectLock_bind (fun c' h' hl hno => hk c' none h' hl (Or.inr (Or.inl (List.find?_eq_none.1 hno))))
    (fun c' r h' hl hr hp hm => hk c' (some r) h' hl (Or.inl ⟨r, rfl, hr, hp, hm⟩))
    fun c' r h' hl ha hno => hk c' none h' hl (Or.inr (Or.inr ⟨key r, ha, hno⟩))

/-- The locking read of a program that fails without a row. -/
theorem selectLock_orFail_bind (h : At G c δ) {table : Table} {mode : Mode} {rows : DB → List ρ}
    {key : ρ → UUID} {p : ρ → Bool} {site : UUID → Site} {x : Err} {k : ρ → Call β}
    (hk : ∀ c' r, At G c' δ → Later G c c' → r ∈ rows (c'.db.overlay δ) → p r →
      (.row table (key r), mode) ∈ c'.held → Runs G (k r) Q c') :
    Runs G (selectLock table mode rows key p site >>= fun o => Prog.orFail x o >>= k) Q c :=
  h.selectLock_bind (fun _ h' _ _ => h'.orFail_bind fun _ he => by cases he)
    (fun c' r h' hl hr hp hm => h'.orFail_bind fun a he => by cases he; exact hk c' r h' hl hr hp hm)
    fun _ _ h' _ _ _ => h'.orFail_bind fun _ he => by cases he

/-- An INSERT that is not refused: none of its index entries existed, and now they are locked. -/
theorem insert_bind (h : At G c δ) {keys : List IndexKey} {δ' : Versions} {x : Err}
    {k : Unit → Call β}
    (hk : ∀ c', At G c' δ → Later G c c' → (∀ i ∈ keys, (c'.db.overlay δ).has i = false) →
      ∀ c'', c'' = c'.apply ⟨keys.map fun i => exclusive (.index i), fun db => db.overlay δ'⟩ →
        Later G c c'' → (∀ i ∈ keys, Holds c''.held (.index i)) → Runs G (k ()) Q c'') :
    Runs G (insert keys δ' x >>= k) Q c := by
  refine h.exec_bind fun c' h' hl _ a ha => ?_
  unfold insertEffects at ha ⊢
  split at ha
  · cases ha
  · next hno =>
    rw [if_neg hno]
    refine hk c' h' hl (fun i hi => ?_) _ rfl (hl.trans .apply) fun i hi => ?_
    · exact Bool.eq_false_iff.2 fun hh => hno (List.any_eq_true.2 ⟨i, hi, hh⟩)
    · exact List.mem_append_right _ (List.mem_map.2 ⟨i, hi, rfl⟩)

/-- The same INSERT where a row in conflict is no error. -/
theorem insertOrIgnore_bind (h : At G c δ) {conflict : IndexKey} {keys : List IndexKey}
    {δ' : Versions} {x : Err} {k : Unit → Call β}
    (hskip : ∀ c', At G c' δ → Later G c c' → Runs G (k ()) Q c')
    (hk : ∀ c', At G c' δ → Later G c c' → (∀ i ∈ keys, (c'.db.overlay δ).has i = false) →
      ∀ c'', c'' = c'.apply ⟨keys.map fun i => exclusive (.index i), fun db => db.overlay δ'⟩ →
        Later G c c'' → (∀ i ∈ keys, Holds c''.held (.index i)) → Runs G (k ()) Q c'') :
    Runs G (insertOrIgnore conflict keys δ' x >>= k) Q c := by
  refine h.exec_bind fun c' h' hl _ a ha => ?_
  by_cases hc : (c'.db.overlay δ).has conflict
  · rw [if_pos hc]
    exact hskip _ (h'.lock fun _ => rfl) (hl.trans .apply)
  · rw [if_neg hc] at ha ⊢
    unfold insertEffects at ha ⊢
    split at ha
    · cases ha
    · next hno =>
      rw [if_neg hno]
      refine hk c' h' hl (fun i hi => ?_) _ rfl (hl.trans .apply) fun i hi => ?_
      · exact Bool.eq_false_iff.2 fun hh => hno (List.any_eq_true.2 ⟨i, hi, hh⟩)
      · exact List.mem_append_right _ (List.mem_map.2 ⟨i, hi, rfl⟩)

/-- An UPDATE of one row: it finds no row, or changes the row that it has locked. -/
theorem updateRow_bind (h : At G c δ) {table : Table} {rows : DB → List ρ} {key : ρ → UUID}
    {p : ρ → Bool} {set : ρ → Versions} {k : Nat → Call β}
    (hnone : ∀ c', At G c' δ → Later G c c' → ((∀ r ∈ rows (c'.db.overlay δ), ¬p r) ∨
      ∃ r, p r ∧ ∀ r' ∈ rows (c'.db.overlay δ), key r' = key r → ¬p r') → Runs G (k 0) Q c')
    (hsome : ∀ c' r, At G c' δ → Later G c c' → r ∈ rows (c'.db.overlay δ) → p r →
      ∀ c'', c'' = c'.apply ⟨[exclusive (.row table (key r))], fun db => db.overlay (set r)⟩ →
        Later G c c'' → Holds c''.held (.row table (key r)) → Runs G (k 1) Q c'') :
    Runs G (updateRow table rows key p set >>= k) Q c := by
  refine wp_bind.2 (wp_bind.2 (wp_query.2 fun c₁ hw₁ _ => ?_))
  have h₁ := h.waits hw₁
  rw [h₁.view]
  cases hf : (rows (c₁.db.overlay δ)).find? p with
  | none => exact hnone c₁ h₁ (.of_waits hw₁) (Or.inl (List.find?_eq_none.1 hf))
  | some r =>
    refine wp_bind.1 (h₁.exec_bind fun c₂ h₂ hl _ a ha => ?_)
    have hl := (Later.of_waits hw₁).trans hl
    cases hf' : (rows (c₂.db.overlay δ)).find? fun r' => key r' = key r && p r' with
    | none =>
      simp only [hf'] at ha ⊢
      cases ha
      refine hnone _ (h₂.lock fun _ => rfl) (hl.trans .apply)
        (Or.inr ⟨r, List.find?_some hf, fun r' hr' he hp => ?_⟩)
      exact absurd (List.find?_eq_none.1 hf' r' hr') (by simp [he, hp])
    | some r' =>
      have hp := List.find?_some hf'
      simp only [Bool.and_eq_true, decide_eq_true_eq] at hp
      simp only [hf'] at ha ⊢
      cases ha
      rw [← hp.1]
      refine hsome c₂ r' h₂ hl (List.mem_of_find?_eq_some hf') hp.2 _ rfl (hl.trans .apply) ?_
      exact List.mem_append_right _ (List.mem_singleton.2 rfl)

/-- A statement on the ledger tables that is not refused. -/
theorem ledger_bind (h : At G c δ) {x : Err} {d : Dml} {k : Unit → Call β}
    (hk : ∀ c', At G c' δ → Later G c c' → (d.run (c'.db.overlay δ).ledger).result = .ok () →
      ∀ c'', c'' = c'.apply ⟨(d.run (c'.db.overlay δ).ledger).locks.map fun l => (.ledger l.1, l.2),
          fun db => { db with ledger := (d.run (c'.db.overlay δ).ledger).write db.ledger }⟩ →
        Later G c c'' → Runs G (k ()) Q c'') :
    Runs G (ledger x d >>= k) Q c := by
  refine h.exec_bind fun c' h' hl _ a ha => ?_
  simp only [ledgerEffects] at ha ⊢
  cases hres : (d.run (c'.db.overlay δ).ledger).result with
  | error e => simp [hres] at ha
  | ok u => exact hk c' h' hl hres _ rfl (hl.trans .apply)

end Rules

end At

/-! ## Commits -/

section Commit

variable {c : Moment} {δ : Versions} {Q : β → Moment → Prop}

/-- A commit of lawful versions.  What follows runs in a transaction of its own. -/
theorem At.publish_bind (h : At G c δ) {e : Event} {k : Unit → Call β}
    (hk : ∀ c', At G c' δ → Later G c c' → Lawful G c'.db δ ∧
      Extends G c'.db e (c'.db.overlay δ) ∧ (Inv G (c'.db.overlay δ) →
        Runs G (k ()) Q { db := c'.db.overlay δ, done := [e] })) :
    Runs G (Prog.publish e >>= k) Q c := by
  refine wp_bind.2 (wp_publish.2 fun c' hw => ?_)
  have h' := h.waits hw
  obtain ⟨hlaw, hext, hnext⟩ := hk c' h' (.of_waits hw)
  have hinv := hlaw.inv h'.inv h'.respects
  rw [h'.view]
  refine ⟨⟨δ, rfl, h'.respects, hinv, hext⟩, ?_⟩
  rw [Ctx.commit, h'.view, h'.done]
  exact hnext hinv

/-- A commit that ends the program. -/
theorem At.publish_end (h : At G c δ) {e : Event}
    (hk : ∀ c', At G c' δ → Later G c c' → Lawful G c'.db δ ∧
      Extends G c'.db e (c'.db.overlay δ)) {Q : Unit → Moment → Prop} (hQ : ∀ c, Q () c) :
    Runs G (Prog.publish e) Q c := by
  refine wp_publish.2 fun c' hw => ?_
  have h' := h.waits hw
  obtain ⟨hlaw, hext⟩ := hk c' h' (.of_waits hw)
  rw [h'.view]
  exact ⟨⟨δ, rfl, h'.respects, hlaw.inv h'.inv h'.respects, hext⟩, hQ _⟩

/-- A row that is committed, and that nobody takes away, is found after the commit. -/
theorem reread {db : DB} {done : List Event} {x : Err} {f : DB → Option α} {Q : α → Moment → Prop}
    {P : DB → Prop} (hP : ∀ {M db δ}, Inv G db → Inv G (db.overlay δ) → Respects M db δ →
      P db → P (db.overlay δ)) (h₀ : P db) (hf : ∀ db, Inv G db → P db → (f db).isSome)
    (hQ : ∀ a db, Inv G db → P db → f db = some a → Q a { db := db, done := done }) :
    Runs G (selectOne x f) Q { db := db, done := done } := by
  refine wp_bind.2 (wp_query.2 fun c' hw _ => ?_)
  have hl := Later.of_waits hw
  have hp : P c'.db := hl.keep (fun hi hi' _ hr => hP hi hi' hr) h₀
  obtain ⟨db', -, hi, rfl⟩ := hw
  obtain ⟨a, ha⟩ := Option.isSome_iff_exists.1 (hf db' hi hp)
  refine wp_orFail.2 ⟨fun b hb => ?_, fun hno => ?_⟩
  · exact hQ b db' hi hp hb
  · rw [show Ctx.view _ = db' from rfl, ha] at hno
    cases hno

end Commit

end Sakura
