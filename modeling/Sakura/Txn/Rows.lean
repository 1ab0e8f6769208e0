/-
  Statements on the tables of a store.

  A store is a number of tables.  A transaction keeps versions of the rows it has written; what it
  sees is the committed store under these versions.  A statement that waits for a row tests the
  newest version of that row again, and does not see a row inserted meanwhile.

  * `Owns`, `Has`: the locks of a transaction;
  * `Layers`: stores and versions;
  * `read`, `readOne`: statements that only read;
  * `Rows`: a table of a store, `Rows.lockRow`, `Rows.updateRow`, `Rows.updateRows`, `Rows.insertRow`:
    the forms of statements on it;
  * `Ctx.Wrote`: the versions that a transaction has written;
  * `Discipline.Keeps`, `Knows`: what a transaction knows of the data by its locks, with a rule for each
    form of statement (`Knows.read`, `Knows.lockRow`, `Knows.updateRow`, `Knows.updateEach`,
    `Knows.insertRow`, `Knows.publish`).
-/
import Sakura.Txn.Rely

namespace Txn

variable {ν σ δ ρ κ ℓ ε χ α β : Type}

/-! ## Locks held -/

/-- The transaction holds the exclusive lock `k`. -/
def Owns (L : Held ℓ) (k : ℓ) : Prop := (k, Mode.exclusive) ∈ L

/-- The transaction holds the lock `k`, shared or exclusive. -/
def Has (L : Held ℓ) (k : ℓ) : Prop := ∃ m, (k, m) ∈ L

theorem Owns.has {L : Held ℓ} {k : ℓ} (h : Owns L k) : Has L k := ⟨_, h⟩

theorem Owns.not_has {L M : Held ℓ} {k : ℓ} (h : Owns L k) (hc : Compatible L M) : ¬Has M k :=
  fun ⟨_, hm⟩ => hc.not_mem h hm

theorem Owns.not_owns {L M : Held ℓ} {k : ℓ} (h : Owns L k) (hc : Compatible L M) : ¬Owns M k :=
  fun h' => h.not_has hc h'.has

theorem Has.not_owns {L M : Held ℓ} {k : ℓ} (h : Has L k) (hc : Compatible L M) : ¬Owns M k :=
  fun h' => h'.not_has hc.symm h

theorem Owns.mono {L M : Held ℓ} (hLM : L ⊆ M) {k : ℓ} (h : Owns L k) : Owns M k := hLM h

theorem Has.mono {L M : Held ℓ} (hLM : L ⊆ M) {k : ℓ} (h : Has L k) : Has M k :=
  h.imp fun _ => @hLM _

/-! ## Stores and versions -/

/-- Stores `σ` under row versions `δ`. -/
class Layers (σ : Type) (δ : outParam Type) where
  lay : σ → δ → σ
  none : δ
  merge : δ → δ → δ
  lay_none : ∀ s, lay s none = s
  lay_lay : ∀ s d d', lay (lay s d) d' = lay s (merge d d')

/-- A table of the store: its rows, their keys, the lock of the row of a key, and the versions that
consist of one row of it. -/
structure Rows (σ δ ρ κ ℓ : Type) where
  rows : σ → List ρ
  key : ρ → κ
  lock : κ → ℓ
  version : ρ → δ

/-! ## Forms of statements -/

/-- `SELECT` -/
def read [Inhabited ν] (f : σ → α) : Prog ν σ ℓ ε χ α := .query default f

/-- `QueryRow(…).Scan`, with the error of a missing row. -/
def readOne [Inhabited ν] (x : χ) (f : σ → Option α) : Prog ν σ ℓ ε χ α := do
  .orFail x (← read f)

namespace Rows

variable [Layers σ δ] [Inhabited ν] [DecidableEq κ] (T : Rows σ δ ρ κ ℓ)

/-- The newest version of the row `k`, if `p` holds of it. -/
def find (k : κ) (p : ρ → Bool) (v : σ) : Option ρ :=
  (T.rows v).find? fun r => decide (T.key r = k) && p r

/-- `SELECT … WHERE p FOR UPDATE` or `FOR SHARE`, on at most one row. -/
def lockRow (mode : Mode) (p : ρ → Bool) : Prog ν σ ℓ ε χ (Option ρ) := do
  match ← read fun v => (T.rows v).find? p with
  | none => pure none
  | some r => .exec default fun v =>
    { locks := [(T.lock (T.key r), mode)], result := .ok (T.find (T.key r) p v) }

/-- `SELECT … WHERE p ORDER BY … LIMIT 1 FOR UPDATE`: the first of the rows `ks` that still fits once
its lock is there. -/
def lockFirst (mode : Mode) (p : ρ → Bool) : List κ → Prog ν σ ℓ ε χ (Option ρ)
  | [] => pure none
  | k :: ks => do
    match ← .exec default fun v =>
        { locks := [(T.lock k, mode)], result := .ok (T.find k p v) } with
    | some r => pure (some r)
    | none => lockFirst mode p ks

/-- The effect of an UPDATE on the row `k`; the row before it. -/
def updated (k : κ) (p : ρ → Bool) (set : ρ → ρ) (v : σ) : Prog.Outcome σ ℓ χ (Option ρ) :=
  match T.find k p v with
  | none => { locks := [(T.lock k, .exclusive)], result := .ok none }
  | some r => { locks := [(T.lock k, .exclusive)]
                write := fun s => Layers.lay s (T.version (set r)), result := .ok (some r) }

/-- `UPDATE … SET … WHERE p` on at most one row; the row before it.  `search` labels the search for
the row, `site` what is done once its lock is there. -/
def updateRow (p : ρ → Bool) (set : ρ → ρ) (site : κ → ν := fun _ => default)
    (search : ν := default) : Prog ν σ ℓ ε χ (Option ρ) := do
  match ← .query search fun v => (T.rows v).find? p with
  | none => pure none
  | some r => .exec (site (T.key r)) (T.updated (T.key r) p set)

/-- The rows `ks` of an UPDATE, one after the other; how many it changed. -/
def updateEach (p : ρ → Bool) (set : ρ → ρ) : List κ → Prog ν σ ℓ ε χ Nat
  | [] => pure 0
  | k :: ks => do
    let o ← .exec default (T.updated k p set)
    let n ← updateEach p set ks
    pure (if o.isSome then n + 1 else n)

/-- `UPDATE … SET … WHERE p` -/
def updateRows (p : ρ → Bool) (set : ρ → ρ) : Prog ν σ ℓ ε χ Nat := do
  T.updateEach p set (← read fun v => ((T.rows v).filter p).map T.key)

/-- The effect of an INSERT of `r` with the locks `locks`: the error `x` if a row of the same key, or
of the same entry of another unique index, exists. -/
def inserted (taken : σ → Bool) (locks : Held ℓ) (r : ρ) (x : χ) (v : σ) :
    Prog.Outcome σ ℓ χ Unit :=
  if taken v then Prog.refuse x
  else { locks, write := fun s => Layers.lay s (T.version r), result := .ok () }

/-- `INSERT` -/
def insertRow (taken : σ → Bool) (locks : Held ℓ) (r : ρ) (x : χ) (site : ν := default) :
    Prog ν σ ℓ ε χ Unit :=
  .exec site (T.inserted taken locks r x)

end Rows

/-! ## Statements of a kind -/

section Statements

variable [Layers σ δ] [Inhabited ν] {S : σ → Effect σ ℓ → Prop}

omit [Layers σ δ] in
theorem statements_read {f : σ → α} (hl : ∀ v L, S v { locks := L }) :
    (read f : Prog ν σ ℓ ε χ α).Statements S :=
  Prog.statements_query fun v => hl v []

omit [Layers σ δ] in
theorem statements_readOne {x : χ} {f : σ → Option α} (hl : ∀ v L, S v { locks := L }) :
    (readOne x f : Prog ν σ ℓ ε χ α).Statements S :=
  (statements_read hl).bind fun _ => Prog.statements_orFail

namespace Rows

variable [DecidableEq κ] {T : Rows σ δ ρ κ ℓ} {p : ρ → Bool} {set : ρ → ρ}

omit [Layers σ δ] in
theorem statements_lockRow {mode : Mode} (hl : ∀ v L, S v { locks := L }) :
    (T.lockRow mode p : Prog ν σ ℓ ε χ (Option ρ)).Statements S := by
  refine (statements_read hl).bind fun o => ?_
  cases o with
  | none => exact Prog.statements_pure
  | some r => exact Prog.statements_exec fun v => hl v _

omit [Layers σ δ] in
theorem statements_lockFirst {mode : Mode} (hl : ∀ v L, S v { locks := L }) :
    ∀ {ks : List κ}, (T.lockFirst mode p ks : Prog ν σ ℓ ε χ (Option ρ)).Statements S
  | [] => Prog.statements_pure
  | k :: ks => by
    refine (Prog.statements_exec fun v => hl v _).bind fun o => ?_
    cases o with
    | none => exact statements_lockFirst hl
    | some r => exact Prog.statements_pure

omit [Inhabited ν] in
theorem statements_updated {site : ν} {k : κ} (hl : ∀ v L, S v { locks := L })
    (hw : ∀ v r, r ∈ T.rows v → p r →
      S v ⟨[(T.lock (T.key r), .exclusive)], fun s => Layers.lay s (T.version (set r))⟩) :
    (.exec site (T.updated k p set) : Prog ν σ ℓ ε χ (Option ρ)).Statements S := by
  refine Prog.statements_exec fun v => ?_
  unfold updated
  cases hf : T.find k p v with
  | none => exact hl v _
  | some r =>
    have := List.find?_some hf
    simp only [Bool.and_eq_true, decide_eq_true_eq] at this
    have hr := hw v r (List.mem_of_find?_eq_some hf) this.2
    rw [this.1] at hr
    exact hr

theorem statements_updateRow {site : κ → ν} {search : ν} (hl : ∀ v L, S v { locks := L })
    (hw : ∀ v r, r ∈ T.rows v → p r →
      S v ⟨[(T.lock (T.key r), .exclusive)], fun s => Layers.lay s (T.version (set r))⟩) :
    (T.updateRow p set site search : Prog ν σ ℓ ε χ (Option ρ)).Statements S := by
  refine (Prog.statements_query fun v => hl v []).bind fun o => ?_
  cases o with
  | none => exact Prog.statements_pure
  | some r => exact statements_updated hl hw

theorem statements_updateEach (hl : ∀ v L, S v { locks := L })
    (hw : ∀ v r, r ∈ T.rows v → p r →
      S v ⟨[(T.lock (T.key r), .exclusive)], fun s => Layers.lay s (T.version (set r))⟩) :
    ∀ ks : List κ, (T.updateEach p set ks : Prog ν σ ℓ ε χ Nat).Statements S
  | [] => Prog.statements_pure
  | _ :: ks => (statements_updated hl hw).bind fun _ =>
    (statements_updateEach hl hw ks).bind fun _ => Prog.statements_pure

theorem statements_updateRows (hl : ∀ v L, S v { locks := L })
    (hw : ∀ v r, r ∈ T.rows v → p r →
      S v ⟨[(T.lock (T.key r), .exclusive)], fun s => Layers.lay s (T.version (set r))⟩) :
    (T.updateRows p set : Prog ν σ ℓ ε χ Nat).Statements S :=
  (statements_read hl).bind fun ks => statements_updateEach hl hw ks

omit [DecidableEq κ] in
theorem statements_insertRow {taken : σ → Bool} {locks : Held ℓ} {r : ρ} {x : χ} {site : ν}
    (hl : ∀ v L, S v { locks := L })
    (hw : ∀ v, taken v = false → S v ⟨locks, fun s => Layers.lay s (T.version r)⟩) :
    (T.insertRow taken locks r x site : Prog ν σ ℓ ε χ Unit).Statements S := by
  refine Prog.statements_exec fun v => ?_
  unfold inserted
  cases ht : taken v with
  | true => exact hl v []
  | false => exact hw v ht

end Rows

end Statements

/-! ## The versions of a transaction -/

section Wrote

variable [Layers σ δ] {c c' : Ctx σ ℓ ε} {d d' : δ} {D : Discipline ν σ ℓ ε}

/-- The transaction has written the versions `d`. -/
def Ctx.Wrote (c : Ctx σ ℓ ε) (d : δ) : Prop := ∀ s, c.writes s = Layers.lay s d

theorem Ctx.Wrote.start {db : σ} {L : Held ℓ} {done : List ε} :
    (Ctx.mk db id L done).Wrote (Layers.none σ) :=
  fun _ => (Layers.lay_none _).symm

theorem Ctx.Wrote.view (h : c.Wrote d) : c.view = Layers.lay c.db d := h _

theorem Ctx.Wrote.waits (h : c.Wrote d) (hw : c.Waits D c') : c'.Wrote d := by
  obtain ⟨db, -, -, rfl⟩ := hw
  exact h

theorem Ctx.Wrote.lock (h : c.Wrote d) {locks : Held ℓ} : (c.apply { locks }).Wrote d := h

theorem Ctx.Wrote.apply (h : c.Wrote d) {locks : Held ℓ} :
    (c.apply ⟨locks, fun s => Layers.lay s d'⟩).Wrote (Layers.merge σ d d') := by
  intro s
  show Layers.lay (c.writes s) d' = _
  rw [h, Layers.lay_lay]

end Wrote

/-! ## Knowledge -/

/-- What a transaction knows of the data by its locks: more locks never make it less, and no commit
that its locks allow makes it false. -/
structure Discipline.Keeps (D : Discipline ν σ ℓ ε) (K : Held ℓ → σ → Prop) : Prop where
  mono : ∀ {L M db}, L ⊆ M → K L db → K M db
  step : ∀ {L M db e db'}, D.inv db → Compatible L M → D.step M db e db' → K L db → K L db'

section Knows

variable {D : Discipline ν σ ℓ ε} {K K' : Held ℓ → σ → Prop} {c c' : Ctx σ ℓ ε}

theorem Discipline.Keeps.and (h : D.Keeps K) (h' : D.Keeps K') :
    D.Keeps fun L db => K L db ∧ K' L db :=
  ⟨fun hL hK => ⟨h.mono hL hK.1, h'.mono hL hK.2⟩,
    fun hi hc hs hK => ⟨h.step hi hc hs hK.1, h'.step hi hc hs hK.2⟩⟩

theorem Discipline.keeps_true : D.Keeps fun _ _ => True :=
  ⟨fun _ _ => trivial, fun _ _ _ _ => trivial⟩

theorem Discipline.Keeps.rely (h : D.Keeps K) {L : Held ℓ} {db db' : σ} (hr : D.rely L db db')
    (hK : K L db) : K L db' :=
  Discipline.rely_induction (P := K L) (fun hi hc hs => h.step hi hc hs) hr hK

variable [Layers σ δ] {d : δ}

/-- The transaction has written the versions `d` and knows `K`. -/
structure Knows (D : Discipline ν σ ℓ ε) (c : Ctx σ ℓ ε) (d : δ) (K : Held ℓ → σ → Prop) : Prop where
  wrote : c.Wrote d
  inv : D.inv c.db
  known : K c.held c.db
  keeps : D.Keeps K

namespace Knows

theorem start {db : σ} {done : List ε} (hi : D.inv db) :
    Knows D { db, done } (Layers.none σ) fun _ _ => True :=
  ⟨.start, hi, trivial, Discipline.keeps_true⟩

theorem view (h : Knows D c d K) : c.view = Layers.lay c.db d := h.wrote.view

theorem waits (h : Knows D c d K) (hw : c.Waits D c') : Knows D c' d K := by
  obtain ⟨db, hr, hi, rfl⟩ := hw
  exact ⟨h.wrote, hi, h.keeps.rely hr h.known, h.keeps⟩

theorem learn (h : Knows D c d K) (hk : D.Keeps K') (hK : K' c.held c.db) :
    Knows D c d fun L db => K L db ∧ K' L db :=
  ⟨h.wrote, h.inv, ⟨h.known, hK⟩, h.keeps.and hk⟩

theorem mono (h : Knows D c d K) (hk : D.Keeps K') (hK : ∀ {L db}, K L db → K' L db) :
    Knows D c d K' :=
  ⟨h.wrote, h.inv, hK h.known, hk⟩

theorem lock (h : Knows D c d K) {locks : Held ℓ} : Knows D (c.apply { locks }) d K :=
  ⟨h.wrote, h.inv, h.keeps.mono (List.subset_append_left _ _) h.known, h.keeps⟩

theorem write (h : Knows D c d K) {d' d'' : δ} {locks : Held ℓ} (he : Layers.merge σ d d' = d'')
    (hk : D.Keeps K') (hK : K' (c.held ++ locks) c.db) :
    Knows D (c.apply ⟨locks, fun s => Layers.lay s d'⟩) d'' K' :=
  ⟨he ▸ h.wrote.apply, h.inv, hK, hk⟩

end Knows

end Knows

/-! ## Rules -/

section Rules

variable [Layers σ δ] {D : Discipline ν σ ℓ ε} {c : Ctx σ ℓ ε} {E : χ → Ctx σ ℓ ε → Prop} {d : δ}
  {K : Held ℓ → σ → Prop}

namespace Knows

theorem query (h : Knows D c d K) {site : ν} {f : σ → α} {Q : α → Ctx σ ℓ ε → Prop}
    (hQ : ∀ c', Knows D c' d K → D.allowed site c'.view → Q (f (Layers.lay c'.db d)) c') :
    wp D (.query site f : Prog ν σ ℓ ε χ α) Q E c := by
  refine wp_query.2 fun c' hw ha => ?_
  rw [(h.waits hw).view]
  exact hQ c' (h.waits hw) ha

theorem read [Inhabited ν] (h : Knows D c d K) {f : σ → α} {Q : α → Ctx σ ℓ ε → Prop}
    (hQ : ∀ c', Knows D c' d K → Q (f (Layers.lay c'.db d)) c') :
    wp D (read f : Prog ν σ ℓ ε χ α) Q E c :=
  h.query fun c' h' _ => hQ c' h'

theorem readOne [Inhabited ν] (h : Knows D c d K) {x : χ} {f : σ → Option α}
    {Q : α → Ctx σ ℓ ε → Prop}
    (hQ : ∀ c' a, Knows D c' d K → f (Layers.lay c'.db d) = some a → Q a c')
    (hx : ∀ c', Knows D c' d K → f (Layers.lay c'.db d) = none → E x c') :
    wp D (readOne x f : Prog ν σ ℓ ε χ α) Q E c :=
  wp_bind.2 (h.read fun c' h' => wp_orFail.2 ⟨fun a ha => hQ c' a h' ha, fun hn => hx c' h' hn⟩)

end Knows

namespace Rows

variable [Inhabited ν] [DecidableEq κ] {T : Rows σ δ ρ κ ℓ} {p : ρ → Bool} {set : ρ → ρ}

omit [Layers σ δ] [Inhabited ν] in
theorem find_some {k : κ} {v : σ} {r : ρ} (h : T.find k p v = some r) :
    r ∈ T.rows v ∧ T.key r = k ∧ p r := by
  have := List.find?_some h
  simp only [Bool.and_eq_true, decide_eq_true_eq] at this
  exact ⟨List.mem_of_find?_eq_some h, this⟩

omit [Layers σ δ] [Inhabited ν] in
theorem find_none {k : κ} {v : σ} (h : T.find k p v = none) :
    ∀ r ∈ T.rows v, T.key r = k → ¬p r := by
  intro r hr hk hp
  have := List.find?_eq_none.1 h r hr
  simp [hk, hp] at this

end Rows

namespace Knows

variable [Inhabited ν] [DecidableEq κ] {T : Rows σ δ ρ κ ℓ} {p : ρ → Bool} {set : ρ → ρ}

/-- A locking read: no row, or the newest version of the row that it has locked, if it still fits. -/
theorem lockRow (h : Knows D c d K) {mode : Mode} {Q : Option ρ → Ctx σ ℓ ε → Prop}
    (hnone : ∀ c', Knows D c' d K → Q none c')
    (hsome : ∀ c' r, Knows D c' d K → (T.lock (T.key r), mode) ∈ c'.held →
      r ∈ T.rows (Layers.lay c'.db d) → p r → Q (some r) c') :
    wp D (T.lockRow mode p : Prog ν σ ℓ ε χ (Option ρ)) Q E c := by
  refine wp_bind.2 (h.read fun c₁ h₁ => ?_)
  cases hf : (T.rows (Layers.lay c₁.db d)).find? p with
  | none => exact hnone c₁ h₁
  | some r₀ =>
    refine wp_exec.2 fun c₂ hw _ => ?_
    have h₂ := h₁.waits hw
    cases hf₂ : T.find (T.key r₀) p c₂.view with
    | none => exact hnone _ h₂.lock
    | some r =>
      obtain ⟨hr, hk, hp⟩ := Rows.find_some hf₂
      rw [h₂.view] at hr
      refine hsome _ r h₂.lock ?_ hr hp
      rw [hk]
      exact List.mem_append_right _ (List.mem_singleton_self _)

/-- A locking read of the first row that fits, with the knowledge `K ks` while the rows `ks` are left. -/
theorem lockFirst {K : List κ → Held ℓ → σ → Prop} {mode : Mode} {Q : Option ρ → Ctx σ ℓ ε → Prop}
    (hkeeps : ∀ ks, D.Keeps (K ks))
    (hskip : ∀ {k ks L db}, D.inv db → K (k :: ks) L db →
      (∀ r ∈ T.rows (Layers.lay db d), T.key r = k → ¬p r) → K ks L db)
    (hnone : ∀ c', Knows D c' d (K []) → Q none c')
    (hsome : ∀ c' r ks, Knows D c' d (K ks) → (T.lock (T.key r), mode) ∈ c'.held →
      r ∈ T.rows (Layers.lay c'.db d) → p r → Q (some r) c') :
    ∀ {ks : List κ} {c : Ctx σ ℓ ε}, Knows D c d (K ks) →
      wp D (T.lockFirst mode p ks : Prog ν σ ℓ ε χ (Option ρ)) Q E c
  | [], c, h => hnone c h
  | k :: ks, c, h => by
    refine wp_bind.2 (wp_exec.2 fun c' hw _ => ?_)
    have h' := h.waits hw
    cases hf : T.find k p c'.view with
    | none =>
      have hno := Rows.find_none hf
      rw [h'.view] at hno
      have hlock : Knows D (c'.apply { locks := [(T.lock k, mode)] }) d (K (k :: ks)) := h'.lock
      exact lockFirst hkeeps hskip hnone hsome
        ⟨hlock.wrote, hlock.inv, hskip hlock.inv hlock.known hno, hkeeps ks⟩
    | some r =>
      obtain ⟨hr, hk, hp⟩ := Rows.find_some hf
      rw [h'.view] at hr
      refine hsome _ r (k :: ks) h'.lock ?_ hr hp
      rw [hk]
      exact List.mem_append_right _ (List.mem_singleton_self _)

omit [Inhabited ν] in
/-- An UPDATE on the row of a key. -/
theorem updated (h : Knows D c d K) {site : ν} {k : κ} {Q : Option ρ → Ctx σ ℓ ε → Prop}
    (hnone : ∀ c', Knows D c' d K → D.allowed site c'.view →
      (∀ r ∈ T.rows (Layers.lay c'.db d), T.key r = k → ¬p r) → Q none c')
    (hsome : ∀ c' r, Knows D c' d K → D.allowed site c'.view →
      r ∈ T.rows (Layers.lay c'.db d) → T.key r = k → p r → Q (some r)
        (c'.apply ⟨[(T.lock k, .exclusive)], fun s => Layers.lay s (T.version (set r))⟩)) :
    wp D (.exec site (T.updated k p set) : Prog ν σ ℓ ε χ (Option ρ)) Q E c := by
  refine wp_exec.2 fun c' hw ha => ?_
  have h' := h.waits hw
  unfold Rows.updated
  cases hf : T.find k p c'.view with
  | none =>
    have hno := Rows.find_none hf
    rw [h'.view] at hno
    exact hnone _ h'.lock ha hno
  | some r =>
    obtain ⟨hr, hk, hp⟩ := Rows.find_some hf
    rw [h'.view] at hr
    exact hsome c' r h' ha hr hk hp

/-- An UPDATE of at most one row: no row, or a new version of one that it has locked.  When no row
was found, the row it first saw has changed meanwhile. -/
theorem updateRow (h : Knows D c d K) {site : κ → ν} {search : ν}
    {Q : Option ρ → Ctx σ ℓ ε → Prop}
    (hnone : ∀ c', Knows D c' d K →
      (D.allowed search c'.view ∧ (∀ r ∈ T.rows (Layers.lay c'.db d), ¬p r) ∨
        ∃ k, (∃ r, T.key r = k ∧ p r) ∧ D.allowed (site k) c'.view ∧
          ∀ r ∈ T.rows (Layers.lay c'.db d), T.key r = k → ¬p r) → Q none c')
    (hsome : ∀ c' r, Knows D c' d K → D.allowed (site (T.key r)) c'.view →
      r ∈ T.rows (Layers.lay c'.db d) → p r → Q (some r)
        (c'.apply ⟨[(T.lock (T.key r), .exclusive)],
          fun s => Layers.lay s (T.version (set r))⟩)) :
    wp D (T.updateRow p set site search : Prog ν σ ℓ ε χ (Option ρ)) Q E c := by
  refine wp_bind.2 (h.query fun c₁ h₁ ha => ?_)
  cases hf : (T.rows (Layers.lay c₁.db d)).find? p with
  | none =>
    exact hnone c₁ h₁ (Or.inl ⟨ha, fun r hr => by simpa using List.find?_eq_none.1 hf r hr⟩)
  | some r₀ =>
    refine h₁.updated (fun c₂ h₂ ha hno => hnone c₂ h₂
      (Or.inr ⟨_, ⟨r₀, rfl, List.find?_some hf⟩, ha, hno⟩)) fun c₂ r h₂ ha hr hk hp => ?_
    rw [← hk] at ha ⊢
    exact hsome c₂ r h₂ ha hr hp

/-- An UPDATE by a key whose row is known to exist. -/
theorem updateKey (h : Knows D c d K) {k : κ} (hp : ∀ r, p r ↔ T.key r = k)
    (hrow : ∀ L db, D.inv db → K L db → ∃ r ∈ T.rows (Layers.lay db d), T.key r = k)
    {site : κ → ν} {search : ν} {Q : Option ρ → Ctx σ ℓ ε → Prop}
    (hsome : ∀ c' r, Knows D c' d K → D.allowed (site k) c'.view →
      r ∈ T.rows (Layers.lay c'.db d) → T.key r = k → Q (some r)
        (c'.apply ⟨[(T.lock k, .exclusive)], fun s => Layers.lay s (T.version (set r))⟩)) :
    wp D (T.updateRow p set site search : Prog ν σ ℓ ε χ (Option ρ)) Q E c := by
  refine h.updateRow (fun c' h' hno => ?_) fun c' r h' ha hr hpr => ?_
  · obtain ⟨r, hr, hk⟩ := hrow _ _ h'.inv h'.known
    rcases hno with ⟨-, hno⟩ | ⟨k', ⟨r', hk', hp'⟩, -, hno⟩
    · exact absurd ((hp r).2 hk) (hno r hr)
    · exact absurd ((hp r).2 hk) (hno r hr (hk.trans (((hp r').1 hp').symm.trans hk')))
  · rw [(hp r).1 hpr] at ha ⊢
    exact hsome c' r h' ha hr ((hp r).1 hpr)

/-- The rows of an UPDATE one after the other, with an invariant `I` over the rows left. -/
theorem updateEach {I : List κ → Ctx σ ℓ ε → Prop}
    (hI : ∀ {k ks c'}, I (k :: ks) c' → ∃ d K, Knows D c' d K ∧
      (∀ c'', Knows D c'' d K → (∀ r ∈ T.rows (Layers.lay c''.db d), T.key r = k → ¬p r) →
        I ks c'') ∧
      ∀ c'' r, Knows D c'' d K → r ∈ T.rows (Layers.lay c''.db d) → T.key r = k → p r →
        I ks (c''.apply ⟨[(T.lock k, .exclusive)],
          fun s => Layers.lay s (T.version (set r))⟩)) :
    ∀ (ks : List κ) {c : Ctx σ ℓ ε} {Q : Nat → Ctx σ ℓ ε → Prop}, (∀ n c', I [] c' → Q n c') →
      I ks c → wp D (T.updateEach p set ks : Prog ν σ ℓ ε χ Nat) Q E c
  | [], _, _, hQ, h => hQ _ _ h
  | k :: ks, c, Q, hQ, h => by
    have hrest : ∀ (f : Nat → Nat) {c'}, I ks c' →
        wp D (T.updateEach p set ks >>= fun n => pure (f n) : Prog ν σ ℓ ε χ Nat) Q E c' :=
      fun f c' h' => wp_bind.2 (updateEach hI ks (fun n c'' h'' => hQ (f n) c'' h'') h')
    obtain ⟨d, K, hk, hskip, hset⟩ := hI h
    refine wp_bind.2 (hk.updated (fun c' h' _ hno => ?_) fun c' r h' _ hr hkr hp => ?_)
    · exact hrest _ (hskip c' h' hno)
    · exact hrest _ (hset c' r h' hr hkr hp)

omit [Inhabited ν] [DecidableEq κ] in
/-- An INSERT is refused, or writes its row where no such row exists. -/
theorem insertRow (h : Knows D c d K) {taken : σ → Bool} {locks : Held ℓ} {r : ρ} {x : χ}
    {site : ν} {Q : Unit → Ctx σ ℓ ε → Prop} (hx : ∀ c', Knows D c' d K → E x c')
    (hQ : ∀ c', Knows D c' d K → D.allowed site c'.view → taken (Layers.lay c'.db d) = false →
      Q () (c'.apply ⟨locks, fun s => Layers.lay s (T.version r)⟩)) :
    wp D (.exec site (T.inserted taken locks r x) : Prog ν σ ℓ ε χ Unit) Q E c := by
  refine wp_exec.2 fun c' hw ha => ?_
  have h' := h.waits hw
  unfold Rows.inserted
  cases ht : taken c'.view with
  | true => exact hx _ h'.lock
  | false =>
    rw [h'.view] at ht
    exact hQ c' h' ha ht

omit [Inhabited ν] in
/-- A commit: the step it makes, and what the next transaction knows of its own. -/
theorem publish (h : Knows D c d K) {K' : Held ℓ → σ → Prop} {e : ε} {Q : Unit → Ctx σ ℓ ε → Prop}
    (hk : D.Keeps K')
    (hs : ∀ L db, D.inv db → K L db →
      D.step L db e (Layers.lay db d) ∧ K' [] (Layers.lay db d))
    (hQ : ∀ c', Knows D c' (Layers.none σ) K' → Q () c') :
    wp D (.publish e : Prog ν σ ℓ ε χ Unit) Q E c := by
  refine wp_publish.2 fun c' hw => ?_
  have h' := h.waits hw
  obtain ⟨hst, hK⟩ := hs _ _ h'.inv h'.known
  rw [h'.view]
  refine ⟨hst, hQ _ ⟨.start, ?_, ?_, hk⟩⟩
  · show D.inv c'.view
    rw [h'.view]
    exact D.step_inv h'.inv hst
  · show K' [] c'.view
    rw [h'.view]
    exact hK

end Knows

end Rules

end Txn
