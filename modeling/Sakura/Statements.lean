/-
  What the statements of the platform code write.

  * `Writes`: a statement that writes versions of a given kind;
  * `assignMembershipTx_writes`, `itemEffect_writes`: a grant writes memberships, the effect of an item
    a membership, a tag assignment or a notification;
  * `run_selectLock`: what a locking read has found.
-/
import Sakura.Batch
import Sakura.Txn.Single

namespace Sakura

open Txn

variable {α β ρ : Type}

/-- The statement writes versions that satisfy `T`. -/
def Writes (T : Versions → Prop) (_ : DB) (f : Effect DB Lock) : Prop :=
  ∃ δ, T δ ∧ ∀ db, f.write db = db.overlay δ

/-- All statements of the program write versions that satisfy `T`, and nothing is committed. -/
abbrev OnlyWrites (T : Versions → Prop) (p : Call α) : Prop := p.Statements (Writes T)

variable {T : Versions → Prop}

theorem writes_locks (h₀ : T {}) {v : DB} {locks : Held Lock} : Writes T v ⟨locks, id⟩ :=
  ⟨{}, h₀, fun _ => (DB.overlay_none _).symm⟩

theorem writes_overlay {δ : Versions} (h : T δ) {v : DB} {locks : Held Lock} :
    Writes T v ⟨locks, fun db => db.overlay δ⟩ :=
  ⟨δ, h, fun _ => rfl⟩

theorem writes_insertEffects (h₀ : T {}) {δ : Versions} (h : T δ) {v : DB} {keys : List IndexKey}
    {x : Err} : Writes T v (insertEffects keys δ x v).toEffect := by
  unfold insertEffects
  split
  · exact writes_locks h₀
  · exact writes_overlay h

/-! ## Forms of statements -/

theorem OnlyWrites.bind {p : Call α} {f : α → Call β} (h : OnlyWrites T p)
    (hf : ∀ a, OnlyWrites T (f a)) : OnlyWrites T (p >>= f) :=
  Prog.Statements.bind h hf

theorem pure_writes {a : α} : OnlyWrites T (pure a) := Prog.statements_pure

theorem check_writes {p : Prop} [Decidable p] {x : Err} : OnlyWrites T (.check p x) :=
  Prog.statements_check

theorem orFail_writes {x : Err} {o : Option α} : OnlyWrites T (.orFail x o) :=
  Prog.statements_orFail

theorem select_writes (h₀ : T {}) {f : DB → α} : OnlyWrites T (select f) :=
  Prog.statements_query fun _ => writes_locks h₀

theorem selectOne_writes (h₀ : T {}) {x : Err} {f : DB → Option α} :
    OnlyWrites T (selectOne x f) :=
  (select_writes h₀).bind fun _ => orFail_writes

theorem selectLock_writes (h₀ : T {}) {table : Table} {mode : Mode} {rows : DB → List ρ}
    {key : ρ → UUID} {p : ρ → Bool} {site : UUID → Site} :
    OnlyWrites T (selectLock table mode rows key p site) := by
  refine (select_writes h₀).bind fun o => ?_
  cases o with
  | none => exact pure_writes
  | some r => exact Prog.statements_exec fun _ => writes_locks h₀

theorem updateRow_writes (h₀ : T {}) {table : Table} {rows : DB → List ρ} {key : ρ → UUID}
    {p : ρ → Bool} {set : ρ → Versions} (h : ∀ r, T (set r)) :
    OnlyWrites T (updateRow table rows key p set) := by
  refine (select_writes h₀).bind fun o => ?_
  cases o with
  | none => exact pure_writes
  | some r =>
    refine Prog.statements_exec fun v => ?_
    split
    · exact writes_locks h₀
    · exact writes_overlay (h _)

theorem insert_writes (h₀ : T {}) {δ : Versions} (h : T δ) {keys : List IndexKey} {x : Err} :
    OnlyWrites T (insert keys δ x) :=
  Prog.statements_exec fun _ => writes_insertEffects h₀ h

theorem insertOrIgnore_writes (h₀ : T {}) {δ : Versions} (h : T δ) {conflict : IndexKey}
    {keys : List IndexKey} {x : Err} : OnlyWrites T (insertOrIgnore conflict keys δ x) := by
  refine Prog.statements_exec fun v => ?_
  split
  · exact writes_locks h₀
  · exact writes_insertEffects h₀ h

/-! ## Memberships -/

section

variable (h₀ : T {}) (hm : ∀ m, T { memberships := [m] })
include h₀ hm

theorem expireMemberships_writes {accountID : UUID} :
    ∀ ids : List UUID, OnlyWrites T (expireMemberships accountID ids)
  | [] => pure_writes
  | id :: ids => by
    refine OnlyWrites.bind (Prog.statements_exec fun v => ?_) fun _ => expireMemberships_writes ids
    split
    · exact writes_locks h₀
    · exact writes_overlay (hm _)

theorem assignMembershipTx_writes {fresh : Fresh} {accountID planID : UUID} {startsAt : Int}
    {durationDays : Int64} {source sourceRef : String} {actor : Actor} :
    OnlyWrites T (assignMembershipTx fresh accountID planID startsAt durationDays source sourceRef
      actor) := by
  unfold assignMembershipTx
  refine (selectLock_writes h₀).bind fun _ => orFail_writes.bind fun _ => check_writes.bind fun _ => ?_
  refine (selectLock_writes h₀).bind fun _ => (select_writes h₀).bind fun _ => ?_
  refine (expireMemberships_writes h₀ hm _).bind fun _ => ?_
  exact (insert_writes h₀ (hm _)).bind fun _ => pure_writes

/-! ## Effects of items -/

variable (ht : ∀ t, T { tagAssignments := [t] }) (hn : ∀ n, T { notifications := [n] })

omit hm in
include ht in
theorem addTag_writes {accountID tagID : UUID} {actor : Actor} :
    OnlyWrites T (addTag accountID tagID actor) :=
  (select_writes h₀).bind fun _ => check_writes.bind fun _ => insertOrIgnore_writes h₀ (ht _)

omit hm in
include ht in
theorem removeTag_writes {accountID tagID : UUID} : OnlyWrites T (removeTag accountID tagID) := by
  refine (select_writes h₀).bind fun o => ?_
  split
  · exact pure_writes
  · refine Prog.statements_exec fun v => ?_
    split
    · exact writes_locks h₀
    · exact writes_overlay (ht _)

omit hm in
include hn in
theorem notify_writes {fresh : Fresh} {operation : BatchOperation} {accountID : UUID} :
    OnlyWrites T (notify fresh operation accountID) := by
  unfold notify
  refine OnlyWrites.bind ((select_writes h₀).bind fun o => ?_) fun b => ?_
  · split <;> exact pure_writes
  · split
    · exact pure_writes
    · refine (select_writes h₀).bind fun _ => check_writes.bind fun _ => check_writes.bind fun _ => ?_
      exact insertOrIgnore_writes h₀ (hn _)

include ht hn in
/-- The effect of an item writes a membership, a tag assignment or a notification. -/
theorem itemEffect_writes {fresh : Fresh} {operation : BatchOperation} {accountID : UUID}
    {actor : Actor} : OnlyWrites T (itemEffect fresh operation accountID actor) := by
  unfold itemEffect
  split
  · exact orFail_writes.bind fun _ => (addTag_writes h₀ ht).bind fun _ => pure_writes
  · exact orFail_writes.bind fun _ => (removeTag_writes h₀ ht).bind fun _ => pure_writes
  · exact orFail_writes.bind fun _ => (assignMembershipTx_writes h₀ hm).bind fun _ => pure_writes
  · exact (notify_writes h₀ hn).bind fun _ => pure_writes

end

/-! ## Runs -/

theorem find?_and {p q : ρ → Bool} : ∀ {rows : List ρ} {r : ρ}, rows.find? p = some r → q r →
    rows.find? (fun r' => q r' && p r') = some r
  | r' :: rows, r, h, hq => by
    cases hp : p r' with
    | true =>
      rw [List.find?_cons_of_pos hp] at h
      obtain rfl := Option.some_inj.1 h
      rw [List.find?_cons_of_pos (by simp [hp, hq])]
    | false =>
      rw [List.find?_cons_of_neg (by simp [hp])] at h ⊢
      exact find?_and h hq

/-- A locking read on its own finds the first row. -/
theorem run_selectLock {table : Table} {mode : Mode} {rows : DB → List ρ} {key : ρ → UUID}
    {p : ρ → Bool} {site : UUID → Site} {v v' : DB} {o : Option ρ}
    (h : (selectLock table mode rows key p site).run v = some (o, v')) :
    v' = v ∧ o = (rows v).find? p := by
  unfold selectLock at h
  obtain ⟨found, v₁, h₁, h₂⟩ := Prog.run_bind_some h
  cases h₁
  split at h₂
  · next hnone =>
    cases h₂
    exact ⟨rfl, hnone.symm⟩
  · next r₀ hr₀ =>
    cases h₂
    exact ⟨rfl, (find?_and hr₀ (decide_eq_true rfl)).trans hr₀.symm⟩

end Sakura
