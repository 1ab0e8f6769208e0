/-
  The idempotency keys of tasks.

  No transaction of the queue changes the key of a task or removes one.

  * `Keyed`: what the transactions leave of the keys;
  * `queueStep_keyed`: all of it for one step.
-/
import Sakura.Queue.Workers

namespace Sakura.Queue

open Txn

/-- A task has the key. -/
def Used (tasks : List Task) (key : String) : Prop := ∃ t ∈ tasks, t.idempotencyKey = key

/-- The keys of the tasks are the same, and the ids are unique if they were. -/
def Keyed (db db' : Store) : Prop :=
  UniqueBy Task.id db.tasks → UniqueBy Task.id db'.tasks ∧
    ∀ key, Used db'.tasks key ↔ Used db.tasks key

section

variable {db db' db'' : Store}

theorem Keyed.refl (db : Store) : Keyed db db := fun h => ⟨h, fun _ => Iff.rfl⟩

theorem Keyed.trans (h : Keyed db db') (h' : Keyed db' db'') : Keyed db db'' := fun hu => by
  obtain ⟨hu', hk⟩ := h hu
  obtain ⟨hu'', hk'⟩ := h' hu'
  exact ⟨hu'', fun key => (hk' key).trans (hk key)⟩

/-- Versions of other tables. -/
theorem Keyed.aside {δ : Versions} (ht : δ.tasks = []) : Keyed db (db.overlay δ) := by
  have htasks : (db.overlay δ).tasks = db.tasks := by simp [Store.overlay, ht]
  exact fun hu => ⟨by rw [htasks]; exact hu, fun key => by rw [htasks]⟩

/-- A version of one task. -/
theorem Keyed.task {t t' : Task} (ht : t ∈ db.tasks) (hid : t'.id = t.id)
    (hkey : t'.idempotencyKey = t.idempotencyKey) : Keyed db (db.overlay { tasks := [t'] }) := by
  intro hu
  have htasks : (db.overlay { tasks := [t'] }).tasks = put Task.id db.tasks t' := rfl
  rw [htasks]
  refine ⟨hu.put fun _ _ e => e, fun key => ⟨?_, ?_⟩⟩
  · rintro ⟨x, hx, hk⟩
    rcases mem_put.1 hx with ⟨hx, -⟩ | rfl
    · exact ⟨x, hx, hk⟩
    · exact ⟨t, ht, hkey.symm.trans hk⟩
  · rintro ⟨x, hx, hk⟩
    by_cases he : x.id = t'.id
    · rw [hu.eq hx ht (he.trans hid)] at hk
      exact ⟨t', mem_put.2 (.inr rfl), hkey.trans hk⟩
    · exact ⟨x, mem_put.2 (.inl ⟨hx, he⟩), hk⟩

end

/-! ## Transactions -/

section

variable {db : Store} {w : Worker} {now : Time} {entry : Nat} {task : ClaimedTask}

/-- The statements of a transaction that keeps the keys. -/
abbrev KeepsKeys : Store → Effect Store Lock → Prop := fun v e => Keyed v (e.write v)

theorem claim_keyed {pick : UUID} : (claim w now pick).Effects KeepsKeys := by
  unfold claim
  refine (Rows.statements_lockRow fun v _ => .refl v).effects.bind fun o => ?_
  cases o with
  | none => exact Prog.effects_pure
  | some t =>
    refine (Rows.statements_updateRow (fun v _ => .refl v) fun v t ht _ => ?_).effects.bind
      fun _ => ?_
    · exact .task ht rfl rfl
    refine (claimRequest_statements (fun v _ => .refl v) fun _ _ _ => .aside rfl).effects.bind
      fun _ => ?_
    exact Prog.effects_publish.bind fun _ => Prog.effects_pure

theorem keepLease_keyed {taskID : UUID} : (keepLease w now taskID).Effects KeepsKeys := by
  unfold keepLease
  refine (Rows.statements_updateRow (fun v _ => .refl v) fun v t ht _ => ?_).effects.bind
    fun _ => Prog.effects_publish.bind fun _ => Prog.effects_pure
  exact .task ht rfl rfl

theorem finish_keyed : (finish w now task).Effects KeepsKeys := by
  unfold finish
  refine (Rows.statements_updateRow (fun v _ => .refl v) fun v t ht _ => ?_).effects.bind
    fun _ => Prog.effects_publish
  exact .task ht rfl rfl

theorem fail_keyed {failure : Failure} : (fail w now entry task failure).Effects KeepsKeys := by
  unfold fail
  refine (storeError_statements (fun v _ => .refl v) fun text v t ht _ => ?_).effects.bind
    fun _ => ?_
  · exact .task ht rfl rfl
  refine (failDomain_statements (fun v _ => .refl v) ?_ ?_).effects.bind
    fun _ => Prog.effects_publish
  · exact fun ht _ _ _ => .aside ht
  · exact fun _ _ _ _ _ _ => .aside rfl

theorem retryTask_keyed {id : UUID} : (retryTask now id).Effects KeepsKeys := by
  unfold retryTask
  refine (Rows.statements_updateRow (fun v _ => .refl v) fun v t ht _ => ?_).effects.bind
    fun _ => ?_
  · exact .task ht rfl rfl
  refine Prog.statements_check.effects.bind fun _ => ?_
  refine (Rows.statements_updateRow (fun v _ => .refl v) fun _ _ _ _ => ?_).effects.bind
    fun _ => Prog.effects_publish
  exact .aside rfl

theorem keyed_alone {ε χ α : Type} {p : Prog Site Store Lock ε χ α} (h : p.Effects KeepsKeys) :
    Keyed db (p.alone db).1 :=
  Prog.alone_rel .refl (fun _ _ _ => .trans) h db

end

/-- **A step of the queue** keeps the keys of the tasks. -/
theorem queueStep_keyed {γ : Type} {start : γ} {outcome : γ → Option (Option Failure)}
    {l : QueueStep} {s s' : Workers γ} (h : s.queueStep start outcome l = some s') :
    Keyed s.db s'.db := by
  cases l with
  | claim w now pick =>
    simp only [Workers.queueStep] at h
    split at h
    · next db task hc =>
      cases h
      have hdb : db = ((claim w now pick).alone s.db).1 := by rw [hc]
      exact hdb ▸ keyed_alone claim_keyed
    · cases h
  | keepLease w now id =>
    cases h
    exact keyed_alone keepLease_keyed
  | retryTask now id =>
    cases h
    exact keyed_alone retryTask_keyed
  | settle n now entry =>
    simp only [Workers.queueStep] at h
    split at h
    · cases h
    · split at h
      · cases h
      · cases h
        exact keyed_alone finish_keyed
      · cases h
        exact keyed_alone fail_keyed
  | crash n =>
    cases h
    exact .refl _

end Sakura.Queue
