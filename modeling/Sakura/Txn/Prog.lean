/-
  Programs of a transactional store.

  A program is a sequence of statements and commits.  A statement looks at what its transaction
  sees (the committed state with the transaction's own writes), takes locks and adds a write; a
  commit publishes the writes and releases the locks; a program that ends or fails with an open
  transaction rolls it back.

  * `Mode`, `Held`, `Compatible`: the locks of a transaction and when two transactions exclude
    each other;
  * `Effect`, `Prog`: statements and programs, with their monad;
  * `Prog.query`, `Prog.exec`, `Prog.check`, `Prog.attempt`, `Prog.catching`, `Prog.mapError`: the forms
    programs are written in;
  * `Prog.Statements`: what all statements of a program have in common.
-/
import Mathlib.Data.List.Basic
import Mathlib.Order.Basic

namespace Txn

variable {ν σ ℓ ε χ α β : Type}

/-! ## Locks -/

/-- A lock is held by many transactions that share it, or by one exclusively. -/
inductive Mode where
  | share | exclusive
  deriving DecidableEq, Repr

/-- The locks of a transaction, held until it ends. -/
abbrev Held (ℓ : Type) := List (ℓ × Mode)

/-- No lock of `L` excludes a lock of `M`. -/
def Compatible (L M : Held ℓ) : Prop :=
  ∀ x ∈ L, ∀ y ∈ M, x.1 = y.1 → x.2 = .share ∧ y.2 = .share

instance [DecidableEq ℓ] (L M : Held ℓ) : Decidable (Compatible L M) :=
  inferInstanceAs (Decidable (∀ x ∈ L, ∀ y ∈ M, x.1 = y.1 → x.2 = .share ∧ y.2 = .share))

theorem Compatible.symm {L M : Held ℓ} (h : Compatible L M) : Compatible M L :=
  fun y hy x hx he => (h x hx y hy he.symm).symm

theorem Compatible.mono {L L' M : Held ℓ} (h : Compatible L' M) (hL : L ⊆ L') : Compatible L M :=
  fun x hx => h x (hL hx)

theorem compatible_nil {M : Held ℓ} : Compatible [] M := fun _ hx => by simp at hx

theorem compatible_append {L L' M : Held ℓ} :
    Compatible (L ++ L') M ↔ Compatible L M ∧ Compatible L' M := by
  simp only [Compatible, List.mem_append]
  exact ⟨fun h => ⟨fun x hx => h x (Or.inl hx), fun x hx => h x (Or.inr hx)⟩,
    fun h x hx => hx.elim (h.1 x) (h.2 x)⟩

/-- Two transactions never hold one lock when one of them holds it exclusively. -/
theorem Compatible.not_mem {L M : Held ℓ} (h : Compatible L M) {k : ℓ} {m : Mode}
    (hk : (k, Mode.exclusive) ∈ L) : (k, m) ∉ M := by
  intro hm
  have := (h _ hk _ hm rfl).1
  simp at this

/-! ## Statements and programs -/

/-- What a statement asks of the store: the locks it waits for and the write it adds. -/
structure Effect (σ ℓ : Type) where
  locks : Held ℓ := []
  write : σ → σ := id

/-- A program over a store `σ`, with locks `ℓ`.  Its statements are labelled in `ν`, its commits
carry an event in `ε`; it returns a value or fails with an error in `χ`.  A rollback drops the writes
and locks of the open transaction. -/
inductive Prog (ν σ ℓ ε χ α : Type) where
  | ret (a : α)
  | fail (x : χ)
  | stmt (site : ν) (effect : σ → Effect σ ℓ) (next : σ → Prog ν σ ℓ ε χ α)
  | commit (event : ε) (next : Prog ν σ ℓ ε χ α)
  | rollback (next : Prog ν σ ℓ ε χ α)

namespace Prog

def bind : Prog ν σ ℓ ε χ α → (α → Prog ν σ ℓ ε χ β) → Prog ν σ ℓ ε χ β
  | ret a, f => f a
  | fail x, _ => fail x
  | stmt site eff next, f => stmt site eff fun v => (next v).bind f
  | commit e next, f => commit e (next.bind f)
  | rollback next, f => rollback (next.bind f)

instance : Monad (Prog ν σ ℓ ε χ) where
  pure := ret
  bind := bind

/-- A statement that only reads. -/
def query (site : ν) (f : σ → α) : Prog ν σ ℓ ε χ α := stmt site (fun _ => {}) fun v => ret (f v)

/-- The outcome of a statement that may lock, write and be refused. -/
structure Outcome (σ ℓ χ α : Type) extends Effect σ ℓ where
  result : Except χ α

/-- A refused statement leaves nothing behind. -/
def refuse (x : χ) : Outcome σ ℓ χ α := { result := .error x }

def ofExcept : Except χ α → Prog ν σ ℓ ε χ α
  | .ok a => ret a
  | .error x => fail x

/-- A statement with its outcome. -/
def exec (site : ν) (f : σ → Outcome σ ℓ χ α) : Prog ν σ ℓ ε χ α :=
  stmt site (fun v => (f v).toEffect) fun v => ofExcept (f v).result

/-- The program goes on only if `p` holds. -/
@[irreducible] def check (p : Prop) [Decidable p] (x : χ) : Prog ν σ ℓ ε χ Unit :=
  if p then ret () else fail x

/-- The row found, or the error. -/
def orFail (x : χ) : Option α → Prog ν σ ℓ ε χ α
  | some a => ret a
  | none => fail x

/-- Publish the writes of the open transaction. -/
def publish (e : ε) : Prog ν σ ℓ ε χ Unit := commit e (ret ())

/-- Run `p`; if it fails, roll back and go on with the error. -/
def attempt : Prog ν σ ℓ ε χ α → Prog ν σ ℓ ε χ (Except χ α)
  | ret a => ret (.ok a)
  | fail x => rollback (ret (.error x))
  | stmt site eff next => stmt site eff fun v => (next v).attempt
  | commit e next => commit e next.attempt
  | rollback next => rollback next.attempt

/-- The same for a caller with errors of its own. -/
def catching {χ' : Type} : Prog ν σ ℓ ε χ α → Prog ν σ ℓ ε χ' (Except χ α)
  | ret a => ret (.ok a)
  | fail x => rollback (ret (.error x))
  | stmt site eff next => stmt site eff fun v => (next v).catching
  | commit e next => commit e next.catching
  | rollback next => rollback next.catching

/-- The program with its error handed on as `f` of it. -/
def mapError {χ' : Type} (f : χ → χ') : Prog ν σ ℓ ε χ α → Prog ν σ ℓ ε χ' α
  | ret a => ret a
  | fail x => fail (f x)
  | stmt site eff next => stmt site eff fun v => (next v).mapError f
  | commit e next => commit e (next.mapError f)
  | rollback next => rollback (next.mapError f)

/-! ## Statements of a program -/

/-- Every statement, where it sees `v`, has an effect with `S v`; nothing is committed. -/
def Statements (S : σ → Effect σ ℓ → Prop) : Prog ν σ ℓ ε χ α → Prop
  | ret _ => True
  | fail _ => True
  | stmt _ eff next => ∀ v, S v (eff v) ∧ (next v).Statements S
  | commit _ _ => False
  | rollback _ => False

section

variable {S : σ → Effect σ ℓ → Prop}

theorem Statements.bind {f : α → Prog ν σ ℓ ε χ β} : ∀ {p : Prog ν σ ℓ ε χ α}, p.Statements S →
    (∀ a, (f a).Statements S) → (p >>= f).Statements S
  | ret a, _, hf => hf a
  | fail _, _, _ => trivial
  | stmt _ _ next, hp, hf => fun v => ⟨(hp v).1, Statements.bind (p := next v) (hp v).2 hf⟩
  | commit _ _, hp, _ => hp.elim
  | rollback _, hp, _ => hp.elim

theorem statements_pure {a : α} : (pure a : Prog ν σ ℓ ε χ α).Statements S := trivial

theorem statements_query {site : ν} {f : σ → α} (h : ∀ v, S v {}) :
    (query site f : Prog ν σ ℓ ε χ α).Statements S :=
  fun v => ⟨h v, trivial⟩

theorem statements_exec {site : ν} {f : σ → Outcome σ ℓ χ α} (h : ∀ v, S v (f v).toEffect) :
    (exec site f : Prog ν σ ℓ ε χ α).Statements S := by
  refine fun v => ⟨h v, ?_⟩
  show (ofExcept (f v).result).Statements S
  cases (f v).result <;> trivial

theorem statements_check {p : Prop} [Decidable p] {x : χ} :
    (check p x : Prog ν σ ℓ ε χ Unit).Statements S := by
  unfold check; split <;> trivial

theorem statements_orFail {x : χ} {o : Option α} :
    (orFail x o : Prog ν σ ℓ ε χ α).Statements S := by
  cases o <;> trivial

end

end Prog

end Txn
