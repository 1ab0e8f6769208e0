/-
  The saves of plans, products, lines, instances and automation rules.

  * `Item.save`: the save that all of them make;
  * `savePlan`, `saveRechargeProduct`, …: those of the requests;
  * `Request`, `Request.call`: a call, with what it checks in other tables.
-/
import Sakura.Catalog.Schema

namespace Sakura.Catalog

open Txn

/-- The names and kinds of the credentials. -/
structure Rest where
  credentials : List (String × String) := []

abbrev Store := Saves.Shelf Row Rest

abbrev Lock := Saves.Lock (Kind × UUID) Entry

abbrev Save := Saves.Save Row Err

/-- Statements have no labels. -/
abbrev Call := Prog Unit Store Lock Save Err Unit

/-! ## Saves -/

/-- The row `id`, expected in a revision, or a new row `newID`. -/
structure Place where
  newID : UUID
  id : Option UUID := none
  expected : Int64 := 0

/-- The content is written to its place; any refusal of the statement is a conflict. -/
def Item.save (p : Place) (item : Item) : Save where
  target := p.id.map fun id => ((item.kind, id), p.expected.toInt)
  fresh := { id := p.newID, item }
  set r := { r with item := r.item.over item, revision := r.revision + 1 }
  permits _ := true
  stores r := r.item.stores
  missing := .notFound
  stale := .conflict
  forbidden := .forbidden
  refused := .conflict
  key_set := by
    intro k n r ht hk
    obtain ⟨id, -, h⟩ := Option.map_eq_some_iff.1 ht
    obtain ⟨rfl, -⟩ := Prod.mk.inj h
    obtain ⟨-, rfl⟩ := Prod.mk.inj hk
    simp only [Saves.Saved.key, Item.kind_over]
  revision_set _ _ := rfl
  mark_set := by
    intro k n r _ _
    simp only [Saves.Saved.mark, Item.isDefault_over, Item.kind_over]

section

variable (lower : Char → Char) (parse : String → Option URL)

/-- `SavePlan` -/
def savePlan (p : Place) (b : MembershipPlanBody) : Option Save :=
  (b.item lower).map fun x => (Item.membershipPlan x).save p

/-- `SaveRechargeProduct` -/
def saveRechargeProduct (p : Place) (b : RechargeProductBody) : Option Save :=
  (b.item lower).map fun x => (Item.rechargeProduct x).save p

/-- `SaveMembershipProduct` -/
def saveMembershipProduct (p : Place) (b : MembershipProductBody) : Option Save :=
  (b.item lower).map fun x => (Item.membershipProduct x).save p

/-- `SaveLine` -/
def saveLine (p : Place) (b : LineEndpointBody) : Option Save :=
  (b.item lower parse).map fun x => (Item.lineEndpoint x).save p

/-- `SaveInstance` -/
def saveInstance (p : Place) (b : EmbyInstanceBody) : Option Save :=
  (b.item lower parse).map fun x => (Item.embyInstance x).save p

/-- `SaveAutomationRule` -/
def saveAutomationRule (p : Place) (b : AutomationRuleBody) (actor : Actor) : Option Save :=
  (b.item lower actor.label).map fun x => (Item.automationRule x).save p

/-! ## Calls -/

inductive Request where
  | membershipPlan (p : Place) (b : MembershipPlanBody)
  | rechargeProduct (p : Place) (b : RechargeProductBody)
  | membershipProduct (p : Place) (b : MembershipProductBody)
  | lineEndpoint (p : Place) (b : LineEndpointBody)
  | embyInstance (p : Place) (b : EmbyInstanceBody)
  | automationRule (p : Place) (b : AutomationRuleBody) (actor : Actor)

/-- The save of a valid request. -/
def Request.save : Request → Option Save
  | membershipPlan p b => savePlan lower p b
  | rechargeProduct p b => saveRechargeProduct lower p b
  | membershipProduct p b => saveMembershipProduct lower p b
  | lineEndpoint p b => saveLine lower parse p b
  | embyInstance p b => saveInstance lower parse p b
  | automationRule p b actor => saveAutomationRule lower p b actor

/-- `SELECT enabled FROM membership_plans WHERE id=…` -/
def planEnabled (id : UUID) (v : Store) : Bool :=
  v.rows.any fun r => decide (r.id = id) && match r.item with
    | .membershipPlan x => x.enabled
    | _ => false

/-- `SELECT EXISTS(SELECT 1 FROM credentials WHERE name=… AND kind IN (…))` -/
def credentialExists (name : String) (v : Store) : Bool :=
  v.rest.credentials.any fun c => c.1 = name && c.2 ∈ ["emby_api_token", "api_token", "emby"]

/-- What a call looks for in another table before its save. -/
def Request.found : Request → Store → Bool
  | membershipProduct _ b, v => planEnabled b.planID v
  | embyInstance _ b, v => credentialExists (trimSpace b.credentialName) v
  | _, _ => true

/-- The call of a request. -/
def Request.call (r : Request) : Call :=
  match r.save lower parse with
  | none => .fail .invalid
  | some c => do
    .check (← read r.found) .notFound
    c.run

end

end Sakura.Catalog
