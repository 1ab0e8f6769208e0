/-
  What administrators set up: plans, products, lines, instances and automation rules (platform/membership.go,
  commerce.go, access_lines.go, emby.go, community.go).

  * `MembershipPlan`, `RechargeProduct`, …: valid contents, `MembershipPlanBody.item`, …: those of requests;
  * `Item`, `Row`: a row of one of the tables;
  * `Item.stores`: what the columns take.
-/
import Sakura.Risk.Rules
import Sakura.Txn.Saves

namespace Sakura.Catalog

open Settings Risk Txn

/-! ## Checks -/

/-- `^[a-z][a-z0-9_.-]{2,63}$` -/
def codePattern : String → Bool :=
  matchesHeadTail isLowerAscii
    (fun c => isLowerAscii c || isDigitAscii c || c = '_' || c = '.' || c = '-') 2 63

/-- `^[A-Z]{3,8}$` -/
def paymentPattern : String → Bool := matchesHeadTail isUpperAscii isUpperAscii 2 7

/-- `max_emby_accounts` is a whole number from 1 to 100. -/
def validEntitlements : Option Object → Bool
  | none => false
  | some entitlements => match entitlements.get "max_emby_accounts" with
    | .number n => 1 ≤ n && n ≤ 100 && n.den = 1
    | _ => false

/-- What `url.Parse` finds. -/
structure URL where
  scheme : String
  host : String
  user : Bool := false
  rawQuery : String := ""
  fragment : String := ""

def URL.web (u : URL) : Bool := (u.scheme = "http" || u.scheme = "https") && u.host ≠ "" && !u.user

/-- `strings.TrimRight(value, "/")` -/
def trimSlashes (value : String) : String :=
  String.ofList (value.toList.reverse.dropWhile (· = '/')).reverse

def audiences : List String := ["all", "member", "admin"]

/-- `validAutomationActions`; a type that is no string is printed as none of these names. -/
def validAutomationActions (lower : Char → Char) (actions : List Object) : Bool :=
  actions.all fun action =>
    String.ofList (folded lower (stringValue (action.get "type"))) ∈
      ["notify_account", "submit_moviepilot", "set_request_status"]

/-! ## Contents -/

structure MembershipPlan where
  code : String
  name : String
  description : String
  durationDays : Int
  entitlements : Object
  enabled : Bool
  isDefault : Bool
  sortOrder : Int
  valid : codePattern code ∧ name ≠ "" ∧ name.utf8ByteSize ≤ 100 ∧ description.utf8ByteSize ≤ 1000 ∧
    1 ≤ durationDays ∧ durationDays ≤ 3650 ∧ validEntitlements (some entitlements)

structure RechargeProduct where
  code : String
  name : String
  description : String
  priceMinor : Int
  paymentCurrency : String
  grantAmount : Int
  walletCurrency : String
  enabled : Bool
  sortOrder : Int
  valid : codePattern code ∧ name ≠ "" ∧ name.utf8ByteSize ≤ 120 ∧ description.utf8ByteSize ≤ 1000 ∧
    0 < priceMinor ∧ 0 < grantAmount ∧ currencyPattern walletCurrency ∧ paymentPattern paymentCurrency

structure MembershipProduct where
  code : String
  name : String
  planId : UUID
  durationDays : Int
  priceAmount : Int
  walletCurrency : String
  enabled : Bool
  sortOrder : Int
  valid : codePattern code ∧ name ≠ "" ∧ name.utf8ByteSize ≤ 120 ∧ 1 ≤ durationDays ∧
    durationDays ≤ 3650 ∧ 0 < priceAmount ∧ currencyPattern walletCurrency

structure LineEndpoint where
  name : String
  baseURL : String
  region : String
  carrier : String
  audience : String
  weight : Int
  sortOrder : Int
  enabled : Bool
  maintenance : Bool
  valid : name ≠ "" ∧ name.utf8ByteSize ≤ 120 ∧ audience ∈ audiences ∧ 0 ≤ weight ∧ weight ≤ 100000

inductive InstanceStatus where
  | unknown | healthy | degraded | unhealthy | disabled
  deriving DecidableEq, Repr

structure EmbyInstance where
  name : String
  baseURL : String
  credentialName : String
  enabled : Bool
  isDefault : Bool
  verifyTLS : Bool
  priority : Int
  status : InstanceStatus
  valid : name ≠ "" ∧ name.utf8ByteSize ≤ 120 ∧ baseURL.utf8ByteSize ≤ 512 ∧ credentialName ≠ "" ∧
    0 ≤ priority ∧ priority ≤ 100000

structure AutomationRule where
  code : String
  name : String
  description : String
  triggerEvent : String
  conditions : Object
  actions : List Object
  enabled : Bool
  priority : Int
  createdBy : String
  valid : code ≠ "" ∧ code.utf8ByteSize ≤ 80 ∧ name ≠ "" ∧ name.utf8ByteSize ≤ 160 ∧ triggerEvent ≠ "" ∧
    triggerEvent.utf8ByteSize ≤ 80 ∧ actions ≠ [] ∧ 0 ≤ priority ∧ priority ≤ 100000

/-! ## Requests -/

structure MembershipPlanBody where
  code : String
  name : String
  description : String := ""
  durationDays : Int64
  entitlements : Option Object
  enabled : Bool := true
  isDefault : Bool := false
  sortOrder : Int64 := 0

structure RechargeProductBody where
  code : String
  name : String
  description : String := ""
  priceMinor : Int64
  grantAmount : Int64
  paymentCurrency : String
  walletCurrency : String := ""
  enabled : Bool := true
  sortOrder : Int64 := 0

structure MembershipProductBody where
  code : String
  name : String
  planID : UUID
  durationDays : Int64
  priceAmount : Int64
  walletCurrency : String := ""
  enabled : Bool := true
  sortOrder : Int64 := 0

structure LineEndpointBody where
  name : String
  baseURL : String
  region : String := ""
  carrier : String := ""
  audience : String := "all"
  weight : Int64 := 100
  sortOrder : Int64 := 0
  enabled : Bool := true
  maintenance : Bool := false

structure EmbyInstanceBody where
  name : String
  baseURL : String
  credentialName : String
  enabled : Bool := true
  isDefault : Bool := false
  verifyTLS : Bool := true
  priority : Int64 := 100

structure AutomationRuleBody where
  code : String
  name : String
  description : String := ""
  triggerEvent : String
  conditions : Object := []
  actions : List Object
  enabled : Bool := true
  priority : Int64 := 100

/-- `normalizeCurrency` -/
def normalizeCurrency (value : String) : String :=
  let value := toUpper (trimSpace value)
  if value = "" then "POINTS" else value

section

variable (lower : Char → Char) (parse : String → Option URL)

def MembershipPlanBody.item (b : MembershipPlanBody) : Option MembershipPlan :=
  let code := String.ofList (folded lower b.code)
  let name := trimSpace b.name
  let description := trimSpace b.description
  if h : codePattern code ∧ name ≠ "" ∧ name.utf8ByteSize ≤ 100 ∧ description.utf8ByteSize ≤ 1000 ∧
      1 ≤ b.durationDays.toInt ∧ b.durationDays.toInt ≤ 3650 ∧
      validEntitlements (some (b.entitlements.getD [])) then
    some { b with
      code, name, description
      durationDays := b.durationDays.toInt
      entitlements := b.entitlements.getD []
      sortOrder := b.sortOrder.toInt
      valid := h }
  else none

def RechargeProductBody.item (b : RechargeProductBody) : Option RechargeProduct :=
  let code := String.ofList (folded lower b.code)
  let name := trimSpace b.name
  let description := trimSpace b.description
  let paymentCurrency := toUpper (trimSpace b.paymentCurrency)
  let walletCurrency := normalizeCurrency b.walletCurrency
  if h : codePattern code ∧ name ≠ "" ∧ name.utf8ByteSize ≤ 120 ∧ description.utf8ByteSize ≤ 1000 ∧
      0 < b.priceMinor.toInt ∧ 0 < b.grantAmount.toInt ∧ currencyPattern walletCurrency ∧
      paymentPattern paymentCurrency then
    some { b with
      code, name, description, paymentCurrency, walletCurrency
      priceMinor := b.priceMinor.toInt
      grantAmount := b.grantAmount.toInt
      sortOrder := b.sortOrder.toInt
      valid := h }
  else none

def MembershipProductBody.item (b : MembershipProductBody) : Option MembershipProduct :=
  let code := String.ofList (folded lower b.code)
  let name := trimSpace b.name
  let walletCurrency := normalizeCurrency b.walletCurrency
  if h : codePattern code ∧ name ≠ "" ∧ name.utf8ByteSize ≤ 120 ∧ 1 ≤ b.durationDays.toInt ∧
      b.durationDays.toInt ≤ 3650 ∧ 0 < b.priceAmount.toInt ∧ currencyPattern walletCurrency then
    some { b with
      code, name, walletCurrency
      planId := b.planID
      durationDays := b.durationDays.toInt
      priceAmount := b.priceAmount.toInt
      sortOrder := b.sortOrder.toInt
      valid := h }
  else none

def LineEndpointBody.item (b : LineEndpointBody) : Option LineEndpoint :=
  let name := trimSpace b.name
  let baseURL := trimSlashes (trimSpace b.baseURL)
  let audience := String.ofList (folded lower b.audience)
  match parse baseURL with
  | none => none
  | some url =>
    if h : url.web ∧ name ≠ "" ∧ name.utf8ByteSize ≤ 120 ∧ audience ∈ audiences ∧
        0 ≤ b.weight.toInt ∧ b.weight.toInt ≤ 100000 then
      some { b with
        name, baseURL, audience
        region := trimSpace b.region
        carrier := trimSpace b.carrier
        weight := b.weight.toInt
        sortOrder := b.sortOrder.toInt
        valid := h.2 }
    else none

/-- The address of a server, without the path of its interface. -/
def instanceURL (baseURL : String) : String :=
  let url := trimSlashes (trimSpace baseURL)
  let suffix := "/emby".toList
  if suffix.isSuffixOf (url.toList.map lower) then
    trimSlashes (String.ofList (url.toList.take (url.toList.length - suffix.length)))
  else url

def EmbyInstanceBody.item (b : EmbyInstanceBody) : Option EmbyInstance :=
  let name := trimSpace b.name
  let baseURL := instanceURL lower b.baseURL
  let credentialName := trimSpace b.credentialName
  match parse baseURL with
  | none => none
  | some url =>
    if h : (url.web ∧ url.rawQuery = "" ∧ url.fragment = "") ∧ name ≠ "" ∧ name.utf8ByteSize ≤ 120 ∧
        baseURL.utf8ByteSize ≤ 512 ∧ credentialName ≠ "" ∧ 0 ≤ b.priority.toInt ∧
        b.priority.toInt ≤ 100000 then
      some { b with
        name, baseURL, credentialName
        priority := b.priority.toInt
        status := if b.enabled then .unknown else .disabled
        valid := h.2 }
    else none

/-- `createdBy` is the caller, who makes a new rule. -/
def AutomationRuleBody.item (b : AutomationRuleBody) (createdBy : String) : Option AutomationRule :=
  let code := String.ofList (folded lower b.code)
  let name := trimSpace b.name
  let triggerEvent := String.ofList (folded lower b.triggerEvent)
  if h : validAutomationActions lower b.actions ∧ code ≠ "" ∧ code.utf8ByteSize ≤ 80 ∧ name ≠ "" ∧
      name.utf8ByteSize ≤ 160 ∧ triggerEvent ≠ "" ∧ triggerEvent.utf8ByteSize ≤ 80 ∧ b.actions ≠ [] ∧
      0 ≤ b.priority.toInt ∧ b.priority.toInt ≤ 100000 then
    some { b with
      code, name, triggerEvent, createdBy
      description := (varchar 500 b.description).toOption.getD b.description
      priority := b.priority.toInt
      valid := h.2 }
  else none

end

/-! ## Rows -/

inductive Kind where
  | membershipPlan | rechargeProduct | membershipProduct | lineEndpoint | embyInstance | automationRule
  deriving DecidableEq, Repr

inductive Item where
  | membershipPlan (x : MembershipPlan)
  | rechargeProduct (x : RechargeProduct)
  | membershipProduct (x : MembershipProduct)
  | lineEndpoint (x : LineEndpoint)
  | embyInstance (x : EmbyInstance)
  | automationRule (x : AutomationRule)

def Item.kind : Item → Kind
  | .membershipPlan _ => .membershipPlan
  | .rechargeProduct _ => .rechargeProduct
  | .membershipProduct _ => .membershipProduct
  | .lineEndpoint _ => .lineEndpoint
  | .embyInstance _ => .embyInstance
  | .automationRule _ => .automationRule

/-- An entry of a unique index: on a code or name, on an address, and on the default of a table. -/
inductive Entry where
  | code (kind : Kind) (text : String)
  | baseURL (kind : Kind) (text : String)
  | default (kind : Kind)
  deriving DecidableEq

def Item.codes : Item → List Entry
  | .membershipPlan x => [.code .membershipPlan x.code]
  | .rechargeProduct x => [.code .rechargeProduct x.code]
  | .membershipProduct x => [.code .membershipProduct x.code]
  | .lineEndpoint x => [.baseURL .lineEndpoint x.baseURL]
  | .embyInstance x => [.code .embyInstance x.name, .baseURL .embyInstance x.baseURL]
  | .automationRule x => [.code .automationRule x.code]

def Item.isDefault : Item → Bool
  | .membershipPlan x => x.isDefault
  | .embyInstance x => x.isDefault
  | _ => false

/-- `is_default=FALSE` -/
def Item.unmark : Item → Item
  | .membershipPlan x => .membershipPlan { x with isDefault := false }
  | .embyInstance x => .embyInstance { x with isDefault := false }
  | item => item

@[simp] theorem Item.kind_unmark (item : Item) : item.unmark.kind = item.kind := by cases item <;> rfl

@[simp] theorem Item.codes_unmark (item : Item) : item.unmark.codes = item.codes := by cases item <;> rfl

@[simp] theorem Item.isDefault_unmark (item : Item) : item.unmark.isDefault = false := by
  cases item <;> rfl

/-- A content written over another: a server keeps its status while it is enabled, a rule its author. -/
def Item.over : Item → Item → Item
  | .embyInstance old, .embyInstance x =>
    .embyInstance { x with
      status := if x.enabled then if old.status = .disabled then .unknown else old.status else .disabled }
  | .automationRule old, .automationRule x => .automationRule { x with createdBy := old.createdBy }
  | _, x => x

@[simp] theorem Item.kind_over (old item : Item) : (old.over item).kind = item.kind := by
  cases old <;> cases item <;> rfl

@[simp] theorem Item.isDefault_over (old item : Item) : (old.over item).isDefault = item.isDefault := by
  cases old <;> cases item <;> rfl

@[simp] theorem Item.codes_over (old item : Item) : (old.over item).codes = item.codes := by
  cases old <;> cases item <;> rfl

structure Row where
  id : UUID
  item : Item
  revision : Int := 1

instance : Saves.Saved Row (Kind × UUID) Entry where
  key r := (r.item.kind, r.id)
  revision := Row.revision
  codes r := r.item.codes
  mark r := if r.item.isDefault then some (.default r.item.kind) else none
  unmark r := { r with item := r.item.unmark }
  key_unmark r := by rw [Item.kind_unmark]
  revision_unmark _ := rfl
  codes_unmark r := Item.codes_unmark r.item
  mark_unmark r := by rw [Item.isDefault_unmark, if_neg Bool.false_ne_true]

/-! ## Columns -/

/-- A column VARCHAR(n) takes the text. -/
def fits (n : Nat) (s : String) : Bool := s.toList.length ≤ n && storableText s

/-- A column INTEGER takes the number. -/
def fitsInteger (n : Int) : Bool := -2 ^ 31 ≤ n && n < 2 ^ 31

def Item.stores : Item → Bool
  | .membershipPlan x =>
    storableText x.name && storableText x.description && x.entitlements.storable && fitsInteger x.sortOrder
  | .rechargeProduct x => storableText x.name && storableText x.description && fitsInteger x.sortOrder
  | .membershipProduct x => storableText x.name && fitsInteger x.sortOrder
  | .lineEndpoint x =>
    storableText x.name && fits 1000 x.baseURL && fits 120 x.region && fits 120 x.carrier &&
      fitsInteger x.sortOrder
  | .embyInstance x => storableText x.name && storableText x.baseURL
  | .automationRule x =>
    storableText x.code && storableText x.name && fits 500 x.description && storableText x.triggerEvent &&
      x.conditions.storable && x.actions.all Object.storable && fits 255 x.createdBy

end Sakura.Catalog
