/-
  What an automation action is applied to (platform/community.go).

  An action names an account or a request, a field of the event, or nothing.

  * `validAutomationActions`: the actions that a rule may have;
  * `actionKey`, `fallbackKey`: the members of the action and of the event;
  * `selected`, `ValidId`: the value that is to be read, and the identifier in it;
  * `fallback_iff`: when the lookup finds that identifier.
-/
import Sakura.Untyped
import Sakura.Community.Automation

namespace Sakura.Community

open Untyped

/-! ## Actions -/

def actionType (action : Object) : String := normalize (action.get "type").sprint

def validAutomationActions (actions : List Object) : Bool :=
  actions.all fun action =>
    ["notify_account", "submit_moviepilot", "set_request_status"].contains (actionType action)

/-- The member of an action that names what it is applied to. -/
def actionKey (action : Object) : String :=
  if actionType action = "notify_account" then "account_id" else "request_id"

/-- The member of the event that stands in for it. -/
def fallbackKey (action : Object) : String :=
  if actionType action = "notify_account" then "account_id" else "media_request_id"

/-- A map, as its members are read. -/
def printed (o : Object) : Fields := sprintMembers o

/-- The lookup of an action. -/
def lookupID (parse : String → Option UUID) (action payload : Object) : Except Err UUID :=
  automationUUID parse ((printed action).sprint (actionKey action)) (printed payload)
    (fallbackKey action)

/-- What `uuid.Parse` is known for: it reads the text of an identifier, which is made of hexadecimal
digits and dashes, and `<nil>` is no identifier. -/
structure UUIDParse (parse : String → Option UUID) : Prop where
  reads : ∀ {s id}, parse s = some id → parse id.text = some id
  digits : ∀ {s id}, parse s = some id →
    id.text.toList.all fun c => c.isDigit || c = '-' || ('a' ≤ c && c ≤ 'f')
  nil : parse "<nil>" = none

/-! ## What is to be read -/

/-- The value that an action is applied to: a field of the event, the field that stands in for an
absent, null or blank value, or the value itself.  White space around it does not count. -/
def selected (value : Value) (payload : Object) (fallback : String) : Value :=
  match value with
  | .null => payload.get fallback
  | .string s =>
    if trimSpace s = "" then payload.get fallback
    else if "$event.".toList.isPrefixOf (trimSpace s).toList then
      payload.get (String.ofList ((trimSpace s).toList.drop "$event.".length))
    else value
  | _ => value

def selectedOf (action payload : Object) : Value :=
  selected (action.get (actionKey action)) payload (fallbackKey action)

/-- The value is the text of an identifier. -/
def ValidId (parse : String → Option UUID) (value : Value) (id : UUID) : Prop :=
  ∃ s, value = .string s ∧ trimSpace s = s ∧ parse s = some id

/-- An action finds the identifier in the value that is selected, does what it would do if it named
it, and reads the field of the event that it names. -/
structure FallsBack (parse : String → Option UUID) (action payload : Object) : Prop where
  found : ∀ id, ValidId parse (selectedOf action payload) id →
    lookupID parse action payload = .ok id
  applied : ∀ id, ValidId parse (selectedOf action payload) id →
    ∀ o : Occasion, o.parse = parse → o.payload = printed payload → ∀ b,
      executeAutomationAction o (printed action) b =
        executeAutomationAction o (printed (action.set (actionKey action) (.string id.text))) b
  field : ∀ s k, action.get (actionKey action) = .string s → trimSpace s = "$event." ++ k →
    lookupID parse action payload =
      (parse (payload.get k).sprint).elim (.error .invalid) .ok

/-! ## The lookup -/

@[simp] theorem sprint_string (s : String) : (Value.string s).sprint = s := by rw [Value.sprint]

@[simp] theorem sprint_null : Value.null.sprint = "<nil>" := by rw [Value.sprint]

theorem printed_sprint (o : Object) (key : String) :
    (printed o).sprint key = (o.get key).sprint := lookup_sprintMembers key o

section
variable {parse : String → Option UUID} {payload : Object} {fallback : String}

theorem automationUUID_blank {raw : String} (h : trimSpace raw = "") :
    automationUUID parse raw (printed payload) fallback =
      (parse (payload.get fallback).sprint).elim (.error .invalid) .ok := by
  unfold automationUUID
  rw [h, printed_sprint]
  rfl

theorem automationUUID_event {raw k : String} (h : trimSpace raw = "$event." ++ k) :
    automationUUID parse raw (printed payload) fallback =
      (parse (payload.get k).sprint).elim (.error .invalid) .ok := by
  have hpre : "$event.".toList.isPrefixOf (trimSpace raw).toList = true := by
    rw [h, String.toList_append, List.isPrefixOf_iff_prefix]
    exact List.prefix_append _ _
  have hdrop : String.ofList ((trimSpace raw).toList.drop "$event.".length) = k := by
    rw [h, String.toList_append]
    exact String.ofList_toList
  unfold automationUUID
  dsimp only
  rw [if_pos hpre, hdrop, printed_sprint]

theorem automationUUID_own {raw : String} (hne : trimSpace raw ≠ "")
    (hpre : ¬"$event.".toList.isPrefixOf (trimSpace raw).toList = true) :
    automationUUID parse raw (printed payload) fallback =
      (parse (trimSpace raw)).elim (.error .invalid) .ok := by
  unfold automationUUID
  dsimp only
  rw [if_neg hpre, if_neg hne]

/-- A digit or a dash is no white space. -/
theorem hexadecimal_not_space {c : Char} (h : c.isDigit ∨ c = '-' ∨ ('a' ≤ c ∧ c ≤ 'f')) :
    isSpace c = false := by
  rcases h with h | rfl | ⟨hlo, hhi⟩
  · exact digit_not_space h
  · decide
  · exact within_not_space (by decide) (by decide) hlo hhi

/-- The text of an identifier is the text of nothing else. -/
theorem UUIDParse.text (hp : UUIDParse parse) {s : String} {id : UUID} (h : parse s = some id) :
    automationUUID parse id.text (printed payload) fallback = .ok id := by
  have hdigits : ∀ c ∈ id.text.toList, c.isDigit ∨ c = '-' ∨ ('a' ≤ c ∧ c ≤ 'f') := by
    intro c hc
    simpa [or_assoc] using List.all_eq_true.1 (hp.digits h) c hc
  have htrim : trimSpace id.text = id.text := trimSpace_of fun c hc => hexadecimal_not_space
    (hdigits c hc)
  have hne : trimSpace id.text ≠ "" := by
    rw [htrim]
    exact id.text_ne_empty
  have hpre : ¬"$event.".toList.isPrefixOf (trimSpace id.text).toList = true := by
    rw [htrim, List.isPrefixOf_iff_prefix]
    intro hpre
    rcases hdigits '$' (hpre.subset (by decide)) with h | h | ⟨h, -⟩
    · exact absurd h (by decide)
    · exact absurd h (by decide)
    · exact absurd h (by decide)
  rw [automationUUID_own hne hpre, htrim, hp.reads h]
  rfl

/-- **The lookup** of a value that is neither absent nor null finds the identifier that is selected;
so does that of an absent value where the event has none to select. -/
theorem automationUUID_selected {value : Value} {id : UUID}
    (hvalue : value ≠ .null ∨ ∀ id, ¬ValidId parse (payload.get fallback) id)
    (hid : ValidId parse (selected value payload fallback) id) :
    automationUUID parse value.sprint (printed payload) fallback = .ok id := by
  obtain ⟨s, hs, htrim, hparse⟩ := hid
  cases value with
  | null =>
    have hnone := hvalue.resolve_left fun h => h rfl
    exact absurd ⟨s, hs, htrim, hparse⟩ (hnone id)
  | string t =>
    rw [sprint_string]
    unfold selected at hs
    dsimp only at hs
    by_cases hblank : trimSpace t = ""
    · rw [if_pos hblank] at hs
      rw [automationUUID_blank hblank, hs, sprint_string, hparse]
      rfl
    · rw [if_neg hblank] at hs
      by_cases hpre : "$event.".toList.isPrefixOf (trimSpace t).toList = true
      · rw [if_pos hpre] at hs
        obtain ⟨k, hk⟩ := List.isPrefixOf_iff_prefix.1 hpre
        have hevent : trimSpace t = "$event." ++ String.ofList k := by
          rw [← String.ofList_toList (s := trimSpace t), ← hk, String.ofList_append]
          rfl
        have hdrop : (trimSpace t).toList.drop "$event.".length = k := by
          rw [← hk]
          rfl
        rw [hdrop] at hs
        rw [automationUUID_event hevent, hs, sprint_string, hparse]
        rfl
      · rw [if_neg hpre] at hs
        cases hs
        rw [automationUUID_own hblank hpre, htrim, hparse]
        rfl
  | boolean | number | array | object => cases hs

end

/-! ## The action -/

section
variable {o : Occasion} {action action' : Fields}

theorem notifyAccount_congr
    (hid : automationUUID o.parse (action.sprint "account_id") o.payload "account_id" =
      automationUUID o.parse (action'.sprint "account_id") o.payload "account_id")
    (hother : ∀ key, key ≠ "account_id" → action.sprint key = action'.sprint key) (b : Board) :
    notifyAccount o action b = notifyAccount o action' b := by
  unfold notifyAccount
  rw [hid, hother "title" (by decide), hother "body" (by decide), hother "event_key" (by decide)]

theorem submitAutomation_congr
    (hid : automationUUID o.parse (action.sprint "request_id") o.payload "media_request_id" =
      automationUUID o.parse (action'.sprint "request_id") o.payload "media_request_id")
        (b : Board) :
    submitAutomation o action b = submitAutomation o action' b := by
  unfold submitAutomation
  rw [hid]

theorem setRequestStatus_congr
    (hid : automationUUID o.parse (action.sprint "request_id") o.payload "media_request_id" =
      automationUUID o.parse (action'.sprint "request_id") o.payload "media_request_id")
    (hother : ∀ key, key ≠ "request_id" → action.sprint key = action'.sprint key) (b : Board) :
    setRequestStatus o action b = setRequestStatus o action' b := by
  unfold setRequestStatus
  rw [hid, hother "status" (by decide), hother "reason" (by decide)]

end

section
variable {parse : String → Option UUID} {action payload : Object}

theorem actionKey_ne_type (action : Object) : actionKey action ≠ "type" := by
  unfold actionKey
  split <;> decide

/-- An action whose lookup finds an identifier does what it does when it names that identifier. -/
theorem execute_named (hp : UUIDParse parse) (ha : validAutomationActions [action] = true)
    {s : String} {id : UUID} (hid : parse s = some id)
    (hfound : lookupID parse action payload = .ok id) {o : Occasion} (ho : o.parse = parse)
    (hpayload : o.payload = printed payload) (b : Board) :
    executeAutomationAction o (printed action) b =
      executeAutomationAction o (printed (action.set (actionKey action) (.string id.text))) b := by
  have hother : ∀ key, key ≠ actionKey action → (printed action).sprint key =
      (printed (action.set (actionKey action) (.string id.text))).sprint key := by
    intro key hne
    rw [printed_sprint, printed_sprint, Object.get_set_ne hne]
  have hnamed : (printed (action.set (actionKey action) (.string id.text))).sprint
      (actionKey action) = id.text := by
    rw [printed_sprint, Object.get_set_self, sprint_string]
  have htype := hother "type" (actionKey_ne_type action).symm
  have hsame : automationUUID o.parse ((printed action).sprint (actionKey action)) o.payload
        (fallbackKey action) =
      automationUUID o.parse ((printed (action.set (actionKey action) (.string id.text))).sprint
        (actionKey action)) o.payload (fallbackKey action) := by
    rw [hnamed, ho, hpayload, hp.text hid]
    exact hfound
  have hkind : normalize ((printed action).sprint "type") = actionType action := by
    rw [printed_sprint]
    rfl
  have hmem : actionType action ∈ ["notify_account", "submit_moviepilot",
    "set_request_status"] := by
    simpa [validAutomationActions] using ha
  unfold executeAutomationAction
  rw [← htype, hkind]
  generalize printed (action.set (actionKey action) (.string id.text)) = named at *
  rcases List.mem_cons.1 hmem with h | hmem
  · simp only [actionKey, fallbackKey, h, if_true] at hother hsame ⊢
    exact notifyAccount_congr hsame hother b
  rcases List.mem_cons.1 hmem with h | hmem
  · have hne : ¬("submit_moviepilot" = "notify_account") := by decide
    simp only [actionKey, fallbackKey, h, if_neg hne] at hother hsame ⊢
    exact submitAutomation_congr hsame b
  · have h := List.mem_singleton.1 hmem
    have hne : ¬("set_request_status" = "notify_account") := by decide
    simp only [actionKey, fallbackKey, h, if_neg hne] at hother hsame ⊢
    exact setRequestStatus_congr hsame hother b

/-- **The fallback.** An action finds what it is to be applied to, unless its member is absent or
null
and the event holds an identifier in its place. -/
theorem fallback_iff (hp : UUIDParse parse) (ha : validAutomationActions [action] = true) :
    FallsBack parse action payload ↔ action.get (actionKey action) ≠ .null ∨
      ∀ id, ¬ValidId parse (payload.get (fallbackKey action)) id := by
  constructor
  · intro h
    by_cases hnull : action.get (actionKey action) = .null
    · refine .inr fun id hid => ?_
      have hsel : selectedOf action payload = payload.get (fallbackKey action) := by
        unfold selectedOf
        rw [hnull]
        rfl
      have hfound := h.found id (hsel ▸ hid)
      unfold lookupID at hfound
      rw [printed_sprint, hnull, sprint_null, automationUUID_own (by decide) (by decide)] at hfound
      rw [show trimSpace "<nil>" = "<nil>" by decide, hp.nil] at hfound
      cases hfound
    · exact .inl hnull
  · intro hcond
    have hfound : ∀ id, ValidId parse (selectedOf action payload) id →
        lookupID parse action payload = .ok id := by
      intro id hid
      unfold lookupID
      rw [printed_sprint]
      exact automationUUID_selected hcond hid
    refine ⟨hfound, fun id hid o ho hpayload b => ?_, fun s k hs hk => ?_⟩
    · have hfound := hfound id hid
      obtain ⟨s, -, -, hs⟩ := hid
      exact execute_named hp ha hs hfound ho hpayload b
    · unfold lookupID
      rw [printed_sprint, hs, sprint_string]
      exact automationUUID_event hk

end

/-! ## An action without an account -/

def isIdChar (c : Char) : Bool := c.isDigit || c = '-' || ('a' ≤ c && c ≤ 'f')

/-- The identifiers in their canonical form. -/
def parseCanonical (s : String) : Option UUID :=
  if h : s.length = 36 then
    if s.toList.all isIdChar then some ⟨s, h⟩ else none
  else none

theorem parseCanonical_eq {s : String} {id : UUID} (h : parseCanonical s = some id) :
    id.text = s ∧ s.toList.all isIdChar := by
  unfold parseCanonical at h
  split at h
  · split at h
    · next hall =>
      cases h
      exact ⟨rfl, hall⟩
    · cases h
  · cases h

theorem parseCanonical_uuid : UUIDParse parseCanonical where
  reads h := (parseCanonical_eq h).1 ▸ h
  digits h := by
    rw [(parseCanonical_eq h).1]
    exact (parseCanonical_eq h).2
  nil := by decide

/-- An action to notify the account `value`. -/
def notifyAction (value : Value) : Object :=
  [("type", .string "notify_account"), ("account_id", value), ("title", .string "t"),
    ("body", .string "b")]

/-- An event of the account `a`. -/
def accountEvent : Object := [("account_id", .string (idOf 'a').text)]

/-- An action without an account does not find that of the event. -/
theorem absent_account : ¬∀ parse : String → Option UUID, UUIDParse parse →
    ∀ action payload : Object, validAutomationActions [action] = true →
      FallsBack parse action payload := by
  intro h
  have hfalls := h parseCanonical parseCanonical_uuid
    [("type", .string "notify_account"), ("title", .string "t"), ("body", .string "b")] accountEvent
    (by decide)
  have hfound := hfalls.found (idOf 'a') ⟨(idOf 'a').text, rfl, by decide, by decide⟩
  revert hfound
  decide

theorem fallback_iff_blank : UUIDParse parseCanonical ∧
    validAutomationActions [notifyAction (.string " ")] = true ∧
      FallsBack parseCanonical (notifyAction (.string " ")) accountEvent := by
  have hvalid : validAutomationActions [notifyAction (.string " ")] = true := by decide
  refine ⟨parseCanonical_uuid, hvalid, (fallback_iff parseCanonical_uuid hvalid).2 (.inl ?_)⟩
  exact fun h => by cases h

end Sakura.Community
