/-
  Texts that are made of admitted input (platform/emby.go, tasks.go, media.go and community.go), and the
  validations and columns that they are handed to.

  A call fails with an error of its own, or because a text that it has made is too long.

  * `Limit`, `Fault`: a bound on a text, and why a call fails;
  * `requestProvisioning`, `enqueueInstanceTask`, `submitMoviePilot`, `addTicketMessage`: the calls;
  * `requestProvisioning_forget`, `submitMoviePilot_forget`, `addTicketMessage_forget`: what is left of
    them without the reasons;
  * `Call.Short`: the input from which only short texts are made;
  * `fits_iff`: the input with which a call never fails because of the length of a text.
-/
import Sakura.Community.Downloads
import Sakura.Community.Tickets
import Sakura.Emby.Accounts
import Sakura.Txn.Alone

namespace Sakura.Limits

open Txn Queue

/-! ## Limits -/

/-- Of a validation, in bytes, or of a column VARCHAR(n), in characters. -/
inductive Limit where
  | bytes (n : Nat)
  | column (n : Nat)

/-- `len(text) <= n`; a column drops spaces at the end of a longer text. -/
def Limit.admits : Limit → String → Bool
  | .bytes n, text => text.utf8ByteSize ≤ n
  | .column n, text => (text.toList.drop n).all (· = ' ')

/-- An error, or a text that is longer than the limit where it is handed to, which the caller sees as
the error `e`. -/
inductive Fault where
  | refused (e : Err)
  | tooLong (text : String) (limit : Limit) (e : Err)

/-- The error that the caller sees. -/
def Fault.err : Fault → Err
  | .refused e => e
  | .tooLong _ _ e => e

abbrev Program := Prog Queue.Site Queue.Store Queue.Lock Queue.Event Fault

/-- A parameter of a statement, which may not contain a NUL. -/
def parameter (text : String) : Program Unit :=
  .check ('\x00' ∉ text.toList) (.refused .database)

/-- A text that is handed to a validation or a column. -/
def hand (text : String) (limit : Limit) (e : Err) : Program Unit :=
  .check (limit.admits text) (.tooLong text limit e)

/-! ## Provisioning -/

def provisionKey (accountID : UUID) (idempotencyKey : String) : String :=
  "provision:" ++ accountID.text ++ ":" ++ idempotencyKey

def inviteKey (accountID : UUID) (idempotencyKey : String) : String :=
  "provision-invite:" ++ accountID.text ++ ":" ++ idempotencyKey

/-- The membership, whose errors all become one. `redeemInvitationTx` checks its arguments first, and
puts the key into the redemption. -/
@[irreducible] def provisionMembership (fresh : Fresh) (accountID : UUID)
    (invitationCode idempotencyKey : String) (actor : Actor) :
    Program (AccountMembership × MembershipPlan) :=
  if trimSpace invitationCode ≠ "" then do
    let key := inviteKey accountID idempotencyKey
    .check ((trimSpace invitationCode).utf8ByteSize ≤ 100) (.refused .forbidden)
    hand (trimSpace key) (.bytes 160) .forbidden
    hand (trimSpace key) (.column 160) .forbidden
    (redeemInvitationTx fresh accountID invitationCode key actor).mapError fun _ => .refused .forbidden
  else (currentMembership .exclusive accountID fresh.now).mapError fun _ => .refused .forbidden

/-- The request that is not a replay. -/
def newProvisioning (env : Environment) (fresh : Fresh) (accountID : UUID) (instanceID : Option UUID)
    (username invitationCode idempotencyKey : String) (maxAttempts : Nat) (actor : Actor) :
    Program (Queue.Task × ProvisionRequest) := do
  let account ← .orFail (.refused .notFound)
    (← accounts.lockRow .exclusive fun a => a.id = accountID)
  .check (account.status = .active) (.refused .forbidden)
  let selectedInstanceID ← (selectInstanceTx instanceID).mapError .refused
  .check (¬(← read fun v => v.occupied accountID selectedInstanceID)) (.refused .conflict)
  let (_, plan) ← provisionMembership fresh accountID invitationCode idempotencyKey actor
  let count ← (countBindings accountID selectedInstanceID).mapError .refused
  .check (count < env.maxEmbyAccounts plan.entitlements) (.refused .forbidden)
  hand (provisionKey accountID idempotencyKey) (.column 200) .conflict
  hand username (.column 255) .conflict
  hand (env.normalize username) (.column 255) .conflict
  (insertProvisioning env fresh accountID selectedInstanceID username
    (provisionKey accountID idempotencyKey) maxAttempts).mapError .refused
  .publish (.requested fresh.task)
  (getProvisioning accountID fresh.task).mapError .refused

def requestProvisioning (env : Environment) (fresh : Fresh) (accountID : UUID)
    (instanceID : Option UUID) (username invitationCode idempotencyKey : String) (maxAttempts : Nat)
    (actor : Actor) : Program (Queue.Task × ProvisionRequest) := do
  let username := trimSpace username
  let idempotencyKey := trimSpace idempotencyKey
  .check (embyUsernamePattern username ∧ idempotencyKey ≠ "" ∧ idempotencyKey.utf8ByteSize ≤ 160)
    (.refused .invalid)
  parameter (provisionKey accountID idempotencyKey)
  match ← read fun v => v.tasks.find? (·.idempotencyKey = provisionKey accountID idempotencyKey) with
  | some replay => do
    .publish (.requested replay.id)
    (getProvisioning accountID replay.id).mapError .refused
  | none =>
    newProvisioning env fresh accountID instanceID username invitationCode idempotencyKey maxAttempts
      actor

/-! ## Tasks of an instance -/

def instanceTaskType (text : String) : Option TaskType :=
  if text = "emby.sync" then some .embySync
  else if text = "emby.reconcile" then some .embyReconcile
  else if text = "emby.import" then some .embyImport
  else if text = "emby.playback_sync" then some .embyPlaybackSync
  else none

def instanceTaskKey (taskType : String) (instanceID : UUID) (idempotencyKey : String) : String :=
  taskType ++ ":" ++ instanceID.text ++ ":" ++ idempotencyKey

/-- `GetTask` -/
def getTask (id : UUID) : Program Queue.Task :=
  readOne (.refused .notFound) fun v => v.tasks.find? (·.id = id)

/-- The INSERT of the task; `maxAttempts` is the setting `emby.task_max_attempts`. -/
def insertInstanceTask (task : Queue.Task) : Program Unit :=
  tasks.insertRow (fun v => task.maxAttempts < 1 || 100 < task.maxAttempts ||
      v.tasks.any fun t => t.id = task.id || t.idempotencyKey = task.idempotencyKey)
    [(.task task.id, .exclusive), (.taskKey task.idempotencyKey, .exclusive)] task (.refused .conflict)

def enqueueInstanceTask (id : UUID) (now : Time) (taskType : String) (instanceID : UUID)
    (idempotencyKey : String) (maxAttempts : Nat) : Program Queue.Task := do
  let type ← .orFail (.refused .invalid) (instanceTaskType taskType)
  let idempotencyKey := trimSpace idempotencyKey
  .check (idempotencyKey ≠ "" ∧ idempotencyKey.utf8ByteSize ≤ 160) (.refused .invalid)
  let i ← readOne (.refused .notFound) fun v => v.instances.find? (·.id = instanceID)
  .check i.enabled (.refused .forbidden)
  let fullKey := instanceTaskKey taskType instanceID idempotencyKey
  parameter fullKey
  match ← read fun v => v.tasks.find? (·.idempotencyKey = fullKey) with
  | some existing => do
    .publish (.requested existing.id)
    getTask existing.id
  | none => do
    hand fullKey (.column 200) .conflict
    insertInstanceTask
      { id, type, status := .pending, idempotencyKey := fullKey
        payload := { instanceId := some instanceID }, attempts := 0, maxAttempts, availableAt := now }
    .publish (.requested id)
    getTask id

/-! ## Submissions and messages -/

/-- A text that is put into a column. -/
def column (n : Nat) (text : String) : Except Fault Unit :=
  if '\x00' ∈ text.toList then .error (.refused .database)
  else if (Limit.column n).admits text then .ok ()
  else .error (.tooLong text (.column n) .database)

/-- The key of a new job goes into a task and then into the job. -/
def handKey (c : Community.Submission) (r : Community.MediaRequest) (b : Community.Board) :
    Except Fault Unit :=
  if r.status.active && (Community.activeJob r.mediaId b).isNone then do
    column 200 (c.fullKey r)
    column 255 (c.fullKey r)
  else .ok ()

def submitMoviePilot (c : Community.Submission) (b : Community.Board) :
    Except Fault (Community.Submitted × Community.Board) :=
  if c.invalid then .error (.refused .invalid)
  else do
    let r ← (Community.findRequest c.requestID b).mapError .refused
    handKey c r b
    (Community.submitRequest c r b).mapError .refused

/-- The notification is sent on this channel. -/
def reached (accountID : UUID) (eventKey : String) (b : Community.Board) (channel : Community.Channel) :
    Bool :=
  Community.notificationAllowed accountID eventKey channel b &&
    !(channel = .telegram && accountID ∉ b.telegram)

/-- The texts of the notification of a reply. -/
def notifyReply (ownerID : UUID) (body : String) (internal staff : Bool) (b : Community.Board) :
    Except Fault Unit :=
  if !internal && staff &&
      [Community.Channel.inApp, .telegram].any (reached ownerID "ticket.reply" b) then do
    column 160 "工单有新回复"
    column 4000 body
  else .ok ()

/-- The body goes into the message and into the notifications of its ticket's owner. -/
def addTicketMessage (d : Community.TicketDraw) (ticketID : UUID) (accountID : Option UUID)
    (body : String) (internal staff : Bool) (actor : Actor) (s : Community.Desk) :
    Except Fault Community.Desk :=
  if Community.invalidMessage (trimSpace body) internal staff then .error (.refused .invalid)
  else do
    let t ← (Community.findTicket ticketID s).mapError .refused
    (Community.checkTicket accountID staff t).mapError .refused
    let _ ← (varchar 255 actor.label).mapError .refused
    column 8000 (trimSpace body)
    notifyReply t.accountID (trimSpace body) internal staff s.board
    (Community.insertMessage d t accountID (trimSpace body) internal staff actor s).mapError .refused

/-! ## Calls -/

/-- The tables that the calls read. -/
structure Tables where
  store : Queue.Store := {}
  board : Community.Board := {}
  desk : Community.Desk := {}

/-- A call with its arguments, and with what it draws. -/
inductive Call where
  | requestProvisioning (fresh : Fresh) (accountID : UUID) (instanceID : Option UUID)
    (username invitationCode idempotencyKey : String) (maxAttempts : Nat) (actor : Actor)
  | enqueueInstanceTask (id : UUID) (now : Time) (taskType : String) (instanceID : UUID)
    (idempotencyKey : String) (maxAttempts : Nat)
  | submitMoviePilot (c : Community.Submission)
  | addTicketMessage (d : Community.TicketDraw) (ticketID : UUID) (accountID : Option UUID)
    (body : String) (internal staff : Bool) (actor : Actor)

/-- How a call ends when no other call runs. -/
def outcome (env : Environment) (t : Tables) : Call → Except Fault Unit
  | .requestProvisioning fresh accountID instanceID username invitationCode idempotencyKey maxAttempts
      actor =>
    ((requestProvisioning env fresh accountID instanceID username invitationCode idempotencyKey
      maxAttempts actor).alone t.store).2.map fun _ => ()
  | .enqueueInstanceTask id now taskType instanceID idempotencyKey maxAttempts =>
    ((enqueueInstanceTask id now taskType instanceID idempotencyKey maxAttempts).alone t.store).2.map
      fun _ => ()
  | .submitMoviePilot c => (submitMoviePilot c t.board).map fun _ => ()
  | .addTicketMessage d ticketID accountID body internal staff actor =>
    (addTicketMessage d ticketID accountID body internal staff actor t.desk).map fun _ => ()

/-- An idempotency key that is accepted. -/
def KeyValid (idempotencyKey : String) : Prop :=
  trimSpace idempotencyKey ≠ "" ∧ (trimSpace idempotencyKey).utf8ByteSize ≤ 160

/-- The arguments pass the validation. -/
def Call.Valid : Call → Prop
  | .requestProvisioning _ _ _ username _ idempotencyKey _ _ =>
    embyUsernamePattern (trimSpace username) ∧ KeyValid idempotencyKey
  | .enqueueInstanceTask _ _ taskType _ idempotencyKey _ =>
    (instanceTaskType taskType).isSome ∧ KeyValid idempotencyKey
  | .submitMoviePilot c => c.invalid = false
  | .addTicketMessage _ _ _ body internal staff _ =>
    Community.invalidMessage (trimSpace body) internal staff = false

/-- The text of an identifier is of ASCII, without a NUL. -/
def Plain (id : UUID) : Prop := id.text.utf8ByteSize = 36 ∧ '\x00' ∉ id.text.toList

def Call.Plain : Call → Prop
  | .requestProvisioning _ accountID _ _ _ _ _ _ => Limits.Plain accountID
  | .enqueueInstanceTask _ _ _ instanceID _ _ => Limits.Plain instanceID
  | .submitMoviePilot _ => True
  | .addTicketMessage .. => True

/-- No text that is made of the input is too long, whatever is in the tables. -/
def Call.Fits (env : Environment) (c : Call) : Prop :=
  ∀ t text limit e, outcome env t c ≠ .error (.tooLong text limit e)

/-- Only short texts are made of the input: a key of 160 bytes can be too long behind the prefix of a
task or a redemption, and a body of 8000 bytes for a notification. -/
def Call.Short : Call → Prop
  | .requestProvisioning _ _ _ _ invitationCode idempotencyKey _ _ =>
    let key := trimSpace idempotencyKey
    '\x00' ∈ key.toList ∨
      if trimSpace invitationCode = "" then key.length ≤ 153
      else 100 < (trimSpace invitationCode).utf8ByteSize ∨ key.utf8ByteSize ≤ 106
  | .enqueueInstanceTask _ _ taskType _ idempotencyKey _ =>
    let key := trimSpace idempotencyKey
    '\x00' ∈ key.toList ∨ taskType.length + key.length ≤ 162
  | .submitMoviePilot c =>
    let key := trimSpace c.idempotencyKey
    '\x00' ∈ key.toList ∨ key.length ≤ 152
  | .addTicketMessage _ _ _ body internal staff actor =>
    let text := trimSpace body
    '\x00' ∈ text.toList ∨ varchar 255 actor.label = .error .database ∨ internal = true ∨
      staff = false ∨ text.length ≤ 4000

/-! ## Lengths -/

/-- A text that does not end in a space is kept by a column exactly if it is short enough. -/
theorem admits_column {n : Nat} {text : String} {c : Char} (h : text.toList.getLast? = some c)
    (hc : isSpace c = false) : (Limit.column n).admits text = true ↔ text.length ≤ n := by
  show (text.toList.drop n).all (· = ' ') = true ↔ _
  rw [← String.length_toList]
  constructor
  · intro hall
    by_contra hlen
    have hlast : (text.toList.drop n).getLast? = some c := by
      rw [List.getLast?_drop, if_neg (by omega), h]
    rw [of_decide_eq_true (List.all_eq_true.1 hall c (List.mem_of_getLast? hlast))] at hc
    exact absurd hc (by decide)
  · intro hlen
    rw [List.drop_eq_nil_of_le hlen]
    rfl

/-- What is put before a trimmed text that is not empty does not change its end. -/
theorem getLast?_key {a s : String} (h : trimSpace s ≠ "") :
    ∃ c, (a ++ trimSpace s).toList.getLast? = some c ∧ isSpace c = false := by
  obtain ⟨c, hc, hsp⟩ := getLast?_trimSpace h
  refine ⟨c, ?_, hsp⟩
  rw [String.toList_append, List.getLast?_append, hc]
  rfl

theorem admits_key {n : Nat} {a s : String} (h : trimSpace s ≠ "") :
    (Limit.column n).admits (a ++ trimSpace s) = true ↔ a.length + (trimSpace s).length ≤ n := by
  obtain ⟨c, hc, hsp⟩ := getLast?_key (a := a) h
  rw [admits_column hc hsp, String.length_append]

theorem admits_body {n : Nat} {s : String} (h : trimSpace s ≠ "") :
    (Limit.column n).admits (trimSpace s) = true ↔ (trimSpace s).length ≤ n := by
  obtain ⟨c, hc, hsp⟩ := getLast?_trimSpace h
  exact admits_column hc hsp

/-- A text of few bytes has few characters. -/
theorem length_le_bytes (s : String) : s.length ≤ s.utf8ByteSize := by
  rw [← String.length_toList]
  exact length_le_size s

theorem admits_provisionKey {accountID : UUID} {s : String} (h : trimSpace s ≠ "") :
    (Limit.column 200).admits (provisionKey accountID (trimSpace s)) = true ↔
      (trimSpace s).length ≤ 153 := by
  have hlen : ("provision:" ++ accountID.text ++ ":").length = 47 := by
    rw [String.length_append, String.length_append, accountID.valid]
    rfl
  rw [provisionKey, admits_key h, hlen]
  omega

/-- The key of a redemption is not trimmed, and it is 54 bytes longer than the key of the request. -/
theorem inviteKey_size {accountID : UUID} (hid : Plain accountID) {s : String} (h : trimSpace s ≠ "") :
    trimSpace (inviteKey accountID (trimSpace s)) = inviteKey accountID (trimSpace s) ∧
      (inviteKey accountID (trimSpace s)).utf8ByteSize = 54 + (trimSpace s).utf8ByteSize := by
  unfold inviteKey
  constructor
  · obtain ⟨c, hc, hsp⟩ := getLast?_key (a := "provision-invite:" ++ accountID.text ++ ":") h
    refine trimSpace_of_ends (b := 'p') ?_ (by decide) hc hsp
    simp only [String.toList_append, List.append_assoc]
    rfl
  · simp only [String.utf8ByteSize_append, hid.1]
    rw [show "provision-invite:".utf8ByteSize = 17 by decide, show ":".utf8ByteSize = 1 by decide]

theorem admits_instanceTaskKey {taskType : String} {instanceID : UUID} {s : String}
    (h : trimSpace s ≠ "") :
    (Limit.column 200).admits (instanceTaskKey taskType instanceID (trimSpace s)) = true ↔
      taskType.length + (trimSpace s).length ≤ 162 := by
  have hlen : (taskType ++ ":" ++ instanceID.text ++ ":").length = taskType.length + 38 := by
    simp only [String.length_append, instanceID.valid]
    rw [show ":".length = 1 by decide]
  rw [instanceTaskKey, admits_key h, hlen]
  omega

theorem admits_fullKey {c : Community.Submission} {r : Community.MediaRequest} {n : Nat}
    (h : trimSpace c.idempotencyKey ≠ "") : (Limit.column n).admits (c.fullKey r) = true ↔
      48 + (trimSpace c.idempotencyKey).length ≤ n := by
  have hlen : ("moviepilot:" ++ r.mediaId.text ++ ":").length = 48 := by
    rw [String.length_append, String.length_append, r.mediaId.valid]
    rfl
  rw [Community.Submission.fullKey, admits_key h, hlen]

theorem admits_of_length {n : Nat} {text : String} (h : text.length ≤ n) :
    (Limit.column n).admits text = true := by
  show (text.toList.drop n).all (· = ' ') = true
  rw [List.drop_eq_nil_of_le (by rwa [String.length_toList])]
  rfl

/-! ## Short input -/

/-- The call fails for a reason of its own. -/
def Fault.Refused (x : Fault) : Prop := ∃ e, x = .refused e

section Short

variable {env : Environment} {fresh : Fresh} {accountID instanceID : UUID} {username code key : String}
  {maxAttempts : Nat} {actor : Actor}

theorem fails_refused {α : Type} {p : Prog Queue.Site Queue.Store Queue.Lock Queue.Event Err α} :
    (p.mapError Fault.refused).Fails Fault.Refused :=
  Prog.fails_mapError fun e => ⟨e, rfl⟩

theorem fails_hand {text : String} {limit : Limit} {e : Err} (h : limit.admits text = true) :
    (hand text limit e).Fails Fault.Refused :=
  Prog.fails_check fun hn => absurd h hn

/-- The membership of a short key, or none because of the code. -/
theorem provisionMembership_fails (hid : Plain accountID) (hkey : trimSpace key ≠ "")
    (hshort : trimSpace code = "" ∨ (trimSpace key).utf8ByteSize ≤ 106) :
    (provisionMembership fresh accountID code (trimSpace key) actor).Fails Fault.Refused := by
  unfold provisionMembership
  split
  · next hcode =>
    obtain ⟨htrim, hsize⟩ := inviteKey_size hid hkey
    have hbytes : (inviteKey accountID (trimSpace key)).utf8ByteSize ≤ 160 := by
      have := hshort.resolve_left hcode
      omega
    simp only [htrim]
    refine (Prog.fails_check fun _ => ⟨_, rfl⟩).bind fun _ => ?_
    have hadmits : (Limit.bytes 160).admits (inviteKey accountID (trimSpace key)) = true :=
      decide_eq_true hbytes
    refine (fails_hand hadmits).bind fun _ => ?_
    refine (fails_hand (admits_of_length (Nat.le_trans (length_le_bytes _) hbytes))).bind fun _ => ?_
    exact Prog.fails_mapError fun _ => ⟨_, rfl⟩
  · exact Prog.fails_mapError fun _ => ⟨_, rfl⟩

theorem provisionMembership_code (hcode : 100 < (trimSpace code).utf8ByteSize) :
    provisionMembership fresh accountID code key actor = .fail (.refused .forbidden) := by
  have hne : trimSpace code ≠ "" := fun h => by
    rw [h] at hcode
    exact absurd hcode (by decide)
  unfold provisionMembership
  rw [if_pos hne]
  show (Prog.check _ _ >>= _) = _
  unfold Prog.check
  rw [if_neg (by omega)]
  rfl

theorem newProvisioning_fails {selected : Option UUID} (hkey : trimSpace key ≠ "")
    (hname : username.length ≤ 32) (hnormal : (env.normalize username).length ≤ 32)
    (h : provisionMembership fresh accountID code (trimSpace key) actor = .fail (.refused .forbidden) ∨
      (provisionMembership fresh accountID code (trimSpace key) actor).Fails Fault.Refused ∧
        (trimSpace key).length ≤ 153) :
    (newProvisioning env fresh accountID selected username code (trimSpace key) maxAttempts
      actor).Fails Fault.Refused := by
  unfold newProvisioning
  refine Prog.fails_lockRow.bind fun _ => ?_
  refine (Prog.fails_orFail ⟨_, rfl⟩).bind fun _ => ?_
  refine (Prog.fails_check fun _ => ⟨_, rfl⟩).bind fun _ => ?_
  refine fails_refused.bind fun _ => ?_
  refine Prog.fails_query.bind fun _ => ?_
  refine (Prog.fails_check fun _ => ⟨_, rfl⟩).bind fun _ => ?_
  rcases h with h | ⟨h, hlen⟩
  · rw [h]
    exact ⟨_, rfl⟩
  · refine h.bind fun _ => ?_
    refine fails_refused.bind fun _ => ?_
    refine (Prog.fails_check fun _ => ⟨_, rfl⟩).bind fun _ => ?_
    refine (fails_hand ((admits_provisionKey hkey).2 hlen)).bind fun _ => ?_
    refine (fails_hand (admits_of_length (by omega))).bind fun _ => ?_
    refine (fails_hand (admits_of_length (by omega))).bind fun _ => ?_
    refine fails_refused.bind fun _ => ?_
    exact Prog.fails_publish.bind fun _ => fails_refused

theorem not_refused {text : String} {limit : Limit} {e : Err} :
    ¬(Fault.tooLong text limit e).Refused := by
  rintro ⟨e', he⟩
  cases he

/-- A key with a NUL is refused as the parameter of the first statement. -/
theorem fails_parameter {α : Type} {f : Unit → Program α} {text : String}
    (h : '\x00' ∉ text.toList → (f ()).Fails Fault.Refused) :
    (parameter text >>= f).Fails Fault.Refused :=
  Prog.fails_check_bind ⟨_, rfl⟩ h

theorem username_length (hlower : ∀ s, (env.toLower s).length = s.length)
    (hname : embyUsernamePattern (trimSpace username) = true) :
    (trimSpace username).length ≤ 32 ∧ (env.normalize (trimSpace username)).length ≤ 32 := by
  unfold embyUsernamePattern at hname
  simp only [Bool.and_eq_true, decide_eq_true_eq] at hname
  refine ⟨hname.2, ?_⟩
  unfold Environment.normalize
  rw [hlower, trimSpace_trimSpace]
  exact hname.2

theorem provisionKey_nul (hid : Plain accountID) (h : '\x00' ∉ key.toList) :
    '\x00' ∉ (provisionKey accountID key).toList := by
  simp only [provisionKey, String.toList_append, List.mem_append, not_or]
  exact ⟨⟨⟨by decide, hid.2⟩, by decide⟩, h⟩

theorem requestProvisioning_fails {selected : Option UUID}
    (hlower : ∀ s, (env.toLower s).length = s.length) (hid : Plain accountID)
    (hname : embyUsernamePattern (trimSpace username) = true) (hkey : KeyValid key)
    (hshort : (Call.requestProvisioning fresh accountID selected username code key maxAttempts
      actor).Short) :
    (requestProvisioning env fresh accountID selected username code key maxAttempts actor).Fails
      Fault.Refused := by
  obtain ⟨hlen, hnormal⟩ := username_length hlower hname
  unfold requestProvisioning
  refine Prog.fails_check_bind ⟨_, rfl⟩ fun _ => ?_
  refine fails_parameter fun hnul => ?_
  have hkeyNul : '\x00' ∉ (trimSpace key).toList := fun hc =>
    hnul (by rw [provisionKey, String.toList_append]; exact List.mem_append_right _ hc)
  refine Prog.fails_query.bind fun replay => ?_
  cases replay with
  | some replay => exact Prog.fails_publish.bind fun _ => fails_refused
  | none =>
    refine newProvisioning_fails hkey.1 hlen hnormal ?_
    have hs := hshort.resolve_left hkeyNul
    split at hs
    · next hcode => exact Or.inr ⟨provisionMembership_fails hid hkey.1 (Or.inl hcode), hs⟩
    · rcases hs with hcode | hbytes
      · exact Or.inl (provisionMembership_code hcode)
      · refine Or.inr ⟨provisionMembership_fails hid hkey.1 (Or.inr hbytes), ?_⟩
        have := length_le_bytes (trimSpace key)
        omega

theorem enqueueInstanceTask_fails {id : UUID} {now : Time} {taskType : String} (hkey : KeyValid key)
    (hshort : (Call.enqueueInstanceTask id now taskType instanceID key maxAttempts).Short) :
    (enqueueInstanceTask id now taskType instanceID key maxAttempts).Fails Fault.Refused := by
  unfold enqueueInstanceTask
  refine (Prog.fails_orFail ⟨_, rfl⟩).bind fun _ => ?_
  refine Prog.fails_check_bind ⟨_, rfl⟩ fun _ => ?_
  refine (Prog.fails_readOne ⟨_, rfl⟩).bind fun _ => ?_
  refine Prog.fails_check_bind ⟨_, rfl⟩ fun _ => ?_
  refine fails_parameter fun hnul => ?_
  have hkeyNul : '\x00' ∉ (trimSpace key).toList := fun hc =>
    hnul (by rw [instanceTaskKey, String.toList_append]; exact List.mem_append_right _ hc)
  refine Prog.fails_query.bind fun existing => ?_
  have hget : ∀ id, (getTask id).Fails Fault.Refused := fun _ => Prog.fails_readOne ⟨_, rfl⟩
  cases existing with
  | some existing => exact Prog.fails_publish.bind fun _ => hget _
  | none =>
    refine (fails_hand ((admits_instanceTaskKey hkey.1).2 (hshort.resolve_left hkeyNul))).bind
      fun _ => ?_
    refine (Prog.fails_insertRow ⟨_, rfl⟩).bind fun _ => ?_
    exact Prog.fails_publish.bind fun _ => hget _

end Short

/-! ## Requests without the reasons -/

section Forget

variable {env : Environment} {fresh : Fresh} {accountID : UUID} {username code key : String}
  {maxAttempts : Nat} {actor : Actor}

theorem hand_of_admits {text : String} {limit : Limit} {e : Err} (h : limit.admits text = true) :
    hand text limit e = pure () := by
  unfold hand Prog.check
  rw [if_pos h]
  rfl

theorem provisionMembership_forget (hid : Plain accountID) (hkey : trimSpace key ≠ "")
    (hshort : trimSpace code = "" ∨ (trimSpace key).utf8ByteSize ≤ 106) :
    (provisionMembership fresh accountID code (trimSpace key) actor).mapError Fault.err =
      (Queue.provisionMembership fresh accountID code (trimSpace key) actor).mapError
        fun _ => .forbidden := by
  unfold provisionMembership Queue.provisionMembership
  by_cases hcode : trimSpace code = ""
  · rw [if_neg (not_not.2 hcode), if_neg (not_not.2 hcode), Prog.mapError_mapError]
    rfl
  · rw [if_pos hcode, if_pos hcode]
    by_cases hsize : (trimSpace code).utf8ByteSize ≤ 100
    · obtain ⟨htrim, hbytes⟩ := inviteKey_size hid hkey
      have hle : (inviteKey accountID (trimSpace key)).utf8ByteSize ≤ 160 := by
        have := hshort.resolve_left hcode
        omega
      have hadmits : (Limit.bytes 160).admits (inviteKey accountID (trimSpace key)) = true :=
        decide_eq_true hle
      simp only [htrim]
      rw [hand_of_admits hadmits, hand_of_admits (admits_of_length (Nat.le_trans (length_le_bytes _) hle))]
      unfold Prog.check
      rw [if_pos hsize]
      exact Prog.mapError_mapError
    · have hredeem : redeemInvitationTx fresh accountID code (inviteKey accountID (trimSpace key)) actor =
          .fail .invalid := by
        unfold redeemInvitationTx
        show (Prog.check _ _ >>= _) = _
        unfold Prog.check
        rw [if_neg fun h => hsize h.2.1]
        rfl
      have hfail : provisionMembership fresh accountID code (trimSpace key) actor =
          .fail (.refused .forbidden) := provisionMembership_code (Nat.lt_of_not_le hsize)
      unfold provisionMembership at hfail
      rw [if_pos hcode] at hfail
      rw [hfail]
      exact (congrArg (Prog.mapError fun _ => Err.forbidden) hredeem).symm

theorem mapError_refused {α : Type} {p : Prog Queue.Site Queue.Store Queue.Lock Queue.Event Err α} :
    (p.mapError Fault.refused).mapError Fault.err = p :=
  Prog.mapError_mapError.trans Prog.mapError_id

theorem newProvisioning_forget {selected : Option UUID} (hid : Plain accountID)
    (hkey : trimSpace key ≠ "") (hname : username.length ≤ 32)
    (hnormal : (env.normalize username).length ≤ 32) (hlen : (trimSpace key).length ≤ 153)
    (hshort : trimSpace code = "" ∨ (trimSpace key).utf8ByteSize ≤ 106) :
    (newProvisioning env fresh accountID selected username code (trimSpace key) maxAttempts
        actor).mapError Fault.err =
      Queue.newProvisioning env fresh accountID selected username code (trimSpace key)
        (provisionKey accountID (trimSpace key)) maxAttempts actor := by
  have huser : (Limit.column 255).admits username = true := admits_of_length (by omega)
  have hnormalized : (Limit.column 255).admits (env.normalize username) = true :=
    admits_of_length (by omega)
  unfold newProvisioning Queue.newProvisioning
  simp only [Prog.mapError_bind, Prog.mapError_lockRow, Prog.mapError_orFail, Prog.mapError_check,
    Prog.mapError_read, mapError_refused, provisionMembership_forget hid hkey hshort,
    hand_of_admits ((admits_provisionKey hkey).2 hlen), hand_of_admits huser,
    hand_of_admits hnormalized]
  rfl

/-- **The reasons are all that is new** in a request whose texts are short. -/
theorem requestProvisioning_forget {selected : Option UUID}
    (hlower : ∀ s, (env.toLower s).length = s.length) (hid : Plain accountID)
    (hnul : '\x00' ∉ (trimSpace key).toList) (hkey : trimSpace key ≠ "")
    (hname : embyUsernamePattern (trimSpace username) = true) (hlen : (trimSpace key).length ≤ 153)
    (hshort : trimSpace code = "" ∨ (trimSpace key).utf8ByteSize ≤ 106) :
    (requestProvisioning env fresh accountID selected username code key maxAttempts actor).mapError
        Fault.err =
      Queue.requestProvisioning env fresh accountID selected username code key maxAttempts actor := by
  obtain ⟨hname, hnormal⟩ := username_length hlower hname
  have hparameter : parameter (provisionKey accountID (trimSpace key)) = pure () := by
    unfold parameter Prog.check
    rw [if_pos (provisionKey_nul hid hnul)]
    rfl
  unfold requestProvisioning Queue.requestProvisioning
  simp only [Prog.mapError_bind, Prog.mapError_check, Prog.mapError_read, hparameter]
  refine congrArg (Bind.bind _) (funext fun _ => ?_)
  show (Txn.read (fun v : Queue.Store => v.tasks.find?
    (·.idempotencyKey = provisionKey accountID (trimSpace key))) >>= _) = _
  refine congrArg (Bind.bind _) (funext fun replay => ?_)
  cases replay with
  | some replay =>
    simp only [Prog.mapError_bind, Prog.mapError_publish, mapError_refused]
  | none => exact newProvisioning_forget hid hkey hname hnormal hlen hshort

end Forget

/-! ## Submissions and messages without the reasons -/

/-- A column refuses the text for the same reason. -/
theorem varchar_column (n : Nat) (text : String) :
    (varchar n text).map (fun _ => ()) = (column n text).mapError Fault.err := by
  have hs : String.fromUTF8? (bytesOf text).toByteArray = some text :=
    fromUTF8?_eq_some.2 (toByteArray_eq text)
  unfold varchar storedText column
  rw [hs]
  simp only
  split
  · rfl
  · show Except.map _ (Option.elim (if (Limit.column n).admits text = true then _ else _) _ _) = _
    split <;> rfl

theorem varchar_of_column {n : Nat} {text : String} {x : Fault} (h : column n text = .error x) :
    varchar n text = .error x.err := by
  have hv := varchar_column n text
  rw [h] at hv
  cases hr : varchar n text with
  | error e =>
    rw [hr] at hv
    exact congrArg _ (Except.error.inj hv)
  | ok _ =>
    rw [hr] at hv
    cases hv

theorem varchar_ok {n : Nat} {text : String} (h : column n text = .ok ()) :
    ∃ kept, varchar n text = .ok kept := by
  have hv := varchar_column n text
  rw [h] at hv
  cases hr : varchar n text with
  | error e =>
    rw [hr] at hv
    cases hv
  | ok kept => exact ⟨kept, rfl⟩

/-- What comes after the texts fails with them. -/
theorem bind_forget {α : Type} {p : Except Fault Unit} {r : Except Err α}
    (h : ∀ x, p = .error x → r = .error x.err) :
    (do p; r.mapError Fault.refused).mapError Fault.err = r := by
  cases p with
  | error x => exact (h x rfl).symm
  | ok _ => cases r <;> rfl

theorem handKey_error {c : Community.Submission} {r : Community.MediaRequest} {b : Community.Board}
    {x : Fault} (h : handKey c r b = .error x) : Community.submitRequest c r b = .error x.err := by
  unfold handKey at h
  split at h
  · next hfree =>
    simp only [Bool.and_eq_true, Option.isNone_iff_eq_none] at hfree
    have hqueue : Community.submitRequest c r b =
        (Community.queueJob c r b).map (⟨c.jobID, false⟩, ·) := by
      unfold Community.submitRequest
      rw [hfree.1, hfree.2]
      rfl
    rw [hqueue]
    unfold Community.queueJob
    cases h200 : column 200 (c.fullKey r) with
    | error y =>
      rw [h200] at h
      cases h
      rw [varchar_of_column h200]
      rfl
    | ok _ =>
      rw [h200] at h
      obtain ⟨kept, hkept⟩ := varchar_ok h200
      have h255 : column 255 (c.fullKey r) = .error x := h
      rw [hkept, varchar_of_column h255]
      rfl
  · cases h

/-- **The reasons are all that is new** in a submission. -/
theorem submitMoviePilot_forget (c : Community.Submission) (b : Community.Board) :
    (submitMoviePilot c b).mapError Fault.err = Community.submitMoviePilot c b := by
  unfold submitMoviePilot Community.submitMoviePilot
  split
  · rfl
  · cases Community.findRequest c.requestID b with
    | error e => rfl
    | ok r => exact bind_forget fun x hx => handKey_error hx

theorem queueNotification_error {now : Time} {ownerID : UUID} {eventKey title body : String}
    {metadata : Community.Fields} {b : Community.Board} {channel : Community.Channel} {e : Err}
    (htitle : varchar 160 title = .ok title) (hbody : varchar 4000 body = .error e)
    (h : reached ownerID eventKey b channel = true) :
    Community.queueNotification now ownerID eventKey title body metadata b channel = .error e := by
  unfold reached at h
  simp only [Bool.and_eq_true, Bool.not_eq_true'] at h
  unfold Community.queueNotification
  rw [if_neg (by simp [h.1]), if_neg (by rw [h.2]; exact Bool.false_ne_true), htitle, hbody]
  rfl

theorem queueNotification_pass {now : Time} {ownerID : UUID} {eventKey title body : String}
    {metadata : Community.Fields} {b : Community.Board} {channel : Community.Channel}
    (h : reached ownerID eventKey b channel = false) :
    Community.queueNotification now ownerID eventKey title body metadata b channel = .ok b := by
  unfold reached at h
  unfold Community.queueNotification
  cases hallowed : Community.notificationAllowed ownerID eventKey channel b with
  | false => rfl
  | true =>
    rw [hallowed, Bool.true_and, Bool.not_eq_false'] at h
    rw [if_neg (by simp), if_pos h]
    rfl

/-- The notifications of a reply fail with their texts. -/
theorem notifyReply_error {d : Community.TicketDraw} {ticketID ownerID : UUID} {body : String}
    {internal staff : Bool} {b : Community.Board} {x : Fault}
    (h : notifyReply ownerID body internal staff b = .error x) :
    Community.notifyReply d ticketID ownerID body internal staff b = .error x.err := by
  have htitle : column 160 "工单有新回复" = .ok () := by
    unfold column
    rw [if_neg (by decide), if_pos (by decide)]
  have hname : varchar 160 "工单有新回复" = .ok "工单有新回复" :=
    varchar_of_fits ⟨by decide, by decide⟩
  unfold notifyReply at h
  split at h
  · next hreached =>
    rw [htitle] at h
    have hbody : varchar 4000 body = .error x.err := varchar_of_column h
    simp only [Bool.and_eq_true, List.any_cons, List.any_nil, Bool.or_false, Bool.or_eq_true] at hreached
    obtain ⟨hstaff, hchannel⟩ := hreached
    unfold Community.notifyReply
    rw [if_pos (by simpa using hstaff)]
    unfold Community.queuePreferredNotification
    cases happ : reached ownerID "ticket.reply" b .inApp with
    | true =>
      rw [List.foldlM_cons, queueNotification_error hname hbody happ]
      rfl
    | false =>
      have htel := hchannel.resolve_left (by rw [happ]; exact Bool.false_ne_true)
      rw [List.foldlM_cons, queueNotification_pass happ]
      simp only [bind, Except.bind, List.foldlM_cons]
      rw [queueNotification_error hname hbody htel]
  · cases h

/-- The same of a message. -/
theorem addTicketMessage_forget (d : Community.TicketDraw) (ticketID : UUID) (accountID : Option UUID)
    (body : String) (internal staff : Bool) (actor : Actor) (s : Community.Desk) :
    (addTicketMessage d ticketID accountID body internal staff actor s).mapError Fault.err =
      Community.addTicketMessage d ticketID accountID body internal staff actor s := by
  unfold addTicketMessage Community.addTicketMessage
  split
  · rfl
  · cases Community.findTicket ticketID s with
    | error e => rfl
    | ok t =>
      simp only [Except.mapError, bind, Except.bind]
      cases Community.checkTicket accountID staff t with
      | error e => rfl
      | ok _ =>
        cases hlabel : varchar 255 actor.label with
        | error e =>
          simp only
          unfold Community.insertMessage
          rw [hlabel]
          rfl
        | ok label =>
          simp only
          cases h8000 : column 8000 (trimSpace body) with
          | error x =>
            unfold Community.insertMessage
            rw [hlabel, varchar_of_column h8000]
            rfl
          | ok _ =>
            refine bind_forget fun x hx => ?_
            obtain ⟨text, htext⟩ := varchar_ok h8000
            unfold Community.insertMessage
            rw [hlabel, htext, notifyReply_error hx]
            rfl

/-! ## Short submissions and messages -/

/-- The call fails for a reason of its own, if it fails. -/
def Refuses {α : Type} (r : Except Fault α) : Prop := ∀ x, r = .error x → x.Refused

theorem refuses_ok {α : Type} {a : α} : Refuses (.ok a) := fun _ h => by cases h

theorem refuses_error {α : Type} {e : Err} : Refuses (.error (.refused e) : Except Fault α) :=
  fun _ h => ⟨e, (Except.error.inj h).symm⟩

theorem Refuses.bind {α β : Type} {r : Except Fault α} {f : α → Except Fault β} (h : Refuses r)
    (hf : ∀ a, Refuses (f a)) : Refuses (r >>= f) := by
  cases r with
  | error x => exact fun y hy => h y (congrArg _ (Except.error.inj hy))
  | ok a => exact hf a

theorem refuses_mapError {α : Type} (r : Except Err α) : Refuses (r.mapError Fault.refused) := by
  cases r with
  | error e => exact refuses_error
  | ok a => exact refuses_ok

/-- A text with a NUL is refused for it. -/
theorem refuses_column {n : Nat} {text : String}
    (h : '\x00' ∈ text.toList ∨ (Limit.column n).admits text = true) : Refuses (column n text) := by
  unfold column
  split
  · exact refuses_error
  · next hnul =>
    rw [if_pos (h.resolve_left hnul)]
    exact refuses_ok

theorem submitMoviePilot_refuses {c : Community.Submission} {b : Community.Board}
    (hvalid : c.invalid = false) (hshort : (Call.submitMoviePilot c).Short) :
    Refuses (submitMoviePilot c b) := by
  have hkey : trimSpace c.idempotencyKey ≠ "" := by
    unfold Community.Submission.invalid at hvalid
    simp only [Bool.or_eq_false_iff, decide_eq_false_iff_not] at hvalid
    exact hvalid.1.1
  have hcolumn : ∀ {r : Community.MediaRequest} {n : Nat}, 200 ≤ n → Refuses (column n (c.fullKey r)) := by
    intro r n hn
    refine refuses_column (hshort.imp (fun hnul => ?_) fun hlen => (admits_fullKey hkey).2 (by omega))
    rw [Community.Submission.fullKey, String.toList_append]
    exact List.mem_append_right _ hnul
  unfold submitMoviePilot
  rw [if_neg (by rw [hvalid]; exact Bool.false_ne_true)]
  refine (refuses_mapError _).bind fun r => Refuses.bind ?_ fun _ => refuses_mapError _
  unfold handKey
  split
  · exact (hcolumn (by decide)).bind fun _ => hcolumn (by decide)
  · exact refuses_ok

/-- A body that is accepted. -/
theorem body_valid {body : String} {internal staff : Bool}
    (h : Community.invalidMessage (trimSpace body) internal staff = false) :
    trimSpace body ≠ "" ∧ (trimSpace body).utf8ByteSize ≤ 8000 := by
  unfold Community.invalidMessage at h
  simp only [Bool.or_eq_false_iff, decide_eq_false_iff_not] at h
  exact ⟨h.1.1, by omega⟩

theorem notifyReply_refuses {ownerID : UUID} {body : String} {internal staff : Bool}
    {b : Community.Board} (hbody : trimSpace body ≠ "")
    (hshort : '\x00' ∈ (trimSpace body).toList ∨ internal = true ∨ staff = false ∨
      (trimSpace body).length ≤ 4000) :
    Refuses (notifyReply ownerID (trimSpace body) internal staff b) := by
  unfold notifyReply
  split
  · next hreached =>
    simp only [Bool.and_eq_true, Bool.not_eq_true'] at hreached
    refine (refuses_column (Or.inr (by decide))).bind fun _ => refuses_column ?_
    rcases hshort with hnul | hinternal | hstaff | hlen
    · exact Or.inl hnul
    · rw [hreached.1.1] at hinternal
      cases hinternal
    · rw [hreached.1.2] at hstaff
      cases hstaff
    · exact Or.inr ((admits_body hbody).2 hlen)
  · exact refuses_ok

theorem addTicketMessage_refuses {d : Community.TicketDraw} {ticketID : UUID} {accountID : Option UUID}
    {body : String} {internal staff : Bool} {actor : Actor} {s : Community.Desk}
    (hvalid : Community.invalidMessage (trimSpace body) internal staff = false)
    (hshort : (Call.addTicketMessage d ticketID accountID body internal staff actor).Short) :
    Refuses (addTicketMessage d ticketID accountID body internal staff actor s) := by
  obtain ⟨hbody, hsize⟩ := body_valid hvalid
  have hlen := length_le_bytes (trimSpace body)
  unfold addTicketMessage
  rw [if_neg (by rw [hvalid]; exact Bool.false_ne_true)]
  refine (refuses_mapError _).bind fun t => (refuses_mapError _).bind fun _ => ?_
  cases hlabel : varchar 255 actor.label with
  | error e => exact refuses_error
  | ok label =>
    refine refuses_ok.bind fun _ => (refuses_column (Or.inr (admits_of_length (by omega)))).bind
      fun _ => Refuses.bind (notifyReply_refuses hbody ?_) fun _ => refuses_mapError _
    rcases hshort with hnul | hrefused | hrest
    · exact Or.inl hnul
    · rw [hlabel] at hrefused
      cases hrefused
    · exact Or.inr hrest

/-! ## Long input -/

/-- An open request for media. -/
def openRequest (c : Community.Submission) : Community.MediaRequest where
  id := c.requestID
  requestNo := ""
  mediaId := idOf '0'
  requestedBy := c.requestID
  createdAt := 0
  updatedAt := 0

/-- A key of more than 152 characters is too long for the task. -/
theorem submitMoviePilot_tooLong {c : Community.Submission} (hvalid : c.invalid = false)
    (hlong : ¬(Call.submitMoviePilot c).Short) :
    submitMoviePilot c { requests := [openRequest c] } =
      .error (.tooLong (c.fullKey (openRequest c)) (.column 200) .database) := by
  have hkey : trimSpace c.idempotencyKey ≠ "" := by
    unfold Community.Submission.invalid at hvalid
    simp only [Bool.or_eq_false_iff, decide_eq_false_iff_not] at hvalid
    exact hvalid.1.1
  obtain ⟨hnul, hlen⟩ := not_or.1 hlong
  have hfull : '\x00' ∉ (c.fullKey (openRequest c)).toList := by
    rw [Community.Submission.fullKey, String.toList_append, List.mem_append, not_or]
    exact ⟨show '\x00' ∉ ("moviepilot:" ++ (idOf '0').text ++ ":").toList by decide, hnul⟩
  have hcolumn : column 200 (c.fullKey (openRequest c)) =
      .error (.tooLong (c.fullKey (openRequest c)) (.column 200) .database) := by
    unfold column
    rw [if_neg hfull, if_neg fun h => hlen (by have := (admits_fullKey hkey).1 h; omega)]
  have hfind : Community.findRequest c.requestID { requests := [openRequest c] } =
      .ok (openRequest c) := by
    simp [Community.findRequest, openRequest]
  have hhand : handKey c (openRequest c) { requests := [openRequest c] } =
      .error (.tooLong (c.fullKey (openRequest c)) (.column 200) .database) := by
    unfold handKey
    rw [if_pos (by rfl), hcolumn]
    simp only [bind, Except.bind]
  unfold submitMoviePilot
  rw [if_neg (by rw [hvalid]; exact Bool.false_ne_true), hfind]
  simp only [Except.mapError, bind, Except.bind, hhand]

/-- An open ticket. -/
def openTicket (ticketID : UUID) : Community.Ticket where
  id := ticketID
  ticketNo := ""
  accountID := ticketID
  subject := ""
  category := ""
  priority := "normal"
  status := .open_
  createdAt := 0
  updatedAt := 0

/-- A public reply of more than 4000 characters is too long for the notification. -/
theorem addTicketMessage_tooLong {d : Community.TicketDraw} {ticketID : UUID}
    {accountID : Option UUID} {body : String} {internal staff : Bool} {actor : Actor}
    (hvalid : Community.invalidMessage (trimSpace body) internal staff = false)
    (hlong : ¬(Call.addTicketMessage d ticketID accountID body internal staff actor).Short) :
    addTicketMessage d ticketID accountID body internal staff actor
        { tickets := [openTicket ticketID] } =
      .error (.tooLong (trimSpace body) (.column 4000) .database) := by
  obtain ⟨hbody, hsize⟩ := body_valid hvalid
  have hlen := length_le_bytes (trimSpace body)
  simp only [Call.Short, not_or, Bool.not_eq_true, Bool.not_eq_false] at hlong
  obtain ⟨hnul, hlabel, hinternal, hstaff, h4000⟩ := hlong
  subst hinternal hstaff
  obtain ⟨label, hlabel⟩ : ∃ label, varchar 255 actor.label = .ok label := by
    cases hv : varchar 255 actor.label with
    | ok label => exact ⟨label, rfl⟩
    | error e =>
      refine absurd (hv.trans (congrArg _ ?_)) hlabel
      unfold varchar at hv
      cases hs : storedText 255 (bytesOf actor.label) with
      | none =>
        rw [hs] at hv
        exact (Except.error.inj hv).symm
      | some text =>
        rw [hs] at hv
        cases hv
  have h8000 : column 8000 (trimSpace body) = .ok () := by
    unfold column
    rw [if_neg hnul, if_pos (admits_of_length (by omega))]
  have htitle : column 160 "工单有新回复" = .ok () := by
    unfold column
    rw [if_neg (by decide), if_pos (by decide)]
  have hcolumn : column 4000 (trimSpace body) =
      .error (.tooLong (trimSpace body) (.column 4000) .database) := by
    unfold column
    rw [if_neg hnul, if_neg fun h => h4000 ((admits_body hbody).1 h)]
  have hfind : Community.findTicket ticketID { tickets := [openTicket ticketID] } =
      .ok (openTicket ticketID) := by
    simp [Community.findTicket, openTicket]
  have hnotify : notifyReply (openTicket ticketID).accountID (trimSpace body) false true {} =
      .error (.tooLong (trimSpace body) (.column 4000) .database) := by
    unfold notifyReply
    rw [if_pos (by rfl), htitle]
    simp only [bind, Except.bind]
    exact hcolumn
  have hcheck : Community.checkTicket accountID true (openTicket ticketID) = .ok () := rfl
  unfold addTicketMessage
  rw [if_neg (by rw [hvalid]; exact Bool.false_ne_true), hfind, hlabel, h8000]
  simp only [Except.mapError, bind, Except.bind, hcheck, hnotify]

section Long

variable {env : Environment} {fresh : Fresh} {accountID instanceID : UUID} {username code key : String}
  {maxAttempts : Nat} {actor : Actor}

def openPlan (accountID : UUID) : MembershipPlan where
  id := accountID
  code := ""
  name := ""
  durationDays := 1
  durationDays_range := by decide
  entitlements := "{}"
  enabled := true

def openMembership (fresh : Fresh) (accountID : UUID) : AccountMembership where
  id := accountID
  accountId := accountID
  planId := accountID
  status := .active
  startsAt := fresh.now
  expiresAt := fresh.now + 1
  source := ""
  sourceRef := none
  createdBy := ""

/-- An active account with a current membership, and an instance without users. -/
def openStore (fresh : Fresh) (accountID : UUID) (selected : Option UUID) : Queue.Store where
  accounts := [{ id := accountID, status := .active }]
  instances := [{ id := selected.getD accountID, enabled := true }]
  plans := [openPlan accountID]
  memberships := [openMembership fresh accountID]

/-- The tables as a transaction sees them that has written nothing. -/
theorem lay_openStore {selected : Option UUID} :
    Layers.lay (openStore fresh accountID selected) (Layers.none Queue.Store) =
      openStore fresh accountID selected :=
  Layers.lay_none _

theorem not_admits_invite (hid : Plain accountID) (hkey : trimSpace key ≠ "")
    (hlong : ¬(trimSpace key).utf8ByteSize ≤ 106) :
    (Limit.bytes 160).admits (trimSpace (inviteKey accountID (trimSpace key))) = false := by
  obtain ⟨htrim, hsize⟩ := inviteKey_size hid hkey
  rw [htrim]
  refine decide_eq_false ?_
  omega

/-- The membership of a key that is too long for the redemption. -/
theorem provisionMembership_tooLong {selected : Option UUID} (hid : Plain accountID)
    (hkey : trimSpace key ≠ "") (hcode : trimSpace code ≠ "")
    (hsize : ¬100 < (trimSpace code).utf8ByteSize) (hlong : ¬(trimSpace key).utf8ByteSize ≤ 106) :
    Breaks (provisionMembership fresh accountID code (trimSpace key) actor)
      (openStore fresh accountID selected) (Layers.none Queue.Store)
      (.tooLong (trimSpace (inviteKey accountID (trimSpace key))) (.bytes 160) .forbidden) := by
  unfold provisionMembership
  rw [if_pos hcode]
  refine (does_check (by omega)).breaks ?_
  refine (breaks_check ?_).bind
  rw [not_admits_invite hid hkey hlong]
  exact Bool.false_ne_true

theorem provisionMembership_current {selected : Option UUID} (hcode : trimSpace code = "") :
    Does (provisionMembership fresh accountID code key actor)
      (openStore fresh accountID selected) (Layers.none Queue.Store)
      (openStore fresh accountID selected) (Layers.none Queue.Store)
      (openMembership fresh accountID, openPlan accountID) := by
  unfold provisionMembership
  rw [if_neg (not_not.2 hcode)]
  refine Does.mapError ?_
  refine (does_lockRow_one (by rw [lay_openStore]; rfl) ?_).bind ?_
  · simp only [openMembership, AccountMembership.current, decide_true, Bool.true_or, Bool.true_and]
    exact decide_eq_true (Int.lt_succ fresh.now)
  · refine Does.bind (does_orFail rfl) (Does.bind (does_readOne ?_) does_pure)
    rw [lay_openStore]
    simp [openStore, openMembership, openPlan]

/-- What comes before the membership. -/
theorem newProvisioning_breaks {selected : Option UUID} {x : Fault}
    (h : Breaks (do
      let (_, plan) ← provisionMembership fresh accountID code key actor
      let count ← (countBindings accountID (selected.getD accountID)).mapError .refused
      .check (count < env.maxEmbyAccounts plan.entitlements) (.refused .forbidden)
      hand (provisionKey accountID key) (.column 200) .conflict
      hand username (.column 255) .conflict
      hand (env.normalize username) (.column 255) .conflict
      (insertProvisioning env fresh accountID (selected.getD accountID) username
        (provisionKey accountID key) maxAttempts).mapError .refused
      .publish (.requested fresh.task)
      (getProvisioning accountID fresh.task).mapError .refused) (openStore fresh accountID selected)
      (Layers.none Queue.Store) x) :
    Breaks (newProvisioning env fresh accountID selected username code key maxAttempts actor)
      (openStore fresh accountID selected) (Layers.none Queue.Store) x := by
  have hselect : Does ((selectInstanceTx selected).mapError Fault.refused)
      (openStore fresh accountID selected) (Layers.none Queue.Store)
      (openStore fresh accountID selected) (Layers.none Queue.Store) (selected.getD accountID) := by
    refine Does.mapError ?_
    cases selected with
    | none =>
      refine (does_lockRow_one (by rw [lay_openStore]; rfl) (by simp)).bind ?_
      exact Does.bind (does_orFail rfl) does_pure
    | some id =>
      refine (does_lockRow_one (by rw [lay_openStore]; rfl) (by simp)).bind ?_
      exact Does.bind (does_orFail rfl) does_pure
  unfold newProvisioning
  refine (does_lockRow_one (by rw [lay_openStore]; rfl) (by simp)).breaks ?_
  refine Does.breaks (does_orFail rfl) (Does.breaks (does_check rfl) ?_)
  refine hselect.breaks ?_
  refine Does.breaks does_read ?_
  refine Does.breaks (does_check ?_) h
  rw [lay_openStore]
  simp [Store.occupied, openStore]

theorem requestProvisioning_tooLong {selected : Option UUID} (hmax : 0 < env.maxEmbyAccounts "{}")
    (hid : Plain accountID) (hname : embyUsernamePattern (trimSpace username) = true)
    (hkey : KeyValid key)
    (hlong : ¬(Call.requestProvisioning fresh accountID selected username code key maxAttempts
      actor).Short) :
    ∃ text limit e, Breaks
      (requestProvisioning env fresh accountID selected username code key maxAttempts actor)
      (openStore fresh accountID selected) (Layers.none Queue.Store) (.tooLong text limit e) := by
  obtain ⟨hnul, hlen⟩ := not_or.1 hlong
  have hparameter := provisionKey_nul hid hnul
  have hreplay : ((Layers.lay (openStore fresh accountID selected) (Layers.none Queue.Store)).tasks.find?
      (·.idempotencyKey = provisionKey accountID (trimSpace key))) = none := by
    rw [lay_openStore]
    rfl
  have hstart : ∀ {x : Fault}, Breaks (newProvisioning env fresh accountID selected (trimSpace username)
      code (trimSpace key) maxAttempts actor) (openStore fresh accountID selected)
      (Layers.none Queue.Store) x →
      Breaks (requestProvisioning env fresh accountID selected username code key maxAttempts actor)
        (openStore fresh accountID selected) (Layers.none Queue.Store) x := by
    intro x h
    unfold requestProvisioning
    refine Does.breaks (does_check ⟨hname, hkey.1, hkey.2⟩) ?_
    refine Does.breaks (does_check hparameter) ?_
    refine Does.breaks does_read ?_
    rw [hreplay]
    exact h
  by_cases hcode : trimSpace code = ""
  · rw [if_pos hcode] at hlen
    refine ⟨provisionKey accountID (trimSpace key), .column 200, .conflict,
      hstart (newProvisioning_breaks ?_)⟩
    · refine (provisionMembership_current hcode).breaks ?_
      refine Does.breaks (Does.mapError (does_exec_none rfl)) ?_
      refine Does.breaks (does_check ?_) ?_
      · rw [lay_openStore]
        exact hmax
      · refine Breaks.bind (breaks_check ?_)
        rw [admits_provisionKey hkey.1]
        exact hlen
  · rw [if_neg hcode] at hlen
    obtain ⟨hsize, hbytes⟩ := not_or.1 hlen
    exact ⟨_, _, _, hstart (newProvisioning_breaks
      (provisionMembership_tooLong hid hkey.1 hcode hsize hbytes).bind)⟩

theorem enqueueInstanceTask_tooLong {id : UUID} {now : Time} {taskType : String}
    (hid : Plain instanceID) (htype : (instanceTaskType taskType).isSome) (hkey : KeyValid key)
    (hlong : ¬(Call.enqueueInstanceTask id now taskType instanceID key maxAttempts).Short) :
    ∃ text limit e, Breaks (enqueueInstanceTask id now taskType instanceID key maxAttempts)
      { instances := [{ id := instanceID, enabled := true }] } (Layers.none Queue.Store)
      (.tooLong text limit e) := by
  obtain ⟨hnul, hlen⟩ := not_or.1 hlong
  obtain ⟨type, htype⟩ := Option.isSome_iff_exists.1 htype
  have hnulType : '\x00' ∉ taskType.toList := by
    unfold instanceTaskType at htype
    split at htype
    · next h => rw [h]; decide
    · split at htype
      · next h => rw [h]; decide
      · split at htype
        · next h => rw [h]; decide
        · split at htype
          · next h => rw [h]; decide
          · cases htype
  have hparameter : '\x00' ∉ (instanceTaskKey taskType instanceID (trimSpace key)).toList := by
    simp only [instanceTaskKey, String.toList_append, List.mem_append, not_or]
    exact ⟨⟨⟨⟨hnulType, by decide⟩, hid.2⟩, by decide⟩, hnul⟩
  refine ⟨instanceTaskKey taskType instanceID (trimSpace key), .column 200, .conflict, ?_⟩
  unfold enqueueInstanceTask
  refine Does.breaks (does_orFail htype) ?_
  refine Does.breaks (does_check hkey) ?_
  refine Does.breaks (does_readOne (a := { id := instanceID, enabled := true }) ?_) ?_
  · rw [Layers.lay_none]
    simp
  · refine Does.breaks (does_check rfl) ?_
    refine Does.breaks (does_check hparameter) ?_
    refine Does.breaks (does_read (g := fun v : Queue.Store => v.tasks.find?
      (·.idempotencyKey = instanceTaskKey taskType instanceID (trimSpace key)))) ?_
    rw [Layers.lay_none]
    refine Breaks.bind (breaks_check ?_)
    rw [admits_instanceTaskKey hkey.1]
    exact hlen

end Long

/-! ## The input that fits -/

theorem map_error {α β : Type} {r : Except Fault α} {f : α → β} {x : Fault} (h : r.map f = .error x) :
    r = .error x := by
  cases r with
  | error y => exact congrArg _ (Except.error.inj h)
  | ok a => cases h

/-- **Admitted input fits where it is copied to** exactly if it is short. -/
theorem fits_iff (env : Environment) (hlower : ∀ s, (env.toLower s).length = s.length)
    (hmax : 0 < env.maxEmbyAccounts "{}") (c : Call) (hplain : c.Plain) (hvalid : c.Valid) :
    c.Fits env ↔ c.Short := by
  constructor
  · intro hfits
    by_contra hlong
    cases c with
    | requestProvisioning fresh accountID selected username code key maxAttempts actor =>
      obtain ⟨text, limit, e, h⟩ := requestProvisioning_tooLong hmax hplain hvalid.1 hvalid.2 hlong
      refine hfits { store := openStore fresh accountID selected } text limit e ?_
      simp only [outcome, h.alone]
      rfl
    | enqueueInstanceTask id now taskType instanceID key maxAttempts =>
      obtain ⟨text, limit, e, h⟩ := enqueueInstanceTask_tooLong hplain hvalid.1 hvalid.2 hlong
      refine hfits { store := { instances := [{ id := instanceID, enabled := true }] } } text limit e ?_
      simp only [outcome, h.alone]
      rfl
    | submitMoviePilot c =>
      exact hfits { board := { requests := [openRequest c] } } _ _ _
        (congrArg (Except.map fun _ => ()) (submitMoviePilot_tooLong hvalid hlong))
    | addTicketMessage d ticketID accountID body internal staff actor =>
      exact hfits { desk := { tickets := [openTicket ticketID] } } _ _ _
        (congrArg (Except.map fun _ => ()) (addTicketMessage_tooLong hvalid hlong))
  · intro hshort t text limit e h
    cases c with
    | requestProvisioning fresh accountID selected username code key maxAttempts actor =>
      exact not_refused (Prog.alone_fails
        (requestProvisioning_fails hlower hplain hvalid.1 hvalid.2 hshort) (map_error h))
    | enqueueInstanceTask id now taskType instanceID key maxAttempts =>
      exact not_refused (Prog.alone_fails (enqueueInstanceTask_fails hvalid.2 hshort) (map_error h))
    | submitMoviePilot c => exact not_refused (submitMoviePilot_refuses hvalid hshort _ (map_error h))
    | addTicketMessage d ticketID accountID body internal staff actor =>
      exact not_refused (addTicketMessage_refuses hvalid hshort _ (map_error h))

/-- The server keeps ASCII names in small letters, and plans allow one account by default. -/
def plainEnvironment : Environment where
  toLower := fun s => s
  quote := fun s => s
  uniqueNames := true
  maxEmbyAccounts := fun _ => 1

/-- A key of `n` bytes. -/
def longKey (n : Nat) : String := String.ofList (List.replicate n 'k')

theorem longKey_size : ∀ n : Nat, (longKey n).utf8ByteSize = n
  | 0 => rfl
  | n + 1 => by
    have hcons : longKey (n + 1) = String.singleton 'k' ++ longKey n := String.ofList_cons
    rw [hcons, String.utf8ByteSize_append, longKey_size n, String.utf8ByteSize_singleton]
    exact Nat.add_comm 1 n

theorem mem_longKey {n : Nat} {c : Char} (h : c ∈ (longKey n).toList) : c = 'k' := by
  rw [longKey, String.toList_ofList] at h
  exact List.eq_of_mem_replicate h

theorem trimSpace_longKey (n : Nat) : trimSpace (longKey n) = longKey n :=
  trimSpace_of fun c hc => by
    rw [mem_longKey hc]
    decide

theorem longKey_valid {n : Nat} (h : 0 < n) (h' : n ≤ 160) : KeyValid (longKey n) := by
  unfold KeyValid
  rw [trimSpace_longKey, longKey_size]
  refine ⟨fun hempty => ?_, h'⟩
  have hsize := longKey_size n
  rw [hempty] at hsize
  exact absurd hsize (Nat.ne_of_lt h)

/-- A task with a key of `n` bytes. -/
def keyCall (n : Nat) : Call :=
  .enqueueInstanceTask (idOf '1') 0 "emby.reconcile" (idOf '2') (longKey n) 8

theorem keyCall_plain (n : Nat) : (keyCall n).Plain := ⟨by decide, by decide⟩

theorem keyCall_short (n : Nat) : (keyCall n).Short ↔ n ≤ 148 := by
  have hlen : (longKey n).length = n := by
    rw [longKey, String.length_ofList, List.length_replicate]
  show '\x00' ∈ (trimSpace (longKey n)).toList ∨ 14 + (trimSpace (longKey n)).length ≤ 162 ↔ _
  rw [trimSpace_longKey, hlen, or_iff_right fun hc => absurd (mem_longKey hc) (by decide)]
  omega

/-- A key of 148 bytes fits, and one of 149 bytes does not. -/
theorem fits_iff_keys : (keyCall 148).Fits plainEnvironment ∧ ¬(keyCall 149).Fits plainEnvironment := by
  have hiff : ∀ n, 0 < n → n ≤ 160 → ((keyCall n).Fits plainEnvironment ↔ (keyCall n).Short) :=
    fun n h h' => fits_iff plainEnvironment (fun _ => rfl) (by decide) (keyCall n) (keyCall_plain n)
      ⟨by decide, longKey_valid h h'⟩
  rw [hiff 148 (by decide) (by decide), hiff 149 (by decide) (by decide), keyCall_short, keyCall_short]
  decide

/-- A key of 160 bytes is accepted, and the task cannot be written. -/
theorem accepted_tooLong : ¬∀ c : Call, c.Plain → c.Valid → c.Fits plainEnvironment := by
  intro h
  have hkey : KeyValid (longKey 160) := longKey_valid (by decide) (by decide)
  have hlong : ¬(keyCall 160).Short := by
    rw [keyCall_short]
    decide
  obtain ⟨text, limit, e, hbreaks⟩ :=
    enqueueInstanceTask_tooLong (keyCall_plain 160) (by decide) hkey hlong
  refine h (keyCall 160) (keyCall_plain 160) ⟨by decide, hkey⟩
    { store := { instances := [{ id := idOf '2', enabled := true }] } } text limit e ?_
  simp only [outcome, keyCall, hbreaks.alone]
  rfl

end Sakura.Limits
