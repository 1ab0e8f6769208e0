/-
  Support tickets (platform/community.go).

  A message of a ticket is a public reply or an internal note of the staff.

  * `Ticket`, `TicketMessage`, `Desk`: the rows, with the tables of the automation;
  * `createTicket`, `addTicketMessage`, `updateTicket`: the transactions;
  * `getTicket`, `listTickets`, `listTicketMessages`: what the routes serve, to the owner or the staff;
  * `Request`, `Desk.step`: any step of the system.
-/
import Sakura.Community.Automation

namespace Sakura.Community

open Txn

/-! ## Dates -/

def pad (n : Nat) (value : Int) : String :=
  let digits := toString value
  "".pushn '0' (n - digits.length) ++ digits

/-- `t.Format("20060102")`: years begin in March here, so that a leap day is the last of its year. -/
def dateText (t : Time) : String :=
  let z := t / dayNanos + 306
  let era := z / 146097
  let doe := z % 146097
  let yoe := (doe - doe / 1460 + doe / 36524 - doe / 146096) / 365
  let doy := doe - (365 * yoe + yoe / 4 - yoe / 100)
  let mp := (5 * doy + 2) / 153
  let month := if mp < 10 then mp + 3 else mp - 9
  let year := yoe + era * 400 + if month ≤ 2 then 1 else 0
  pad 4 year ++ pad 2 month ++ pad 2 (doy - (153 * mp + 2) / 5 + 1)

/-! ## Rows -/

inductive TicketStatus where
  | open_ | waitingUser | waitingStaff | resolved | closed
  deriving DecidableEq, Repr

def TicketStatus.text : TicketStatus → String
  | .open_ => "open"
  | .waitingUser => "waiting_user"
  | .waitingStaff => "waiting_staff"
  | .resolved => "resolved"
  | .closed => "closed"

structure Ticket where
  id : UUID
  ticketNo : String
  accountID : UUID
  subject : String
  category : String
  priority : String
  status : TicketStatus
  assignedTo : Option UUID := none
  lastPublicReplyAt : Option Time := none
  lastInternalNoteAt : Option Time := none
  revision : Nat := 1
  createdAt : Time
  updatedAt : Time
  deriving DecidableEq

structure TicketMessage where
  id : UUID
  ticketID : UUID
  authorAccountID : Option UUID
  authorLabel : String
  body : String
  internal : Bool
  createdAt : Time
  deriving DecidableEq

structure Desk extends Automation where
  tickets : List Ticket := []
  messages : List TicketMessage := []

/-- The time of a transaction, and the identifiers that `uuid.New` draws in it: of a ticket, of a message
and of an event. -/
structure TicketDraw where
  now : Time
  ticketID : UUID
  messageID : UUID
  eventID : UUID

/-! ## Transactions -/

def priorities : List String := ["low", "normal", "high", "urgent"]

def invalidTicket (subject category priority body : String) : Bool :=
  subject = "" || 200 < subject.utf8ByteSize || category = "" || 40 < category.utf8ByteSize ||
    priority ∉ priorities || body = "" || 8000 < body.utf8ByteSize

/-- The INSERTs of a ticket, of its first message and of its event. -/
def insertTicket (d : TicketDraw) (accountID : UUID) (subject category priority body : String)
    (actor : Actor) (s : Desk) : Except Err Desk := do
  let number := "TKT-" ++ dateText d.now ++ "-" ++
    toUpper (String.ofList (d.ticketID.text.toList.take 8))
  let subject ← varchar 200 subject
  let category ← varchar 40 category
  let label ← varchar 255 actor.label
  let body ← varchar 8000 body
  pure { s with
    tickets := s.tickets ++ [
      { id := d.ticketID, ticketNo := number, accountID, subject, category, priority
        status := .open_, lastPublicReplyAt := some d.now, createdAt := d.now
        updatedAt := d.now }]
    messages := s.messages ++ [
      { id := d.messageID, ticketID := d.ticketID, authorAccountID := some accountID
        authorLabel := label, body, internal := false, createdAt := d.now }]
    board := emitAutomationEvent d.eventID d.now ("ticket.created:" ++ d.ticketID.text)
      "ticket.created" "ticket" d.ticketID.text
      [("ticket_id", d.ticketID.text), ("account_id", accountID.text), ("category", category),
        ("priority", priority)] s.board }

def createTicket (d : TicketDraw) (accountID : UUID) (subject category priority body : String)
    (actor : Actor) (s : Desk) : Except Err Desk :=
  let subject := trimSpace subject
  let category := normalize category
  let priority := if normalize priority = "" then "normal" else normalize priority
  let body := trimSpace body
  if invalidTicket subject category priority body then .error .invalid
  else insertTicket d accountID subject category priority body actor s

/-- `UPDATE support_tickets … WHERE id=…` -/
def updateRow (id : UUID) (set : Ticket → Ticket) (tickets : List Ticket) : List Ticket :=
  tickets.map fun t => if t.id = id then set t else t

def Ticket.note (now : Time) (t : Ticket) : Ticket :=
  { t with lastInternalNoteAt := some now, revision := t.revision + 1, updatedAt := now }

def Ticket.reply (now : Time) (staff : Bool) (t : Ticket) : Ticket :=
  { t with
    status := if staff then .waitingUser else .waitingStaff, lastPublicReplyAt := some now
    revision := t.revision + 1, updatedAt := now }

def boolText (b : Bool) : String := if b then "true" else "false"

/-- `emitAutomationEventTx` for a message. -/
def emitReply (d : TicketDraw) (ticketID ownerID : UUID) (internal staff : Bool) (b : Board) :
    Board :=
  emitAutomationEvent d.eventID d.now ("ticket.message:" ++ d.messageID.text) "ticket.replied"
    "ticket" ticketID.text
    [("ticket_id", ticketID.text), ("account_id", ownerID.text), ("internal", boolText internal),
      ("staff", boolText staff)] b

/-- The notification of the owner, of a public reply of the staff. -/
def notifyReply (d : TicketDraw) (ticketID ownerID : UUID) (body : String) (internal staff : Bool)
    (b : Board) : Except Err Board :=
  if !internal && staff then
    queuePreferredNotification d.now ownerID "ticket.reply" "工单有新回复" body
      [("ticket_id", ticketID.text)] b
  else pure b

/-- The statements of `AddTicketMessage` after it has locked the ticket. -/
def insertMessage (d : TicketDraw) (t : Ticket) (accountID : Option UUID) (body : String)
    (internal staff : Bool) (actor : Actor) (s : Desk) : Except Err Desk := do
  let label ← varchar 255 actor.label
  let text ← varchar 8000 body
  let board ← notifyReply d t.id t.accountID body internal staff s.board
  pure { s with
    messages := s.messages ++ [
      { id := d.messageID, ticketID := t.id, authorAccountID := accountID, authorLabel := label
        body := text, internal, createdAt := d.now }]
    tickets := updateRow t.id (if internal then Ticket.note d.now else Ticket.reply d.now staff)
      s.tickets
    board := emitReply d t.id t.accountID internal staff board }

def findTicket (id : UUID) (s : Desk) : Except Err Ticket :=
  (s.tickets.find? (·.id = id)).elim (.error .notFound) .ok

/-- The checks of `AddTicketMessage` on the ticket. -/
def checkTicket (accountID : Option UUID) (staff : Bool) (t : Ticket) : Except Err Unit :=
  if !staff && accountID ≠ some t.accountID then .error .forbidden
  else if t.status = .closed then .error .conflict
  else .ok ()

def invalidMessage (body : String) (internal staff : Bool) : Bool :=
  body = "" || 8000 < body.utf8ByteSize || (internal && !staff)

def addTicketMessage (d : TicketDraw) (ticketID : UUID) (accountID : Option UUID) (body : String)
    (internal staff : Bool) (actor : Actor) (s : Desk) : Except Err Desk :=
  if invalidMessage (trimSpace body) internal staff then .error .invalid
  else do
    let t ← findTicket ticketID s
    checkTicket accountID staff t
    insertMessage d t accountID (trimSpace body) internal staff actor s

/-- The status of a text. -/
def ticketStatusOf (text : String) : Option TicketStatus :=
  [TicketStatus.open_, .waitingUser, .waitingStaff, .resolved, .closed].find? (·.text = text)

/-- The UPDATE of `UpdateTicket`, if the revision is the expected one. -/
def setTicket (now : Time) (id : UUID) (status : TicketStatus) (priority : String)
    (assignedTo : Option UUID) (expected : Int) (s : Desk) : Except Err Desk := do
  let t ← findTicket id s
  if (t.revision : Int) ≠ expected then .error .conflict
  else .ok { s with
    tickets := updateRow id (fun t => { t with
      status, priority, assignedTo, revision := t.revision + 1, updatedAt := now }) s.tickets }

def updateTicket (now : Time) (id : UUID) (status priority : String) (assignedTo : Option UUID)
    (expected : Int) (s : Desk) : Except Err Desk :=
  match ticketStatusOf (normalize status) with
  | none => .error .invalid
  | some status =>
    if normalize priority ∉ priorities then .error .invalid
    else setTicket now id status (normalize priority) assignedTo expected s

/-! ## Views -/

/-- `($2::uuid IS NULL OR account_id=$2)` -/
def visibleTo (owner : Option UUID) (t : Ticket) : Bool := owner.all (· = t.accountID)

def getTicket (id : UUID) (owner : Option UUID) (s : Desk) : Except Err Ticket :=
  (s.tickets.find? fun t => t.id = id && visibleTo owner t).elim (.error .notFound) .ok

/-- `if limit < 1 || limit > 500 { limit = 100 }` -/
def limitOf (limit : Int) : Nat := if limit < 1 ∨ 500 < limit then 100 else limit.toNat

/-- `ORDER BY updated_at DESC` -/
def laterFirst (t t' : Ticket) : Prop := t'.updatedAt ≤ t.updatedAt

instance : DecidableRel laterFirst := fun t t' => inferInstanceAs (Decidable (t'.updatedAt ≤ t.updatedAt))

def listTickets (owner : Option UUID) (status : String) (limit : Int) (s : Desk) : List Ticket :=
  ((s.tickets.filter fun t => visibleTo owner t && (status = "" || t.status.text = status)).insertionSort
    laterFirst).take (limitOf limit)

/-- `ORDER BY m.created_at,m.id` -/
def messageOrder (m m' : TicketMessage) : Prop :=
  m.createdAt < m'.createdAt ∨ (m.createdAt = m'.createdAt ∧ m.id.text ≤ m'.id.text)

instance : DecidableRel messageOrder := fun _ _ => inferInstanceAs (Decidable (_ ∨ _))

def listTicketMessages (ticketID : UUID) (owner : Option UUID) (includeInternal : Bool) (s : Desk) :
    List TicketMessage :=
  let includeInternal := includeInternal && owner.isNone
  (s.messages.filter fun m =>
    m.ticketID = ticketID && s.tickets.any (fun t => t.id = ticketID && visibleTo owner t) &&
      (includeInternal || !m.internal)).insertionSort messageOrder

/-- The notifications of an account. -/
def notificationsOf (accountID : UUID) (s : Desk) : List Notification :=
  s.board.notifications.filter (·.accountId = accountID)

/-- The media requests that `ListMediaRequests` serves to an account. -/
def requestsOf (accountID : UUID) (s : Desk) : List MediaRequest :=
  s.board.requests.filter fun r =>
    s.board.subscriptions.any fun x => x.requestId = r.id && x.accountId = accountID

/-! ## Steps -/

/-- `other` is a transaction of another part of the system: none of them reads or writes a ticket. -/
inductive Request where
  | createTicket (d : TicketDraw) (accountID : UUID) (subject category priority body : String)
      (actor : Actor)
  | addTicketMessage (d : TicketDraw) (ticketID : UUID) (accountID : Option UUID) (body : String)
      (internal staff : Bool) (actor : Actor)
  | updateTicket (now : Time) (id : UUID) (status priority : String) (assignedTo : Option UUID)
      (expected : Int)
  | automation (l : AutomationStep)
  | other (f : Board → Board)

/-- A request that fails, and a step that cannot be taken, leave the state as it is. -/
def Desk.step (parse : String → Option UUID) : Request → Desk → Desk
  | .createTicket d accountID subject category priority body actor, s =>
    (createTicket d accountID subject category priority body actor s).toOption.getD s
  | .addTicketMessage d ticketID accountID body internal staff actor, s =>
    (addTicketMessage d ticketID accountID body internal staff actor s).toOption.getD s
  | .updateTicket now id status priority assignedTo expected, s =>
    (updateTicket now id status priority assignedTo expected s).toOption.getD s
  | .automation l, s =>
    (Automation.step parse l s.toAutomation).elim s fun a => { s with toAutomation := a }
  | .other f, s => { s with board := f s.board }

end Sakura.Community
