/-
  What the owner of a ticket sees of the internal notes.

  Two runs of the system side by side take the same steps, except that each may add notes of its own.

  * `Note`, `Move`: a note, and a step of the two runs;
  * `SameView`: an account sees the same in both;
  * `Harmless`: the notes that are added are on the same ticket, at the same time;
  * `notes_hidden_iff`: the runs in which no account sees a difference.
-/
import Sakura.Txn.Compare
import Sakura.Community.Tickets

namespace Sakura.Community

open Txn

/-! ## Two runs -/

/-- A call of `AddTicketMessage` for an internal note. -/
structure Note where
  now : Time
  ticketID : UUID
  accountID : Option UUID := none
  body : String
  staff : Bool := true
  actor : Actor

/-- `d` is what the identifiers are drawn from. -/
def Note.request (d : TicketDraw) (n : Note) : Request :=
  .addTicketMessage { d with now := n.now } n.ticketID n.accountID n.body true n.staff n.actor

/-- A step of two runs: the same in both, or a note in one of them or in each. -/
inductive Move where
  | same (l : Request)
  | notes (d : TicketDraw) (left right : Option Note)

def addNote (parse : String → Option UUID) (d : TicketDraw) (n : Option Note) (s : Desk) : Desk :=
  n.elim s fun n => Desk.step parse (n.request d) s

def Move.act (parse : String → Option UUID) : Move → Desk × Desk → Desk × Desk
  | .same l, (s, t) => (Desk.step parse l s, Desk.step parse l t)
  | .notes d left right, (s, t) => (addNote parse d left s, addNote parse d right t)

/-- What the account `owner` is served, is told, and sees of the effects of automation. -/
structure SameView (owner : UUID) (s t : Desk) : Prop where
  ticket : ∀ id, getTicket id (some owner) s = getTicket id (some owner) t
  tickets : ∀ status limit,
    listTickets (some owner) status limit s = listTickets (some owner) status limit t
  messages : ∀ ticketID includeInternal,
    listTicketMessages ticketID (some owner) includeInternal s =
      listTicketMessages ticketID (some owner) includeInternal t
  notifications : notificationsOf owner s = notificationsOf owner t
  requests : requestsOf owner s = requestsOf owner t

/-- Nobody can tell the two runs apart. -/
def Unseen (p : Desk × Desk) : Prop := ∀ owner, SameView owner p.1 p.2

/-- The ticket of a note, if the call adds it: the staff adds a note with a text to a ticket that is not
closed. -/
def Note.addedTo (n : Note) (s : Desk) : Option Ticket :=
  (s.tickets.find? (·.id = n.ticketID)).filter fun t =>
    !invalidMessage (trimSpace n.body) true n.staff && t.status ≠ .closed &&
      (varchar 255 n.actor.label).toOption.isSome &&
      (varchar 8000 (trimSpace n.body)).toOption.isSome

/-- The place and the time of a note that is added. -/
def noted (n : Option Note) (s : Desk) : Option (UUID × Time) :=
  n.bind fun n => (n.addedTo s).map fun _ => (n.ticketID, n.now)

/-- The notes that are added are on the same ticket at the same time: they differ in their texts. -/
def Harmless : Move → Desk × Desk → Prop
  | .same _, _ => True
  | .notes _ left right, (s, t) => noted left s = noted right t

/-! ## What a note changes -/

section

variable (parse : String → Option UUID) (d : TicketDraw) {n : Note} {s t : Desk}

/-- The public messages. -/
def publicMessages (s : Desk) : List TicketMessage := s.messages.filter fun m => !m.internal

/-- The states that differ in the internal messages only. -/
structure Low (p : Desk × Desk) : Prop where
  automation : p.1.toAutomation = p.2.toAutomation
  tickets : p.1.tickets = p.2.tickets
  messages : publicMessages p.1 = publicMessages p.2

theorem Low.refl (s : Desk) : Low (s, s) := ⟨rfl, rfl, rfl⟩

theorem checkTicket_staff {accountID : Option UUID} {k : Ticket} :
    checkTicket accountID true k = if k.status = .closed then .error .conflict else .ok () := by
  simp [checkTicket]

/-- A note that is not added is an error. -/
theorem addTicketMessage_rejected (h : n.addedTo s = none) :
    (addTicketMessage d n.ticketID n.accountID n.body true n.staff n.actor s).toOption = none := by
  unfold addTicketMessage
  split
  · rfl
  · next hbody =>
    have hstaff : n.staff = true := by
      simp only [invalidMessage, Bool.or_eq_true, not_or] at hbody
      simpa using hbody.2
    rw [hstaff] at hbody ⊢
    unfold Note.addedTo at h
    unfold findTicket
    cases hk : s.tickets.find? (·.id = n.ticketID) with
    | none => rfl
    | some k =>
      rw [hk, hstaff] at h
      simp only [hbody, Option.filter_some] at h
      show (checkTicket n.accountID true k >>= fun _ =>
        insertMessage d k n.accountID (trimSpace n.body) true true n.actor s).toOption = none
      rw [checkTicket_staff]
      split
      · rfl
      · next hopen =>
        show (insertMessage d k n.accountID (trimSpace n.body) true true n.actor s).toOption = none
        unfold insertMessage
        cases hlabel : varchar 255 n.actor.label with
        | error e => rfl
        | ok label =>
          cases htext : varchar 8000 (trimSpace n.body) with
          | error e => rfl
          | ok text => simp [hlabel, htext, hopen, Except.toOption] at h

/-- What a note leaves that is added. -/
theorem addTicketMessage_added {k : Ticket} (h : n.addedTo s = some k) :
    ∃ m : TicketMessage, m.internal = true ∧
      addTicketMessage d n.ticketID n.accountID n.body true n.staff n.actor s = .ok { s with
        messages := s.messages ++ [m]
        tickets := updateRow n.ticketID (Ticket.note d.now) s.tickets
        board := emitReply d n.ticketID k.accountID true true s.board } := by
  obtain ⟨hk, hadd⟩ := Option.filter_eq_some_iff.1 h
  simp only [Bool.and_eq_true, Bool.not_eq_true', decide_eq_true_eq] at hadd
  obtain ⟨⟨⟨hbody, hopen⟩, hlabel⟩, htext⟩ := hadd
  have hstaff : n.staff = true := by
    simp only [invalidMessage, Bool.or_eq_false_iff] at hbody
    simpa using hbody.2
  have hid : k.id = n.ticketID := by simpa using List.find?_some hk
  cases hl : varchar 255 n.actor.label with
  | error e => rw [hl] at hlabel; cases hlabel
  | ok label =>
    cases ht : varchar 8000 (trimSpace n.body) with
    | error e => rw [ht] at htext; cases htext
    | ok text =>
      refine ⟨⟨d.messageID, k.id, n.accountID, label, text, true, d.now⟩, rfl, ?_⟩
      unfold addTicketMessage findTicket
      rw [hbody, hk, hstaff]
      show (checkTicket n.accountID true k >>= fun _ =>
        insertMessage d k n.accountID (trimSpace n.body) true true n.actor s) = _
      rw [checkTicket_staff, if_neg hopen]
      show insertMessage d k n.accountID (trimSpace n.body) true true n.actor s = _
      unfold insertMessage
      rw [hl, ht, ← hid]
      rfl

theorem addNote_rejected (h : n.addedTo s = none) : addNote parse d (some n) s = s := by
  show (addTicketMessage _ n.ticketID n.accountID n.body true n.staff n.actor s).toOption.getD s = s
  rw [addTicketMessage_rejected _ h]
  rfl

theorem addNote_added {k : Ticket} (h : n.addedTo s = some k) :
    ∃ m : TicketMessage, m.internal = true ∧ addNote parse d (some n) s = { s with
      messages := s.messages ++ [m]
      tickets := updateRow n.ticketID (Ticket.note n.now) s.tickets
      board := emitReply { d with now := n.now } n.ticketID k.accountID true true s.board } := by
  obtain ⟨m, hm, hadd⟩ := addTicketMessage_added { d with now := n.now } h
  refine ⟨m, hm, ?_⟩
  show (addTicketMessage _ n.ticketID n.accountID n.body true n.staff n.actor s).toOption.getD s = _
  rw [hadd]
  rfl

theorem publicMessages_note {m : TicketMessage} (hm : m.internal = true) :
    (s.messages ++ [m]).filter (fun m => !m.internal) = publicMessages s := by
  rw [List.filter_append, publicMessages]
  simp [hm]

end

/-! ## The same step in both runs -/

section

variable (parse : String → Option UUID) (d : TicketDraw) {s t : Desk}

/-- What a transaction leaves in two states that differ in internal messages only. -/
inductive Twin : Except Err Desk → Except Err Desk → Prop
  | error (e : Err) : Twin (.error e) (.error e)
  | ok {s t : Desk} (h : Low (s, t)) : Twin (.ok s) (.ok t)

theorem Twin.low {x y : Except Err Desk} (hxy : Twin x y) (h : Low (s, t)) :
    Low (x.toOption.getD s, y.toOption.getD t) := by
  cases hxy with
  | error e => exact h
  | ok h' => exact h'

theorem Twin.bind {α : Type} {f g : α → Except Err Desk} (x : Except Err α)
    (h : ∀ a, x = .ok a → Twin (f a) (g a)) : Twin (x >>= f) (x >>= g) := by
  cases x with
  | error e => exact .error e
  | ok a => exact h a rfl

theorem Twin.ite {c : Prop} [Decidable c] {x x' y y' : Except Err Desk} (hx : Twin x x')
    (hy : Twin y y') : Twin (if c then x else y) (if c then x' else y') := by
  split
  · exact hx
  · exact hy

/-- Both runs append the same message. -/
theorem Low.append (h : Low (s, t)) (m : TicketMessage) (ts : List Ticket) (b : Board) :
    Low ({ s with messages := s.messages ++ [m], tickets := ts, board := b },
      { t with messages := t.messages ++ [m], tickets := ts, board := b }) := by
  obtain ⟨ha, -, hm⟩ := h
  refine ⟨congrArg (fun a : Automation => { a with board := b }) ha, rfl, ?_⟩
  show (s.messages ++ [m]).filter _ = (t.messages ++ [m]).filter _
  rw [List.filter_append, List.filter_append]
  exact congrArg (· ++ _) hm

theorem Low.board (h : Low (s, t)) : s.board = t.board := congrArg Automation.board h.automation

theorem twin_createTicket (h : Low (s, t)) (d : TicketDraw) (accountID : UUID)
    (subject category priority body : String) (actor : Actor) :
    Twin (createTicket d accountID subject category priority body actor s)
      (createTicket d accountID subject category priority body actor t) := by
  unfold createTicket insertTicket
  refine .ite (.error _) (.bind _ fun _ _ => .bind _ fun _ _ => .bind _ fun _ _ => .bind _ fun _ _ => ?_)
  have ht : s.tickets = t.tickets := h.tickets
  rw [ht, h.board]
  exact .ok (h.append _ _ _)

theorem twin_addTicketMessage (h : Low (s, t)) (d : TicketDraw) (ticketID : UUID)
    (accountID : Option UUID) (body : String) (internal staff : Bool) (actor : Actor) :
    Twin (addTicketMessage d ticketID accountID body internal staff actor s)
      (addTicketMessage d ticketID accountID body internal staff actor t) := by
  have ht : s.tickets = t.tickets := h.tickets
  unfold addTicketMessage findTicket insertMessage
  rw [ht, h.board]
  exact .ite (.error _) (.bind _ fun k _ => .bind _ fun _ _ => .bind _ fun _ _ => .bind _ fun _ _ =>
    .bind _ fun _ _ => .ok (h.append _ _ _))

theorem twin_updateTicket (h : Low (s, t)) (now : Time) (id : UUID) (status priority : String)
    (assignedTo : Option UUID) (expected : Int) :
    Twin (updateTicket now id status priority assignedTo expected s)
      (updateTicket now id status priority assignedTo expected t) := by
  have ht : s.tickets = t.tickets := h.tickets
  unfold updateTicket
  cases ticketStatusOf (normalize status) with
  | none => exact .error _
  | some status =>
    unfold setTicket findTicket
    rw [ht]
    exact .ite (.error _) (.bind _ fun k _ => .ite (.error _)
      (.ok ⟨h.automation, rfl, h.messages⟩))

theorem Low.step (l : Request) (h : Low (s, t)) : Low (Desk.step parse l s, Desk.step parse l t) := by
  cases l with
  | createTicket d accountID subject category priority body actor =>
    have := (twin_createTicket h d accountID subject category priority body actor).low h
    rwa [Desk.step, Desk.step]
  | addTicketMessage d ticketID accountID body internal staff actor =>
    have := (twin_addTicketMessage h d ticketID accountID body internal staff actor).low h
    rwa [Desk.step, Desk.step]
  | updateTicket now id status priority assignedTo expected =>
    have := (twin_updateTicket h now id status priority assignedTo expected).low h
    rwa [Desk.step, Desk.step]
  | automation l =>
    obtain ⟨ha, ht, hm⟩ := h
    have ha : s.toAutomation = t.toAutomation := ha
    rw [Desk.step, Desk.step, ha]
    cases Automation.step parse l t.toAutomation with
    | none => exact ⟨ha, ht, hm⟩
    | some a => exact ⟨rfl, ht, hm⟩
  | other f =>
    obtain ⟨ha, ht, hm⟩ := h
    have ha : s.toAutomation = t.toAutomation := ha
    refine ⟨?_, ht, hm⟩
    show { s.toAutomation with board := f s.board } = { t.toAutomation with board := f t.board }
    rw [ha]

/-! ## Views -/

/-- States that differ in internal messages look the same to every account. -/
theorem Low.unseen (h : Low (s, t)) : Unseen (s, t) := by
  obtain ⟨ha, ht, hm⟩ := h
  have ht : s.tickets = t.tickets := ht
  have hb : s.board = t.board := congrArg Automation.board ha
  refine fun owner => ⟨fun id => ?_, fun status limit => ?_, fun ticketID includeInternal => ?_, ?_, ?_⟩
  · show Option.elim (s.tickets.find? _) _ _ = Option.elim (t.tickets.find? _) _ _
    rw [ht]
  · show ((s.tickets.filter _).insertionSort _).take _ = ((t.tickets.filter _).insertionSort _).take _
    rw [ht]
  · simp only [listTicketMessages, Option.isNone_some, Bool.and_false, Bool.false_or, ht]
    have hm : (s.messages.filter fun m => !m.internal) = t.messages.filter fun m => !m.internal := hm
    simp only [← List.filter_filter]
    rw [hm]
  · show s.board.notifications.filter _ = t.board.notifications.filter _
    rw [hb]
  · show s.board.requests.filter _ = t.board.requests.filter _
    rw [hb]

/-- What the owner is served of a ticket that gets a note. -/
theorem find_noted {id owner : UUID} {now : Time} {ts : List Ticket} :
    (updateRow id (Ticket.note now) ts).find? (fun t => t.id = id && visibleTo (some owner) t) =
      (ts.find? fun t => t.id = id && visibleTo (some owner) t).map (Ticket.note now) := by
  induction ts with
  | nil => rfl
  | cons k ts ih =>
    rw [updateRow, List.map_cons, List.find?_cons, List.find?_cons]
    by_cases hk : k.id = id
    · rw [if_pos hk]
      have : visibleTo (some owner) (k.note now) = visibleTo (some owner) k := rfl
      rw [this, show (k.note now).id = k.id from rfl]
      cases decide (k.id = id) && visibleTo (some owner) k with
      | true => rfl
      | false => exact ih
    · rw [if_neg hk]
      simp only [hk, decide_false, Bool.false_and]
      exact ih

/-- A note on another ticket changes nothing of this one. -/
theorem find_other {id id' owner : UUID} {now : Time} {ts : List Ticket} (h : id ≠ id') :
    (updateRow id' (Ticket.note now) ts).find? (fun t => t.id = id && visibleTo (some owner) t) =
      ts.find? fun t => t.id = id && visibleTo (some owner) t := by
  induction ts with
  | nil => rfl
  | cons k ts ih =>
    rw [updateRow, List.map_cons, List.find?_cons, List.find?_cons]
    by_cases hk : k.id = id'
    · have hk' : k.id ≠ id := fun e => h (e ▸ hk)
      rw [if_pos hk, show (k.note now).id = k.id from rfl]
      simp only [hk', decide_false, Bool.false_and]
      exact ih
    · rw [if_neg hk]
      cases decide (k.id = id) && visibleTo (some owner) k with
      | true => rfl
      | false => exact ih

/-! ## Notes in the two runs -/

theorem addNote_none {n : Option Note} (h : noted n s = none) : addNote parse d n s = s := by
  cases n with
  | none => rfl
  | some n =>
    refine addNote_rejected parse d ?_
    simpa [noted] using h

theorem addNote_some {n : Option Note} {id : UUID} {now : Time} (h : noted n s = some (id, now)) :
    ∃ (k : Ticket) (m : TicketMessage), s.tickets.find? (·.id = id) = some k ∧ m.internal = true ∧
      addNote parse d n s = { s with
        messages := s.messages ++ [m]
        tickets := updateRow id (Ticket.note now) s.tickets
        board := emitReply { d with now := now } id k.accountID true true s.board } := by
  obtain ⟨n, rfl, h⟩ := Option.bind_eq_some_iff.1 h
  obtain ⟨k, hk, he⟩ := Option.map_eq_some_iff.1 h
  cases he
  obtain ⟨m, hm, hs⟩ := addNote_added parse d hk
  exact ⟨k, m, (Option.filter_eq_some_iff.1 hk).1, hm, hs⟩

/-- Notes on the same ticket at the same time leave states that differ in internal messages only. -/
theorem Low.notes {left right : Option Note} (h : Low (s, t)) (hn : noted left s = noted right t) :
    Low (addNote parse d left s, addNote parse d right t) := by
  cases hl : noted left s with
  | none => rwa [addNote_none parse d hl, addNote_none parse d (hn ▸ hl)]
  | some p =>
    obtain ⟨id, now⟩ := p
    obtain ⟨k, m, hk, hm, hs⟩ := addNote_some parse d hl
    obtain ⟨k', m', hk', hm', ht⟩ := addNote_some parse d (hn ▸ hl)
    have htickets : s.tickets = t.tickets := h.tickets
    rw [htickets, hk'] at hk
    cases hk
    rw [hs, ht, htickets, h.board]
    refine ⟨?_, rfl, ?_⟩
    · exact congrArg (fun a : Automation => { a with
        board := emitReply { d with now := now } id k.accountID true true t.board }) h.automation
    · exact (publicMessages_note hm).trans (h.messages.trans (publicMessages_note hm').symm)

/-- The owner of the ticket of a note that is added is served a later revision. -/
theorem getTicket_noted {n : Option Note} {id : UUID} {now : Time}
    (h : noted n s = some (id, now)) :
    ∃ k : Ticket, s.tickets.find? (·.id = id) = some k ∧
      getTicket id (some k.accountID) s = .ok k ∧
      getTicket id (some k.accountID) (addNote parse d n s) = .ok (k.note now) := by
  obtain ⟨k, m, hk, -, hs⟩ := addNote_some parse d h
  have hvisible : s.tickets.find? (fun t => t.id = id && visibleTo (some k.accountID) t) =
      some k := by
    obtain ⟨hid, as, bs, he, hno⟩ := List.find?_eq_some_iff_append.1 hk
    refine List.find?_eq_some_iff_append.2
      ⟨by simpa [visibleTo] using hid, as, bs, he, fun a ha => ?_⟩
    have := hno a ha
    simp_all
  refine ⟨k, hk, ?_, ?_⟩
  · rw [getTicket, hvisible]
    rfl
  · rw [getTicket, hs, find_noted, hvisible]
    rfl

/-- Whoever owns another ticket is served what was served before. -/
theorem getTicket_other {n : Option Note} {id owner : UUID}
    (h : ∀ p ∈ noted n s, id ≠ p.1) :
    getTicket id (some owner) (addNote parse d n s) = getTicket id (some owner) s := by
  cases hn : noted n s with
  | none => rw [addNote_none parse d hn]
  | some p =>
    obtain ⟨id', now⟩ := p
    obtain ⟨k, m, -, -, hs⟩ := addNote_some parse d hn
    rw [getTicket, hs, find_other (h _ hn), getTicket]

theorem Ticket.note_ne (k : Ticket) (now : Time) : k.note now ≠ k := by
  intro h
  have : k.revision + 1 = k.revision := congrArg Ticket.revision h
  omega

/-- If nobody sees a difference, then a note in one run has its match in the other. -/
theorem noted_of_same {left right : Option Note} (ht : s.tickets = t.tickets)
    (hview : ∀ id owner, getTicket id (some owner) (addNote parse d left s) =
      getTicket id (some owner) (addNote parse d right t))
    {p : UUID × Time} (hp : noted left s = some p) : noted right t = some p := by
  obtain ⟨id, now⟩ := p
  obtain ⟨k, hfind, hk, hl⟩ := getTicket_noted parse d hp
  have hk : getTicket id (some k.accountID) t = .ok k := by
    rw [← hk, getTicket, getTicket, ht]
  have hr := (hview id k.accountID).symm.trans hl
  have hid : ∃ q ∈ noted right t, id = q.1 := by
    by_contra hno
    rw [getTicket_other parse d (fun q hq he => hno ⟨q, hq, he⟩), hk] at hr
    exact Ticket.note_ne k now (Except.ok.inj hr).symm
  obtain ⟨⟨id', now'⟩, hq, rfl⟩ := hid
  obtain ⟨k', hfind', -, hr'⟩ := getTicket_noted parse d hq
  rw [← ht, hfind] at hfind'
  cases hfind'
  have hnow : some now' = some now :=
    congrArg Ticket.lastInternalNoteAt (Except.ok.inj (hr'.symm.trans hr))
  rw [Option.mem_def.1 hq, Option.some.inj hnow]

/-- **What the owners see of internal notes.** Two runs that take the same steps but for the notes look
the same to every account at every moment exactly if the notes that are added are on the same tickets,
at the same times: nothing tells their texts and authors, but their number and time show. -/
theorem notes_unseen_iff (ms : List Move) (s : Desk) :
    AfterEach (Move.act parse) Unseen ms (s, s) ↔
      BeforeEach (Move.act parse) Harmless ms (s, s) := by
  refine after_iff_before (R := Low) (fun p h => h.unseen) ?_ ?_ ms (Low.refl s)
  · rintro (l | ⟨d, left, right⟩) ⟨s, t⟩ h hC
    · exact h.step parse l
    · exact h.notes parse d hC
  · rintro (l | ⟨d, left, right⟩) ⟨s, t⟩ h hP
    · trivial
    · have hview : ∀ id owner, getTicket id (some owner) (addNote parse d left s) =
          getTicket id (some owner) (addNote parse d right t) := fun id owner => (hP owner).ticket id
      show noted left s = noted right t
      cases hl : noted left s with
      | some p => exact (noted_of_same parse d h.tickets hview hl).symm
      | none =>
        cases hr : noted right t with
        | none => rfl
        | some p =>
          have := noted_of_same parse d h.tickets.symm (fun id owner => (hview id owner).symm) hr
          rw [hl] at this
          cases this

end

/-- One run is a ticket, the other a ticket with a note. -/
def oneNote : List Move :=
  [.same (.createTicket ⟨0, idOf '1', idOf '2', idOf '3'⟩ (idOf 'a') "Help" "general" "" "Hello"
      ⟨"account", "a"⟩),
    .notes ⟨0, idOf '1', idOf '4', idOf '5'⟩ none (some
      { now := 1000, ticketID := idOf '1', body := "Suspicious", actor := ⟨"account", "b"⟩ })]

/-- The owner is served another revision of the ticket. -/
theorem note_seen : ¬ AfterEach (Move.act fun _ => none) Unseen oneNote ({}, {}) := by
  rintro ⟨-, hP, -⟩
  have h := congrArg (fun r : Except Err Ticket => r.toOption.map Ticket.revision)
    ((hP (idOf 'a')).ticket (idOf '1'))
  revert h
  decide +kernel

end Sakura.Community
