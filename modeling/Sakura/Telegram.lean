/-
  Deliveries to Telegram (platform/batch.go, httpapi/commerce_routes.go, telegrambot/bot.go).

  A bot process claims a notification, sends it, and posts how it went.  All processes are one
  worker.

  * `AccountNotification`, `TelegramIdentity`, `Deliveries`: the rows, and the processes with what
  they
    deliver;
  * `candidates`, `claimTelegramNotification`, `completeTelegramNotification`: the calls;
  * `Label`, `step`: any interleaving of them;
  * `Accounted`: every notification is sent, or will be tried again, or has failed five times;
  * `deliveries_accounted`: the runs in which it holds.
-/
import Sakura.Txn.Machine
import Sakura.Txn.Table
import Sakura.Text

namespace Sakura.Telegram

open Txn

/-! ## Rows -/

inductive DeliveryStatus where
  | pending | sending | sent | failed
  deriving DecidableEq, Repr

/-- A row of the channel telegram. -/
structure AccountNotification where
  id : UUID
  accountId : UUID
  title : String
  body : String
  deliveryStatus : DeliveryStatus := .pending
  deliveryAttempts : Nat := 0
  deliveryLeaseOwner : Option String := none
  deliveryLeaseExpiresAt : Option Time := none
  nextDeliveryAt : Time
  deliveredAt : Option Time := none
  deliveryError : Option String := none
  createdAt : Time
  deriving DecidableEq

/-- An identity of kind telegram that is not disabled. -/
structure TelegramIdentity where
  accountId : UUID
  subject : String
  deriving DecidableEq

/-- `TelegramNotificationDelivery`; `attempt` is the number of the claim. -/
structure Delivery where
  notificationID : UUID
  telegramUserID : Int64
  title : String
  body : String
  attempt : Nat
  deriving DecidableEq

/-- A result that was recorded: the claim of the process that recorded it, and the last claim. -/
structure Record where
  notificationID : UUID
  claim : Nat
  latest : Nat
  deriving DecidableEq

/-- `records` is the history of the results. -/
structure Deliveries where
  notifications : List AccountNotification
  identities : List TelegramIdentity
  processes : List Delivery := []
  records : List Record := []

/-! ## Calls -/

/-- The condition on the columns of a notification. -/
def AccountNotification.due (now : Time) (n : AccountNotification) : Bool :=
  n.deliveryAttempts < 5 &&
    (((n.deliveryStatus = .pending || n.deliveryStatus = .failed) && n.nextDeliveryAt ≤ now) ||
      (n.deliveryStatus = .sending && n.deliveryLeaseExpiresAt.any (· < now)))

/-- The rows of the query, without those that other transactions have locked. -/
def candidates (locked : List UUID) (now : Time) (s : Deliveries) :
    List (AccountNotification × TelegramIdentity) :=
  (s.notifications.filter fun n => n.due now && n.id ∉ locked).flatMap fun n =>
    (s.identities.filter (·.accountId = n.accountId)).map (n, ·)

/-- `ORDER BY n.next_delivery_at,n.created_at` -/
def earlier (n m : AccountNotification) : Bool :=
  n.nextDeliveryAt < m.nextDeliveryAt ||
    n.nextDeliveryAt = m.nextDeliveryAt && n.createdAt ≤ m.createdAt

/-- A row that LIMIT 1 may leave. -/
def first (rows : List (AccountNotification × TelegramIdentity))
    (row : AccountNotification × TelegramIdentity) : Bool :=
  row ∈ rows && rows.all fun r => earlier row.1 r.1

/-- `if lease < 15*time.Second { lease = 45 * time.Second }` -/
def leaseOf (lease : Time) : Time := if lease < 15000000000 then 45000000000 else lease

def AccountNotification.claim (workerID : String) (lease now : Time) (n : AccountNotification) :
    AccountNotification :=
  { n with
    deliveryStatus := .sending, deliveryAttempts := n.deliveryAttempts + 1
    deliveryLeaseOwner := some workerID, deliveryLeaseExpiresAt := some (now + leaseOf lease)
    deliveryError := none }

/-- `sscan` is `fmt.Sscan` to an int64, and `row` the row that the query finds; an error rolls
back. -/
def claimTelegramNotification (sscan : String → Option Int64) (workerID : String) (lease now : Time)
    (row : Option (AccountNotification × TelegramIdentity))
      (notifications : List AccountNotification) :
    Except Err (Option Delivery × List AccountNotification) :=
  if workerID = "" then .error .invalid
  else match row with
  | none => .ok (none, notifications)
  | some (n, i) => match sscan i.subject with
    | none => .error .database
    | some telegramUserID =>
      .ok (some ⟨n.id, telegramUserID, n.title, n.body, n.deliveryAttempts + 1⟩,
        put AccountNotification.id notifications (n.claim workerID lease now))

def AccountNotification.deliver (now : Time) (n : AccountNotification) : AccountNotification :=
  { n with
    deliveryStatus := .sent, deliveredAt := some now, deliveryLeaseOwner := none
    deliveryLeaseExpiresAt := none, deliveryError := none }

/-- `LEAST(300,POWER(2,delivery_attempts))` seconds later. -/
def AccountNotification.fail (now : Time) (message : String) (n : AccountNotification) :
    AccountNotification :=
  { n with
    deliveryStatus := .failed
    nextDeliveryAt := now + min 300 (2 ^ n.deliveryAttempts) * 1000000000
    deliveryLeaseOwner := none, deliveryLeaseExpiresAt := none, deliveryError := some message }

/-- What a result makes of a notification, if the column `delivery_error` accepts the error. -/
def AccountNotification.record (now : Time) (deliveryErr : Option String)
    (n : AccountNotification) :
    Option AccountNotification :=
  match deliveryErr with
  | none => some (n.deliver now)
  | some err => (storedText 1000 (truncateError (bytesOf err))).map (n.fail now ·)

def completeTelegramNotification (id : UUID) (workerID : String) (now : Time)
    (deliveryErr : Option String) (notifications : List AccountNotification) :
    Except Err (List AccountNotification) :=
  if workerID = "" then .error .invalid
  else match notifications.find? fun n =>
      n.id = id && n.deliveryStatus = .sending && n.deliveryLeaseOwner = some workerID with
  | none => .error .conflict
  | some n => match n.record now deliveryErr with
    | none => .error .database
    | some n => .ok (put AccountNotification.id notifications n)

/-! ## Routes and processes -/

/-- The worker of the routes. -/
def telegramBot : String := "telegram-bot"

/-- The body of a completion without an error is a success. -/
def deliveryError (error : String) : Option String := if trimSpace error = "" then none else some
    error

/-- `n` is the number of a process.  A process ends when it has posted its result, or when it
crashes. -/
inductive Label where
  | claim (now : Time) (locked : List UUID) (row : Option (AccountNotification × TelegramIdentity))
  | complete (n : Nat) (now : Time) (error : String)
  | crash (n : Nat)

/-- The row of a query: one that is first, or none if there are none. -/
def finds (locked : List UUID) (now : Time) (s : Deliveries) :
    Option (AccountNotification × TelegramIdentity) → Bool
  | none => candidates locked now s = []
  | some row => first (candidates locked now s) row

/-- The notification that a process is about, if it is being sent. -/
def Deliveries.sending (s : Deliveries) (d : Delivery) : Option AccountNotification :=
  s.notifications.find? fun n => n.id = d.notificationID && n.deliveryStatus = .sending &&
    n.deliveryLeaseOwner = some telegramBot

def step (sscan : String → Option Int64) : Label → Deliveries → Option Deliveries
  | .claim now locked row, s =>
    if !finds locked now s row then none
    else match claimTelegramNotification sscan telegramBot 45000000000 now row s.notifications with
    | .error _ => some s
    | .ok (delivery, notifications) =>
      some { s with notifications, processes := s.processes ++ delivery.toList }
  | .complete n now error, s =>
    s.processes[n]?.map fun d =>
      match completeTelegramNotification d.notificationID telegramBot now (deliveryError error)
        s.notifications with
      | .error _ => { s with processes := s.processes.eraseIdx n }
      | .ok notifications => { s with
          notifications
          processes := s.processes.eraseIdx n
          records := s.records ++ ((s.sending d).map fun n =>
            ⟨n.id, d.attempt, n.deliveryAttempts⟩).toList }
  | .crash n, s => s.processes[n]?.map fun _ => { s with processes := s.processes.eraseIdx n }

/-! ## Accounting -/

/-- A process delivers the notification, and its claim is the last one. -/
def Delivered (n : AccountNotification) (s : Deliveries) : Prop :=
  n.deliveryStatus = .sending ∧
    ∃ d ∈ s.processes, d.notificationID = n.id ∧ d.attempt = n.deliveryAttempts

def Claimable (now : Time) (n : AccountNotification) (s : Deliveries) : Prop :=
  ∃ i, (n, i) ∈ candidates [] now s

/-- Where a notification is that has not been sent: a process delivers it, it can be claimed at some
later time, or it has failed five times. -/
def Open (n : AccountNotification) (s : Deliveries) : Prop :=
  Delivered n s ∨ (∀ t, ∃ now, t ≤ now ∧ Claimable now n s) ∨
    (n.deliveryStatus = .failed ∧ n.deliveryAttempts = 5)

structure Accounted (sscan : String → Option Int64) (s : Deliveries) : Prop where
  attempts : ∀ n ∈ s.notifications, n.deliveryAttempts ≤ 5
  sent : ∀ l s', step sscan l s = some s' → ∀ n ∈ s.notifications, n.deliveryStatus = .sent →
    n ∈ s'.notifications
  unsent : ∀ n ∈ s.notifications, n.deliveryStatus ≠ .sent → Open n s
  records : ∀ r ∈ s.records, r.claim = r.latest
  claims : ∀ now locked row, first (candidates locked now s) row → ∃ delivery notifications,
    claimTelegramNotification sscan telegramBot 45000000000 now (some row) s.notifications =
      .ok (some delivery, notifications)

/-- Notifications that have not been claimed yet, or that are sent. -/
structure Initial (s : Deliveries) : Prop where
  ids : UniqueBy AccountNotification.id s.notifications
  fresh : ∀ n ∈ s.notifications, n.deliveryStatus = .sent ∨ n.deliveryStatus = .pending
  unclaimed : ∀ n ∈ s.notifications, n.deliveryAttempts = 0
  idle : s.processes = []
  empty : s.records = []

/-- Every notification has an identity to send it to, and all of them have well-formed subjects. -/
structure Addressed (sscan : String → Option Int64) (s : Deliveries) : Prop where
  identity : ∀ n ∈ s.notifications, ∃ i ∈ s.identities, i.accountId = n.accountId
  subjects : ∀ n ∈ s.notifications, ∀ i ∈ s.identities, i.accountId = n.accountId →
    (sscan i.subject).isSome

/-- A result is that of the last claim, and the fifth claim ends with a result: no process crashes
then,
or posts an error that the column refuses. -/
def heeds (l : Label) (s : Deliveries) : Bool :=
  match l with
  | .claim _ _ _ => true
  | .complete n now error => s.processes[n]?.all fun d => (s.sending d).all fun x =>
      if (x.record now (deliveryError error)).isSome then d.attempt = x.deliveryAttempts
      else !(d.attempt = x.deliveryAttempts && x.deliveryAttempts = 5)
  | .crash n => s.processes[n]?.all fun d => (s.sending d).all fun x =>
      !(d.attempt = x.deliveryAttempts && x.deliveryAttempts = 5)

/-! ## Rows and processes -/

/-- What holds in every run. -/
structure Inv (sscan : String → Option Int64) (s : Deliveries) : Prop where
  ids : UniqueBy AccountNotification.id s.notifications
  attempts : ∀ n ∈ s.notifications, n.deliveryAttempts ≤ 5
  pending : ∀ n ∈ s.notifications, n.deliveryStatus = .pending → n.deliveryAttempts < 5
  leased : ∀ n ∈ s.notifications, n.deliveryStatus = .sending →
    n.deliveryLeaseOwner = some telegramBot ∧ n.deliveryLeaseExpiresAt.isSome
  processes : UniqueBy (fun d : Delivery => (d.notificationID, d.attempt)) s.processes
  claimed : ∀ d ∈ s.processes, ∃ n ∈ s.notifications, n.id = d.notificationID ∧
    d.attempt ≤ n.deliveryAttempts
  addressed : Addressed sscan s

section

variable {sscan : String → Option Int64} {s s' : Deliveries}

theorem mem_candidates {locked : List UUID} {now : Time} {n : AccountNotification}
    {i : TelegramIdentity} : (n, i) ∈ candidates locked now s ↔
      n ∈ s.notifications ∧ n.due now = true ∧ n.id ∉ locked ∧ i ∈ s.identities ∧
        i.accountId = n.accountId := by
  unfold candidates
  rw [List.mem_flatMap]
  constructor
  · rintro ⟨m, hm, h⟩
    obtain ⟨j, hj, heq⟩ := List.mem_map.1 h
    obtain ⟨rfl, rfl⟩ := Prod.mk.inj heq
    obtain ⟨hm, hdue⟩ := List.mem_filter.1 hm
    obtain ⟨hj, hacc⟩ := List.mem_filter.1 hj
    obtain ⟨hdue, hlocked⟩ := Bool.and_eq_true_iff.1 hdue
    exact ⟨hm, hdue, of_decide_eq_true hlocked, hj, of_decide_eq_true hacc⟩
  · rintro ⟨hm, hdue, hlocked, hj, hacc⟩
    refine ⟨n, List.mem_filter.2 ⟨hm, ?_⟩, List.mem_map.2 ⟨i, List.mem_filter.2 ⟨hj, ?_⟩, rfl⟩⟩
    · rw [hdue, decide_eq_true hlocked]
      rfl
    · exact decide_eq_true hacc

theorem first_mem {rows : List (AccountNotification × TelegramIdentity)}
    {row : AccountNotification × TelegramIdentity} (h : first rows row) : row ∈ rows :=
  of_decide_eq_true (Bool.and_eq_true_iff.1 h).1

theorem due_spec {now : Time} {n : AccountNotification} (h : n.due now = true) :
    n.deliveryAttempts < 5 ∧ n.deliveryStatus ≠ .sent := by
  unfold AccountNotification.due at h
  obtain ⟨hlt, hor⟩ := Bool.and_eq_true_iff.1 h
  refine ⟨of_decide_eq_true hlt, fun hsent => ?_⟩
  rw [hsent] at hor
  simp at hor

/-- A notification with attempts left can be claimed at some later time. -/
theorem Inv.claimable (hI : Inv sscan s) {n : AccountNotification} (hn : n ∈ s.notifications)
    (hlt : n.deliveryAttempts < 5) (hst : n.deliveryStatus ≠ .sent) :
    ∀ t, ∃ now, t ≤ now ∧ Claimable now n s := by
  intro t
  obtain ⟨i, hi, hacc⟩ := hI.addressed.identity n hn
  have hdue : ∃ now, t ≤ now ∧ n.due now = true := by
    unfold AccountNotification.due
    cases hstatus : n.deliveryStatus with
    | sent => exact absurd hstatus hst
    | pending =>
      refine ⟨max t n.nextDeliveryAt, Int.le_max_left _ _, ?_⟩
      simp [hlt, Int.le_max_right t n.nextDeliveryAt]
    | failed =>
      refine ⟨max t n.nextDeliveryAt, Int.le_max_left _ _, ?_⟩
      simp [hlt, Int.le_max_right t n.nextDeliveryAt]
    | sending =>
      obtain ⟨-, hlease⟩ := hI.leased n hn hstatus
      obtain ⟨expires, hexpires⟩ := Option.isSome_iff_exists.1 hlease
      refine ⟨max t (expires + 1), Int.le_max_left _ _, ?_⟩
      have hlater : expires < max t (expires + 1) :=
        Int.lt_of_lt_of_le (Int.lt_succ _) (Int.le_max_right _ _)
      simp [hlt, hexpires, hlater]
  obtain ⟨now, hle, hdue⟩ := hdue
  exact ⟨now, hle, i, mem_candidates.2 ⟨hn, hdue, List.not_mem_nil, hi, hacc⟩⟩

/-- Only the notifications that a process delivers at the fifth attempt need it. -/
theorem Inv.unsent_iff (hI : Inv sscan s) : (∀ n ∈ s.notifications, n.deliveryStatus ≠ .sent → Open
    n s) ↔
    ∀ n ∈ s.notifications, n.deliveryStatus = .sending → n.deliveryAttempts = 5 → Delivered n
      s := by
  constructor
  · intro h n hn hst hfive
    rcases h n hn (by rw [hst]; nofun) with hd | hc | ⟨hf, -⟩
    · exact hd
    · obtain ⟨now, -, i, hi⟩ := hc 0
      have := (due_spec (mem_candidates.1 hi).2.1).1
      omega
    · rw [hst] at hf
      cases hf
  · intro h n hn hst
    by_cases hlt : n.deliveryAttempts < 5
    · exact .inr (.inl (hI.claimable hn hlt hst))
    have hfive : n.deliveryAttempts = 5 := Nat.le_antisymm (hI.attempts n hn) (Nat.le_of_not_lt hlt)
    cases hstatus : n.deliveryStatus with
    | sent => exact absurd hstatus hst
    | pending => exact absurd (hI.pending n hn hstatus) hlt
    | sending => exact .inl (h n hn hstatus hfive)
    | failed => exact .inr (.inr ⟨hstatus, hfive⟩)

/-- With well-formed subjects a claim is not refused. -/
theorem Inv.claims (hI : Inv sscan s) {locked : List UUID} {now : Time}
    {row : AccountNotification × TelegramIdentity} (h : first (candidates locked now s) row) :
    ∃ telegramUserID, sscan row.2.subject = some telegramUserID ∧
      claimTelegramNotification sscan telegramBot 45000000000 now (some row) s.notifications =
        .ok (some ⟨row.1.id, telegramUserID, row.1.title, row.1.body, row.1.deliveryAttempts + 1⟩,
          put AccountNotification.id s.notifications (row.1.claim telegramBot 45000000000
            now)) := by
  obtain ⟨n, i⟩ := row
  obtain ⟨hn, -, -, hi, hacc⟩ := mem_candidates.1 (first_mem h)
  obtain ⟨telegramUserID, hs⟩ := Option.isSome_iff_exists.1 (hI.addressed.subjects n hn i hi hacc)
  refine ⟨telegramUserID, hs, ?_⟩
  unfold claimTelegramNotification
  rw [if_neg (by decide)]
  simp only [hs]

/-! ## Steps -/

theorem Initial.inv (h : Initial s) (ha : Addressed sscan s) : Inv sscan s where
  ids := h.ids
  attempts n hn := by rw [h.unclaimed n hn]; decide
  pending n hn _ := by rw [h.unclaimed n hn]; decide
  leased n hn hst := by
    rcases h.fresh n hn with hf | hf
    · rw [hf] at hst; cases hst
    · rw [hf] at hst; cases hst
  processes := by rw [h.idle]; exact uniqueBy_nil
  claimed d hd := by rw [h.idle] at hd; cases hd
  addressed := ha

/-- A row is written that has at least as many attempts. -/
theorem Inv.write (hI : Inv sscan s) {n n' : AccountNotification} (hn : n ∈ s.notifications)
    (hid : n'.id = n.id) (hacc : n'.accountId = n.accountId)
    (hle : n.deliveryAttempts ≤ n'.deliveryAttempts) (hfive : n'.deliveryAttempts ≤ 5)
    (hpending : n'.deliveryStatus ≠ .pending)
    (hleased : n'.deliveryStatus = .sending →
      n'.deliveryLeaseOwner = some telegramBot ∧ n'.deliveryLeaseExpiresAt.isSome) :
    Inv sscan { s with notifications := put AccountNotification.id s.notifications n' } where
  ids := hI.ids.put fun _ _ e => e
  attempts x hx := by
    rcases mem_put.1 hx with ⟨hx, -⟩ | rfl
    · exact hI.attempts x hx
    · exact hfive
  pending x hx hst := by
    rcases mem_put.1 hx with ⟨hx, -⟩ | rfl
    · exact hI.pending x hx hst
    · exact absurd hst hpending
  leased x hx hst := by
    rcases mem_put.1 hx with ⟨hx, -⟩ | rfl
    · exact hI.leased x hx hst
    · exact hleased hst
  processes := hI.processes
  claimed d hd := by
    obtain ⟨x, hx, hxid, hxle⟩ := hI.claimed d hd
    by_cases he : x.id = n'.id
    · rw [hI.ids.eq hx hn (he.trans hid)] at hxid hxle
      exact ⟨n', mem_put.2 (.inr rfl), hid.trans hxid, hxle.trans hle⟩
    · exact ⟨x, mem_put.2 (.inl ⟨hx, he⟩), hxid, hxle⟩
  addressed := by
    have hof : ∀ x ∈ put AccountNotification.id s.notifications n',
        ∃ y ∈ s.notifications, y.accountId = x.accountId := fun x hx => by
      rcases mem_put.1 hx with ⟨hx, -⟩ | rfl
      · exact ⟨x, hx, rfl⟩
      · exact ⟨n, hn, hacc.symm⟩
    constructor
    · intro x hx
      obtain ⟨y, hy, he⟩ := hof x hx
      exact he ▸ hI.addressed.identity y hy
    · intro x hx i hi hxi
      obtain ⟨y, hy, he⟩ := hof x hx
      exact hI.addressed.subjects y hy i hi (hxi.trans he.symm)

/-- Fewer processes, and any history. -/
theorem Inv.with_processes (hI : Inv sscan s) {processes : List Delivery} (records : List Record)
    (hsub : processes.Sublist s.processes) : Inv sscan { s with processes, records } :=
  { ids := hI.ids, attempts := hI.attempts, pending := hI.pending, leased := hI.leased
    processes := hI.processes.sublist (hsub.map _)
    claimed := fun d hd => hI.claimed d (hsub.subset hd)
    addressed := ⟨hI.addressed.identity, hI.addressed.subjects⟩ }

/-- The notification of a claim, and its process. -/
theorem Inv.claim (hI : Inv sscan s) {n : AccountNotification} (hn : n ∈ s.notifications)
    {now : Time} (hlt : n.deliveryAttempts < 5) {d : Delivery} (hd : d.notificationID = n.id)
    (hattempt : d.attempt = n.deliveryAttempts + 1) :
    Inv sscan { s with
      notifications := put AccountNotification.id s.notifications (n.claim telegramBot 45000000000
        now)
      processes := s.processes ++ [d] } := by
  have hput : Inv sscan { s with
      notifications :=
        put AccountNotification.id s.notifications (n.claim telegramBot 45000000000 now) } :=
    hI.write hn rfl rfl (Nat.le_succ _) hlt nofun fun _ => ⟨rfl, rfl⟩
  refine { hput with
    processes := hI.processes.snoc fun e he heq => ?_
    claimed := fun e he => ?_
    addressed := ⟨hput.addressed.identity, hput.addressed.subjects⟩ }
  · obtain ⟨hid, hat⟩ := Prod.mk.inj heq
    obtain ⟨x, hx, hxid, hxle⟩ := hI.claimed e he
    rw [hI.ids.eq hx hn (hxid.trans (hid.trans hd))] at hxle
    omega
  · rcases List.mem_append.1 he with he | he
    · exact hput.claimed e he
    · rw [List.mem_singleton.1 he]
      exact ⟨_, mem_put.2 (.inr rfl), hd.symm, hattempt.le⟩

theorem sending_spec {d : Delivery} {n : AccountNotification} (h : s.sending d = some n) :
    n ∈ s.notifications ∧ n.id = d.notificationID ∧ n.deliveryStatus = .sending := by
  have hp := List.find?_some h
  simp only [Bool.and_eq_true, decide_eq_true_eq] at hp
  exact ⟨List.mem_of_find?_eq_some h, hp.1.1, hp.1.2⟩

/-- A row that is recorded is sent or has failed, with the attempts that it had. -/
theorem record_spec {now : Time} {deliveryErr : Option String} {n n' : AccountNotification}
    (h : n.record now deliveryErr = some n') :
    n'.id = n.id ∧ n'.accountId = n.accountId ∧ n'.deliveryAttempts = n.deliveryAttempts ∧
      (n'.deliveryStatus = .sent ∨ n'.deliveryStatus = .failed) := by
  cases deliveryErr with
  | none =>
    obtain rfl : n.deliver now = n' := Option.some.inj h
    exact ⟨rfl, rfl, rfl, .inl rfl⟩
  | some err =>
    unfold AccountNotification.record at h
    obtain ⟨message, -, rfl⟩ := Option.map_eq_some_iff.1 h
    exact ⟨rfl, rfl, rfl, .inr rfl⟩

/-- What a completion does: nothing, or it records the result. -/
theorem complete_eq {d : Delivery} {now : Time} {error : String} :
    completeTelegramNotification d.notificationID telegramBot now (deliveryError error)
        s.notifications =
      match s.sending d with
      | none => .error .conflict
      | some n => match n.record now (deliveryError error) with
        | none => .error .database
        | some n => .ok (put AccountNotification.id s.notifications n) := by
  unfold completeTelegramNotification
  rw [if_neg (by decide)]
  rfl

/-- What a step does to the notifications, the processes and the history. -/
inductive Does (s : Deliveries) : Label → Deliveries → Prop
  | nothing {now locked row} : Does s (.claim now locked row) s
  | claims {now locked n i telegramUserID} (h : first (candidates locked now s) (n, i)) :
    Does s (.claim now locked (some (n, i))) { s with
      notifications := put AccountNotification.id s.notifications (n.claim telegramBot 45000000000
        now)
      processes := s.processes ++
        [⟨n.id, telegramUserID, n.title, n.body, n.deliveryAttempts + 1⟩] }
  | records {k now error d n n'} (hd : s.processes[k]? = some d) (hn : s.sending d = some n)
    (hr : n.record now (deliveryError error) = some n') : Does s (.complete k now error) { s with
      notifications := put AccountNotification.id s.notifications n'
      processes := s.processes.eraseIdx k
      records := s.records ++ [⟨n.id, d.attempt, n.deliveryAttempts⟩] }
  | loses {k now error d} (hd : s.processes[k]? = some d)
    (hn : ∀ n, s.sending d = some n → n.record now (deliveryError error) = none) :
    Does s (.complete k now error) { s with processes := s.processes.eraseIdx k }
  | crashes {k d} (hd : s.processes[k]? = some d) :
    Does s (.crash k) { s with processes := s.processes.eraseIdx k }

theorem step_does {l : Label} (h : step sscan l s = some s') : Does s l s' := by
  cases l with
  | claim now locked row =>
    simp only [step] at h
    split at h
    · cases h
    next hfinds =>
    cases row with
    | none =>
      unfold claimTelegramNotification at h
      rw [if_neg (by decide)] at h
      simp only [Option.toList_none, List.append_nil] at h
      cases h
      exact .nothing
    | some row =>
      obtain ⟨n, i⟩ := row
      have hfirst : first (candidates locked now s) (n, i) = true := by simpa [finds] using hfinds
      unfold claimTelegramNotification at h
      rw [if_neg (by decide)] at h
      cases hs : sscan i.subject with
      | none =>
        simp only [hs] at h
        cases h
        exact .nothing
      | some telegramUserID =>
        simp only [hs, Option.toList_some] at h
        cases h
        exact .claims hfirst
  | complete k now error =>
    obtain ⟨d, hd, rfl⟩ := Option.map_eq_some_iff.1 h
    rw [complete_eq]
    cases hn : s.sending d with
    | none => exact .loses hd fun n h => by rw [hn] at h; cases h
    | some n =>
      dsimp only
      cases hr : n.record now (deliveryError error) with
      | none => exact .loses hd fun m h => by rw [hn] at h; cases h; exact hr
      | some n' => exact .records hd hn hr
  | crash k =>
    obtain ⟨d, hd, rfl⟩ := Option.map_eq_some_iff.1 h
    exact .crashes hd

theorem Inv.step (hI : Inv sscan s) {l : Label} (h : Does s l s') : Inv sscan s' := by
  cases h with
  | nothing => exact hI
  | claims hfirst =>
    obtain ⟨hn, hdue, -⟩ := mem_candidates.1 (first_mem hfirst)
    exact hI.claim hn (due_spec hdue).1 rfl rfl
  | records hd hn hr =>
    obtain ⟨hn, -, -⟩ := sending_spec hn
    obtain ⟨hid, hacc, hat, hst⟩ := record_spec hr
    have hput := hI.write hn hid hacc hat.ge (hat ▸ hI.attempts _ hn)
      (by rcases hst with h | h <;> rw [h] <;> nofun)
      fun h => by rcases hst with h' | h' <;> rw [h'] at h <;> cases h
    exact hput.with_processes _ (List.eraseIdx_sublist _ _)
  | loses hd hn => exact hI.with_processes _ (List.eraseIdx_sublist _ _)
  | crashes hd => exact hI.with_processes _ (List.eraseIdx_sublist _ _)

/-! ## Fifth attempts and results -/

/-- A notification that is sent at the fifth attempt has a process. -/
def Fifth (s : Deliveries) : Prop :=
  ∀ n ∈ s.notifications, n.deliveryStatus = .sending → n.deliveryAttempts = 5 → Delivered n s

def Latest (s : Deliveries) : Prop := ∀ r ∈ s.records, r.claim = r.latest

/-- A notification that is sent stays as it is. -/
theorem Inv.sent (hI : Inv sscan s) {l : Label} (h : Does s l s') :
    ∀ n ∈ s.notifications, n.deliveryStatus = .sent → n ∈ s'.notifications := by
  intro n hn hst
  cases h with
  | nothing => exact hn
  | loses => exact hn
  | crashes => exact hn
  | claims hfirst =>
    obtain ⟨hm, hdue, -⟩ := mem_candidates.1 (first_mem hfirst)
    refine mem_put.2 (.inl ⟨hn, fun he => (due_spec hdue).2 ?_⟩)
    rw [← hI.ids.eq hn hm he]
    exact hst
  | records hd hm hr =>
    obtain ⟨hm, -, hsending⟩ := sending_spec hm
    refine mem_put.2 (.inl ⟨hn, fun he => ?_⟩)
    rw [← hI.ids.eq hn hm (he.trans (record_spec hr).1), hst] at hsending
    cases hsending

theorem Inv.accounted_iff (hI : Inv sscan s) : Accounted sscan s ↔ Fifth s ∧ Latest s := by
  constructor
  · exact fun h => ⟨hI.unsent_iff.1 h.unsent, h.records⟩
  · rintro ⟨hfifth, hlatest⟩
    exact
      { attempts := hI.attempts
        sent := fun l s' h => hI.sent (step_does h)
        unsent := hI.unsent_iff.2 hfifth
        records := hlatest
        claims := fun now locked row h => by
          obtain ⟨_, -, hclaim⟩ := hI.claims h
          exact ⟨_, _, hclaim⟩ }

/-- The notification of a process that delivers it. -/
theorem Inv.sending_of (hI : Inv sscan s) {d : Delivery} {n : AccountNotification}
    (hn : n ∈ s.notifications) (hid : d.notificationID = n.id) (hst : n.deliveryStatus = .sending) :
    s.sending d = some n := by
  unfold Deliveries.sending
  cases hf : s.notifications.find? fun n => n.id = d.notificationID &&
      n.deliveryStatus = .sending && n.deliveryLeaseOwner = some telegramBot with
  | none =>
    have hnot := List.find?_eq_none.1 hf n hn
    simp [hid, hst, (hI.leased n hn hst).1] at hnot
  | some m =>
    obtain ⟨hm, hmid, -⟩ := sending_spec hf
    rw [hI.ids.eq hm hn (hmid.trans hid)]

/-- The other processes are left when one ends. -/
theorem mem_erase {ds : List Delivery} {k : Nat} {d e : Delivery} (hd : ds[k]? = some d)
    (he : e ∈ ds) (hne : e ≠ d) : e ∈ ds.eraseIdx k := by
  obtain ⟨j, hj⟩ := List.mem_iff_getElem?.1 he
  refine List.mem_eraseIdx_iff_getElem?.2 ⟨j, fun hjk => hne ?_, hj⟩
  rw [hjk, hd] at hj
  exact (Option.some.inj hj).symm

/-- No other process has the claim of one that has ended. -/
theorem not_mem_erase {ds : List Delivery} {k : Nat} {d e : Delivery}
    (hu : UniqueBy (fun d : Delivery => (d.notificationID, d.attempt)) ds) (hd : ds[k]? = some d)
    (he : e ∈ ds.eraseIdx k) : (e.notificationID, e.attempt) ≠ (d.notificationID, d.attempt) := by
  obtain ⟨j, hjk, hj⟩ := List.mem_eraseIdx_iff_getElem?.1 he
  intro heq
  obtain rfl := hu.eq (List.mem_of_getElem? hj) (List.mem_of_getElem? hd) heq
  have hnodup : ds.Nodup := List.Nodup.of_map _ hu
  obtain ⟨hjlt, hj⟩ := List.getElem?_eq_some_iff.1 hj
  obtain ⟨hklt, hd⟩ := List.getElem?_eq_some_iff.1 hd
  exact hjk ((hnodup.getElem_inj_iff).1 (hj.trans hd.symm))

/-- A process ends without a result: it must not have been at the fifth attempt. -/
theorem Inv.ends_iff (hI : Inv sscan s) (hfifth : Fifth s) {k : Nat} {d : Delivery}
    (hd : s.processes[k]? = some d) : Fifth { s with processes := s.processes.eraseIdx k } ↔
      ∀ x, s.sending d = some x → ¬(d.attempt = x.deliveryAttempts ∧ x.deliveryAttempts = 5) := by
  constructor
  · rintro h x hx ⟨hattempt, hfive⟩
    obtain ⟨hmem, hid, hst⟩ := sending_spec hx
    obtain ⟨-, e, he, heid, heat⟩ := h x hmem hst hfive
    refine not_mem_erase hI.processes hd he ?_
    rw [heid, heat, hid, hattempt]
  · intro h x hx hst hfive
    obtain ⟨-, e, he, heid, heat⟩ := hfifth x hx hst hfive
    refine ⟨hst, e, mem_erase hd he fun hed => ?_, heid, heat⟩
    subst hed
    exact h x (hI.sending_of hx heid hst) ⟨heat, hfive⟩

/-- **A step keeps the account** exactly if it is a result of the last claim, or does not lose the
fifth. -/
theorem Inv.accounts_iff (hI : Inv sscan s) (hfifth : Fifth s) (hlatest : Latest s) {l : Label}
    (h : Does s l s') : Fifth s' ∧ Latest s' ↔ heeds l s := by
  cases h with
  | nothing => exact iff_of_true ⟨hfifth, hlatest⟩ rfl
  | claims hfirst =>
    refine iff_of_true ⟨fun x hx hst hfive => ?_, hlatest⟩ rfl
    rcases mem_put.1 hx with ⟨hx, -⟩ | rfl
    · obtain ⟨-, e, he, heid, heat⟩ := hfifth x hx hst hfive
      exact ⟨hst, e, List.mem_append_left _ he, heid, heat⟩
    · exact ⟨hst, _, List.mem_append_right _ (List.mem_singleton.2 rfl), rfl, rfl⟩
  | @records k now error d n n' hd hn hr =>
    have hheeds : heeds (.complete k now error) s = true ↔ d.attempt = n.deliveryAttempts := by
      simp [heeds, hd, hn, hr]
    rw [hheeds]
    obtain ⟨hm, hid, -⟩ := sending_spec hn
    constructor
    · exact fun h => h.2 _ (List.mem_append_right _ (List.mem_singleton.2 rfl))
    · intro heq
      refine ⟨fun x hx hst hfive => ?_, fun r hr => ?_⟩
      · rcases mem_put.1 hx with ⟨hx, hne⟩ | rfl
        · obtain ⟨-, e, he, heid, heat⟩ := hfifth x hx hst hfive
          refine ⟨hst, e, mem_erase hd he fun hed => hne ?_, heid, heat⟩
          rw [(record_spec hr).1, ← heid, hed, hid]
        · rcases (record_spec hr).2.2.2 with h' | h'
          · rw [h'] at hst; cases hst
          · rw [h'] at hst; cases hst
      · rcases List.mem_append.1 hr with hr | hr
        · exact hlatest r hr
        · rw [List.mem_singleton.1 hr]
          exact heq
  | @loses k now error d hd hn =>
    have hheeds : heeds (.complete k now error) s = true ↔
        ∀ x, s.sending d = some x → ¬(d.attempt = x.deliveryAttempts ∧ x.deliveryAttempts = 5) := by
      cases hx : s.sending d with
      | none => simp [heeds, hd, hx]
      | some x => simp [heeds, hd, hx, hn x hx, -not_and, not_and_or]
    rw [hheeds, ← hI.ends_iff hfifth hd]
    exact and_iff_left hlatest
  | @crashes k d hd =>
    have hheeds : heeds (.crash k) s = true ↔
        ∀ x, s.sending d = some x → ¬(d.attempt = x.deliveryAttempts ∧ x.deliveryAttempts = 5) := by
      cases hx : s.sending d with
      | none => simp [heeds, hd, hx]
      | some x => simp [heeds, hd, hx, -not_and, not_and_or]
    rw [hheeds, ← hI.ends_iff hfifth hd]
    exact and_iff_left hlatest

/-- **The runs in which all deliveries are accounted for.** With well-formed subjects, they are
those in
which every result is one of the last claim and no fifth claim ends without a result: all states of
such a
run are accounted for, and any other step leads to one that is not. -/
theorem deliveries_accounted {s₀ : Deliveries} (h₀ : Initial s₀) (ha : Addressed sscan s₀)
    (hrun : Runs (step sscan) (fun l s => heeds l s) s₀ s) : Accounted sscan s ∧
      ∀ l s', step sscan l s = some s' → (Accounted sscan s' ↔ heeds l s) := by
  have hstart : Inv sscan s₀ ∧ Fifth s₀ ∧ Latest s₀ := by
    refine ⟨h₀.inv ha, fun n hn hst _ => ?_, fun r hr => ?_⟩
    · rcases h₀.fresh n hn with hf | hf
      · rw [hf] at hst; cases hst
      · rw [hf] at hst; cases hst
    · rw [h₀.empty] at hr; cases hr
  obtain ⟨hI, hfifth, hlatest⟩ : Inv sscan s ∧ Fifth s ∧ Latest s :=
    hrun.keeps (I := fun s => Inv sscan s ∧ Fifth s ∧ Latest s) hstart
      fun l t t' hl hst ⟨hI, hf, hr⟩ =>
        ⟨hI.step (step_does hst), (hI.accounts_iff hf hr (step_does hst)).2 hl⟩
  refine ⟨hI.accounted_iff.2 ⟨hfifth, hlatest⟩, fun l s' hst => ?_⟩
  rw [(hI.step (step_does hst)).accounted_iff]
  exact hI.accounts_iff hfifth hlatest (step_does hst)

end

/-! ## One owner for all processes -/

/-- The number of a text of digits. -/
def digits (subject : String) : Option Int64 :=
  if subject ≠ "" && subject.toList.all Char.isDigit then
    some (Int64.ofNat (subject.toList.foldl (fun n c => 10 * n + (c.toNat - 48)) 0))
  else none

def letter : AccountNotification where
  id := idOf '1'
  accountId := idOf 'a'
  title := "t"
  body := "b"
  nextDeliveryAt := 0
  createdAt := 0

def reader : TelegramIdentity := ⟨idOf 'a', "7"⟩

def mailbox : Deliveries := { notifications := [letter], identities := [reader] }

theorem mailbox_initial : Initial mailbox where
  ids := uniqueBy_singleton
  fresh n hn := by
    rw [List.mem_singleton.1 hn]
    exact .inr rfl
  unclaimed n hn := by
    rw [List.mem_singleton.1 hn]
    rfl
  idle := rfl
  empty := rfl

theorem mailbox_addressed : Addressed digits mailbox where
  identity n hn := ⟨reader, List.mem_singleton.2 rfl, by rw [List.mem_singleton.1 hn]; rfl⟩
  subjects n _ i hi _ := by
    rw [List.mem_singleton.1 hi]
    decide +kernel

theorem deliveries_accounted_sent : ∃ s, s.notifications.all (·.deliveryStatus = .sent) = true ∧
    Accounted digits s := by
  obtain ⟨s, hrun, hs⟩ := play_any (step digits) (fun l s => heeds l s)
    [.claim 1 [] (some (letter, reader)), .complete 0 2 ""] mailbox
    (fun s => s.notifications.all (·.deliveryStatus = .sent)) (by decide +kernel)
  exact ⟨s, hs, (deliveries_accounted mailbox_initial mailbox_addressed hrun).1⟩

/-- The lease of a process expires and a second one claims the notification; then the first one
records its
result over the claim of the second. -/
theorem stale_result : ¬∀ (sscan : String → Option Int64) (s₀ s : Deliveries), Initial s₀ →
    Addressed sscan s₀ → Runs (step sscan) anyStep s₀ s → Accounted sscan s := by
  intro h
  obtain ⟨s, hrun, hs⟩ := play_any (step digits) anyStep
    [.claim 1 [] (some (letter, reader)),
      .claim 50000000000 [] (some (letter.claim telegramBot 45000000000 1, reader)),
      .complete 0 50000000001 ""] mailbox
    (fun s => s.records.any fun r => r.claim ≠ r.latest) (by decide +kernel)
  obtain ⟨r, hr, hne⟩ := List.any_eq_true.1 hs
  exact (of_decide_eq_true hne) ((h digits mailbox s mailbox_initial mailbox_addressed hrun).records
    r hr)

end Sakura.Telegram
