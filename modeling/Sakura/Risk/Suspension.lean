/-
  A risk suspension under the tasks that maintain its instance.

  * `Known`: what no task changes of a bound user;
  * `Suspended`: its flag and the status of its binding;
  * `sync_suspended`, `syncEntitlement_suspended`: tasks that leave a suspension;
  * `ReconcileAnswer.reaches`, `reconcile_suspended_iff`: when `reconcile` ends it;
  * `suspension_persists_iff`: sequences of tasks.
-/
import Sakura.Emby.Users
import Sakura.Risk.Upkeep

namespace Sakura.Risk

open Txn Queue

/-! ## A bound user -/

/-- The binding `b` of an active account, its user on the server and an action that has disabled
it. -/
structure Known (b : Binding) (db : Store) : Prop where
  ids : UniqueBy Binding.id db.bindings
  remotes : UniqueBy Binding.remote db.bindings
  users : UniqueBy EmbyUser.key db.upstream
  row : ∃ b' ∈ db.bindings, b'.id = b.id ∧ b'.accountId = b.accountId ∧ b'.remote = b.remote
  user : ∃ u ∈ db.upstream, u.key = b.remote ∧ u.id ≠ "" ∧ u.name ≠ ""
  account : ∃ a, db.accounts.find? (·.id = b.accountId) = some a ∧ a.status = .active
  action : ∃ a ∈ db.riskActions, a.actionType = .disableUser ∧ a.status = .succeeded ∧
    a.instanceId = b.instanceId ∧ a.remoteUserId = some b.remoteUserId

/-- The user is disabled and the binding suspended. -/
structure Suspended (b : Binding) (db : Store) : Prop where
  status : ∃ b' ∈ db.bindings, b'.id = b.id ∧ b'.status = .suspended
  flag : ∃ u ∈ db.upstream, u.key = b.remote ∧ u.disabled = true

variable {b : Binding} {db : Store}

theorem Known.remote_of_id (h : Known b db) {r : Binding} (hr : r ∈ db.bindings)
    (hid : r.id = b.id) : r.remote = b.remote ∧ r.accountId = b.accountId := by
  obtain ⟨b', hb', hid', hacct, hrem⟩ := h.row
  cases h.ids.eq hr hb' (hid.trans hid'.symm)
  exact ⟨hrem, hacct⟩

theorem Known.id_of_remote (h : Known b db) {r : Binding} (hr : r ∈ db.bindings)
    (hrem : r.remote = b.remote) : r.id = b.id := by
  obtain ⟨b', hb', hid', -, hrem'⟩ := h.row
  cases h.remotes.eq hr hb' (hrem.trans hrem'.symm)
  exact hid'

theorem Suspended.disabled (h : Known b db) (hs : Suspended b db) {u : EmbyUser}
    (hu : u ∈ db.upstream) (hk : u.key = b.remote) : u.disabled = true := by
  obtain ⟨u', hu', hk', hd⟩ := hs.flag
  cases h.users.eq hu hu' (hk.trans hk'.symm)
  exact hd

/-! ## Statements -/

/-- A version of a binding that keeps its place, and the status of `b`. -/
theorem known_version {r r' : Binding} (h : Known b db) (hr : r ∈ db.bindings) (hid : r'.id = r.id)
    (hacct : r'.accountId = r.accountId) (hrem : r'.remote = r.remote) :
    Known b (db.overlay { bindings := [r'] }) := by
  have hb : (db.overlay { bindings := [r'] }).bindings = put Binding.id db.bindings r' := rfl
  have hup : (db.overlay { bindings := [r'] }).upstream = db.upstream := by simp [Store.overlay]
  have hact : (db.overlay { bindings := [r'] }).riskActions = db.riskActions := by
    simp [Store.overlay]
  refine { ids := ?_, remotes := ?_, users := hup ▸ h.users, row := ?_, user := hup ▸ h.user
           account := h.account, action := hact ▸ h.action }
  · rw [hb]
    exact h.ids.put fun _ _ e => e
  · rw [hb]
    refine h.remotes.put fun x hx e => ?_
    rw [hid, h.remotes.eq hx hr (e.trans hrem)]
  · rw [hb]
    by_cases he : r.id = b.id
    · obtain ⟨hrem', hacct'⟩ := h.remote_of_id hr he
      exact ⟨r', mem_put.2 (Or.inr rfl), hid.trans he, hacct.trans hacct', hrem.trans hrem'⟩
    · obtain ⟨b', hb', hid', hrow⟩ := h.row
      refine ⟨b', mem_put.2 (Or.inl ⟨hb', fun e => he ?_⟩), hid', hrow⟩
      exact (hid.symm.trans e.symm).trans hid'

theorem suspended_version {r r' : Binding} (hs : Suspended b db)
    (hid : r'.id = r.id) (hst : r.id = b.id → r'.status = .suspended) :
    Suspended b (db.overlay { bindings := [r'] }) := by
  have hup : (db.overlay { bindings := [r'] }).upstream = db.upstream := by simp [Store.overlay]
  refine ⟨?_, hup ▸ hs.flag⟩
  by_cases he : r.id = b.id
  · exact ⟨r', mem_put.2 (Or.inr rfl), hid.trans he, hst he⟩
  · obtain ⟨b', hb', hid', hst'⟩ := hs.status
    refine ⟨b', mem_put.2 (Or.inl ⟨hb', fun e => he ?_⟩), hid', hst'⟩
    exact (hid.symm.trans e.symm).trans hid'

/-- Versions of the rows of remote users. -/
theorem known_aside (h : Known b db) {us : List RemoteUser} :
    Known b (db.overlay { remoteUsers := us }) := by
  have hb : (db.overlay { remoteUsers := us }).bindings = db.bindings := by simp [Store.overlay]
  have hup : (db.overlay { remoteUsers := us }).upstream = db.upstream := by simp [Store.overlay]
  have hact : (db.overlay { remoteUsers := us }).riskActions = db.riskActions := by
    simp [Store.overlay]
  exact { ids := hb ▸ h.ids, remotes := hb ▸ h.remotes, users := hup ▸ h.users, row := hb ▸ h.row
          user := hup ▸ h.user, account := h.account, action := hact ▸ h.action }

theorem suspended_aside (hs : Suspended b db) {us : List RemoteUser} :
    Suspended b (db.overlay { remoteUsers := us }) := by
  have hb : (db.overlay { remoteUsers := us }).bindings = db.bindings := by simp [Store.overlay]
  have hup : (db.overlay { remoteUsers := us }).upstream = db.upstream := by simp [Store.overlay]
  exact ⟨hb ▸ hs.status, hup ▸ hs.flag⟩

/-! ## Synchronization -/

/-- What a sync maintains: the bound user and its suspension, with the users of the servers. -/
structure Holds (b : Binding) (users : List EmbyUser) (db : Store) : Prop where
  known : Known b db
  suspended : Suspended b db
  upstream : db.upstream = users

section Sync

variable {users : List EmbyUser} {env : Environment} {a : Attempt} {instanceID : UUID}

theorem holds_binding {v : Store} {r r' : Binding} (hr : r ∈ v.bindings) (hid : r'.id = r.id)
    (hacct : r'.accountId = r.accountId) (hrem : r'.remote = r.remote)
    (hst : r.id = b.id → Known b v → Suspended b v → v.upstream = users →
      r'.status = .suspended) (h : Holds b users v) :
    Holds b users (v.overlay { bindings := [r'] }) where
  known := known_version h.known hr hid hacct hrem
  suspended := suspended_version h.suspended hid fun he => hst he h.known h.suspended h.upstream
  upstream := by
    rw [← h.upstream]
    simp [Store.overlay]

theorem upsertRemoteUser_holds {row : RemoteUser} {set : RemoteUser → RemoteUser} :
    (upsertRemoteUser row set : Handler Unit).Statements
      fun v e => Holds b users v → Holds b users (e.write v) := by
  have haside : ∀ (v : Store) (u : RemoteUser), Holds b users v →
      Holds b users (v.overlay { remoteUsers := [u] }) := fun v u h =>
    ⟨known_aside h.known, suspended_aside h.suspended, by rw [← h.upstream]; simp [Store.overlay]⟩
  unfold upsertRemoteUser
  refine Prog.statements_exec fun v => ?_
  split
  · exact haside v _
  · exact haside v _

/-- The loop over listed users of whom that of `b` is disabled. -/
theorem syncUsers_holds : ∀ us : List EmbyUser,
    (∀ u ∈ us, (instanceID, u.id) = b.remote → u.disabled = true) →
      (syncUsers env a instanceID us).Statements fun v e => Holds b users v → Holds b users (e.write v)
  | [], _ => trivial
  | user :: us, hus => by
    refine upsertRemoteUser_holds.bind fun _ => ?_
    refine (Rows.statements_updateRow (fun v _ h => h) fun v r hr hp => ?_).bind fun _ =>
      syncUsers_holds us fun u hu => hus u (List.mem_cons_of_mem _ hu)
    refine holds_binding hr rfl rfl rfl fun he hk _ _ => ?_
    have hrem : r.remote = (instanceID, user.id) := of_decide_eq_true hp
    have hd := hus user List.mem_cons_self (hrem.symm.trans (hk.remote_of_id hr he).1)
    simp [hd]

/-- **A sync leaves a suspension.** -/
theorem sync_holds (env : Environment) (a : Attempt) (instanceID : UUID) (h : Holds b users db) :
    Holds b users ((sync env a instanceID).alone db).1 := by
  refine Prog.alone_maintains (I := Holds b users) ?_ h
  unfold sync
  refine Prog.Maintains.bind (Prog.Effects.maintains Prog.statements_check.effects) fun _ => ?_
  unfold listUsers
  cases a.listing with
  | error text => trivial
  | ok l =>
    refine Prog.maintains_query fun v hv => ?_
    have hlisted : ∀ u, u ∈ l.order (v.upstream.filter fun u =>
        u.instanceId = instanceID && u.id ≠ "" && u.name ≠ "") ↔
        u ∈ users ∧ u.instanceId = instanceID ∧ u.id ≠ "" ∧ u.name ≠ "" := by
      intro u
      rw [l.mem, List.mem_filter, hv.upstream]
      simp [and_assoc]
    have hdisabled : ∀ u ∈ l.order (v.upstream.filter fun u =>
        u.instanceId = instanceID && u.id ≠ "" && u.name ≠ ""),
        (instanceID, u.id) = b.remote → u.disabled = true := by
      intro u hu hk
      obtain ⟨hmem, hinst, -⟩ := (hlisted u).1 hu
      refine hv.suspended.disabled hv.known (hv.upstream ▸ hmem) ?_
      rw [← hk, EmbyUser.key, hinst]
    refine Prog.Maintains.bind (Prog.Effects.maintains
      (syncUsers_holds _ hdisabled).effects) fun _ => ?_
    refine Prog.Maintains.bind (Prog.Effects.maintains (Rows.statements_updateRows (fun _ _ h => h)
      fun v u _ _ h => ?_).effects) fun _ => ?_
    · exact ⟨known_aside h.known, suspended_aside h.suspended, by
        rw [← h.upstream]; simp [Store.overlay, Layers.lay, remoteUsers]⟩
    refine Prog.Maintains.bind (Prog.Effects.maintains (Rows.statements_updateRows (fun _ _ h => h)
      fun v r hr hp => ?_).effects) fun _ => trivial
    refine holds_binding hr rfl rfl rfl fun he hk _ hup => ?_
    -- the user of the binding is listed
    simp only [Bool.and_eq_true, decide_eq_true_eq, Bool.not_eq_true', List.any_eq_false] at hp
    obtain ⟨u, hu, hkey, hid, hname⟩ := hk.user
    have hrem := (hk.remote_of_id hr he).1
    have hkr : u.key = r.remote := hkey.trans hrem.symm
    have hui : u.instanceId = instanceID := (congrArg Prod.fst hkr).trans hp.1
    exact absurd (congrArg Prod.snd hkr) (hp.2 u ((hlisted u).2 ⟨hup ▸ hu, hui, hid, hname⟩))

end Sync

/-! ## Flags and rows -/

theorem Known.setDisabled (h : Known b db) {instanceID : UUID} {userID : String} {disabled : Bool} :
    Known b (setDisabled instanceID userID disabled db) where
  ids := h.ids
  remotes := h.remotes
  users := by
    have hu := h.users
    unfold UniqueBy Risk.setDisabled at *
    rw [List.map_map, show (EmbyUser.key ∘ fun u : EmbyUser =>
      if u.key = (instanceID, userID) then { u with disabled } else u) = EmbyUser.key from
        funext fun u => by simp only [Function.comp]; split <;> rfl]
    exact hu
  row := h.row
  user := by
    obtain ⟨u, hu, hk, hid, hname⟩ := h.user
    refine ⟨_, List.mem_map.2 ⟨u, hu, rfl⟩, ?_⟩
    split <;> exact ⟨hk, hid, hname⟩
  account := h.account
  action := h.action

/-- A flag that is set as it was, or of another user. -/
theorem Suspended.setDisabled (hs : Suspended b db) {instanceID : UUID} {userID : String}
    {disabled : Bool} (hd : (instanceID, userID) = b.remote → disabled = true) :
    Suspended b (setDisabled instanceID userID disabled db) where
  status := hs.status
  flag := by
    obtain ⟨u, hu, hk, hdis⟩ := hs.flag
    refine ⟨_, List.mem_map.2 ⟨u, hu, rfl⟩, ?_⟩
    split
    · next he => exact ⟨hk, hd (he.symm.trans hk)⟩
    · exact ⟨hk, hdis⟩

/-- The user is enabled. -/
def Enabled (b : Binding) (db : Store) : Prop :=
  ∀ u ∈ db.upstream, u.key = b.remote → u.disabled = false

theorem Enabled.not_suspended (h : Enabled b db) : ¬Suspended b db := by
  intro hs
  obtain ⟨u, hu, hk, hd⟩ := hs.flag
  rw [h u hu hk] at hd
  cases hd

theorem Enabled.setDisabled (h : Enabled b db) {instanceID : UUID} {userID : String}
    {disabled : Bool} (hd : (instanceID, userID) = b.remote → disabled = false) :
    Enabled b (setDisabled instanceID userID disabled db) := by
  intro u hu hk
  obtain ⟨u', hu', rfl⟩ := List.mem_map.1 hu
  split at hk
  · next he =>
    rw [if_pos he]
    exact hd (he.symm.trans hk)
  · next he =>
    rw [if_neg he]
    exact h u' hu' hk

theorem setDisabled_enabled {disabled : Bool} (hd : disabled = false) :
    Enabled b (setDisabled b.instanceId b.remoteUserId disabled db) := by
  intro u hu hk
  obtain ⟨u', hu', rfl⟩ := List.mem_map.1 hu
  split at hk
  · next he =>
    rw [if_pos he]
    exact hd
  · next he => exact absurd hk he

theorem Known.updateBinding (h : Known b db) {id : UUID} {set : Binding → Binding}
    (hset : ∀ r, (set r).id = r.id ∧ (set r).accountId = r.accountId ∧ (set r).remote = r.remote) :
    Known b (updateBinding id set db) where
  ids := by
    have hu := h.ids
    unfold UniqueBy Risk.updateBinding at *
    rw [List.map_map, show (Binding.id ∘ fun r => if r.id = id then set r else r) = Binding.id from
      funext fun r => by simp only [Function.comp]; split; exacts [(hset r).1, rfl]]
    exact hu
  remotes := by
    have hu := h.remotes
    unfold UniqueBy Risk.updateBinding at *
    rw [List.map_map, show (Binding.remote ∘ fun r => if r.id = id then set r else r) =
      Binding.remote from funext fun r => by
        simp only [Function.comp]; split; exacts [(hset r).2.2, rfl]]
    exact hu
  users := h.users
  row := by
    obtain ⟨b', hb', hid, hacct, hrem⟩ := h.row
    refine ⟨_, List.mem_map.2 ⟨b', hb', rfl⟩, ?_⟩
    split
    · exact ⟨(hset b').1.trans hid, (hset b').2.1.trans hacct, (hset b').2.2.trans hrem⟩
    · exact ⟨hid, hacct, hrem⟩
  user := h.user
  account := h.account
  action := h.action

theorem Suspended.updateBinding (hs : Suspended b db) {id : UUID} {set : Binding → Binding}
    (hne : id ≠ b.id) : Suspended b (updateBinding id set db) where
  status := by
    obtain ⟨b', hb', hid, hst⟩ := hs.status
    refine ⟨b', List.mem_map.2 ⟨b', hb', ?_⟩, hid, hst⟩
    rw [if_neg]
    exact fun e => hne (e.symm.trans hid)
  flag := hs.flag

/-! ## Other tasks -/

/-- The flag that a server lists for the user of `b`. -/
theorem listed_disabled (h : Known b db) (hs : Suspended b db) {instanceID : UUID} {userID : String}
    {u : EmbyUser} (hf : (listedUsers instanceID db).find? (·.id = userID) = some u)
    (hk : (instanceID, userID) = b.remote) : u.disabled = true := by
  obtain ⟨hmem, hp⟩ := List.mem_filter.1 (List.mem_of_find?_eq_some hf)
  simp only [Bool.and_eq_true, decide_eq_true_eq] at hp
  have hid : u.id = userID := by simpa using List.find?_some hf
  refine hs.disabled h hmem ?_
  rw [← hk, EmbyUser.key, hp.1.1, hid]

theorem syncEntitlement_suspended (h : Known b db) (hs : Suspended b db) (reply : Reply)
    (instanceID bindingID : UUID) :
    Known b (syncEntitlement reply instanceID bindingID db) ∧
      Suspended b (syncEntitlement reply instanceID bindingID db) := by
  unfold syncEntitlement
  split
  · exact ⟨h, hs⟩
  · next r hr =>
    split
    · exact ⟨h, hs⟩
    · next u hu =>
      split
      · exact ⟨h.setDisabled, hs.setDisabled fun hk => listed_disabled h hs hu hk⟩
      · exact ⟨h, hs⟩

theorem Known.playbackSync (h : Known b db) {queued : List (Task × RiskAction)} :
    Known b (playbackSync queued db) := by
  unfold Risk.playbackSync
  split
  · exact h
  · obtain ⟨a, ha, hact⟩ := h.action
    exact { ids := h.ids, remotes := h.remotes, users := h.users, row := h.row, user := h.user
            account := h.account, action := ⟨a, List.mem_append_left _ ha, hact⟩ }

theorem Suspended.playbackSync (hs : Suspended b db) {queued : List (Task × RiskAction)} :
    Suspended b (playbackSync queued db) := by
  unfold Risk.playbackSync
  split
  · exact hs
  · exact ⟨hs.status, hs.flag⟩

/-! ## Reconciling -/

/-- The loop comes to the binding, and the call to the server is carried out. -/
def reachesItem (a : ReconcileAnswer) (users : List EmbyUser) (bindingID : UUID) :
    List Desired → Bool
  | [] => false
  | item :: items =>
    if item.bindingID = bindingID then (a.call bindingID).effect
    else itemDone a users item && reachesItem a users bindingID items

def ReconcileAnswer.reaches (a : ReconcileAnswer) (instanceID bindingID : UUID) (db : Store) : Bool :=
  (a.listed && a.queried) && reachesItem a (listedUsers instanceID db) bindingID
    (a.arrangement.order (db.bindings.filterMap (desiredOf a.now instanceID db)))

/-- The item is that of `b`, whose user is to be enabled, or is of another user. -/
structure Proper (b : Binding) (instanceID : UUID) (item : Desired) : Prop where
  own : item.bindingID = b.id → (instanceID, item.remoteID) = b.remote ∧ item.disabled = false
  other : item.bindingID ≠ b.id → (instanceID, item.remoteID) ≠ b.remote

theorem desiredOf_proper (h : Known b db) {now : Time} {instanceID : UUID}
    (hexp : membershipExpired now db b.accountId = false) {r : Binding} (hr : r ∈ db.bindings)
    {item : Desired} (hitem : desiredOf now instanceID db r = some item) :
    Proper b instanceID item := by
  unfold desiredOf at hitem
  split at hitem
  · next hinst =>
    obtain ⟨account, haccount, rfl⟩ := Option.map_eq_some_iff.1 hitem
    refine ⟨fun hid => ?_, fun hid hrem => hid (h.id_of_remote hr ?_)⟩
    · obtain ⟨hrem, hacct⟩ := h.remote_of_id hr hid
      obtain ⟨account', haccount', hactive⟩ := h.account
      rw [hacct] at haccount
      have hid' : account.id = b.accountId := by simpa using List.find?_some haccount
      have hsame : account' = account := Option.some.inj (haccount'.symm.trans haccount)
      refine ⟨by rw [← hinst.1]; exact hrem, ?_⟩
      simp [← hsame ▸ hactive, hid', hexp]
    · rw [← hrem, Binding.remote, hinst.1]
  · cases hitem

section Loop

variable {a : ReconcileAnswer} {instanceID : UUID} {users : List EmbyUser}

/-- What the flag and the row of an item are set to, and nothing else, is changed. -/
theorem reconcileItem_induction {P : Store → Prop} {item : Desired} (h : P db)
    (hset : P (setDisabled instanceID item.remoteID item.disabled db))
    (hrow : ∀ {db}, P db → P (updateBinding item.bindingID markMissing db) ∧
      P (updateBinding item.bindingID (markReconciled item.disabled) db)) :
    P (reconcileItem a instanceID users item db) := by
  have hmissing : ∀ {db}, P db → P (updateItem a item markMissing db) := by
    intro db h
    unfold updateItem
    split
    · exact (hrow h).1
    · exact h
  have hdone : ∀ {db}, P db → P (updateItem a item (markReconciled item.disabled) db) := by
    intro db h
    unfold updateItem
    split
    · exact (hrow h).2
    · exact h
  unfold reconcileItem
  split
  · exact hmissing h
  · next remote _ =>
    have hcall : P (callItem a instanceID remote item db) := by
      unfold callItem
      split
      · exact hset
      · exact h
    simp only
    split
    · exact hdone hcall
    · exact hcall

theorem reconcileItem_enabled {item : Desired} (hp : Proper b instanceID item) (he : Enabled b db) :
    Enabled b (reconcileItem a instanceID users item db) := by
  refine reconcileItem_induction he (he.setDisabled fun hk => ?_) fun h => ⟨h, h⟩
  by_cases hid : item.bindingID = b.id
  · exact (hp.own hid).2
  · exact absurd hk (hp.other hid)

theorem reconcileItems_enabled : ∀ {items : List Desired} {db : Store},
    (∀ item ∈ items, Proper b instanceID item) → Enabled b db →
      Enabled b (reconcileItems a instanceID users items db)
  | [], _, _, he => he
  | item :: items, db, hp, he => by
    have he' : Enabled b (reconcileItem a instanceID users item db) :=
      reconcileItem_enabled (hp item List.mem_cons_self) he
    simp only [reconcileItems]
    split
    · exact reconcileItems_enabled (fun i hi => hp i (List.mem_cons_of_mem _ hi)) he'
    · exact he'

/-- The rows are known after any item. -/
theorem reconcileItem_known {item : Desired} (h : Known b db) :
    Known b (reconcileItem a instanceID users item db) :=
  reconcileItem_induction h h.setDisabled fun h =>
    ⟨h.updateBinding fun _ => ⟨rfl, rfl, rfl⟩, h.updateBinding fun _ => ⟨rfl, rfl, rfl⟩⟩

/-- An item of another binding. -/
theorem reconcileItem_other (a : ReconcileAnswer) (users : List EmbyUser) {item : Desired} (hp : Proper b instanceID item)
    (hid : item.bindingID ≠ b.id) (hs : Suspended b db) :
    Suspended b (reconcileItem a instanceID users item db) :=
  reconcileItem_induction hs (hs.setDisabled fun hk => absurd hk (hp.other hid)) fun h =>
    ⟨h.updateBinding hid, h.updateBinding hid⟩

theorem reconcileItems_known : ∀ {items : List Desired} {db : Store}, Known b db →
    Known b (reconcileItems a instanceID users items db)
  | [], _, h => h
  | item :: items, db, h => by
    simp only [reconcileItems]
    split
    · exact reconcileItems_known (reconcileItem_known h)
    · exact reconcileItem_known h

/-- The item of the binding: a call that is carried out enables the user, and the loop ends after one
that is not. -/
theorem reconcileItem_own (a : ReconcileAnswer) (db : Store) {item : Desired} (hp : Proper b instanceID item)
    (hid : item.bindingID = b.id) {u : EmbyUser} (hu : users.find? (·.id = item.remoteID) = some u)
    (hd : u.disabled = true) :
    ((a.call b.id).effect = true → Enabled b (reconcileItem a instanceID users item db)) ∧
      ((a.call b.id).effect = false → reconcileItem a instanceID users item db = db ∧
        itemDone a users item = false) := by
  obtain ⟨hrem, hdis⟩ := hp.own hid
  have hne : decide (u.disabled ≠ item.disabled) = true := by simp [hd, hdis]
  constructor
  · intro he
    have hset : Enabled b (callItem a instanceID u item db) := by
      have hi : instanceID = b.instanceId := congrArg Prod.fst hrem
      have hr : item.remoteID = b.remoteUserId := congrArg Prod.snd hrem
      unfold callItem
      rw [hid, hne, he, Bool.true_and, if_pos rfl, hi, hr]
      exact setDisabled_enabled hdis
    unfold reconcileItem
    rw [hu]
    simp only
    split
    · unfold updateItem
      split <;> exact hset
    · exact hset
  · intro he
    have hflag : flagSet a u item = false := by simp [flagSet, hd, hdis, hid, he, Replied]
    unfold reconcileItem itemDone callItem
    rw [hu]
    simp [hflag, hid, he]

theorem reconcileItems_reach : ∀ {items : List Desired} {db : Store},
    (∀ item ∈ items, Proper b instanceID item) → Suspended b db →
    (∀ userID, (instanceID, userID) = b.remote →
      ∃ u, users.find? (·.id = userID) = some u ∧ u.disabled = true) →
    (reachesItem a users b.id items = true →
      Enabled b (reconcileItems a instanceID users items db)) ∧
    (reachesItem a users b.id items = false →
      Suspended b (reconcileItems a instanceID users items db))
  | [], _, _, hs, _ => ⟨fun h => by simp [reachesItem] at h, fun _ => hs⟩
  | item :: items, db, hp, hs, husers => by
    have hp₀ := hp item List.mem_cons_self
    have hrest : ∀ i ∈ items, Proper b instanceID i := fun i hi => hp i (List.mem_cons_of_mem _ hi)
    simp only [reachesItem, reconcileItems]
    by_cases hid : item.bindingID = b.id
    · rw [if_pos hid]
      obtain ⟨u, hu, hd⟩ := husers item.remoteID (hp₀.own hid).1
      obtain ⟨hyes, hno⟩ := reconcileItem_own a db hp₀ hid hu hd
      refine ⟨fun he => ?_, fun he => ?_⟩
      · split
        · exact reconcileItems_enabled hrest (hyes he)
        · exact hyes he
      · obtain ⟨hdb, hdone⟩ := hno he
        rw [if_neg (by simp [hdone]), hdb]
        exact hs
    · rw [if_neg hid]
      have hs' := reconcileItem_other a users hp₀ hid hs
      cases hdone : itemDone a users item with
      | false => exact ⟨fun h => by simp at h, fun _ => by simpa using hs'⟩
      | true =>
        simp only [Bool.true_and, if_true]
        exact reconcileItems_reach hrest hs' husers

end Loop

/-- **`reconcile` ends a suspension** of an active account exactly where it reaches the binding. -/
theorem reconcile_suspended_iff (h : Known b db) (hs : Suspended b db) {a : ReconcileAnswer}
    {instanceID : UUID} (hexp : membershipExpired a.now db b.accountId = false) :
    Suspended b (reconcile a instanceID db) ↔ a.reaches instanceID b.id db = false := by
  have husers : ∀ userID, (instanceID, userID) = b.remote →
      ∃ u, (listedUsers instanceID db).find? (·.id = userID) = some u ∧ u.disabled = true := by
    intro userID hk
    obtain ⟨u, hu, hkey, hid, hname⟩ := h.user
    rw [← hk] at hkey
    have hinst : u.instanceId = instanceID := congrArg Prod.fst hkey
    have huid : u.id = userID := congrArg Prod.snd hkey
    cases hf : (listedUsers instanceID db).find? (·.id = userID) with
    | none =>
      have := List.find?_eq_none.1 hf u (List.mem_filter.2 ⟨hu, by simp [hinst, hid, hname]⟩)
      simp [huid] at this
    | some u' => exact ⟨u', rfl, listed_disabled h hs hf hk⟩
  have hproper : ∀ item ∈ a.arrangement.order (db.bindings.filterMap (desiredOf a.now instanceID db)),
      Proper b instanceID item := by
    intro item hitem
    obtain ⟨r, hr, hri⟩ := List.mem_filterMap.1 ((a.arrangement.perm _).mem_iff.1 hitem)
    exact desiredOf_proper h hexp hr hri
  obtain ⟨hyes, hno⟩ := reconcileItems_reach (a := a) hproper hs husers
  unfold reconcile ReconcileAnswer.reaches
  cases a.listed && a.queried with
  | false => simpa using hs
  | true =>
    simp only [if_true, Bool.true_and]
    constructor
    · intro hs'
      by_contra hreach
      exact (hyes (by simpa using hreach)).not_suspended hs'
    · exact hno

/-! ## Sequences of tasks -/

/-- The run of a task enables the user of the binding. -/
def Job.reaches (bindingID : UUID) (db : Store) : Job → Bool
  | .reconcile instanceID answer => answer.reaches instanceID bindingID db
  | _ => false

/-- The membership of the account has not expired when the run reads it. -/
def Job.Unexpired (accountID : UUID) (db : Store) : Job → Prop
  | .reconcile _ answer => membershipExpired answer.now db accountID = false
  | _ => True

/-- **One run** leaves what is known, and the suspension unless it reaches the binding. -/
theorem job_suspended_iff (env : Environment) (j : Job) (h : Known b db) (hs : Suspended b db)
    (hexp : j.Unexpired b.accountId db) :
    Known b (j.run env db) ∧ (Suspended b (j.run env db) ↔ j.reaches b.id db = false) := by
  cases j with
  | sync instanceID attempt =>
    have hh := sync_holds env attempt instanceID ⟨h, hs, rfl⟩
    exact ⟨hh.known, fun _ => rfl, fun _ => hh.suspended⟩
  | reconcile instanceID answer =>
    refine ⟨?_, reconcile_suspended_iff h hs hexp⟩
    show Known b (reconcile answer instanceID db)
    unfold reconcile
    split
    · exact reconcileItems_known h
    · exact h
  | playbackSync queued =>
    exact ⟨h.playbackSync, fun _ => rfl, fun _ => hs.playbackSync⟩
  | syncEntitlement instanceID bindingID reply =>
    obtain ⟨h', hs'⟩ := syncEntitlement_suspended h hs reply instanceID bindingID
    exact ⟨h', fun _ => rfl, fun _ => hs'⟩

/-- **A risk suspension persists** through a sequence of tasks if and only if no run of `reconcile` in
it reaches the binding. -/
theorem suspension_persists_iff {env : Environment} : ∀ {jobs : List Job} {db : Store},
    Known b db → Suspended b db →
    (∀ (n : Nat) (j : Job), jobs[n]? = some j → j.Unexpired b.accountId (runJobs env (jobs.take n) db)) →
    ((∀ n, Suspended b (runJobs env (jobs.take n) db)) ↔
      ∀ (n : Nat) (j : Job), jobs[n]? = some j → j.reaches b.id (runJobs env (jobs.take n) db) = false)
  | [], _, _, hs, _ => ⟨fun _ n j hj => by simp at hj, fun _ n => by simpa [runJobs] using hs⟩
  | j :: jobs, db, h, hs, hexp => by
    obtain ⟨h', hiff⟩ := job_suspended_iff env j h hs (hexp 0 j rfl)
    have hexp' : ∀ (n : Nat) (i : Job), jobs[n]? = some i →
        i.Unexpired b.accountId (runJobs env (jobs.take n) (j.run env db)) :=
      fun n i hi => hexp (n + 1) i hi
    constructor
    · intro hall
      have hs' : Suspended b (j.run env db) := hall 1
      have hrest := (suspension_persists_iff h' hs' hexp').1 fun n => hall (n + 1)
      intro n i hi
      cases n with
      | zero =>
        cases hi
        exact hiff.1 hs'
      | succ n => exact hrest n i hi
    · intro hnone
      have hs' : Suspended b (j.run env db) := hiff.2 (hnone 0 j rfl)
      have hrest := (suspension_persists_iff h' hs' hexp').2 fun n i hi => hnone (n + 1) i hi
      intro n
      cases n with
      | zero => exact hs
      | succ n => exact hrest n

/-- The last transaction of the action makes the binding suspended. -/
theorem completeAction_suspends {s : State} {a : Answer} {action : RiskAction}
    {before : Option BeforeState} (htype : action.actionType = .disableUser)
    (heffect : a.reply.effect = true) (hi : action.instanceId = b.instanceId)
    (hr : action.remoteUserId = some b.remoteUserId) (h : Known b s.db)
    (hflag : ∃ u ∈ s.db.upstream, u.key = b.remote ∧ u.disabled = true) :
    Suspended b (completeAction false a action before s).2.db := by
  obtain ⟨b', hb', hid, -, hrem⟩ := h.row
  have hkey : b'.remote = (action.instanceId, action.remoteUserId.getD "") := by
    rw [hrem, hi, hr]
    rfl
  unfold completeAction
  simp only [htype, heffect, if_true]
  exact ⟨⟨_, List.mem_map.2 ⟨b', hb', rfl⟩, by rw [if_pos hkey]; exact ⟨hid, rfl⟩⟩, hflag⟩

/-! ## Two sequences -/

def boundUser : Binding :=
  { id := idOf 'b', accountId := idOf 'a', instanceId := idOf 'c', remoteUserId := "u"
    remoteUsername := "name", status := .suspended, origin := .manualClaim, isPrimary := true
    remoteDisabled := some true }

/-- The account is active and its membership runs until 100; its user was disabled by an action. -/
def suspendedUser : Store where
  accounts := [⟨idOf 'a', .active⟩]
  memberships := [{ id := idOf '6', accountId := idOf 'a', planId := idOf '7', status := .active
                    startsAt := 0, expiresAt := 100, source := "manual", sourceRef := none
                    createdBy := "account:admin" }]
  bindings := [boundUser]
  upstream := [{ instanceId := idOf 'c', id := "u", name := "name", disabled := true }]
  riskActions := [{ id := idOf 'd', eventId := idOf 'e', instanceId := idOf 'c'
                    taskId := some (idOf '1'), actionType := .disableUser, status := .succeeded
                    remoteUserId := some "u", beforeState := some (.disabled false)
                    actionEffectApplied := true }]

theorem suspendedUser_known : Known boundUser suspendedUser where
  ids := List.nodup_singleton _
  remotes := List.nodup_singleton _
  users := List.nodup_singleton _
  row := ⟨boundUser, List.mem_singleton_self _, rfl, rfl, rfl⟩
  user := ⟨_, List.mem_singleton_self _, rfl, by decide, by decide⟩
  account := ⟨⟨idOf 'a', .active⟩, by decide, rfl⟩
  action := ⟨_, List.mem_singleton_self _, rfl, rfl, rfl, rfl⟩

theorem suspendedUser_suspended : Suspended boundUser suspendedUser where
  status := ⟨boundUser, List.mem_singleton_self _, rfl, rfl⟩
  flag := ⟨_, List.mem_singleton_self _, rfl, rfl⟩

def asStored {ρ : Type} : Arrangement ρ := ⟨id, fun _ => .refl _⟩

/-- A run whose listing of the users fails. -/
def listingFails : Job := .reconcile (idOf 'c') { now := 10, listed := false, arrangement := asStored }

/-- A suspension that persists: `reconcile` does not come to the binding. -/
theorem suspension_persists_listingFails :
    (∀ n, Suspended boundUser (runJobs plainEnvironment
        ([.syncEntitlement (idOf 'c') (idOf 'b') {}, listingFails].take n) suspendedUser)) ↔
      ∀ (n : Nat) (j : Job), [.syncEntitlement (idOf 'c') (idOf 'b') {}, listingFails][n]? = some j →
        j.reaches (idOf 'b') (runJobs plainEnvironment
          ([.syncEntitlement (idOf 'c') (idOf 'b') {}, listingFails].take n) suspendedUser) = false := by
  refine suspension_persists_iff suspendedUser_known suspendedUser_suspended fun n j hj => ?_
  match n, hj with
  | 0, hj => cases hj; trivial
  | 1, hj => cases hj; show membershipExpired 10 _ _ = false; decide
  | n + 2, hj => simp at hj

/-- A run of `reconcile` enables the user of an active account again, and makes the binding active. -/
theorem reconcile_enables :
    Known boundUser suspendedUser ∧ Suspended boundUser suspendedUser ∧
      membershipExpired 10 suspendedUser boundUser.accountId = false ∧
      ¬Suspended boundUser (runJobs plainEnvironment
        [.reconcile (idOf 'c') { now := 10, arrangement := asStored }] suspendedUser) := by
  refine ⟨suspendedUser_known, suspendedUser_suspended, by decide, ?_⟩
  refine Enabled.not_suspended fun u hu hk => ?_
  have hup : (runJobs plainEnvironment
      [.reconcile (idOf 'c') { now := 10, arrangement := asStored }] suspendedUser).upstream =
      [{ instanceId := idOf 'c', id := "u", name := "name" }] := by decide +kernel
  rw [hup] at hu
  cases List.mem_singleton.1 hu
  rfl

end Sakura.Risk
