/-
  Favorites (platform/reviews_favorites.go, platform/worker.go).

  A favorite is a row of emby_favorites and a mark on an Emby server.  A user asks for a value, a task
  carries it to the server, and another one reads the marks of a user back.

  * `EmbyFavorite`, `State`: the rows, the marks of the servers and the workers;
  * `setFavorite`, `enqueueFavoriteSync`: what users ask for;
  * `Stage`, `advance`: the handlers `applyFavorite` and `syncFavorites`, a statement or a call to the
    server at a time;
  * `Label`, `step`: any interleaving of them.
-/
import Sakura.Emby.Handlers

namespace Sakura.Favorites

open Txn Queue

/-! ## Rows -/

inductive SyncStatus where
  | pending | synced | failed | missing
  deriving DecidableEq, Repr

structure EmbyFavorite where
  id : UUID
  accountId : UUID
  instanceId : UUID
  bindingId : UUID
  mediaId : Option UUID := none
  remoteItemId : String
  title : String
  mediaType : Option String := none
  imageTag : Option String := none
  desiredFavorite : Bool := true
  remoteFavorite : Bool := true
  syncStatus : SyncStatus := .synced
  lastError : Option String := none
  deriving DecidableEq

/-- UNIQUE(binding_id,remote_item_id) -/
def EmbyFavorite.key (f : EmbyFavorite) : UUID × String := (f.bindingId, f.remoteItemId)

/-- A mark on a server: the instance, the user and the item. -/
abbrev Mark := UUID × String × String

/-- An item that a server lists, with its fields as `fmt.Sprint` prints them. -/
structure Item where
  id : String
  title : String
  type : String := ""
  imageTag : String := ""

/-- Where a handler is.  `sending` has read the row, `accepted` and `refused` know the answer of the
server; `listing` has read the binding, `writing` has the marks, with the items that are left to write and
those it has seen. -/
inductive Stage where
  | start
  | sending (instanceID favoriteID : UUID) (remoteUserID itemID : String) (desired : Bool)
  | accepted (favoriteID : UUID)
  | refused (favoriteID : UUID) (text : Bytes)
  | listing (instanceID bindingID accountID : UUID) (remoteUserID : String)
  | writing (instanceID bindingID accountID : UUID) (items : List Item) (seen : List String)
  | ended (failure : Option Failure)

def Stage.outcome : Stage → Option (Option Failure)
  | .ended failure => some failure
  | _ => none

/-- `asked` is the history of the requests: the favorites and the values asked for. -/
structure State extends Workers Stage where
  favorites : List EmbyFavorite := []
  marks : List Mark := []
  asked : List (UUID × Bool) := []

/-! ## Requests -/

/-- `NULLIF(…,'')` -/
def nullable (n : Nat) (s : String) : Except Err (Option String) := do
  pure (nullIfEmpty (← varchar n s))

/-- `INSERT … ON CONFLICT(binding_id,remote_item_id) DO UPDATE SET … RETURNING id` -/
def upsertFavorite (row : EmbyFavorite) (set : EmbyFavorite → EmbyFavorite)
    (favorites : List EmbyFavorite) : Except Err (List EmbyFavorite × UUID) :=
  match favorites.find? (·.key = row.key) with
  | some f => .ok (put EmbyFavorite.id favorites (set f), f.id)
  | none =>
    if favorites.any (·.id = row.id) then .error .database else .ok (favorites ++ [row], row.id)

/-- The binding of an account that is not deleted. -/
def bindingOf (db : Store) (accountID bindingID : UUID) : Except Err Binding :=
  (db.bindings.find? fun b => b.id = bindingID && b.accountId = accountID &&
    b.status ≠ .deleted).elim (.error .notFound) .ok

structure FavoriteRequest where
  accountID : UUID
  bindingID : UUID
  remoteItemID : String
  title : String
  mediaType : String := ""
  mediaID : Option UUID := none
  favorite : Bool

/-- The texts of the request without the white space around them. -/
def FavoriteRequest.trimmed (r : FavoriteRequest) : FavoriteRequest :=
  { r with
    remoteItemID := trimSpace r.remoteItemID, title := trimSpace r.title
    mediaType := trimSpace r.mediaType }

def FavoriteRequest.invalid (r : FavoriteRequest) : Bool :=
  r.remoteItemID = "" || 128 < r.remoteItemID.utf8ByteSize || r.title = "" ||
    500 < r.title.utf8ByteSize

def favoriteKey (r : FavoriteRequest) (now : Time) : String :=
  "favorite:" ++ r.bindingID.text ++ ":" ++ r.remoteItemID ++ ":" ++ toString r.favorite ++ ":" ++
    toString now

/-- The transaction of `SetFavorite` on a valid request; `id` and `taskID` are new. -/
def requestFavorite (id taskID : UUID) (now : Time) (r : FavoriteRequest) (s : State) :
    Except Err State := do
  let b ← bindingOf s.db r.accountID r.bindingID
  let item ← varchar 128 r.remoteItemID
  let title ← varchar 500 r.title
  let mediaType ← nullable 40 r.mediaType
  let (favorites, favoriteID) ← upsertFavorite
    { id, accountId := r.accountID, instanceId := b.instanceId, bindingId := r.bindingID
      mediaId := r.mediaID, remoteItemId := item, title, mediaType, desiredFavorite := r.favorite
      remoteFavorite := !r.favorite, syncStatus := .pending }
    (fun f => { f with
      mediaId := r.mediaID.or f.mediaId, title, mediaType, desiredFavorite := r.favorite
      syncStatus := .pending, lastError := none }) s.favorites
  let tasks ← insertTask taskID .embyFavorite (favoriteKey r now)
    { instanceId := some b.instanceId, favoriteId := some favoriteID } now s.db.tasks
  pure { s with
    db := { s.db with tasks }, favorites, asked := s.asked ++ [(favoriteID, r.favorite)] }

/-- `SetFavorite` -/
def setFavorite (id taskID : UUID) (now : Time) (r : FavoriteRequest) (s : State) :
    Except Err State :=
  if r.trimmed.invalid then .error .invalid else requestFavorite id taskID now r.trimmed s

/-- `EnqueueFavoriteSync`; a task of the same half minute takes the place of the new one. -/
def enqueueFavoriteSync (taskID : UUID) (now : Time) (accountID bindingID : UUID) (s : State) :
    Except Err State := do
  let b ← bindingOf s.db accountID bindingID
  let key := "favorite-sync:" ++ bindingID.text ++ ":" ++ toString (now / 1000000000 / 30)
  if s.db.tasks.any (·.idempotencyKey = key) then pure s else do
    let tasks ← insertTask taskID .embyFavoriteSync key
      { instanceId := some b.instanceId, bindingId := some bindingID } now s.db.tasks
    pure { s with db := { s.db with tasks } }

/-! ## Handlers -/

/-- With the items that a server lists, and a new id. -/
structure Answer extends Queue.Answer where
  items : List Item := []
  newID : UUID

/-- `applyFavorite` up to its first statement: the row with the user of its binding. -/
def loadFavorite (instanceID : UUID) (task : ClaimedTask) (s : State) : Stage :=
  match task.payload.favoriteId with
  | none => .ended (some (permanent "favorite task has invalid favorite id"))
  | some favoriteID =>
    match s.favorites.find? (fun f => f.id = favoriteID && f.instanceId = instanceID) with
    | none => .ended (some (permanent "not found"))
    | some f => match s.db.bindings.find? (·.id = f.bindingId) with
      | none => .ended (some (permanent "not found"))
      | some b => .sending instanceID favoriteID b.remoteUserId f.remoteItemId f.desiredFavorite

/-- `syncFavorites` up to its first statement. -/
def loadBinding (instanceID : UUID) (task : ClaimedTask) (s : State) : Stage :=
  match task.payload.bindingId with
  | none => .ended (some (permanent "favorite sync task has invalid binding id"))
  | some bindingID =>
    match s.db.bindings.find? (fun b => b.id = bindingID && b.instanceId = instanceID) with
    | none => .ended (some (permanent "not found"))
    | some b => .listing instanceID bindingID b.accountId b.remoteUserId

def startTask (a : Answer) (task : ClaimedTask) (s : State) : Stage :=
  match instanceOf a.toAnswer task s.db with
  | .error failure => .ended (some failure)
  | .ok instanceID => match task.type with
    | .embyFavorite => loadFavorite instanceID task s
    | .embyFavoriteSync => loadBinding instanceID task s
    | _ => .ended a.other

/-- The server sets or clears the mark. -/
def setMark (mark : Mark) (favorite : Bool) (marks : List Mark) : List Mark :=
  if favorite then mark :: marks else marks.filter (· ≠ mark)

/-- `UPDATE emby_favorites SET … WHERE id=…` -/
def updateFavorite (favoriteID : UUID) (set : EmbyFavorite → EmbyFavorite)
    (favorites : List EmbyFavorite) : List EmbyFavorite :=
  favorites.map fun f => if f.id = favoriteID then set f else f

/-- What `syncFavorites` writes to a row: that the server lists it or not. -/
def EmbyFavorite.synced (listed : Bool) (f : EmbyFavorite) : EmbyFavorite :=
  if f.syncStatus = .pending then { f with remoteFavorite := listed }
  else { f with remoteFavorite := listed, desiredFavorite := listed, syncStatus := .synced }

/-- The row of a listed item; only here is the error of a row that is not pending cleared. -/
def writeItem (a : Answer) (instanceID bindingID accountID : UUID) (item : Item)
    (favorites : List EmbyFavorite) : Except Err (List EmbyFavorite) := do
  let id ← varchar 128 item.id
  let title ← varchar 500 item.title
  let mediaType ← nullable 40 item.type
  let imageTag ← nullable 255 item.imageTag
  let (favorites, _) ← upsertFavorite
    { id := a.newID, accountId := accountID, instanceId := instanceID, bindingId := bindingID
      remoteItemId := id, title, mediaType, imageTag }
    (fun f => { f.synced true with
      title, mediaType, imageTag
      lastError := if f.syncStatus = .pending then f.lastError else none }) favorites
  pure favorites

/-- The rows of the binding that the server has not listed. -/
def sweep (bindingID : UUID) (seen : List String) (favorites : List EmbyFavorite) :
    List EmbyFavorite :=
  favorites.map fun f =>
    if f.bindingId = bindingID ∧ f.remoteItemId ∉ seen then f.synced false else f

/-- The server lists the marks of the user, each once or more often. -/
def Lists (instanceID : UUID) (remoteUserID : String) (marks : List Mark) (items : List Item) :
    Prop :=
  (∀ i ∈ items, (instanceID, remoteUserID, i.id) ∈ marks) ∧
    ∀ m ∈ marks, m.1 = instanceID → m.2.1 = remoteUserID → ∃ i ∈ items, i.id = m.2.2

instance (instanceID : UUID) (remoteUserID : String) (marks : List Mark) (items : List Item) :
    Decidable (Lists instanceID remoteUserID marks items) :=
  inferInstanceAs (Decidable (_ ∧ _))

/-- The next statement or call of a handler, with the stage after it. -/
def advance (a : Answer) (task : ClaimedTask) (s : State) : Stage → Option (Stage × State)
  | .start => some (startTask a task s, s)
  | .sending instanceID favoriteID remoteUserID itemID desired =>
    if trimSpace remoteUserID = "" ∨ trimSpace itemID = "" then
      some (.refused favoriteID (bytesOf "Emby favorite target is empty"), s)
    else
      some (if a.ok then .accepted favoriteID else .refused favoriteID a.reply.text,
        if a.reply.effect then
          { s with marks := setMark (instanceID, remoteUserID, itemID) desired s.marks }
        else s)
  -- an error of this statement is ignored
  | .refused favoriteID text =>
    some (.ended (some ⟨text, false⟩),
      match a.reply.effect, storedText 2000 (truncateError text) with
      | true, some lastError => { s with
          favorites := updateFavorite favoriteID
            (fun f => { f with syncStatus := .failed, lastError := some lastError }) s.favorites }
      | _, _ => s)
  | .accepted favoriteID =>
    some (.ended (if a.ok then none else some a.failure),
      if a.reply.effect then { s with
          favorites := updateFavorite favoriteID (fun f => { f with
            remoteFavorite := f.desiredFavorite, syncStatus := .synced, lastError := none })
            s.favorites }
      else s)
  | .listing instanceID bindingID accountID remoteUserID =>
    if !a.ok then some (.ended (some a.failure), s)
    else if Lists instanceID remoteUserID s.marks a.items then
      some (.writing instanceID bindingID accountID a.items [], s)
    else none
  | .writing instanceID bindingID accountID (item :: items) seen =>
    if item.id = "" ∨ item.title = "" then
      some (.writing instanceID bindingID accountID items seen, s)
    else match writeItem a instanceID bindingID accountID item s.favorites with
      | .error _ => some (.ended (some a.failure), s)
      | .ok favorites =>
        some (if a.ok then .writing instanceID bindingID accountID items (seen ++ [item.id])
          else .ended (some a.failure), if a.reply.effect then { s with favorites } else s)
  | .writing _ bindingID _ [] seen =>
    some (.ended (if a.ok then none else some a.failure),
      if a.reply.effect then { s with favorites := sweep bindingID seen s.favorites } else s)
  | .ended _ => none

/-! ## Steps -/

inductive Label where
  | queue (step : QueueStep)
  | setFavorite (id taskID : UUID) (now : Time) (request : FavoriteRequest)
  | enqueueFavoriteSync (taskID : UUID) (now : Time) (accountID bindingID : UUID)
  | advance (n : Nat) (answer : Answer)

/-- A refused request changes nothing. -/
def accepted (s : State) : Except Err State → State
  | .ok s' => s'
  | .error _ => s

def step : Label → State → Option State
  | .queue l, s =>
    (s.toWorkers.queueStep .start Stage.outcome l).map fun ws => { s with toWorkers := ws }
  | .setFavorite id taskID now r, s => some (accepted s (setFavorite id taskID now r s))
  | .enqueueFavoriteSync taskID now accountID bindingID, s =>
    some (accepted s (enqueueFavoriteSync taskID now accountID bindingID s))
  | .advance n a, s =>
    match s.running[n]? with
    | none => none
    | some r => (advance a r.task s r.stage).map fun (stage, s') =>
      { s' with running := s.running.set n { r with stage } }

end Sakura.Favorites
