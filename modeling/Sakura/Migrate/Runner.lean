/-
  Migrations (migrate/migrate.go).

  Any number of processes bring one database up to date.  A session lock lets one of them work at a
  time; each migration runs in a transaction with its record in schema_migrations.

  * `Migration`, `discover`: the files, by ascending version;
  * `discover_ascending`: their versions are distinct;
  * `Runner`: the files, and what their SQL does to a schema;
  * `Database`, `Stage`, `State`: the database, and where each process is;
  * `Runner.step`: a process goes on, has a statement fail, loses its connection, dies or is started
    again.
-/
import Mathlib.Algebra.Group.Nat.Defs
import Mathlib.Algebra.Ring.Int.Defs
import Mathlib.Data.List.Sort
import Sakura.Text

namespace Sakura.Migrate

/-! ## Files -/

structure Migration where
  version : Nat
  name : String
  checksum : String
  sql : Bytes
  deriving DecidableEq

/-- An embedded file, and its content or the error of reading it. -/
structure Entry where
  name : String
  isDir : Bool
  body : Except String Bytes

def isDigit (c : Char) : Bool := '0' ≤ c && c ≤ '9'

/-- `[a-z0-9_]` -/
def isWord (c : Char) : Bool := isDigit c || ('a' ≤ c && c ≤ 'z') || c = '_'

/-- The groups of `^(\d+)_([a-z0-9_]+)\.up\.sql$`. -/
def migrationPattern (name : String) : Option (List Char × String) :=
  let digits := name.toList.takeWhile isDigit
  match name.toList.dropWhile isDigit with
  | '_' :: tail =>
    let word := tail.take (tail.length - 7)
    if digits ≠ [] ∧ word ≠ [] ∧ word.all isWord ∧ tail.drop (tail.length - 7) = ".up.sql".toList then
      some (digits, String.ofList word)
    else none
  | _ => none

def decimal (digits : List Char) : Nat :=
  digits.foldl (fun n c => n * 10 + (c.toNat - '0'.toNat)) 0

section

variable (sha256 : Bytes → String)

/-- The loop over the entries, with the versions seen and their files. -/
def readMigrations (seen : List (Nat × String)) : List Entry → Except String (List Migration)
  | [] => .ok []
  | entry :: entries =>
    if entry.isDir then readMigrations seen entries
    else match migrationPattern entry.name with
    | none => readMigrations seen entries
    | some (digits, name) =>
      if 2 ^ 63 ≤ decimal digits then
        .error ("parse migration version " ++ entry.name ++ ": strconv.ParseInt: parsing \"" ++
          String.ofList digits ++ "\": value out of range")
      else match seen.find? (·.1 = decimal digits) with
      | some existing => .error ("duplicate migration version " ++ toString (decimal digits) ++ ": " ++
          existing.2 ++ " and " ++ entry.name)
      | none =>
        match entry.body with
        | .error cause => .error ("read migration " ++ entry.name ++ ": " ++ cause)
        | .ok body =>
          match readMigrations ((decimal digits, entry.name) :: seen) entries with
          | .error x => .error x
          | .ok rest => .ok (⟨decimal digits, name, sha256 body, body⟩ :: rest)

/-- `sort.Slice` by version. -/
def sortMigrations (ms : List Migration) : List Migration :=
  ms.insertionSort fun a b => a.version ≤ b.version

/-- `sha256` is the hexadecimal text of the digest. -/
def discover (embedded : Except String (List Entry)) : Except String (List Migration) :=
  match embedded with
  | .error cause => .error ("read embedded migrations: " ++ cause)
  | .ok entries =>
    match readMigrations sha256 [] entries with
    | .error x => .error x
    | .ok ms => if ms = [] then .error "no embedded migrations found" else .ok (sortMigrations ms)

/-- The versions ascend, and none is there twice. -/
def Ascending (ms : List Migration) : Prop := (ms.map (·.version)).Pairwise (· < ·)

instance (ms : List Migration) : Decidable (Ascending ms) :=
  inferInstanceAs (Decidable ((ms.map (·.version)).Pairwise (· < ·)))

theorem readMigrations_distinct : ∀ {entries : List Entry} {seen : List (Nat × String)}
    {ms : List Migration}, readMigrations sha256 seen entries = .ok ms →
    (ms.map (·.version)).Nodup ∧ ∀ m ∈ ms, ∀ x ∈ seen, x.1 ≠ m.version
  | [], seen, ms, h => by
    cases h
    exact ⟨List.nodup_nil, fun m hm => absurd hm (List.not_mem_nil)⟩
  | entry :: entries, seen, ms, h => by
    unfold readMigrations at h
    split at h
    · exact readMigrations_distinct h
    split at h
    · exact readMigrations_distinct h
    split at h
    · cases h
    split at h
    · cases h
    · next digits name _ _ hfresh =>
      split at h
      · cases h
      split at h
      · cases h
      · next body _ rest hrest =>
        cases h
        obtain ⟨hnodup, hseen⟩ := readMigrations_distinct hrest
        refine ⟨List.nodup_cons.2 ⟨fun hmem => ?_, hnodup⟩, ?_⟩
        · obtain ⟨m, hm, hv⟩ := List.mem_map.1 hmem
          exact hseen m hm _ List.mem_cons_self hv.symm
        · intro m hm x hx
          rcases List.mem_cons.1 hm with rfl | hm
          · simpa using List.find?_eq_none.1 hfresh x hx
          · exact hseen m hm x (List.mem_cons_of_mem _ hx)

theorem sortMigrations_ascending {ms : List Migration} (h : (ms.map (·.version)).Nodup) :
    Ascending (sortMigrations ms) := by
  have hle : (sortMigrations ms).Pairwise fun a b => a.version ≤ b.version := by
    have : Std.Total fun a b : Migration => a.version ≤ b.version := ⟨fun a b => Nat.le_total _ _⟩
    have : IsTrans Migration fun a b => a.version ≤ b.version := ⟨fun _ _ _ => Nat.le_trans⟩
    exact List.pairwise_insertionSort _ ms
  have hne : (sortMigrations ms).Pairwise fun a b => a.version ≠ b.version :=
    List.pairwise_map.1 (((List.perm_insertionSort _ ms).map _).nodup_iff.2 h)
  exact List.pairwise_map.2 ((hle.and hne).imp fun h => Nat.lt_of_le_of_ne h.1 h.2)

theorem discover_ascending {embedded : Except String (List Entry)} {ms : List Migration}
    (h : discover sha256 embedded = .ok ms) : Ascending ms := by
  unfold discover at h
  split at h
  · cases h
  split at h
  · cases h
  · next found hfound =>
    split at h
    · cases h
    · cases h
      exact sortMigrations_ascending (readMigrations_distinct sha256 hfound).1

end

/-! ## The database -/

/-- A row of schema_migrations. -/
structure Record where
  version : Nat
  name : String
  checksum : String
  deriving DecidableEq

def Migration.record (m : Migration) : Record := ⟨m.version, m.name, m.checksum⟩

/-- What a transaction has done: run the SQL of a migration, and record it. -/
inductive Change where
  | effect (m : Migration)
  | record (r : Record)
  deriving DecidableEq

/-- `ledger` is schema_migrations, once it exists; `commits` are the changes of each commit, in their
order. -/
structure Database (σ : Type) where
  schema : σ
  ledger : Option (List Record)
  commits : List (List Change)

def Database.records {σ : Type} (db : Database σ) : List Record := db.ledger.getD []

/-! ## Processes -/

/-- Where `Run` is: the statement it sends next, with the migrations that are left and what its
transaction has done so far. -/
inductive Stage (σ : Type) where
  | connecting
  | locking
  | creating
  | checking (rest : List Migration)
  | beginning (m : Migration) (rest : List Migration)
  | applying (m : Migration) (rest : List Migration)
  | recording (m : Migration) (rest : List Migration) (schema : σ)
  | committing (m : Migration) (rest : List Migration) (schema : σ)
  | unlocking (result : Except String Unit)
  | ended (result : Except String Unit)
  | dead

/-- The files, and what the SQL of one does to the schema, if it does not fail. -/
structure Runner (σ : Type) where
  found : Except String (List Migration)
  exec : Bytes → σ → Except String σ
  ascending : ∀ ms, found = .ok ms → Ascending ms

def Runner.of {σ : Type} (sha256 : Bytes → String) (exec : Bytes → σ → Except String σ)
    (embedded : Except String (List Entry)) : Runner σ :=
  ⟨discover sha256 embedded, exec, fun _ => discover_ascending sha256⟩

structure State (ι σ : Type) where
  db : Database σ
  /-- The process whose session has the advisory lock. -/
  lock : Option ι
  stage : ι → Stage σ

variable {ι σ : Type}

def checksumChanged (m : Migration) : String :=
  "migration " ++ toString m.version ++ " checksum changed after application"

/-- What `Run` returns if its statement fails with `cause`. -/
def Stage.failed (cause : String) : Stage σ → Except String Unit
  | .connecting => .error ("connect PostgreSQL: " ++ cause)
  | .locking => .error ("acquire migration lock: " ++ cause)
  | .creating => .error ("create migration ledger: " ++ cause)
  | .checking [] => .ok ()
  | .checking (m :: _) => .error ("read migration " ++ toString m.version ++ " state: " ++ cause)
  | .beginning m _ => .error ("begin migration " ++ toString m.version ++ ": " ++ cause)
  | .applying m _ =>
    .error ("apply migration " ++ toString m.version ++ "_" ++ m.name ++ ": " ++ cause)
  | .recording m _ _ => .error ("record migration " ++ toString m.version ++ ": " ++ cause)
  | .committing m _ _ => .error ("commit migration " ++ toString m.version ++ ": " ++ cause)
  | .unlocking result | .ended result => result
  | .dead => .error cause

/-- What a transaction does with a migration. -/
def Migration.changes (m : Migration) : List Change := [.effect m, .record m.record]

/-- The schema and the record are committed at once. -/
def Database.commit (db : Database σ) (m : Migration) (schema : σ) : Database σ where
  schema := schema
  ledger := some (db.records ++ [m.record])
  commits := db.commits ++ [m.changes]

/-- The loop goes on with the row of the migration, if there is one. -/
def afterCheck (m : Migration) (rest : List Migration) : Option Record → Stage σ
  | some r => if r.checksum ≠ m.checksum then .unlocking (.error (checksumChanged m)) else .checking rest
  | none => .beginning m rest

def afterApply (m : Migration) (rest : List Migration) : Except String σ → Stage σ
  | .ok schema => .recording m rest schema
  | .error cause => .unlocking ((Stage.applying m rest : Stage σ).failed cause)

/-- PRIMARY KEY(version) -/
def afterRecord (m : Migration) (rest : List Migration) (schema : σ) (taken : Bool) : Stage σ :=
  if taken then .unlocking ((Stage.recording m rest schema).failed "duplicate key")
  else .committing m rest schema

def afterDiscover : Except String (List Migration) → Stage σ
  | .ok ms => .checking ms
  | .error x => .unlocking (.error x)

/-- The stage after a statement that succeeds or is refused, and the database it leaves; the lock is not
concerned. -/
def Runner.next (R : Runner σ) (db : Database σ) : Stage σ → Option (Stage σ × Database σ)
  | .connecting => some (.locking, db)
  | .creating => some (afterDiscover R.found, { db with ledger := some db.records })
  | .checking [] => some (.unlocking (.ok ()), db)
  | .checking (m :: rest) => some (afterCheck m rest (db.records.find? (·.version = m.version)), db)
  | .beginning m rest => some (.applying m rest, db)
  | .applying m rest => some (afterApply m rest (R.exec m.sql db.schema), db)
  | .recording m rest schema =>
    some (afterRecord m rest schema (db.records.any (·.version = m.version)), db)
  | .committing m rest schema => some (.checking rest, db.commit m schema)
  | .locking | .unlocking _ | .ended _ | .dead => none

/-- What the end of a session leaves; a COMMIT that was sent may be done. -/
def Database.settle (db : Database σ) : Stage σ → Bool → Database σ
  | .committing m _ schema, true => db.commit m schema
  | _, _ => db

inductive Action (ι : Type) where
  /-- The process goes on. -/
  | proceed (i : ι)
  /-- Its statement fails, and an open transaction is rolled back. -/
  | fail (i : ι) (cause : String)
  /-- Its connection is lost. -/
  | lose (i : ι) (cause : String) (committed : Bool)
  | die (i : ι) (committed : Bool)
  /-- The program is started again. -/
  | restart (i : ι)

section

variable [DecidableEq ι]

/-- The process is at `p`. -/
def State.goes (s : State ι σ) (i : ι) (p : Stage σ) (lock : Option ι) (db : Database σ) : State ι σ where
  db := db
  lock := lock
  stage j := if j = i then p else s.stage j

/-- The lock when the session of the process has ended. -/
def State.released (s : State ι σ) (i : ι) : Option ι := if s.lock = some i then none else s.lock

def Runner.proceed (R : Runner σ) (s : State ι σ) (i : ι) : Option (State ι σ) :=
  match s.stage i with
  | .locking => if s.lock = none then some (s.goes i .creating (some i) s.db) else none
  | .unlocking result => some (s.goes i (.ended result) (s.released i) s.db)
  | p => (R.next s.db p).map fun x => s.goes i x.1 s.lock x.2

/-- Without the lock there is nothing to unlock. -/
def State.fail (s : State ι σ) (i : ι) (cause : String) : Option (State ι σ) :=
  match s.stage i with
  | .connecting => some (s.goes i (.ended ((Stage.connecting : Stage σ).failed cause)) s.lock s.db)
  | .locking => some (s.goes i (.ended ((Stage.locking : Stage σ).failed cause)) s.lock s.db)
  | .unlocking result => some (s.goes i (.ended result) (s.released i) s.db)
  | .checking [] | .ended _ | .dead => none
  | p => some (s.goes i (.unlocking (p.failed cause)) s.lock s.db)

def State.lose (s : State ι σ) (i : ι) (cause : String) (committed : Bool) : Option (State ι σ) :=
  match s.stage i with
  | .connecting | .ended _ | .dead => none
  | p => some (s.goes i (.ended (p.failed cause)) (s.released i) (s.db.settle p committed))

def State.die (s : State ι σ) (i : ι) (committed : Bool) : Option (State ι σ) :=
  match s.stage i with
  | .ended _ | .dead => none
  | p => some (s.goes i .dead (s.released i) (s.db.settle p committed))

def State.restart (s : State ι σ) (i : ι) : Option (State ι σ) :=
  match s.stage i with
  | .ended _ | .dead => some (s.goes i .connecting s.lock s.db)
  | _ => none

def Runner.step (R : Runner σ) : Action ι → State ι σ → Option (State ι σ)
  | .proceed i, s => R.proceed s i
  | .fail i cause, s => s.fail i cause
  | .lose i cause committed, s => s.lose i cause committed
  | .die i committed, s => s.die i committed
  | .restart i, s => s.restart i

end

end Sakura.Migrate
