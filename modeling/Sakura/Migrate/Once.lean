/-
  Migrations are applied once, and in order.

  * `Orderly`: what a database says of the migrations that were applied to it;
  * `Stage.Fits`, `Inv`: what each process relies on, and who has the lock;
  * `Inv.goes`, `step_inv`: every step keeps this;
  * `Stage.left`, `run_ends`: a process that has the lock, or finds it free, comes to its end;
  * `migrations_once`: all of it, in every state of every run.
-/
import Sakura.Migrate.Runner
import Sakura.Txn.Machine

namespace Sakura.Migrate

open Txn

variable {ι σ : Type}

/-! ## The property -/

def Database.versions (db : Database σ) : List Nat := db.records.map (·.version)

/-- The migrations whose SQL was committed, in the order of the commits. -/
def Database.effects (db : Database σ) : List Migration :=
  db.commits.flatten.filterMap fun
    | .effect m => some m
    | .record _ => none

/-- The SQL of the migrations, one after another. -/
def Runner.replay (R : Runner σ) : List Migration → σ → Except String σ
  | [], schema => .ok schema
  | m :: ms, schema => do R.replay ms (← R.exec m.sql schema)

/-- The migrations are recorded, with the checksums of the files. -/
def Checked (db : Database σ) (ms : List Migration) : Prop :=
  ∀ m ∈ ms, ∃ r ∈ db.records, r.version = m.version ∧ r.checksum = m.checksum

/-- A migration is recorded with another checksum. -/
def Changed (db : Database σ) (m : Migration) : Prop :=
  ∃ r ∈ db.records, r.version = m.version ∧ r.checksum ≠ m.checksum

/-- Since the database was `db₀`, each commit has run the SQL of one migration and recorded it, none a
second time, and only after those before it were recorded with their checksums; the records are those of
the first migrations, and the schema is what they make. -/
structure Orderly (R : Runner σ) (ms : List Migration) (db₀ db : Database σ) : Prop where
  together : ∀ c ∈ db.commits, ∃ m ∈ ms, c = [.effect m, .record m.record]
  records : db.records = db₀.records ++ db.effects.map Migration.record
  once : (db₀.versions ++ db.effects.map (·.version)).Nodup
  ascending : db.versions <+: ms.map (·.version)
  schema : R.replay db.effects db₀.schema = .ok db.schema
  preceded : ∀ x ∈ db.effects, Checked db (ms.filter fun m => m.version < x.version)

/-! ## Invariant -/

/-- The session has the lock. -/
def Stage.holds : Stage σ → Prop
  | .connecting | .locking | .ended _ | .dead => False
  | _ => True

/-- The migration is the next one to apply. -/
def Missing (ms : List Migration) (db : Database σ) (m : Migration) (rest : List Migration) : Prop :=
  ∃ done, ms = done ++ m :: rest ∧ Checked db done ∧ m.version ∉ db.versions

def Stage.Fits (R : Runner σ) (ms : List Migration) (db : Database σ) : Stage σ → Prop
  | .checking rest => ∃ done, ms = done ++ rest ∧ Checked db done
  | .beginning m rest | .applying m rest => Missing ms db m rest
  | .recording m rest schema | .committing m rest schema =>
    Missing ms db m rest ∧ R.exec m.sql db.schema = .ok schema
  | .unlocking result | .ended result => result = .ok () → Checked db ms
  | _ => True

structure Inv (R : Runner σ) (ms : List Migration) (db₀ : Database σ) (s : State ι σ) : Prop where
  orderly : Orderly R ms db₀ s.db
  holder : ∀ i, (s.stage i).holds ↔ s.lock = some i
  fits : ∀ i, (s.stage i).Fits R ms s.db

variable {R : Runner σ} {ms : List Migration} {db₀ db db' : Database σ} {m : Migration}
  {rest : List Migration} {schema : σ} {s s' : State ι σ} {i : ι}

/-! ## A commit -/

theorem Checked.mono (h : Checked db ms) (hr : db.records ⊆ db'.records) : Checked db' ms := by
  intro m hm
  obtain ⟨r, hmem, hv, hc⟩ := h m hm
  exact ⟨r, hr hmem, hv, hc⟩

theorem records_commit : (db.commit m schema).records = db.records ++ [m.record] := rfl

theorem effects_commit : (db.commit m schema).effects = db.effects ++ [m] := by
  simp [Database.effects, Database.commit, Migration.changes]

theorem replay_append : ∀ (ms : List Migration) {schema : σ},
    R.replay (ms ++ [m]) schema = R.replay ms schema >>= R.exec m.sql
  | [], schema => by
    show (R.exec m.sql schema >>= fun s => .ok s) = R.exec m.sql schema
    cases R.exec m.sql schema <;> rfl
  | x :: xs, schema => by
    show (R.exec x.sql schema >>= fun s => R.replay (xs ++ [m]) s) =
      (R.exec x.sql schema >>= fun s => R.replay xs s) >>= R.exec m.sql
    cases R.exec x.sql schema with
    | error e => rfl
    | ok s => exact replay_append xs

/-- The records are those of the migrations before one that is not recorded. -/
theorem Missing.versions (h : Missing ms db m rest) (hms : Ascending ms)
    (hpre : db.versions <+: ms.map (·.version)) :
    ∃ done, ms = done ++ m :: rest ∧ db.versions = done.map (·.version) ∧ Checked db done := by
  obtain ⟨done, rfl, hdone, hmiss⟩ := h
  refine ⟨done, rfl, ?_, hdone⟩
  rw [List.map_append, List.map_cons] at hpre
  have hnodup : (done.map (·.version) ++ m.version :: rest.map (·.version)).Nodup := by
    have := List.Pairwise.imp (fun h => Nat.ne_of_lt h) hms
    rwa [List.map_append, List.map_cons] at this
  obtain ⟨more, hmore⟩ := hpre
  rcases List.append_eq_append_iff.1 hmore with ⟨as, h₁, h₂⟩ | ⟨as, h₁, h₂⟩
  · -- a migration before it would be missing
    cases as with
    | nil => simpa using h₁.symm
    | cons a as =>
      have ha : a ∈ done.map (·.version) := by rw [h₁]; simp
      obtain ⟨x, hx, hxa⟩ := List.mem_map.1 ha
      obtain ⟨r, hr, hv, -⟩ := hdone x hx
      have hin : a ∈ db.versions := hxa ▸ hv ▸ List.mem_map_of_mem hr
      rw [h₁, List.append_assoc] at hnodup
      exact absurd (List.mem_append_left _ (List.mem_cons_self : a ∈ a :: as))
        (List.disjoint_of_nodup_append hnodup hin)
  · cases as with
    | nil => simpa using h₁
    | cons a as =>
      obtain ⟨rfl, -⟩ := List.cons.inj h₂
      exact absurd (by rw [h₁]; simp) hmiss

/-- The next migration is applied and recorded. -/
theorem Orderly.commit (h : Orderly R ms db₀ db) (hms : Ascending ms) (hmiss : Missing ms db m rest)
    (hexec : R.exec m.sql db.schema = .ok schema) : Orderly R ms db₀ (db.commit m schema) := by
  obtain ⟨done, rfl, hversions, hdone⟩ := hmiss.versions hms h.ascending
  have hnew : m.version ∉ db.versions := by
    obtain ⟨_, _, _, hn⟩ := hmiss
    exact hn
  have hall : db.versions = db₀.versions ++ db.effects.map (·.version) := by
    simp [Database.versions, h.records, Migration.record]
  refine ⟨fun c hc => ?_, ?_, ?_, ?_, ?_, fun x hx => ?_⟩
  · rcases List.mem_append.1 hc with hc | hc
    · exact h.together c hc
    · exact ⟨m, by simp, List.mem_singleton.1 hc⟩
  · rw [records_commit, effects_commit, h.records]
    simp
  · rw [effects_commit, List.map_append, ← List.append_assoc, ← hall]
    refine List.nodup_append.2 ⟨hall ▸ h.once, by simp, fun a ha b hb => ?_⟩
    rintro rfl
    have hb : a = m.version := by simpa using hb
    exact hnew (hb ▸ ha)
  · refine ⟨rest.map (·.version), ?_⟩
    have : (db.commit m schema).versions = db.versions ++ [m.version] := by
      simp [Database.versions, records_commit, Migration.record]
    rw [this, hversions]
    simp
  · rw [effects_commit, replay_append, h.schema]
    exact hexec
  · rw [effects_commit] at hx
    rcases List.mem_append.1 hx with hx | hx
    · exact (h.preceded x hx).mono (List.subset_append_left _ _)
    · obtain rfl := List.mem_singleton.1 hx
      -- what comes before it in the list has been checked
      intro y hy
      obtain ⟨hy, hlt⟩ := List.mem_filter.1 hy
      refine hdone.mono (List.subset_append_left _ _) y ?_
      rcases List.mem_append.1 hy with hy | hy
      · exact hy
      · have hasc := hms
        unfold Ascending at hasc
        rw [List.map_append, List.map_cons] at hasc
        have htail := (List.pairwise_append.1 hasc).2.1
        rcases List.mem_cons.1 hy with rfl | hy
        · exact absurd (of_decide_eq_true hlt) (Nat.lt_irrefl _)
        · have := (List.pairwise_cons.1 htail).1 _ (List.mem_map_of_mem hy)
          exact absurd (of_decide_eq_true hlt) (Nat.not_lt.2 (Nat.le_of_lt this))

/-! ## Steps -/

/-- The committed data are as before, or the process has committed its transaction. -/
def Writes (db : Database σ) (p : Stage σ) (db' : Database σ) : Prop :=
  (db'.records = db.records ∧ db'.schema = db.schema ∧ db'.commits = db.commits) ∨
    ∃ m rest schema, p = .committing m rest schema ∧ db' = db.commit m schema

theorem writes_same {p : Stage σ} : Writes db p db := Or.inl ⟨rfl, rfl, rfl⟩

theorem writes_settle {p : Stage σ} {committed : Bool} : Writes db p (db.settle p committed) := by
  unfold Database.settle
  split
  · next m rest schema => exact Or.inr ⟨m, rest, schema, rfl, rfl⟩
  · exact writes_same

theorem Writes.records_subset {p : Stage σ} (h : Writes db p db') : db.records ⊆ db'.records := by
  rcases h with ⟨hr, -, -⟩ | ⟨m, rest, schema, -, rfl⟩
  · rw [hr]
    exact List.Subset.refl _
  · exact List.subset_append_left _ _

/-- What a process relies on stays true when another one writes. -/
theorem Stage.Fits.of_eq {p : Stage σ} (h : p.Fits R ms db) (hr : db'.records = db.records)
    (hs : db'.schema = db.schema) : p.Fits R ms db' := by
  have hv : db'.versions = db.versions := by rw [Database.versions, hr, Database.versions]
  have hmiss : ∀ {m rest}, Missing ms db m rest → Missing ms db' m rest := by
    rintro m rest ⟨done, he, hc, hn⟩
    exact ⟨done, he, hc.mono (hr ▸ List.Subset.refl _), hv ▸ hn⟩
  cases p with
  | checking rest =>
    obtain ⟨done, he, hc⟩ := h
    exact ⟨done, he, hc.mono (hr ▸ List.Subset.refl _)⟩
  | beginning m rest => exact hmiss h
  | applying m rest => exact hmiss h
  | recording m rest schema => exact ⟨hmiss h.1, hs ▸ h.2⟩
  | committing m rest schema => exact ⟨hmiss h.1, hs ▸ h.2⟩
  | unlocking result => exact fun hok => (h hok).mono (hr ▸ List.Subset.refl _)
  | ended result => exact fun hok => (h hok).mono (hr ▸ List.Subset.refl _)
  | connecting => trivial
  | locking => trivial
  | creating => trivial
  | dead => trivial

/-- A process without the lock relies on records only. -/
theorem Stage.Fits.of_subset {p : Stage σ} (h : p.Fits R ms db) (hp : ¬p.holds)
    (hr : db.records ⊆ db'.records) : p.Fits R ms db' := by
  cases p with
  | ended result => exact fun hok => (h hok).mono hr
  | connecting => trivial
  | locking => trivial
  | dead => trivial
  | _ => exact absurd trivial hp

variable [DecidableEq ι]

/-- A step of one process, which keeps the lock of the others. -/
theorem Inv.goes (h : Inv R ms db₀ s) (hms : Ascending ms) {p : Stage σ} {lock : Option ι}
    (hkeep : ∀ j, j ≠ i → (s.lock = some j ↔ lock = some j)) (hown : p.holds ↔ lock = some i)
    (hdb : Writes s.db (s.stage i) db') (hp : p.Fits R ms db') : Inv R ms db₀ (s.goes i p lock db') where
  orderly := by
    rcases hdb with ⟨hr, hs, hc⟩ | ⟨m, rest, schema, hi, rfl⟩
    · have he : db'.effects = s.db.effects := by rw [Database.effects, hc, Database.effects]
      have hv : db'.versions = s.db.versions := by rw [Database.versions, hr, Database.versions]
      refine ⟨fun c hmem => h.orderly.together c (hc ▸ hmem), ?_, ?_, ?_, ?_, fun x hx => ?_⟩
      · show db'.records = _ ++ db'.effects.map _
        rw [hr, he]
        exact h.orderly.records
      · show (_ ++ db'.effects.map _).Nodup
        rw [he]
        exact h.orderly.once
      · show db'.versions <+: _
        rw [hv]
        exact h.orderly.ascending
      · show R.replay db'.effects _ = .ok db'.schema
        rw [he, hs]
        exact h.orderly.schema
      · exact (h.orderly.preceded x (he ▸ hx)).mono (hr ▸ List.Subset.refl _)
    · have hfits := h.fits i
      rw [hi] at hfits
      exact h.orderly.commit hms hfits.1 hfits.2
  holder j := by
    by_cases hj : j = i
    · subst hj
      simpa [State.goes] using hown
    · simp only [State.goes, if_neg hj]
      exact (h.holder j).trans (hkeep j hj)
  fits j := by
    by_cases hj : j = i
    · subst hj
      simpa [State.goes] using hp
    · simp only [State.goes, if_neg hj]
      have hsub := hdb.records_subset
      rcases hdb with ⟨hr, hs, -⟩ | ⟨m, rest, schema, hi, rfl⟩
      · exact (h.fits j).of_eq hr hs
      · -- the process that commits has the lock, so this one does not
        refine (h.fits j).of_subset (fun hh => hj ?_) hsub
        have hlock := (h.holder i).1 (by rw [hi]; trivial)
        exact Option.some.inj (((h.holder j).1 hh).symm.trans hlock)

theorem keep_released (j : ι) (hj : j ≠ i) : s.lock = some j ↔ s.released i = some j := by
  unfold State.released
  split
  · next h =>
    rw [h]
    exact iff_of_false (fun he => hj (Option.some.inj he).symm) nofun
  · rfl

theorem not_released : s.released i ≠ some i := by
  unfold State.released
  split
  · nofun
  · next h => exact h

/-- A process that ends because of a failure has checked everything, or returns the error. -/
theorem failed_fits {p : Stage σ} {cause : String} (h : p.Fits R ms db)
    (hr : db.records ⊆ db'.records) : p.failed cause = .ok () → Checked db' ms := by
  intro hok
  cases p with
  | checking rest =>
    cases rest with
    | nil =>
      obtain ⟨done, rfl, hc⟩ := h
      rw [List.append_nil]
      exact hc.mono hr
    | cons m rest => cases hok
  | unlocking result => exact (h hok).mono hr
  | ended result => exact (h hok).mono hr
  | _ => cases hok

/-- What the statement of a process leaves fits, with the database it leaves. -/
theorem next_fits (hfound : R.found = .ok ms) {p q : Stage σ} (h : p.Fits R ms db)
    (hn : R.next db p = some (q, db')) :
    q.Fits R ms db' ∧ Writes db p db' ∧ (q.holds ↔ p.holds) := by
  cases p with
  | connecting =>
    cases hn
    exact ⟨trivial, writes_same, Iff.rfl⟩
  | creating =>
    cases hn
    rw [hfound]
    refine ⟨⟨[], rfl, fun m hm => absurd hm List.not_mem_nil⟩, Or.inl ⟨rfl, rfl, rfl⟩, Iff.rfl⟩
  | checking rest =>
    obtain ⟨done, rfl, hdone⟩ := h
    cases rest with
    | nil =>
      cases hn
      refine ⟨fun _ => ?_, writes_same, Iff.rfl⟩
      rwa [List.append_nil]
    | cons m rest =>
      cases hn
      cases hfind : db.records.find? (·.version = m.version) with
      | none =>
        refine ⟨?_, writes_same, Iff.rfl⟩
        refine ⟨done, rfl, hdone, fun hmem => ?_⟩
        obtain ⟨r, hr, hv⟩ := List.mem_map.1 hmem
        simpa [hv] using List.find?_eq_none.1 hfind r hr
      | some r =>
        have hv : r.version = m.version := by simpa using List.find?_some hfind
        unfold afterCheck
        dsimp only
        split
        · exact ⟨fun hok => (by cases hok), writes_same, Iff.rfl⟩
        · next hc =>
          refine ⟨⟨done ++ [m], by simp, fun x hx => ?_⟩, writes_same, Iff.rfl⟩
          rcases List.mem_append.1 hx with hx | hx
          · exact hdone x hx
          · obtain rfl := List.mem_singleton.1 hx
            exact ⟨r, List.mem_of_find?_eq_some hfind, hv, not_not.1 hc⟩
  | beginning m rest =>
    cases hn
    exact ⟨h, writes_same, Iff.rfl⟩
  | applying m rest =>
    cases hn
    cases hexec : R.exec m.sql db.schema with
    | ok schema => exact ⟨⟨h, hexec⟩, writes_same, Iff.rfl⟩
    | error cause => exact ⟨fun hok => (by cases hok), writes_same, Iff.rfl⟩
  | recording m rest schema =>
    cases hn
    cases db.records.any (·.version = m.version) with
    | true => exact ⟨fun hok => (by cases hok), writes_same, Iff.rfl⟩
    | false => exact ⟨h, writes_same, Iff.rfl⟩
  | committing m rest schema =>
    cases hn
    refine ⟨?_, Or.inr ⟨m, rest, schema, rfl, rfl⟩, Iff.rfl⟩
    obtain ⟨⟨done, rfl, hdone, -⟩, -⟩ := h
    refine ⟨done ++ [m], by simp, fun x hx => ?_⟩
    rcases List.mem_append.1 hx with hx | hx
    · exact (hdone.mono (List.subset_append_left _ _)) x hx
    · obtain rfl := List.mem_singleton.1 hx
      exact ⟨x.record, List.mem_append_right _ (List.mem_singleton.2 rfl), rfl, rfl⟩
  | locking => cases hn
  | unlocking result => cases hn
  | ended result => cases hn
  | dead => cases hn

theorem proceed_inv (h : Inv R ms db₀ s) (hfound : R.found = .ok ms)
    (hstep : R.proceed s i = some s') : Inv R ms db₀ s' := by
  have hms := R.ascending ms hfound
  have hfits := h.fits i
  unfold Runner.proceed at hstep
  split at hstep
  · next hi =>
    split at hstep
    · next hfree =>
      cases hstep
      refine h.goes hms (fun j hj => ?_) (iff_of_true trivial rfl) writes_same trivial
      rw [hfree]
      exact iff_of_false nofun fun he => hj (Option.some.inj he).symm
    · cases hstep
  · next result hi =>
    cases hstep
    rw [hi] at hfits
    exact h.goes hms keep_released (iff_of_false id not_released) writes_same hfits
  · obtain ⟨⟨q, db'⟩, hn, rfl⟩ := Option.map_eq_some_iff.1 hstep
    obtain ⟨hq, hw, hholds⟩ := next_fits hfound hfits hn
    exact h.goes hms (fun j _ => Iff.rfl) (hholds.trans (h.holder i)) hw hq

theorem fail_inv (h : Inv R ms db₀ s) (hms : Ascending ms) {cause : String}
    (hstep : s.fail i cause = some s') : Inv R ms db₀ s' := by
  have hfits := h.fits i
  have hlock := h.holder i
  unfold State.fail at hstep
  split at hstep
  · next hi =>
    cases hstep
    rw [hi] at hlock
    exact h.goes hms (fun j _ => Iff.rfl) hlock writes_same fun hok => by cases hok
  · next hi =>
    cases hstep
    rw [hi] at hlock
    exact h.goes hms (fun j _ => Iff.rfl) hlock writes_same fun hok => by cases hok
  · next result hi =>
    cases hstep
    rw [hi] at hfits
    exact h.goes hms keep_released (iff_of_false id not_released) writes_same hfits
  · cases hstep
  · cases hstep
  · cases hstep
  · next hc hl hu hk he hd =>
    cases hstep
    refine h.goes hms (fun j _ => Iff.rfl) (iff_of_true trivial (hlock.1 ?_)) writes_same
      (failed_fits hfits (List.Subset.refl _))
    cases hp : s.stage i with
    | connecting => exact absurd hp hc
    | locking => exact absurd hp hl
    | ended result => exact absurd hp (he result)
    | dead => exact absurd hp hd
    | _ => trivial

theorem lose_inv (h : Inv R ms db₀ s) (hms : Ascending ms) {cause : String} {committed : Bool}
    (hstep : s.lose i cause committed = some s') : Inv R ms db₀ s' := by
  unfold State.lose at hstep
  split at hstep
  · cases hstep
  · cases hstep
  · cases hstep
  · cases hstep
    exact h.goes hms keep_released (iff_of_false id not_released) writes_settle
      (failed_fits (h.fits i) writes_settle.records_subset)

theorem die_inv (h : Inv R ms db₀ s) (hms : Ascending ms) {committed : Bool}
    (hstep : s.die i committed = some s') : Inv R ms db₀ s' := by
  unfold State.die at hstep
  split at hstep
  · cases hstep
  · cases hstep
  · cases hstep
    exact h.goes hms keep_released (iff_of_false id not_released) writes_settle trivial

theorem restart_inv (h : Inv R ms db₀ s) (hms : Ascending ms) (hstep : s.restart i = some s') :
    Inv R ms db₀ s' := by
  have hlock := h.holder i
  unfold State.restart at hstep
  split at hstep
  · next hi =>
    cases hstep
    rw [hi] at hlock
    exact h.goes hms (fun j _ => Iff.rfl) hlock writes_same trivial
  · next hi =>
    cases hstep
    rw [hi] at hlock
    exact h.goes hms (fun j _ => Iff.rfl) hlock writes_same trivial
  · cases hstep

/-- **Every step keeps the order of the migrations**, and the lock with one process. -/
theorem step_inv (h : Inv R ms db₀ s) (hfound : R.found = .ok ms) {a : Action ι}
    (hstep : R.step a s = some s') : Inv R ms db₀ s' := by
  have hms := R.ascending ms hfound
  cases a with
  | proceed i => exact proceed_inv h hfound hstep
  | fail i cause => exact fail_inv h hms hstep
  | lose i cause committed => exact lose_inv h hms hstep
  | die i committed => exact die_inv h hms hstep
  | restart i => exact restart_inv h hms hstep

/-! ## Ends -/

/-- The steps that a process may still take, out of those for `n` files. -/
def Stage.left (n : Nat) : Stage σ → Nat
  | .connecting => 5 * n + 5
  | .locking => 5 * n + 4
  | .creating => 5 * n + 3
  | .checking rest => 5 * rest.length + 2
  | .beginning _ rest => 5 * rest.length + 6
  | .applying _ rest => 5 * rest.length + 5
  | .recording _ rest _ => 5 * rest.length + 4
  | .committing _ rest _ => 5 * rest.length + 3
  | .unlocking _ => 1
  | .ended _ | .dead => 0

/-- Steps of this process, that go on. -/
def own (i : ι) (a : Action ι) (_ : State ι σ) : Prop := a = .proceed i

theorem next_left (hfound : R.found = .ok ms) {p q : Stage σ} (hn : R.next db p = some (q, db')) :
    q.left ms.length < p.left ms.length ∧ q ≠ .dead := by
  cases p with
  | checking rest =>
    cases rest with
    | nil =>
      cases hn
      exact ⟨by simp [Stage.left], by simp⟩
    | cons m rest =>
      cases hn
      unfold afterCheck
      split
      · split <;> simp [Stage.left]
      · simp [Stage.left]
        omega
  | creating =>
    cases hn
    rw [hfound]
    simp [afterDiscover, Stage.left]
  | applying m rest =>
    cases hn
    unfold afterApply
    split <;> simp [Stage.left]
  | recording m rest schema =>
    cases hn
    unfold afterRecord
    split <;> simp [Stage.left]
  | _ => cases hn <;> simp [Stage.left]

/-- A process that is not kept waiting goes on, with fewer steps left. -/
theorem proceed_left (h : Inv R ms db₀ s) (hfound : R.found = .ok ms)
    (hlock : s.lock = none ∨ s.lock = some i) (hlive : s.stage i ≠ .dead)
    (hgo : ∀ r, s.stage i ≠ .ended r) : ∃ s', R.step (.proceed i) s = some s' ∧
      (s'.stage i).left ms.length < (s.stage i).left ms.length ∧ s'.stage i ≠ .dead ∧
      (s'.lock = none ∨ s'.lock = some i) := by
  have hstage : ∀ p lock db, (s.goes i p lock db).stage i = p := fun p lock db => if_pos rfl
  by_cases hwait : s.stage i = .locking
  · have hfree : s.lock = none := by
      refine hlock.resolve_right fun hown => ?_
      have := (h.holder i).2 hown
      rw [hwait] at this
      exact this
    refine ⟨s.goes i .creating (some i) s.db, ?_, ?_, ?_, Or.inr rfl⟩
    · simp [Runner.step, Runner.proceed, hwait, hfree]
    · rw [hstage, hwait]
      simp [Stage.left]
    · rw [hstage]
      simp
  by_cases hleave : ∃ result, s.stage i = .unlocking result
  · obtain ⟨result, hi⟩ := hleave
    refine ⟨s.goes i (.ended result) (s.released i) s.db, ?_, ?_, ?_, ?_⟩
    · simp [Runner.step, Runner.proceed, hi]
    · rw [hstage, hi]
      simp [Stage.left]
    · rw [hstage]
      simp
    · rcases hlock with hl | hl <;> simp [State.goes, State.released, hl]
  · obtain ⟨q, db', hn⟩ : ∃ q db', R.next s.db (s.stage i) = some (q, db') := by
      cases hi : s.stage i with
      | locking => exact absurd hi hwait
      | unlocking result => exact absurd ⟨result, hi⟩ hleave
      | ended result => exact absurd hi (hgo result)
      | dead => exact absurd hi hlive
      | checking rest => cases rest <;> exact ⟨_, _, rfl⟩
      | _ => exact ⟨_, _, rfl⟩
    obtain ⟨hlt, hq⟩ := next_left hfound hn
    refine ⟨s.goes i q s.lock db', ?_, ?_, ?_, hlock⟩
    · simp only [Runner.step, Runner.proceed]
      split
      · next hi => exact absurd hi hwait
      · next result hi => exact absurd ⟨result, hi⟩ hleave
      · rw [hn]
        rfl
    · rw [hstage]
      exact hlt
    · rw [hstage]
      exact hq

/-- **A process that is not kept waiting comes to its end** by its own steps. -/
theorem run_ends (hfound : R.found = .ok ms) : ∀ (n : Nat) {s : State ι σ}, Inv R ms db₀ s →
    (s.stage i).left ms.length ≤ n → (s.lock = none ∨ s.lock = some i) → s.stage i ≠ .dead →
    ∃ s', Runs R.step (own i) s s' ∧ ∃ r, s'.stage i = .ended r
  | n, s, h, hn, hlock, hlive => by
    by_cases hend : ∃ r, s.stage i = .ended r
    · exact ⟨s, .refl, hend⟩
    · have hgo : ∀ r, s.stage i ≠ .ended r := fun r hr => hend ⟨r, hr⟩
      obtain ⟨t, ht, hlt, hlive', hlock'⟩ := proceed_left h hfound hlock hlive hgo
      cases n with
      | zero => omega
      | succ n =>
        obtain ⟨s', hrun, hr⟩ := run_ends hfound n (step_inv h hfound ht) (by omega) hlock' hlive'
        exact ⟨s', .head ⟨_, rfl, ht⟩ hrun, hr⟩

/-! ## Runs -/

/-- Nothing runs yet, and the records, if there are any, are those of the first migrations. -/
structure State.Start (ms : List Migration) (s : State ι σ) : Prop where
  stage : ∀ i, s.stage i = .connecting
  lock : s.lock = none
  commits : s.db.commits = []
  versions : s.db.versions <+: ms.map (·.version)

omit [DecidableEq ι] in
theorem State.Start.inv (h : s.Start ms) (hms : Ascending ms) : Inv R ms s.db s where
  orderly := by
    have he : s.db.effects = [] := by rw [Database.effects, h.commits]; rfl
    have hnodup : (ms.map (·.version)).Nodup := List.Pairwise.imp (fun h => Nat.ne_of_lt h) hms
    refine ⟨?_, ?_, ?_, h.versions, ?_, ?_⟩
    · simp [h.commits]
    · simp [he]
    · simpa [he] using hnodup.sublist h.versions.sublist
    · rw [he]
      rfl
    · simp [he]
  holder i := by
    rw [h.stage, h.lock]
    exact iff_of_false id nofun
  fits i := by
    rw [h.stage]
    trivial

omit [DecidableEq ι] in
/-- A migration that is recorded with another checksum is not recorded with its own. -/
theorem Orderly.changed (h : Orderly R ms db₀ db) (hms : Ascending ms) (hc : Changed db m)
    {r : Record} (hr : r ∈ db.records) (hv : r.version = m.version) : r.checksum ≠ m.checksum := by
  obtain ⟨q, hq, hqv, hqc⟩ := hc
  have hnodup : db.versions.Nodup :=
    (List.Pairwise.imp (fun h => Nat.ne_of_lt h) hms : (ms.map (·.version)).Nodup).sublist
      h.ascending.sublist
  have : r = q := List.inj_on_of_nodup_map hnodup hr hq (hv.trans hqv.symm)
  rwa [this]

omit [DecidableEq ι] in
theorem Orderly.effect_mem (h : Orderly R ms db₀ db) {x : Migration} (hx : x ∈ db.effects) : x ∈ ms := by
  obtain ⟨c, hc, hxc⟩ := List.mem_filterMap.1 hx
  obtain ⟨commit, hcommit, hin⟩ := List.mem_flatten.1 hc
  obtain ⟨m, hm, rfl⟩ := h.together commit hcommit
  rcases List.mem_cons.1 hin with rfl | hin
  · exact Option.some.inj hxc ▸ hm
  · obtain rfl := List.mem_singleton.1 hin
    cases hxc

omit [DecidableEq ι] in
/-- The record with the other checksum was there before, and stays. -/
theorem Orderly.changed_first (h : Orderly R ms db₀ db) (hms : Ascending ms) (hm : m ∈ ms)
    (hc : Changed db m) : Changed db₀ m := by
  obtain ⟨r, hr, hv, hsum⟩ := hc
  rw [h.records] at hr
  rcases List.mem_append.1 hr with hr | hr
  · exact ⟨r, hr, hv, hsum⟩
  · obtain ⟨x, hx, rfl⟩ := List.mem_map.1 hr
    have hnodup : (ms.map (·.version)).Nodup := List.Pairwise.imp (fun h => Nat.ne_of_lt h) hms
    have : x = m := List.inj_on_of_nodup_map hnodup (h.effect_mem hx) hm hv
    exact absurd (congrArg Migration.checksum this) hsum

omit [DecidableEq ι] in
theorem Orderly.changed_last (h : Orderly R ms db₀ db) (hc : Changed db₀ m) : Changed db m := by
  obtain ⟨r, hr, hv, hsum⟩ := hc
  exact ⟨r, h.records ▸ List.mem_append_left _ hr, hv, hsum⟩

/-- **Migrations are applied once, and in order**, over any processes, failures and restarts; once the
file of a recorded migration has changed, no later one is applied, and every run ends with an error. -/
theorem migrations_once (hfound : R.found = .ok ms) {s₀ : State ι σ} (h₀ : s₀.Start ms)
    (h : Runs R.step anyStep s₀ s) :
    Orderly R ms s₀.db s.db ∧ ∀ m ∈ ms, Changed s.db m →
      (∀ x ∈ s.db.effects, ¬m.version < x.version) ∧ (∀ i, s.stage i ≠ .ended (.ok ())) ∧
      ∀ i, s.lock = none ∨ s.lock = some i → s.stage i ≠ .dead →
        ∃ s' x, Runs R.step (own i) s s' ∧ s'.stage i = .ended (.error x) := by
  have hms := R.ascending ms hfound
  have hinv : ∀ {t : State ι σ}, Runs R.step anyStep s₀ t → Inv R ms s₀.db t := fun ht =>
    ht.keeps (h₀.inv hms) fun _ _ _ _ hst hi => step_inv hi hfound hst
  have hend : ∀ {t : State ι σ}, Inv R ms s₀.db t → ∀ m ∈ ms, Changed t.db m → ∀ i,
      t.stage i ≠ .ended (.ok ()) := by
    intro t ht m hm hc i hi
    have hfits := ht.fits i
    rw [hi] at hfits
    obtain ⟨r, hr, hv, hsum⟩ := hfits rfl m hm
    exact ht.orderly.changed hms hc hr hv hsum
  have hI := hinv h
  refine ⟨hI.orderly, fun m hm hc => ⟨fun x hx hlt => ?_, hend hI m hm hc, fun i hlock hlive => ?_⟩⟩
  · obtain ⟨r, hr, hv, hsum⟩ := hI.orderly.preceded x hx m (List.mem_filter.2 ⟨hm, by simpa using hlt⟩)
    exact hI.orderly.changed hms hc hr hv hsum
  · obtain ⟨s', hrun, result, hr⟩ := run_ends hfound _ hI (Nat.le_refl _) hlock hlive
    have hI' := hinv (h.trans (hrun.mono fun _ _ _ => trivial))
    have hc' := hI'.orderly.changed_last (hI.orderly.changed_first hms hm hc)
    cases result with
    | error x => exact ⟨s', x, hrun, hr⟩
    | ok => exact absurd hr (hend hI' m hm hc' i)

/-- Two files whose SQL adds to a number. -/
def twoFiles : Runner Nat where
  found := .ok [⟨1, "platform_bootstrap", "a1", [1]⟩, ⟨2, "identity_access", "b2", [2, 2]⟩]
  exec sql n := .ok (n + sql.length)
  ascending ms h := by
    cases h
    decide

/-- An empty database, and two processes. -/
def emptyState : State Bool Nat := ⟨⟨0, none, []⟩, none, fun _ => .connecting⟩

/-- The first process dies while it commits the second file, and the other one finds both done. -/
theorem migrations_once_two : ∃ s, Runs twoFiles.step anyStep emptyState s ∧ s.db.schema = 3 ∧
    Orderly twoFiles [⟨1, "platform_bootstrap", "a1", [1]⟩, ⟨2, "identity_access", "b2", [2, 2]⟩]
      emptyState.db s.db := by
  obtain ⟨s, hs, hp⟩ := play_any twoFiles.step anyStep
    (List.replicate 12 (.proceed true) ++ .die true true :: List.replicate 7 (.proceed false)) emptyState
    (fun s => s.db.schema = 3) (by decide +kernel)
  have hstart : emptyState.Start
      [⟨1, "platform_bootstrap", "a1", [1]⟩, ⟨2, "identity_access", "b2", [2, 2]⟩] :=
    ⟨fun _ => rfl, rfl, rfl, List.nil_prefix⟩
  exact ⟨s, hs, of_decide_eq_true hp, (migrations_once rfl hstart hs).1⟩

end Sakura.Migrate
