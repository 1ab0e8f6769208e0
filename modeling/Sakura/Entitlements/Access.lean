/-
  Runs of syncs of one binding (platform/worker.go, `syncEntitlement`).

  A sync lists the users of the server, reads the entitlements and its row, sets the policy of the
  remote user and records what it manages.  Between any two of these steps entitlements come and go, and
  the policy is changed by others.

  * `Policy`, `Change`: the folders of the remote user, and what others do to them;
  * `Stage`, `State`, `step`: syncs, step by step, with crashes;
  * `sequential`, `preserving`, `access_preserved`: the runs in which no access is taken away;
  * `orderly`, `access_ends`: the runs in which no access outlives the entitlement.
-/
import Sakura.Entitlements.Folders
import Sakura.Txn.Machine

namespace Sakura.Folders

open Txn Untyped

/-! ## Policies -/

/-- The members `EnableAllFolders` and `EnabledFolders` of a policy. -/
structure Policy where
  all : Bool
  enabled : Remote

/-- The remote user can access the folder. -/
def Policy.accessible (p : Policy) (x : String) : Prop := p.all = true ∨ x ∈ p.enabled.texts

/-- The same for a folder that is named up to surrounding spaces. -/
def Policy.opens (p : Policy) (x : String) : Prop := p.all = true ∨ x ∈ names p.enabled.texts

def Remote.add (x : String) : Remote → Remote
  | .strings values => .strings (values ++ [x])
  | .anys values => .anys (values ++ [.string x])
  | .other => .anys [.string x]

def Remote.remove (x : String) : Remote → Remote
  | .strings values => .strings (values.filter (· ≠ x))
  | .anys values => .anys (values.filter (·.sprint ≠ x))
  | .other => .other

/-- What others do to the policy. -/
inductive Change where
  | enable (folder : String)
  | disable (folder : String)
  | enableAll

def Change.apply : Change → Policy → Policy
  | .enable x, p => { p with enabled := p.enabled.add x }
  | .disable x, p => { p with enabled := p.enabled.remove x }
  | .enableAll, p => { p with all := true }

/-- Whether the folder counts as enabled by others after a change, if `before` says so before it. -/
def Change.after (x : String) (before : Bool) : Change → Bool
  | .enable y => before || y = x
  | .disable y => before && y ≠ x
  | .enableAll => true

/-- Others have enabled the folder, and not disabled it since. -/
def enabledSince (changes : List Change) (x : String) : Bool := changes.foldl (Change.after x) false

/-- Others have enabled the folder, which is named up to surrounding spaces. -/
def Given (changes : List Change) (x : String) : Prop :=
  ∃ c ∈ changes, c = .enableAll ∨ ∃ y, c = .enable y ∧ trimSpace y = x

/-! ## Syncs -/

/-- Where a sync is: it has listed the users, read the keys of the active entitlements, read its row,
or set the policy. -/
inductive Stage where
  | listed (policy : Policy)
  | selected (policy : Policy) (managed : List String)
  | loaded (policy : Policy) (managed : List String) (row : Option Management)
  | written (policy : Policy) (managed : List String) (row : Option Management)

/-- `managed` are the keys of the active entitlements that have not expired.  `before` and `changes` are
history: the policy that the first sync has found, and what others have done to it since. -/
structure State where
  policy : Policy
  row : Option Management := none
  managed : List String := []
  syncs : List Stage := []
  before : Option Policy := none
  changes : List Change := []

/-- The policy that a sync sets. -/
def postedPolicy (p : Policy) (managed : List String) (row : Option Management) : Policy where
  all := false
  enabled := .anys ((desiredFolders p.enabled row managed).map .string)

/-- The row that is in the table after the upsert. -/
def upsertFolders (current : Option Management) (p : Policy) (managed : List String)
    (row : Option Management) : Management where
  baseline := current.elim (encodeFolders false (baselineFolders p.enabled row)) Management.baseline
  lastManaged := encodeFolders managed.isEmpty managed

/-- The next step of the sync `n`. -/
def Stage.advance (n : Nat) (s : State) : Stage → State
  | .listed p => { s with syncs := s.syncs.set n (.selected p s.managed) }
  | .selected p managed => { s with syncs := s.syncs.set n (.loaded p managed s.row) }
  | .loaded p managed row =>
    { s with
      policy := postedPolicy p managed row
      syncs := s.syncs.set n (.written p managed row) }
  | .written p managed row =>
    { s with row := some (upsertFolders s.row p managed row), syncs := s.syncs.eraseIdx n }

/-- The policy that a sync is about to set. -/
def Stage.posted : Stage → Option Policy
  | .loaded p managed row => some (postedPolicy p managed row)
  | _ => none

/-- The policy has been set, and this is not recorded. -/
def Stage.isWritten : Stage → Bool
  | .written .. => true
  | _ => false

/-- `n` is the number of a sync that runs.  A sync stops when its worker crashes or a statement fails;
`applied` says that the server has carried the request out when it does. -/
inductive Label where
  | grants (managed : List String)
  | external (change : Change)
  | users
  | advance (n : Nat)
  | stop (n : Nat) (applied : Bool)

def step : Label → State → Option State
  | .grants managed, s => some { s with managed }
  | .external c, s => some { s with
      policy := c.apply s.policy
      changes := if s.before.isSome then s.changes ++ [c] else s.changes }
  | .users, s => some { s with
      syncs := s.syncs ++ [.listed s.policy], before := s.before.or (some s.policy) }
  | .advance n, s => s.syncs[n]?.map fun stage => stage.advance n s
  | .stop n applied, s => s.syncs[n]?.map fun stage => { s with
      policy := if applied then stage.posted.getD s.policy else s.policy
      syncs := s.syncs.eraseIdx n }

/-- The sync `n` is completed. -/
def Completes (n : Nat) (s s' : State) : Prop :=
  (∃ stage ∈ s.syncs[n]?, stage.isWritten = true) ∧ step (.advance n) s = some s'

/-- No sync has run. -/
structure Untouched (s : State) : Prop where
  row : s.row = none
  syncs : s.syncs = []
  before : s.before = none
  changes : s.changes = []

/-! ## Lists -/

section

variable {r : Remote} {p : Policy} {x y : String}

theorem texts_add : (r.add x).texts = r.texts ++ [x] := by
  cases r <;> simp [Remote.add, Remote.texts, Value.sprint]

theorem texts_remove : (r.remove x).texts = r.texts.filter (· ≠ x) := by
  cases r <;> simp [Remote.remove, Remote.texts, List.filter_map, Function.comp_def]

theorem names_mono {values values' : List String} (h : values ⊆ values') :
    names values ⊆ names values' := by
  intro x hx
  obtain ⟨hne, y, hy, he⟩ := mem_names.1 hx
  exact mem_names.2 ⟨hne, y, h hy, he⟩

/-- A text of a policy without spaces around its texts is a name of it. -/
theorem mem_names_of_clean {values : List String} (h : ∀ y ∈ values, y ≠ "" ∧ trimSpace y = y)
    (hx : x ∈ values) : x ∈ names values := (names_of_clean h).2 hx

theorem texts_posted {managed : List String} {row : Option Management} :
    (postedPolicy p managed row).enabled.texts = desiredFolders p.enabled row managed := by
  show ((desiredFolders p.enabled row managed).map Value.string).map Value.sprint = _
  rw [List.map_map]
  exact (List.map_congr_left fun _ _ => by simp [Value.sprint]).trans (List.map_id _)

theorem names_posted {managed : List String} {row : Option Management} :
    x ∈ names (postedPolicy p managed row).enabled.texts ↔
      x ∈ desiredFolders p.enabled row managed := by
  rw [texts_posted]
  exact names_of_clean mergeFolderSets_clean

/-- The folders of the baseline that is recorded. -/
theorem names_upsert {current row : Option Management} {managed : List String}
    (hrow : row = current) : names (storedTexts (upsertFolders current p managed row).baseline) =
      names (baselineTexts p.enabled row) := by
  subst hrow
  cases row with
  | none =>
    show names (storedTexts (encodeFolders false (policyFolders p.enabled))) = names p.enabled.texts
    rw [(storedTexts_encode _).2]
    ext z
    rw [names_of_clean policyFolders_clean, mem_policyFolders]
  | some m => rfl

theorem lastManaged_upsert {current row : Option Management} {managed : List String} :
    lastManagedTexts (some (upsertFolders current p managed row)) = managed :=
  (storedTexts_encode managed).1

theorem enabledSince_snoc {changes : List Change} {c : Change} :
    enabledSince (changes ++ [c]) x = c.after x (enabledSince changes x) := by
  unfold enabledSince
  rw [List.foldl_append]
  rfl

end

/-! ## Access that is not taken away -/

/-- The syncs come one after the other, and all are completed. -/
def sequential : Label → State → Prop
  | .users, s => s.syncs = []
  | .stop _ _, _ => False
  | _, _ => True

/-- Nothing is lost when a sync sets the policy: the flag is off, the names in the list have no
surrounding spaces, and no folder that the last sync managed, that no entitlement gives now and that is
not in the baseline was enabled by others. -/
def Stage.harmless (s : State) : Stage → Prop
  | .loaded p managed row => s.policy.all = false ∧
    (∀ y ∈ p.enabled.texts, y ≠ "" ∧ trimSpace y = y) ∧
    ∀ x ∈ names (lastManagedTexts row), x ∉ names managed → x ∉ names (baselineTexts p.enabled row) →
      enabledSince s.changes x = false
  | _ => True

/-- Others enable folders when no sync is about to set the policy, and disable them when no sync has
set it and is about to record that; and the policy is set where that is harmless. -/
def preserving : Label → State → Prop
  | .external (.disable _), s => ∀ stage ∈ s.syncs, stage.isWritten = false
  | .external _, s => ∀ stage ∈ s.syncs, stage.isWritten = true
  | .advance n, s => ∀ stage ∈ s.syncs[n]?, stage.harmless s
  | _, _ => True

/-- The folder was accessible before the first sync, or others have enabled it and not disabled it
since. -/
def Owed (s : State) (x : String) : Prop :=
  (∃ p ∈ s.before, p.accessible x) ∨ enabledSince s.changes x = true

/-- What a sync has read before it sets the policy is still there for the folders that others have
enabled. -/
structure Fresh (s : State) (p : Policy) : Prop where
  all : p.all = true → s.policy.all = true
  since : ∀ x, enabledSince s.changes x = true → s.policy.all = true ∨ x ∈ p.enabled.texts
  first : s.row = none → s.before = some p

def Stage.Preserves (s : State) : Stage → Prop
  | .listed p | .selected p _ => Fresh s p
  | .loaded p _ row => Fresh s p ∧ row = s.row
  | .written p _ row => row = s.row ∧ (∀ x, Owed s x → s.policy.accessible x) ∧
    (s.row = none → ∀ q ∈ s.before, ∀ x, q.accessible x → x ∈ names (baselineTexts p.enabled row))

/-- In a run of syncs that take nothing away. -/
structure Preserving (s : State) : Prop where
  since : ∀ x, enabledSince s.changes x = true → s.policy.accessible x
  baseline : ∀ m ∈ s.row, ∀ p ∈ s.before, ∀ x, p.accessible x → x ∈ names (storedTexts m.baseline)
  unread : s.row = none → s.syncs = [] → s.before = none
  quiet : s.before = none → s.changes = [] ∧ s.row = none ∧ s.syncs = []
  syncs : ∀ stage ∈ s.syncs, s.syncs = [stage] ∧ stage.Preserves s

section

variable {s s' s₀ : State} {x : String}

theorem Untouched.preserving (h : Untouched s) : Preserving s where
  since x hx := by rw [h.changes] at hx; cases hx
  baseline m hm := by rw [h.row] at hm; cases hm
  unread _ _ := h.before
  quiet _ := ⟨h.changes, h.row, h.syncs⟩
  syncs stage hst := by rw [h.syncs] at hst; cases hst

/-- A change of others that leaves the folders accessible that it does not disable. -/
theorem accessible_apply {p : Policy} {c : Change} {before : Bool}
    (hp : before = true → p.accessible x) (h : c.after x before = true) :
    (c.apply p).accessible x := by
  cases c with
  | enable y =>
    simp only [Change.after, Bool.or_eq_true, decide_eq_true_eq] at h
    show p.all = true ∨ x ∈ (p.enabled.add y).texts
    rw [texts_add]
    rcases h with h | rfl
    · exact (hp h).imp_right (List.mem_append_left _)
    · exact Or.inr (List.mem_append_right _ (List.mem_singleton_self _))
  | disable y =>
    simp only [Change.after, Bool.and_eq_true, decide_eq_true_eq] at h
    show p.all = true ∨ x ∈ (p.enabled.remove y).texts
    rw [texts_remove]
    refine (hp h.1).imp_right fun hx => List.mem_filter.2 ⟨hx, decide_eq_true fun he => h.2 he.symm⟩
  | enableAll => exact Or.inl rfl

/-- A change that disables nothing leaves what is accessible. -/
theorem accessible_mono {p : Policy} {c : Change} (hc : ∀ y, c ≠ .disable y) (h : p.accessible x) :
    (c.apply p).accessible x := by
  refine @accessible_apply _ _ _ true (fun _ => h) ?_
  cases c with
  | enable y => rfl
  | disable y => exact absurd rfl (hc y)
  | enableAll => rfl

/-- The history after a change. -/
def State.changed (c : Change) (s : State) : State :=
  { s with
    policy := c.apply s.policy
    changes := if s.before.isSome then s.changes ++ [c] else s.changes }

theorem Preserving.enabledSince_changed (hs : Preserving s) {c : Change}
    (h : enabledSince (s.changed c).changes x = true) :
    c.after x (enabledSince s.changes x) = true := by
  cases hb : s.before with
  | none =>
    simp only [State.changed, hb, Option.isSome_none, Bool.false_eq_true, if_false, (hs.quiet hb).1] at h
    cases h
  | some p =>
    simp only [State.changed, hb, Option.isSome_some, if_true, enabledSince_snoc] at h
    exact h

/-- **A change of others** at a moment when nothing is lost by it. -/
theorem Preserving.external (hs : Preserving s) {c : Change} (hc : preserving (.external c) s) :
    Preserving (s.changed c) := by
  have hsince : ∀ x, enabledSince (s.changed c).changes x = true →
      (s.changed c).policy.accessible x := fun x hx =>
    accessible_apply (hs.since x) (hs.enabledSince_changed hx)
  refine ⟨hsince, hs.baseline, hs.unread, fun hb => ⟨?_, (hs.quiet hb).2⟩,
    fun stage hst => ⟨(hs.syncs stage hst).1, ?_⟩⟩
  · change (if s.before.isSome then s.changes ++ [c] else s.changes) = []
    rw [show s.before = none from hb]
    exact (hs.quiet hb).1
  have hpreserves := (hs.syncs stage hst).2
  by_cases hd : ∃ y, c = .disable y
  · -- the sync has not set the policy
    obtain ⟨y, rfl⟩ := hd
    have hopen := hc stage hst
    have hfresh : ∀ p, Fresh s p → Fresh (s.changed (.disable y)) p := fun p h =>
      { all := h.all
        since := fun x hx => h.since x
          (Bool.and_eq_true_iff.1 (hs.enabledSince_changed hx)).1
        first := h.first }
    cases stage with
    | listed p => exact hfresh p hpreserves
    | selected p managed => exact hfresh p hpreserves
    | loaded p managed row => exact ⟨hfresh p hpreserves.1, hpreserves.2⟩
    | written p managed row => cases hopen
  · -- the sync has set the policy
    have hwritten : stage.isWritten = true := by
      cases c with
      | enable y => exact hc stage hst
      | disable y => exact absurd ⟨y, rfl⟩ hd
      | enableAll => exact hc stage hst
    cases stage with
    | written p managed row =>
      refine ⟨hpreserves.1, fun x hx => ?_, hpreserves.2.2⟩
      rcases hx with hx | hx
      · exact accessible_mono (fun y hy => hd ⟨y, hy⟩) (hpreserves.2.1 x (Or.inl hx))
      · exact hsince x hx
    | listed p => cases hwritten
    | selected p managed => cases hwritten
    | loaded p managed row => cases hwritten

/-- A sync that is still to set the policy is the only one. -/
theorem Preserving.only (hs : Preserving s) {n : Nat} {stage : Stage}
    (hn : s.syncs[n]? = some stage) : n = 0 ∧ s.syncs = [stage] ∧ stage.Preserves s := by
  obtain ⟨hone, hpreserves⟩ := hs.syncs stage (List.mem_of_getElem? hn)
  refine ⟨?_, hone, hpreserves⟩
  rw [hone] at hn
  cases n with
  | zero => rfl
  | succ n => cases hn

theorem Preserving.write (hs : Preserving s) {p : Policy} {managed : List String}
    {row : Option Management} (hbegun : s.before ≠ none) (hfresh : Fresh s p) (hrow : row = s.row)
    (hharmless : (Stage.loaded p managed row).harmless s) :
    Preserving ((Stage.loaded p managed row).advance 0 { s with syncs := [.loaded p managed row] }) := by
  obtain ⟨hall, hclean, hkept⟩ := hharmless
  have hpall : p.all = false := by
    cases hp : p.all with
    | false => rfl
    | true => rw [hfresh.all hp] at hall; cases hall
  have hfirst : s.row = none → ∀ q ∈ s.before, ∀ x, q.accessible x →
      x ∈ names (baselineTexts p.enabled row) := by
    intro hnone q hq x hx
    rw [hfresh.first hnone] at hq
    cases hq
    rw [hrow, hnone]
    rcases hx with hx | hx
    · rw [hpall] at hx; cases hx
    · exact mem_names_of_clean hclean hx
  have hposted : ∀ x, x ∈ desiredFolders p.enabled row managed →
      (postedPolicy p managed row).accessible x := fun x hx => Or.inr (texts_posted ▸ hx)
  have hsince : ∀ x, enabledSince s.changes x = true →
      (postedPolicy p managed row).accessible x := by
    intro x hx
    have hread : x ∈ names p.enabled.texts := by
      rcases hfresh.since x hx with h | h
      · rw [hall] at h; cases h
      · exact mem_names_of_clean hclean h
    refine hposted x (mem_desiredFolders.2 ?_)
    by_cases hbase : x ∈ names (baselineTexts p.enabled row)
    · exact Or.inl hbase
    by_cases hmanaged : x ∈ names managed
    · exact Or.inr (Or.inr hmanaged)
    · refine Or.inr (Or.inl ⟨hread, fun hlast => ?_⟩)
      rw [hkept x hlast hmanaged hbase] at hx
      cases hx
  refine ⟨hsince, hs.baseline, fun _ hnil => absurd hnil (List.cons_ne_nil _ _),
    fun hb => absurd hb hbegun, fun stage hst => ?_⟩
  cases List.mem_singleton.1 hst
  refine ⟨rfl, hrow, fun x hx => ?_, hfirst⟩
  rcases hx with ⟨q, hq, hx⟩ | hx
  · refine hposted x (mem_desiredFolders.2 (Or.inl ?_))
    cases hr : s.row with
    | none => exact hfirst hr q hq x hx
    | some m =>
      rw [hrow, hr]
      exact hs.baseline m hr q hq x hx
  · exact hsince x hx

theorem Preserving.commit (hs : Preserving s) {p : Policy} {managed : List String}
    {row : Option Management} (hbegun : s.before ≠ none) (hrow : row = s.row)
    (hfirst : s.row = none → ∀ q ∈ s.before, ∀ x, q.accessible x →
      x ∈ names (baselineTexts p.enabled row)) :
    Preserving { s with row := some (upsertFolders s.row p managed row), syncs := [] } := by
  refine ⟨hs.since, fun m hm q hq x hx => ?_, fun hnone => absurd hnone (Option.some_ne_none _),
    fun hb => absurd hb hbegun, fun stage hst => absurd hst List.not_mem_nil⟩
  cases hm
  rw [names_upsert hrow]
  cases hr : s.row with
  | none => exact hfirst hr q hq x hx
  | some m =>
    rw [hrow, hr]
    exact hs.baseline m hr q hq x hx

/-- One case for each stage of the sync. -/
theorem Preserving.advance (hs : Preserving s) {n : Nat} (hc : preserving (.advance n) s)
    (h : step (.advance n) s = some s') : Preserving s' := by
  obtain ⟨stage, hn, rfl⟩ := Option.map_eq_some_iff.1 h
  obtain ⟨rfl, hone, hpreserves⟩ := hs.only hn
  have hstate : s = { s with syncs := [stage] } := by rw [← hone]
  have hbegun : s.before ≠ none := fun hb => by
    rw [(hs.quiet hb).2.2] at hone
    cases hone
  cases stage with
  | listed p =>
    rw [hstate]
    refine ⟨hs.since, hs.baseline, fun _ hnil => absurd hnil (List.cons_ne_nil _ _),
      fun hb => absurd hb hbegun, fun stage hst => ?_⟩
    cases List.mem_singleton.1 hst
    exact ⟨rfl, hpreserves.all, hpreserves.since, hpreserves.first⟩
  | selected p managed =>
    rw [hstate]
    refine ⟨hs.since, hs.baseline, fun _ hnil => absurd hnil (List.cons_ne_nil _ _),
      fun hb => absurd hb hbegun, fun stage hst => ?_⟩
    cases List.mem_singleton.1 hst
    exact ⟨rfl, ⟨hpreserves.all, hpreserves.since, hpreserves.first⟩, rfl⟩
  | loaded p managed row =>
    rw [hstate]
    exact hs.write hbegun hpreserves.1 hpreserves.2 (hc _ hn)
  | written p managed row =>
    rw [hstate]
    exact hs.commit hbegun hpreserves.1 hpreserves.2.2

theorem Preserving.step {l : Label} (hs : Preserving s) (hl : sequential l s ∧ preserving l s)
    (h : Folders.step l s = some s') : Preserving s' := by
  cases l with
  | grants managed =>
    cases h
    exact ⟨hs.since, hs.baseline, hs.unread, hs.quiet, fun stage hst => ⟨(hs.syncs stage hst).1, by
      have hpreserves := (hs.syncs stage hst).2
      cases stage with
      | listed p => exact ⟨hpreserves.all, hpreserves.since, hpreserves.first⟩
      | selected p _ => exact ⟨hpreserves.all, hpreserves.since, hpreserves.first⟩
      | loaded p _ row =>
        exact ⟨⟨hpreserves.1.all, hpreserves.1.since, hpreserves.1.first⟩, hpreserves.2⟩
      | written p _ row => exact hpreserves⟩⟩
  | external c =>
    cases h
    exact hs.external hl.2
  | users =>
    cases h
    have hnone : s.syncs = [] := hl.1
    refine ⟨hs.since, fun m hm p hp x hx => ?_, fun _ hnil => ?_, fun hb => ?_, fun stage hst => ?_⟩
    · cases hb : s.before with
      | none =>
        have hrow : s.row = some m := hm
        rw [(hs.quiet hb).2.1] at hrow
        cases hrow
      | some q =>
        rw [show (s.before.or (some s.policy)) = s.before by rw [hb]; rfl] at hp
        exact hs.baseline m hm p hp x hx
    · rw [hnone] at hnil
      cases hnil
    · cases hs : s.before <;> simp [hs] at hb
    · rw [hnone] at hst ⊢
      cases List.mem_singleton.1 hst
      refine ⟨rfl, id, hs.since, fun hrow => ?_⟩
      show s.before.or (some s.policy) = some s.policy
      rw [hs.unread hrow hnone]
      rfl
  | advance n => exact hs.advance hl.2 h
  | stop n applied => exact hl.1.elim

/-- **Syncs take no access away** that they have not given: whenever one is completed, in a run in
which they come one after the other and nothing is lost when the policy is set. -/
theorem access_preserved (h₀ : Untouched s₀)
    (hrun : Runs Folders.step (fun l s => sequential l s ∧ preserving l s) s₀ s) {n : Nat}
    (h : Completes n s s') : ∀ x, Owed s' x → s'.policy.accessible x := by
  have hs : Preserving s := hrun.keeps h₀.preserving fun _ _ _ hl hst ht => ht.step hl hst
  obtain ⟨⟨stage, hn, hwritten⟩, hst⟩ := h
  obtain ⟨stage', hn', rfl⟩ := Option.map_eq_some_iff.1 hst
  rw [show s.syncs[n]? = some stage from hn] at hn'
  cases hn'
  have hpreserves := (hs.only hn).2.2
  cases stage with
  | written p managed row => exact hpreserves.2.1
  | listed p => cases hwritten
  | selected p managed => cases hwritten
  | loaded p managed row => cases hwritten

end

/-! ### A folder that is managed and enabled by others -/

instance (stage : Stage) (s : State) : Decidable (stage.harmless s) := by
  unfold Stage.harmless
  split <;> infer_instance

instance (l : Label) (s : State) : Decidable (sequential l s) := by
  unfold sequential
  split
  · exact decidable_of_iff (s.syncs.isEmpty = true) List.isEmpty_iff
  all_goals infer_instance

instance (l : Label) (s : State) : Decidable (preserving l s) := by
  unfold preserving
  split <;> infer_instance

/-- A remote user with a list of folders. -/
def listing (folders : List String) : State where
  policy := ⟨false, .strings folders⟩

theorem listing_untouched {folders : List String} : Untouched (listing folders) := ⟨rfl, rfl, rfl, rfl⟩

/-- The steps of a sync until it has set the policy. -/
def setting : List Label := .users :: List.replicate 3 (.advance 0)

/-- The first sync, with one folder in the list and one that is granted. -/
theorem access_preserved_firstSync : ∃ s s', Completes 0 s s' ∧ s'.policy.accessible "films" := by
  obtain ⟨s, hrun, hs⟩ := play_any step (fun l s => sequential l s ∧ preserving l s)
    (.grants ["series"] :: setting) (listing ["films"])
    (fun s => s.syncs[0]?.any Stage.isWritten && decide (∃ p ∈ s.before, "films" ∈ p.enabled.texts))
    (by decide +kernel)
  obtain ⟨hwritten, p, hp, hfilms⟩ := Bool.and_eq_true_iff.1 hs |>.imp_right of_decide_eq_true
  obtain ⟨stage, hn, hstage⟩ := (Option.any_eq_true _ _).1 hwritten
  have hcompletes : Completes 0 s (stage.advance 0 s) :=
    ⟨⟨stage, hn, hstage⟩, by rw [step, hn]; rfl⟩
  refine ⟨s, _, hcompletes, access_preserved listing_untouched hrun hcompletes "films" (Or.inl ?_)⟩
  refine ⟨p, ?_, Or.inr hfilms⟩
  cases stage with
  | written q managed row => exact hp
  | listed q => cases hstage
  | selected q managed => cases hstage
  | loaded q managed row => cases hstage

/-- The folder is granted, and enabled by others, and the grant ends. -/
theorem external_folder_lost : ¬∀ (s₀ s s' : State) (n : Nat), Untouched s₀ →
    Runs step sequential s₀ s → Completes n s s' → ∀ x, Owed s' x → s'.policy.accessible x := by
  intro h
  have hrun : Runs step sequential (listing []) _ := play_runs (show play step sequential
    (.grants ["films"] :: setting ++ [.advance 0, .external (.enable "films"), .grants []] ++ setting)
    (listing []) = some _ from rfl)
  rcases h _ _ _ 0 listing_untouched hrun ⟨⟨_, rfl, rfl⟩, rfl⟩ "films" (Or.inr rfl) with hall | hmem
  · cases hall
  · change "films" ∈ (postedPolicy _ [] (some (upsertFolders none _ _ none))).enabled.texts at hmem
    rw [texts_posted, mem_desiredFolders, lastManaged_upsert] at hmem
    rcases hmem with hbase | hread | hmanaged
    · change "films" ∈ names (storedTexts (upsertFolders none _ _ none).baseline) at hbase
      rw [names_upsert rfl] at hbase
      exact absurd hbase (by decide +kernel)
    · exact hread.2 (by decide +kernel)
    · exact absurd hmanaged (by decide +kernel)

/-! ## Access that ends -/

/-- The keys that a sync has read. -/
def Stage.keys : Stage → Option (List String)
  | .listed _ => none
  | .selected _ managed | .loaded _ managed _ | .written _ managed _ => some managed

/-- Only one sync runs at a time, none stops between the policy that it sets and the row, and no
entitlement ends that a sync has read. -/
def orderly : Label → State → Prop
  | .grants managed, s => ∀ stage ∈ s.syncs, ∀ keys ∈ stage.keys, names keys ⊆ names managed
  | .users, s => s.syncs = []
  | .stop n applied, s => ∀ stage ∈ s.syncs[n]?,
    stage.isWritten = false ∧ (applied = true → stage.posted.isNone = true)
  | _, _ => True

/-- The folder was enabled before the first sync, or others have enabled it. -/
def Rightful (s : State) (x : String) : Prop :=
  (∃ p ∈ s.before, p.opens x) ∨ Given s.changes x

/-- The keys of the entitlements that the remote user may have folders of. -/
def State.recorded (s : State) : List String :=
  match s.syncs with
  | [.written _ managed _] => managed
  | _ => lastManagedTexts s.row

/-- The folders that a sync has read are rightful, or it will take them for managed ones. -/
def Traced (s : State) (p : Policy) : Prop :=
  ∀ x ∈ names p.enabled.texts, Rightful s x ∨ x ∈ names (lastManagedTexts s.row)

def Stage.Ends (s : State) : Stage → Prop
  | .listed p => Traced s p
  | .selected p managed => Traced s p ∧ names managed ⊆ names s.managed
  | .loaded p managed row => Traced s p ∧ names managed ⊆ names s.managed ∧ row = s.row
  | .written p managed row => names managed ⊆ names s.managed ∧ row = s.row ∧
    (s.row = none → ∀ x ∈ names (baselineTexts p.enabled row), Rightful s x)

/-- In a run of syncs that are orderly. -/
structure Ending (s : State) : Prop where
  quiet : s.before = none → s.row = none ∧ s.syncs = []
  present : s.before ≠ none → ∀ x, s.policy.opens x → Rightful s x ∨ x ∈ names s.recorded
  baseline : ∀ m ∈ s.row, ∀ x ∈ names (storedTexts m.baseline), Rightful s x
  syncs : ∀ stage ∈ s.syncs, s.syncs = [stage] ∧ stage.Ends s

section

variable {s s' s₀ : State} {x : String}

theorem Untouched.ending (h : Untouched s) : Ending s where
  quiet _ := ⟨h.row, h.syncs⟩
  present hb := absurd h.before hb
  baseline m hm := by rw [h.row] at hm; cases hm
  syncs stage hst := by rw [h.syncs] at hst; cases hst

theorem opens_apply {p : Policy} {c : Change} (h : (c.apply p).opens x) :
    p.opens x ∨ Given [c] x := by
  cases c with
  | enable y =>
    rcases h with h | h
    · exact Or.inl (Or.inl h)
    · change x ∈ names (p.enabled.add y).texts at h
      rw [texts_add] at h
      obtain ⟨hne, z, hz, he⟩ := mem_names.1 h
      rcases List.mem_append.1 hz with hz | hz
      · exact Or.inl (Or.inr (mem_names.2 ⟨hne, z, hz, he⟩))
      · rw [List.mem_singleton.1 hz] at he
        exact Or.inr ⟨_, List.mem_singleton_self _, Or.inr ⟨y, rfl, he⟩⟩
  | disable y =>
    refine Or.inl (h.imp_right fun h => ?_)
    change x ∈ names (p.enabled.remove y).texts at h
    rw [texts_remove] at h
    exact names_mono (List.filter_subset_self _) h
  | enableAll => exact Or.inr ⟨_, List.mem_singleton_self _, Or.inl rfl⟩

/-- What is rightful stays so. -/
theorem Rightful.changed {c : Change} (h : Rightful s x) : Rightful (s.changed c) x := by
  refine h.imp_right ?_
  rintro ⟨d, hd, hx⟩
  refine ⟨d, ?_, hx⟩
  unfold State.changed
  split
  · exact List.mem_append_left _ hd
  · exact hd

theorem Ending.external (hs : Ending s) {c : Change} : Ending (s.changed c) := by
  refine ⟨hs.quiet, fun hb x hx => ?_, fun m hm x hx => (hs.baseline m hm x hx).changed,
    fun stage hst => ⟨(hs.syncs stage hst).1, ?_⟩⟩
  · rcases opens_apply hx with hx | ⟨d, hd, hx⟩
    · exact (hs.present hb x hx).imp_left Rightful.changed
    · refine Or.inl (Or.inr ⟨d, ?_, hx⟩)
      change d ∈ if s.before.isSome then s.changes ++ [c] else s.changes
      rw [if_pos (Option.isSome_iff_ne_none.2 (show s.before ≠ none from hb))]
      exact List.mem_append_right _ hd
  · have hends := (hs.syncs stage hst).2
    have htraced : ∀ p, Traced s p → Traced (s.changed c) p := fun p h x hx =>
      (h x hx).imp_left Rightful.changed
    cases stage with
    | listed p => exact htraced p hends
    | selected p managed => exact ⟨htraced p hends.1, hends.2⟩
    | loaded p managed row => exact ⟨htraced p hends.1, hends.2⟩
    | written p managed row =>
      exact ⟨hends.1, hends.2.1, fun hnone x hx => (hends.2.2 hnone x hx).changed⟩

theorem Ending.only (hs : Ending s) {n : Nat} {stage : Stage} (hn : s.syncs[n]? = some stage) :
    n = 0 ∧ s.syncs = [stage] ∧ stage.Ends s ∧ s.before ≠ none := by
  obtain ⟨hone, hends⟩ := hs.syncs stage (List.mem_of_getElem? hn)
  refine ⟨?_, hone, hends, fun hb => ?_⟩
  · rw [hone] at hn
    cases n with
    | zero => rfl
    | succ n => cases hn
  · rw [(hs.quiet hb).2] at hone
    cases hone

/-- The policy is set: all its folders are rightful or given by the entitlements. -/
theorem opens_posted (hs : Ending s) {p : Policy} {managed : List String} {row : Option Management}
    (htraced : Traced s p) (hrow : row = s.row) (h : (postedPolicy p managed row).opens x) :
    Rightful s x ∨ x ∈ names managed := by
  rcases h with h | h
  · cases h
  rw [names_posted, mem_desiredFolders] at h
  rcases h with hbase | ⟨hread, hlast⟩ | hmanaged
  · cases hr : s.row with
    | none =>
      rw [hrow, hr] at hbase
      refine Or.inl ((htraced x hbase).resolve_right ?_)
      rw [hr]
      exact fun hmem => absurd (mem_names.1 hmem).2 (by simp [lastManagedTexts])
    | some m =>
      rw [hrow, hr] at hbase
      exact Or.inl (hs.baseline m hr x hbase)
  · exact Or.inl ((htraced x hread).resolve_right (hrow ▸ hlast))
  · exact Or.inr hmanaged

/-- One case for each stage of the sync. -/
theorem Ending.advance (hs : Ending s) {n : Nat} (h : step (.advance n) s = some s') : Ending s' := by
  obtain ⟨stage, hn, rfl⟩ := Option.map_eq_some_iff.1 h
  obtain ⟨rfl, hone, hends, hbegun⟩ := hs.only hn
  have hstate : s = { s with syncs := [stage] } := by rw [← hone]
  cases stage with
  | listed p =>
    rw [hstate]
    have hpresent := hs.present hbegun
    rw [State.recorded, hone] at hpresent
    refine ⟨fun hb => absurd hb hbegun, fun _ => hpresent, hs.baseline, fun stage hst => ?_⟩
    cases List.mem_singleton.1 hst
    exact ⟨rfl, hends, Finset.Subset.refl _⟩
  | selected p managed =>
    rw [hstate]
    have hpresent := hs.present hbegun
    rw [State.recorded, hone] at hpresent
    refine ⟨fun hb => absurd hb hbegun, fun _ => hpresent, hs.baseline, fun stage hst => ?_⟩
    cases List.mem_singleton.1 hst
    exact ⟨rfl, hends.1, hends.2, rfl⟩
  | loaded p managed row =>
    rw [hstate]
    refine ⟨fun hb => absurd hb hbegun, fun _ x hx => opens_posted hs hends.1 hends.2.2 hx,
      hs.baseline, fun stage hst => ?_⟩
    cases List.mem_singleton.1 hst
    refine ⟨rfl, hends.2.1, hends.2.2, fun hnone x hx => ?_⟩
    rw [hends.2.2, show s.row = none from hnone] at hx
    refine (hends.1 x hx).resolve_right ?_
    rw [show s.row = none from hnone]
    exact fun hmem => absurd (mem_names.1 hmem).2 (by simp [lastManagedTexts])
  | written p managed row =>
    rw [hstate]
    have hpresent := hs.present hbegun
    rw [State.recorded, hone] at hpresent
    refine ⟨fun hb => absurd hb hbegun, fun _ x hx => ?_, fun m hm x hx => ?_,
      fun stage hst => absurd hst List.not_mem_nil⟩
    · show _ ∨ x ∈ names (lastManagedTexts (some (upsertFolders s.row p managed row)))
      rw [lastManaged_upsert]
      exact hpresent x hx
    · cases hm
      rw [names_upsert hends.2.1] at hx
      cases hr : s.row with
      | none => exact hends.2.2 hr x hx
      | some m =>
        rw [hends.2.1, hr] at hx
        exact hs.baseline m hr x hx

/-- The users are listed when no sync runs. -/
theorem Ending.users (hs : Ending s) (hnone : s.syncs = []) : Ending { s with
    syncs := s.syncs ++ [.listed s.policy], before := s.before.or (some s.policy) } := by
  have hrightful : ∀ x, Rightful s x → Rightful { s with
      syncs := s.syncs ++ [.listed s.policy], before := s.before.or (some s.policy) } x := by
    intro x hx
    refine hx.imp_left ?_
    rintro ⟨p, hp, hx⟩
    refine ⟨p, ?_, hx⟩
    show p ∈ s.before.or (some s.policy)
    rw [show s.before = some p from hp]
    rfl
  have hpresent : ∀ x, s.policy.opens x → Rightful { s with
      syncs := s.syncs ++ [.listed s.policy], before := s.before.or (some s.policy) } x ∨
        x ∈ names (lastManagedTexts s.row) := by
    intro x hx
    cases hb : s.before with
    | none => exact Or.inl (Or.inl ⟨s.policy, rfl, hx⟩)
    | some p =>
      have h := hs.present (by rw [hb]; exact Option.some_ne_none p) x hx
      rw [State.recorded, hnone] at h
      exact h.imp_left (hb ▸ hrightful x)
  refine ⟨fun hb => ?_, fun _ x hx => ?_, fun m hm x hx => hrightful x (hs.baseline m hm x hx),
    fun stage hst => ?_⟩
  · cases h : s.before <;> simp [h] at hb
  · rw [State.recorded, hnone]
    exact hpresent x hx
  · rw [hnone] at hst
    cases List.mem_singleton.1 hst
    exact ⟨by rw [hnone]; rfl, fun x hx => hpresent x (Or.inr hx)⟩

/-- A sync stops that has not set the policy. -/
theorem Ending.stop (hs : Ending s) {stage : Stage} (hone : s.syncs = [stage])
    (hopen : stage.isWritten = false) : Ending { s with syncs := [] } := by
  refine ⟨fun hb => ⟨(hs.quiet hb).1, rfl⟩, fun hb x hx => ?_, hs.baseline,
    fun stage hst => absurd hst List.not_mem_nil⟩
  have h := hs.present hb x hx
  rw [State.recorded, hone] at h
  cases stage with
  | written p managed row => cases hopen
  | listed p => exact h
  | selected p managed => exact h
  | loaded p managed row => exact h

theorem Ending.grants (hs : Ending s) {managed : List String}
    (hkept : ∀ stage ∈ s.syncs, ∀ keys ∈ stage.keys, names keys ⊆ names managed) :
    Ending { s with managed } := by
  refine ⟨hs.quiet, hs.present, hs.baseline, fun stage hst => ⟨(hs.syncs stage hst).1, ?_⟩⟩
  have hends := (hs.syncs stage hst).2
  have hkeys := hkept stage hst
  cases stage with
  | listed p => exact hends
  | selected p keys => exact ⟨hends.1, hkeys keys rfl⟩
  | loaded p keys row => exact ⟨hends.1, hkeys keys rfl, hends.2.2⟩
  | written p keys row => exact ⟨hkeys keys rfl, hends.2⟩

theorem Ending.step {l : Label} (hs : Ending s) (hl : orderly l s)
    (h : Folders.step l s = some s') : Ending s' := by
  cases l with
  | grants managed =>
    cases h
    exact hs.grants hl
  | external c =>
    cases h
    exact hs.external
  | users =>
    cases h
    exact hs.users hl
  | advance n => exact hs.advance h
  | stop n applied =>
    obtain ⟨stage, hn, rfl⟩ := Option.map_eq_some_iff.1 h
    obtain ⟨rfl, hone, -, -⟩ := hs.only hn
    obtain ⟨hopen, happlied⟩ := hl stage hn
    have hpolicy : (if applied then stage.posted.getD s.policy else s.policy) = s.policy := by
      split
      · next ha => rw [Option.isNone_iff_eq_none.1 (happlied ha)]; rfl
      · rfl
    rw [hpolicy, show s.syncs.eraseIdx 0 = [] by rw [hone]; rfl]
    exact hs.stop hone hopen

/-- **No folder outlives its entitlement**: whenever a sync is completed in an orderly run, the folders
that no active entitlement gives were enabled before the first sync, or by others. -/
theorem access_ends (h₀ : Untouched s₀) (hrun : Runs Folders.step orderly s₀ s) {n : Nat}
    (h : Completes n s s') : ∀ x, s'.policy.opens x → x ∉ names s'.managed → Rightful s' x := by
  have hs : Ending s := hrun.keeps h₀.ending fun _ _ _ hl hst ht => ht.step hl hst
  obtain ⟨⟨stage, hn, hwritten⟩, hst⟩ := h
  obtain ⟨stage', hn', rfl⟩ := Option.map_eq_some_iff.1 hst
  rw [show s.syncs[n]? = some stage from hn] at hn'
  cases hn'
  obtain ⟨-, hone, hends, hbegun⟩ := hs.only hn
  have hpresent := hs.present hbegun
  rw [State.recorded, hone] at hpresent
  cases stage with
  | written p managed row =>
    exact fun x hx hgone => (hpresent x hx).resolve_right fun hmem => hgone (hends.1 hmem)
  | listed p => cases hwritten
  | selected p managed => cases hwritten
  | loaded p managed row => cases hwritten

end

/-! ### A worker that crashes -/

instance (l : Label) (s : State) : Decidable (orderly l s) := by
  unfold orderly
  split
  · infer_instance
  · exact decidable_of_iff (s.syncs.isEmpty = true) List.isEmpty_iff
  all_goals infer_instance

/-- A grant, its sync, and the end of the grant. -/
theorem access_ends_firstSync : ∃ s s', Completes 0 s s' ∧
    ∀ x, s'.policy.opens x → x ∉ names s'.managed → Rightful s' x := by
  obtain ⟨s, hrun, hs⟩ := play_any step orderly
    (.grants ["films"] :: setting ++ [.advance 0, .grants []] ++ setting) (listing ["series"])
    (fun s => s.syncs[0]?.any Stage.isWritten) (by decide +kernel)
  obtain ⟨stage, hn, hstage⟩ := (Option.any_eq_true _ _).1 hs
  have hcompletes : Completes 0 s (stage.advance 0 s) :=
    ⟨⟨stage, hn, hstage⟩, by rw [step, hn]; rfl⟩
  exact ⟨s, _, hcompletes, access_ends listing_untouched hrun hcompletes⟩

/-- The first sync has set the policy when its worker crashes.  The next one takes the folder for one of
the baseline. -/
theorem granted_folder_kept : ¬∀ (s₀ s s' : State) (n : Nat), Untouched s₀ →
    Runs step anyStep s₀ s → Completes n s s' →
    ∀ x, s'.policy.opens x → x ∉ names s'.managed → Rightful s' x := by
  intro h
  have hrun : Runs step anyStep (listing []) _ := play_runs (show play step anyStep
    (.grants ["films"] :: setting ++ [.stop 0 false, .grants []] ++ setting) (listing []) = some _
    from rfl)
  have hfirst : "films" ∈ names (postedPolicy ⟨false, .strings []⟩ ["films"] none).enabled.texts :=
    names_posted.2 (mem_desiredFolders.2 (Or.inr (Or.inr (by decide +kernel))))
  rcases h _ _ _ 0 listing_untouched hrun ⟨⟨_, rfl, rfl⟩, rfl⟩ "films"
    (Or.inr (names_posted.2 (mem_desiredFolders.2 (Or.inl hfirst)))) (by decide +kernel) with hbefore | hgiven
  · obtain ⟨p, hp, hopens⟩ := hbefore
    cases hp
    rcases hopens with hall | hmem
    · cases hall
    · exact absurd hmem (by decide +kernel)
  · obtain ⟨c, hc, -⟩ := hgiven
    cases hc

end Sakura.Folders
