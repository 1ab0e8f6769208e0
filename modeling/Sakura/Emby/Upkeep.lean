/-
  The calls that keep tasks, requests and bindings up to date, and create nothing.

  * `Upkeep`: versions that restate tasks, requests and bindings; `Upkeep.commit`: they may be committed;
  * `Restates`, `wp_restates`: a program of statements that make such versions;
  * `claim_keeps`, `keepLease_keeps`, `finish_keeps`, `fail_keeps`, `retryTask_keeps`, `sync_keeps`.
-/
import Sakura.Emby.Discipline
import Sakura.Queue.Statements

namespace Sakura.Queue

open Txn

variable {env : Environment} {G : Option (UUID × String)} {δ δ' : Versions} {L M : Held Lock}
  {db : Store} {c : Ctx Store Lock Event}

/-! ## Versions that create nothing -/

/-- A request with another status than `succeeded`, or another error. -/
def restated (r r' : ProvisionRequest) : Prop :=
  keepRequest r r' ∧ r'.remoteUserId = r.remoteUserId ∧
    r'.preflightCompleted = r.preflightCompleted ∧ (r'.status = .succeeded → r.status = .succeeded)

structure Upkeep (δ : Versions) (L : Held Lock) (db : Store) : Prop where
  tasks : Versioned Task.id (fun _ => False) (fun id => Owns L (.task id)) keepTask db.tasks δ.tasks
  requests : Versioned ProvisionRequest.id (fun _ => False) (fun id => Owns L (.provisionRequest id))
    restated db.provisionRequests δ.provisionRequests
  bindings : Versioned Binding.id (fun _ => False) (fun id => Owns L (.binding id)) keepBinding
    db.bindings δ.bindings
  upstream : δ.upstream = []

theorem Upkeep.none : Upkeep {} L db := ⟨.nil, .nil, .nil, rfl⟩

theorem Upkeep.mono (hLM : L ⊆ M) (h : Upkeep δ L db) : Upkeep δ M db where
  tasks := h.tasks.mono (fun _ => id) fun _ => Owns.mono hLM
  requests := h.requests.mono (fun _ => id) fun _ => Owns.mono hLM
  bindings := h.bindings.mono (fun _ => id) fun _ => Owns.mono hLM
  upstream := h.upstream

theorem keepTask.trans {t t' t'' : Task} (h : keepTask t t') (h' : keepTask t' t'') :
    keepTask t t'' :=
  ⟨h'.1.trans h.1, h'.2.trans h.2⟩

theorem keepRequest.trans {r r' r'' : ProvisionRequest} (h : keepRequest r r')
    (h' : keepRequest r' r'') : keepRequest r r'' :=
  ⟨h'.1.trans h.1, h'.2.1.trans h.2.1, h'.2.2.1.trans h.2.2.1, h'.2.2.2.1.trans h.2.2.2.1,
    h'.2.2.2.2.1.trans h.2.2.2.2.1, fun hp => h'.2.2.2.2.2 (h.2.2.2.2.2 hp)⟩

theorem restated.trans {r r' r'' : ProvisionRequest} (h : restated r r') (h' : restated r' r'') :
    restated r r'' :=
  ⟨h.1.trans h'.1, h'.2.1.trans h.2.1, h'.2.2.1.trans h.2.2.1, fun hs => h.2.2.2 (h'.2.2.2 hs)⟩

theorem keepBinding.trans {b b' b'' : Binding} (h : keepBinding b b') (h' : keepBinding b' b'') :
    keepBinding b b'' :=
  ⟨h'.1.trans h.1, h'.2.1.trans h.2.1, h'.2.2.trans h.2.2⟩

theorem Upkeep.then (h : Upkeep δ L db) (h' : Upkeep δ' L (db.overlay δ)) :
    Upkeep (δ.overlay δ') L db where
  tasks := h.tasks.then (fun _ _ _ => keepTask.trans) h'.tasks
  requests := h.requests.then (fun _ _ _ => restated.trans) h'.requests
  bindings := h.bindings.then (fun _ _ _ => keepBinding.trans) h'.bindings
  upstream := by simp [Versions.overlay, h.upstream, h'.upstream]

theorem Upkeep.respects (h : Upkeep δ L db) (hdb : Sound env G db) : Respects env δ L db where
  tasks := h.tasks.mono (fun _ hn => hn.elim) fun _ => id
  requests := (h.requests.weaken fun _ _ hr => hr.1).mono (fun _ hn => hn.elim) fun _ => id
  requestNames := h.requests.indexed (fun _ _ hr => hr.1.name) hdb.requestNames
  bindings := h.bindings.mono (fun _ hn => hn.elim) fun _ => id
  newBindings b hb hf := by
    rcases h.bindings.version b hb with ⟨b₀, hb₀, e, -⟩ | ⟨-, hn⟩
    · exact absurd e (hf b₀ hb₀)
    · exact hn.elim
  upstream := h.upstream ▸ .nil
  newUsers u hu := by
    rw [h.upstream] at hu
    cases hu

theorem Upkeep.overlay (h : Upkeep δ L db) (h' : Respects env δ' M db) (hc : Compatible L M) :
    Upkeep δ L (db.overlay δ') where
  tasks := h.tasks.overlay h'.tasks (fun _ hn => hn.elim) fun _ hl => hl.not_owns hc
  requests := h.requests.overlay h'.requests (fun _ hn => hn.elim) fun _ hl => hl.not_owns hc
  bindings := h.bindings.overlay h'.bindings (fun _ hn => hn.elim) fun _ hl => hl.not_owns hc
  upstream := h.upstream

theorem keeps_upkeep : (discipline env G).Keeps (Upkeep δ) :=
  ⟨Upkeep.mono, fun _ hc ⟨_, e, hs⟩ h => e ▸ h.overlay hs.respects hc⟩

/-- A request that is restated stays sound. -/
theorem RequestSound.restated {r₀ r : ProvisionRequest} (h : RequestSound env G r₀ db)
    (hid : r₀.id = r.id) (hr : restated r₀ r) : RequestSound env G r db := by
  obtain ⟨hk, hrem, hpre, hst⟩ := hr
  have hname' : r.name = r₀.name := hk.name
  obtain ⟨-, -, hinst, huser, hnorm, -⟩ := hk
  constructor
  · rw [hnorm, huser]
    exact h.normalized
  · intro hp x hx
    rw [← hid, hinst]
    exact h.remembered (fun n hn => hname'.symm.trans (hp n hn)) x (hrem.symm.trans hx)
  · intro hs
    rw [hrem]
    exact h.succeeded (hst hs)
  · intro n hn hname hp
    rw [← hid]
    exact h.reserved n hn (hname'.symm.trans hname) (hpre.symm.trans hp)

theorem Upkeep.commit (h : Upkeep δ L db) (hdb : Sound env G db) {e : Event}
    (he : ∀ q k, e ≠ .passwordSet q k) : Commit env G L db e δ := by
  have hr := h.respects hdb
  have husers : ∀ u ∈ δ.upstream, (∀ u₀ ∈ db.upstream, u₀.key ≠ u.key) →
      NewUser env G u (db.overlay δ) := fun u hu => by
    rw [h.upstream] at hu
    cases hu
  refine ⟨hr, hdb.overlay hr (fun t ht hf => ?_) (fun r hr' => ?_) husers fun _ b hb hf => ?_,
    fun n hn u hu hf => (husers u hu hf).reserved n hn, fun r hr' hs => ?_,
    fun q k hq => absurd hq (he q k)⟩
  · rcases h.tasks.version t ht with ⟨t₀, ht₀, e, -⟩ | ⟨-, hn⟩
    · exact absurd e (hf t₀ ht₀)
    · exact hn.elim
  · rcases h.requests.version r hr' with ⟨r₀, hr₀, hid, hres, -⟩ | ⟨-, hn⟩
    · exact ((hdb.requestSound r₀ hr₀).overlay hdb hr₀ hr (hr.requestNames.uniqueBy hdb.requestNames)
        husers).restated hid hres
    · exact hn.elim
  · rcases h.bindings.version b hb with ⟨b₀, hb₀, e, -⟩ | ⟨-, hn⟩
    · exact absurd e (hf b₀ hb₀)
    · exact hn.elim
  · rcases h.requests.version r hr' with ⟨r₀, hr₀, hid, hres, -⟩ | ⟨-, hn⟩
    · exact Or.inl ⟨r₀, hr₀, hid, hres.2.2.2 hs⟩
    · exact hn.elim

/-! ## Programs -/

/-- The statement restates rows, where it sees `v`. -/
def Restates (v : Store) (f : Effect Store Lock) : Prop :=
  f.write = id ∨ ∃ d, (f.write = fun s => Layers.lay s d) ∧ Upkeep d f.locks v

/-- The open transaction has restated rows, and knows `K`. -/
def Restated (env : Environment) (G : Option (UUID × String)) (K : Store → Prop)
    (c : Ctx Store Lock Event) : Prop :=
  ∃ δ, Knows (discipline env G) c δ fun L db => Upkeep δ L db ∧ K db

variable {K : Store → Prop}

theorem Restated.start (h : Knows (discipline env G) c (Layers.none Store) fun _ => K) :
    Restated env G K c :=
  ⟨{}, h.wrote, h.inv, ⟨.none, h.known⟩, keeps_upkeep.and h.keeps⟩

theorem wp_restates {α χ : Type} {p : Prog Site Store Lock Event χ α} (hp : p.Statements Restates)
    (hK : (discipline env G).Keeps fun _ => K) (h : Restated env G K c)
    {Q : α → Ctx Store Lock Event → Prop} {E : χ → Ctx Store Lock Event → Prop}
    (hQ : ∀ a c', Restated env G K c' → Q a c') (hE : ∀ x c', Restated env G K c' → E x c') :
    wp (discipline env G) p Q E c := by
  refine wp_mono hQ hE (wp_statements (P := Restated env G K) ?_ ?_ hp h)
  · rintro c c' ⟨δ, h⟩ hw
    exact ⟨δ, h.waits hw⟩
  · rintro c f ⟨δ, h⟩ (hf | ⟨d, hf, hd⟩)
    · refine ⟨δ, fun s => ?_, h.inv, ⟨h.known.1.mono (List.subset_append_left _ _), h.known.2⟩,
        keeps_upkeep.and hK⟩
      show f.write (c.writes s) = _
      rw [hf]
      exact h.wrote s
    · have hw : (c.apply ⟨f.locks, fun s => Layers.lay s d⟩).Wrote (δ.overlay d) := h.wrote.apply
      refine ⟨δ.overlay d, fun s => ?_, h.inv, ⟨?_, h.known.2⟩, keeps_upkeep.and hK⟩
      · show f.write (c.writes s) = _
        rw [hf]
        exact hw s
      · refine (h.known.1.mono (List.subset_append_left _ _)).then (Upkeep.mono
          (List.subset_append_right _ _) ?_)
        rw [h.view] at hd
        exact hd

/-- A commit of restated rows. -/
theorem Restated.publish (hK : (discipline env G).Keeps fun _ => K) (h : Restated env G K c)
    {χ : Type} {e : Event} (he : ∀ q k, e ≠ .passwordSet q k) {Q : Unit → Ctx Store Lock Event → Prop}
    {E : χ → Ctx Store Lock Event → Prop}
    (hQ : ∀ c', Knows (discipline env G) c' (Layers.none Store) (fun _ => K) → Q () c') :
    wp (discipline env G) (.publish e : Prog Site Store Lock Event χ Unit) Q E c := by
  obtain ⟨δ, h⟩ := h
  refine h.publish hK (fun L db hdb hk => ?_) hQ
  have hstep : (discipline env G).step L db e (db.overlay δ) := ⟨δ, rfl, hk.1.commit hdb he⟩
  exact ⟨hstep, hK.step hdb compatible_nil hstep hk.2⟩

/-! ## Statements -/

variable {v : Store}

theorem restates_lock (v : Store) (L : Held Lock) : Restates v { locks := L } := Or.inl rfl

theorem restates_task {t t' : Task} (ht : t ∈ v.tasks) (hid : t.id = t'.id) (hk : keepTask t t') :
    Restates v ⟨[(.task t.id, .exclusive)], fun s => Layers.lay s (tasks.version t')⟩ := by
  refine Or.inr ⟨_, rfl, { Upkeep.none with tasks := ?_ }⟩
  refine Versioned.single (Or.inl ⟨t, ht, hid, hk, ?_⟩)
  rw [← hid]
  exact List.mem_singleton_self _

theorem restates_request {r r' : ProvisionRequest} (hr : r ∈ v.provisionRequests)
    (hid : r.id = r'.id) (hk : restated r r') : Restates v
      ⟨[(.provisionRequest r.id, .exclusive)],
        fun s => Layers.lay s (provisionRequests.version r')⟩ := by
  refine Or.inr ⟨_, rfl, { Upkeep.none with requests := ?_ }⟩
  refine Versioned.single (Or.inl ⟨r, hr, hid, hk, ?_⟩)
  rw [← hid]
  exact List.mem_singleton_self _

theorem restates_binding {b b' : Binding} (hb : b ∈ v.bindings) (hid : b.id = b'.id)
    (hk : keepBinding b b') : Restates v
      ⟨[(.binding b.id, .exclusive)], fun s => Layers.lay s (bindings.version b')⟩ := by
  refine Or.inr ⟨_, rfl, { Upkeep.none with bindings := ?_ }⟩
  refine Versioned.single (Or.inl ⟨b, hb, hid, hk, ?_⟩)
  rw [← hid]
  exact List.mem_singleton_self _

/-- Versions in the other tables. -/
theorem restates_other {d : Versions} {locks : Held Lock} (ht : d.tasks = [])
    (hr : d.provisionRequests = []) (hb : d.bindings = []) (hu : d.upstream = []) :
    Restates v ⟨locks, fun s => Layers.lay s d⟩ :=
  Or.inr ⟨d, rfl, ht ▸ .nil, hr ▸ .nil, hb ▸ .nil, hu⟩

/-- A request in a status that is not `succeeded`. -/
theorem restated_status (r : ProvisionRequest) {status : ProvisionStatus} (hs : status ≠ .succeeded)
    (x : Option String) : restated r { r with status, lastError := x } :=
  ⟨keepRequest.refl r, rfl, rfl, fun h => absurd h hs⟩

/-! ## Tasks -/

/-- The program keeps to the discipline, whatever it returns. -/
abbrev Keeping (env : Environment) (G : Option (UUID × String)) {α : Type} (p : Call α)
    (c : Ctx Store Lock Event) : Prop :=
  wp (discipline env G) p (fun _ _ => True) (fun _ _ => True) c

theorem keepLease_keeps (h : Knows (discipline env G) c (Layers.none Store) fun _ _ => True)
    {w : Worker} {now : Time} {id : UUID} : Keeping env G (keepLease w now id) c := by
  refine wp_bind.2 (wp_restates (Rows.statements_updateRow restates_lock fun v t ht _ => ?_)
    Discipline.keeps_true (.start h) (fun _ c₁ h₁ => ?_) fun _ _ _ => trivial)
  · exact restates_task ht rfl (.refl t)
  · exact wp_bind.2 (h₁.publish Discipline.keeps_true (by simp) fun _ _ => trivial)

theorem finish_keeps (h : Knows (discipline env G) c (Layers.none Store) fun _ _ => True)
    {w : Worker} {now : Time} {task : ClaimedTask} : Keeping env G (finish w now task) c := by
  refine wp_bind.2 (wp_restates (Rows.statements_updateRow restates_lock fun v t ht _ => ?_)
    Discipline.keeps_true (.start h)
    (fun _ _ h' => h'.publish Discipline.keeps_true (by simp) fun _ _ => trivial) fun _ _ _ => trivial)
  exact restates_task ht rfl (.refl t)

/-! ## Failures -/

section

variable {w : Worker} {now : Time} {entry : Nat} {task : ClaimedTask} {status : TaskStatus}
  {message : Bytes}

theorem failDomain_restates :
    (failDomain w now entry task status message).Statements Restates :=
  failDomain_statements restates_lock restates_other fun _ r _ _ hr hs =>
    restates_request hr rfl (restated_status r hs _)

theorem fail_keeps (h : Knows (discipline env G) c (Layers.none Store) fun _ _ => True)
    {failure : Failure} : Keeping env G (fail w now entry task failure) c := by
  have htask : (failTask w now task (failStatus task failure.permanent)
      (truncateError failure.text)).Statements Restates :=
    storeError_statements restates_lock fun text v t ht _ => restates_task ht rfl (.refl t)
  have hK := Discipline.keeps_true (D := discipline env G)
  refine wp_bind.2 (wp_restates htask hK (.start h) (fun _ c₁ h₁ => ?_) fun _ _ _ => trivial)
  refine wp_bind.2 (wp_restates failDomain_restates hK h₁ (fun _ c₂ h₂ => ?_) fun _ _ _ => trivial)
  exact h₂.publish hK (by simp) fun _ _ => trivial

end

theorem retryTask_keeps (h : Knows (discipline env G) c (Layers.none Store) fun _ _ => True)
    {now : Time} {id : UUID} : Keeping env G (retryTask now id) c := by
  have hK := Discipline.keeps_true (D := discipline env G)
  refine wp_bind.2 (wp_restates (Rows.statements_updateRow restates_lock fun v t ht _ => ?_)
    hK (.start h) (fun changed c₁ h₁ => ?_) fun _ _ _ => trivial)
  · exact restates_task ht rfl (.refl t)
  refine wp_bind.2 (wp_check.2 ⟨fun _ => ?_, fun _ => trivial⟩)
  refine wp_bind.2 (wp_restates (Rows.statements_updateRow restates_lock fun v r hr _ => ?_)
    hK h₁ (fun _ c₂ h₂ => h₂.publish hK (by simp) fun _ _ => trivial) fun _ _ _ => trivial)
  exact restates_request hr rfl (restated_status r (by simp) _)

/-! ## Claims of tasks -/

theorem claimRequest_restates {item : ClaimedTask} : (claimRequest item).Statements Restates :=
  claimRequest_statements restates_lock fun _ r hr =>
    restates_request hr rfl (restated_status r (by simp) r.lastError)

/-- A worker that has claimed a task knows that its payload is linked. -/
theorem claim_keeps (h : Knows (discipline env G) c (Layers.none Store) fun _ _ => True)
    {w : Worker} {now : Time} {pick : UUID} {Q : Option ClaimedTask → Ctx Store Lock Event → Prop}
    (hnone : ∀ c', Q none c')
    (hsome : ∀ c' item, Knows (discipline env G) c' (Layers.none Store)
      (fun _ => Linked item.type item.payload) → Q (some item) c') :
    wp (discipline env G) (claim w now pick) Q (fun _ _ => True) c := by
  refine wp_bind.2 (h.lockRow (fun c₁ _ => hnone c₁) fun c₁ t h₁ _ ht _ => ?_)
  have hlink : Linked t.type t.payload c₁.db := by
    rw [Layers.lay_none] at ht
    exact h₁.inv.linked t ht
  have hK : (discipline env G).Keeps fun _ => Linked t.type t.payload := keeps_linked
  have h₁' : Restated env G (Linked t.type t.payload) c₁ :=
    .start ⟨h₁.wrote, h₁.inv, hlink, hK⟩
  refine wp_bind.2 (wp_restates (Rows.statements_updateRow restates_lock fun v t' ht' _ => ?_)
    hK h₁' (fun _ c₂ h₂ => ?_) fun _ _ _ => trivial)
  · exact restates_task ht' rfl (.refl t')
  refine wp_bind.2 (wp_restates claimRequest_restates hK h₂ (fun _ c₃ h₃ => ?_) fun _ _ _ => trivial)
  exact wp_bind.2 (h₃.publish hK (by simp) fun c₄ h₄ => hsome c₄ _ h₄)

/-! ## Synchronization -/

theorem upsertRemoteUser_restates {χ : Type} {row : RemoteUser} {set : RemoteUser → RemoteUser} :
    (upsertRemoteUser row set : Prog Site Store Lock Event χ Unit).Statements Restates := by
  refine Prog.statements_exec fun v => ?_
  split <;> exact restates_other rfl rfl rfl rfl

theorem syncUsers_restates {a : Attempt} {i : UUID} : ∀ users : List EmbyUser,
    (syncUsers env a i users).Statements Restates
  | [] => trivial
  | user :: users => by
    refine upsertRemoteUser_restates.bind fun _ => ?_
    refine (Rows.statements_updateRow restates_lock fun v b hb _ => ?_).bind
      fun _ => syncUsers_restates users
    exact restates_binding hb rfl (.refl b)

theorem listUsers_restates {listing : Except Bytes Listing} {i : UUID} {site : Site} :
    (listUsers listing i site).Statements Restates := by
  unfold listUsers
  cases listing with
  | error text => trivial
  | ok l => exact Prog.statements_query fun v => restates_lock v []

/-- A sync keeps to the discipline; its transaction is closed when it returns. -/
theorem sync_keeps (h : Knows (discipline env G) c (Layers.none Store) fun _ _ => True) {a : Attempt}
    {i : UUID} {Q : Unit → Ctx Store Lock Event → Prop}
    (hQ : ∀ c', Knows (discipline env G) c' (Layers.none Store) (fun _ _ => True) → Q () c')
    {E : Failure → Ctx Store Lock Event → Prop}
    (hE : ∀ x c', Restated env G (fun _ => True) c' → E x c') :
    wp (discipline env G) (sync env a i) Q E c := by
  have hK := Discipline.keeps_true (D := discipline env G)
  refine wp_bind.2 (wp_check.2 ⟨fun _ => ?_, fun _ => hE _ _ (.start h)⟩)
  refine wp_bind.2 (wp_restates listUsers_restates hK (.start h) (fun users c₁ h₁ => ?_) hE)
  refine wp_bind.2 (wp_restates (syncUsers_restates users) hK h₁ (fun _ c₂ h₂ => ?_) hE)
  refine wp_bind.2 (wp_restates (Rows.statements_updateRows restates_lock fun v u hu _ => ?_)
    hK h₂ (fun _ c₃ h₃ => ?_) hE)
  · exact restates_other rfl rfl rfl rfl
  refine wp_bind.2 (wp_restates (Rows.statements_updateRows restates_lock fun v b hb _ => ?_)
    hK h₃ (fun _ c₄ h₄ => h₄.publish hK (by simp) hQ) hE)
  exact restates_binding hb rfl (.refl b)

end Sakura.Queue
