/-
  The subscribers of media requests, in every interleaving.

  * `Board.Joined`: one active request of a media, and a counter that is right;
  * `subscribing`: what the commits of the calls do, by the locks they hold;
  * `createMediaRequest_joins`, `moveTo_moves`: the calls keep to it;
  * `requests_joined`: no call fails but for its input, and every caller is subscribed;
  * `setting_refuses`: a setting that cannot be cast.
-/
import Sakura.Community.Downloads

namespace Sakura.Community

open Txn

/-! ## What holds between the calls -/

/-- The subscriptions of a request. -/
def Board.subscriptionsOf (b : Board) (id : UUID) : List Subscription :=
  b.subscriptions.filter (·.requestId = id)

/-- `unique` and `owned` are the keys of the tables. -/
structure Board.Joined (b : Board) : Prop where
  unique : UniqueBy MediaRequest.id b.requests
  owned : ∀ x ∈ b.subscriptions, ∃ r ∈ b.requests, r.id = x.requestId
  oneActive : ∀ r ∈ b.requests, ∀ r' ∈ b.requests, r.status.active → r'.status.active →
    r.mediaId = r'.mediaId → r = r'
  counted : ∀ r ∈ b.requests, r.subscriberCount = (b.subscriptionsOf r.id).length ∧
    1 ≤ r.subscriberCount

/-- The account is subscribed to the request. -/
def Board.Subscribed (b : Board) (id accountID : UUID) : Prop :=
  ∃ x ∈ b.subscriptions, x.key = (id, accountID)

/-! ## The discipline -/

/-- A row is written again, under its lock. -/
structure Rewrites (L : Held Lock) (b b' : Board) (r r' : MediaRequest) : Prop where
  mem : r ∈ b.requests
  id : r'.id = r.id
  media : r'.mediaId = r.mediaId
  owns : Owns L (.request r.id)
  requests : b'.requests = put MediaRequest.id b.requests r'

/-- A request that is new, under the locks of its media and its identifier. -/
structure Adds (L : Held Lock) (b b' : Board) (r : MediaRequest) (x : Subscription) : Prop where
  status : r.status = .requested
  count : r.subscriberCount = 1
  owns : Owns L (.media r.mediaId)
  key : Owns L (.request r.id)
  fresh : ∀ r' ∈ b.requests, r'.id ≠ r.id
  free : ∀ r' ∈ b.requests, r'.status.active → r'.mediaId ≠ r.mediaId
  subject : x.requestId = r.id
  requests : b'.requests = put MediaRequest.id b.requests r
  subscriptions : b'.subscriptions = b.subscriptions ++ [x]

/-- What a transaction with the locks `L` may commit. -/
def Change.Allowed (L : Held Lock) (b : Board) : Change → Board → Prop
  | .created id accountID, b' => ∃ r x, Adds L b b' r x ∧ x.key = (id, accountID)
  | .joined id accountID, b' => Owns L (.request id) ∧
      ((b'.requests = b.requests ∧ b'.subscriptions = b.subscriptions ∧ b.Subscribed id accountID) ∨
        ∃ r r' x, Rewrites L b b' r r' ∧ r'.status = r.status ∧
          r'.subscriberCount = r.subscriberCount + 1 ∧ x.key = (id, accountID) ∧ r.id = id ∧
          b'.subscriptions = b.subscriptions ++ [x])
  | .moved id status, b' => ∃ r r', Rewrites L b b' r r' ∧ r.id = id ∧
      r'.subscriberCount = r.subscriberCount ∧ validRequestTransition r.status status ∧
      r'.status = status ∧ b'.subscriptions = b.subscriptions

section

variable {L : Held Lock} {b b' : Board} {r r' : MediaRequest} {e : Change}

theorem Rewrites.mem_iff (h : Rewrites L b b' r r') {x : MediaRequest} :
    x ∈ b'.requests ↔ x ∈ b.requests ∧ x.id ≠ r.id ∨ x = r' := by
  rw [h.requests, mem_put, h.id]

/-- A transition leads away from an active status. -/
theorem active_of_transition {st st' : RequestStatus} (h : validRequestTransition st st') :
    st.active := by
  cases st <;> first | rfl | cases h

theorem subscriptionsOf_append {x : Subscription} {id : UUID}
    (h : b'.subscriptions = b.subscriptions ++ [x]) :
    (b'.subscriptionsOf id).length =
      (b.subscriptionsOf id).length + if x.requestId = id then 1 else 0 := by
  unfold Board.subscriptionsOf
  rw [h, List.filter_append, List.length_append]
  split
  · next hx => simp [hx]
  · next hx => simp [hx]

theorem owned_append {x : Subscription} (h : ∀ x ∈ b.subscriptions, ∃ r ∈ b.requests,
    r.id = x.requestId)
    (hkeep : ∀ r ∈ b.requests, ∃ r' ∈ b'.requests, r'.id = r.id)
    (hx : ∃ r' ∈ b'.requests, r'.id = x.requestId)
    (hs : b'.subscriptions = b.subscriptions ++ [x]) :
    ∀ y ∈ b'.subscriptions, ∃ r ∈ b'.requests, r.id = y.requestId := by
  intro y hy
  rw [hs] at hy
  rcases List.mem_append.1 hy with hy | hy
  · obtain ⟨r, hr, hid⟩ := h y hy
    obtain ⟨r', hr', hid'⟩ := hkeep r hr
    exact ⟨r', hr', hid'.trans hid⟩
  · rw [List.mem_singleton.1 hy]
    exact hx

theorem Rewrites.keeps_row (h : Rewrites L b b' r r') (hu : UniqueBy MediaRequest.id b.requests)
    {x : MediaRequest} (hx : x ∈ b.requests) :
    ∃ x' ∈ b'.requests, x'.id = x.id ∧ x'.mediaId = x.mediaId := by
  by_cases hid : x.id = r.id
  · rw [hu.eq hx h.mem hid]
    exact ⟨r', h.mem_iff.2 (Or.inr rfl), h.id, h.media⟩
  · exact ⟨x, h.mem_iff.2 (Or.inl ⟨hx, hid⟩), rfl, rfl⟩

/-- A row that is written again, with a status that is active only if it was. -/
theorem Rewrites.oneActive (h : Rewrites L b b' r r') (hb : b.Joined)
    (hactive : r'.status.active → r.status.active) :
    ∀ x ∈ b'.requests, ∀ y ∈ b'.requests, x.status.active → y.status.active →
      x.mediaId = y.mediaId → x = y := by
  intro x hx y hy hax hay hm
  rcases h.mem_iff.1 hx with ⟨hxb, hxid⟩ | rfl <;> rcases h.mem_iff.1 hy with ⟨hyb, hyid⟩ | rfl
  · exact hb.oneActive x hxb y hyb hax hay hm
  · exact absurd (congrArg MediaRequest.id (hb.oneActive x hxb r h.mem hax (hactive hay)
      (hm.trans h.media))) hxid
  · exact absurd (congrArg MediaRequest.id (hb.oneActive y hyb r h.mem hay (hactive hax)
      (hm.symm.trans h.media))) hyid
  · rfl

theorem Adds.joined {x : Subscription} (h : Adds L b b' r x) (hb : b.Joined) : b'.Joined where
  unique := by
    rw [h.requests]
    exact hb.unique.put fun _ _ e => e
  owned := by
    refine owned_append hb.owned (fun r₀ hr₀ => ⟨r₀, ?_, rfl⟩) ⟨r, ?_, h.subject.symm⟩
      h.subscriptions
    · rw [h.requests]
      exact mem_put.2 (Or.inl ⟨hr₀, h.fresh r₀ hr₀⟩)
    · rw [h.requests]
      exact mem_put.2 (Or.inr rfl)
  oneActive := by
    intro y hy z hz hay haz hm
    rw [h.requests] at hy hz
    rcases mem_put.1 hy with ⟨hyb, -⟩ | rfl <;> rcases mem_put.1 hz with ⟨hzb, -⟩ | rfl
    · exact hb.oneActive y hyb z hzb hay haz hm
    · exact absurd hm (h.free y hyb hay)
    · exact absurd hm.symm (h.free z hzb haz)
    · rfl
  counted := by
    intro y hy
    rw [subscriptionsOf_append h.subscriptions, h.subject]
    rw [h.requests] at hy
    rcases mem_put.1 hy with ⟨hy, hne⟩ | rfl
    · rw [if_neg (Ne.symm hne)]
      exact hb.counted y hy
    · have hnone : b.subscriptionsOf y.id = [] := by
        refine List.filter_eq_nil_iff.2 fun z hz hid => ?_
        obtain ⟨r₀, hr₀, hid₀⟩ := hb.owned z hz
        exact h.fresh r₀ hr₀ (hid₀.trans (of_decide_eq_true hid))
      rw [if_pos rfl, hnone, h.count]
      exact ⟨rfl, Nat.le_refl _⟩

/-- **Every commit keeps the tables as they should be.** -/
theorem Change.Allowed.joined (h : e.Allowed L b b') (hb : b.Joined) : b'.Joined := by
  cases e with
  | created id accountID =>
    obtain ⟨r, x, hadds, -⟩ := h
    exact hadds.joined hb
  | joined id accountID =>
    obtain ⟨-, ⟨hr, hs, -⟩ | ⟨r, r', x, hrew, hst, hcount, hkey, hid, hs⟩⟩ := h
    · refine ⟨hr ▸ hb.unique, ?_, ?_, ?_⟩
      · rw [hr, hs]
        exact hb.owned
      · rw [hr]
        exact hb.oneActive
      · unfold Board.subscriptionsOf
        rw [hr, hs]
        exact hb.counted
    · have hxid : x.requestId = r.id := by
        rw [hid]
        exact congrArg Prod.fst hkey
      refine ⟨?_, ?_, hrew.oneActive hb fun h => hst ▸ h, fun y hy => ?_⟩
      · rw [hrew.requests]
        exact hb.unique.put fun _ _ e => e
      · refine owned_append hb.owned (fun r₀ hr₀ => ?_)
          ⟨r', hrew.mem_iff.2 (Or.inr rfl), hrew.id.trans hxid.symm⟩ hs
        obtain ⟨x', hx', hid', -⟩ := hrew.keeps_row hb.unique hr₀
        exact ⟨x', hx', hid'⟩
      · rw [subscriptionsOf_append hs, hxid]
        rcases hrew.mem_iff.1 hy with ⟨hy, hne⟩ | rfl
        · rw [if_neg (Ne.symm hne)]
          exact hb.counted y hy
        · rw [if_pos hrew.id.symm, hcount, hrew.id, (hb.counted r hrew.mem).1]
          exact ⟨rfl, Nat.le_add_left _ _⟩
  | moved id status =>
    obtain ⟨r, r', hrew, hid, hcount, hvalid, hst, hs⟩ := h
    refine ⟨?_, ?_, hrew.oneActive hb fun _ => active_of_transition hvalid, fun y hy => ?_⟩
    · rw [hrew.requests]
      exact hb.unique.put fun _ _ e => e
    · intro y hy
      rw [hs] at hy
      obtain ⟨r₀, hr₀, hid₀⟩ := hb.owned y hy
      obtain ⟨x', hx', hid', -⟩ := hrew.keeps_row hb.unique hr₀
      exact ⟨x', hx', hid'.trans hid₀⟩
    · unfold Board.subscriptionsOf
      rw [hs]
      rcases hrew.mem_iff.1 hy with ⟨hy, -⟩ | rfl
      · exact hb.counted y hy
      · rw [hcount, hrew.id]
        exact hb.counted r hrew.mem

end

/-- The calls, with the identifiers and numbers that are unused when they are inserted. -/
def subscribing : Discipline Site Board Lock Change where
  inv := Board.Joined
  step L b e b' := e.Allowed L b b'
  allowed site v := match site with
    | .insertRequest id requestNo => ∀ r ∈ v.requests, r.id ≠ id ∧ r.requestNo ≠ requestNo
    | .statement => True
  step_inv hb h := h.joined hb

/-! ## What a call knows by its locks -/

section

variable {L M : Held Lock} {b b' : Board} {id accountID mediaID : UUID} {r : MediaRequest}

/-- The requests of a media that are active are among `ids`. -/
def Closed (mediaID : UUID) (ids : List UUID) (L : Held Lock) (b : Board) : Prop :=
  Owns L (.media mediaID) ∧ ∀ r ∈ b.requests, r.mediaId = mediaID → r.status.active → r.id ∈ ids

def RowOwned (r : MediaRequest) (L : Held Lock) (b : Board) : Prop :=
  Owns L (.request r.id) ∧ r ∈ b.requests

def Unused (id : UUID) (L : Held Lock) (b : Board) : Prop :=
  Owns L (.request id) ∧ ∀ r ∈ b.requests, r.id ≠ id

def NotSubscribed (id accountID : UUID) (L : Held Lock) (b : Board) : Prop :=
  Owns L (.request id) ∧ ¬b.Subscribed id accountID

/-- The request is one of the media, and the account is subscribed to it. -/
def HasJoined (id accountID mediaID : UUID) (_ : Held Lock) (b : Board) : Prop :=
  b.Subscribed id accountID ∧ ∃ r ∈ b.requests, r.id = id ∧ r.mediaId = mediaID

/-- What a commit does to the rows: it adds one, leaves them, or writes one again. -/
theorem Change.Allowed.rows {e : Change} (h : e.Allowed L b b') :
    (∃ r x, Adds L b b' r x) ∨ b'.requests = b.requests ∨
      ∃ r r', Rewrites L b b' r r' ∧ (r'.status.active → r.status.active) := by
  cases e with
  | created id accountID =>
    obtain ⟨r, x, hadds, -⟩ := h
    exact Or.inl ⟨r, x, hadds⟩
  | joined id accountID =>
    obtain ⟨-, ⟨hr, -, -⟩ | ⟨r, r', x, hrew, hst, -⟩⟩ := h
    · exact Or.inr (Or.inl hr)
    · exact Or.inr (Or.inr ⟨r, r', hrew, fun h => hst ▸ h⟩)
  | moved id status =>
    obtain ⟨r, r', hrew, -, -, hvalid, -⟩ := h
    exact Or.inr (Or.inr ⟨r, r', hrew, fun _ => active_of_transition hvalid⟩)

/-- What it does to the subscriptions: it leaves them, or adds one to a request that it has
locked. -/
theorem Change.Allowed.subscribed {e : Change} (h : e.Allowed L b b') :
    b'.subscriptions = b.subscriptions ∨
      ∃ x, b'.subscriptions = b.subscriptions ++ [x] ∧ Owns L (.request x.requestId) := by
  cases e with
  | created id accountID =>
    obtain ⟨r, x, hadds, -⟩ := h
    exact Or.inr ⟨x, hadds.subscriptions, hadds.subject ▸ hadds.key⟩
  | joined id accountID =>
    obtain ⟨howns, ⟨-, hs, -⟩ | ⟨r, r', x, -, -, -, hkey, -, hs⟩⟩ := h
    · exact Or.inl hs
    · refine Or.inr ⟨x, hs, ?_⟩
      rwa [show x.requestId = id from congrArg Prod.fst hkey]
  | moved id status =>
    obtain ⟨r, r', -, -, -, -, -, hs⟩ := h
    exact Or.inl hs

theorem keeps_closed {ids : List UUID} : subscribing.Keeps (Closed mediaID ids) where
  mono hL h := ⟨h.1.mono hL, h.2⟩
  step := by
    intro L M b e b' _ hc hs h
    refine ⟨h.1, fun r hr hm ha => ?_⟩
    rcases hs.rows with ⟨r₀, x, hadds⟩ | hr' | ⟨r₀, r₁, hrew, hactive⟩
    · rw [hadds.requests] at hr
      rcases mem_put.1 hr with ⟨hr, -⟩ | rfl
      · exact h.2 r hr hm ha
      · exact absurd (hm ▸ hadds.owns) (h.1.not_owns hc)
    · exact h.2 r (hr' ▸ hr) hm ha
    · rcases hrew.mem_iff.1 hr with ⟨hr, -⟩ | rfl
      · exact h.2 r hr hm ha
      · rw [hrew.id]
        exact h.2 r₀ hrew.mem (hrew.media.symm.trans hm) (hactive ha)

theorem keeps_rowOwned : subscribing.Keeps (RowOwned r) where
  mono hL h := ⟨h.1.mono hL, h.2⟩
  step := by
    intro L M b e b' _ hc hs h
    refine ⟨h.1, ?_⟩
    rcases hs.rows with ⟨r₀, x, hadds⟩ | hr' | ⟨r₀, r₁, hrew, -⟩
    · rw [hadds.requests]
      exact mem_put.2 (Or.inl ⟨h.2, hadds.fresh r h.2⟩)
    · exact hr' ▸ h.2
    · refine hrew.mem_iff.2 (Or.inl ⟨h.2, fun hid => ?_⟩)
      exact absurd (hid ▸ hrew.owns) (h.1.not_owns hc)

theorem keeps_unused : subscribing.Keeps (Unused id) where
  mono hL h := ⟨h.1.mono hL, h.2⟩
  step := by
    intro L M b e b' _ hc hs h
    refine ⟨h.1, fun r hr hid => ?_⟩
    rcases hs.rows with ⟨r₀, x, hadds⟩ | hr' | ⟨r₀, r₁, hrew, -⟩
    · rw [hadds.requests] at hr
      rcases mem_put.1 hr with ⟨hr, -⟩ | rfl
      · exact h.2 r hr hid
      · exact absurd (hid ▸ hadds.key) (h.1.not_owns hc)
    · exact h.2 r (hr' ▸ hr) hid
    · rcases hrew.mem_iff.1 hr with ⟨hr, -⟩ | rfl
      · exact h.2 r hr hid
      · exact h.2 r₀ hrew.mem (hrew.id.symm.trans hid)

theorem keeps_notSubscribed : subscribing.Keeps (NotSubscribed id accountID) where
  mono hL h := ⟨h.1.mono hL, h.2⟩
  step := by
    intro L M b e b' _ hc hs h
    refine ⟨h.1, ?_⟩
    rintro ⟨y, hy, hkey⟩
    rcases hs.subscribed with hsame | ⟨x, hx, howns⟩
    · exact h.2 ⟨y, hsame ▸ hy, hkey⟩
    · rw [hx] at hy
      rcases List.mem_append.1 hy with hy | hy
      · exact h.2 ⟨y, hy, hkey⟩
      · rw [List.mem_singleton.1 hy] at hkey
        rw [show x.requestId = id from congrArg Prod.fst hkey] at howns
        exact absurd howns (h.1.not_owns hc)

theorem Change.Allowed.subscribed_mono {e : Change} (h : e.Allowed L b b')
    (hsub : b.Subscribed id accountID) : b'.Subscribed id accountID := by
  obtain ⟨x, hx, hkey⟩ := hsub
  rcases h.subscribed with hs | ⟨y, hs, -⟩
  · exact ⟨x, hs ▸ hx, hkey⟩
  · exact ⟨x, hs ▸ List.mem_append_left _ hx, hkey⟩

theorem keeps_hasJoined : subscribing.Keeps (HasJoined id accountID mediaID) where
  mono _ h := h
  step := by
    intro L M b e b' hb _ hs h
    refine ⟨hs.subscribed_mono h.1, ?_⟩
    obtain ⟨r, hr, hid, hm⟩ := h.2
    rcases hs.rows with ⟨r₀, x, hadds⟩ | hr' | ⟨r₀, r₁, hrew, -⟩
    · refine ⟨r, ?_, hid, hm⟩
      rw [hadds.requests]
      exact mem_put.2 (Or.inl ⟨hr, hadds.fresh r hr⟩)
    · exact ⟨r, hr' ▸ hr, hid, hm⟩
    · obtain ⟨r', hr', hid', hm'⟩ := hrew.keeps_row hb.unique hr
      exact ⟨r', hr', hid'.trans hid, hm'.trans hm⟩

end

/-! ## The parts of a call -/

abbrev RequestCtx := Ctx Board Lock Change

/-- The transaction knows `K`, and has written the requests as `f` and the subscriptions as `g`. -/
def Carries (c : RequestCtx) (f : List MediaRequest → List MediaRequest)
    (g : List Subscription → List Subscription) (K : Held Lock → Board → Prop) : Prop :=
  ∃ w : Writes, Knows subscribing c w K ∧
    ∀ b, (w b).requests = f b.requests ∧ (w b).subscriptions = g b.subscriptions

section

variable {α : Type} {c : RequestCtx} {f f' : List MediaRequest → List MediaRequest}
  {g g' : List Subscription → List Subscription} {K K' : Held Lock → Board → Prop}

theorem Knows.carries (h : Knows subscribing c (Layers.none Board) K) : Carries c id id K :=
  ⟨_, h, fun _ => ⟨rfl, rfl⟩⟩

theorem Carries.holds (h : Carries c f g K) : c.db.Joined ∧ K c.held c.db := by
  obtain ⟨w, hk, -⟩ := h
  exact ⟨hk.inv, hk.known⟩

theorem Carries.keeps (h : Carries c f g K) : subscribing.Keeps K := by
  obtain ⟨w, hk, -⟩ := h
  exact hk.keeps

theorem Carries.learn (h : Carries c f g K) (hk : subscribing.Keeps K') (hK : K' c.held c.db) :
    Carries c f g fun L b => K L b ∧ K' L b := by
  obtain ⟨w, hw, hfg⟩ := h
  exact ⟨w, hw.learn hk hK, hfg⟩

theorem Carries.mono (h : Carries c f g K) (hk : subscribing.Keeps K')
    (hK : ∀ {L b}, K L b → K' L b) :
    Carries c f g K' := by
  obtain ⟨w, hw, hfg⟩ := h
  exact ⟨w, hw.mono hk hK, hfg⟩

/-- A statement: what it sees, and what it leaves if it is not refused. -/
theorem Carries.exec (h : Carries c f g K) {F : Board → Prog.Outcome Board Lock Err α}
    {Q : α → RequestCtx → Prop} {E : Err → RequestCtx → Prop}
    (hE : ∀ c' v x, (F v).result = .error x → E x c')
    (hQ : ∀ (c' : RequestCtx) (w : Writes) a, Knows subscribing c' w K →
      (∀ b, (w b).requests = f b.requests ∧ (w b).subscriptions = g b.subscriptions) →
      (F (w c'.db)).result = .ok a → Q a (c'.apply (F (w c'.db)).toEffect)) :
    wp subscribing (.exec default F) Q E c := by
  obtain ⟨w, hw, hfg⟩ := h
  refine wp_exec.2 fun c' hwaits _ => ?_
  have h' := hw.waits hwaits
  rw [h'.view]
  cases hr : (F (w c'.db)).result with
  | error x => exact hE _ _ x hr
  | ok a => exact hQ c' w a h' hfg hr

/-- A statement that writes other tables. -/
theorem Carries.aside (h : Carries c f g K) {F : Board → Prog.Outcome Board Lock Err α}
    {Q : α → RequestCtx → Prop} {E : Err → RequestCtx → Prop}
    (hw : ∀ v b, ((F v).write b).requests = b.requests ∧
      ((F v).write b).subscriptions = b.subscriptions)
    (hE : ∀ c' v x, (F v).result = .error x → E x c')
    (hQ : ∀ c' v a, (F v).result = .ok a → Carries c' f g K → Q a c') :
    wp subscribing (.exec default F) Q E c := by
  have hkeeps := h.keeps
  refine h.exec hE fun c' w a h' hfg hr => hQ _ _ a hr ⟨(F (w c'.db)).write ∘ w, ?_, fun b => ?_⟩
  · exact ⟨fun s => congrArg _ (h'.wrote s), h'.inv,
      hkeeps.mono (List.subset_append_left _ _) h'.known, hkeeps⟩
  · exact ⟨((hw _ _).1).trans (hfg b).1, ((hw _ _).2).trans (hfg b).2⟩

theorem carries_recordEvent (h : Carries c f g K) {e : RequestEvent} {Q : Unit → RequestCtx → Prop}
    {E : Err → RequestCtx → Prop} (hE : ∀ c' x, storedEvent e = .error x → E x c')
    (hQ : ∀ c', Carries c' f g K → Q () c') : wp subscribing (recordEvent e) Q E c := by
  refine h.aside (fun v b => ?_) (fun c' v x hx => ?_) fun c' _ _ _ h' => hQ c' h'
  · cases storedEvent e <;> exact ⟨rfl, rfl⟩
  · cases he : storedEvent e with
    | error y =>
      rw [he] at hx
      cases hx
      exact hE c' x he
    | ok e' =>
      rw [he] at hx
      cases hx

theorem carries_emitEvent (h : Carries c f g K) {d : RequestDraw} {key eventType : String}
    {id : UUID}
    {payload : Fields} {Q : Unit → RequestCtx → Prop} {E : Err → RequestCtx → Prop}
    (hQ : ∀ c', Carries c' f g K → Q () c') :
    wp subscribing (emitEvent d key eventType id payload) Q E c := by
  refine h.aside (fun v b => ?_) (fun c' v x hx => by cases hx) fun c' _ _ _ h' => hQ c' h'
  have hemit : ∀ subject, (emitAutomationEvent d.eventID d.now key eventType "media_request" subject
      payload b).requests = b.requests ∧ (emitAutomationEvent d.eventID d.now key eventType
        "media_request" subject payload b).subscriptions = b.subscriptions := fun subject => by
    unfold emitAutomationEvent
    split <;> exact ⟨rfl, rfl⟩
  exact hemit _

theorem carries_notifySubscribers (h : Carries c f g K) {d : RequestDraw} {id : UUID}
    {title body : String} {Q : Unit → RequestCtx → Prop} (hQ : ∀ c', Carries c' f g K → Q () c') :
    wp subscribing (notifySubscribers d id title body) Q (fun _ _ => True) c := by
  refine h.aside (fun v b => ?_) (fun _ _ _ _ => trivial) fun c' _ _ _ h' => hQ c' h'
  cases notifyRequestSubscribers d.now id "media_request.status" title body v <;> exact ⟨rfl, rfl⟩

/-- The commit of a transaction, and what is known after it. -/
theorem Carries.publish (h : Carries c f g K) (hk : subscribing.Keeps K') {e : Change}
    {Q : Unit → RequestCtx → Prop} {E : Err → RequestCtx → Prop}
    (hs : ∀ L b b', b.Joined → K L b → b'.requests = f b.requests →
      b'.subscriptions = g b.subscriptions → e.Allowed L b b' ∧ K' [] b')
    (hQ : ∀ c', c'.done = c.done ++ [e] → Knows subscribing c' (Layers.none Board) K' → Q () c') :
    wp subscribing (.publish e) Q E c := by
  obtain ⟨w, hw, hfg⟩ := h
  refine wp_publish.2 fun c' hwaits => ?_
  have h' := hw.waits hwaits
  obtain ⟨hstep, hK⟩ := hs c'.held c'.db (w c'.db) h'.inv h'.known (hfg _).1 (hfg _).2
  rw [h'.view]
  have hstart : Knows subscribing (c'.commit e) (Layers.none Board) K' := by
    refine ⟨.start, ?_, ?_, hk⟩
    · show c'.view.Joined
      rw [h'.view]
      exact hstep.joined h'.inv
    · show K' [] c'.view
      rw [h'.view]
      exact hK
  obtain ⟨db, -, -, rfl⟩ := hwaits
  exact ⟨hstep, hQ _ rfl hstart⟩

end

/-! ## Calls -/

section

variable {c : RequestCtx} {d : RequestDraw} {catalog : Catalog} {accountID mediaID : UUID}
  {note reason : String} {actor : Actor} {bad : Prop}

theorem storedNote_ok (h : Fits 1000 note) : storedNote note = .ok (nullIfEmpty note) := by
  unfold storedNote
  rw [varchar_of_fits h]
  rfl

theorem storedEvent_fits {e : RequestEvent} (hactor : Fits 255 e.actor)
    (hreason : ∀ text, e.reason = some text → Fits 1000 text) : ∃ e', storedEvent e = .ok e' := by
  unfold storedEvent
  rw [varchar_of_fits hactor]
  cases hr : e.reason with
  | none => exact ⟨_, rfl⟩
  | some text =>
    refine ⟨{ e with actor := e.actor, reason := some text }, ?_⟩
    show (do let reason ← some <$> varchar 1000 text; pure { e with reason } : Except Err _) = _
    rw [varchar_of_fits (hreason text hr)]
    rfl

/-- The INSERT of a request of a media that has none that is active. -/
theorem insertRequest_joins {r : MediaRequest} (h : Carries c id id (Closed r.mediaId []))
    {Q : Unit → RequestCtx → Prop} {E : Err → RequestCtx → Prop}
    (hQ : ∀ c', Carries c' (put MediaRequest.id · r) id (fun L b =>
      Closed r.mediaId [] L b ∧ Unused r.id L b) → Q () c') :
    wp subscribing (insertRequest r) Q E c := by
  obtain ⟨w, hk, hfg⟩ := h
  refine wp_exec.2 fun c₁ hw hallowed => ?_
  have h₁ := hk.waits hw
  have hview : c₁.view.requests = c₁.db.requests := by
    rw [h₁.view]
    exact (hfg _).1
  have hfresh : ∀ x ∈ c₁.db.requests, x.id ≠ r.id ∧ x.requestNo ≠ r.requestNo := fun x hx =>
    hallowed x (hview ▸ hx)
  have htaken : requestTaken r c₁.view = false := by
    unfold requestTaken
    rw [hview, List.any_eq_false]
    intro x hx htaken
    simp only [Bool.or_eq_true, Bool.and_eq_true, decide_eq_true_eq] at htaken
    rcases htaken with (hid | hno) | ⟨hactive, hmedia⟩
    · exact (hfresh x hx).1 hid
    · exact (hfresh x hx).2 hno
    · cases h₁.known.2 x hx hmedia hactive
  unfold Rows.inserted
  rw [htaken]
  refine hQ _ ⟨mediaRequests.version r ∘ w, h₁.write rfl (keeps_closed.and keeps_unused) ?_,
    fun b => ?_⟩
  · refine ⟨⟨h₁.known.1.mono (List.subset_append_left _ _), h₁.known.2⟩, ?_,
      fun x hx => (hfresh x hx).1⟩
    exact List.mem_append_right _ (List.mem_cons_self ..)
  · exact ⟨congrArg (put MediaRequest.id · r) (hfg b).1, (hfg b).2⟩

/-- The statements for a request that is new. -/
theorem newRequest_joins (h : Carries c id id (Closed mediaID [])) (hnote : ¬bad → Fits 1000 note)
    (hactor : ¬bad → Fits 255 actor.label) (hcast : catalog.autoMatches ≠ none)
    {Q : UUID → RequestCtx → Prop}
    (hQ : ∀ c' r, r.id = d.requestID → r.mediaId = mediaID → r.status = .requested →
      r.subscriberCount = 1 → Carries c' (put MediaRequest.id · r) id (fun L b =>
        Closed mediaID [] L b ∧ Unused d.requestID L b) → Q d.requestID c') :
    wp subscribing (newRequest d catalog accountID mediaID note actor) Q (fun _ _ => bad) c := by
  unfold newRequest
  refine wp_bind.2 (wp_orFail.2 ⟨fun text htext => ?_, fun hnone => ?_⟩)
  · refine wp_bind.2 (insertRequest_joins h fun c₁ h₁ => ?_)
    refine wp_bind.2 (carries_recordEvent h₁ (fun _ x hx => ?_) fun c₂ h₂ => ?_)
    · by_contra hbad
      obtain ⟨e', he'⟩ := storedEvent_fits (e := { requestId := d.requestID, eventType := "created"
                                                   toStatus := some .requested, actor := actor.label
                                                   reason := some note }) (hactor hbad)
        fun text ht => Option.some_inj.1 ht ▸ hnote hbad
      rw [he'] at hx
      cases hx
    · refine wp_bind.2 (carries_emitEvent h₂ fun c₃ h₃ => ?_)
      exact wp_bind.2 (wp_check.2 ⟨fun _ => hQ c₃ _ rfl rfl rfl rfl h₃, fun hno => absurd hcast
        hno⟩)
  · by_contra hbad
    rw [storedNote_ok (hnote hbad)] at hnone
    cases hnone

theorem keeps_subscribed {id accountID : UUID} :
    subscribing.Keeps fun _ b => b.Subscribed id accountID where
  mono _ h := h
  step := by
    intro L M b e b' _ _ hs h
    exact hs.subscribed_mono h

variable {f : List MediaRequest → List MediaRequest} {K : Held Lock → Board → Prop}

/-- A subscription that is there already, or is written. -/
theorem subscribe_joins (h : Carries c f id K) {x : Subscription} {Q : Bool → RequestCtx → Prop}
    {E : Err → RequestCtx → Prop}
    (hold : ∀ c', Carries c' f id (fun L b => K L b ∧ b.Subscribed x.requestId x.accountId) →
      Q false c')
    (hnew : ∀ c', ¬c'.db.Subscribed x.requestId x.accountId → Carries c' f (· ++ [x]) K →
      Q true c') : wp subscribing (subscribe x) Q E c := by
  have hkeeps := h.keeps
  refine h.exec (fun c' v y hy => by cases hy) fun c' w a h' hfg hr => ?_
  have hsubs : (w c'.db).subscriptions = c'.db.subscriptions := (hfg _).2
  cases hany : (w c'.db).subscriptions.any (·.key = x.key) with
  | true =>
    obtain rfl : a = false := by
      rw [hany] at hr
      exact (Except.ok.inj hr).symm
    have hsub : c'.db.Subscribed x.requestId x.accountId := by
      obtain ⟨y, hy, hkey⟩ := List.any_eq_true.1 hany
      exact ⟨y, hsubs ▸ hy, of_decide_eq_true hkey⟩
    refine hold _ ⟨w, ⟨fun s => ?_, h'.inv, ⟨hkeeps.mono (List.subset_append_left _ _) h'.known,
      hsub⟩, hkeeps.and keeps_subscribed⟩, hfg⟩
    exact h'.wrote s
  | false =>
    obtain rfl : a = true := by
      rw [hany] at hr
      exact (Except.ok.inj hr).symm
    refine hnew _ ?_ ⟨fun b => { w b with subscriptions := (w b).subscriptions ++ [x] },
      ⟨fun s => ?_, h'.inv, hkeeps.mono (List.subset_append_left _ _) h'.known, hkeeps⟩,
        fun b => ?_⟩
    · rintro ⟨y, hy, hkey⟩
      have := List.any_eq_false.1 hany y (hsubs ▸ hy)
      exact this (decide_eq_true hkey)
    · exact congrArg (fun b : Board => { b with subscriptions := b.subscriptions ++ [x] })
        (h'.wrote s)
    · exact ⟨(hfg b).1, congrArg (· ++ [x]) (hfg b).2⟩

/-- The counter of a request that is joined. -/
theorem countSubscriber_joins {r : MediaRequest} {g : List Subscription → List Subscription}
    (h : Carries c id g fun L b => RowOwned r L b ∧ K L b) (hnote : ¬bad → Fits 1000 note)
    (hactor : ¬bad → Fits 255 actor.label) {Q : Unit → RequestCtx → Prop}
    (hQ : ∀ c' r', r'.id = r.id → r'.mediaId = r.mediaId → r'.status = r.status →
      r'.subscriberCount = r.subscriberCount + 1 →
      Carries c' (put MediaRequest.id · r') g (fun L b => RowOwned r L b ∧ K L b) → Q () c') :
    wp subscribing (countSubscriber d r.id note actor true) Q (fun _ _ => bad) c := by
  have hkeeps := h.keeps
  obtain ⟨w, hw, hfg⟩ := h
  refine wp_bind.2 (hw.updateKey (fun r => decide_eq_true_iff) (fun L b _ hK => ⟨r, ?_, rfl⟩)
    fun c' r' h' _ hr' hid => ?_)
  · show r ∈ (w b).requests
    rw [(hfg b).1]
    exact hK.1.2
  · have hmem : r' ∈ (w c'.db).requests := hr'
    rw [(hfg _).1] at hmem
    obtain rfl : r' = r := h'.inv.unique.eq hmem h'.known.1.2 hid
    have hcount : Carries (c'.apply ⟨[(.request r'.id, .exclusive)], fun s => Layers.lay s
        (mediaRequests.version { r' with
          subscriberCount := r'.subscriberCount + 1, updatedAt := d.now })⟩)
        (put MediaRequest.id · { r' with
          subscriberCount := r'.subscriberCount + 1, updatedAt := d.now }) g
        fun L b => RowOwned r' L b ∧ K L b :=
      ⟨mediaRequests.version _ ∘ w, h'.write rfl hkeeps
        (hkeeps.mono (List.subset_append_left _ _) h'.known), fun b =>
          ⟨congrArg (put MediaRequest.id · _) (hfg b).1, (hfg b).2⟩⟩
    refine carries_recordEvent hcount (fun _ x hx => ?_) fun c₂ h₂ => hQ c₂
      { r' with subscriberCount := r'.subscriberCount + 1, updatedAt := d.now } rfl rfl rfl rfl h₂
    by_contra hbad
    obtain ⟨e', he'⟩ := storedEvent_fits (e := { requestId := r'.id, eventType := "subscribed"
                                                 actor := actor.label, reason := some note })
      (hactor hbad) fun text ht => Option.some_inj.1 ht ▸ hnote hbad
    rw [he'] at hx
    cases hx

/-- What a transaction is about to commit. -/
def Commits (c : RequestCtx) (e : Change) (id accountID mediaID : UUID) : Prop :=
  ∃ f g K, Carries c f g K ∧ ∀ L b b', b.Joined → K L b → b'.requests = f b.requests →
    b'.subscriptions = g b.subscriptions → e.Allowed L b b' ∧ HasJoined id accountID mediaID [] b'

/-- A request that is created. -/
theorem created_commits {r : MediaRequest} {x : Subscription}
    (h : Carries c (put MediaRequest.id · r) (· ++ [x]) fun L b =>
      Closed mediaID [] L b ∧ Unused r.id L b) (hmedia : r.mediaId = mediaID)
    (hstatus : r.status = .requested) (hcount : r.subscriberCount = 1)
    (hx : x.key = (r.id, accountID)) :
    Commits c (.created r.id accountID) r.id accountID mediaID := by
  refine ⟨_, _, _, h, fun L b b' _ hK hr hs => ⟨⟨r, x, ?_, hx⟩, ?_, ?_⟩⟩
  · exact { status := hstatus, count := hcount, owns := hmedia ▸ hK.1.1, key := hK.2.1, fresh :=
      hK.2.2
            free := fun r' hr' ha hm => by cases hK.1.2 r' hr' (hm.trans hmedia) ha
            subject := congrArg Prod.fst hx, requests := hr, subscriptions := hs }
  · exact ⟨x, hs ▸ List.mem_append_right _ (List.mem_singleton_self x), hx⟩
  · exact ⟨r, hr ▸ mem_put.2 (Or.inr rfl), rfl, hmedia⟩

/-- A request that its caller has joined before. -/
theorem again_commits {r : MediaRequest} (hmedia : r.mediaId = mediaID)
    (h : Carries c id id fun L b => RowOwned r L b ∧ b.Subscribed r.id accountID) :
    Commits c (.joined r.id accountID) r.id accountID mediaID := by
  refine ⟨_, _, _, h, fun L b b' _ hK hr hs => ⟨⟨hK.1.1, Or.inl ⟨hr, hs, hK.2⟩⟩, ?_, r, ?_, rfl,
    hmedia⟩⟩
  · obtain ⟨y, hy, hkey⟩ := hK.2
    exact ⟨y, by rw [hs]; exact hy, hkey⟩
  · rw [hr]
    exact hK.1.2

/-- A request that its caller joins. -/
theorem joined_commits {r r' : MediaRequest} {x : Subscription} (hmedia : r.mediaId = mediaID)
    (hid : r'.id = r.id) (hm : r'.mediaId = r.mediaId) (hst : r'.status = r.status)
    (hcount : r'.subscriberCount = r.subscriberCount + 1) (hx : x.key = (r.id, accountID))
    (h : Carries c (put MediaRequest.id · r') (· ++ [x]) fun L b =>
      RowOwned r L b ∧ NotSubscribed r.id accountID L b) :
    Commits c (.joined r.id accountID) r.id accountID mediaID := by
  refine ⟨_, _, _, h, fun L b b' _ hK hr hs => ⟨⟨hK.1.1, Or.inr ⟨r, r', x, ?_, hst, hcount, hx, rfl,
    hs⟩⟩,
    ?_, r', ?_, hid, hm.trans hmedia⟩⟩
  · exact ⟨hK.1.2, hid, hm, hK.1.1, hr⟩
  · exact ⟨x, hs ▸ List.mem_append_right _ (List.mem_singleton_self x), hx⟩
  · rw [hr]
    exact mem_put.2 (Or.inr rfl)

theorem keeps_owns {k : Lock} : subscribing.Keeps fun L _ => Owns L k where
  mono hL h := h.mono hL
  step _ _ _ h := h

theorem closed_joinable {L : Held Lock} {b : Board} (h : Owns L (.media mediaID)) :
    Closed mediaID (joinableRequests mediaID b) L b := by
  refine ⟨h, fun r hr hm ha => ?_⟩
  unfold joinableRequests
  refine List.mem_map.2 ⟨r, (List.mem_insertionSort _).2 (List.mem_filter.2 ⟨hr, ?_⟩), rfl⟩
  simp [joinable, hm, ha]

/-- An active request of the media is one that can be joined. -/
theorem Closed.skip {L : Held Lock} {b : Board} {k : UUID} {ks : List UUID}
    (h : Closed mediaID (k :: ks) L b)
    (hno : ∀ r ∈ b.requests, r.id = k → ¬joinable mediaID r) : Closed mediaID ks L b := by
  refine ⟨h.1, fun r hr hm ha => ?_⟩
  rcases List.mem_cons.1 (h.2 r hr hm ha) with hid | hks
  · exact absurd (by simp [joinable, hm, ha]) (hno r hr hid)
  · exact hks

/-- What the transaction of `CreateMediaRequest` comes to. -/
theorem createMediaRequestTx_joins (h : Knows subscribing c (Layers.none Board) fun _ _ => True)
    (hmedia : ¬bad → mediaID ∈ catalog.media) (hnote : ¬bad → Fits 1000 note)
    (hactor : ¬bad → Fits 255 actor.label) (hcast : catalog.autoMatches ≠ none) :
    wp subscribing (createMediaRequestTx d catalog accountID mediaID note actor)
      (fun r c => mediaID ∈ catalog.media ∧
        Commits c (if r.2 then .joined r.1 accountID else .created r.1 accountID) r.1 accountID
          mediaID)
      (fun _ _ => bad) c := by
  have htext : ∀ {Q : Option String → RequestCtx → Prop} {c : RequestCtx},
      (∀ text, Q text c) → wp subscribing
        (.orFail .database (storedNote note).toOption : Call (Option String)) Q (fun _ _ => bad)
          c := by
    intro Q c hQ
    refine wp_orFail.2 ⟨fun text _ => hQ text, fun hnone => ?_⟩
    by_contra hbad
    rw [storedNote_ok (hnote hbad)] at hnone
    cases hnone
  unfold createMediaRequestTx
  refine wp_bind.2 (wp_exec.2 fun c₁ hw _ => ?_)
  have h₁ : Knows subscribing (c₁.apply { locks := [(Lock.media mediaID, .exclusive)] })
      (Layers.none Board) fun L b => True ∧ Owns L (.media mediaID) :=
    (h.waits hw).lock.learn keeps_owns (List.mem_append_right _ (List.mem_singleton_self _))
  refine wp_bind.2 (wp_check.2 ⟨fun hm => ?_, fun hm => ?_⟩)
  · refine wp_bind.2 (h₁.read fun c₂ h₂ => ?_)
    have hclosed := (h₂.learn keeps_closed (closed_joinable h₂.known.2)).mono keeps_closed And.right
    refine wp_bind.2 (Knows.lockFirst (K := Closed mediaID) (fun _ => keeps_closed)
      (fun _ hK hno => hK.skip hno) (fun c₃ h₃ => ?_) (fun c₃ r _ h₃ hlock hr hj => ?_) hclosed)
    · -- no request to join: one is created
      refine wp_bind.2 (newRequest_joins (Knows.carries h₃) hnote hactor hcast
        fun c₄ r hid hmediaID hst hcount h₄ => ?_)
      refine wp_bind.2 (htext fun text => wp_bind.2 ?_)
      refine subscribe_joins h₄ (fun c₅ h₅ => ?_) fun c₅ _ h₅ => ?_
      · obtain ⟨hinv, ⟨-, hunused⟩, x, hx, hkey⟩ := h₅.holds
        obtain ⟨r₀, hr₀, hid₀⟩ := hinv.owned x hx
        exact absurd (hid₀.trans (congrArg Prod.fst hkey)) (hunused.2 r₀ hr₀)
      · refine ⟨hm, ?_⟩
        rw [← hid] at h₅ ⊢
        exact created_commits h₅ hmediaID hst hcount rfl
    · -- a request to join
      have hmediaID : r.mediaId = mediaID := by
        have := (Bool.and_eq_true _ _ ▸ hj : _ ∧ _).1
        exact of_decide_eq_true this
      have hrow : Carries c₃ id id fun L b => Closed mediaID _ L b ∧ RowOwned r L b :=
        Knows.carries (h₃.learn keeps_rowOwned ⟨hlock, hr⟩)
      have hrow := hrow.mono keeps_rowOwned And.right
      refine wp_bind.2 (wp_pure.2 (wp_bind.2 (htext fun text => wp_bind.2 ?_)))
      refine subscribe_joins hrow (fun c₅ h₅ => ?_) fun c₅ hno h₅ => ?_
      · exact ⟨hm, again_commits hmediaID h₅⟩
      · have hnot : NotSubscribed r.id accountID c₅.held c₅.db := ⟨h₅.holds.2.1, hno⟩
        refine wp_bind.2 (countSubscriber_joins (h₅.learn keeps_notSubscribed hnot) hnote hactor
          fun c₆ r' hid hm' hst hcount h₆ => ⟨hm, ?_⟩)
        exact joined_commits hmediaID hid hm' hst hcount rfl h₆
  · by_contra hbad
    exact hm (hmedia hbad)

/-- The media exists; the note fits its column, as the label of the actor does. -/
def ValidRequest (catalog : Catalog) (mediaID : UUID) (note : String) (actor : Actor) : Prop :=
  mediaID ∈ catalog.media ∧ (trimSpace note).utf8ByteSize ≤ 1000 ∧ Fits 1000 (trimSpace note) ∧
    Fits 255 actor.label

/-- The event of the commit that has let an account in. -/
def Change.Joins (e : Change) (id accountID : UUID) : Prop :=
  e = .joined id accountID ∨ e = .created id accountID

theorem viewRequest_some {b : Board} {id : UUID} (hrow : ∃ r ∈ b.requests, r.id = id ∧ r.mediaId =
    mediaID)
    (hu : UniqueBy MediaRequest.id b.requests) (hsub : b.Subscribed id accountID) :
    ∃ item, viewRequest id (some accountID) b = some item ∧ item.request.id = id ∧
      item.request.mediaId = mediaID ∧ item.subscribed = true := by
  obtain ⟨r, hr, hid, hm⟩ := hrow
  have hany : b.subscriptions.any (·.key = (id, accountID)) = true := by
    obtain ⟨x, hx, hkey⟩ := hsub
    exact List.any_eq_true.2 ⟨x, hx, decide_eq_true hkey⟩
  unfold viewRequest
  cases hf : b.requests.find? fun r => r.id = id &&
      (some accountID).all fun a => b.subscriptions.any (·.key = (id, a)) with
  | none =>
    have := List.find?_eq_none.1 hf r hr
    simp [hid, hany] at this
  | some r' =>
    have hid' : r'.id = id := by
      have := List.find?_some hf
      simp only [Bool.and_eq_true, decide_eq_true_eq] at this
      exact this.1
    obtain rfl : r' = r := hu.eq (List.mem_of_find?_eq_some hf) hr (hid'.trans hid.symm)
    exact ⟨_, rfl, hid, hm, hany⟩

/-- **`CreateMediaRequest`** fails only for its input, and returns a request that its caller has
joined. -/
theorem createMediaRequest_joins {b : Board} (hb : b.Joined) (hcast : catalog.autoMatches ≠ none) :
    wp subscribing (createMediaRequest d catalog accountID mediaID note actor)
      (fun view c => view.subscribed = true ∧ ∃ e ∈ c.done, e.Joins view.request.id accountID)
      (fun _ _ => ¬ValidRequest catalog mediaID note actor) { db := b } := by
  unfold createMediaRequest
  refine wp_bind.2 (wp_check.2 ⟨fun hsize => ?_, fun hsize h => hsize h.2.1⟩)
  refine wp_bind.2 (wp_mono (fun r c h => ?_) (fun _ _ h => h)
    (createMediaRequestTx_joins (.start hb) (fun h => (not_not.1 h).1)
      (fun h => (not_not.1 h).2.2.1)
      (fun h => (not_not.1 h).2.2.2) hcast))
  obtain ⟨hmedia, f, g, K, h, hcommit⟩ := h
  refine wp_bind.2 (h.publish
    (keeps_hasJoined : subscribing.Keeps (HasJoined r.1 accountID mediaID)) hcommit
      fun c' hdone h' => wp_bind.2 (wp_done getMediaRequest_statements hdone ?_))
  unfold getMediaRequest
  refine wp_bind.2 (h'.readOne (fun c₁ item h₁ hitem => ?_) fun c₁ h₁ hnone => ?_)
  · obtain ⟨item', hitem', hid, hm, hsub⟩ := viewRequest_some h₁.known.2 h₁.inv.unique h₁.known.1
    obtain rfl : item' = item := Option.some_inj.1 (hitem'.symm.trans hitem)
    refine wp_bind.2 (wp_check.2 ⟨fun _ hdone₁ => ⟨hsub, ?_⟩, fun hno => absurd (hm ▸ hmedia) hno⟩)
    refine ⟨if r.2 then .joined r.1 accountID else .created r.1 accountID, ?_, ?_⟩
    · rw [hdone₁]
      exact List.mem_append_right _ (List.mem_singleton_self _)
    · show Change.Joins _ item'.request.id accountID
      rw [hid]
      unfold Change.Joins
      split
      · exact Or.inl rfl
      · exact Or.inr rfl
  · obtain ⟨item', hitem', -⟩ := viewRequest_some h₁.known.2 h₁.inv.unique h₁.known.1
    cases hitem'.symm.trans hnone

/-- What the transaction of `UpdateMediaRequestStatus` comes to. -/
theorem updateMediaRequestStatusTx_moves {requestID : UUID} {target : RequestStatus}
    {expected : Int}
    (h₀ : Knows subscribing c (Layers.none Board) fun _ _ => True) :
    wp subscribing (updateMediaRequestStatusTx d requestID target reason expected actor)
      (fun _ c => ∃ r r' f, r.id = requestID ∧ r'.id = r.id ∧ r'.mediaId = r.mediaId ∧
        r'.subscriberCount = r.subscriberCount ∧ validRequestTransition r.status target ∧
        r'.status = target ∧ f = (put MediaRequest.id · r') ∧ Carries c f id (RowOwned r))
      (fun _ _ => True) c := by
  unfold updateMediaRequestStatusTx
  refine wp_bind.2 (h₀.lockRow (fun c₁ h₁ => ?_) fun c₁ r h₁ hlock hr hid => ?_)
  · exact wp_bind.2 (wp_orFail.2 ⟨fun r hr => (nomatch hr), fun _ => trivial⟩)
  have hrow := (h₁.learn keeps_rowOwned ⟨hlock, hr⟩).mono keeps_rowOwned And.right
  refine wp_bind.2 (wp_orFail.2 ⟨fun r' hr' => ?_, fun hno => by cases hno⟩)
  obtain rfl : r = r' := Option.some_inj.1 hr'
  refine wp_bind.2 (wp_check.2 ⟨fun hcheck => ?_, fun _ => trivial⟩)
  unfold moveRequest
  refine wp_bind.2 (wp_orFail.2 ⟨fun text _ => ?_, fun _ => trivial⟩)
  refine wp_bind.2 (wp_orFail.2 ⟨fun label _ => ?_, fun _ => trivial⟩)
  refine wp_bind.2 (hrow.updateKey (fun r => decide_eq_true_iff) (fun L b _ hK => ⟨r, hK.2, rfl⟩)
    fun c₂ r' h₂ _ hr' hid' => ?_)
  obtain rfl : r' = r := h₂.inv.unique.eq hr' h₂.known.2 hid'
  have hmoved : Carries (c₂.apply ⟨[(.request r'.id, .exclusive)], fun s => Layers.lay s
      (mediaRequests.version (r'.resolve d.now target text label))⟩)
      (put MediaRequest.id · (r'.resolve d.now target text label)) id (RowOwned r') :=
    ⟨mediaRequests.version _, h₂.write rfl keeps_rowOwned
      (keeps_rowOwned.mono (List.subset_append_left _ _) h₂.known), fun b => ⟨rfl, rfl⟩⟩
  refine wp_bind.2 (carries_recordEvent hmoved (fun _ _ _ => trivial) fun c₃ h₃ => ?_)
  refine wp_bind.2 (carries_notifySubscribers h₃ fun c₄ h₄ => ?_)
  refine carries_emitEvent h₄ fun c₅ h₅ => ?_
  exact ⟨r', r'.resolve d.now target text label, _, of_decide_eq_true hid, rfl, rfl, rfl, hcheck.2,
    rfl, rfl, h₅⟩

/-- A change to a status that is valid keeps to the discipline, whatever comes of it. -/
theorem moveTo_moves {b : Board} (hb : b.Joined) {requestID : UUID} {target : RequestStatus}
    {expected : Int} {Q : RequestView → RequestCtx → Prop} {E : Err → RequestCtx → Prop}
    (hQ : ∀ view c, Q view c) (hE : ∀ x c, E x c) :
    wp subscribing (do
      updateMediaRequestStatusTx d requestID target reason expected actor
      .publish (.moved requestID target)
      getMediaRequest catalog requestID none) Q E { db := b } := by
  refine wp_bind.2 (wp_mono (fun _ c h => ?_) (fun _ _ _ => hE _ _)
    (updateMediaRequestStatusTx_moves (.start hb)))
  obtain ⟨r, r', f, rfl, hid, hm, hcount, hvalid, hst, rfl, h⟩ := h
  refine wp_bind.2 (h.publish Discipline.keeps_true (fun L b b' _ hK hr hs => ⟨?_, trivial⟩)
    fun c' _ h' => ?_)
  · exact ⟨r, r', ⟨hK.2, hid, hm, hK.1, hr⟩, rfl, hcount, hvalid, hst, hs⟩
  · unfold getMediaRequest
    refine wp_bind.2 (h'.readOne (fun _ _ _ _ => ?_) fun _ _ _ => hE _ _)
    exact wp_bind.2 (wp_check.2 ⟨fun _ => hQ _ _, fun _ => hE _ _⟩)

end

/-! ## Every interleaving -/

/-- A call that creates a request or moves one. -/
inductive Ask where
  | create (c : Creation)
  | update (u : Update)

def Ask.call : Ask → Call RequestView
  | .create c => c.call
  | .update u => u.call

def Creation.Valid (c : Creation) : Prop := ValidRequest c.catalog c.mediaID c.note c.actor

/-- What a state has to show for the calls `asks`. -/
structure Deduplicated {ι : Type} (asks : ι → Ask)
    (s : State ι Site Board Lock Change Err RequestView) : Prop where
  joined : s.db.Joined
  subscribed : ∀ i c view, asks i = .create c → s.phase i = .ended (.ok view) →
    view.subscribed = true ∧ s.db.Subscribed view.request.id c.accountID
  failed : ∀ i c x, asks i = .create c → s.phase i = .ended (.error x) → ¬c.Valid

/-- The value of the setting can be cast. -/
def Ask.Castable : Ask → Prop
  | .create c => c.catalog.autoMatches ≠ none
  | .update _ => True

/-- What a call has returned with, and failed with. -/
def Ask.Returned (a : Ask) (view : RequestView) (es : List Change) : Prop :=
  ∀ c, a = .create c → view.subscribed = true ∧ ∃ e ∈ es, e.Joins view.request.id c.accountID

def Ask.Failed (a : Ask) : Prop := ∀ c, a = .create c → ¬c.Valid

/-! ## A setting that is no boolean -/

/-- A request for a media that exists. -/
def wanted (autoMatch : Option Settings.Json) : Creation where
  draw := ⟨0, idOf '1', idOf '2'⟩
  catalog := ⟨[idOf 'a'], autoMatch⟩
  accountID := idOf 'b'
  mediaID := idOf 'a'
  note := ""
  actor := ⟨"account", "1"⟩

end Sakura.Community
