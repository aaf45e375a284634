import Metax.Platform.Package
import Metax.Library.Ledger
import Metax.Library.Run

/-!
# Remote listeners of a livestream

A livestream that is hosted here has the ids of the requests of other nodes that listen to it. They
should be those of the live requests for it, each once (`Lawful`).

A listener leaves by `cancel_livestream_get`, with the end of the livestream, or when the router
cancels its request. The last is told from other requests by the command `livestream_content`,
which no request has: a listener has the command `get`. So a cancelled listener stays in the list,
and the law holds exactly as long as the router cancels none (`listeners_exact_iff`).

Of the kernel there are only the hosted livestreams and the requests that came from the router.
-/

namespace Metax

namespace RemoteListeners

open Ledger (Table)

/-! ### The kernel -/

/-- The commands of requests, as far as they are told apart here. -/
inductive Command
  | get
  | saveStream
  | livestreamContent
  | other
  deriving DecidableEq

/-- A request of the type `t_router`. -/
structure Request where
  uuid : UUID
  cmd : Command
  deriving DecidableEq

/-- `livestream_info`, as far as listeners go. -/
structure LivestreamInfo where
  requestId : ID32
  listeners : List ID32
  deriving DecidableEq

/-- `m_hosted_livestreams` and `m_requests`. -/
structure State where
  hosted : Table UUID LivestreamInfo
  requests : Table ID32 Request

/-- No livestream so far. -/
def State.init : State := ⟨∅, ∅⟩

namespace State

variable (s : State)

/-- `kernel::handle_router_get_request`. What is not hosted is asked of the storage. -/
def handleRouterGetRequest (id : ID32) (u : UUID) : State :=
  (s.hosted.lookup u).elim s fun li =>
    { s with
      requests := s.requests.insert id ⟨u, .get⟩
      hosted := s.hosted.insert u { li with listeners := li.listeners ++ [id] } }

/-- `kernel::process_router_save_stream_request`. -/
def processRouterSaveStreamRequest (id : ID32) (u : UUID) : State :=
  match s.hosted.lookup u with
  | none => { s with hosted := s.hosted.insert u ⟨id, []⟩ }
  | some li =>
    { s with
      requests := s.requests.erase li.requestId
      hosted := s.hosted.insert u { li with requestId := id } }

/-- `kernel::handle_router_save_stream_request`, where hosting is enabled. -/
def handleRouterSaveStreamRequest (id : ID32) (u : UUID) : State :=
  processRouterSaveStreamRequest { s with requests := s.requests.insert id ⟨u, .saveStream⟩ } id u

/-- `kernel::clean_up_request_from_livestream_listeners`. -/
def cleanUpRequestFromLivestreamListeners (id : ID32) (r : Request) : Option State :=
  if r.cmd = .get then
    some <| (s.hosted.lookup r.uuid).elim s fun li =>
      if id ∈ li.listeners then
        { s with
          requests := s.requests.erase id
          hosted := s.hosted.insert r.uuid { li with listeners := li.listeners.erase id } }
      else s
  else none

/-- `kernel::handle_router_cancel_livestream_get`. -/
def handleRouterCancelLivestreamGet (id : ID32) : Option State :=
  (s.requests.lookup id).elim (some s) (s.cleanUpRequestFromLivestreamListeners id)

/-- `kernel::clean_up_hosted_livestream_listeners`. -/
def cleanUpHostedLivestreamListeners (s : State) : List ID32 → State
  | [] => s
  | i :: is => cleanUpHostedLivestreamListeners { s with requests := s.requests.erase i } is

/-- `kernel::clean_up_hosted_livestream`. -/
def cleanUpHostedLivestream (id : ID32) (r : Request) : Option State :=
  (s.hosted.lookup r.uuid).bind fun li =>
    if li.requestId = id then
      let s := s.cleanUpHostedLivestreamListeners li.listeners
      some { s with hosted := s.hosted.erase r.uuid, requests := s.requests.erase id }
    else none

/-- `kernel::handle_canceled_router_request`. -/
def handleCanceledRouterRequest (id : ID32) (r : Request) : Option State :=
  match r.cmd with
  | .saveStream => s.cleanUpHostedLivestream id r
  | .livestreamContent => s.cleanUpRequestFromLivestreamListeners id r
  | _ => some { s with requests := s.requests.erase id }

/-- `kernel::handle_router_cancel`. -/
def handleRouterCancel (id : ID32) : Option State :=
  (s.requests.lookup id).elim (some s) (s.handleCanceledRouterRequest id)

/-- `kernel::handle_livestream_content_for_router_request`: the requests that the content is sent
to. -/
def handleLivestreamContentForRouterRequest (listeners : List ID32) : List ID32 :=
  listeners.filter fun i => (s.requests.lookup i).isSome

end State

/-- What comes from the router. `other` is a request that is neither a get nor a livestream, and
`answered` the end of one. -/
inductive Event
  | saveStream (id : ID32) (u : UUID)
  | get (id : ID32) (u : UUID)
  | cancelLivestreamGet (id : ID32)
  | cancel (id : ID32)
  | other (id : ID32) (u : UUID)
  | answered (id : ID32)
  deriving DecidableEq

/-- **A step** of the kernel. A new request has an id that no live request has, which the kernel
asserts of some of them; an id may be used again when its request is gone. -/
def step (s : State) : Event → Option State
  | .saveStream id u =>
    if s.requests.lookup id = none then some (s.handleRouterSaveStreamRequest id u) else none
  | .get id u =>
    if s.requests.lookup id = none then some (s.handleRouterGetRequest id u) else none
  | .cancelLivestreamGet id => s.handleRouterCancelLivestreamGet id
  | .cancel id => s.handleRouterCancel id
  | .other id u =>
    if s.requests.lookup id = none then
      some { s with requests := s.requests.insert id ⟨u, .other⟩ }
    else none
  | .answered id =>
    match s.requests.lookup id with
    | some ⟨_, .other⟩ => some { s with requests := s.requests.erase id }
    | _ => none

/-! ### The law -/

/-- **The law**: the listeners of a livestream are the live requests for it, each once, and what
comes is sent to each of them once and to nobody else. -/
structure Lawful (s : State) : Prop where
  nodup : ∀ u li, s.hosted.lookup u = some li → li.listeners.Nodup
  mem_iff : ∀ u li, s.hosted.lookup u = some li → ∀ id,
    id ∈ li.listeners ↔ s.requests.lookup id = some ⟨u, .get⟩
  sent : ∀ u li, s.hosted.lookup u = some li →
    (s.handleLivestreamContentForRouterRequest li.listeners).Nodup ∧
      ∀ id, id ∈ s.handleLivestreamContentForRouterRequest li.listeners ↔
        s.requests.lookup id = some ⟨u, .get⟩

/-- The router does not cancel a get of another node. -/
def Spares (s : State) : Event → Prop
  | .cancel id => ∀ r ∈ s.requests.lookup id, r.cmd ≠ .get
  | _ => True

instance (s : State) : ∀ e : Event, Decidable (Spares s e)
  | .cancel _ => Ledger.decidableForallMem _
  | .saveStream _ _ | .get _ _ | .cancelLivestreamGet _ | .other _ _ | .answered _ =>
    .isTrue trivial

/-- **The invariant**: the law, as far as it is about the lists; a hosted livestream has its
request, and only hosted ones have listeners. -/
structure Inv (s : State) : Prop where
  nodup : ∀ u li, s.hosted.lookup u = some li → li.listeners.Nodup
  mem_iff : ∀ u li, s.hosted.lookup u = some li → ∀ id,
    id ∈ li.listeners ↔ s.requests.lookup id = some ⟨u, .get⟩
  request : ∀ u li, s.hosted.lookup u = some li →
    s.requests.lookup li.requestId = some ⟨u, .saveStream⟩
  hosted : ∀ id u, s.requests.lookup id = some ⟨u, .get⟩ → ∃ li, s.hosted.lookup u = some li

variable {s t : State} {id i : ID32} {u v : UUID} {r : Request} {li : LivestreamInfo} {e : Event}

theorem inv_init : Inv .init where
  nodup _ _ h := by cases h
  mem_iff _ _ h := by cases h
  request _ _ h := by cases h
  hosted _ _ h := by cases h

/-- All that is sent goes to who listens. -/
theorem Inv.lawful (h : Inv s) : Lawful s where
  nodup := h.nodup
  mem_iff := h.mem_iff
  sent u li hli := by
    refine ⟨(h.nodup u li hli).filter _, fun id => ?_⟩
    rw [State.handleLivestreamContentForRouterRequest, List.mem_filter, ← h.mem_iff u li hli id]
    refine and_iff_left_of_imp fun hmem => ?_
    rw [(h.mem_iff u li hli id).mp hmem]
    rfl

/-! ### What a step does to it -/

/-- A request comes or goes that no livestream has to do with. -/
theorem Inv.aside (h : Inv s) (hhosted : t.hosted = s.hosted)
    (hget : ∀ i u, t.requests.lookup i = some ⟨u, .get⟩ ↔ s.requests.lookup i = some ⟨u, .get⟩)
    (hsave : ∀ i u, s.requests.lookup i = some ⟨u, .saveStream⟩ →
      t.requests.lookup i = some ⟨u, .saveStream⟩) : Inv t where
  nodup u li hli := by
    rw [hhosted] at hli
    exact h.nodup u li hli
  mem_iff u li hli id := by
    rw [hhosted] at hli
    exact (h.mem_iff u li hli id).trans (hget id u).symm
  request u li hli := by
    rw [hhosted] at hli
    exact hsave _ u (h.request u li hli)
  hosted id u hid := by
    rw [hhosted]
    exact h.hosted id u ((hget id u).mp hid)

/-- The end of another request. -/
theorem Inv.eraseOther (h : Inv s) (hr : s.requests.lookup id = some ⟨u, .other⟩) :
    Inv { s with requests := s.requests.erase id } := by
  refine h.aside rfl (fun i v => ?_) fun i v hi => ?_
  · rw [Ledger.lookup_erase_ite]
    split_ifs with hi
    · rw [hi, hr]
      simp
    · exact Iff.rfl
  · rw [AList.lookup_erase_ne ?_]
    · exact hi
    · rintro rfl
      rw [hr] at hi
      cases hi

/-- What is looked up after a request was inserted under a new id. -/
theorem lookup_insert_new (hnew : s.requests.lookup id = none) (r : Request) :
    (s.requests.insert id r).lookup i = some ⟨u, .get⟩ ↔
      i = id ∧ r = ⟨u, .get⟩ ∨ s.requests.lookup i = some ⟨u, .get⟩ := by
  rw [Ledger.lookup_insert_ite]
  split_ifs with hi
  · rw [hi, hnew]
    simp
  · simp [hi]

/-- A new listener. -/
theorem Inv.get (h : Inv s) (hnew : s.requests.lookup id = none) (u : UUID) :
    Inv (s.handleRouterGetRequest id u) := by
  rw [State.handleRouterGetRequest]
  cases hli : s.hosted.lookup u with
  | none => exact h
  | some li =>
    have hnot : id ∉ li.listeners := by
      rw [h.mem_iff u li hli, hnew]
      simp
    constructor
    · exact Ledger.forall_lookup_insert h.nodup ((h.nodup u li hli).append
        (List.nodup_singleton id) (List.disjoint_singleton.mpr hnot))
    · intro v li' hli' i
      rw [Option.elim_some] at hli'
      rw [Option.elim_some, lookup_insert_new hnew, Request.mk.injEq]
      obtain ⟨hv, rfl⟩ | ⟨hv, hli'⟩ := Ledger.eq_or_of_lookup_insert hli'
      · rw [hv, List.mem_append, List.mem_singleton, h.mem_iff u li hli]
        tauto
      · rw [h.mem_iff v li' hli']
        tauto
    · have hkeep : ∀ w li₀, s.hosted.lookup w = some li₀ →
          (s.requests.insert id ⟨u, .get⟩).lookup li₀.requestId = some ⟨w, .saveStream⟩ := by
        intro w li₀ hli₀
        have hreq := h.request w li₀ hli₀
        rw [AList.lookup_insert_ne ?_]
        · exact hreq
        · intro heq
          rw [heq, hnew] at hreq
          cases hreq
      exact Ledger.forall_lookup_insert hkeep (hkeep u li hli)
    · intro i v hi
      rw [Option.elim_some, lookup_insert_new hnew] at hi
      rw [Option.elim_some, Ledger.lookup_insert_ite]
      split_ifs with hv
      · exact ⟨_, rfl⟩
      · obtain ⟨-, heq⟩ | hi := hi
        · exact absurd (Request.mk.inj heq).1.symm hv
        · exact h.hosted i v hi

/-- A livestream that begins, or goes on with another request. -/
theorem Inv.saveStream (h : Inv s) (hnew : s.requests.lookup id = none) (u : UUID) :
    Inv (s.handleRouterSaveStreamRequest id u) := by
  have hget : ∀ i v, (s.requests.insert id ⟨u, .saveStream⟩).lookup i = some ⟨v, .get⟩ ↔
      s.requests.lookup i = some ⟨v, .get⟩ := by
    intro i v
    rw [lookup_insert_new hnew]
    simp
  have hkeep : ∀ w li₀, s.hosted.lookup w = some li₀ → li₀.requestId ≠ id := by
    intro w li₀ hli₀ heq
    have hreq := h.request w li₀ hli₀
    rw [heq, hnew] at hreq
    cases hreq
  rw [State.handleRouterSaveStreamRequest, State.processRouterSaveStreamRequest.eq_def]
  dsimp only
  cases hli : s.hosted.lookup u with
  | none =>
    have hnobody : ∀ i, s.requests.lookup i ≠ some ⟨u, .get⟩ := by
      intro i hi
      obtain ⟨li, hsome⟩ := h.hosted i u hi
      rw [hli] at hsome
      cases hsome
    constructor
    · exact Ledger.forall_lookup_insert h.nodup .nil
    · refine Ledger.forall_lookup_insert (fun v li' hli' i => ?_) fun i => ?_
      · rw [hget]
        exact h.mem_iff v li' hli' i
      · rw [hget]
        exact iff_of_false List.not_mem_nil (hnobody i)
    · exact Ledger.forall_lookup_insert (fun v li' hli' =>
        (AList.lookup_insert_ne (hkeep v li' hli')).trans (h.request v li' hli'))
        (AList.lookup_insert _)
    · intro i v hi
      exact Ledger.exists_lookup_insert (h.hosted i v ((hget i v).mp hi))
  | some li =>
    -- the request that goes is none of a listener
    have hget' : ∀ i v, ((s.requests.insert id ⟨u, .saveStream⟩).erase li.requestId).lookup i =
        some ⟨v, .get⟩ ↔ s.requests.lookup i = some ⟨v, .get⟩ := by
      intro i v
      rw [Ledger.lookup_erase_ite, ← hget]
      split_ifs with hi
      · rw [hi, AList.lookup_insert_ne (hkeep u li hli), h.request u li hli]
        simp
      · exact Iff.rfl
    constructor
    · exact Ledger.forall_lookup_insert h.nodup (h.nodup u li hli)
    · refine Ledger.forall_lookup_insert (fun v li' hli' i => ?_) fun i => ?_
      · rw [hget']
        exact h.mem_iff v li' hli' i
      · rw [hget']
        exact h.mem_iff u li hli i
    · intro v li' hli'
      obtain ⟨hv, rfl⟩ | ⟨hv, hli'⟩ := Ledger.eq_or_of_lookup_insert hli'
      · rw [hv, AList.lookup_erase_ne (hkeep u li hli).symm]
        exact AList.lookup_insert _
      · have hreq := h.request v li' hli'
        rw [AList.lookup_erase_ne ?_, AList.lookup_insert_ne (hkeep v li' hli')]
        · exact hreq
        · intro heq
          rw [heq, h.request u li hli] at hreq
          exact hv (Request.mk.inj (Option.some.inj hreq)).1.symm
    · intro i v hi
      exact Ledger.exists_lookup_insert (h.hosted i v ((hget' i v).mp hi))

/-- A listener that says that it leaves. -/
theorem Inv.cleanUpRequest (h : Inv s) (hr : s.requests.lookup id = some r)
    (ht : s.cleanUpRequestFromLivestreamListeners id r = some t) : Inv t := by
  obtain ⟨u, cmd⟩ := r
  rw [State.cleanUpRequestFromLivestreamListeners] at ht
  split_ifs at ht with hcmd
  obtain rfl : cmd = .get := hcmd
  obtain ⟨li, hli⟩ := h.hosted id u hr
  have hmem := (h.mem_iff u li hli id).mpr hr
  have ht := (Option.some.inj ht).symm
  dsimp only at ht
  rw [hli, Option.elim_some, if_pos hmem] at ht
  have hget : ∀ i v, t.requests.lookup i = some ⟨v, .get⟩ ↔
      i ≠ id ∧ s.requests.lookup i = some ⟨v, .get⟩ := by
    intro i v
    rw [ht, Ledger.lookup_erase_ite]
    split_ifs with hi
    · simp [hi]
    · simp [hi]
  have hback : ∀ v li', t.hosted.lookup v = some li' →
      v = u ∧ li' = { li with listeners := li.listeners.erase id } ∨
        v ≠ u ∧ s.hosted.lookup v = some li' := by
    intro v li' hli'
    rw [ht] at hli'
    obtain ⟨hv, rfl⟩ | hold := Ledger.eq_or_of_lookup_insert hli'
    · exact .inl ⟨hv, rfl⟩
    · exact .inr hold
  constructor
  · intro v li' hli'
    obtain ⟨-, rfl⟩ | ⟨-, hli'⟩ := hback v li' hli'
    · exact (h.nodup u li hli).erase id
    · exact h.nodup v li' hli'
  · intro v li' hli' i
    rw [hget]
    obtain ⟨rfl, rfl⟩ | ⟨hv, hli'⟩ := hback v li' hli'
    · rw [(h.nodup v li hli).mem_erase_iff, h.mem_iff v li hli]
    · rw [h.mem_iff v li' hli']
      refine (and_iff_right_of_imp ?_).symm
      rintro hi rfl
      rw [hr] at hi
      exact hv (Request.mk.inj (Option.some.inj hi)).1.symm
  · intro v li' hli'
    have hold : ∃ li₀, s.hosted.lookup v = some li₀ ∧ li₀.requestId = li'.requestId := by
      obtain ⟨rfl, rfl⟩ | ⟨-, hli'⟩ := hback v li' hli'
      · exact ⟨li, hli, rfl⟩
      · exact ⟨li', hli', rfl⟩
    obtain ⟨li₀, hli₀, heq⟩ := hold
    have hreq := h.request v li₀ hli₀
    rw [ht, ← heq, AList.lookup_erase_ne ?_]
    · exact hreq
    · intro hid
      rw [hid, hr] at hreq
      cases hreq
  · intro i v hi
    rw [ht]
    exact Ledger.exists_lookup_insert (h.hosted i v ((hget i v).mp hi).2)

theorem cleanUpListeners_spec (s : State) (is : List ID32) :
    (s.cleanUpHostedLivestreamListeners is).hosted = s.hosted ∧
      ∀ i, (s.cleanUpHostedLivestreamListeners is).requests.lookup i =
        if i ∈ is then none else s.requests.lookup i := by
  induction is generalizing s with
  | nil => exact ⟨rfl, fun i => (if_neg List.not_mem_nil).symm⟩
  | cons j is ih =>
    obtain ⟨hhosted, hreq⟩ := ih { s with requests := s.requests.erase j }
    refine ⟨hhosted, fun i => ?_⟩
    rw [State.cleanUpHostedLivestreamListeners, hreq, Ledger.lookup_erase_ite]
    by_cases hi : i = j
    · simp [hi]
    · simp [hi]

/-- The end of a livestream takes its listeners along. -/
theorem Inv.cleanUpHosted (h : Inv s) (hr : s.requests.lookup id = some ⟨u, .saveStream⟩)
    (ht : s.cleanUpHostedLivestream id ⟨u, .saveStream⟩ = some t) : Inv t := by
  obtain ⟨li, hli, hend⟩ := Option.bind_eq_some_iff.mp ht
  have hli' : s.hosted.lookup u = some li := hli
  split_ifs at hend with hid
  have ht := (Option.some.inj hend).symm
  obtain ⟨hhosted, hreq⟩ := cleanUpListeners_spec s li.listeners
  have hlookup : ∀ i, t.requests.lookup i =
      if i = id ∨ i ∈ li.listeners then none else s.requests.lookup i := by
    intro i
    rw [ht]
    dsimp only
    rw [Ledger.lookup_erase_ite, hreq]
    by_cases hi : i = id
    · simp [hi]
    · simp [hi]
  have hback : ∀ v li₀, t.hosted.lookup v = some li₀ → v ≠ u ∧ s.hosted.lookup v = some li₀ := by
    intro v li₀ hv
    rw [ht] at hv
    dsimp only at hv
    rw [hhosted] at hv
    obtain ⟨heq, hv⟩ := Ledger.of_lookup_erase hv
    exact ⟨heq, hv⟩
  -- what goes is of this livestream
  have hstay : ∀ i q, s.requests.lookup i = some q → q.uuid ≠ u →
      t.requests.lookup i = some q := by
    intro i q hq hne
    rw [hlookup, if_neg ?_]
    · exact hq
    · rintro (rfl | hmem)
      · rw [hr] at hq
        exact hne (congrArg Request.uuid (Option.some.inj hq)).symm
      · rw [(h.mem_iff u li hli' i).mp hmem] at hq
        exact hne (congrArg Request.uuid (Option.some.inj hq)).symm
  have hold : ∀ i q, t.requests.lookup i = some q → s.requests.lookup i = some q := by
    intro i q hq
    rw [hlookup] at hq
    split_ifs at hq
    exact hq
  constructor
  · exact fun v li₀ hv => h.nodup v li₀ (hback v li₀ hv).2
  · intro v li₀ hv i
    obtain ⟨hne, hv⟩ := hback v li₀ hv
    rw [h.mem_iff v li₀ hv i]
    exact ⟨fun hi => hstay i _ hi hne, hold i _⟩
  · intro v li₀ hv
    obtain ⟨hne, hv⟩ := hback v li₀ hv
    exact hstay _ _ (h.request v li₀ hv) hne
  · intro i v hi
    have hi₀ := hold i _ hi
    obtain ⟨li₀, hli₀⟩ := h.hosted i v hi₀
    refine ⟨li₀, ?_⟩
    rw [ht]
    dsimp only
    rw [hhosted, AList.lookup_erase_ne ?_]
    · exact hli₀
    · rintro rfl
      rw [hlookup, if_pos (.inr ((h.mem_iff v li hli' i).mpr hi₀))] at hi
      cases hi

/-! ### The law over runs -/

theorem inv_step (h : Inv s) (hspares : Spares s e) (hstep : step s e = some t) : Inv t := by
  cases e with
  -- a new id has no request yet
  | saveStream id u =>
    rw [step] at hstep
    split_ifs at hstep with hnew
    rw [← Option.some.inj hstep]
    exact h.saveStream hnew u
  | get id u =>
    rw [step] at hstep
    split_ifs at hstep with hnew
    rw [← Option.some.inj hstep]
    exact h.get hnew u
  | cancelLivestreamGet id =>
    rw [step, State.handleRouterCancelLivestreamGet] at hstep
    cases hr : s.requests.lookup id with
    | none =>
      rw [hr] at hstep
      rw [← Option.some.inj hstep]
      exact h
    | some r =>
      rw [hr] at hstep
      exact h.cleanUpRequest hr hstep
  -- a canceled get is what `Spares` excludes
  | cancel id =>
    rw [step, State.handleRouterCancel] at hstep
    cases hr : s.requests.lookup id with
    | none =>
      rw [hr] at hstep
      rw [← Option.some.inj hstep]
      exact h
    | some r =>
      rw [hr, Option.elim_some, State.handleCanceledRouterRequest.eq_def] at hstep
      obtain ⟨u, cmd⟩ := r
      cases cmd with
      | get => exact absurd rfl (hspares _ hr)
      | saveStream => exact h.cleanUpHosted hr hstep
      | livestreamContent => exact h.cleanUpRequest hr hstep
      | other =>
        rw [← Option.some.inj hstep]
        exact h.eraseOther hr
  -- a request that has nothing to do with livestreams
  | other id u =>
    rw [step] at hstep
    split_ifs at hstep with hnew
    rw [← Option.some.inj hstep]
    refine h.aside rfl (fun i v => ?_) fun i v hi => ?_
    · rw [lookup_insert_new hnew]
      simp
    · rw [AList.lookup_insert_ne ?_]
      · exact hi
      · rintro rfl
        rw [hnew] at hi
        cases hi
  | answered id =>
    rw [step] at hstep
    split at hstep
    · next u hr =>
      rw [← Option.some.inj hstep]
      exact h.eraseOther hr
    · cases hstep

/-- A listener that the router cancels stays in the list. -/
theorem not_lawful_of_not_spares (h : Inv s) (hspares : ¬ Spares s e) (hstep : step s e = some t) :
    ¬ Lawful t := by
  cases e with
  | cancel id =>
    have hget : ∃ u, s.requests.lookup id = some ⟨u, .get⟩ := by
      by_contra hnone
      refine hspares fun r hr hcmd => hnone ⟨r.uuid, ?_⟩
      have hr' : s.requests.lookup id = some r := hr
      rw [hr', ← hcmd]
    obtain ⟨u, hr⟩ := hget
    obtain ⟨li, hli⟩ := h.hosted id u hr
    rw [step, State.handleRouterCancel, hr, Option.elim_some,
      State.handleCanceledRouterRequest.eq_def] at hstep
    rw [← Option.some.inj hstep]
    intro hlawful
    have hlive := (hlawful.mem_iff u li hli id).mp ((h.mem_iff u li hli id).mpr hr)
    rw [AList.lookup_erase] at hlive
    cases hlive
  | _ => exact absurd trivial hspares

/-- **The list is what it should be** in every state of a run exactly if the router cancels no get
of another node. -/
theorem listeners_exact_iff (es : List Event) (hrun : (Run.run step .init es).isSome) :
    Run.Along step (fun s e => ∀ t ∈ step s e, Lawful t) .init es ↔
      Run.Along step Spares .init es := by
  refine Run.along_iff_of_kept Inv Lawful (fun s e t h hok hstep => inv_step h hok hstep)
    (fun s e t h hstep => ?_) inv_init hrun
  constructor
  · intro hlawful
    by_contra hspares
    exact not_lawful_of_not_spares h hspares hstep hlawful
  · exact fun hspares => (inv_step h hspares hstep).lawful

/-- Two listeners: one leaves, and the livestream ends. -/
theorem listeners_exact_twoListeners : Run.Along step (fun s e => ∀ t ∈ step s e, Lawful t) .init
    [.saveStream 1 5, .get 2 5, .get 3 5, .cancelLivestreamGet 2, .cancel 1] :=
  (listeners_exact_iff _ (by decide)).mpr (by decide)

/-- **A listener whose request expires** is not taken off the list. -/
theorem not_listeners_exact : ¬ ∀ es : List Event, (Run.run step .init es).isSome →
    Run.Along step (fun s e => ∀ t ∈ step s e, Lawful t) .init es := by
  intro h
  obtain ⟨-, hnext⟩ := h [.saveStream 1 5, .get 2 5, .cancel 2] (by decide)
  obtain ⟨-, hnext⟩ := hnext _ rfl
  obtain ⟨hlast, -⟩ := hnext _ rfl
  have hlive := ((hlast _ rfl).mem_iff 5 ⟨1, [2]⟩ (by decide) 2).mp (by decide)
  exact absurd hlive (by decide)

end RemoteListeners

end Metax
