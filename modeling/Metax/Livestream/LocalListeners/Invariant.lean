import Metax.Livestream.LocalListeners.Data

/-!
# Local listeners: the invariant

Every live request stands for one client and is in the list of its livestream (`Served`). The first
of a list is the one that asked (`Owned`): the storage first, where the look-up is under way, and
then the router, which has the tender.

The two say what `m_livestream_gets` is for. That the invariant is kept is shown change by change in
`Metax.Livestream.LocalListeners.Changes`.
-/

namespace Metax

namespace LocalListeners

/-! ### Requests and the clients they stand for -/

/-- A live request stands for a client. -/
def State.Serves (s : State) (id ims : ID32) (u : UUID) : Prop :=
  s.imsReqIds.lookup id = some ims ∧ ∃ r, s.requests.lookup id = some r ∧ r.uuid = u

/-- The list of a livestream, empty where there is none. -/
def State.members (s : State) (u : UUID) : List ID32 := (s.pendingImsGetRequests.lookup u).getD []

/-- **The lists** hold the requests that stand for clients, each once. -/
structure Served (s : State) (L : List (ID32 × UUID)) : Prop where
  aligned : ∀ id, s.requests.lookup id = none ↔ s.imsReqIds.lookup id = none
  nonempty : ∀ u, s.pendingImsGetRequests.lookup u ≠ some []
  nodup : ∀ u, (s.members u).Nodup
  mem_iff : ∀ u id, id ∈ s.members u ↔ ∃ ims, s.Serves id ims u
  inj : ∀ i j ims u v, s.Serves i ims u → s.Serves j ims v → i = j
  open_iff : ∀ ims u, (ims, u) ∈ L ↔ ∃ id, s.Serves id ims u
  open_nodup : L.Nodup

/-- **The first of a list** is the request that asked, first the storage and then the router. -/
structure Owned (hosted : UUID → Bool) (s : State) : Prop where
  owner : ∀ u id, hosted u = false → (s.members u).head? = some id →
    s.lookUps.lookup id = some u ∨ s.tenders.lookup id = some u
  tender : ∀ id u, s.tenders.lookup id = some u → hosted u = false ∧ (s.members u).head? = some id
  lookUp : ∀ id u r, s.lookUps.lookup id = some u → s.requests.lookup id = some r →
    r.uuid = u ∧ hosted u = false ∧ (s.members u).head? = some id ∧ s.tenders.lookup id = none ∧
      r.st = .lookupInDb

/-- **The invariant.** -/
structure Inv (hosted : UUID → Bool) (s : State) (L : List (ID32 × UUID)) : Prop where
  served : Served s L
  owned : Owned hosted s

variable {hosted : UUID → Bool} {s t : State} {L : List (ID32 × UUID)} {id i ims : ID32}
  {u v : UUID}
  {r : Request} {e : Event}

theorem inv_init : Inv hosted .init [] where
  served :=
    { aligned := fun _ => iff_of_true rfl rfl
      nonempty := fun _ => Option.some_ne_none _ ∘ Eq.symm
      nodup := fun _ => .nil
      mem_iff := fun u id => by
        constructor
        · intro h
          cases h
        · rintro ⟨ims, h, -⟩
          cases h
      inj := fun i j ims u v h => by cases h.1
      open_iff := fun ims u => by
        constructor
        · intro h
          cases h
        · rintro ⟨id, h, -⟩
          cases h
      open_nodup := .nil }
  owned :=
    { owner := fun u id _ h => by cases h
      tender := fun id u h => by cases h
      lookUp := fun id u r h => by cases h }

/-- A request is for one livestream. -/
theorem State.Serves.uuid_inj {m : ID32} (h : s.Serves id ims u) (h' : s.Serves id m v) :
    u = v := by
  obtain ⟨-, r, hr, rfl⟩ := h
  obtain ⟨-, r', hr', rfl⟩ := h'
  rw [Option.some.inj (hr.symm.trans hr')]

theorem mem_listenersOf : ims ∈ listenersOf L u ↔ (ims, u) ∈ L := by
  simp [listenersOf]

theorem nodup_listenersOf (h : L.Nodup) : (listenersOf L u).Nodup := by
  refine List.Nodup.map_on ?_ (h.filter _)
  intro p hp q hq heq
  simp only [List.mem_filter, decide_eq_true_eq] at hp hq
  exact Prod.ext heq (hp.2.trans hq.2.symm)

/-- A list without repetition that has one element. -/
theorem eq_singleton {l : List ID32} (hl : l.Nodup) (h : ∀ j, j ∈ l ↔ j = i) : l = [i] := by
  refine List.perm_singleton.mp ((List.perm_ext_iff_of_nodup hl (List.nodup_singleton i)).mpr ?_)
  intro j
  rw [h j, List.mem_singleton]

namespace Served

/-- A client id stands under the id of a live request. -/
theorem serves_of_lookup (h : Served s L) (hims : s.imsReqIds.lookup id = some ims) :
    ∃ r, s.requests.lookup id = some r ∧ s.Serves id ims r.uuid := by
  cases hr : s.requests.lookup id with
  | none =>
    rw [(h.aligned id).mp hr] at hims
    cases hims
  | some r => exact ⟨r, rfl, hims, r, hr, rfl⟩

/-- A live request stands for a client. -/
theorem serves_of_request (h : Served s L) (hr : s.requests.lookup id = some r) :
    ∃ ims, s.Serves id ims r.uuid := by
  cases hims : s.imsReqIds.lookup id with
  | none =>
    rw [(h.aligned id).mpr hims] at hr
    cases hr
  | some ims => exact ⟨ims, hims, r, hr, rfl⟩

theorem mem_of_request (h : Served s L) (hr : s.requests.lookup id = some r) :
    id ∈ s.members r.uuid :=
  (h.mem_iff r.uuid id).mpr (h.serves_of_request hr)

theorem request_of_mem (h : Served s L) (hid : id ∈ s.members u) :
    ∃ r, s.requests.lookup id = some r ∧ r.uuid = u := by
  obtain ⟨ims, -, hr⟩ := (h.mem_iff u id).mp hid
  exact hr

theorem pending_eq_none (h : Served s L) :
    s.pendingImsGetRequests.lookup u = none ↔ s.members u = [] := by
  rw [State.members]
  cases hl : s.pendingImsGetRequests.lookup u with
  | none => exact iff_of_true rfl rfl
  | some l =>
    refine iff_of_false (Option.some_ne_none l) fun hnil => ?_
    exact h.nonempty u (hl.trans (congrArg some hnil))

/-- **Content goes to who listens**, to each once. -/
theorem recipients (h : Served s L) (u : UUID) : (s.recipients u).Perm (listenersOf L u) := by
  have hnodup : (s.recipients u).Nodup := by
    refine (h.nodup u).filterMap fun i j ims hi hj => ?_
    obtain ⟨r, -, hr⟩ := h.serves_of_lookup hi
    obtain ⟨r', -, hr'⟩ := h.serves_of_lookup hj
    exact h.inj i j ims _ _ hr hr'
  refine (List.perm_ext_iff_of_nodup hnodup (nodup_listenersOf h.open_nodup)).mpr fun ims => ?_
  rw [mem_listenersOf, h.open_iff, State.recipients, List.mem_filterMap]
  constructor
  · rintro ⟨id, hid, hims⟩
    exact ⟨id, hims, h.request_of_mem hid⟩
  · rintro ⟨id, hserves⟩
    exact ⟨id, (h.mem_iff u id).mpr ⟨ims, hserves⟩, hserves.1⟩

/-- Somebody listens exactly if the list has a request. -/
theorem listenersOf_ne_nil (h : Served s L) : listenersOf L u ≠ [] ↔ ∃ id, id ∈ s.members u := by
  constructor
  · intro hne
    obtain ⟨ims, hims⟩ := List.exists_mem_of_ne_nil _ hne
    obtain ⟨id, hserves⟩ := (h.open_iff ims u).mp (mem_listenersOf.mp hims)
    exact ⟨id, (h.mem_iff u id).mpr ⟨ims, hserves⟩⟩
  · rintro ⟨id, hid⟩
    obtain ⟨ims, hserves⟩ := (h.mem_iff u id).mp hid
    exact List.ne_nil_of_mem (mem_listenersOf.mpr ((h.open_iff ims u).mpr ⟨id, hserves⟩))

/-- One listens exactly if the list has one request, which stands for it. -/
theorem listenersOf_eq_singleton (h : Served s L) (hserves : s.Serves id ims u) :
    listenersOf L u = [ims] ↔ s.members u = [id] := by
  constructor
  · intro hone
    refine eq_singleton (h.nodup u) fun j => ?_
    constructor
    · intro hj
      obtain ⟨m, hm⟩ := (h.mem_iff u j).mp hj
      have hmem := mem_listenersOf.mpr ((h.open_iff m u).mpr ⟨j, hm⟩)
      rw [hone, List.mem_singleton] at hmem
      rw [hmem] at hm
      exact h.inj j id ims u u hm hserves
    · rintro rfl
      exact (h.mem_iff u j).mpr ⟨ims, hserves⟩
  · intro hone
    refine eq_singleton (nodup_listenersOf h.open_nodup) fun m => ?_
    rw [mem_listenersOf, h.open_iff]
    constructor
    · rintro ⟨j, hj⟩
      have hmem := (h.mem_iff u j).mpr ⟨m, hj⟩
      rw [hone, List.mem_singleton] at hmem
      rw [hmem] at hj
      exact Option.some.inj (hj.1.symm.trans hserves.1)
    · rintro rfl
      exact ⟨id, hserves⟩

/-- A change of the requests that keeps what they are for. -/
theorem frame (h : Served s L) (hpending : t.pendingImsGetRequests = s.pendingImsGetRequests)
    (hims : t.imsReqIds = s.imsReqIds)
    (huuid : ∀ id, (t.requests.lookup id).map Request.uuid =
      (s.requests.lookup id).map Request.uuid) : Served t L := by
  have hmembers : ∀ u, t.members u = s.members u := by
    intro u
    rw [State.members, hpending]
    rfl
  have hserves : ∀ id ims u, t.Serves id ims u ↔ s.Serves id ims u := by
    intro id ims u
    rw [State.Serves, State.Serves, hims]
    refine and_congr_right fun _ => ?_
    have heq := congrArg (· = some u) (huuid id)
    simpa only [Option.map_eq_some_iff] using iff_of_eq heq
  constructor
  · intro id
    rw [hims, ← h.aligned, ← Option.map_eq_none_iff (f := Request.uuid), huuid,
      Option.map_eq_none_iff]
  · intro u
    rw [hpending]
    exact h.nonempty u
  · intro u
    rw [hmembers]
    exact h.nodup u
  · intro u id
    simp only [hmembers, hserves]
    exact h.mem_iff u id
  · intro i j ims u v
    simp only [hserves]
    exact h.inj i j ims u v
  · intro ims u
    simp only [hserves]
    exact h.open_iff ims u
  · exact h.open_nodup

end Served

/-- A change of the requests that keeps their livestreams and their states. -/
theorem Owned.frame (h : Owned hosted s)
    (hpending : t.pendingImsGetRequests = s.pendingImsGetRequests)
    (hlookUps : t.lookUps = s.lookUps) (htenders : t.tenders = s.tenders)
    (hrequests : ∀ id r', t.requests.lookup id = some r' →
      ∃ r, s.requests.lookup id = some r ∧ r.uuid = r'.uuid ∧ r.st = r'.st) : Owned hosted t := by
  have hmembers : ∀ u, t.members u = s.members u := by
    intro u
    rw [State.members, hpending]
    rfl
  constructor
  · intro u id
    rw [hmembers, hlookUps, htenders]
    exact h.owner u id
  · intro id u
    rw [hmembers, htenders]
    exact h.tender id u
  · intro id u r' hlookUp hr'
    rw [hlookUps] at hlookUp
    obtain ⟨r, hr, huuid, hst⟩ := hrequests id r' hr'
    rw [hmembers, htenders, ← huuid, ← hst]
    exact h.lookUp id u r hlookUp hr

/-- The owner of a livestream that is listened to is the first of its list. -/
theorem Inv.owns_iff (h : Inv hosted s L) (hu : hosted u = false) :
    s.Owns id u ↔ (s.members u).head? = some id := by
  constructor
  · rintro ⟨⟨r, hr, -⟩, hlookUp | htender⟩
    · exact (h.owned.lookUp id u r hlookUp hr).2.2.1
    · exact (h.owned.tender id u htender).2
  · intro hhead
    exact ⟨h.served.request_of_mem (List.mem_of_head? hhead), h.owned.owner u id hu hhead⟩

theorem Inv.owns_not_hosted (h : Inv hosted s L) (howns : s.Owns id u) : hosted u = false := by
  obtain ⟨⟨r, hr, -⟩, hlookUp | htender⟩ := howns
  · exact (h.owned.lookUp id u r hlookUp hr).2.1
  · exact (h.owned.tender id u htender).1

end LocalListeners

end Metax
