import Metax.Getting.Data

/-!
# Every piece request has one place

A piece request that is not answered is in one place only: it is one of the units of its parent,
it is posted to another task, or it waits for the router (`Sound`). Between two places it is
`Loose`, which it is only within a step.

What does not belong to the budget leaves alone what the router was asked for (`Keeps`).

The handlers come in the order in which a get goes through them. Each lemma says that the places are
in order again and that the budget was left alone; the handlers that charge it and refund it are in
`Metax.Getting.Budget`.
-/

namespace Metax

namespace Getting

open Ledger (Table)

variable {s t : State} {id pid i : ID32} {r r' p : Request} {uuid : UUID}

/-- What a post takes of the budget. -/
def Post.cost : Post → ℕ
  | .getRouter n => n.toNat
  | .lookUp | .getStorage | .decrypt => 0

/-! ### Places -/

namespace State

/-- A request for a piece. -/
def IsPiece (s : State) (id : ID32) : Prop :=
  ∃ r, s.requests.lookup id = some r ∧ r.typ = .kernel

/-- A piece request that is nowhere. -/
structure Loose (s : State) (id : ID32) : Prop where
  piece : s.IsPiece id
  posted : s.posted.lookup id = none
  waiting : id ∉ s.pendingRouterGetReqs
  units : ∀ pid p, s.requests.lookup pid = some p → id ∉ p.units

/-- **The invariant.** -/
structure Sound (s : State) : Prop where
  posted : ∀ id q, s.posted.lookup id = some q → ∃ r, s.requests.lookup id = some r ∧
    r.typ = .kernel ∧ ∀ n, q = .getRouter n → r.size = n
  waiting : ∀ id ∈ s.pendingRouterGetReqs, s.IsPiece id ∧ s.posted.lookup id = none
  nodup : s.pendingRouterGetReqs.Nodup
  unitsNodup : ∀ pid p, s.requests.lookup pid = some p → p.units.Nodup
  units : ∀ pid p, s.requests.lookup pid = some p → ∀ u ∈ p.units,
    (∃ r, s.requests.lookup u = some r ∧ r.typ = .kernel ∧ r.parentReqId = some pid) ∧
      s.posted.lookup u = none ∧ u ∉ s.pendingRouterGetReqs
  getsNodup : ∀ uuid ids, s.pendingImsGetRequests.lookup uuid = some ids → ids.Nodup
  gets : ∀ uuid ids, s.pendingImsGetRequests.lookup uuid = some ids → ∀ b ∈ ids,
    ∃ r, s.requests.lookup b = some r ∧ r.typ = .ims ∧ r.uuid = uuid

/-- The sum of the sizes of what the router was asked for. -/
def postedSize (s : State) : ℕ :=
  Ledger.total (fun _ q => q.cost) s.posted

/-- The size of a piece, `0` when there is no request for it. -/
def pieceSize (s : State) (id : ID32) : ℕ := (s.requests.lookup id).elim 0 (·.size.toNat)

/-- What the router was asked for, and the budget for it, are the same. -/
structure Keeps (s t : State) : Prop where
  size : t.routerGetInputSize = s.routerGetInputSize
  negative : t.negative = s.negative
  waiting : t.pendingRouterGetReqs = s.pendingRouterGetReqs
  postedSize : t.postedSize = s.postedSize
  router : ∀ id n, s.posted.lookup id = some (.getRouter n) →
    t.posted.lookup id = some (.getRouter n)

/-- And what is nowhere stays there. -/
structure Moves (s t : State) : Prop extends Keeps s t where
  loose : ∀ id, s.Loose id → t.Loose id

/-- What keeps the budget can be put in sequence, with or without loose requests. -/
theorem Keeps.refl (s : State) : Keeps s s := ⟨rfl, rfl, rfl, rfl, fun _ _ h => h⟩

theorem Keeps.trans {u : State} (h : Keeps s t) (h' : Keeps t u) : Keeps s u :=
  ⟨h'.size.trans h.size, h'.negative.trans h.negative, h'.waiting.trans h.waiting,
    h'.postedSize.trans h.postedSize, fun id n hid => h'.router id n (h.router id n hid)⟩

theorem Moves.refl (s : State) : Moves s s := ⟨.refl s, fun _ h => h⟩

theorem Moves.trans {u : State} (h : Moves s t) (h' : Moves t u) : Moves s u :=
  ⟨h.toKeeps.trans h'.toKeeps, fun id hid => h'.loose id (h.loose id hid)⟩

/-- What leaves the posts and the queue alone leaves the budget alone. -/
theorem Keeps.of_posted (hsize : t.routerGetInputSize = s.routerGetInputSize)
    (hnegative : t.negative = s.negative)
    (hwaiting : t.pendingRouterGetReqs = s.pendingRouterGetReqs) (hposted : t.posted = s.posted) :
    Keeps s t := by
  refine ⟨hsize, hnegative, hwaiting, ?_, fun id n h => ?_⟩
  · rw [State.postedSize, hposted, State.postedSize]
  · rw [hposted]
    exact h

/-! ### Writing a request back -/

/-- What a request keeps for good; units only go. -/
structure Like (r r' : Request) : Prop where
  typ : r'.typ = r.typ
  uuid : r'.uuid = r.uuid
  parentReqId : r'.parentReqId = r.parentReqId
  size : r'.size = r.size
  units : r'.units.Sublist r.units

/-- A request is like itself. -/
theorem Like.refl (r : Request) : Like r r := ⟨rfl, rfl, rfl, rfl, .refl _⟩

/-- After a request was written back every request is like the one before. -/
theorem like_setRequest (hr : s.requests.lookup id = some r) (hlike : Like r r')
    (hi : s.requests.lookup i = some p) :
    ∃ p', (s.setRequest id r').requests.lookup i = some p' ∧ Like p p' := by
  exact Ledger.exists_lookup_insert_rel .refl hr hlike hi

/-- And there were no others. -/
theorem of_like_setRequest (hr : s.requests.lookup id = some r) (hlike : Like r r')
    (hi : (s.setRequest id r').requests.lookup i = some p) :
    ∃ p', s.requests.lookup i = some p' ∧ Like p' p := by
  exact Ledger.exists_of_lookup_insert .refl hr hlike i p hi

/-- A request that is written back is a piece if it was one. -/
theorem IsPiece.setRequest (hr : s.requests.lookup id = some r) (hlike : Like r r')
    (hi : s.IsPiece i) : (s.setRequest id r').IsPiece i := by
  obtain ⟨p, hp, htyp⟩ := hi
  obtain ⟨p', hp', hlike'⟩ := like_setRequest hr hlike hp
  exact ⟨p', hp', hlike'.typ.trans htyp⟩

/-- **Writing a request back** with units fewer. -/
theorem Sound.setRequest (h : Sound s) (hr : s.requests.lookup id = some r) (hlike : Like r r') :
    Sound (s.setRequest id r') where
  posted i q hq := by
    obtain ⟨p, hp, htyp, hsize⟩ := h.posted i q hq
    obtain ⟨p', hp', hlike'⟩ := like_setRequest hr hlike hp
    exact ⟨p', hp', hlike'.typ.trans htyp, fun n hn => hlike'.size.trans (hsize n hn)⟩
  waiting i hi := (h.waiting i hi).imp_left (·.setRequest hr hlike)
  nodup := h.nodup
  unitsNodup i p hp := by
    obtain ⟨p', hp', hlike'⟩ := of_like_setRequest hr hlike hp
    exact hlike'.units.nodup (h.unitsNodup i p' hp')
  units i p hp u hu := by
    obtain ⟨p', hp', hlike'⟩ := of_like_setRequest hr hlike hp
    obtain ⟨⟨q, hq, htyp, hparent⟩, hrest⟩ := h.units i p' hp' u (hlike'.units.subset hu)
    obtain ⟨q', hq', hqlike⟩ := like_setRequest hr hlike hq
    exact ⟨⟨q', hq', hqlike.typ.trans htyp, hqlike.parentReqId.trans hparent⟩, hrest⟩
  getsNodup := h.getsNodup
  gets u ids hids b hb := by
    obtain ⟨q, hq, htyp, huuid⟩ := h.gets u ids hids b hb
    obtain ⟨q', hq', hqlike⟩ := like_setRequest hr hlike hq
    exact ⟨q', hq', hqlike.typ.trans htyp, hqlike.uuid.trans huuid⟩

/-- It moves nothing. -/
theorem moves_setRequest (hr : s.requests.lookup id = some r) (hlike : Like r r') :
    Moves s (s.setRequest id r') where
  toKeeps := .of_posted rfl rfl rfl rfl
  loose i hi := by
    refine ⟨hi.piece.setRequest hr hlike, hi.posted, hi.waiting, fun pid p hp hu => ?_⟩
    obtain ⟨p', hp', hlike'⟩ := of_like_setRequest hr hlike hp
    exact hi.units pid p' hp' (hlike'.units.subset hu)

/-! ### Posting -/

/-- An answer has arrived, and its request is in no other place. -/
theorem Sound.answered (h : Sound s) (id : ID32) : Sound (s.answered id) where
  posted i q hq := by
    obtain ⟨-, hq⟩ := Ledger.of_lookup_erase hq
    exact h.posted i q hq
  waiting i hi := by
    refine (h.waiting i hi).imp_right fun hnone => ?_
    rw [State.answered, Ledger.lookup_erase_ite, hnone, ite_self]
  nodup := h.nodup
  unitsNodup := h.unitsNodup
  units i p hp u hu := by
    refine (h.units i p hp u hu).imp_right fun hrest => ⟨?_, hrest.2⟩
    rw [State.answered, Ledger.lookup_erase_ite, hrest.1, ite_self]
  getsNodup := h.getsNodup
  gets := h.gets

/-- What was answered is nowhere. -/
theorem Sound.loose_answered (h : Sound s) {q : Post} (hq : s.posted.lookup id = some q) :
    (s.answered id).Loose id := by
  obtain ⟨r, hr, htyp, -⟩ := h.posted id q hq
  refine ⟨⟨r, hr, htyp⟩, AList.lookup_erase _ _, fun hwait => ?_, fun pid p hp hu => ?_⟩
  · rw [(h.waiting id hwait).2] at hq
    cases hq
  · rw [(h.units pid p hp id hu).2.1] at hq
    cases hq

/-- What is nowhere can be posted. -/
theorem Sound.post (h : Sound s) (hid : s.Loose id) {q : Post}
    (hsize : ∀ n, q = .getRouter n → ∀ r, s.requests.lookup id = some r → r.size = n) :
    Sound (s.post id q) where
  posted i q' hq' := by
    obtain ⟨heq, rfl⟩ | ⟨heq, hq'⟩ := Ledger.eq_or_of_lookup_insert hq'
    · obtain ⟨r, hr, htyp⟩ := hid.piece
      rw [heq]
      exact ⟨r, hr, htyp, fun n hn => hsize n hn r hr⟩
    · exact h.posted i q' hq'
  waiting i hi := by
    have hne : i ≠ id := by
      rintro rfl
      exact hid.waiting hi
    exact (h.waiting i hi).imp_right (AList.lookup_insert_ne hne).trans
  nodup := h.nodup
  unitsNodup := h.unitsNodup
  units i p hp u hu := by
    have hne : u ≠ id := by
      rintro rfl
      exact hid.units i p hp hu
    exact (h.units i p hp u hu).imp_right fun hrest =>
      ⟨(AList.lookup_insert_ne hne).trans hrest.1, hrest.2⟩
  getsNodup := h.getsNodup
  gets := h.gets

/-- A post that is none to the router. -/
theorem Loose.keeps_post (hid : s.Loose id) {q : Post} (hq : ∀ n, q ≠ .getRouter n) :
    Keeps s (s.post id q) where
  size := rfl
  negative := rfl
  waiting := rfl
  postedSize := by
    rw [State.postedSize, State.post, Ledger.total_insert_of_notMem hid.posted]
    cases q with
    | getRouter n => exact absurd rfl (hq n)
    | _ => rfl
  router i n hi := by
    rw [State.post, AList.lookup_insert_ne ?_]
    · exact hi
    · rintro rfl
      rw [hid.posted] at hi
      cases hi

/-- Another request is posted; this one is still nowhere. -/
theorem Loose.post (hi : s.Loose i) (hne : i ≠ id) {q : Post} : (s.post id q).Loose i :=
  ⟨hi.piece, (AList.lookup_insert_ne hne).trans hi.posted, hi.waiting, hi.units⟩

/-- What is nowhere can be erased. -/
theorem Sound.erase (h : Sound s) (hid : s.Loose id) : Sound (s.eraseRequest id) := by
  have hkeep : ∀ i, i ≠ id → (s.eraseRequest id).requests.lookup i = s.requests.lookup i :=
    fun i hi => AList.lookup_erase_ne hi
  have hback : ∀ i p, (s.eraseRequest id).requests.lookup i = some p →
      s.requests.lookup i = some p := by
    intro i p hp
    obtain ⟨-, hp⟩ := Ledger.of_lookup_erase hp
    exact hp
  constructor
  · intro i q hq
    rw [hkeep i ?_]
    · exact h.posted i q hq
    · rintro rfl
      cases hid.posted.symm.trans hq
  · intro i hi
    obtain ⟨⟨r, hr, htyp⟩, hnone⟩ := h.waiting i hi
    refine ⟨⟨r, (hkeep i ?_).trans hr, htyp⟩, hnone⟩
    rintro rfl
    exact hid.waiting hi
  · exact h.nodup
  · exact fun i p hp => h.unitsNodup i p (hback i p hp)
  · intro i p hp u hu
    obtain ⟨⟨r, hr, hrest⟩, hplace⟩ := h.units i p (hback i p hp) u hu
    refine ⟨⟨r, (hkeep u ?_).trans hr, hrest⟩, hplace⟩
    rintro rfl
    exact hid.units i p (hback i p hp) hu
  · exact h.getsNodup
  · intro u ids hids b hb
    obtain ⟨r, hr, htyp, huuid⟩ := h.gets u ids hids b hb
    refine ⟨r, (hkeep b ?_).trans hr, htyp, huuid⟩
    rintro rfl
    obtain ⟨r', hr', htyp'⟩ := hid.piece
    rw [hr] at hr'
    rw [← Option.some.inj hr', htyp] at htyp'
    cases htyp'

/-! ### Responding -/

/-- A response takes only requests of the IMS away. -/
structure Responds (s t : State) : Prop where
  size : t.routerGetInputSize = s.routerGetInputSize
  maxSize : t.maxRouterGetInputSize = s.maxRouterGetInputSize
  negative : t.negative = s.negative
  waiting : t.pendingRouterGetReqs = s.pendingRouterGetReqs
  posted : t.posted = s.posted
  requests : ∀ i, t.requests.lookup i = s.requests.lookup i ∨
    t.requests.lookup i = none ∧ ¬ s.IsPiece i

/-- The responses to the IMS: who waited for the object is answered and erased. -/
theorem Responds.refl (s : State) : Responds s s :=
  ⟨rfl, rfl, rfl, rfl, rfl, fun _ => .inl rfl⟩

/-- Piece requests are not answered to the IMS. -/
theorem Responds.lookup_of_isPiece (h : Responds s t) (hi : s.IsPiece i) :
    t.requests.lookup i = s.requests.lookup i :=
  (h.requests i).resolve_right fun hgone => hgone.2 hi

/-- So their sizes stay. -/
theorem Responds.pieceSize (h : Responds s t) (hi : s.IsPiece i) :
    t.pieceSize i = s.pieceSize i := by
  rw [State.pieceSize, State.pieceSize, h.lookup_of_isPiece hi]

/-- No request comes up. -/
theorem Responds.back (h : Responds s t) (hp : t.requests.lookup i = some p) :
    s.requests.lookup i = some p := by
  obtain heq | ⟨hnone, -⟩ := h.requests i
  · exact heq.symm.trans hp
  · rw [hnone] at hp
    cases hp

/-- A piece request stays one. -/
theorem Responds.isPiece (h : Responds s t) (hi : s.IsPiece i) : t.IsPiece i := by
  obtain ⟨r, hr, htyp⟩ := hi
  exact ⟨r, (h.lookup_of_isPiece ⟨r, hr, htyp⟩).trans hr, htyp⟩

/-- The budget is not touched. -/
theorem Responds.moves (h : Responds s t) : Moves s t where
  toKeeps := .of_posted h.size h.negative h.waiting h.posted
  loose i hi := by
    refine ⟨h.isPiece hi.piece, ?_, ?_, fun pid p hp => hi.units pid p (h.back hp)⟩
    · rw [h.posted]
      exact hi.posted
    · rw [h.waiting]
      exact hi.waiting

/-- All of the invariant but what it says of the gets. -/
theorem Responds.sound (h : Responds s t) (hs : Sound s)
    (hnodup : ∀ uuid ids, t.pendingImsGetRequests.lookup uuid = some ids → ids.Nodup)
    (hgets : ∀ uuid ids, t.pendingImsGetRequests.lookup uuid = some ids → ∀ b ∈ ids,
      ∃ r, t.requests.lookup b = some r ∧ r.typ = .ims ∧ r.uuid = uuid) : Sound t where
  posted i q hq := by
    rw [h.posted] at hq
    obtain ⟨r, hr, htyp, hsize⟩ := hs.posted i q hq
    exact ⟨r, (h.lookup_of_isPiece ⟨r, hr, htyp⟩).trans hr, htyp, hsize⟩
  waiting i hi := by
    rw [h.waiting] at hi
    rw [h.posted]
    exact (hs.waiting i hi).imp_left h.isPiece
  nodup := by
    rw [h.waiting]
    exact hs.nodup
  unitsNodup i p hp := hs.unitsNodup i p (h.back hp)
  units i p hp u hu := by
    obtain ⟨⟨r, hr, htyp, hparent⟩, hplace⟩ := hs.units i p (h.back hp) u hu
    rw [h.posted, h.waiting]
    exact ⟨⟨r, (h.lookup_of_isPiece ⟨r, hr, htyp⟩).trans hr, htyp, hparent⟩, hplace⟩
  getsNodup := hnodup
  gets := hgets

/-- What `send_ims_response` does to the requests. -/
theorem respondTo_spec (s : State) (ids : List ID32) :
    (s.respondTo ids).routerGetInputSize = s.routerGetInputSize ∧
    (s.respondTo ids).maxRouterGetInputSize = s.maxRouterGetInputSize ∧
    (s.respondTo ids).negative = s.negative ∧
    (s.respondTo ids).pendingRouterGetReqs = s.pendingRouterGetReqs ∧
    (s.respondTo ids).posted = s.posted ∧
    (s.respondTo ids).pendingImsGetRequests = s.pendingImsGetRequests ∧
    ∀ i, (s.respondTo ids).requests.lookup i = s.requests.lookup i ∨
      (s.respondTo ids).requests.lookup i = none ∧ i ∈ ids := by
  induction ids generalizing s with
  | nil => exact ⟨rfl, rfl, rfl, rfl, rfl, rfl, fun _ => .inl rfl⟩
  | cons b ids ih =>
    rw [respondTo]
    split_ifs with hnone
    · obtain ⟨h₁, h₂, h₃, h₄, h₅, h₆, hreq⟩ := ih s
      exact ⟨h₁, h₂, h₃, h₄, h₅, h₆, fun i => (hreq i).imp_right (.imp_right (.tail b))⟩
    · obtain ⟨h₁, h₂, h₃, h₄, h₅, h₆, hreq⟩ :=
        ih ({ s with imsReqIds := s.imsReqIds.erase b }.eraseRequest b)
      refine ⟨h₁, h₂, h₃, h₄, h₅, h₆, fun i => ?_⟩
      obtain heq | ⟨hgone, hi⟩ := hreq i
      · rw [heq, eraseRequest, Ledger.lookup_erase_ite]
        split_ifs with hib
        · exact .inr ⟨rfl, hib ▸ List.mem_cons_self⟩
        · exact .inl rfl
      · exact .inr ⟨hgone, .tail b hi⟩

/-- Who waits for an object is a request of the IMS. -/
theorem Sound.not_isPiece (h : Sound s) {ids : List ID32}
    (hids : s.pendingImsGetRequests.lookup uuid = some ids) (hi : i ∈ ids) : ¬ s.IsPiece i := by
  rintro ⟨r, hr, htyp⟩
  obtain ⟨r', hr', htyp', -⟩ := h.gets uuid ids hids i hi
  rw [hr] at hr'
  rw [← Option.some.inj hr', htyp] at htyp'
  cases htyp'

/-- The object is there, or the get has failed: who waits for it is answered. -/
theorem Sound.sendImsResponse (h : Sound s) (hstep : s.sendImsResponse uuid = some t) :
    Sound t ∧ Responds s t := by
  obtain ⟨ids, hids, rfl⟩ := Option.map_eq_some_iff.mp hstep
  obtain ⟨h₁, h₂, h₃, h₄, h₅, h₆, hreq⟩ := respondTo_spec s ids
  have hresponds : Responds s { s.respondTo ids with
      pendingImsGetRequests := (s.respondTo ids).pendingImsGetRequests.erase uuid } :=
    ⟨h₁, h₂, h₃, h₄, h₅, fun i => (hreq i).imp_right (.imp_right (h.not_isPiece hids))⟩
  have hother : ∀ u ids', ((s.respondTo ids).pendingImsGetRequests.erase uuid).lookup u =
      some ids' → u ≠ uuid ∧ s.pendingImsGetRequests.lookup u = some ids' := by
    intro u ids' hu
    rw [h₆] at hu
    obtain ⟨heq, hu⟩ := Ledger.of_lookup_erase hu
    exact ⟨heq, hu⟩
  refine ⟨hresponds.sound h (fun u ids' hu => h.getsNodup u ids' (hother u ids' hu).2)
    fun u ids' hu b hb => ?_, hresponds⟩
  obtain ⟨hne, hu'⟩ := hother u ids' hu
  obtain ⟨r, hr, htyp, huuid⟩ := h.gets u ids' hu' b hb
  refine ⟨r, ((hreq b).resolve_right fun hgone => ?_).trans hr, htyp, huuid⟩
  -- a request waits for one uuid only
  obtain ⟨r', hr', -, huuid'⟩ := h.gets uuid ids hids b hgone.2
  rw [hr] at hr'
  obtain rfl := Option.some.inj hr'
  exact hne (huuid.symm.trans huuid')

theorem Sound.handleFailedImsGetRequest (h : Sound s)
    (hstep : s.handleFailedImsGetRequest id = some t) : Sound t ∧ Responds s t := by
  rw [State.handleFailedImsGetRequest] at hstep
  cases hr : s.requests.lookup id with
  | none =>
    rw [hr] at hstep
    obtain rfl := Option.some.inj hstep
    exact ⟨h, .refl s⟩
  | some r =>
    rw [hr] at hstep
    exact h.sendImsResponse hstep

/-! ### New requests -/

/-- A new id has no request. -/
theorem getRequestId_spec {s' : State} (hid : s.getRequestId = some (s', id)) :
    s.requests.lookup id = none ∧
      s' = { s with requestCounter := Deletion.nextCounter s.requestCounter } := by
  rw [getRequestId, pocoAssert_eq_some] at hid
  obtain ⟨hnone, heq⟩ := hid
  obtain ⟨rfl, rfl⟩ := Prod.mk.inj (Option.some.inj heq)
  exact ⟨hnone, rfl⟩

/-- A request that is new is in no place. -/
theorem Sound.ne_of_fresh (h : Sound s) (hnone : s.requests.lookup id = none) :
    s.posted.lookup id = none ∧ id ∉ s.pendingRouterGetReqs ∧
      (∀ pid p, s.requests.lookup pid = some p → id ∉ p.units) ∧
      ∀ u ids, s.pendingImsGetRequests.lookup u = some ids → id ∉ ids := by
  refine ⟨?_, fun hi => ?_, fun pid p hp hu => ?_, fun u ids hids hi => ?_⟩
  · cases hq : s.posted.lookup id with
    | none => rfl
    | some q =>
      obtain ⟨r, hr, -⟩ := h.posted id q hq
      rw [hnone] at hr
      cases hr
  · obtain ⟨⟨r, hr, -⟩, -⟩ := h.waiting id hi
    rw [hnone] at hr
    cases hr
  · obtain ⟨⟨r, hr, -⟩, -⟩ := h.units pid p hp id hu
    rw [hnone] at hr
    cases hr
  · obtain ⟨r, hr, -⟩ := h.gets u ids hids id hi
    rw [hnone] at hr
    cases hr

/-- A new request without units, and a place for it if it is one of a get. -/
theorem Sound.insert (h : Sound s) (hnone : s.requests.lookup id = none) (hunits : r.units = [])
    (ht : t.requests = s.requests.insert id r) (hposted : t.posted = s.posted)
    (hwaiting : t.pendingRouterGetReqs = s.pendingRouterGetReqs)
    (hnodup : ∀ u ids, t.pendingImsGetRequests.lookup u = some ids → ids.Nodup)
    (hgets : ∀ u ids, t.pendingImsGetRequests.lookup u = some ids → ∀ b ∈ ids,
      ∃ q, t.requests.lookup b = some q ∧ q.typ = .ims ∧ q.uuid = u) : Sound t := by
  obtain ⟨hfree, hqueue, hplace, -⟩ := h.ne_of_fresh hnone
  have hkeep : ∀ i p, s.requests.lookup i = some p → t.requests.lookup i = some p := by
    intro i p hp
    rw [ht, AList.lookup_insert_ne ?_]
    · exact hp
    · rintro rfl
      rw [hnone] at hp
      cases hp
  have hback : ∀ i p, t.requests.lookup i = some p → s.requests.lookup i = some p ∨ p = r := by
    intro i p hp
    rw [ht] at hp
    obtain ⟨-, rfl⟩ | ⟨-, hp⟩ := Ledger.eq_or_of_lookup_insert hp
    · exact .inr rfl
    · exact .inl hp
  constructor
  · intro i q hq
    rw [hposted] at hq
    obtain ⟨p, hp, hrest⟩ := h.posted i q hq
    exact ⟨p, hkeep i p hp, hrest⟩
  · intro i hi
    rw [hwaiting] at hi
    rw [hposted]
    obtain ⟨⟨p, hp, htyp⟩, hrest⟩ := h.waiting i hi
    exact ⟨⟨p, hkeep i p hp, htyp⟩, hrest⟩
  · rw [hwaiting]
    exact h.nodup
  · intro i p hp
    obtain hp | rfl := hback i p hp
    · exact h.unitsNodup i p hp
    · rw [hunits]
      exact .nil
  · intro i p hp u hu
    obtain hp | rfl := hback i p hp
    · obtain ⟨⟨q, hq, hrest⟩, hother⟩ := h.units i p hp u hu
      rw [hposted, hwaiting]
      exact ⟨⟨q, hkeep u q hq, hrest⟩, hother⟩
    · rw [hunits] at hu
      cases hu
  · exact hnodup
  · exact hgets

/-- A piece request that was made is nowhere. -/
theorem Sound.newPieceRequest (h : Sound s) {n : UInt32} {encrypted : Bool}
    (hstep : s.newPieceRequest pid uuid n encrypted = some (t, id)) :
    Sound t ∧ Moves s t ∧ t.Loose id ∧ s.requests.lookup id = none ∧
      t.requests = s.requests.insert id
        { Request.new uuid .kernel with parentReqId := some pid, size := n, encrypted } := by
  obtain ⟨⟨s₁, i⟩, hs', heq⟩ := Option.map_eq_some_iff.mp hstep
  -- the id is free in every table
  obtain ⟨hnone, hs₁⟩ := getRequestId_spec hs'
  obtain ⟨rfl, rfl⟩ := Prod.mk.inj heq
  obtain ⟨hfree, hqueue, hplace, hgets⟩ := h.ne_of_fresh hnone
  have hne : ∀ j q, s.requests.lookup j = some q → j ≠ i := by
    rintro j q hq rfl
    rw [hnone] at hq
    cases hq
  obtain ⟨q, hq⟩ : ∃ q, q = { Request.new uuid .kernel with
    parentReqId := some pid, size := n, encrypted } := ⟨_, rfl⟩
  have htyp : q.typ = .kernel := by
    rw [hq]
    rfl
  have hunits : q.units = [] := by
    rw [hq]
    rfl
  rw [← hq]
  -- what the step leaves alone, field by field
  have hreq : (s₁.setRequest i q).requests = s.requests.insert i q := by
    rw [hs₁]
    rfl
  have hposted : (s₁.setRequest i q).posted = s.posted := by
    rw [hs₁]
    rfl
  have hwaiting : (s₁.setRequest i q).pendingRouterGetReqs = s.pendingRouterGetReqs := by
    rw [hs₁]
    rfl
  have hims : (s₁.setRequest i q).pendingImsGetRequests = s.pendingImsGetRequests := by
    rw [hs₁]
    rfl
  -- a request with units was there before, since the new one has none
  have hback : ∀ j p, (s₁.setRequest i q).requests.lookup j = some p → ∀ u ∈ p.units,
      s.requests.lookup j = some p := by
    intro j p hp u hu
    rw [hreq] at hp
    obtain ⟨hj, rfl⟩ | ⟨hj, hp⟩ := Ledger.eq_or_of_lookup_insert hp
    · rw [hunits] at hu
      cases hu
    · exact hp
  -- the parts of `Sound`, `Moves` and `Loose`, in their order
  refine ⟨h.insert hnone hunits hreq hposted hwaiting ?_ ?_, ⟨.of_posted ?_ ?_ hwaiting hposted,
    fun j hj => ⟨?_, ?_, ?_, fun k p hp hu => ?_⟩⟩, ⟨⟨q, ?_, htyp⟩, ?_, ?_, fun k p hp hu => ?_⟩,
    hnone, hreq⟩
  · rw [hims]
    exact h.getsNodup
  · intro u ids hids b hb
    rw [hims] at hids
    obtain ⟨p, hp, hrest⟩ := h.gets u ids hids b hb
    rw [hreq]
    exact ⟨p, (AList.lookup_insert_ne (hne b p hp)).trans hp, hrest⟩
  · rw [hs₁]
    rfl
  · rw [hs₁]
    rfl
  · obtain ⟨p, hp, htyp'⟩ := hj.piece
    rw [IsPiece, hreq]
    exact ⟨p, (AList.lookup_insert_ne (hne j p hp)).trans hp, htyp'⟩
  · rw [hposted]
    exact hj.posted
  · rw [hwaiting]
    exact hj.waiting
  · exact hj.units k p (hback k p hp j hu) hu
  · rw [hreq]
    exact AList.lookup_insert _
  · rw [hposted]
    exact hfree
  · rw [hwaiting]
    exact hqueue
  · exact hplace k p (hback k p hp i hu) hu

/-- What is nowhere becomes a unit of its parent. -/
theorem Sound.addUnit (h : Sound s) (hid : s.Loose id) (hr : s.requests.lookup id = some r)
    (hparent : r.parentReqId = some pid) (hp : s.requests.lookup pid = some p) {units : List ID32}
    (hunits : units.Perm (id :: p.units)) : Sound (s.setRequest pid { p with units }) := by
  have hlike : ∀ i q, s.requests.lookup i = some q →
      ∃ q', (s.setRequest pid { p with units }).requests.lookup i = some q' ∧ q'.typ = q.typ ∧
        q'.uuid = q.uuid ∧ q'.parentReqId = q.parentReqId ∧ q'.size = q.size := by
    intro i q hq
    exact Ledger.exists_lookup_insert_rel (R := fun q q' => q'.typ = q.typ ∧ q'.uuid = q.uuid ∧
      q'.parentReqId = q.parentReqId ∧ q'.size = q.size) (v := { p with units })
      (fun _ => ⟨rfl, rfl, rfl, rfl⟩) hp ⟨rfl, rfl, rfl, rfl⟩ hq
  have hunit : ∀ i q, (s.setRequest pid { p with units }).requests.lookup i = some q →
      (i = pid ∧ q.units = units) ∨ s.requests.lookup i = some q := by
    intro i q hq
    obtain ⟨heq, rfl⟩ | ⟨heq, hq⟩ := Ledger.eq_or_of_lookup_insert hq
    · exact .inl ⟨heq, rfl⟩
    · exact .inr hq
  constructor
  · intro i q hq
    obtain ⟨r', hr', htyp, hsize⟩ := h.posted i q hq
    obtain ⟨q', hq', htyp', -, -, hsize'⟩ := hlike i r' hr'
    exact ⟨q', hq', htyp'.trans htyp, fun n hn => hsize'.trans (hsize n hn)⟩
  · intro i hi
    obtain ⟨⟨r', hr', htyp⟩, hnone⟩ := h.waiting i hi
    obtain ⟨q', hq', htyp', -⟩ := hlike i r' hr'
    exact ⟨⟨q', hq', htyp'.trans htyp⟩, hnone⟩
  · exact h.nodup
  · intro i q hq
    obtain ⟨rfl, heq⟩ | hq := hunit i q hq
    · rw [heq, hunits.nodup_iff, List.nodup_cons]
      exact ⟨hid.units i p hp, h.unitsNodup i p hp⟩
    · exact h.unitsNodup i q hq
  · intro i q hq u hu
    have hold : (∃ r', s.requests.lookup u = some r' ∧ r'.typ = .kernel ∧
        r'.parentReqId = some i) ∧ s.posted.lookup u = none ∧ u ∉ s.pendingRouterGetReqs := by
      obtain ⟨rfl, heq⟩ | hq := hunit i q hq
      · rw [heq, hunits.mem_iff, List.mem_cons] at hu
        obtain rfl | hu := hu
        · obtain ⟨r', hr', htyp⟩ := hid.piece
          rw [hr] at hr'
          obtain rfl := Option.some.inj hr'
          exact ⟨⟨r, hr, htyp, hparent⟩, hid.posted, hid.waiting⟩
        · exact h.units i p hp u hu
      · exact h.units i q hq u hu
    obtain ⟨⟨r', hr', htyp, hparent'⟩, hplace⟩ := hold
    obtain ⟨q', hq', htyp', -, hpar, -⟩ := hlike u r' hr'
    exact ⟨⟨q', hq', htyp'.trans htyp, hpar.trans hparent'⟩, hplace⟩
  · exact h.getsNodup
  · intro u ids hids b hb
    obtain ⟨r', hr', htyp, huuid⟩ := h.gets u ids hids b hb
    obtain ⟨q', hq', htyp', huuid', -⟩ := hlike b r' hr'
    exact ⟨q', hq', htyp'.trans htyp, huuid'.trans huuid⟩

/-- **The loop over the pieces** makes a request for each, which is a unit of the get and nowhere
else. -/
theorem Sound.constructGetRequests (h : Sound s) {qs : List PieceJson} {b : Bool}
    (hstep : State.constructGetRequests pid s qs = some (t, b)) : Sound t ∧ Moves s t := by
  induction qs generalizing s with
  | nil =>
    obtain ⟨rfl, -⟩ := Prod.mk.inj (Option.some.inj hstep)
    exact ⟨h, .refl s⟩
  | cons q qs ih =>
    rw [State.constructGetRequests] at hstep
    cases hsize : q.size with
    | none =>
      rw [hsize] at hstep
      obtain ⟨rfl, -⟩ := Prod.mk.inj (Option.some.inj hstep)
      exact ⟨h, .refl s⟩
    | some n =>
      rw [hsize] at hstep
      obtain ⟨⟨s₁, id⟩, hnew, hrest⟩ := Option.bind_eq_some_iff.mp hstep
      obtain ⟨p, hp, hloop⟩ := Option.bind_eq_some_iff.mp hrest
      obtain ⟨hs₁, hmoves, hloose, hnone, hreq⟩ := h.newPieceRequest hnew
      have hr := (congrArg (AList.lookup id) hreq).trans (AList.lookup_insert s.requests)
      obtain ⟨hs₂, hmoves₂⟩ := ih (hs₁.addUnit hloose hr rfl hp (List.perm_orderedInsert _ _ _))
        hloop
      have hkeeps : Keeps s₁ (s₁.setRequest pid
          { p with units := p.units.orderedInsert (· ≤ ·) id }) := .of_posted rfl rfl rfl rfl
      refine ⟨hs₂, Moves.trans ⟨hmoves.toKeeps.trans hkeeps, fun i hi => ?_⟩ hmoves₂⟩
      have hi₁ := hmoves.loose i hi
      have hne : i ≠ id := by
        rintro rfl
        obtain ⟨r', hr', -⟩ := hi.piece
        rw [hnone] at hr'
        cases hr'
      constructor
      · obtain ⟨r', hr', htyp⟩ := hi₁.piece
        rw [IsPiece, State.setRequest, Ledger.lookup_insert_ite]
        split_ifs with heq
        · rw [heq, hp] at hr'
          obtain rfl := Option.some.inj hr'
          exact ⟨_, rfl, htyp⟩
        · exact ⟨r', hr', htyp⟩
      · exact hi₁.posted
      · exact hi₁.waiting
      · intro k p' hp' hu
        obtain ⟨heq, rfl⟩ | ⟨heq, hp'⟩ := Ledger.eq_or_of_lookup_insert hp'
        · obtain rfl | hu := List.mem_cons.mp ((List.perm_orderedInsert _ _ _).mem_iff.mp hu)
          · exact hne rfl
          · exact hi₁.units pid p hp hu
        · exact hi₁.units k p' hp' hu

/-! ### Pieces -/

/-- The next unit is asked for at the storage. -/
theorem Sound.postStorageNextPieceGetRequest (h : Sound s) (hp : s.requests.lookup pid = some p)
    (hstep : s.postStorageNextPieceGetRequest pid p = some t) : Sound t ∧ Moves s t := by
  rw [State.postStorageNextPieceGetRequest.eq_def] at hstep
  cases hunits : p.units with
  | nil =>
    rw [hunits] at hstep
    obtain rfl := Option.some.inj hstep
    exact ⟨h, .refl s⟩
  | cons b units =>
    rw [hunits] at hstep
    obtain ⟨-, heq⟩ := pocoAssert_eq_some.mp hstep
    obtain rfl := Option.some.inj heq
    obtain ⟨p', hp'⟩ : ∃ p' : Request, p' = { p with units } := ⟨_, rfl⟩
    have hlike : Like p p' := by
      rw [hp']
      refine ⟨rfl, rfl, rfl, rfl, ?_⟩
      rw [hunits]
      exact List.sublist_cons_self b units
    have hb : b ∈ p.units := by
      rw [hunits]
      exact List.mem_cons_self
    obtain ⟨⟨r, hr, htyp, hparent⟩, hnone, hqueue⟩ := h.units pid p hp b hb
    rw [← hp']
    have hset : Sound (s.setRequest pid p') := h.setRequest hp hlike
    have hloose : (s.setRequest pid p').Loose b := by
      refine ⟨IsPiece.setRequest hp hlike ⟨r, hr, htyp⟩, hnone, hqueue, fun k q hq hu => ?_⟩
      obtain ⟨q', hq', hlike'⟩ := of_like_setRequest hp hlike hq
      obtain ⟨⟨r', hr', -, hparent'⟩, -⟩ := h.units k q' hq' b (hlike'.units.subset hu)
      -- the parent of the piece is the only request that has it as a unit, and has it once
      rw [hr] at hr'
      obtain rfl := Option.some.inj hr'
      obtain rfl := Option.some.inj (hparent.symm.trans hparent')
      rw [State.setRequest, AList.lookup_insert] at hq
      rw [← Option.some.inj hq, hp'] at hu
      have hnodup := h.unitsNodup pid p hp
      rw [hunits, List.nodup_cons] at hnodup
      exact hnodup.1 hu
    refine ⟨hset.post hloose (by simp), (moves_setRequest hp hlike).toKeeps.trans
      (hloose.keeps_post (by simp)), fun i hi => ?_⟩
    refine Loose.post ((moves_setRequest hp hlike).loose i hi) ?_
    rintro rfl
    exact hi.units pid p hp hb

/-- A piece is crossed out, and the get is answered after the last one. -/
theorem Sound.writeDataToStream (h : Sound s) (hp : s.requests.lookup pid = some p)
    (hstep : s.writeDataToStream pid p uuid = some t) : Sound t ∧ Moves s t := by
  obtain ⟨-, hrest⟩ := pocoAssert_eq_some.mp hstep
  have hlike : Like p { p with pieces := p.pieces.erase uuid } := ⟨rfl, rfl, rfl, rfl, .refl _⟩
  have hmoves := moves_setRequest hp hlike
  dsimp only at hrest
  split_ifs at hrest
  · obtain ⟨ht, hresponds⟩ := (h.setRequest hp hlike).sendImsResponse hrest
    exact ⟨ht, hmoves.trans hresponds.moves⟩
  · obtain rfl := Option.some.inj hrest
    exact ⟨h.setRequest hp hlike, hmoves⟩

/-- The same, unless the get streams. -/
theorem Sound.processUnencryptedPiece (h : Sound s) (hp : s.requests.lookup pid = some p)
    (hstep : s.processUnencryptedPiece pid p uuid = some t) : Sound t ∧ Moves s t := by
  rw [State.processUnencryptedPiece] at hstep
  split_ifs at hstep
  · obtain rfl := Option.some.inj hstep
    exact ⟨h, .refl s⟩
  · exact h.writeDataToStream hp hstep

/-- The budget does not depend on the requests. -/
theorem keeps_erase (s : State) (id : ID32) : Keeps s (s.eraseRequest id) :=
  .of_posted rfl rfl rfl rfl

/-- The data of a piece whose parent is there. -/
theorem Sound.processErase (h : Sound s) (hid : s.Loose id) (hp : s.requests.lookup pid = some p)
    (hstep : (s.processUnencryptedPiece pid p uuid).map (·.eraseRequest id) = some t) :
    Sound t ∧ Keeps s t := by
  obtain ⟨s₁, hs₁, rfl⟩ := Option.map_eq_some_iff.mp hstep
  obtain ⟨hsound, hmoves⟩ := h.processUnencryptedPiece hp hs₁
  exact ⟨hsound.erase (hmoves.loose id hid), hmoves.toKeeps.trans (keeps_erase s₁ id)⟩

/-- **A piece arrives**: its request, which is nowhere now, goes to the key manager or is erased. -/
theorem Sound.handlePiece (h : Sound s) (hid : s.Loose id)
    (hstep : s.handlePiece id r = some t) : Sound t ∧ Keeps s t := by
  rw [State.handlePiece.eq_def] at hstep
  split at hstep
  · obtain rfl := Option.some.inj hstep
    exact ⟨h.erase hid, keeps_erase s id⟩
  · next pid p heq =>
    obtain ⟨k, -, hk⟩ := Option.bind_eq_some_iff.mp heq
    obtain ⟨q, hq, hpair⟩ := Option.map_eq_some_iff.mp hk
    obtain ⟨rfl, rfl⟩ := Prod.mk.inj hpair
    obtain ⟨s₁, hs₁, hrest⟩ := Option.bind_eq_some_iff.mp hstep
    obtain ⟨hsound, hmoves⟩ := h.postStorageNextPieceGetRequest hq hs₁
    have hloose := hmoves.loose id hid
    split_ifs at hrest
    · obtain rfl := Option.some.inj hrest
      exact ⟨hsound.post hloose (by simp), hmoves.toKeeps.trans (hloose.keeps_post (by simp))⟩
    · obtain ⟨p', hp', hprocess⟩ := Option.bind_eq_some_iff.mp hrest
      exact (hsound.processErase hloose hp' hprocess).imp_right hmoves.toKeeps.trans

/-- A piece that was decrypted. -/
theorem Sound.handleGetRequestAfterDecrypt (h : Sound s) (hid : s.Loose id)
    (hstep : s.handleGetRequestAfterDecrypt id r = some t) : Sound t ∧ Keeps s t := by
  rw [State.handleGetRequestAfterDecrypt.eq_def] at hstep
  split at hstep
  · obtain rfl := Option.some.inj hstep
    exact ⟨h.erase hid, keeps_erase s id⟩
  · next pid p heq =>
    obtain ⟨k, -, hk⟩ := Option.bind_eq_some_iff.mp heq
    obtain ⟨q, hq, hpair⟩ := Option.map_eq_some_iff.mp hk
    obtain ⟨rfl, rfl⟩ := Prod.mk.inj hpair
    exact h.processErase hid hq hstep

/-- A piece that cannot be, and the get fails with it. -/
theorem Sound.handleKeyManagerFailedGetRequest (h : Sound s) (hid : s.Loose id)
    (hstep : s.handleKeyManagerFailedGetRequest id r = some t) : Sound t ∧ Keeps s t := by
  rw [State.handleKeyManagerFailedGetRequest] at hstep
  cases hparent : r.parentReqId with
  | none =>
    rw [hparent] at hstep
    obtain rfl := Option.some.inj hstep
    exact ⟨h.erase hid, keeps_erase s id⟩
  | some pid =>
    rw [hparent] at hstep
    obtain ⟨hsound, hresponds⟩ := (h.erase hid).handleFailedImsGetRequest hstep
    exact ⟨hsound, (keeps_erase s id).trans hresponds.moves.toKeeps⟩

/-! ### Master objects -/

/-- The first units are asked for at the same time. -/
theorem Sound.postStorageFirstPieces (h : Sound s) {n : ℕ}
    (hstep : State.postStorageFirstPieces pid s n = some t) : Sound t ∧ Moves s t := by
  induction n generalizing s with
  | zero =>
    obtain rfl := Option.some.inj hstep
    exact ⟨h, .refl s⟩
  | succ n ih =>
    obtain ⟨p, hp, hrest⟩ := Option.bind_eq_some_iff.mp hstep
    obtain ⟨s₁, hs₁, hloop⟩ := Option.bind_eq_some_iff.mp hrest
    obtain ⟨hsound, hmoves⟩ := h.postStorageNextPieceGetRequest hp hs₁
    exact (ih hsound hloop).imp_right hmoves.trans

/-- The master object has pieces: their requests are made and the first ones asked for. -/
theorem Sound.startGettingPieces (h : Sound s) (hr : s.requests.lookup id = some r)
    {qs : List PieceJson} (hstep : s.startGettingPieces id r qs = some t) :
    Sound t ∧ Keeps s t := by
  rw [State.startGettingPieces] at hstep
  split_ifs at hstep
  · exact (h.sendImsResponse hstep).imp_right fun hresponds => hresponds.moves.toKeeps
  · have hlike : Like r { r with pieces := qs.map (·.uuid) } := ⟨rfl, rfl, rfl, rfl, .refl _⟩
    have hset := moves_setRequest hr hlike
    obtain ⟨⟨s₁, done⟩, hs₁, hrest⟩ := Option.bind_eq_some_iff.mp hstep
    obtain ⟨hsound, hmoves⟩ := (h.setRequest hr hlike).constructGetRequests hs₁
    dsimp only at hrest
    split_ifs at hrest
    · exact (hsound.postStorageFirstPieces hrest).imp_right fun hfirst =>
        ((hset.trans hmoves).trans hfirst).toKeeps
    · exact (hsound.handleFailedImsGetRequest hrest).imp_right fun hresponds =>
        ((hset.trans hmoves).trans hresponds.moves).toKeeps

/-- The object is a stream, for everybody who waits for it. -/
theorem Sound.startStreaming (h : Sound s) (ids : List ID32) :
    Sound (s.startStreaming ids) ∧ Moves s (s.startStreaming ids) := by
  induction ids generalizing s with
  | nil => exact ⟨h, .refl s⟩
  | cons b ids ih =>
    rw [State.startStreaming]
    cases hr : s.requests.lookup b with
    | none => exact ih h
    | some r =>
      have hlike : Like r { r with streaming := true } := ⟨rfl, rfl, rfl, rfl, .refl _⟩
      exact (ih (h.setRequest hr hlike)).imp_right (moves_setRequest hr hlike).trans

/-- The master object was read: an object that is whole, or one in pieces. -/
theorem Sound.handleUnencryptedMasterObject (h : Sound s) (hr : s.requests.lookup id = some r)
    {m : Option Master} (hstep : s.handleUnencryptedMasterObject id r m = some t) :
    Sound t ∧ Keeps s t := by
  cases m with
  | none =>
    exact (h.handleFailedImsGetRequest hstep).imp_right fun hresponds => hresponds.moves.toKeeps
  | some m =>
    cases m with
    | playlist =>
      exact (h.sendImsResponse hstep).imp_right fun hresponds => hresponds.moves.toKeeps
    | stream =>
      obtain ⟨ids, -, rfl⟩ := Option.map_eq_some_iff.mp hstep
      exact (h.startStreaming ids).imp_right Moves.toKeeps
    | file qs => exact h.startGettingPieces hr hstep

/-! ### The IMS -/

/-- A get of the IMS, alone or with others for the same object. -/
theorem Sound.handleImsGetRequest (h : Sound s) {ims : ID32}
    (hstep : s.handleImsGetRequest ims uuid = some t) : Sound t ∧ Keeps s t := by
  obtain ⟨⟨s₁, i⟩, hs', hrest⟩ := Option.bind_eq_some_iff.mp hstep
  obtain ⟨hnone, hs₁⟩ := getRequestId_spec hs'
  obtain ⟨-, hadd⟩ := pocoAssert_eq_some.mp hrest
  obtain ⟨-, -, -, hfresh⟩ := h.ne_of_fresh hnone
  -- the list of the uuid with the new request at its end
  have hmain : ∀ (q : Request) (ids : List ID32), q.units = [] → q.typ = .ims → q.uuid = uuid →
      (ids = [] ∨ s.pendingImsGetRequests.lookup uuid = some ids) →
      t = { s₁ with
        imsReqIds := s₁.imsReqIds.insert i ims
        requests := s₁.requests.insert i q
        pendingImsGetRequests := s₁.pendingImsGetRequests.insert uuid (ids ++ [i]) } →
      Sound t ∧ Keeps s t := by
    intro q ids hunits htyp huuid hids ht
    rw [hs₁] at ht
    have hold : ids.Nodup ∧ i ∉ ids ∧ ∀ b ∈ ids, ∃ r, s.requests.lookup b = some r ∧
        r.typ = .ims ∧ r.uuid = uuid := by
      obtain rfl | hids := hids
      · exact ⟨.nil, List.not_mem_nil, List.forall_mem_nil _⟩
      · exact ⟨h.getsNodup uuid ids hids, hfresh uuid ids hids, h.gets uuid ids hids⟩
    have hlookup : ∀ u ids', t.pendingImsGetRequests.lookup u = some ids' →
        u = uuid ∧ ids' = ids ++ [i] ∨ s.pendingImsGetRequests.lookup u = some ids' := by
      intro u ids' hu
      rw [ht] at hu
      obtain ⟨heq, rfl⟩ | ⟨-, hu⟩ := Ledger.eq_or_of_lookup_insert hu
      · exact .inl ⟨heq, rfl⟩
      · exact .inr hu
    have hreq : t.requests = s.requests.insert i q := by
      rw [ht]
    have hkeep : ∀ b r, s.requests.lookup b = some r → t.requests.lookup b = some r := by
      intro b r hr
      rw [hreq, AList.lookup_insert_ne ?_]
      · exact hr
      · rintro rfl
        rw [hnone] at hr
        cases hr
    refine ⟨h.insert hnone hunits hreq (by rw [ht]) (by rw [ht]) ?_ ?_,
      .of_posted (by rw [ht]) (by rw [ht]) (by rw [ht]) (by rw [ht])⟩
    · intro u ids' hu
      obtain ⟨-, rfl⟩ | hu := hlookup u ids' hu
      · exact hold.1.append (List.nodup_singleton i) (List.disjoint_singleton.mpr hold.2.1)
      · exact h.getsNodup u ids' hu
    · intro u ids' hu b hb
      obtain ⟨rfl, rfl⟩ | hu := hlookup u ids' hu
      · obtain hb | hb := List.mem_append.mp hb
        · obtain ⟨r, hr, hrest⟩ := hold.2.2 b hb
          exact ⟨r, hkeep b r hr, hrest⟩
        · obtain rfl := List.mem_singleton.mp hb
          exact ⟨q, by rw [hreq, AList.lookup_insert], htyp, huuid⟩
      · obtain ⟨r, hr, hrest⟩ := h.gets u ids' hu b hb
        exact ⟨r, hkeep b r hr, hrest⟩
  have hpending : s₁.pendingImsGetRequests = s.pendingImsGetRequests := by
    rw [hs₁]
  cases hids : s₁.pendingImsGetRequests.lookup uuid with
  | none =>
    dsimp only at hadd
    rw [hids] at hadd
    exact hmain { Request.new uuid .ims with awaits := true } [] rfl rfl rfl (.inl rfl)
      (Option.some.inj hadd).symm
  | some ids =>
    dsimp only at hadd
    rw [hids] at hadd
    rw [hpending] at hids
    exact hmain _ ids rfl rfl rfl (.inr hids) (Option.some.inj hadd).symm

/-- The IMS does not want the object any more. -/
theorem Sound.handleImsCleanStreamRequest (h : Sound s)
    (hstep : s.handleImsCleanStreamRequest id = some t) : Sound t ∧ Keeps s t := by
  obtain ⟨r, hr, hrest⟩ := Option.bind_eq_some_iff.mp hstep
  obtain ⟨ids, hids, hclean⟩ := Option.bind_eq_some_iff.mp hrest
  obtain ⟨hmem, heq⟩ := pocoAssert_eq_some.mp hclean
  have ht := (Option.some.inj heq).symm
  have hresponds : Responds s t := by
    rw [ht]
    refine ⟨rfl, rfl, rfl, rfl, rfl, fun i => ?_⟩
    rw [eraseRequest, Ledger.lookup_erase_ite]
    split_ifs with hi
    · exact .inr ⟨rfl, hi ▸ h.not_isPiece hids hmem⟩
    · exact .inl rfl
  -- what is left of the lists is without the request
  have hlookup : ∀ u ids', t.pendingImsGetRequests.lookup u = some ids' → ∃ ids₀,
      s.pendingImsGetRequests.lookup u = some ids₀ ∧ ids'.Sublist ids₀ ∧ id ∉ ids' := by
    intro u ids' hu
    have hother : ∀ ids₀, u ≠ r.uuid → s.pendingImsGetRequests.lookup u = some ids₀ →
        id ∉ ids₀ := by
      intro ids₀ hne hids₀ hid
      obtain ⟨r', hr', -, huuid⟩ := h.gets u ids₀ hids₀ id hid
      rw [hr] at hr'
      exact hne ((congrArg Request.uuid (Option.some.inj hr')).trans huuid).symm
    rw [ht] at hu
    dsimp only at hu
    split_ifs at hu
    · obtain ⟨heq, hu⟩ := Ledger.of_lookup_erase hu
      exact ⟨ids', hu, .refl _, hother ids' heq hu⟩
    · obtain ⟨rfl, rfl⟩ | ⟨heq, hu⟩ := Ledger.eq_or_of_lookup_insert hu
      · exact ⟨ids, hids, List.erase_sublist, (h.getsNodup _ ids hids).not_mem_erase⟩
      · exact ⟨ids', hu, .refl _, hother ids' heq hu⟩
  refine ⟨hresponds.sound h (fun u ids' hu => ?_) fun u ids' hu b hb => ?_,
    hresponds.moves.toKeeps⟩
  · obtain ⟨ids₀, hids₀, hsub, -⟩ := hlookup u ids' hu
    exact hsub.nodup (h.getsNodup u ids₀ hids₀)
  · obtain ⟨ids₀, hids₀, hsub, hid⟩ := hlookup u ids' hu
    obtain ⟨r', hr', hrest⟩ := h.gets u ids₀ hids₀ b (hsub.subset hb)
    refine ⟨r', ?_, hrest⟩
    have hne : b ≠ id := by
      rintro rfl
      exact hid hb
    rw [ht]
    exact (AList.lookup_erase_ne hne).trans hr'

end State

end Getting

end Metax
