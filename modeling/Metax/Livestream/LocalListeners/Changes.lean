import Metax.Livestream.LocalListeners.Invariant

/-!
# Local listeners: what changes the lists

A client starts, a client leaves, a livestream ends. For each of them there is a structure that says
what becomes of the state (`Joins`, `Leaves`, `Ends`), a lemma that the function of the kernel does
that, and what follows for the invariant. A client that leaves is the hard one: `Leaves` covers both
ways in which its request goes.

What a lemma has to show is the same each time: that every live request is still in the list of its
livestream, and that the first of a list is the one that asked.
-/

namespace Metax

namespace LocalListeners

open Ledger (Table)

variable {hosted : UUID → Bool} {s t : State} {L : List (ID32 × UUID)} {id i ims : ID32}
  {u v : UUID}

/-! ### A client that starts -/

/-- What `handle_ims_get_request` does: the request comes to the end of the list, and asks the
storage if it is the first. -/
structure Joins (hosted : UUID → Bool) (s t : State) (id ims : ID32) (u : UUID) : Prop where
  requests : t.requests = s.requests.insert id ⟨u, .lookupInDb, .get, false⟩
  imsReqIds : t.imsReqIds = s.imsReqIds.insert id ims
  members : ∀ v, t.members v = if v = u then s.members u ++ [id] else s.members v
  nonempty : ∀ v, t.pendingImsGetRequests.lookup v = some [] →
    s.pendingImsGetRequests.lookup v = some []
  lookUps : t.lookUps =
    if hosted u = false ∧ s.members u = [] then s.lookUps.insert id u else s.lookUps
  tenders : t.tenders = s.tenders
  out : ∀ m ∈ t.out, m ∈ s.out ∨ m = .lookUp id u

/-- The list of a livestream after another one was put in its place. -/
theorem members_insert {p : Table UUID (List ID32)} {l : List ID32} :
    ((p.insert u l).lookup v).getD [] = if v = u then l else (p.lookup v).getD [] := by
  rw [Ledger.lookup_insert_ite]
  split_ifs
  · rfl
  · rfl

theorem lookup_insert_nil {p : Table UUID (List ID32)} {l : List ID32} (hl : l ≠ [])
    (h : (p.insert u l).lookup v = some []) : p.lookup v = some [] := by
  obtain ⟨-, hnil⟩ | ⟨-, h⟩ := Ledger.eq_or_of_lookup_insert h
  · exact absurd hnil hl
  · exact h

/-- The list of a livestream after it was shortened, where no empty list is kept. -/
theorem members_shrink {p : Table UUID (List ID32)} {l : List ID32} :
    ((if l = [] then p.erase u else p.insert u l).lookup v).getD [] =
      if v = u then l else (p.lookup v).getD [] := by
  by_cases hnil : l = []
  · rw [if_pos hnil, hnil, Ledger.lookup_erase_ite]
    split_ifs
    · rfl
    · rfl
  · rw [if_neg hnil]
    exact members_insert

theorem lookup_shrink_nil {p : Table UUID (List ID32)} {l : List ID32}
    (h : (if l = [] then p.erase u else p.insert u l).lookup v = some []) :
    p.lookup v = some [] := by
  split_ifs at h with hnil
  · exact (Ledger.of_lookup_erase h).2
  · exact lookup_insert_nil hnil h

theorem joins (hosted : UUID → Bool) (h : Served s L) (id ims : ID32) (u : UUID) :
    Joins hosted s (s.handleImsGetRequest hosted id ims u) id ims u := by
  rw [State.handleImsGetRequest]
  split_ifs with hu
  · rw [State.processHostedLivestreamGetRequest]
    constructor
    · rfl
    · rfl
    · exact fun v => members_insert
    · exact fun v => lookup_insert_nil (List.append_ne_nil_of_right_ne_nil _ (List.cons_ne_nil _ _))
    · rw [if_neg fun hand => Bool.false_ne_true (hand.1.symm.trans hu)]
    · rfl
    · exact fun m hm => .inl hm
  · rw [State.processImsGetRequest.eq_def]
    dsimp only
    cases hl : s.pendingImsGetRequests.lookup u with
    | none =>
      have hnil := h.pending_eq_none.mp hl
      constructor
      · rfl
      · rfl
      · intro v
        rw [hnil]
        exact members_insert
      · exact fun v => lookup_insert_nil (List.cons_ne_nil _ _)
      · rw [if_pos ⟨Bool.eq_false_of_not_eq_true hu, hnil⟩]
        rfl
      · rfl
      · intro m hm
        rcases List.mem_append.mp hm with hm | hm
        · exact .inl hm
        · exact .inr (List.mem_singleton.mp hm)
    | some l =>
      have hmem : s.members u = l := by
        rw [State.members, hl]
        rfl
      have hne : s.members u ≠ [] := by
        rw [Ne, ← h.pending_eq_none, hl]
        exact Option.some_ne_none l
      constructor
      · rfl
      · rfl
      · intro v
        rw [hmem]
        exact members_insert
      · exact fun v =>
          lookup_insert_nil (List.append_ne_nil_of_right_ne_nil _ (List.cons_ne_nil _ _))
      · rw [if_neg fun hand => hne hand.2]
      · rfl
      · exact fun m hm => .inl hm

/-- No request stands for a client that is free. -/
theorem not_serves_of_fresh (hnew : s.requestOfIms ims = none) : ¬ s.Serves i ims u := by
  rintro ⟨hims, -⟩
  rw [State.requestOfIms, Option.map_eq_none_iff, List.find?_eq_none] at hnew
  exact hnew ⟨i, ims⟩ (AList.mem_lookup_iff.mp hims) (decide_eq_true rfl)

/-- The requests that stand for clients after one started. -/
theorem Joins.serves_iff (h : Joins hosted s t id ims u) (hnew : s.requests.lookup id = none)
    (m : ID32) : t.Serves i m v ↔ i = id ∧ m = ims ∧ v = u ∨ s.Serves i m v := by
  rw [State.Serves, State.Serves, h.requests, h.imsReqIds, Ledger.lookup_insert_ite,
    Ledger.lookup_insert_ite]
  split_ifs with hi
  · rw [hi, hnew]
    simp [eq_comm]
  · simp [hi]

theorem Joins.served (h : Joins hosted s t id ims u) (hs : Served s L) (hnew : Fresh s id ims) :
    Served t (L ++ [(ims, u)]) := by
  obtain ⟨hreq, hims, -, hfree⟩ := hnew
  -- the new id is in no list
  have hnot : ∀ v, id ∉ s.members v := by
    intro v hmem
    obtain ⟨r, hr, -⟩ := hs.request_of_mem hmem
    rw [hreq] at hr
    cases hr
  constructor
  -- a request and its record come together
  · intro i
    rw [h.requests, h.imsReqIds, Ledger.lookup_insert_ite, Ledger.lookup_insert_ite]
    split_ifs
    · simp
    · exact hs.aligned i
  · exact fun v hv => hs.nonempty v (h.nonempty v hv)
  · intro v
    rw [h.members]
    split_ifs
    · exact (hs.nodup u).append (List.nodup_singleton id) (List.disjoint_singleton.mpr (hnot u))
    · exact hs.nodup v
  -- the list of the stream has one more
  · intro v i
    simp only [h.members, h.serves_iff hreq]
    split_ifs with hv
    · rw [List.mem_append, List.mem_singleton, hs.mem_iff]
      simp only [hv, and_true]
      constructor
      · rintro (⟨m, hm⟩ | rfl)
        · exact ⟨m, .inr hm⟩
        · exact ⟨ims, .inl ⟨rfl, rfl⟩⟩
      · rintro ⟨m, ⟨hi, -⟩ | hm⟩
        · exact .inr hi
        · exact .inl ⟨m, hm⟩
    · rw [hs.mem_iff]
      simp only [hv, and_false, false_or]
  -- the new client is served by the new request only
  · intro i j m v w hi hj
    rw [h.serves_iff hreq] at hi hj
    obtain ⟨rfl, rfl, -⟩ | hi := hi
    · obtain ⟨rfl, -, -⟩ | hj := hj
      · rfl
      · exact absurd hj (not_serves_of_fresh hfree)
    · obtain ⟨-, rfl, -⟩ | hj := hj
      · exact absurd hi (not_serves_of_fresh hfree)
      · exact hs.inj i j m v w hi hj
  · intro m v
    simp only [List.mem_append, List.mem_singleton, Prod.mk.injEq, h.serves_iff hreq, hs.open_iff]
    constructor
    · rintro (⟨i, hi⟩ | ⟨rfl, rfl⟩)
      · exact ⟨i, .inr hi⟩
      · exact ⟨id, .inl ⟨rfl, rfl, rfl⟩⟩
    · rintro ⟨i, ⟨-, hm, hv⟩ | hi⟩
      · exact .inr ⟨hm, hv⟩
      · exact .inl ⟨i, hi⟩
  -- and it did not listen to anything
  · refine hs.open_nodup.append (List.nodup_singleton _) ?_
    refine List.disjoint_singleton.mpr fun hmem => ?_
    obtain ⟨i, hi⟩ := (hs.open_iff ims u).mp hmem
    exact not_serves_of_fresh hfree hi

/-- The first of a list stays the first. -/
theorem Joins.head (h : Joins hosted s t id ims u) (hhead : (s.members v).head? = some i) :
    (t.members v).head? = some i := by
  rw [h.members]
  split_ifs with hv
  · rw [List.head?_append, ← hv, hhead]
    rfl
  · exact hhead

theorem Joins.owned (h : Joins hosted s t id ims u) (hinv : Inv hosted s L)
    (hnew : Fresh s id ims) : Owned hosted t := by
  obtain ⟨hreq, -, hlookUp, -⟩ := hnew
  -- what was looked up still is
  have hasked : ∀ i v, s.lookUps.lookup i = some v → t.lookUps.lookup i = some v := by
    intro i v hi
    rw [h.lookUps]
    split_ifs
    · rw [AList.lookup_insert_ne ?_]
      · exact hi
      · rintro rfl
        rw [hlookUp] at hi
        cases hi
    · exact hi
  -- the router has nothing under the new id, since no list has it
  have htender : s.tenders.lookup id = none := by
    by_contra hne
    obtain ⟨v, hv⟩ := Option.ne_none_iff_exists'.mp hne
    have hmem := List.mem_of_head? (hinv.owned.tender id v hv).2
    obtain ⟨r, hr, -⟩ := hinv.served.request_of_mem hmem
    rw [hreq] at hr
    cases hr
  constructor
  -- the first of a list: the new request, if the list was empty, and else the one of before
  · intro v i hv hhead
    rw [h.tenders]
    by_cases hfirst : v = u ∧ s.members u = []
    · obtain ⟨rfl, hnil⟩ := hfirst
      rw [h.members, if_pos rfl, hnil, List.nil_append, List.head?_cons] at hhead
      rw [h.lookUps, if_pos ⟨hv, hnil⟩, ← Option.some.inj hhead]
      exact .inl (AList.lookup_insert _)
    · have hold : (s.members v).head? = some i := by
        rw [h.members] at hhead
        split_ifs at hhead with hvu
        · obtain ⟨j, hj⟩ := Option.ne_none_iff_exists'.mp
            (mt List.head?_eq_none_iff.mp fun hnil => hfirst ⟨hvu, hnil⟩)
          rw [List.head?_append, hj] at hhead
          rw [hvu, hj]
          exact hhead
        · exact hhead
      exact (hinv.owned.owner v i hv hold).imp_left (hasked i v)
  -- what the router has in hand is the first of its list
  · intro i v hi
    rw [h.tenders] at hi
    obtain ⟨hv, hhead⟩ := hinv.owned.tender i v hi
    exact ⟨hv, h.head hhead⟩
  · intro i v r hi hr
    rw [h.requests] at hr
    rw [h.tenders]
    obtain ⟨rfl, rfl⟩ | ⟨hid, hr⟩ := Ledger.eq_or_of_lookup_insert hr
    · -- the new request has a look-up only if it is the first
      rw [h.lookUps] at hi
      split_ifs at hi with hfirst
      · rw [AList.lookup_insert] at hi
        obtain rfl : u = v := Option.some.inj hi
        rw [h.members, if_pos rfl, hfirst.2]
        exact ⟨rfl, hfirst.1, rfl, htender, rfl⟩
      · rw [hlookUp] at hi
        cases hi
    · have hi' : s.lookUps.lookup i = some v := by
        rw [h.lookUps] at hi
        split_ifs at hi
        · rwa [AList.lookup_insert_ne hid] at hi
        · exact hi
      obtain ⟨huuid, hv, hhead, hnone, hst⟩ := hinv.owned.lookUp i v r hi' hr
      exact ⟨huuid, hv, h.head hhead, hnone, hst⟩

/-! ### A client that leaves -/

/-- What `handle_ims_cancel_livestream_get` does where `b` stands for the client: the request `x`
goes, and `b` goes on for the client of `x` if it is another one. -/
structure Leaves (hosted : UUID → Bool) (s t : State) (b x : ID32) (u : UUID) : Prop where
  requests : t.requests = s.requests.erase x
  imsReqIds : ∀ i, t.imsReqIds.lookup i = if i = x then none
    else if i = b then s.imsReqIds.lookup x else s.imsReqIds.lookup i
  members : ∀ v, t.members v = if v = u then (s.members u).erase x else s.members v
  nonempty : ∀ v, t.pendingImsGetRequests.lookup v = some [] →
    s.pendingImsGetRequests.lookup v = some []
  lookUps : t.lookUps = s.lookUps
  tenders : t.tenders =
    if hosted u = false ∧ s.members u = [x] then s.tenders.erase x else s.tenders
  out : t.out = s.out ++
    if hosted u = false ∧ s.members u = [x] then [.cancelLivestreamGet x, .clearRequest x] else []

/-- Without its last element a list is what it is when that is erased. -/
theorem dropLast_eq_erase {l : List ID32} (hl : l.Nodup) (h : l.getLast? = some i) :
    l.dropLast = l.erase i := by
  have hsplit : l.dropLast ++ [i] = l := List.dropLast_append_getLast? i h
  have hnot : i ∉ l.dropLast := by
    intro hmem
    rw [← hsplit] at hl
    exact List.disjoint_of_nodup_append hl hmem (List.mem_singleton_self i)
  conv_rhs => rw [← hsplit]
  rw [List.erase_append_right _ hnot, List.erase_cons_head, List.append_nil]

theorem Served.requestOfIms (h : Served s L) (hserves : s.Serves id ims u) :
    s.requestOfIms ims = some id := by
  cases hj : s.requestOfIms ims with
  | none => exact absurd hserves (not_serves_of_fresh hj)
  | some j =>
    obtain ⟨e, he, rfl⟩ := Option.map_eq_some_iff.mp hj
    have heq : e.2 = ims := by simpa using List.find?_some he
    have hlook : s.imsReqIds.lookup e.1 = some e.2 :=
      AList.mem_lookup_iff.mpr (List.mem_of_find?_eq_some he)
    rw [heq] at hlook
    obtain ⟨r, -, hr⟩ := h.serves_of_lookup hlook
    exact congrArg some (h.inj _ _ ims _ _ hr hserves)

/-- The list of a livestream, with what is known of its first and last request. -/
theorem Served.list_of_request (h : Served s L) {r : Request} (hr : s.requests.lookup id = some r) :
    ∃ l, s.pendingImsGetRequests.lookup r.uuid = some l ∧ s.members r.uuid = l ∧ l.Nodup ∧
      id ∈ l := by
  have hmem : id ∈ s.members r.uuid := h.mem_of_request hr
  obtain ⟨l, hl⟩ : ∃ l, s.pendingImsGetRequests.lookup r.uuid = some l := by
    rw [← Option.ne_none_iff_exists', Ne, h.pending_eq_none]
    exact List.ne_nil_of_mem hmem
  have hlist : s.members r.uuid = l := by
    rw [State.members, hl]
    rfl
  exact ⟨l, hl, hlist, hlist ▸ h.nodup r.uuid, hlist ▸ hmem⟩

theorem handleImsCancel_eq (hosted : UUID → Bool) {r : Request}
    (hfound : s.requestOfIms ims = some id) (hr : s.requests.lookup id = some r) :
    s.handleImsCancelLivestreamGet hosted ims =
      (s.cleanLivestreamGetRequestFromPendings r.uuid id).map fun c =>
        if hosted r.uuid = false ∧ c.last then c.state.postRouterCancelLivestreamGet c.rid
        else c.state := by
  rw [State.handleImsCancelLivestreamGet, hfound, Option.elim_some, hr, Option.elim_some]

/-- The first of several leaves, and its request goes on for the last. -/
theorem leaves_first (hosted : UUID → Bool) (h : Served s L) {r : Request} {l : List ID32}
    (hfound : s.requestOfIms ims = some id) (hr : s.requests.lookup id = some r)
    (hl : s.pendingImsGetRequests.lookup r.uuid = some l) (hlist : s.members r.uuid = l)
    (hnodup : l.Nodup) (hhead : l.head? = some id) (hlen : 1 < l.length) :
    ∃ x t, s.handleImsCancelLivestreamGet hosted ims = some t ∧ x ∈ l ∧
      (l.head? = some x → l = [x]) ∧ Leaves hosted s t id x r.uuid := by
  have hmem : id ∈ l := List.mem_of_head? hhead
  obtain ⟨e, he⟩ : ∃ e, l.getLast? = some e := by
    rw [← Option.ne_none_iff_exists', Ne, List.getLast?_eq_none_iff]
    exact List.ne_nil_of_mem hmem
  have hemem : e ∈ l := List.mem_of_getLast? he
  obtain ⟨m, hm, -⟩ := (h.mem_iff r.uuid e).mp (hlist.symm ▸ hemem)
  have hne : l ≠ [e] := by
    rintro rfl
    exact absurd hlen (lt_irrefl 1)
  have hother : e ≠ id := by
    rintro rfl
    obtain ⟨rest, rfl⟩ := List.head?_eq_some_iff.mp hhead
    cases rest with
    | nil => exact hne rfl
    | cons a rest =>
      rw [List.getLast?_cons_cons] at he
      exact (List.nodup_cons.mp hnodup).1 (List.mem_of_getLast? he)
  rw [handleImsCancel_eq hosted hfound hr, State.cleanLivestreamGetRequestFromPendings, hl,
    Option.bind_some, if_neg (not_not.mpr hmem), if_pos ⟨hhead, hlen⟩, he, Option.bind_some, hm,
    Option.map_some, Option.map_some]
  refine ⟨e, _, rfl, hemem, fun hhead' => ?_, ?_⟩
  · exact absurd (Option.some.inj (hhead'.symm.trans hhead)) hother
  · rw [if_neg fun hand => Bool.false_ne_true hand.2]
    constructor
    · rfl
    · intro i
      rw [Ledger.lookup_erase_ite, Ledger.lookup_insert_ite, hm]
    · intro v
      rw [hlist, ← dropLast_eq_erase hnodup he]
      exact members_insert
    · refine fun v => lookup_insert_nil fun hnil => ?_
      have hlength := congrArg List.length hnil
      rw [List.length_dropLast, List.length_nil] at hlength
      omega
    · rfl
    · rw [hlist, if_neg fun hand => hne hand.2]
    · rw [hlist, if_neg fun hand => hne hand.2, List.append_nil]

/-- Any other client leaves with its own request. -/
theorem leaves_own (hosted : UUID → Bool) {r : Request} {l : List ID32}
    (hfound : s.requestOfIms ims = some id) (hr : s.requests.lookup id = some r)
    (hl : s.pendingImsGetRequests.lookup r.uuid = some l) (hlist : s.members r.uuid = l)
    (hmem : id ∈ l) (hfirst : ¬ (l.head? = some id ∧ 1 < l.length)) :
    ∃ x t, s.handleImsCancelLivestreamGet hosted ims = some t ∧ x ∈ l ∧
      (l.head? = some x → l = [x]) ∧ Leaves hosted s t id x r.uuid := by
  obtain ⟨front, hfront⟩ : ∃ front, l.head? = some front := by
    rw [← Option.ne_none_iff_exists', Ne, List.head?_eq_none_iff]
    exact List.ne_nil_of_mem hmem
  have hlast : l.erase id = [] ↔ l = [id] := by
    rw [List.erase_eq_nil_iff]
    exact or_iff_right (List.ne_nil_of_mem hmem)
  have hims : ∀ i, (s.imsReqIds.erase id).lookup i = if i = id then none
      else if i = id then s.imsReqIds.lookup id else s.imsReqIds.lookup i := by
    intro i
    rw [Ledger.lookup_erase_ite]
    split_ifs
    · rfl
    · rfl
  rw [handleImsCancel_eq hosted hfound hr, State.cleanLivestreamGetRequestFromPendings, hl,
    Option.bind_some, if_neg (not_not.mpr hmem), if_neg hfirst, hfront, Option.map_some,
    Option.map_some]
  refine ⟨id, _, rfl, hmem, fun hhead => ?_, ?_⟩
  · rw [← hfront] at hhead
    obtain ⟨rest, rfl⟩ := List.head?_eq_some_iff.mp hhead
    have hlen := mt (And.intro hhead) hfirst
    rw [List.length_cons, not_lt, Nat.succ_le_succ_iff, Nat.le_zero, List.length_eq_zero_iff]
      at hlen
    rw [hlen]
  -- the router is told if nobody is left and it was asked
  by_cases htold : hosted r.uuid = false ∧ l = [id]
  · have hfront' : front = id := by
      rw [htold.2] at hfront
      exact (Option.some.inj hfront).symm
    rw [if_pos ⟨htold.1, decide_eq_true (hlast.mpr htold.2)⟩, hfront']
    constructor
    · rfl
    · exact hims
    · rw [hlist]
      exact fun v => members_shrink
    · exact fun v => lookup_shrink_nil
    · rfl
    · rw [hlist, if_pos htold]
      rfl
    · rw [hlist, if_pos htold]
      exact List.append_assoc _ _ _
  · rw [if_neg fun hand => htold ⟨hand.1, hlast.mp (of_decide_eq_true hand.2)⟩]
    constructor
    · rfl
    · exact hims
    · rw [hlist]
      exact fun v => members_shrink
    · exact fun v => lookup_shrink_nil
    · rfl
    · rw [hlist, if_neg htold]
    · rw [hlist, if_neg htold, List.append_nil]

/-- No client is refused that cancels, and what becomes of its request. -/
theorem leaves (hosted : UUID → Bool) (h : Served s L) (hserves : s.Serves id ims u) :
    ∃ x t, s.handleImsCancelLivestreamGet hosted ims = some t ∧ x ∈ s.members u ∧
      ((s.members u).head? = some x → s.members u = [x]) ∧ Leaves hosted s t id x u := by
  have hfound := h.requestOfIms hserves
  obtain ⟨-, r, hr, rfl⟩ := hserves
  obtain ⟨l, hl, hlist, hnodup, hmem⟩ := h.list_of_request hr
  rw [hlist]
  by_cases hfirst : l.head? = some id ∧ 1 < l.length
  · exact leaves_first hosted h hfound hr hl hlist hnodup hfirst.1 hfirst.2
  · exact leaves_own hosted hfound hr hl hlist hmem hfirst

/-- The requests that stand for clients after one left: for the client of `x` there is `b` now. -/
theorem Leaves.serves_iff {b x m : ID32} (h : Leaves hosted s t b x u) (hx : x ∈ s.members u)
    (hs : Served s L) (hserves : s.Serves b ims u) :
    t.Serves i m v ↔ i ≠ x ∧ if i = b then s.Serves x m v else s.Serves i m v := by
  rw [State.Serves, h.requests, h.imsReqIds, Ledger.lookup_erase_ite]
  by_cases hix : i = x
  · rw [if_pos hix]
    simp [hix]
  · rw [if_neg hix, if_neg hix]
    simp only [ne_eq, hix, not_false_eq_true, true_and]
    split_ifs with hib
    · obtain ⟨rx, hrx, hux⟩ := hs.request_of_mem hx
      obtain ⟨-, rb, hrb, hub⟩ := hserves
      rw [State.Serves, hib, hrb, hrx]
      refine and_congr_right fun _ => ?_
      constructor
      · rintro ⟨r, hr, rfl⟩
        exact ⟨rx, rfl, by rw [hux, ← hub, Option.some.inj hr]⟩
      · rintro ⟨r, hr, rfl⟩
        exact ⟨rb, rfl, by rw [hub, ← hux, Option.some.inj hr]⟩
    · exact Iff.rfl

theorem Leaves.served {b x : ID32} (h : Leaves hosted s t b x u) (hx : x ∈ s.members u)
    (hs : Served s L) (hserves : s.Serves b ims u) :
    Served t (L.filter fun p => p.1 ≠ ims) := by
  -- who serves whom after it: `b` takes over what `x` served, and `x` serves nobody
  have hiff : ∀ {i m v}, t.Serves i m v ↔
      i ≠ x ∧ if i = b then s.Serves x m v else s.Serves i m v :=
    h.serves_iff hx hs hserves
  obtain ⟨mx, hmx⟩ := (hs.mem_iff u x).mp hx
  constructor
  -- a request and its record come and go together
  · intro i
    rw [h.requests, h.imsReqIds, Ledger.lookup_erase_ite]
    by_cases hix : i = x
    · simp [hix]
    · rw [if_neg hix, if_neg hix]
      split_ifs with hib
      · obtain ⟨r, hr, -⟩ := hserves.2
        rw [hib, hr, hmx.1]
        simp
      · exact hs.aligned i
  · exact fun v hv => hs.nonempty v (h.nonempty v hv)
  · intro v
    rw [h.members]
    split_ifs
    · exact (hs.nodup u).erase x
    · exact hs.nodup v
  -- the list of a stream holds the requests that serve somebody
  · intro v i
    simp only [h.members, hiff, exists_and_left]
    by_cases hv : v = u
    · rw [if_pos hv, (hs.nodup u).mem_erase_iff, hs.mem_iff, hv]
      refine and_congr_right fun _ => ?_
      split_ifs with hib
      · rw [hib]
        exact iff_of_true ⟨ims, hserves⟩ ⟨mx, hmx⟩
      · exact Iff.rfl
    · -- neither request is in another list
      rw [if_neg hv, hs.mem_iff]
      by_cases hix : i = x
      · refine iff_of_false ?_ fun hand => hand.1 hix
        rintro ⟨m, hm⟩
        exact hv (hm.uuid_inj (hix ▸ hmx))
      · rw [and_iff_right hix]
        split_ifs with hib
        · refine iff_of_false ?_ ?_
          · rintro ⟨m, hm⟩
            exact hv (hm.uuid_inj (hib ▸ hserves))
          · rintro ⟨m, hm⟩
            exact hv (hm.uuid_inj hmx)
        · exact Iff.rfl
  -- no two requests serve the same viewer
  · intro i j m v w hi hj
    rw [hiff] at hi hj
    obtain ⟨hix, hi⟩ := hi
    obtain ⟨hjx, hj⟩ := hj
    split_ifs at hi hj with hib hjb hjb
    · rw [hib, hjb]
    · exact absurd (hs.inj j x m w v hj hi) hjx
    · exact absurd (hs.inj i x m v w hi hj) hix
    · exact hs.inj i j m v w hi hj
  -- the viewers that are left are those who did not ask to leave
  · intro m v
    rw [List.mem_filter, decide_eq_true_eq, hs.open_iff]
    simp only [hiff]
    constructor
    · rintro ⟨⟨i, hi⟩, hne⟩
      -- whoever served a viewer that is left is not the one that was served by `b`
      have hib : i ≠ b := by
        rintro rfl
        exact hne (Option.some.inj (hi.1.symm.trans hserves.1))
      by_cases hix : i = x
      · rw [hix] at hi hib
        exact ⟨b, hib.symm, by rwa [if_pos rfl]⟩
      · exact ⟨i, hix, by rwa [if_neg hib]⟩
    · rintro ⟨i, hix, hi⟩
      split_ifs at hi with hib
      · refine ⟨⟨x, hi⟩, fun heq => hix ?_⟩
        rw [hib]
        exact hs.inj b x m u v (heq ▸ hserves) hi
      · refine ⟨⟨i, hi⟩, fun heq => hib ?_⟩
        exact hs.inj i b m v u hi (heq ▸ hserves)
  · exact hs.open_nodup.filter _

/-- The first of a list stays the first unless it was the last listener. -/
theorem Leaves.head {b x : ID32} (h : Leaves hosted s t b x u)
    (hx : (s.members u).head? = some x → s.members u = [x]) (hv : v = u → s.members u ≠ [x]) :
    (t.members v).head? = (s.members v).head? := by
  rw [h.members]
  split_ifs with heq
  · rw [heq]
    cases hl : s.members u with
    | nil => rfl
    | cons a l =>
      have hax : a ≠ x := by
        rintro rfl
        refine hv heq (hx ?_)
        rw [hl, List.head?_cons]
      rw [List.erase_cons_tail (mt eq_of_beq hax)]
      rfl
  · rfl

theorem Leaves.owned {b x : ID32} (h : Leaves hosted s t b x u) (hinv : Inv hosted s L)
    (hx : (s.members u).head? = some x → s.members u = [x]) : Owned hosted t := by
  have htender : ∀ i v, t.tenders.lookup i = some v →
      s.tenders.lookup i = some v ∧ (v = u → s.members u ≠ [x]) := by
    intro i v hi
    rw [h.tenders] at hi
    split_ifs at hi with hlast
    · obtain ⟨hix, hi⟩ := Ledger.of_lookup_erase hi
      refine ⟨hi, fun heq hone => hix ?_⟩
      have hhead := (hinv.owned.tender i v hi).2
      rw [heq, hone, List.head?_cons] at hhead
      exact (Option.some.inj hhead).symm
    · refine ⟨hi, fun heq hone => hlast ⟨?_, hone⟩⟩
      exact heq ▸ (hinv.owned.tender i v hi).1
  have hrequest : ∀ i r, t.requests.lookup i = some r → i ≠ x ∧ s.requests.lookup i = some r := by
    intro i r hr
    rw [h.requests] at hr
    obtain ⟨hix, hr⟩ := Ledger.of_lookup_erase hr
    exact ⟨hix, hr⟩
  constructor
  · intro v i hv hhead
    have hkeep : v = u → s.members u ≠ [x] := by
      intro heq hone
      rw [h.members, if_pos heq, hone, List.erase_cons_head] at hhead
      cases hhead
    rw [h.head hx hkeep] at hhead
    rw [h.lookUps, h.tenders]
    refine (hinv.owned.owner v i hv hhead).imp_right fun hi => ?_
    split_ifs with hlast
    · rw [AList.lookup_erase_ne ?_]
      · exact hi
      · rintro rfl
        -- the request of the last listener is the first of its own list only
        have hmem : i ∈ s.members u := by
          rw [hlast.2]
          exact List.mem_singleton_self i
        obtain ⟨r, hr, hru⟩ := hinv.served.request_of_mem hmem
        obtain ⟨r', hr', hrv⟩ := hinv.served.request_of_mem (List.mem_of_head? hhead)
        rw [hr] at hr'
        rw [Option.some.inj hr', hrv] at hru
        exact hkeep hru hlast.2
    · exact hi
  · intro i v hi
    obtain ⟨hi, hkeep⟩ := htender i v hi
    rw [h.head hx hkeep]
    exact hinv.owned.tender i v hi
  · intro i v r hi hr
    rw [h.lookUps] at hi
    obtain ⟨hix, hr⟩ := hrequest i r hr
    obtain ⟨huuid, hv, hhead, hnone, hst⟩ := hinv.owned.lookUp i v r hi hr
    have hkeep : v = u → s.members u ≠ [x] := by
      intro heq hone
      rw [heq, hone, List.head?_cons] at hhead
      exact hix (Option.some.inj hhead).symm
    refine ⟨huuid, hv, by rw [h.head hx hkeep, hhead], ?_, hst⟩
    by_contra hne
    obtain ⟨w, hw⟩ := Option.ne_none_iff_exists'.mp hne
    rw [(htender i w hw).1] at hnone
    cases hnone

/-! ### A livestream that ends -/

/-- What the end of a livestream does: its requests go. -/
structure Ends (s t : State) (id : ID32) (u : UUID) : Prop where
  requests : ∀ i, t.requests.lookup i = if i ∈ s.members u then none else s.requests.lookup i
  imsReqIds : ∀ i, t.imsReqIds.lookup i = if i ∈ s.members u then none else s.imsReqIds.lookup i
  members : ∀ v, t.members v = if v = u then [] else s.members v
  nonempty : ∀ v, t.pendingImsGetRequests.lookup v = some [] →
    s.pendingImsGetRequests.lookup v = some []
  lookUps : t.lookUps = s.lookUps
  tenders : t.tenders = s.tenders.erase id
  out : ∀ m ∈ t.out, m ∈ s.out ∨ ∃ ims, m = .getLivestreamFail ims

/-- The requests of the list are gone, and everything else is there. -/
theorem failAll_spec (l : List ID32) (s : State) :
    (∀ i, (s.failAll l).requests.lookup i = if i ∈ l then none else s.requests.lookup i) ∧
      (∀ i, (s.failAll l).imsReqIds.lookup i = if i ∈ l then none else s.imsReqIds.lookup i) ∧
      (s.failAll l).lookUps = s.lookUps ∧ (s.failAll l).tenders = s.tenders ∧
      ∀ m ∈ (s.failAll l).out, m ∈ s.out ∨ ∃ ims, m = .getLivestreamFail ims := by
  induction l generalizing s with
  | nil => exact ⟨fun i => rfl, fun i => rfl, rfl, rfl, fun m hm => .inl hm⟩
  | cons a l ih =>
    obtain ⟨hreq, hims, hlookUps, htenders, hout⟩ := ih { s with
      imsReqIds := s.imsReqIds.erase a
      requests := s.requests.erase a
      out := s.out ++ ((s.imsReqIds.lookup a).map Message.getLivestreamFail).toList }
    have herase : ∀ {α : Type} (p : Table ID32 α) (i : ID32),
        (if i ∈ l then none else (p.erase a).lookup i) =
          if i ∈ a :: l then none else p.lookup i := by
      intro α p i
      rw [Ledger.lookup_erase_ite]
      by_cases hi : i = a
      · simp [hi]
      · simp [hi]
    refine ⟨fun i => (hreq i).trans (herase _ i), fun i => (hims i).trans (herase _ i), hlookUps,
      htenders, fun m hm => ?_⟩
    rcases hout m hm with hm | hm
    · rcases List.mem_append.mp hm with hm | hm
      · exact .inl hm
      · obtain ⟨ims, -, rfl⟩ := Option.map_eq_some_iff.mp (Option.mem_toList.mp hm)
        exact .inr ⟨ims, rfl⟩
    · exact .inr hm

theorem ends (h : Inv hosted s L) (htender : s.tenders.lookup id = some u)
    (ht : (s.ended id).handleRouterCancel id = some t) : Ends s t id u := by
  obtain ⟨-, hhead⟩ := h.owned.tender id u htender
  obtain ⟨r, hr, rfl⟩ := h.served.request_of_mem (List.mem_of_head? hhead)
  obtain ⟨l, hl⟩ : ∃ l, s.pendingImsGetRequests.lookup r.uuid = some l := by
    rw [← Option.ne_none_iff_exists', Ne, h.served.pending_eq_none]
    exact List.ne_nil_of_mem (List.mem_of_head? hhead)
  have hlist : s.members r.uuid = l := by
    rw [State.members, hl]
    rfl
  have hr' : (s.ended id).requests.lookup id = some r := hr
  have hl' : (s.ended id).pendingImsGetRequests.lookup r.uuid = some l := hl
  rw [State.handleRouterCancel, hr', Option.elim_some] at ht
  split_ifs at ht with hcmd
  rw [State.sendGetLivestreamFailToIms, hl', Option.elim_some] at ht
  obtain ⟨hreq, hims, hlookUps, htenders, hout⟩ := failAll_spec l (s.ended id)
  rw [← Option.some.inj ht]
  constructor
  · rw [hlist]
    exact hreq
  · rw [hlist]
    exact hims
  · intro v
    change ((s.pendingImsGetRequests.erase r.uuid).lookup v).getD [] = _
    rw [Ledger.lookup_erase_ite]
    split_ifs
    · rfl
    · rfl
  · intro v hv
    change (s.pendingImsGetRequests.erase r.uuid).lookup v = some [] at hv
    obtain ⟨-, hv⟩ := Ledger.of_lookup_erase hv
    exact hv
  · exact hlookUps
  · exact htenders
  · exact hout

/-- A request of a livestream that goes on stands for its client as before. -/
theorem Ends.serves_iff {m : ID32} (h : Ends s t id u) (hs : Served s L) :
    t.Serves i m v ↔ v ≠ u ∧ s.Serves i m v := by
  rw [State.Serves, h.requests, h.imsReqIds]
  by_cases hi : i ∈ s.members u
  · rw [if_pos hi, if_pos hi]
    refine iff_of_false ?_ ?_
    · rintro ⟨hnone, -⟩
      cases hnone
    · rintro ⟨hv, hserves⟩
      obtain ⟨m', hm'⟩ := (hs.mem_iff u i).mp hi
      exact hv (hserves.uuid_inj hm')
  · rw [if_neg hi, if_neg hi]
    constructor
    · intro hserves
      refine ⟨?_, hserves⟩
      rintro rfl
      exact hi ((hs.mem_iff v i).mpr ⟨m, hserves⟩)
    · exact fun hand => hand.2

theorem Ends.served (h : Ends s t id u) (hs : Served s L) :
    Served t (L.filter fun p => p.2 ≠ u) := by
  constructor
  · intro i
    rw [h.requests, h.imsReqIds]
    split_ifs
    · exact iff_of_true rfl rfl
    · exact hs.aligned i
  · exact fun v hv => hs.nonempty v (h.nonempty v hv)
  · intro v
    rw [h.members]
    split_ifs
    · exact .nil
    · exact hs.nodup v
  · intro v i
    simp only [h.members, h.serves_iff hs, exists_and_left]
    split_ifs with hv
    · exact iff_of_false List.not_mem_nil fun hand => hand.1 hv
    · rw [hs.mem_iff]
      exact (and_iff_right hv).symm
  · intro i j m v w hi hj
    rw [h.serves_iff hs] at hi hj
    exact hs.inj i j m v w hi.2 hj.2
  · intro m v
    rw [List.mem_filter, decide_eq_true_eq, hs.open_iff]
    simp only [h.serves_iff hs, exists_and_left]
    exact and_comm
  · exact hs.open_nodup.filter _

theorem Ends.owned (h : Ends s t id u) (hinv : Inv hosted s L)
    (htender : s.tenders.lookup id = some u) : Owned hosted t := by
  have hhead : ∀ v i, (t.members v).head? = some i → v ≠ u ∧ (s.members v).head? = some i := by
    intro v i hi
    rw [h.members] at hi
    split_ifs at hi with hv
    · cases hi
    · exact ⟨hv, hi⟩
  constructor
  · intro v i hv hi
    obtain ⟨hvu, hi⟩ := hhead v i hi
    rw [h.lookUps, h.tenders]
    refine (hinv.owned.owner v i hv hi).imp_right fun hiv => ?_
    rw [AList.lookup_erase_ne ?_]
    · exact hiv
    · rintro rfl
      exact hvu (Option.some.inj (hiv.symm.trans htender))
  · intro i v hi
    rw [h.tenders] at hi
    obtain ⟨hid, hi⟩ := Ledger.of_lookup_erase hi
    obtain ⟨hv, hfirst⟩ := hinv.owned.tender i v hi
    refine ⟨hv, ?_⟩
    rw [h.members, if_neg ?_]
    · exact hfirst
    · rintro rfl
      exact hid (Option.some.inj (hfirst.symm.trans (hinv.owned.tender id v htender).2))
  · intro i v r hi hr
    rw [h.lookUps] at hi
    rw [h.requests] at hr
    split_ifs at hr with hmem
    obtain ⟨huuid, hv, hfirst, hnone, hst⟩ := hinv.owned.lookUp i v r hi hr
    refine ⟨huuid, hv, ?_, ?_, hst⟩
    · rw [h.members, if_neg ?_]
      · exact hfirst
      · rintro rfl
        exact hmem (List.mem_of_head? hfirst)
    · rw [h.tenders, Ledger.lookup_erase_ite]
      split_ifs
      · rfl
      · exact hnone

/-! ### The other steps -/

/-- A look-up ends. The request, if it is still there, goes on to the router. -/
theorem Inv.storageNack (h : Inv hosted s L) (hlookUp : s.lookUps.lookup id = some u)
    (ht : (s.answered id).handleStorageNack id = some t) : Inv hosted t L := by
  -- the owners of the other lists are who they were
  have howner : ∀ v i, i ≠ id → hosted v = false → (s.members v).head? = some i →
      (s.lookUps.erase id).lookup i = some v ∨ s.tenders.lookup i = some v := by
    intro v i hi hv hhead
    rw [AList.lookup_erase_ne hi]
    exact h.owned.owner v i hv hhead
  have hasked : ∀ i v, (s.lookUps.erase id).lookup i = some v →
      i ≠ id ∧ s.lookUps.lookup i = some v := by
    intro i v hi
    obtain ⟨hid, hi⟩ := Ledger.of_lookup_erase hi
    exact ⟨hid, hi⟩
  rw [State.handleStorageNack] at ht
  have hreq : (s.answered id).requests = s.requests := rfl
  rw [hreq] at ht
  -- the client may have left while the storage was asked
  cases hr : s.requests.lookup id with
  | none =>
    rw [hr, Option.elim_none] at ht
    rw [← Option.some.inj ht]
    refine ⟨h.served.frame rfl rfl fun _ => rfl, ?_, h.owned.tender, ?_⟩
    · intro v i hv hhead
      refine howner v i ?_ hv hhead
      rintro rfl
      obtain ⟨r, hr', -⟩ := h.served.request_of_mem (List.mem_of_head? hhead)
      rw [hr] at hr'
      cases hr'
    · intro i v r hi hir
      exact h.owned.lookUp i v r (hasked i v hi).2 hir
  | some r =>
    -- the request is the first of its list, and the router is asked for it now
    obtain ⟨rfl, hu, hhead, hnone, hst⟩ := h.owned.lookUp id u r hlookUp hr
    rw [hr, Option.elim_some, State.postRouterGetRequest, if_pos hst] at ht
    rw [← Option.some.inj ht]
    refine ⟨h.served.frame rfl rfl fun i => ?_, ?_, ?_, ?_⟩
    · change ((s.requests.insert id { r with st := .requested }).lookup i).map Request.uuid = _
      rw [Ledger.lookup_insert_ite]
      split_ifs with hi
      · rw [hi, hr]
        rfl
      · rfl
    -- its look-up is over, and the router has it instead
    · intro v i hv hi
      change (s.lookUps.erase id).lookup i = some v ∨
        (s.tenders.insert id r.uuid).lookup i = some v
      by_cases hid : i = id
      · obtain ⟨r', hr', huuid⟩ := h.served.request_of_mem (List.mem_of_head? hi)
        rw [hid, hr] at hr'
        rw [hid, ← huuid, ← Option.some.inj hr']
        exact .inr (AList.lookup_insert _)
      · rw [AList.lookup_insert_ne hid]
        exact howner v i hid hv hi
    · intro i v hi
      change (s.tenders.insert id r.uuid).lookup i = some v at hi
      obtain ⟨rfl, rfl⟩ | ⟨-, hi⟩ := Ledger.eq_or_of_lookup_insert hi
      · exact ⟨hu, hhead⟩
      · exact h.owned.tender i v hi
    · intro i v r' hi hir
      obtain ⟨hid, hi⟩ := hasked i v hi
      change (s.requests.insert id { r with st := .requested }).lookup i = some r' at hir
      rw [AList.lookup_insert_ne hid] at hir
      obtain ⟨huuid, hv, hfirst, htender, hst'⟩ := h.owned.lookUp i v r' hi hir
      exact ⟨huuid, hv, hfirst, (AList.lookup_insert_ne hid).trans htender, hst'⟩

/-- A get turns out to be one of a livestream. -/
theorem Inv.streamAuth (h : Inv hosted s L) (keys : Bool) :
    Inv hosted (s.handleRouterStreamAuthRequest id keys) L := by
  rw [State.handleRouterStreamAuthRequest.eq_def]
  split
  · next u st b hr =>
    have hkept : ∀ i r', (s.requests.insert id ⟨u, st, .getLivestreamContent, keys⟩).lookup i =
        some r' → ∃ r, s.requests.lookup i = some r ∧ r.uuid = r'.uuid ∧ r.st = r'.st := by
      intro i r' hi
      obtain ⟨rfl, rfl⟩ | ⟨-, hi⟩ := Ledger.eq_or_of_lookup_insert hi
      · exact ⟨_, hr, rfl, rfl⟩
      · exact ⟨r', hi, rfl, rfl⟩
    have huuid : ∀ i, ((s.requests.insert id ⟨u, st, .getLivestreamContent, keys⟩).lookup i).map
        Request.uuid = (s.requests.lookup i).map Request.uuid := by
      intro i
      rw [Ledger.lookup_insert_ite]
      split_ifs with hid
      · rw [hid, hr]
        rfl
      · rfl
    dsimp only
    split_ifs
    · exact ⟨h.served.frame rfl rfl huuid, h.owned.frame rfl rfl rfl hkept⟩
    · exact ⟨h.served.frame rfl rfl huuid, h.owned.frame rfl rfl rfl hkept⟩
  · exact h

/-- Only something is sent. -/
theorem Inv.sends (h : Inv hosted s L) (out : List Message) : Inv hosted { s with out := out } L :=
  ⟨h.served.frame rfl rfl fun _ => rfl,
    h.owned.frame rfl rfl rfl fun _ r' hr' => ⟨r', hr', rfl, rfl⟩⟩

end LocalListeners

end Metax
