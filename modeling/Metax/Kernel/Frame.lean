import Metax.Kernel.Neutral

/-!
# What a step for one request leaves to the others

A handler works for one main request. `Frame rid k k'` says that what concerns the request
`rid` is in `k'` as it was in `k`: the request and its units are there up to contents and
keys, and nothing telling was logged for it. A neutral step is a frame for every request; the
steps that do change something are frames for every request but their own.

`Only` is the other side: what a handler does for a request, put together step by step, is a frame
for all the others.
-/

namespace Metax

open Ledger (Table)

namespace Kernel

/-- The unit `uid` of the main request `rid` has no copy yet. -/
structure Uncopied (units : Table ID32 SaveUnit) (rid uid : ID32) (u : SaveUnit) : Prop where
  lookup : units.lookup uid = some u
  main : u.mainRequest = rid
  zero : u.bkpCount = 0

/-- No unit of the request is without a copy. -/
def Settled (units : Table ID32 SaveUnit) (rid : ID32) : Prop :=
  ∀ uid u, ¬ Uncopied units rid uid u

/-- Unit ids come from the request counter. -/
def UnitsFresh (k : Kernel) : Prop :=
  ∀ uid u, k.saveUnits.lookup uid = some u → uid < k.requestCounter

/-- Nothing that matters for `rid` has changed. -/
structure Frame (rid : ID32) (k k' : Kernel) : Prop where
  counter : k.requestCounter ≤ k'.requestCounter
  ims : k'.imsReqIds.lookup rid = k.imsReqIds.lookup rid
  request : ∀ r', k'.requests.lookup rid = some r' →
    ∃ r, k.requests.lookup rid = some r ∧ r.Like r'
  main : ∀ uid u', k'.saveUnits.lookup uid = some u' → uid < k.requestCounter →
    ∃ u, k.saveUnits.lookup uid = some u ∧ u'.mainRequest = u.mainRequest
  unit : ∀ uid u', k'.saveUnits.lookup uid = some u' → u'.mainRequest = rid →
    ∃ u, k.saveUnits.lookup uid = some u ∧ u.Like u'
  waiting : ∀ uid u, Uncopied k.saveUnits rid uid u →
    ∃ u', k'.saveUnits.lookup uid = some u' ∧ u.Like u'
  log : ∃ es, k'.log = es ++ k.log ∧ ∀ e ∈ es, e.neutral = true ∨ e.owner ≠ rid

variable {k k' m : Kernel} {rid rid₀ uid : ID32} {r r' : Request} {u u' : SaveUnit} {e : Entry}

/-- A unit that is written back alike has no copy if it had none. -/
theorem Uncopied.like (h : Uncopied k.saveUnits rid uid u)
    (hlook : k'.saveUnits.lookup uid = some u')
    (hlike : u.Like u') : Uncopied k'.saveUnits rid uid u' :=
  ⟨hlook, hlike.mainRequest.trans h.main, hlike.bkpCount.trans h.zero⟩

/-- **A neutral step is a frame for every request.** -/
theorem Neutral.frame (h : Neutral k k') (rid : ID32) : Frame rid k k' where
  counter := h.counter.ge
  ims := by rw [h.ims]
  request := h.requests rid
  main uid u' hu _ := (h.units uid u' hu).imp fun u hu => ⟨hu.1, hu.2.mainRequest⟩
  unit uid u' hu _ := h.units uid u' hu
  waiting uid u hu := h.waiting uid u hu.lookup hu.zero
  log := h.log.imp fun es hes => ⟨hes.1, fun e he => .inl (hes.2 e he)⟩

/-- And it makes no unit. -/
theorem Neutral.unitsFresh (h : Neutral k k') (hfresh : k.UnitsFresh) : k'.UnitsFresh := by
  intro uid u' hu
  obtain ⟨u, hu, -⟩ := h.units uid u' hu
  exact h.counter ▸ hfresh uid u hu

namespace Frame

/-- Frames can be put in sequence. -/
theorem refl (rid : ID32) (k : Kernel) : Frame rid k k := (Neutral.refl k).frame rid

/-- An uncopied unit after the step is an uncopied unit before it. -/
theorem uncopied (h : Frame rid k k') (hu : Uncopied k'.saveUnits rid uid u') :
    ∃ u, Uncopied k.saveUnits rid uid u ∧ u.Like u' := by
  obtain ⟨u, hlook, hlike⟩ := h.unit uid u' hu.lookup hu.main
  exact ⟨u, ⟨hlook, hlike.mainRequest.symm.trans hu.main, hlike.bkpCount.symm.trans hu.zero⟩, hlike⟩

/-- A unit that waits for its first copy still does. -/
theorem uncopied' (h : Frame rid k k') (hu : Uncopied k.saveUnits rid uid u) :
    ∃ u', Uncopied k'.saveUnits rid uid u' ∧ u.Like u' := by
  obtain ⟨u', hlook, hlike⟩ := h.waiting uid u hu
  exact ⟨u', hu.like hlook hlike, hlike⟩

/-- No unit is added to a request that has none waiting. -/
theorem settled (h : Frame rid k k') (hk : Settled k.saveUnits rid) : Settled k'.saveUnits rid := by
  intro uid u' hu
  obtain ⟨u, hu, -⟩ := h.uncopied hu
  exact hk uid u hu

/-- What the log tells of a request is the same. -/
theorem mem_log_iff (h : Frame rid k k') (he : e.neutral = false) (hown : e.owner = rid) :
    e ∈ k'.log ↔ e ∈ k.log := by
  obtain ⟨es, hes, hall⟩ := h.log
  rw [hes, List.mem_append]
  refine ⟨fun hmem => hmem.resolve_left fun hin => ?_, .inr⟩
  rcases hall e hin with hneutral | hother
  · rw [he] at hneutral
    exact Bool.noConfusion hneutral
  · exact hother hown

theorem trans (h : Frame rid k m) (h' : Frame rid m k') : Frame rid k k' := by
  refine ⟨h.counter.trans h'.counter, h'.ims.trans h.ims, ?_, ?_, ?_, ?_, ?_⟩
  · intro r'' hr''
    obtain ⟨r', hr', hlike'⟩ := h'.request r'' hr''
    obtain ⟨r, hr, hlike⟩ := h.request r' hr'
    exact ⟨r, hr, hlike.trans hlike'⟩
  · intro uid u'' hu'' hid
    obtain ⟨u', hu', hmain'⟩ := h'.main uid u'' hu'' (hid.trans_le h.counter)
    obtain ⟨u, hu, hmain⟩ := h.main uid u' hu' hid
    exact ⟨u, hu, hmain'.trans hmain⟩
  · intro uid u'' hu'' hmain
    obtain ⟨u', hu', hlike'⟩ := h'.unit uid u'' hu'' hmain
    obtain ⟨u, hu, hlike⟩ := h.unit uid u' hu' (hlike'.mainRequest.symm.trans hmain)
    exact ⟨u, hu, hlike.trans hlike'⟩
  · intro uid u hu
    obtain ⟨u', hu', hlike⟩ := h.waiting uid u hu
    obtain ⟨u'', hu'', hlike'⟩ := h'.waiting uid u' (hu.like hu' hlike)
    exact ⟨u'', hu'', hlike.trans hlike'⟩
  · obtain ⟨es, hes, hall⟩ := h.log
    obtain ⟨es', hes', hall'⟩ := h'.log
    refine ⟨es' ++ es, by rw [hes', hes, List.append_assoc], fun e he => ?_⟩
    exact (List.mem_append.mp he).elim (hall' e) (hall e)

/-! ### The steps for another request -/

/-- An entry that is about another request. -/
theorem write (hown : e.owner ≠ rid) : Frame rid k (k.write e) := by
  have h := refl rid k
  refine ⟨h.counter, h.ims, h.request, h.main, h.unit, h.waiting, ⟨[e], rfl, ?_⟩⟩
  intro e' he'
  rw [List.mem_singleton.mp he']
  exact .inr hown

/-- The record of another request. -/
theorem setRequest (hne : rid ≠ rid₀) : Frame rid k (k.setRequest rid₀ r) := by
  have h := refl rid k
  refine ⟨h.counter, h.ims, ?_, h.main, h.unit, h.waiting, h.log⟩
  intro r' hr'
  rw [Kernel.setRequest, AList.lookup_insert_ne hne] at hr'
  exact ⟨r', hr', .refl r'⟩

/-- A unit of another request is written back. -/
theorem setUnit (hlook : k.saveUnits.lookup uid = some u) (hmain : u'.mainRequest = u.mainRequest)
    (hne : rid ≠ u.mainRequest) : Frame rid k (k.setUnit uid u') := by
  have h := refl rid k
  refine ⟨h.counter, h.ims, h.request, ?_, ?_, ?_, h.log⟩
  · intro id v hv _
    exact Ledger.exists_of_lookup_insert (R := fun u v => v.mainRequest = u.mainRequest)
      (fun _ => rfl) hlook hmain id v hv
  · intro id v hv hvmain
    obtain ⟨hid, rfl⟩ | ⟨hid, hv⟩ := Ledger.eq_or_of_lookup_insert hv
    · exact absurd (hvmain.symm.trans hmain) hne
    · exact ⟨v, hv, .refl v⟩
  · intro id v hv
    have hid : id ≠ uid := by
      rintro rfl
      obtain rfl := Option.some.inj (hlook.symm.trans hv.lookup)
      exact hne hv.main.symm
    rw [Kernel.setUnit, AList.lookup_insert_ne hid]
    exact ⟨v, hv.lookup, .refl v⟩

/-- A unit of another request is forgotten. -/
theorem eraseUnit (hother : ∀ u, k.saveUnits.lookup uid = some u → rid ≠ u.mainRequest) :
    Frame rid k (k.eraseUnit uid) := by
  have h := refl rid k
  have hback : ∀ id v, (k.eraseUnit uid).saveUnits.lookup id = some v →
      k.saveUnits.lookup id = some v := by
    intro id v hv
    exact (Ledger.of_lookup_erase hv).2
  refine ⟨h.counter, h.ims, h.request, ?_, ?_, ?_, h.log⟩
  · intro id v hv _
    exact ⟨v, hback id v hv, rfl⟩
  · intro id v hv _
    exact ⟨v, hback id v hv, .refl v⟩
  · intro id v hv
    have hid : id ≠ uid := by
      rintro rfl
      exact hother v hv.lookup hv.main.symm
    rw [Kernel.eraseUnit, AList.lookup_erase_ne hid]
    exact ⟨v, hv.lookup, .refl v⟩

/-- A new unit of another request. -/
theorem newUnit (hfresh : k.UnitsFresh) (hne : rid ≠ u.mainRequest) :
    Frame rid k { k.setUnit k.requestCounter u with requestCounter := k.requestCounter + 1 } := by
  have h := refl rid k
  refine ⟨Nat.le_succ _, h.ims, h.request, ?_, ?_, ?_, h.log⟩
  · intro id v hv hid
    dsimp only [Kernel.setUnit] at hv
    rw [AList.lookup_insert_ne hid.ne] at hv
    exact ⟨v, hv, rfl⟩
  · intro id v hv hvmain
    dsimp only [Kernel.setUnit] at hv
    obtain ⟨hid, rfl⟩ | ⟨hid, hv⟩ := Ledger.eq_or_of_lookup_insert hv
    · exact absurd hvmain.symm hne
    · exact ⟨v, hv, .refl v⟩
  · intro id v hv
    have hid : id ≠ k.requestCounter := (hfresh id v hv.lookup).ne
    dsimp only [Kernel.setUnit]
    rw [AList.lookup_insert_ne hid]
    exact ⟨v, hv.lookup, .refl v⟩

/-- The counter, the ids at the IMS of other requests, the queues, the flow control and what
is posted do not matter. -/
theorem congr (h : Frame rid k m) (hcounter : m.requestCounter ≤ k'.requestCounter)
    (hims : k'.imsReqIds.lookup rid = m.imsReqIds.lookup rid) (hrequests : k'.requests = m.requests)
    (hunits : k'.saveUnits = m.saveUnits) (hlog : k'.log = m.log) : Frame rid k k' where
  counter := h.counter.trans hcounter
  ims := hims.trans h.ims
  request := by rw [hrequests]; exact h.request
  main := by rw [hunits]; exact h.main
  unit := by rw [hunits]; exact h.unit
  waiting := by rw [hunits]; exact h.waiting
  log := by rw [hlog]; exact h.log

end Frame

/-! ### Steps for one request -/

/-- From `k₀` to `k` only what belongs to `rid` has changed. -/
structure Only (rid : ID32) (k₀ k : Kernel) : Prop where
  unitsFresh : k.UnitsFresh
  frame : ∀ rid', rid' ≠ rid → Frame rid' k₀ k

namespace Only

variable {k₀ : Kernel}

theorem refl (hunits : k.UnitsFresh) : Only rid k k := ⟨hunits, fun rid' _ => .refl rid' k⟩

/-- What a handler does for one request: to the others it is a frame each time. -/
theorem neutral (h : Only rid k₀ k) (hn : Neutral k k') : Only rid k₀ k' :=
  ⟨hn.unitsFresh h.unitsFresh, fun rid' hne => (h.frame rid' hne).trans (hn.frame rid')⟩

theorem write (h : Only rid k₀ k) (hown : e.owner = rid) : Only rid k₀ (k.write e) :=
  ⟨h.unitsFresh, fun rid' hne => (h.frame rid' hne).trans (.write (hown ▸ hne.symm))⟩

theorem setRequest (h : Only rid k₀ k) (r : Request) : Only rid k₀ (k.setRequest rid r) :=
  ⟨h.unitsFresh, fun rid' hne => (h.frame rid' hne).trans (.setRequest hne)⟩

/-- A unit of the request is written back. -/
theorem setUnit (h : Only rid k₀ k) (hlook : k.saveUnits.lookup uid = some u)
    (hmain' : u'.mainRequest = u.mainRequest) (hmain : u.mainRequest = rid) :
    Only rid k₀ (k.setUnit uid u') := by
  refine ⟨fun id v hv => ?_, fun rid' hne => (h.frame rid' hne).trans
    (.setUnit hlook hmain' (hmain ▸ hne))⟩
  obtain ⟨rfl, -⟩ | ⟨-, hv⟩ := Ledger.eq_or_of_lookup_insert hv
  · exact h.unitsFresh id u hlook
  · exact h.unitsFresh id v hv

/-- A unit of the request goes. -/
theorem eraseUnit (h : Only rid k₀ k)
    (hmain : ∀ u, k.saveUnits.lookup uid = some u → u.mainRequest = rid) :
    Only rid k₀ (k.eraseUnit uid) := by
  refine ⟨fun id v hv => ?_, fun rid' hne => (h.frame rid' hne).trans
    (.eraseUnit fun u hu => (hmain u hu).symm ▸ hne)⟩
  obtain ⟨hid, hv⟩ := Ledger.of_lookup_erase hv
  exact h.unitsFresh id v hv

/-- A unit is made for it. -/
theorem prepareUnit {b s : ℕ} {t : UnitType} {uuid : UUID} {c : Bytes} {backup : Bool}
    (h : Only rid k₀ k) : Only rid k₀ (k.prepareUnitForSave rid r b s t uuid c backup) := by
  refine ⟨fun id v hv => ?_, fun rid' hne => ?_⟩
  · dsimp only [prepareUnitForSave, Kernel.setRequest, Kernel.setUnit] at hv ⊢
    by_cases hid : id = k.requestCounter
    · exact hid ▸ Nat.lt_succ_self _
    · rw [AList.lookup_insert_ne hid] at hv
      exact (h.unitsFresh id v hv).trans (Nat.lt_succ_self _)
  · have hunit : Frame rid' k _ := Frame.newUnit
      (u := ⟨rid, b, s, 0, t, uuid, c, if t = .piece then .save else r.cmd, 0, 0, backup⟩)
      h.unitsFresh hne
    refine (h.frame rid' hne).trans (Frame.trans hunit ?_)
    exact Frame.congr (.setRequest hne) le_rfl rfl rfl rfl rfl

/-- The deletion of a piece is logged for it. -/
theorem handlePieceDelete (h : Only rid k₀ k) (p : UUID) :
    Only rid k₀ (k.handlePieceDelete rid p) := by
  refine ⟨fun id v hv => (h.unitsFresh id v hv).trans (Nat.lt_succ_self _), fun rid' hne => ?_⟩
  refine (h.frame rid' hne).trans ?_
  exact Frame.congr (.write (e := .delete rid k.requestCounter p) hne.symm) (Nat.le_succ _) rfl
    rfl rfl rfl

theorem forget (h : Only rid k₀ k) : Only rid k₀ (k.forget rid) := by
  refine ⟨h.unitsFresh, fun rid' hne => (h.frame rid' hne).congr le_rfl ?_ rfl rfl rfl⟩
  exact AList.lookup_erase_ne hne

/-- And its answer. -/
theorem respond {resp : Response} (h : Only rid k₀ k) (hresp : k.respond rid resp = some k') :
    Only rid k₀ k' := by
  obtain ⟨i, -, hk'⟩ := Option.bind_eq_some_iff.mp hresp
  obtain rfl := Option.some.inj hk'
  refine ⟨h.unitsFresh, fun rid' hne => (h.frame rid' hne).trans ?_⟩
  exact Frame.congr (.write (e := .respond rid i resp) hne.symm) le_rfl
    (AList.lookup_erase_ne hne) rfl rfl rfl

end Only

end Kernel

end Metax
