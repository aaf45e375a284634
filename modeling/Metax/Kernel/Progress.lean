import Metax.Library.History
import Metax.Kernel.Frame

/-!
# How far a save has got

The invariant of the save path, request by request. `Progress` is what the log and the units
say of a request: once the save is decided (confirmed, or a unit has failed with no copy)
no unit of it is without a copy; once its master object is built only the master's unit can
be; and every entry of the log is `Justified` by what was logged before it. `RequestSound` is
what the record of the request says while it is there; above all, each listed piece has a copy
or a unit that still waits for one, unless the save is decided. `SoundFor` is both.

The assumption `fresh` is that the uuids made for the pieces of an update are new; only the
statements about the old object need it. `todo` are the pieces which have no unit yet while
the units are being prepared.

The other modules of this part keep it in mind in this order: most steps are neutral and change
nothing of it (`Metax.Kernel.Neutral`), every step is a frame for the requests it does not work for
(`Metax.Kernel.Frame`, `Frame.soundFor`), and what it does to its own request is made of moves
(`Metax.Kernel.Moves`).
-/

namespace Metax

/-- The entries that decide a save. -/
def Entry.decides : Entry → Bool
  | respond _ _ r => r.isConfirm
  | failedUnit _ _ => true
  | _ => false

/-- The entries that only add themselves to the account of a save. -/
def Entry.plain : Entry → Bool
  | copied _ _ _ | delete _ _ _ => true
  | _ => false

/-- The entries that answer the request `rid`. -/
def Entry.answers (rid : ID32) : Entry → Bool
  | respond o _ _ => decide (o = rid)
  | _ => false

/-- The save has been confirmed or has failed. -/
def Decided (log : List Entry) (rid : ID32) : Prop :=
  ∃ e ∈ log, e.owner = rid ∧ e.decides = true

/-- The IMS was told that the save is confirmed. -/
def Confirmed (log : List Entry) (rid : ID32) : Prop :=
  ∃ i resp, .respond rid i resp ∈ log ∧ resp.isConfirm = true

/-- The master object has been built. -/
def Built (log : List Entry) (rid : ID32) : Prop := ∃ r m, Entry.built rid r m ∈ log

/-- What must have been logged before an entry. -/
def Justified (fresh : Prop) : Entry → List Entry → Prop
  | .built rid _ m, older =>
    (∀ p ∈ m.pieces, .copied rid .piece p ∈ older) ∧ ¬ Built older rid ∧
      (fresh → ∀ old, .gotOldMaster rid old ∈ older → ∀ p ∈ m.pieces, p ∉ old.pieces)
  | .respond rid _ r, older =>
    r.isConfirm = true → ¬ Decided older rid ∧
      ∃ r' m, .built rid r' m ∈ older ∧ .copied rid .master r'.uuid ∈ older
  | .failedUnit rid _, older => ¬ Decided older rid
  | .delete rid _ p, older =>
    (∃ ims r, .respond rid ims r ∈ older ∧ r.isConfirm = true ∧
      ∃ old, .gotOldMaster rid old ∈ older ∧ p ∈ old.pieces) ∨
    ((∃ uuid, .failedUnit rid uuid ∈ older) ∧
      (fresh → ∀ old, .gotOldMaster rid old ∈ older → p ∉ old.pieces))
  | .gotOldMaster rid _, older => ∀ e ∈ older, e.owner = rid → e.neutral = true
  | _, _ => True

namespace Kernel

/-- What the log and the units say of a request. -/
structure Progress (fresh : Prop) (k : Kernel) (rid : ID32) : Prop where
  ims : ∀ i, k.imsReqIds.lookup rid = some i → rid < k.requestCounter
  main : ∀ uid u, k.saveUnits.lookup uid = some u → u.mainRequest = rid → rid < k.requestCounter
  entry : ∀ e ∈ k.log, e.owner = rid → e.neutral = false → rid < k.requestCounter
  decided : Decided k.log rid → Settled k.saveUnits rid
  built : Built k.log rid → ∀ uid u, Uncopied k.saveUnits rid uid u → u.type = .master
  single : ∀ uid u uid' u', Uncopied k.saveUnits rid uid u → u.type = .master →
    Uncopied k.saveUnits rid uid' u' → uid' = uid
  master : ∀ uid u, Uncopied k.saveUnits rid uid u → u.type = .master →
    ∃ r m, .built rid r m ∈ k.log ∧ r.uuid = u.uuid
  answers : k.log.countP (Entry.answers rid) ≤ 1
  unanswered : ¬ Confirmed k.log rid → (k.imsReqIds.lookup rid).isSome = true →
    k.log.countP (Entry.answers rid) = 0
  past : History.Past (fun e older => e.owner = rid → Justified fresh e older) k.log

/-- What the record of a request says. -/
structure RequestSound (fresh : Prop) (todo : Set UUID) (k : Kernel) (rid : ID32) (r : Request) :
    Prop where
  id : rid < k.requestCounter
  listed : ∀ uid u, Uncopied k.saveUnits rid uid u → uid ∈ r.units
  owned : ¬ Decided k.log rid → ∀ uid ∈ r.units, uid < k.requestCounter ∧
    ∀ u, k.saveUnits.lookup uid = some u → u.mainRequest = rid
  waits : r.waitsFor ≠ .nothing → Settled k.saveUnits rid ∧ ¬ Decided k.log rid
  early : r.waitsFor = .oldMaster ∨ r.waitsFor = .genAesKey → ¬ Built k.log rid
  fetching : r.waitsFor = .oldMaster → r.oldMasterJson = none ∧ r.masterJson = ∅ ∧
    (∀ e ∈ k.log, e.owner = rid → e.neutral = true) ∧
      ∀ uid u, k.saveUnits.lookup uid = some u → u.mainRequest ≠ rid
  encryption : ∀ pkg, r.waitsFor = .encryption pkg →
    ∃ r' m, .built rid r' m ∈ k.log ∧ r'.uuid = r.uuid
  pieces : r.waitsFor ≠ .genAesKey → ∀ p ∈ r.masterJson, p ∉ todo →
    .copied rid .piece p ∈ k.log ∨
      (∃ uid u, Uncopied k.saveUnits rid uid u ∧ u.type = .piece ∧ u.uuid = p) ∨
        Decided k.log rid
  unit : ∀ uid u, Uncopied k.saveUnits rid uid u → u.type = .piece → u.uuid ∈ r.masterJson
  saved : ∀ p ∈ r.savedUnits, p ∈ r.masterJson
  old : ∀ m, .gotOldMaster rid m ∈ k.log ↔ r.oldMasterJson = some m
  apart : fresh → ∀ m, r.oldMasterJson = some m → ∀ p ∈ r.masterJson, p ∉ m.pieces

/-- The invariant for one request. -/
structure SoundFor (fresh : Prop) (todo : Set UUID) (k : Kernel) (rid : ID32) : Prop
    extends Progress fresh k rid where
  request : ∀ r, k.requests.lookup rid = some r → RequestSound fresh todo k rid r

variable {fresh : Prop} {todo : Set UUID} {k k' m : Kernel} {rid uid : ID32} {r r' : Request}
  {u u' : SaveUnit} {e : Entry} {log : List Entry}

/-! ### The predicates on the log -/

/-- An entry that decides a save is telling. -/
theorem neutral_of_decides (h : e.decides = true) : e.neutral = false := by
  rcases e with _ | _ | _ | _ | _ | _ | _ | _ | _ <;> first | rfl | exact Bool.noConfusion h

/-- So is one that answers it. -/
theorem neutral_of_answers (h : e.answers rid = true) : e.neutral = false := by
  rcases e with _ | _ | _ | _ | _ | _ | _ | _ | _ <;> first | rfl | exact Bool.noConfusion h

/-- An answer belongs to its request. -/
theorem owner_of_answers (h : e.answers rid = true) : e.owner = rid := by
  rcases e with _ | _ | _ | _ | _ | _ | _ | _ | _ <;>
    first | exact of_decide_eq_true h | exact Bool.noConfusion h

/-- Nothing has to come before a neutral entry. -/
theorem justified_of_neutral (h : e.neutral = true) (older : List Entry) :
    Justified fresh e older := by
  rcases e with _ | _ | _ | _ | _ | _ | _ | _ | _ <;> first | exact Bool.noConfusion h | trivial

/-- A confirmed save is decided. -/
theorem decided_of_confirmed (h : Confirmed log rid) : Decided log rid := by
  obtain ⟨i, resp, hmem, hresp⟩ := h
  exact ⟨_, hmem, rfl, hresp⟩

/-- What was confirmed stays so. -/
theorem confirmed_cons (h : Confirmed log rid) : Confirmed (e :: log) rid :=
  h.imp fun _ => .imp fun _ hmem => ⟨List.mem_cons_of_mem e hmem.1, hmem.2⟩

/-- An entry that does not answer the request does not confirm it. -/
theorem confirmed_of_cons (h : Confirmed (e :: log) rid) (he : e.answers rid ≠ true) :
    Confirmed log rid := by
  obtain ⟨i, resp, hmem, hresp⟩ := h
  refine ⟨i, resp, (List.mem_cons.mp hmem).resolve_left ?_, hresp⟩
  rintro rfl
  exact he (decide_eq_true rfl)

/-- One entry more decides, or the log did already. -/
theorem decided_cons :
    Decided (e :: log) rid ↔ (e.owner = rid ∧ e.decides = true) ∨ Decided log rid := by
  simp [Decided]

/-- One entry more is the master object, or the log has it already. -/
theorem built_cons : Built (e :: log) rid ↔ (∃ r m, Entry.built rid r m = e) ∨ Built log rid := by
  simp only [Built, List.mem_cons, exists_or]

/-! ### Frames keep the invariant -/

namespace Frame

/-- A frame tells nothing of the request, so its log says what it said. -/
theorem decided_iff (h : Frame rid k k') : Decided k'.log rid ↔ Decided k.log rid := by
  constructor
  · rintro ⟨e, he, hown, hdec⟩
    exact ⟨e, (h.mem_log_iff (neutral_of_decides hdec) hown).mp he, hown, hdec⟩
  · rintro ⟨e, he, hown, hdec⟩
    exact ⟨e, (h.mem_log_iff (neutral_of_decides hdec) hown).mpr he, hown, hdec⟩

theorem built_iff (h : Frame rid k k') : Built k'.log rid ↔ Built k.log rid :=
  exists_congr fun _ => exists_congr fun _ => h.mem_log_iff rfl rfl

theorem confirmed_iff (h : Frame rid k k') : Confirmed k'.log rid ↔ Confirmed k.log rid :=
  exists_congr fun _ => exists_congr fun _ => and_congr_left fun _ => h.mem_log_iff rfl rfl

theorem countP_answers (h : Frame rid k k') :
    k'.log.countP (Entry.answers rid) = k.log.countP (Entry.answers rid) := by
  obtain ⟨es, hes, hall⟩ := h.log
  rw [hes, List.countP_append, Nat.add_eq_right, List.countP_eq_zero]
  intro e he hans
  rcases hall e he with hneutral | hother
  · rw [neutral_of_answers hans] at hneutral
    exact Bool.noConfusion hneutral
  · exact hother (owner_of_answers hans)

/-- What came before an entry of the request came before it. -/
theorem past (h : Frame rid k k')
    (hk : History.Past (fun e older => e.owner = rid → Justified fresh e older) k.log) :
    History.Past (fun e older => e.owner = rid → Justified fresh e older) k'.log := by
  obtain ⟨es, hes, hall⟩ := h.log
  rw [hes]
  refine History.past_append_of_forall (fun e he older hown => ?_) hk
  exact (hall e he).elim (fun hneutral => justified_of_neutral hneutral older)
    fun hother => absurd hown hother

/-- **A frame keeps the progress of a save.** -/
theorem progress (h : Frame rid k k') (hk : Progress fresh k rid) : Progress fresh k' rid where
  ims i hi := (hk.ims i (h.ims ▸ hi)).trans_le h.counter
  main uid u hu hmain := by
    obtain ⟨v, hv, hlike⟩ := h.unit uid u hu hmain
    exact (hk.main uid v hv (hlike.mainRequest.symm.trans hmain)).trans_le h.counter
  entry e he hown hneutral :=
    (hk.entry e ((h.mem_log_iff hneutral hown).mp he) hown hneutral).trans_le h.counter
  decided hd := h.settled (hk.decided (h.decided_iff.mp hd))
  built hb uid u hu := by
    obtain ⟨v, hv, hlike⟩ := h.uncopied hu
    exact hlike.type.trans (hk.built (h.built_iff.mp hb) uid v hv)
  single uid u uid' u' hu hmaster hu' := by
    obtain ⟨v, hv, hlike⟩ := h.uncopied hu
    obtain ⟨v', hv', -⟩ := h.uncopied hu'
    exact hk.single uid v uid' v' hv (hlike.type.symm.trans hmaster) hv'
  master uid u hu hmaster := by
    obtain ⟨v, hv, hlike⟩ := h.uncopied hu
    obtain ⟨r, m, hmem, huuid⟩ := hk.master uid v hv (hlike.type.symm.trans hmaster)
    exact ⟨r, m, (h.mem_log_iff rfl rfl).mpr hmem, huuid.trans hlike.uuid.symm⟩
  answers := h.countP_answers.trans_le hk.answers
  unanswered hd hi := by
    rw [h.countP_answers]
    exact hk.unanswered (fun hc => hd (h.confirmed_iff.mpr hc)) (h.ims ▸ hi)
  past := h.past hk.past

/-- And what its record says, when the record is alike. -/
theorem requestSound (h : Frame rid k k') (hlike : r.Like r')
    (hk : RequestSound fresh todo k rid r) : RequestSound fresh todo k' rid r' := by
  have hmem : ∀ p, p ∈ r'.masterJson ↔ p ∈ r.masterJson := by
    intro p
    rw [← AList.lookup_isSome, ← AList.lookup_isSome, hlike.pieces p]
  refine ⟨hk.id.trans_le h.counter, ?_, ?_, ?_, ?_, ?_, ?_, ?_, ?_, ?_, ?_, ?_⟩
  · intro uid u hu
    obtain ⟨v, hv, -⟩ := h.uncopied hu
    exact hlike.units ▸ hk.listed uid v hv
  · intro hdec uid huid
    obtain ⟨hlt, howned⟩ := hk.owned (fun hd => hdec (h.decided_iff.mpr hd)) uid
      (hlike.units ▸ huid)
    refine ⟨hlt.trans_le h.counter, fun u hu => ?_⟩
    obtain ⟨v, hv, hmain⟩ := h.main uid u hu hlt
    exact hmain.trans (howned v hv)
  · intro hwait
    obtain ⟨hsettled, hdec⟩ := hk.waits (hlike.waitsFor ▸ hwait)
    exact ⟨h.settled hsettled, fun hd => hdec (h.decided_iff.mp hd)⟩
  · intro hwait hb
    exact hk.early (hlike.waitsFor ▸ hwait) (h.built_iff.mp hb)
  · intro hwait
    obtain ⟨hold, hnil, hlog, hunits⟩ := hk.fetching (hlike.waitsFor ▸ hwait)
    refine ⟨hlike.oldMasterJson.trans hold, ?_, fun e he hown => ?_, fun uid u hu hmain => ?_⟩
    · refine AList.ext (List.eq_nil_iff_forall_not_mem.mpr fun s hs => ?_)
      have hin : s.1 ∈ r.masterJson := (hmem s.1).mp (AList.mem_keys.mpr
        (List.mem_map_of_mem hs))
      rw [hnil] at hin
      exact AList.notMem_empty _ hin
    · by_contra hne
      have hneutral := Bool.eq_false_of_not_eq_true hne
      exact hne (hlog e ((h.mem_log_iff hneutral hown).mp he) hown)
    · obtain ⟨v, hv, hvlike⟩ := h.unit uid u hu hmain
      exact hunits uid v hv (hvlike.mainRequest.symm.trans hmain)
  · intro pkg hwait
    obtain ⟨s, m, hin, huuid⟩ := hk.encryption pkg (hlike.waitsFor ▸ hwait)
    exact ⟨s, m, (h.mem_log_iff rfl rfl).mpr hin, huuid.trans hlike.uuid.symm⟩
  · intro hwait p hp htodo
    rcases hk.pieces (hlike.waitsFor ▸ hwait) p ((hmem p).mp hp) htodo with
      hcopied | ⟨uid, u, hu, htype, huuid⟩ | hdec
    · exact .inl ((h.mem_log_iff rfl rfl).mpr hcopied)
    · obtain ⟨v, hv, hvlike⟩ := h.uncopied' hu
      exact .inr (.inl ⟨uid, v, hv, hvlike.type.trans htype, hvlike.uuid.trans huuid⟩)
    · exact .inr (.inr (h.decided_iff.mpr hdec))
  · intro uid u hu htype
    obtain ⟨v, hv, hvlike⟩ := h.uncopied hu
    rw [hmem, hvlike.uuid]
    exact hk.unit uid v hv (hvlike.type.symm.trans htype)
  · intro p hp
    exact (hmem p).mpr (hk.saved p (hlike.savedUnits ▸ hp))
  · intro m
    rw [h.mem_log_iff rfl rfl, hlike.oldMasterJson]
    exact hk.old m
  · intro hfresh m hm p hp
    exact hk.apart hfresh m (hlike.oldMasterJson ▸ hm) p ((hmem p).mp hp)

/-- So the whole invariant of a request is kept by the steps of the others. -/
theorem soundFor (h : Frame rid k k') (hk : SoundFor fresh todo k rid) :
    SoundFor fresh todo k' rid := by
  refine ⟨h.progress hk.toProgress, fun r' hr' => ?_⟩
  obtain ⟨r, hr, hlike⟩ := h.request r' hr'
  exact h.requestSound hlike (hk.request r hr)

end Frame

end Kernel

end Metax
