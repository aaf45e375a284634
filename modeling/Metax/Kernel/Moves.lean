import Metax.Kernel.Progress

/-!
# The moves of a save

What the handlers do to the request they work for, move by move: an entry is written, a unit
is copied, made or given up, the record of the request is written back, an answer is sent.
Each move keeps the invariant under the condition that its place in the code provides.

A move that decides a save (`SoundFor.confirm`) needs that no unit is without a copy and that the
master object was built and has one; a move that makes a unit (`SoundFor.prepareUnit`) takes a piece
out of `todo`.
-/

namespace Metax

open Ledger (Table)

namespace Kernel

variable {fresh : Prop} {todo todo' : Set UUID} {k k' : Kernel} {rid uid id : ID32}
  {r r' : Request} {u v : SaveUnit} {e : Entry} {units : Table ID32 SaveUnit}

/-! ### Entries -/

/-- An answer that decides is a confirmation. -/
theorem confirmed_of_answers {log : List Entry} (h : e.answers rid = true)
    (hdecides : e.decides = true) : Confirmed (e :: log) rid := by
  cases e with
  | respond o i resp =>
    obtain rfl : o = rid := of_decide_eq_true h
    exact ⟨i, resp, List.mem_cons_self, hdecides⟩
  | _ => exact Bool.noConfusion h

/-- An entry about the request is written. -/
theorem Progress.write (h : Progress fresh k rid) (hid : rid < k.requestCounter)
    (hdecides : e.decides = true → Settled k.saveUnits rid)
    (hbuilt : ∀ r m, e = .built rid r m → Settled k.saveUnits rid)
    (hanswers : e.answers rid = true → k.log.countP (Entry.answers rid) = 0 ∧
      (k.imsReqIds.lookup rid = none ∨ e.decides = true))
    (hjust : Justified fresh e k.log) : Progress fresh (k.write e) rid where
  ims := h.ims
  main := h.main
  entry _ _ _ _ := hid
  decided hd := (decided_cons.mp hd).elim (fun he => hdecides he.2) h.decided
  built hb uid u hu := by
    rcases built_cons.mp hb with ⟨r, m, he⟩ | hb
    · exact absurd hu (hbuilt r m he.symm uid u)
    · exact h.built hb uid u hu
  single := h.single
  master uid u hu hmaster := by
    obtain ⟨r, m, hmem, huuid⟩ := h.master uid u hu hmaster
    exact ⟨r, m, List.mem_cons_of_mem e hmem, huuid⟩
  answers := by
    have hcount : (k.write e).log.countP (Entry.answers rid) = _ := List.countP_cons
    by_cases hans : e.answers rid = true
    · rw [hcount, (hanswers hans).1, if_pos hans]
    · rw [hcount, if_neg hans]
      exact h.answers
  unanswered hd hi := by
    have hcount : (k.write e).log.countP (Entry.answers rid) = _ := List.countP_cons
    by_cases hans : e.answers rid = true
    · rcases (hanswers hans).2 with hnone | hdecides
      · rw [show (k.write e).imsReqIds.lookup rid = none from hnone] at hi
        exact Bool.noConfusion hi
      · exact absurd (confirmed_of_answers hans hdecides) hd
    · rw [hcount, if_neg hans]
      exact h.unanswered (fun hc => hd (confirmed_cons hc)) hi
  past := ⟨fun _ => hjust, h.past⟩

/-- The record of the request stays true while an entry is written. -/
theorem RequestSound.write (h : RequestSound fresh todo k rid r) (hfetch : r.waitsFor ≠ .oldMaster)
    (hgot : ∀ m, e ≠ .gotOldMaster rid m)
    (hdecides : e.owner = rid → e.decides = true → r.waitsFor = .nothing)
    (hbuilt : ∀ r' m, e = .built rid r' m → r.waitsFor ≠ .genAesKey) :
    RequestSound fresh todo (k.write e) rid r where
  id := h.id
  listed := h.listed
  owned hd := h.owned fun hdec => hd (decided_cons.mpr (.inr hdec))
  waits hwait := by
    obtain ⟨hsettled, hdec⟩ := h.waits hwait
    refine ⟨hsettled, fun hd => ?_⟩
    rcases decided_cons.mp hd with he | hd
    · exact hwait (hdecides he.1 he.2)
    · exact hdec hd
  early hwait hb := by
    rcases built_cons.mp hb with ⟨r', m, he⟩ | hb
    · exact hwait.elim hfetch (hbuilt r' m he.symm)
    · exact h.early hwait hb
  fetching hwait := absurd hwait hfetch
  encryption pkg hwait := by
    obtain ⟨r', m, hmem, huuid⟩ := h.encryption pkg hwait
    exact ⟨r', m, List.mem_cons_of_mem e hmem, huuid⟩
  pieces hwait p hp htodo := by
    rcases h.pieces hwait p hp htodo with hcopied | hunit | hdec
    · exact .inl (List.mem_cons_of_mem e hcopied)
    · exact .inr (.inl hunit)
    · exact .inr (.inr (decided_cons.mpr (.inr hdec)))
  unit := h.unit
  saved := h.saved
  old m := by
    rw [← h.old m]
    exact ⟨fun hmem => (List.mem_cons.mp hmem).resolve_left (hgot m).symm,
      List.mem_cons_of_mem e⟩
  apart := h.apart

/-- An entry is written that adds to the account of the save. -/
theorem SoundFor.write (h : SoundFor fresh todo k rid) (hplain : e.plain = true)
    (hid : rid < k.requestCounter)
    (hfetch : ∀ r, k.requests.lookup rid = some r → r.waitsFor ≠ .oldMaster)
    (hjust : Justified fresh e k.log) : SoundFor fresh todo (k.write e) rid := by
  have hdecides : e.decides ≠ true := by
    cases e <;> first | exact Bool.noConfusion hplain | exact Bool.false_ne_true
  have hanswers : e.answers rid ≠ true := by
    cases e <;> first | exact Bool.noConfusion hplain | exact Bool.false_ne_true
  have hbuilt : ∀ r m, e ≠ .built rid r m := by
    rintro r m rfl
    exact Bool.noConfusion hplain
  have hgot : ∀ m, e ≠ .gotOldMaster rid m := by
    rintro m rfl
    exact Bool.noConfusion hplain
  refine ⟨h.toProgress.write hid (fun he => absurd he hdecides) (fun r m he => absurd he
    (hbuilt r m)) (fun he => absurd he hanswers) hjust, fun r hr => ?_⟩
  exact (h.request r hr).write (hfetch r hr) hgot (fun _ he => absurd he hdecides)
    fun r' m he => absurd he (hbuilt r' m)

/-- `handle_piece_delete`, where the delete is justified. -/
theorem SoundFor.handlePieceDelete {p : UUID} (h : SoundFor fresh todo k rid)
    (hr : k.requests.lookup rid = some r) (hwait : r.waitsFor = .nothing)
    (hjust : Justified fresh (.delete rid k.requestCounter p) k.log) :
    SoundFor fresh todo (k.handlePieceDelete rid p) rid := by
  have hfetch : ∀ r', k.requests.lookup rid = some r' → r'.waitsFor ≠ .oldMaster := by
    intro r' hr'
    obtain rfl := Option.some.inj (hr.symm.trans hr')
    exact fun he => Wait.noConfusion (hwait.symm.trans he)
  have hwrite : SoundFor fresh todo (k.write (.delete rid k.requestCounter p)) rid :=
    h.write rfl (h.request r hr).id hfetch hjust
  have hframe : Frame rid (k.write (.delete rid k.requestCounter p))
      (k.handlePieceDelete rid p) :=
    (Frame.refl rid _).congr (Nat.le_succ _) rfl rfl rfl rfl
  exact hframe.soundFor hwrite

/-- The id of the request at the IMS is forgotten. -/
theorem Progress.forget (h : Progress fresh k rid) : Progress fresh (k.forget rid) rid := by
  refine ⟨fun i hi => ?_, h.main, h.entry, h.decided, h.built, h.single, h.master, h.answers,
    fun _ hi => ?_, h.past⟩
  · rw [Kernel.forget, AList.lookup_erase] at hi
    exact absurd hi.symm (Option.some_ne_none i)
  · rw [Kernel.forget, AList.lookup_erase] at hi
    exact Bool.noConfusion hi

/-- The IMS is told that a save has failed. -/
theorem Progress.respond {resp : Response} (h : Progress fresh k rid)
    (hresp : k.respond rid resp = some k') (hfail : resp.isConfirm = false)
    (hopen : ¬ Confirmed k.log rid) : Progress fresh k' rid := by
  obtain ⟨i, hi, hk'⟩ := Option.bind_eq_some_iff.mp hresp
  obtain rfl := Option.some.inj hk'
  have hzero := h.unanswered hopen (by rw [hi]; rfl)
  have hnot : (Entry.respond rid i resp).decides ≠ true := ne_true_of_eq_false hfail
  -- first the id is forgotten, then the entry is written
  refine h.forget.write (h.ims i hi) (fun he => absurd he hnot) (fun r m he => ?_)
    (fun _ => ⟨hzero, .inl (AList.lookup_erase rid k.imsReqIds)⟩) (fun he => absurd he hnot)
  exact Entry.noConfusion he

/-- The kernel after an answer, with the log and the ids at the IMS aside. -/
theorem respond_eq_some {resp : Response} (hresp : k.respond rid resp = some k') :
    ∃ i, k' = (k.write (.respond rid i resp)).forget rid := by
  obtain ⟨i, -, hk'⟩ := Option.bind_eq_some_iff.mp hresp
  exact ⟨i, (Option.some.inj hk').symm⟩

/-- What the record of a request says does not depend on the queues, the other requests, the
ids at the IMS and the flow control. -/
theorem RequestSound.congr (h : RequestSound fresh todo k rid r)
    (hcounter : k'.requestCounter = k.requestCounter) (hunits : k'.saveUnits = k.saveUnits)
    (hlog : k'.log = k.log) : RequestSound fresh todo k' rid r := by
  obtain ⟨c, reqs, ims, us, ps, pr, si, ri, po, l⟩ := k
  obtain ⟨c', reqs', ims', us', ps', pr', si', ri', po', l'⟩ := k'
  obtain rfl : c' = c := hcounter
  obtain rfl : us' = us := hunits
  obtain rfl : l' = l := hlog
  exact ⟨h.id, h.listed, h.owned, h.waits, h.early, h.fetching, h.encryption, h.pieces, h.unit,
    h.saved, h.old, h.apart⟩

/-- The parts of the kernel that are looked at. -/
theorem Progress.congr (h : Progress fresh k rid) (hcounter : k'.requestCounter = k.requestCounter)
    (hims : k'.imsReqIds = k.imsReqIds) (hunits : k'.saveUnits = k.saveUnits)
    (hlog : k'.log = k.log) : Progress fresh k' rid := by
  obtain ⟨c, reqs, ims, us, ps, pr, si, ri, po, l⟩ := k
  obtain ⟨c', reqs', ims', us', ps', pr', si', ri', po', l'⟩ := k'
  obtain rfl : c' = c := hcounter
  obtain rfl : ims' = ims := hims
  obtain rfl : us' = us := hunits
  obtain rfl : l' = l := hlog
  exact ⟨h.ims, h.main, h.entry, h.decided, h.built, h.single, h.master, h.answers, h.unanswered,
    h.past⟩

/-- A request that is over may be forgotten. -/
theorem SoundFor.forget (h : SoundFor fresh todo k rid) : SoundFor fresh todo (k.forget rid) rid :=
  ⟨h.toProgress.forget, fun r hr => (h.request r hr).congr rfl rfl rfl⟩

/-- What the record of a request that waits for nothing says stays true as the IMS is told. -/
theorem RequestSound.write_respond {i : ID32} {resp : Response}
    (h : RequestSound fresh todo k rid r)
    (hnothing : r.waitsFor = .nothing) :
    RequestSound fresh todo (k.write (.respond rid i resp)) rid r := by
  refine h.write ?_ (fun m he => Entry.noConfusion he) (fun _ _ => hnothing)
    fun r' m he => Entry.noConfusion he
  rw [hnothing]
  exact Wait.noConfusion

/-- An answer that is no confirmation, to a save that was not confirmed. -/
theorem SoundFor.respond {resp : Response} (h : SoundFor fresh todo k rid)
    (hresp : k.respond rid resp = some k')
    (hwait : ∀ r, k.requests.lookup rid = some r → r.waitsFor = .nothing)
    (hfail : resp.isConfirm = false) (hopen : ¬ Confirmed k.log rid) :
    SoundFor fresh todo k' rid := by
  refine ⟨h.toProgress.respond hresp hfail hopen, fun r hr => ?_⟩
  obtain ⟨i, rfl⟩ := respond_eq_some hresp
  exact ((h.request r hr).write_respond (hwait r hr)).congr rfl rfl rfl

/-- The IMS is told that a save is confirmed; its id there is not forgotten yet. -/
theorem SoundFor.confirm {i : ID32} {resp : Response} (h : SoundFor fresh todo k rid)
    (hi : k.imsReqIds.lookup rid = some i) (hresp : resp.isConfirm = true)
    (hwait : ∀ r, k.requests.lookup rid = some r → r.waitsFor = .nothing)
    (hsettled : Settled k.saveUnits rid) (hdec : ¬ Decided k.log rid)
    (hcopied : ∃ r m, .built rid r m ∈ k.log ∧ .copied rid .master r.uuid ∈ k.log) :
    SoundFor fresh todo (k.write (.respond rid i resp)) rid := by
  have hzero := h.unanswered (fun hc => hdec (decided_of_confirmed hc)) (by rw [hi]; rfl)
  refine ⟨h.toProgress.write (h.ims i hi) (fun _ => hsettled) (fun _ _ he => Entry.noConfusion he)
    (fun _ => ⟨hzero, .inr hresp⟩) fun _ => ⟨hdec, hcopied⟩, fun r hr => ?_⟩
  exact (h.request r hr).write_respond (hwait r hr)

/-! ### The record of the request -/

/-- The record is written back as it should be. -/
theorem Progress.setRequest (h : Progress fresh k rid) (hr : RequestSound fresh todo k rid r) :
    SoundFor fresh todo (k.setRequest rid r) rid := by
  refine ⟨h.congr rfl rfl rfl rfl, fun r' hr' => ?_⟩
  rw [Kernel.setRequest, AList.lookup_insert] at hr'
  obtain rfl := Option.some.inj hr'
  exact hr.congr rfl rfl rfl

/-- Nothing is said of a request whose record is gone. -/
theorem Progress.eraseRequest (h : Progress fresh k rid) :
    SoundFor fresh todo { k with requests := k.requests.erase rid } rid := by
  refine ⟨h.congr rfl rfl rfl rfl, fun r hr => ?_⟩
  rw [AList.lookup_erase] at hr
  exact absurd hr.symm (Option.some_ne_none r)

/-- The request is made to wait for something else. -/
theorem RequestSound.setWait {w : Wait} (h : RequestSound fresh todo k rid r)
    (hnow : r.waitsFor ≠ .genAesKey)
    (hwaits : w ≠ .nothing → Settled k.saveUnits rid ∧ ¬ Decided k.log rid ∧
      ∃ pkg, w = .encryption pkg ∧ ∃ r' m, .built rid r' m ∈ k.log ∧ r'.uuid = r.uuid) :
    RequestSound fresh todo k rid { r with waitsFor := w } where
  id := h.id
  listed := h.listed
  owned := h.owned
  waits hwait := ⟨(hwaits hwait).1, (hwaits hwait).2.1⟩
  early hwait := by
    rcases hwait with rfl | rfl
    · obtain ⟨-, -, pkg, hpkg, -⟩ := hwaits Wait.noConfusion
      exact Wait.noConfusion hpkg
    · obtain ⟨-, -, pkg, hpkg, -⟩ := hwaits Wait.noConfusion
      exact Wait.noConfusion hpkg
  fetching hwait := by
    obtain rfl : w = .oldMaster := hwait
    obtain ⟨-, -, pkg, hpkg, -⟩ := hwaits Wait.noConfusion
    exact Wait.noConfusion hpkg
  encryption pkg hwait := by
    obtain rfl : w = .encryption pkg := hwait
    obtain ⟨-, -, -, -, hbuilt⟩ := hwaits Wait.noConfusion
    exact hbuilt
  pieces _ := h.pieces hnow
  unit := h.unit
  saved := h.saved
  old := h.old
  apart := h.apart

/-! ### Units -/

/-- A unit that is copied is not among those that wait. -/
theorem uncopied_of_copy (h : Uncopied (units.insert uid { u with bkpCount := u.bkpCount + 1 }) rid
    id v) : id ≠ uid ∧ Uncopied units rid id v := by
  have hlookup := h.lookup
  obtain ⟨hid, rfl⟩ | ⟨hid, hlookup⟩ := Ledger.eq_or_of_lookup_insert hlookup
  · exact absurd h.zero (Nat.succ_ne_zero _)
  · exact ⟨hid, hlookup, h.main, h.zero⟩

/-- The other units wait as before. -/
theorem uncopied_insert_ne (hne : id ≠ uid) (h : Uncopied units rid id v) :
    Uncopied (units.insert uid u) rid id v :=
  ⟨(AList.lookup_insert_ne hne).trans h.lookup, h.main, h.zero⟩

/-- A unit has one more copy, and the log says so. -/
theorem SoundFor.copy (h : SoundFor fresh todo k rid) (hlook : k.saveUnits.lookup uid = some u)
    (hmain : u.mainRequest = rid) (hcopied : .copied rid u.type u.uuid ∈ k.log) :
    SoundFor fresh todo (k.setUnit uid { u with bkpCount := u.bkpCount + 1 }) rid := by
  have hback : ∀ id v, Uncopied (k.setUnit uid { u with bkpCount := u.bkpCount + 1 }).saveUnits
      rid id v → Uncopied k.saveUnits rid id v := fun id v hv => (uncopied_of_copy hv).2
  have hmains : ∀ id v, (k.setUnit uid { u with bkpCount := u.bkpCount + 1 }).saveUnits.lookup id =
      some v → ∃ v', k.saveUnits.lookup id = some v' ∧ v.mainRequest = v'.mainRequest :=
    Ledger.exists_of_lookup_insert (fun _ => rfl) hlook rfl
  refine ⟨⟨h.ims, ?_, h.entry, ?_, ?_, ?_, ?_, h.answers, h.unanswered, h.past⟩, fun r hr => ?_⟩
  · intro id v hv hvmain
    obtain ⟨v', hv', hvv'⟩ := hmains id v hv
    exact h.main id v' hv' (hvv'.symm.trans hvmain)
  · exact fun hd id v hv => h.decided hd id v (hback id v hv)
  · exact fun hb id v hv => h.built hb id v (hback id v hv)
  · exact fun id v id' v' hv ht hv' => h.single id v id' v' (hback id v hv) ht (hback id' v' hv')
  · exact fun id v hv => h.master id v (hback id v hv)
  have hreq := h.request r hr
  refine ⟨hreq.id, fun id v hv => hreq.listed id v (hback id v hv), ?_, ?_, hreq.early, ?_,
    hreq.encryption, ?_, fun id v hv => hreq.unit id v (hback id v hv), hreq.saved, hreq.old,
    hreq.apart⟩
  · intro hd id hid
    refine ⟨(hreq.owned hd id hid).1, fun v hv => ?_⟩
    obtain ⟨v', hv', hvv'⟩ := hmains id v hv
    exact hvv'.trans ((hreq.owned hd id hid).2 v' hv')
  · intro hwait
    obtain ⟨hsettled, hdec⟩ := hreq.waits hwait
    exact ⟨fun id v hv => hsettled id v (hback id v hv), hdec⟩
  · intro hwait
    exact absurd hmain ((hreq.fetching hwait).2.2.2 uid u hlook)
  · intro hwait p hp htodo
    rcases hreq.pieces hwait p hp htodo with hin | ⟨id, v, hv, htype, huuid⟩ | hdec
    · exact .inl hin
    · -- the piece of this very unit now has a copy
      by_cases hid : id = uid
      · subst hid
        obtain rfl := Option.some.inj (hlook.symm.trans hv.lookup)
        exact .inl (huuid ▸ htype ▸ hcopied)
      · exact .inr (.inl ⟨id, v, uncopied_insert_ne hid hv, htype, huuid⟩)
    · exact .inr (.inr hdec)

/-- What a new unit needs: a piece comes before the master object is built and is listed in
it; the master comes when it is built and every other unit has a copy. -/
def Startable (k : Kernel) (rid : ID32) (r : Request) (uuid : UUID) : UnitType → Prop
  | .piece => ¬ Built k.log rid ∧ uuid ∈ r.masterJson
  | .master => Settled k.saveUnits rid ∧ ∃ r' m, .built rid r' m ∈ k.log ∧ r'.uuid = uuid

/-- A new unit waits for its first copy, and the others as before. -/
theorem uncopied_newUnit (h : Uncopied (units.insert uid u) rid id v) :
    (id = uid ∧ v = u) ∨ (id ≠ uid ∧ Uncopied units rid id v) := by
  obtain ⟨hid, rfl⟩ | ⟨hid, hlookup⟩ := Ledger.eq_or_of_lookup_insert h.lookup
  · exact .inl ⟨hid, rfl⟩
  · exact .inr ⟨hid, hlookup, h.main, h.zero⟩

/-- `prepare_unit_for_save`. -/
theorem SoundFor.prepareUnit {b s : ℕ} {t : UnitType} {uuid : UUID} {c : Bytes} {backup : Bool}
    (h : SoundFor fresh todo k rid) (hunits : k.UnitsFresh)
    (hr : k.requests.lookup rid = some r) (hwait : r.waitsFor = .nothing)
    (hdec : ¬ Decided k.log rid) (hstart : k.Startable rid r uuid t) :
    SoundFor fresh { p ∈ todo | t = .piece → p ≠ uuid }
      (k.prepareUnitForSave rid r b s t uuid c backup) rid := by
  have hreq := h.request r hr
  -- what is asked of the progress of a save
  refine ⟨⟨fun i hi => (h.ims i hi).trans (Nat.lt_succ_self _), fun _ _ _ _ =>
    hreq.id.trans (Nat.lt_succ_self _), fun _ _ _ _ => hreq.id.trans (Nat.lt_succ_self _),
    fun hd => absurd hd hdec, ?_, ?_, ?_, h.answers, h.unanswered, h.past⟩, fun r' hr' => ?_⟩
  -- a built request has no piece among its units that have no copy
  · intro hb id v hv
    rcases uncopied_newUnit hv with ⟨-, rfl⟩ | ⟨-, hv⟩
    · rcases t with _ | _
      · rfl
      · exact absurd hb hstart.1
    · exact h.built hb id v hv
  · intro id v id' v' hv htype hv'
    rcases t with _ | _
    · -- the master is the only unit without a copy
      rcases uncopied_newUnit hv with ⟨rfl, -⟩ | ⟨-, hv⟩
      · rcases uncopied_newUnit hv' with ⟨rfl, -⟩ | ⟨-, hv'⟩
        · rfl
        · exact absurd hv' (hstart.1 id' v')
      · exact absurd hv (hstart.1 id v)
    · rcases uncopied_newUnit hv with ⟨-, rfl⟩ | ⟨-, hv⟩
      · exact UnitType.noConfusion htype
      · obtain ⟨r', m, hmem, -⟩ := h.master id v hv htype
        exact absurd ⟨r', m, hmem⟩ hstart.1
  · intro id v hv htype
    rcases uncopied_newUnit hv with ⟨-, rfl⟩ | ⟨-, hv⟩
    · rcases t with _ | _
      · exact hstart.2
      · exact UnitType.noConfusion htype
    · exact h.master id v hv htype
  dsimp only [prepareUnitForSave, Kernel.setRequest, Kernel.setUnit] at hr'
  rw [AList.lookup_insert] at hr'
  obtain rfl := Option.some.inj hr'
  -- what is asked of the request's own record
  refine ⟨hreq.id.trans (Nat.lt_succ_self _), ?_, ?_, fun hw => absurd hwait hw,
    fun hw => ?_, fun hw => ?_, fun pkg hw => ?_, ?_, ?_, hreq.saved, hreq.old, hreq.apart⟩
  · intro id v hv
    rcases uncopied_newUnit hv with ⟨rfl, -⟩ | ⟨-, hv⟩
    · exact List.mem_cons_self
    · exact List.mem_cons_of_mem _ (hreq.listed id v hv)
  · intro hd id hid
    rcases List.mem_cons.mp hid with rfl | hid
    · refine ⟨Nat.lt_succ_self _, fun v hv => ?_⟩
      dsimp only [prepareUnitForSave, Kernel.setRequest, Kernel.setUnit] at hv
      rw [AList.lookup_insert] at hv
      obtain rfl := Option.some.inj hv
      rfl
    · obtain ⟨hlt, howned⟩ := hreq.owned hdec id hid
      refine ⟨hlt.trans (Nat.lt_succ_self _), fun v hv => ?_⟩
      dsimp only [prepareUnitForSave, Kernel.setRequest, Kernel.setUnit] at hv
      rw [AList.lookup_insert_ne hlt.ne] at hv
      exact howned v hv
  · dsimp only at hw
    rw [hwait] at hw
    exact hw.elim Wait.noConfusion Wait.noConfusion
  · exact Wait.noConfusion (hwait.symm.trans hw)
  · exact Wait.noConfusion (hwait.symm.trans hw)
  -- a piece is accounted for by its unit: the new one, or one of before
  · intro _ p hp htodo
    have hnow : r.waitsFor ≠ .genAesKey := by
      rw [hwait]
      exact Wait.noConfusion
    by_cases hnew : t = .piece ∧ p = uuid
    · obtain ⟨rfl, rfl⟩ := hnew
      exact .inr (.inl ⟨k.requestCounter, _, ⟨AList.lookup_insert _, rfl, rfl⟩, rfl, rfl⟩)
    · have htodo' : p ∉ todo := fun hin => htodo ⟨hin, fun ht hp => hnew ⟨ht, hp⟩⟩
      rcases hreq.pieces hnow p hp htodo' with hin | ⟨id, v, hv, htype, huuid⟩ | hd
      · exact .inl hin
      · have hid : id ≠ k.requestCounter := (hunits id v hv.lookup).ne
        exact .inr (.inl ⟨id, v, uncopied_insert_ne hid hv, htype, huuid⟩)
      · exact absurd hd hdec
  · intro id v hv htype
    rcases uncopied_newUnit hv with ⟨-, rfl⟩ | ⟨-, hv⟩
    · rcases t with _ | _
      · exact UnitType.noConfusion htype
      · exact hstart.2
    · exact hreq.unit id v hv htype

end Kernel

end Metax
