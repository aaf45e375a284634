import Metax.Kernel.QueueProgress
import Metax.Kernel.Site

/-!
# What a failed save leaves behind

While a save may still be confirmed, `Ongoing` keeps track of what has been stored of it: it is
known to have been copied, so that it is deleted when the save fails. Once the save has failed,
`Ended` says that nothing is left of it but pieces that will be deleted, and that no answer can
bring anything back.

`Site` has the kernel together with the storages it hands units to (`Metax.Kernel.Site`), as far as
they have written something for the save. A save that fails leaves nothing behind, neither a stored
piece nor a file that was begun nor an id in a queue, along every run whose events are tidy
(`leavesNothing_run`); an event that is not tidy writes something behind the back of the kernel, or
leaves an id where the queue is not worked off to its end.
-/

namespace Metax

open Ledger (Table)
open Run (run)

namespace Site

/-! ### The invariant -/

/-- A unit of the save has failed with no copy. -/
def Failed (s : Site) (rid : ID32) : Prop := ∃ uuid, .failedUnit rid uuid ∈ s.kernel.log

/-- The ghost tables know every unit that is there, and nothing that is still to come. -/
structure Known (s : Site) : Prop where
  live : ∀ id u, s.kernel.saveUnits.lookup id = some u → s.units.lookup id = some u
  unit : ∀ id u, s.units.lookup id = some u →
    id < s.kernel.requestCounter ∧ u.mainRequest < s.kernel.requestCounter
  disk : ∀ x ∈ s.disk, x.1 < s.kernel.requestCounter

/-- What holds of a save while it may still be confirmed: whatever has been saved of it is known
to have been copied, and the copied pieces are listed for the case that it fails. -/
structure Ongoing (s : Site) (rid : ID32) : Prop where
  copied : ∀ id u, s.kernel.saveUnits.lookup id = some u → u.mainRequest = rid → u.bkpCount ≠ 0 →
    .copied rid u.type u.uuid ∈ s.kernel.log
  gone : ∀ id u, s.units.lookup id = some u → u.mainRequest = rid →
    s.kernel.saveUnits.lookup id = none → .copied rid u.type u.uuid ∈ s.kernel.log
  saved : ∀ p, .copied rid .piece p ∈ s.kernel.log →
    ∀ r, s.kernel.requests.lookup rid = some r → p ∈ r.savedUnits
  master : ∀ p, .copied rid .master p ∈ s.kernel.log → Decided s.kernel.log rid
  disk : ∀ p, (rid, p) ∈ s.disk → ∃ t, .copied rid t p ∈ s.kernel.log

/-- What holds once the save has failed: what is on disk of it will be deleted, and nothing more
is to come. -/
structure Ended (s : Site) (rid : ID32) : Prop where
  units : ∀ id u, s.kernel.saveUnits.lookup id = some u → u.mainRequest ≠ rid
  queues : ∀ id u, s.kernel.Queued id → s.units.lookup id = some u → u.mainRequest ≠ rid
  posted : ∀ id u, s.units.lookup id = some u → u.mainRequest = rid →
    s.kernel.posted.lookup id ≠ some .saveData
  disk : ∀ p, (rid, p) ∈ s.disk → (rid, p) ∈ s.toDelete

/-- The invariant of one save. -/
structure Clean (s : Site) (rid : ID32) : Prop where
  sound : Kernel.Sound False s.kernel
  known : s.Known
  told : s.SaveFailed rid → s.Failed rid
  ongoing : ¬ s.Failed rid → s.Ongoing rid
  ended : s.Failed rid → s.Ended rid

variable {codec : Codec} {cfg : KernelCfg} {s s' : Site} {rid uid id : ID32} {u v : SaveUnit}
  {e : Event} {k : Kernel} {p : UUID} {x : ID32 × UUID}

/-! ### One step of the kernel -/

/-- A unit is remembered as it was last seen. -/
theorem lookup_goOn : (s.goOn e k).units.lookup id =
    if (k.saveUnits.lookup id).isSome then k.saveUnits.lookup id else s.units.lookup id := by
  rw [goOn]
  split_ifs with hlive
  · exact AList.lookup_union_left (AList.lookup_isSome.mp hlive)
  · exact AList.lookup_union_right fun hin => hlive (AList.lookup_isSome.mpr hin)

/-- One that is there is remembered as it is. -/
theorem lookup_goOn_of_live (h : k.saveUnits.lookup id = some u) :
    (s.goOn e k).units.lookup id = some u := by
  rw [lookup_goOn, h]
  rfl

/-- A unit that is known after a step is there, or it was known before. -/
theorem known_goOn (h : (s.goOn e k).units.lookup id = some u) :
    k.saveUnits.lookup id = some u ∨
      k.saveUnits.lookup id = none ∧ s.units.lookup id = some u := by
  rw [lookup_goOn] at h
  split_ifs at h with hlive
  · exact .inl h
  · exact .inr ⟨Option.not_isSome_iff_eq_none.mp hlive, h⟩

/-- What is filed for an id is the unit that was known under it. -/
theorem mem_file (h : x ∈ s.file id) :
    ∃ u, s.units.lookup id = some u ∧ x = (u.mainRequest, u.uuid) := by
  rw [file] at h
  rcases hlook : s.units.lookup id with _ | u
  · rw [hlook] at h
    exact absurd h List.not_mem_nil
  · rw [hlook] at h
    exact ⟨u, rfl, List.mem_singleton.mp h⟩

/-- The storage confirms what it has written. -/
theorem mem_written (h : x ∈ s.written e) :
    ∃ id u, e = .storageSaveConfirm id ∧ s.units.lookup id = some u ∧
      x = (u.mainRequest, u.uuid) := by
  cases e with
  | storageSaveConfirm id =>
    obtain ⟨u, hu, hx⟩ := mem_file h
    exact ⟨id, u, rfl, hu, hx⟩
  | imsSave | imsUpdate | oldMaster | oldMasterFailed | getAesKey | masterEncrypted
  | pieceEncrypted | storageNoSpace | storageFailed | routerSaveConfirm | routerCancel
  | routerSaveOffer | routerAuth | fileChanged => exact absurd h List.not_mem_nil

/-- A unit belongs to a save by what is remembered of it. -/
theorem ofSave_eq_true : s.ofSave rid id = true ↔
    ∃ u, s.units.lookup id = some u ∧ u.mainRequest = rid := by
  rw [ofSave, Option.any_eq_true]
  exact exists_congr fun u => and_congr Iff.rfl decide_eq_true_iff

/-- Deletions that were logged in a step are asked for. -/
theorem mem_toDelete_goOn {es : List Entry} (hlog : k.log = es ++ s.kernel.log) {d : Entry}
    (hd : d ∈ es) (hx : d.deletion = some x) : x ∈ (s.goOn e k).toDelete := by
  refine List.mem_append_left _ (List.mem_filterMap.mpr ⟨d, ?_, hx⟩)
  have hlen : k.log.length - s.kernel.log.length = es.length := by
    rw [hlog, List.length_append]
    omega
  rw [hlen, hlog, List.take_left]
  exact hd

/-- The log only grows. -/
theorem log_step (hk : Kernel.Sound False s.kernel) (h : s.kernel.step codec cfg e = some k) :
    ∃ es, k.log = es ++ s.kernel.log := by
  obtain ⟨honly, -⟩ := Kernel.sound_event hk False.elim h
  obtain ⟨es, hes, -⟩ := (honly.frame (s.kernel.owner e + 1) (Nat.succ_ne_self _)).log
  exact ⟨es, hes⟩

/-- **What the kernel has is remembered**, step by step. -/
theorem Known.goOn (hs : s.Known) (hk : Kernel.Sound False s.kernel)
    (h : s.kernel.step codec cfg e = some k) : (s.goOn e k).Known := by
  have hk' := Kernel.sound_step hk False.elim h
  have hcounter := (Kernel.buried_step hk h).counter
  refine ⟨fun id u hu => lookup_goOn_of_live hu, fun id u hu => ?_, fun x hx => ?_⟩
  · rcases known_goOn hu with hlive | ⟨-, hold⟩
    · exact ⟨hk'.unitsFresh id u hlive, (hk'.soundFor u.mainRequest).main id u hlive rfl⟩
    · obtain ⟨hid, hmain⟩ := hs.unit id u hold
      exact ⟨hid.trans_le hcounter, hmain.trans_le hcounter⟩
  · rcases List.mem_append.mp hx with hx | hx
    · obtain ⟨id, u, -, hu, rfl⟩ := mem_written hx
      exact (hs.unit id u hu).2.trans_le hcounter
    · exact (hs.disk x hx).trans_le hcounter

/-! ### A save that has failed -/

/-- A failed save is decided. -/
theorem Failed.decided (h : s.Failed rid) : Decided s.kernel.log rid := by
  obtain ⟨uuid, hmem⟩ := h
  exact ⟨_, hmem, rfl, rfl⟩

/-- After the failure nothing happens to the save but that its pieces are deleted. -/
theorem Ended.goOn (hended : s.Ended rid) (hfailed : s.Failed rid) (hs : s.Known)
    (hk : Kernel.Sound False s.kernel) (h : s.kernel.step codec cfg e = some k) :
    (s.goOn e k).Ended rid := by
  obtain ⟨honly, -⟩ := Kernel.sound_event hk False.elim h
  have hown : s.kernel.owner e ≠ rid := Kernel.owner_ne hk hfailed.decided hended.units h
  have hframe := honly.frame rid hown.symm
  have hburied := Kernel.buried_step hk h
  -- a unit of the save that is still known is gone
  have hgone : ∀ id u, (s.goOn e k).units.lookup id = some u → u.mainRequest = rid →
      s.units.lookup id = some u ∧ s.kernel.saveUnits.lookup id = none := by
    intro id u hu hmain
    rcases known_goOn hu with hlive | ⟨-, hold⟩
    · obtain ⟨v, hv, hlike⟩ := hframe.unit id u hlive hmain
      exact absurd (hlike.mainRequest ▸ hmain) (hended.units id v hv)
    · refine ⟨hold, ?_⟩
      by_contra hne
      obtain ⟨v, hv⟩ := Option.ne_none_iff_exists'.mp hne
      obtain rfl := Option.some.inj (hold.symm.trans (hs.live id v hv))
      exact hended.units id u hv hmain
  refine ⟨fun id u hu hmain => ?_, fun id u hq hu hmain => ?_, fun id u hu hmain hp => ?_,
    fun p hp => ?_⟩
  · obtain ⟨v, hv, hlike⟩ := hframe.unit id u hu hmain
    exact hended.units id v hv (hlike.mainRequest ▸ hmain)
  · obtain ⟨hold, hnone⟩ := hgone id u hu hmain
    exact hended.queues id u (hburied.queued id (hs.unit id u hold).1 hnone hq) hold hmain
  · obtain ⟨hold, hnone⟩ := hgone id u hu hmain
    exact hended.posted id u hold hmain
      (hburied.posted id (hs.unit id u hold).1 hnone hp)
  · rcases List.mem_append.mp hp with hp | hp
    · obtain ⟨id, u, rfl, hu, hx⟩ := mem_written hp
      obtain ⟨rfl, -⟩ := Prod.mk.inj hx
      obtain ⟨hposted, -⟩ := pocoAssert_eq_some.mp h
      exact absurd hposted (hended.posted id u hu rfl)
    · exact List.mem_append_right _ (hended.disk p hp)

/-! ### A save that goes on -/

/-- The save has only gone on. -/
theorem Ongoing.goOn (hgoing : s.Ongoing rid) (hs : s.Known)
    (hcopy : ¬ s.kernel.Confirms rid e) (honward : Kernel.Onward rid s.kernel k)
    (hlt : (∃ t p, .copied rid t p ∈ s.kernel.log) → rid < s.kernel.requestCounter) :
    (s.goOn e k).Ongoing rid := by
  obtain ⟨es, hes, htells⟩ := honward.log
  have hold : ∀ {t p}, .copied rid t p ∈ k.log → .copied rid t p ∈ s.kernel.log := by
    intro t p hmem
    rw [hes] at hmem
    exact (List.mem_append.mp hmem).resolve_left fun hin => htells _ hin rfl rfl
  have hnew : ∀ {d : Entry}, d ∈ s.kernel.log → d ∈ k.log := fun hmem =>
    hes ▸ List.mem_append_right es hmem
  refine ⟨fun id u hu hmain hne => ?_, fun id u hu hmain hnone => ?_, fun p hp r hr => ?_,
    fun p hp => ?_, fun p hp => ?_⟩
  · rcases honward.unit id u hu hmain with ⟨v, hv, hlike⟩ | ⟨-, hzero⟩
    · rw [hlike.type, hlike.uuid]
      exact hnew (hgoing.copied id v hv (hlike.mainRequest ▸ hmain) (hlike.bkpCount ▸ hne))
    · exact absurd hzero hne
  · rcases known_goOn hu with hlive | ⟨-, hunits⟩
    · exact absurd (hlive.symm.trans hnone) (Option.some_ne_none u)
    · rcases hlook : s.kernel.saveUnits.lookup id with _ | v
      · exact hnew (hgoing.gone id u hunits hmain hlook)
      · obtain rfl := Option.some.inj (hunits.symm.trans (hs.live id v hlook))
        by_cases hzero : u.bkpCount = 0
        · obtain ⟨w, hw, -⟩ := honward.waiting id u ⟨hlook, hmain, hzero⟩
          exact absurd (hw.symm.trans hnone) (Option.some_ne_none w)
        · exact hnew (hgoing.copied id u hlook hmain hzero)
  · obtain ⟨r₀, hr₀, hsub⟩ := honward.saved (hlt ⟨_, p, hold hp⟩) r hr
    exact hsub (hgoing.saved p (hold hp) r₀ hr₀)
  · obtain ⟨d, hd, hown, hdec⟩ := hgoing.master p (hold hp)
    exact ⟨d, hnew hd, hown, hdec⟩
  · rcases List.mem_append.mp hp with hp | hp
    · obtain ⟨id, u, rfl, hu, hx⟩ := mem_written hp
      obtain ⟨rfl, rfl⟩ := Prod.mk.inj hx
      rcases hlook : s.kernel.saveUnits.lookup id with _ | v
      · exact ⟨u.type, hnew (hgoing.gone id u hu rfl hlook)⟩
      · obtain rfl := Option.some.inj (hu.symm.trans (hs.live id v hlook))
        exact absurd ⟨u, hlook, rfl⟩ hcopy
    · obtain ⟨t, ht⟩ := hgoing.disk p hp
      exact ⟨t, hnew ht⟩

/-- A unit of the save has been confirmed. -/
theorem Ongoing.confirm {q : Kernel} (hgoing : s.Ongoing rid) (hs : s.Known)
    (hlook : s.kernel.saveUnits.lookup uid = some u) (hmain : u.mainRequest = rid)
    (hunits : q.saveUnits = s.kernel.saveUnits) (hrequests : q.requests = s.kernel.requests)
    (hlog : q.log = s.kernel.log) (honward : Kernel.Onward rid (q.counted uid u) k)
    (hlt : rid < (q.counted uid u).requestCounter)
    (hfirst : u.bkpCount = 0 →
      (u.type = .piece → ∀ r, k.requests.lookup rid = some r → u.uuid ∈ r.savedUnits) ∧
        (u.type = .master → Decided k.log rid))
    (hwritten : ∀ x ∈ s.written e, x = (rid, u.uuid)) : (s.goOn e k).Ongoing rid := by
  obtain ⟨es, hes, htells⟩ := honward.log
  have hcounted : (q.counted uid u).log = .copied rid u.type u.uuid :: s.kernel.log := by
    rw [← hlog, ← hmain]
    rfl
  have hnow : .copied rid u.type u.uuid ∈ k.log := by
    rw [hes, hcounted]
    exact List.mem_append_right es List.mem_cons_self
  have hnew : ∀ {d : Entry}, d ∈ s.kernel.log → d ∈ k.log := by
    intro d hd
    rw [hes, hcounted]
    exact List.mem_append_right es (List.mem_cons_of_mem _ hd)
  -- what was copied is this unit now, or another one before
  have hold : ∀ {t p}, .copied rid t p ∈ k.log →
      (t = u.type ∧ p = u.uuid) ∨ .copied rid t p ∈ s.kernel.log := by
    intro t p hmem
    rw [hes, hcounted] at hmem
    rcases List.mem_append.mp hmem with hin | hin
    · exact absurd rfl (htells _ hin rfl)
    · rcases List.mem_cons.mp hin with he | hin
      · injection he with _ htype huuid
        exact .inl ⟨htype, huuid⟩
      · exact .inr hin
  have hcopied : u.bkpCount ≠ 0 → .copied rid u.type u.uuid ∈ s.kernel.log :=
    hgoing.copied uid u hlook hmain
  have hother : ∀ i, i ≠ uid →
      (q.counted uid u).saveUnits.lookup i = s.kernel.saveUnits.lookup i := by
    intro i hi
    rw [← hunits]
    exact AList.lookup_insert_ne hi
  have hself : (q.counted uid u).saveUnits.lookup uid =
      some { u with bkpCount := u.bkpCount + 1 } := AList.lookup_insert _
  -- the parts of `Ongoing`, in its order
  refine ⟨fun id v hv hvmain hne => ?_, fun id v hv hvmain hnone => ?_, fun p hp r hr => ?_,
    fun p hp => ?_, fun p hp => ?_⟩
  · rcases honward.unit id v hv hvmain with ⟨w, hw, hlike⟩ | ⟨-, hzero⟩
    · rw [hlike.type, hlike.uuid]
      by_cases hid : id = uid
      · subst hid
        obtain rfl := Option.some.inj (hself.symm.trans hw)
        exact hnow
      · rw [hother id hid] at hw
        exact hnew (hgoing.copied id w hw (hlike.mainRequest ▸ hvmain) (hlike.bkpCount ▸ hne))
    · exact absurd hzero hne
  · rcases known_goOn hv with hlive | ⟨-, hknown⟩
    · exact absurd (hlive.symm.trans hnone) (Option.some_ne_none v)
    · by_cases hid : id = uid
      · subst hid
        obtain rfl := Option.some.inj (hknown.symm.trans (hs.live id u hlook))
        exact hnow
      · rcases hlive : s.kernel.saveUnits.lookup id with _ | w
        · exact hnew (hgoing.gone id v hknown hvmain hlive)
        · obtain rfl := Option.some.inj (hknown.symm.trans (hs.live id w hlive))
          -- a unit without a copy cannot go while its save goes on
          by_cases hzero : v.bkpCount = 0
          · obtain ⟨w, hw, -⟩ := honward.waiting id v ⟨(hother id hid).trans hlive, hvmain, hzero⟩
            exact absurd (hw.symm.trans hnone) (Option.some_ne_none w)
          · exact hnew (hgoing.copied id v hlive hvmain hzero)
  -- a piece that has been copied is among the saved ones
  · have hsaved : .copied rid .piece p ∈ s.kernel.log → p ∈ r.savedUnits := by
      intro hin
      obtain ⟨r₀, hr₀, hsub⟩ := honward.saved hlt r hr
      exact hsub (hgoing.saved p hin r₀ (hrequests ▸ hr₀))
    rcases hold hp with ⟨htype, rfl⟩ | hin
    · by_cases hzero : u.bkpCount = 0
      · exact (hfirst hzero).1 htype.symm r hr
      · exact hsaved (htype ▸ hcopied hzero)
    · exact hsaved hin
  · have hdecided : .copied rid .master p ∈ s.kernel.log → Decided k.log rid := by
      intro hin
      obtain ⟨d, hd, hown, hdec⟩ := hgoing.master p hin
      exact ⟨d, hnew hd, hown, hdec⟩
    rcases hold hp with ⟨htype, rfl⟩ | hin
    · by_cases hzero : u.bkpCount = 0
      · exact (hfirst hzero).2 htype.symm
      · exact hdecided (htype ▸ hcopied hzero)
    · exact hdecided hin
  -- what is stored on a disk was written now or before
  · rcases List.mem_append.mp hp with hp | hp
    · obtain ⟨-, rfl⟩ := Prod.mk.inj (hwritten _ hp)
      exact ⟨u.type, hnow⟩
    · obtain ⟨t, ht⟩ := hgoing.disk p hp
      exact ⟨t, hnew ht⟩

/-! ### The failure -/

/-- What erasing units does not touch. -/
theorem queues_eraseUnits {ids : List ID32} {q k : Kernel} (h : Kernel.eraseUnits ids q = some k) :
    k.posted = q.posted ∧ k.pendingSaveRequests = q.pendingSaveRequests ∧
      k.pendingRouterSaveReqs = q.pendingRouterSaveReqs ∧
        k.storageInputCnt = q.storageInputCnt := by
  induction ids generalizing q with
  | nil =>
    obtain rfl := Option.some.inj h
    exact ⟨rfl, rfl, rfl, rfl⟩
  | cons i ids ih =>
    obtain ⟨u, -, h⟩ := Option.bind_eq_some_iff.mp h
    obtain ⟨hposted, hsave, hrouter, hcnt⟩ := ih h
    rw [hposted, hsave, hrouter, hcnt]
    split_ifs <;> exact ⟨rfl, rfl, rfl, rfl⟩

/-- Every unit that was saved is deleted. -/
theorem log_deleteSavedUnits (rid : ID32) (us : List UUID) (k : Kernel) :
    ∃ es, (Kernel.deleteSavedUnits rid us k).log = es ++ k.log ∧
      ∀ p ∈ us, ∃ id, .delete rid id p ∈ es := by
  induction us generalizing k with
  | nil => exact ⟨[], rfl, fun _ hp => absurd hp List.not_mem_nil⟩
  | cons p us ih =>
    obtain ⟨es, hes, hall⟩ := ih (k.handlePieceDelete rid p)
    refine ⟨es ++ [.delete rid k.requestCounter p], ?_, fun p' hp' => ?_⟩
    · rw [Kernel.deleteSavedUnits, hes, List.append_assoc]
      rfl
    · rcases List.mem_cons.mp hp' with rfl | hp'
      · exact ⟨k.requestCounter, List.mem_append_right _ List.mem_cons_self⟩
      · obtain ⟨id, hid⟩ := hall p' hp'
        exact ⟨id, List.mem_append_left _ hid⟩

/-- What `process_not_backed_up_save_unit` does when no unit of the save has a copy. -/
theorem ended_of_failed {q : Kernel} {err : String} (hk : Kernel.SoundFor False ∅ q rid)
    (hall : ∀ i v, q.saveUnits.lookup i = some v → v.mainRequest = rid → v.bkpCount = 0)
    (h : (q.write (.failedUnit rid p)).processNotBackedUpSaveUnit rid err = some k) :
    (∃ r, q.requests.lookup rid = some r ∧ ∃ es, k.log = es ++ q.log ∧
      .failedUnit rid p ∈ es ∧ ∀ p ∈ r.savedUnits, ∃ id, .delete rid id p ∈ es) ∧
      (∀ i v, k.saveUnits.lookup i = some v → q.saveUnits.lookup i = some v ∧
        v.mainRequest ≠ rid) ∧ k.posted = q.posted ∧
      k.pendingSaveRequests = q.pendingSaveRequests ∧
      k.pendingRouterSaveReqs = q.pendingRouterSaveReqs ∧
        k.storageInputCnt = q.storageInputCnt := by
  obtain ⟨r, hr, h⟩ := Option.bind_eq_some_iff.mp h
  obtain ⟨m, hm, h⟩ := Option.bind_eq_some_iff.mp h
  obtain ⟨-, -, -, hlog, hunits⟩ := Kernel.eraseUnits_eq_some hm
  obtain ⟨fs, hfs, hdeletes⟩ := log_deleteSavedUnits rid r.savedUnits m
  have hdelete : Kernel.Quiet m (Kernel.deleteSavedUnits rid r.savedUnits m) :=
    Kernel.quiet_deleteSavedUnits
  -- the answer to the IMS is the newest entry
  obtain ⟨d, hd, hquiet⟩ : ∃ d, k.log = d :: (Kernel.deleteSavedUnits rid r.savedUnits m).log ∧
      Kernel.Quiet m k := by
    dsimp only at h
    split at h
    all_goals
      have hq := hdelete.trans (Kernel.quiet_respond h)
      obtain ⟨i, rfl⟩ := Kernel.respond_eq_some h
      exact ⟨_, rfl, hq⟩
  obtain ⟨hposted, hsave, hrouter, hcnt⟩ := queues_eraseUnits hm
  refine ⟨⟨r, hr, d :: (fs ++ [.failedUnit rid p]), ?_, ?_, fun p' hp' => ?_⟩, fun i v hv => ?_,
    hquiet.posted.trans hposted, hquiet.save.trans hsave, hquiet.router.trans hrouter,
    hquiet.cnt.trans hcnt⟩
  · rw [hd, hfs, hlog, List.cons_append, List.append_assoc]
    rfl
  · exact List.mem_cons_of_mem _ (List.mem_append_right _ List.mem_cons_self)
  · obtain ⟨id, hid⟩ := hdeletes p' hp'
    exact ⟨id, List.mem_cons_of_mem _ (List.mem_append_left _ hid)⟩
  · rw [hquiet.units] at hv
    obtain ⟨hnot, hlook⟩ := hunits i v hv
    refine ⟨hlook, fun hmain => ?_⟩
    exact hnot ((hk.request r hr).listed i v ⟨hlook, hmain, hall i v hlook hmain⟩)

/-- A unit with no copy is taken from the save: the save has ended, or the unit is tried again. -/
theorem Ongoing.fail {q : Kernel} {err : String} (hgoing : s.Ongoing rid) (hs : s.Known)
    (hk : Kernel.Sound False q) (hcounter : q.requestCounter = s.kernel.requestCounter)
    (hunits : q.saveUnits = s.kernel.saveUnits) (hrequests : q.requests = s.kernel.requests)
    (hlog : q.log = s.kernel.log) (hsave : q.pendingSaveRequests = s.kernel.pendingSaveRequests)
    (hrouter : q.pendingRouterSaveReqs = s.kernel.pendingRouterSaveReqs)
    (hcnt : q.storageInputCnt = s.kernel.storageInputCnt)
    (hu : Kernel.Uncopied s.kernel.saveUnits rid uid u)
    (htidy : s.FailsTidily rid uid) (hposted : q.posted.lookup uid ≠ some .saveData)
    (hothers : ∀ i, i ≠ uid → q.posted.lookup i = s.kernel.posted.lookup i)
    (hwritten : s.written e = [])
    (h : q.handleCanceledSaveUnit cfg u uid err = some k) :
    Kernel.Neutral q k ∨ (s.goOn e k).Failed rid ∧ (s.goOn e k).Ended rid := by
  obtain ⟨hlook, hmain, hzero⟩ := hu
  obtain ⟨hopen, hstored, hshort, hreach⟩ := htidy u hlook hmain hzero
  have hlook' : q.saveUnits.lookup uid = some u := hunits ▸ hlook
  have hgrown := (Kernel.buried_canceled hlook' h).counter
  have hundecided : ¬ Decided s.kernel.log rid := fun hd =>
    ((hk.soundFor rid).undecided ⟨hlook', hmain, hzero⟩).1 (hlog ▸ hd)
  have hcount : Kernel.Neutral q (q.setUnit uid { u with failCount := u.failCount + 1 }) :=
    .setUnit _ hlook' ⟨rfl, rfl, rfl, rfl⟩
  rw [Kernel.handleCanceledSaveUnit] at h
  dsimp only at h
  split_ifs at h
  swap
  · obtain rfl := Option.some.inj h
    exact .inl (hcount.trans (.write rfl))
  right
  rw [Kernel.handleFailedSaveUnit] at h
  obtain ⟨m, hm, hpending⟩ := Option.bind_eq_some_iff.mp h
  rw [if_pos hzero] at hm
  have hsound := ((hk.neutral hcount).soundFor rid)
  have hall : ∀ i v, (q.setUnit uid { u with failCount := u.failCount + 1 }).saveUnits.lookup i =
      some v → v.mainRequest = rid → v.bkpCount = 0 := by
    intro i v hv hvmain
    obtain ⟨-, rfl⟩ | ⟨-, hv⟩ := Ledger.eq_or_of_lookup_insert hv
    · exact hzero
    · exact Ledger.all_iff.mp hopen i v (hunits ▸ hv) hvmain
  subst hmain
  obtain ⟨⟨r, hr, es, hes, hfailed, hdeletes⟩, hleft, hsame, hsave', hrouter', hcnt'⟩ :=
    ended_of_failed hsound hall hm
  have hpend := Kernel.neutral_processPendingSaveRequests hpending
  have hburied := Kernel.buried_processPendingSaveRequests hpending
  obtain ⟨fs, hfs, -⟩ := hpend.log
  have hlogk : k.log = (fs ++ es) ++ s.kernel.log := by
    rw [hfs, hes, List.append_assoc]
    exact congrArg _ (congrArg _ hlog)
  have hmem : ∀ {d : Entry}, d ∈ es → d ∈ fs ++ es := fun hd => List.mem_append_right fs hd
  have hnone' : ∀ i v, k.saveUnits.lookup i = some v → v.mainRequest ≠ u.mainRequest := by
    intro i v hv
    obtain ⟨w, hw, hlike⟩ := hpend.units i v hv
    exact hlike.mainRequest ▸ (hleft i w hw).2
  have hmlive : ∀ i w, m.saveUnits.lookup i = some w →
      s.kernel.saveUnits.lookup i = some w ∧ w.mainRequest ≠ u.mainRequest := by
    intro i w hw
    obtain ⟨hwq, hwmain⟩ := hleft i w hw
    obtain ⟨-, rfl⟩ | ⟨-, hwq⟩ := Ledger.eq_or_of_lookup_insert hwq
    · exact absurd rfl hwmain
    · exact ⟨hunits ▸ hwq, hwmain⟩
  -- a unit of the save that is still known is gone when the queues are worked off
  have hgone : ∀ i v, (s.goOn e k).units.lookup i = some v → v.mainRequest = u.mainRequest →
      s.units.lookup i = some v ∧ m.saveUnits.lookup i = none ∧ i < m.requestCounter := by
    intro i v hv hvmain
    rcases known_goOn hv with hlive | ⟨-, hknown⟩
    · exact absurd hvmain (hnone' i v hlive)
    · refine ⟨hknown, ?_, ?_⟩
      · by_contra hne
        obtain ⟨w, hw⟩ := Option.ne_none_iff_exists'.mp hne
        obtain ⟨hlive, hwmain⟩ := hmlive i w hw
        obtain rfl := Option.some.inj (hknown.symm.trans (hs.live i w hlive))
        exact hwmain hvmain
      · rw [← hpend.counter]
        exact (hs.unit i v hknown).1.trans_le (hcounter ▸ hgrown)
  refine ⟨⟨u.uuid, ?_⟩, hnone', fun i v hq hv hvmain => ?_, fun i v hv hvmain hp => ?_,
    fun p hp => ?_⟩
  · change _ ∈ k.log
    rw [hlogk]
    exact List.mem_append_left _ (hmem hfailed)
  · obtain ⟨hknown, hnone, hlt⟩ := hgone i v hv hvmain
    have hsaveq := hsave'.trans hsave
    refine Kernel.not_queued_processPendingSaveRequests (p := s.ofSave u.mainRequest)
      (q := s.ofOther u.mainRequest) ?_ ?_ (fun j w hw => ?_) hlt hnone
      (ofSave_eq_true.mpr ⟨v, hknown, hvmain⟩) hpending hq
    · rw [hsaveq, hcnt'.trans hcnt]
      exact hreach
    · rw [hsaveq, hrouter'.trans hrouter]
      exact hshort
    · obtain ⟨hlive, hwmain⟩ := hmlive j w hw
      rw [ofOther, hlive]
      exact decide_eq_true hwmain
  · obtain ⟨hknown, hnone, hlt⟩ := hgone i v hv hvmain
    have hm : m.posted.lookup i = some .saveData := hburied.posted i hlt hnone hp
    rw [hsame] at hm
    by_cases hi : i = uid
    · subst hi
      exact hposted hm
    · exact Ledger.all_iff.mp hstored i v hknown hvmain hi ((hothers i hi).symm.trans hm)
  · rcases List.mem_append.mp hp with hp | hp
    · rw [hwritten] at hp
      exact absurd hp List.not_mem_nil
    · obtain ⟨t, ht⟩ := hgoing.disk p hp
      rcases t with _ | _
      · exact absurd (hgoing.master p ht) hundecided
      · obtain ⟨id, hid⟩ := hdeletes p (hgoing.saved p ht r (hrequests ▸ hr))
        exact mem_toDelete_goOn hlogk (hmem hid) rfl

/-! ### Every step -/

/-- The save goes on after the step, and nothing was logged of its failure. -/
def GoesOn (s : Site) (rid : ID32) (e : Event) (k : Kernel) : Prop :=
  (s.goOn e k).Ongoing rid ∧ ∀ d ∈ k.log, d.tells = true → d.owner = rid →
    d ∈ s.kernel.log ∨ ∃ t p, d = .copied rid t p

/-- A save goes on at every event but a copy and a failure. -/
theorem goesOn_of_onward (hgoing : s.Ongoing rid) (hs : s.Known) (hk : Kernel.Sound False s.kernel)
    (hcopy : ¬ s.kernel.Confirms rid e) (honward : Kernel.Onward rid s.kernel k) :
    s.GoesOn rid e k := by
  have hid : (∃ t p, .copied rid t p ∈ s.kernel.log) → rid < s.kernel.requestCounter := by
    rintro ⟨t, p, hmem⟩
    exact (hk.soundFor rid).entry _ hmem rfl rfl
  refine ⟨hgoing.goOn hs hcopy honward hid, fun d hd htell hown => .inl ?_⟩
  obtain ⟨es, hes, htells⟩ := honward.log
  rw [hes] at hd
  exact (List.mem_append.mp hd).resolve_left fun hin => htells d hin htell hown

/-- It goes on at a copy as well: the unit is among the saved ones, or its request is over. -/
theorem goesOn_of_confirm {q : Kernel} {x : Ending} (hgoing : s.Ongoing rid) (hs : s.Known)
    (hq : Kernel.Sound False q) (hunits : q.saveUnits = s.kernel.saveUnits)
    (hrequests : q.requests = s.kernel.requests) (hlog : q.log = s.kernel.log)
    (hlook : s.kernel.saveUnits.lookup uid = some u) (hmain : u.mainRequest = rid)
    (hwritten : ∀ x ∈ s.written e, x = (rid, u.uuid))
    (h : q.handleSaveConfirmForLocalSaveUnit codec cfg u uid = some x) :
    s.GoesOn rid e x.kernel := by
  have hlook' : q.saveUnits.lookup uid = some u := hunits ▸ hlook
  have hlt : u.mainRequest < q.requestCounter := (hq.soundFor _).main uid u hlook' rfl
  obtain ⟨honward, hfirst⟩ := Kernel.onward_handleSaveConfirm hq.unitsFresh hlook' hlt h
  subst hmain
  refine ⟨hgoing.confirm hs hlook rfl hunits hrequests hlog honward hlt hfirst hwritten,
    fun d hd htell hown => ?_⟩
  obtain ⟨es, hes, htells⟩ := honward.log
  rw [hes] at hd
  rcases List.mem_append.mp hd with hin | hin
  · exact absurd hown (htells d hin htell)
  · rcases List.mem_cons.mp hin with rfl | hin
    · exact .inr ⟨u.type, u.uuid, rfl⟩
    · exact .inl (hlog ▸ hin)

/-- Of a save that has not failed: it goes on, or it ends and nothing more is to come. -/
theorem goesOn_or_ended (hgoing : s.Ongoing rid) (hs : s.Known) (hk : Kernel.Sound False s.kernel)
    (hok : s.Tidy rid (.kernel e)) (h : s.kernel.step codec cfg e = some k) :
    s.GoesOn rid e k ∨ (s.goOn e k).Failed rid ∧ (s.goOn e k).Ended rid := by
  have hanswered : ∀ id, Kernel.Sound False (s.kernel.answered id) := fun id =>
    hk.neutral (.answered id)
  -- a unit of the save was copied
  by_cases hcopy : s.kernel.Confirms rid e
  · left
    cases e with
    | storageSaveConfirm id =>
      obtain ⟨u, hlook, hmain⟩ := hcopy
      obtain ⟨-, h⟩ := pocoAssert_eq_some.mp h
      -- what the storage writes now is this unit
      have hwritten : ∀ x ∈ s.written (.storageSaveConfirm id), x = (rid, u.uuid) := by
        intro x hx
        obtain ⟨i, v, he, hv, rfl⟩ := mem_written hx
        obtain rfl := Event.storageSaveConfirm.inj he
        obtain rfl := Option.some.inj ((hs.live id u hlook).symm.trans hv)
        rw [hmain]
      obtain ⟨x, hx, rfl⟩ := Option.map_eq_some_iff.mp
        (Kernel.forUnit_of_lookup (k := s.kernel.answered id) hlook h)
      exact goesOn_of_confirm hgoing hs (hanswered id) rfl rfl rfl hlook hmain hwritten hx
    | routerSaveConfirm id =>
      obtain ⟨u, hlook, hmain⟩ := hcopy
      obtain ⟨-, h⟩ := pocoAssert_eq_some.mp h
      obtain ⟨x, hx, rfl⟩ := Option.map_eq_some_iff.mp (Kernel.forUnit_of_lookup hlook h)
      exact goesOn_of_confirm hgoing hs hk rfl rfl rfl hlook hmain
        (fun _ hx => absurd hx List.not_mem_nil) hx
    | imsSave | imsUpdate | oldMaster | oldMasterFailed | getAesKey | masterEncrypted
    | pieceEncrypted | storageNoSpace | storageFailed | routerCancel | routerSaveOffer
    | routerAuth | fileChanged => exact hcopy.elim
  -- a neutral step leaves the save as it was
  have hneutral : Kernel.Neutral s.kernel k → s.GoesOn rid e k := fun hn =>
    goesOn_of_onward hgoing hs hk hcopy ((Kernel.Onward.refl hk.unitsFresh).neutral hn)
  -- a unit of it failed: what the unit was copied to before decides
  by_cases hfail : s.kernel.Fails rid e
  · cases e with
    | storageFailed id err =>
      obtain ⟨u, hu⟩ := hfail
      obtain ⟨-, h⟩ := pocoAssert_eq_some.mp h
      have h := Kernel.forUnit_of_lookup (k := s.kernel.answered id) hu.lookup h
      have hposted : (s.kernel.answered id).posted.lookup id ≠ some .saveData := by
        rw [Kernel.answered, AList.lookup_erase]
        exact Option.some_ne_none _ ∘ Eq.symm
      rcases hgoing.fail (e := .storageFailed id err) hs (hanswered id) rfl rfl rfl rfl rfl rfl rfl
        hu hok hposted (fun i hi => AList.lookup_erase_ne hi) rfl h with hn | hended
      · exact .inl (hneutral ((Kernel.Neutral.answered id).trans hn))
      · exact .inr hended
    | routerCancel id =>
      obtain ⟨u, hu⟩ := hfail
      obtain ⟨hp, h⟩ := pocoAssert_eq_some.mp h
      have h := Kernel.forUnit_of_lookup hu.lookup h
      have hposted : s.kernel.posted.lookup id ≠ some .saveData := by
        rw [hp]
        exact fun he => Post.noConfusion (Option.some.inj he)
      rcases hgoing.fail (e := .routerCancel id) hs hk rfl rfl rfl rfl rfl rfl rfl hu hok hposted
        (fun _ _ => rfl) rfl h with hn | hended
      · exact .inl (hneutral hn)
      · exact .inr hended
    | imsSave | imsUpdate | oldMaster | oldMasterFailed | getAesKey | masterEncrypted
    | pieceEncrypted | storageNoSpace | storageSaveConfirm | routerSaveConfirm | routerSaveOffer
    | routerAuth | fileChanged => exact hfail.elim
  -- neither
  · exact .inl (goesOn_of_onward hgoing hs hk hcopy (Kernel.onward_step hk hcopy hfail h))

/-- A message that the kernel takes keeps the invariant of the save. -/
theorem Clean.goOn (hc : s.Clean rid) (hok : s.Tidy rid (.kernel e))
    (h : s.kernel.step codec cfg e = some k) : (s.goOn e k).Clean rid := by
  obtain ⟨hk, hs, htold, hongoing, hended⟩ := hc
  obtain ⟨es, hes⟩ := log_step hk h
  have hnew : ∀ {d : Entry}, d ∈ s.kernel.log → d ∈ k.log := fun hd =>
    hes ▸ List.mem_append_right es hd
  by_cases hfailed : s.Failed rid
  · have hstays : (s.goOn e k).Failed rid := hfailed.imp fun _ hmem => hnew hmem
    exact ⟨Kernel.sound_step hk False.elim h, hs.goOn hk h, fun _ => hstays,
      fun hn => absurd hstays hn, fun _ => (hended hfailed).goOn hfailed hs hk h⟩
  · rcases goesOn_or_ended (hongoing hfailed) hs hk hok h with
      ⟨hgoing, hlog⟩ | ⟨hfailed', hended'⟩
    · have hnot : ¬ (s.goOn e k).Failed rid := by
        rintro ⟨uuid, hmem⟩
        rcases hlog _ hmem rfl rfl with hold | ⟨t, p, he⟩
        · exact hfailed ⟨uuid, hold⟩
        · exact Entry.noConfusion he
      refine ⟨Kernel.sound_step hk False.elim h, hs.goOn hk h, ?_,
        fun _ => hgoing, fun hf => absurd hf hnot⟩
      rintro ⟨ims, err, hmem⟩
      rcases hlog _ hmem rfl rfl with hold | ⟨t, p, he⟩
      · exact absurd (htold ⟨ims, err, hold⟩) hfailed
      · exact Entry.noConfusion he
    · exact ⟨Kernel.sound_step hk False.elim h, hs.goOn hk h, fun _ => hfailed',
        fun hn => absurd hfailed' hn, fun _ => hended'⟩

/-- A file that is left behind for another request does not bear on the save. -/
theorem Clean.leave (hc : s.Clean rid) (hother : s.ofSave rid id = false) :
    (s.leave id).Clean rid := by
  have hmem : ∀ p, (rid, p) ∈ (s.leave id).disk → (rid, p) ∈ s.disk := by
    intro p hp
    refine (List.mem_append.mp hp).resolve_left fun hfile => ?_
    obtain ⟨u, hu, hx⟩ := mem_file hfile
    exact Bool.eq_false_iff.mp hother (ofSave_eq_true.mpr ⟨u, hu, (Prod.mk.inj hx).1.symm⟩)
  refine ⟨hc.sound, ⟨hc.known.live, hc.known.unit, fun x hx => ?_⟩, hc.told, fun hn => ?_,
    fun hf => ?_⟩
  · rcases List.mem_append.mp hx with hx | hx
    · obtain ⟨u, hu, rfl⟩ := mem_file hx
      exact (hc.known.unit id u hu).2
    · exact hc.known.disk x hx
  · have hgoing := hc.ongoing hn
    exact ⟨hgoing.copied, hgoing.gone, hgoing.saved, hgoing.master, fun p hp =>
      hgoing.disk p (hmem p hp)⟩
  · have hended := hc.ended hf
    exact ⟨hended.units, hended.queues, hended.posted, fun p hp => hended.disk p (hmem p hp)⟩

/-- **Step lemma.** A tidy step keeps the invariant of the save. -/
theorem clean_step {e : SiteEvent} (hc : s.Clean rid) (hok : s.Tidy rid e)
    (h : s.step codec cfg e = some s') : s'.Clean rid := by
  cases e with
  | kernel e =>
    obtain ⟨k, hstep, rfl⟩ := Option.map_eq_some_iff.mp h
    exact hc.goOn hok hstep
  | failedWrite id err =>
    obtain ⟨k, hstep, rfl⟩ := Option.map_eq_some_iff.mp h
    refine (hc.leave hok).goOn ?_ hstep
    -- the unit is another request's, so the save does not fail
    intro u hu hmain
    exact absurd (ofSave_eq_true.mpr ⟨u, hc.known.live id u hu, hmain⟩) (Bool.eq_false_iff.mp hok)
  | deleted owner uuid =>
    obtain ⟨hk, hs, htold, hongoing, hended⟩ := hc
    rw [step] at h
    split_ifs at h
    obtain rfl := Option.some.inj h
    refine ⟨hk, ⟨hs.live, hs.unit, fun x hx => hs.disk x (List.mem_of_mem_filter hx)⟩, htold,
      fun hn => ?_, fun hf => ?_⟩
    · have hgoing := hongoing hn
      exact ⟨hgoing.copied, hgoing.gone, hgoing.saved, hgoing.master, fun p hp =>
        hgoing.disk p (List.mem_of_mem_filter hp)⟩
    · refine ⟨(hended hf).units, (hended hf).queues, (hended hf).posted, fun p hp => ?_⟩
      obtain ⟨hin, hne⟩ := List.mem_filter.mp hp
      refine (List.mem_erase_of_ne fun he => ?_).mpr ((hended hf).disk p hin)
      exact of_decide_eq_true hne (Prod.mk.inj he).2

/-! ### Every run -/

/-- There is no save at the start. -/
theorem clean_initial (rid : ID32) : initial.Clean rid where
  sound := Kernel.sound_initial
  known := ⟨fun _ u hu => absurd hu.symm (Option.some_ne_none u),
    fun _ u hu => absurd hu.symm (Option.some_ne_none u), fun _ hx => absurd hx List.not_mem_nil⟩
  told := by
    rintro ⟨_, _, hmem⟩
    exact absurd hmem List.not_mem_nil
  ongoing _ := ⟨fun _ u hu => absurd hu.symm (Option.some_ne_none u),
    fun _ u hu => absurd hu.symm (Option.some_ne_none u), fun _ hp => absurd hp List.not_mem_nil,
    fun _ hp => absurd hp List.not_mem_nil, fun _ hp => absurd hp List.not_mem_nil⟩
  ended := by
    rintro ⟨_, hmem⟩
    exact absurd hmem List.not_mem_nil

/-- The run lemma. -/
theorem clean_run {evs : List SiteEvent} (h : run (step codec cfg) initial evs = some s)
    (hok : Run.Along (step codec cfg) (Tidy rid) initial evs) : s.Clean rid :=
  Run.invariant_of_run (fun s => s.Clean rid) (fun _ _ _ hc ht h => clean_step hc ht h)
    (clean_initial rid) hok h

/-- The counters are exact in every run whose steps leave them so. -/
theorem counted_run {evs : List SiteEvent} (h : run (step codec cfg) initial evs = some s)
    (hok : Run.Along (step codec cfg) (Exact codec cfg) initial evs) : s.Counted := by
  have hboth : Kernel.Sound False s.kernel ∧ Kernel.Account False s.kernel := by
    refine Run.invariant_of_run
      (fun s => Kernel.Sound False s.kernel ∧ Kernel.Account False s.kernel) ?_
      ⟨Kernel.sound_initial, Kernel.account_initial⟩ hok h
    rintro s (e | ⟨id, err⟩ | ⟨owner, uuid⟩) t ⟨hsound, haccount⟩ he ht
    · obtain ⟨k, hk, rfl⟩ := Option.map_eq_some_iff.mp ht
      exact ⟨Kernel.sound_step hsound False.elim hk, Kernel.account_step hsound haccount he hk⟩
    · obtain ⟨k, hk, rfl⟩ := Option.map_eq_some_iff.mp ht
      exact ⟨Kernel.sound_step hsound False.elim hk, Kernel.account_step hsound haccount he hk⟩
    · rw [step] at ht
      split_ifs at ht
      obtain rfl := Option.some.inj ht
      exact ⟨hsound, haccount⟩
  exact ⟨hboth.2.slots.cnt, hboth.2.slots.size⟩

/-- An answer for a unit that is gone changes nothing. -/
theorem step_of_gone (hgone : s.kernel.saveUnits.lookup id = none) (he : e.answersUnit = some id)
    (h : s.kernel.step codec cfg e = some k) : k = s.kernel ∨ k = s.kernel.answered id := by
  have hdropped : ∀ {q : Kernel} {f : SaveUnit → Option Kernel},
      q.saveUnits.lookup id = none → q.forUnit id f = some k → k = q := by
    intro q f hq hf
    rcases Kernel.forUnit_cases hf with ⟨-, he⟩ | ⟨u, hu, -⟩
    · exact he.symm
    · exact absurd (hu.symm.trans hq) (Option.some_ne_none u)
  cases e with
  | imsSave | imsUpdate | oldMaster | oldMasterFailed | getAesKey | masterEncrypted
  | fileChanged => exact absurd he.symm (Option.some_ne_none id)
  | pieceEncrypted i key =>
    obtain rfl := Option.some.inj he
    rw [Kernel.step, Kernel.handlePieceEncrypted] at h
    split at h
    · have hgone' : (s.kernel.answered i).saveUnits.lookup i = none := hgone
      simp only [Kernel.handleSaveAfterPieceEncrypt, hgone'] at h
      exact .inr (Option.some.inj h).symm
    · exact absurd h.symm (Option.some_ne_none k)
  | storageSaveConfirm i | storageNoSpace i | storageFailed i =>
    obtain rfl := Option.some.inj he
    obtain ⟨-, h⟩ := pocoAssert_eq_some.mp h
    exact .inr (hdropped (q := s.kernel.answered i) hgone h)
  | routerSaveConfirm i | routerCancel i | routerSaveOffer i | routerAuth i =>
    obtain rfl := Option.some.inj he
    obtain ⟨-, h⟩ := pocoAssert_eq_some.mp h
    exact .inl (hdropped hgone h)

/-- **A save that fails tidily leaves nothing behind.** In a run whose steps are all tidy for the
save, once it is over the storage holds nothing of it, no unit of it is left or queued and no
answer for one changes anything; and if all steps leave the counters exact, nothing of it is
counted. -/
theorem leavesNothing_run {evs : List SiteEvent} (h : run (step codec cfg) initial evs = some s)
    (hok : Run.Along (step codec cfg) (Tidy rid) initial evs) (hfail : s.SaveFailed rid)
    (hover : s.Over rid) : s.LeavesNothing codec cfg rid ∧
      (Run.Along (step codec cfg) (Exact codec cfg) initial evs → s.Counted) := by
  have hclean := clean_run h hok
  have hended := hclean.ended (hclean.told hfail)
  refine ⟨⟨?_, hended.units, hended.queues, ?_⟩, counted_run h⟩
  · rintro ⟨owner, p⟩ hx rfl
    exact hover.2 _ (hended.disk p hx) rfl
  · intro e id u k he hu hmain hstep
    refine step_of_gone ?_ he hstep
    -- the unit is known, so it would be the one that is there
    by_contra hne
    obtain ⟨v, hv⟩ := Option.ne_none_iff_exists'.mp hne
    obtain rfl := Option.some.inj (hu.symm.trans (hclean.known.live id v hv))
    exact hended.units id u hv hmain

/-- An object is saved locally, the storage has no space and the router cancels. -/
theorem leavesNothing_of_cancel : ∃ s, run (step .plain ⟨2, 21000000, 1⟩) initial
    [.kernel (Kernel.saveLocally [1, 2, 3]), .kernel (.storageNoSpace 1),
      .kernel (.routerCancel 1)] = some s ∧
    s.SaveFailed 0 ∧ s.LeavesNothing .plain ⟨2, 21000000, 1⟩ 0 ∧ s.Counted := by
  obtain ⟨s, hrun, hfail, hposted, hdelete⟩ : ∃ s, run (step .plain ⟨2, 21000000, 1⟩) initial
    [.kernel (Kernel.saveLocally [1, 2, 3]), .kernel (.storageNoSpace 1),
      .kernel (.routerCancel 1)] = some s ∧ s.SaveFailed 0 ∧
        s.kernel.posted = (∅ : Table ID32 Post).insert 1 .tender ∧ s.toDelete = [] :=
    ⟨_, rfl, ⟨7, "Failed to save.", .head _⟩, rfl, rfl⟩
  have hover : s.Over 0 := by
    constructor
    · intro id u hu hmain x hx
      rw [hposted] at hx
      obtain ⟨-, rfl⟩ | ⟨-, hx⟩ := Ledger.eq_or_of_lookup_insert hx
      · rfl
      · exact absurd hx.symm (Option.some_ne_none x)
    · intro x hx
      rw [hdelete] at hx
      exact absurd hx List.not_mem_nil
  obtain ⟨hnothing, hcounted⟩ := leavesNothing_run hrun (by decide) hfail hover
  exact ⟨s, hrun, hfail, hnothing, hcounted (by decide)⟩

/-! ### A piece is left behind -/

/-- The two pieces of an object are with the storage. -/
structure StoringTwo (k : Kernel) : Prop where
  units : ∃ c c', k.saveUnits = ((∅ : Table ID32 SaveUnit).insert 2
    ⟨0, 7000000, 1, 0, .piece, 10, c, .save, 0, 0, false⟩).insert 1
      ⟨0, 0, 7000000, 0, .piece, 9, c', .save, 0, 0, false⟩
  posted : k.posted = ((∅ : Table ID32 Post).insert 2 .saveData).insert 1 .saveData
  save : k.pendingSaveRequests = []
  router : k.pendingRouterSaveReqs = []
  ims : k.imsReqIds.lookup 0 = some 7
  request : ∃ r, k.requests.lookup 0 = some r ∧ r.units = [2, 1] ∧ r.savedUnits = [] ∧
    r.cmd = .save
  log : ∀ d ∈ k.log, d.deletion = none

/-- The save of the counterexample has handed two pieces to the storage. -/
theorem storingTwo_of_saveLocally {data : Bytes} (hlen : data.length = 7000001) :
    ∃ k, Kernel.step .plain ⟨1, 21000000, 1⟩ .initial (Kernel.saveLocally data) = some k ∧
      StoringTwo k := by
  have hlist : Kernel.twoPieces.toList = [(9, ⟨0, 7000000, none⟩), (10, ⟨7000000, 1, none⟩)] := rfl
  have hne : Kernel.twoPieces.entries.length ≠ 0 := by decide
  simp only [Kernel.saveLocally, Kernel.step, Kernel.handleImsSaveRequest,
    Kernel.processImsSaveRequest, Kernel.newRequest, Kernel.getDataSizeFromRequestObject,
    Source.data, hlen, Kernel.generatePiecesJson_eq_twoPieces, Kernel.shouldGenerateNewKey,
    Kernel.handleSaveOfUnencryptedData, Kernel.startSave]
  simp [-AList.insert_empty, hne, hlist, Kernel.openRequest, Kernel.preparePiecesForSave,
    Kernel.shouldSaveInLocal, Kernel.prepareUnitForSave, Kernel.processPendingSaveRequests,
    Kernel.processStoragePendingSaveRequests, Kernel.storagePendingLoop, Kernel.takePendingSave,
    Kernel.handlePieceSave, Kernel.postStorageSaveRequest, Kernel.processRouterPendingSaveRequests,
    Kernel.routerPendingLoop, maxStorageInputCnt, pocoAssert, Kernel.setRequest, Kernel.setUnit,
    Kernel.post, Kernel.write, Kernel.initial]
  constructor
  case units => exact ⟨_, _, rfl⟩
  all_goals simp [-AList.insert_empty, Entry.deletion]

/-- The storage fails to save the first piece. -/
theorem StoringTwo.storageFailed {k : Kernel} (h : StoringTwo k) (err : String) :
    ∃ k', Kernel.step .plain ⟨1, 21000000, 1⟩ k (.storageFailed 1 err) = some k' ∧
      k'.posted = (∅ : Table ID32 Post).insert 2 .saveData ∧ k'.saveUnits = ∅ ∧
        .respond 0 7 (.saveFail err) ∈ k'.log ∧ ∀ d ∈ k'.log, d.deletion = none := by
  obtain ⟨⟨c, c', hunits⟩, hposted, hsave, hrouter, hims, ⟨r, hr, hru, hrs, hcmd⟩, hlog⟩ := h
  simp [-AList.insert_empty, Kernel.step, Kernel.forUnit, Kernel.answered, hposted, hunits,
    Kernel.handleCanceledSaveUnit, maxSaveFailCount, Kernel.handleFailedSaveUnit, Kernel.setUnit,
    Kernel.write, Kernel.processNotBackedUpSaveUnit, hr, hru, hrs, hcmd, Kernel.eraseUnits,
    Kernel.eraseUnit, Kernel.deleteSavedUnits, Kernel.sendImsSaveFailResponse, Kernel.respond,
    Kernel.forget, hims,
    Kernel.processPendingSaveRequests, Kernel.processStoragePendingSaveRequests, hsave, hrouter,
    Kernel.storagePendingLoop, Kernel.processRouterPendingSaveRequests, Kernel.routerPendingLoop]
  exact ⟨rfl, rfl, rfl, rfl, hlog⟩

/-- The storage fails to save the first piece of an object and confirms the second. -/
theorem left_of_length {data : Bytes} (hlen : data.length = 7000001) :
    ∃ s, run (step .plain ⟨1, 21000000, 1⟩) initial [.kernel (Kernel.saveLocally data),
      .kernel (.storageFailed 1 "err"), .kernel (.storageSaveConfirm 2)] = some s ∧
    s.SaveFailed 0 ∧ s.Over 0 ∧ (0, 10) ∈ s.disk := by
  obtain ⟨k, hk, hstoring⟩ := storingTwo_of_saveLocally hlen
  obtain ⟨k', hk', hposted, hunits, hresp, hlog⟩ := hstoring.storageFailed "err"
  obtain ⟨⟨c, c', hu⟩, -, -, -, -, -, hlog₁⟩ := hstoring
  have hconfirm : Kernel.step .plain ⟨1, 21000000, 1⟩ k' (.storageSaveConfirm 2) =
      some (k'.answered 2) := by
    have hlookup : k'.posted.lookup 2 = some .saveData := by
      rw [hposted]
      exact AList.lookup_insert _
    simp [Kernel.step, Kernel.forUnit, Kernel.answered, hlookup, hunits, pocoAssert]
  obtain ⟨s₁, hs₁⟩ : ∃ s, s = initial.goOn (Kernel.saveLocally data) k := ⟨_, rfl⟩
  obtain ⟨s₂, hs₂⟩ : ∃ s, s = s₁.goOn (.storageFailed 1 "err") k' := ⟨_, rfl⟩
  have hknown : s₂.units.lookup 2 = some ⟨0, 7000000, 1, 0, .piece, 10, c, .save, 0, 0, false⟩ := by
    rw [hs₂, lookup_goOn, hunits, hs₁, lookup_goOn, hu]
    rfl
  have hnil : ∀ (l : List Entry) (n : ℕ), (∀ d ∈ l, d.deletion = none) →
      (l.take n).filterMap Entry.deletion = [] := fun l n hl =>
    List.filterMap_eq_nil_iff.mpr fun d hd => hl d (List.mem_of_mem_take hd)
  have hdelete : (s₂.goOn (.storageSaveConfirm 2) (k'.answered 2)).toDelete = [] := by
    have hanswered : ∀ d ∈ (k'.answered 2).log, d.deletion = none := hlog
    simp only [goOn, hnil _ _ hanswered, List.nil_append, hs₂, hnil _ _ hlog, hs₁, hnil _ _ hlog₁,
      initial]
  refine ⟨s₂.goOn (.storageSaveConfirm 2) (k'.answered 2), ?_, ⟨7, "err", hresp⟩,
    ⟨fun id u _ _ x hx => ?_, fun x hx => ?_⟩, List.mem_append_left _ ?_⟩
  · refine Run.run_cons_eq_some.mpr ⟨s₁, ?_, Run.run_cons_eq_some.mpr ⟨s₂, ?_,
      Run.run_cons_eq_some.mpr ⟨_, ?_, rfl⟩⟩⟩
    · exact Option.map_eq_some_iff.mpr ⟨k, hk, hs₁.symm⟩
    · exact Option.map_eq_some_iff.mpr ⟨k', hs₁ ▸ hk', hs₂.symm⟩
    · exact Option.map_eq_some_iff.mpr ⟨k'.answered 2, hs₂ ▸ hconfirm, rfl⟩
  · have hnone : (k'.answered 2).posted = ∅ := by
      rw [Kernel.answered, hposted]
      rfl
    rw [goOn, hnone] at hx
    exact absurd hx.symm (Option.some_ne_none x)
  · rw [hdelete] at hx
    exact absurd hx List.not_mem_nil
  · rw [written, file, hknown]
    exact List.mem_cons_self

/-- **A piece is left behind.** The save has failed and is over, and the storage holds its second
piece. -/
theorem piece_left_behind : ∃ s, run (step .plain ⟨1, 21000000, 1⟩) initial
    [.kernel (Kernel.saveLocally (List.replicate 7000001 0)), .kernel (.storageFailed 1 "err"),
      .kernel (.storageSaveConfirm 2)] = some s ∧
    s.SaveFailed 0 ∧ s.Over 0 ∧ ¬ s.LeavesNothing .plain ⟨1, 21000000, 1⟩ 0 := by
  obtain ⟨s, hrun, hfail, hover, hmem⟩ := left_of_length (List.length_replicate (a := 0))
  exact ⟨s, hrun, hfail, hover, fun hnothing => hnothing.disk (0, 10) hmem rfl⟩

end Site

end Metax
