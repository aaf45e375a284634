import Metax.Kernel.Asides

/-!
# The handlers and the flow control

Each handler of an answer is followed by `process_pending_save_requests`. So it has to leave the
account right and the queues such that they can be worked off, which is `Ready`. A handler
concerns one unit; `Handled` says that the others and their places in the queue of the router
are as before, from which `Ready` follows.

Where an answer confirms a unit an exception may come before the queues are worked off:
`confirmThrows` is the condition for it, in terms of the unit and its request. Then the slot is
given back and the units that wait are not started.
-/

namespace Metax

namespace Kernel

/-- The account is right, and in a strict account no unit is queued for nothing. -/
structure Account (strict : Prop) (k : Kernel) : Prop where
  slots : Slots strict 0 k
  flows : strict → k.Flows

/-- The queues may be worked off. -/
structure Ready (strict : Prop) (cfg : KernelCfg) (W : ℕ) (k : Kernel) : Prop where
  slots : Slots strict 0 k
  room : Room strict cfg W k
  woken : strict → k.Woken

/-- Nothing but the unit `uid`, which was `u`, has lost its place or is newly queued for the
router, and the size being backed up has grown by `n` at most. -/
structure Handled (n : ℕ) (uid : ID32) (u : SaveUnit) (k k' : Kernel) : Prop where
  units : ∀ id < k.requestCounter, id ≠ uid → k'.saveUnits.lookup id = k.saveUnits.lookup id
  router : ∀ id ∈ k'.pendingRouterSaveReqs, id ∈ k.pendingRouterSaveReqs ∨
    id = uid ∧ ∃ v, k'.saveUnits.lookup uid = some v ∧ v.size = u.size
  size : k'.routerSaveInputSize ≤ k.routerSaveInputSize + n

variable {strict : Prop} {codec : Codec} {cfg : KernelCfg} {c n W : ℕ} {k k' m : Kernel}
  {x : Ending} {id rid uid : ID32} {r : Request} {u v : SaveUnit} {ids : List ID32}
  {names : List (Option UUID)} {err : String}

/-- What is ready has its account right once the queues are worked off. -/
theorem Ready.account (h : Ready strict cfg W k)
    (hk : processPendingSaveRequests cfg k = some k') : Account strict k' := by
  obtain ⟨hslots, -, hflows⟩ := slots_processPendingSaveRequests h.slots h.room h.woken hk
  exact ⟨hslots, hflows⟩

/-- A quiet step keeps the account. -/
theorem Account.quiet (h : Account strict k) (hq : Quiet k k') : Account strict k' :=
  ⟨h.slots.quiet hq, fun hs => (h.flows hs).aside h.slots (hq.aside (n := 0))⟩

/-- After one unit was handled the queues may be worked off. -/
theorem Handled.ready (h : Handled n uid u k m) (hk : Slots strict c k)
    (hlive : strict → ∀ id ∈ k.pendingRouterSaveReqs, ∃ u, k.saveUnits.lookup id = some u)
    (hlook : k.saveUnits.lookup uid = some u) (hnot : uid ∉ k.pendingRouterSaveReqs)
    (hmax : cfg.maxRouterSaveInputSize ≤ W) (hW : k.routerSaveInputSize + n ≤ W)
    (hallowed : ∀ id v, k.saveUnits.lookup id = some v → Admits strict cfg W v.size)
    (hm : Slots strict 0 m) : Ready strict cfg W m := by
  have hothers : ∀ id ∈ k.pendingRouterSaveReqs,
      m.saveUnits.lookup id = k.saveUnits.lookup id := by
    intro id hid
    refine h.units id (hk.inRouter id hid) ?_
    rintro rfl
    exact hnot hid
  refine ⟨hm, ⟨hmax, h.size.trans hW, fun id hid w hw => ?_⟩, fun hs => woken_of_live ?_⟩
  · rcases h.router id hid with hid | ⟨rfl, v, hv, hsize⟩
    · exact hallowed id w (hothers id hid ▸ hw)
    · obtain rfl := Option.some.inj (hv.symm.trans hw)
      exact hsize ▸ hallowed id u hlook
  · intro id hid
    rcases h.router id hid with hid | ⟨rfl, v, hv, -⟩
    · exact hothers id hid ▸ hlive hs id hid
    · exact ⟨v, hv⟩

/-! ### Units that are done -/

/-- A unit goes before a quiet step or after it. -/
theorem Quiet.eraseUnit (h : Quiet k m) (uid : ID32) :
    Quiet (k.eraseUnit uid) (m.eraseUnit uid) :=
  { h with units := congrArg (AList.erase uid) h.units }

/-- A unit that was backed up through the router is forgotten. -/
theorem slots_removeAndErase (h : Slots strict c k) (hlook : k.saveUnits.lookup uid = some u)
    (hback : u.backup = true) (ho : ∀ x ∈ k.posted.lookup uid, x.slot ≠ 1)
    (hk : (((k.reduceRouterSaveInputSize u.size).removeFromBackupUnits rid id).map
      fun k => k.eraseUnit uid) = some k') :
    Slots strict c k' ∧ Handled 0 uid u k k' := by
  obtain ⟨m, hm, rfl⟩ := Option.map_eq_some_iff.mp hk
  have hquiet := quiet_removeFromBackupUnits hm
  have hload : u.load = u.size := by simp [SaveUnit.load, hback]
  refine ⟨((hload ▸ h.eraseUnit hlook fun _ => ho).quiet (hquiet.eraseUnit uid)), ?_, ?_, ?_⟩
  · intro i _ hne
    rw [Kernel.eraseUnit, AList.lookup_erase_ne hne, hquiet.units]
    rfl
  · intro i hi
    exact .inl (hquiet.router ▸ hi)
  · exact hquiet.size.trans_le (Nat.sub_le _ _)

/-- `clean_up_save_request`, for a unit that was saved locally. -/
theorem slots_cleanUp_local (h : Slots strict (c + 1) k) (hlook : k.saveUnits.lookup uid = some u)
    (hback : u.backup = false) (ho : ∀ x ∈ k.posted.lookup uid, x.slot ≠ 1)
    (hr : k.requests.lookup u.mainRequest = some r) (hlocal : r.isLocal = true)
    (hk : k.cleanUpSaveRequest u uid = some k') :
    Slots strict c k' ∧ Handled 0 uid u k k' := by
  obtain ⟨s, hs, hk⟩ := Option.bind_eq_some_iff.mp hk
  obtain rfl := Option.some.inj (hr.symm.trans hs)
  rw [if_pos hlocal] at hk
  obtain rfl := Option.some.inj hk
  have hload : u.load = 0 := by simp [SaveUnit.load, hback]
  have herase : Slots strict c (k.reduceStorageInputSize.eraseUnit uid) := by
    have h' := h.reduceStorageInputSize.eraseUnit (u := u) hlook fun _ => ho
    rwa [hload] at h'
  have hquiet : Quiet k.reduceStorageInputSize (if u.type = .master then
      { k.reduceStorageInputSize with
        requests := k.reduceStorageInputSize.requests.erase u.mainRequest }
      else k.reduceStorageInputSize) := by
    split_ifs
    · exact quiet_eraseRequest u.mainRequest
    · exact .refl _
  refine ⟨herase.quiet (hquiet.eraseUnit uid), ?_, ?_, ?_⟩
  · intro i _ hne
    rw [Kernel.eraseUnit, AList.lookup_erase_ne hne, hquiet.units]
    rfl
  · intro i hi
    exact .inl (hquiet.router ▸ hi)
  · exact hquiet.size.le

/-- `clean_up_save_request`, for a unit that went through the router. -/
theorem slots_cleanUp_remote (h : Slots strict c k) (hlook : k.saveUnits.lookup uid = some u)
    (hback : u.backup = true) (ho : ∀ x ∈ k.posted.lookup uid, x.slot ≠ 1)
    (hr : k.requests.lookup u.mainRequest = some r) (hlocal : r.isLocal = false)
    (hk : k.cleanUpSaveRequest u uid = some k') :
    Slots strict c k' ∧ Handled 0 uid u k k' := by
  obtain ⟨s, hs, hk⟩ := Option.bind_eq_some_iff.mp hk
  obtain rfl := Option.some.inj (hr.symm.trans hs)
  rw [if_neg (by simp [hlocal])] at hk
  exact slots_removeAndErase h hlook hback ho hk

/-! ### Confirmations -/

/-- The first confirmation of the unit throws: it is the last piece, and the file is gone; or it
is the master object of an update, and what the old one has for a version or for the name of a
piece cannot be read. -/
def confirmThrows (u : SaveUnit) (r : Request) (uid : ID32) : Bool :=
  match u.type with
  | .piece =>
    decide (r.units.filter (· ≠ uid) = []) && decide (getDataSizeFromRequestObject r = none)
  | .master => decide (r.cmd = .update) && r.oldMasterJson.any fun old =>
      decide (increaseVersion old.version = none) || (old.names.getD []).any Option.isNone

/-- If the names of the old pieces can be read there is no exception. -/
theorem deleteOldPieces_ne_thrown (hread : names.any Option.isNone = false) :
    deleteOldPieces rid names k r ≠ .thrown k' := by
  fun_induction deleteOldPieces rid names k r with
  | case1 => exact Ending.noConfusion
  | case2 => exact absurd hread (by simp)
  | case3 p names k r ih => exact ih (by simpa using hread)

/-- Nor if its version can be read as well. -/
theorem removeUnnecessaryUuids_ne_thrown (hread : ∀ old ∈ r.oldMasterJson,
      increaseVersion old.version ≠ none ∧ (old.names.getD []).any Option.isNone = false) :
    k.removeUnnecessaryUuids rid r ≠ some (.thrown k') := by
  intro h
  obtain ⟨old, hold, h⟩ := Option.bind_eq_some_iff.mp h
  obtain ⟨hversion, hnames⟩ := hread old hold
  split at h
  · exact hversion ‹_›
  · dsimp only at h
    split at h
    · exact Ending.noConfusion (Option.some.inj h)
    · rename_i names hsome
      rw [hsome] at hnames
      exact deleteOldPieces_ne_thrown hnames (Option.some.inj h)

/-- So the confirmation of an update does not throw, and that of a save never does. -/
theorem sendImsSaveConfirm_ne_thrown (hr : k.requests.lookup rid = some r)
    (hread : r.cmd = .update → ∀ old ∈ r.oldMasterJson,
      increaseVersion old.version ≠ none ∧ (old.names.getD []).any Option.isNone = false) :
    k.sendImsSaveConfirm rid ≠ some (.thrown k') := by
  intro h
  obtain ⟨s, hs, h⟩ := Option.bind_eq_some_iff.mp h
  obtain rfl := Option.some.inj (hr.symm.trans hs)
  obtain ⟨i, -, h⟩ := Option.bind_eq_some_iff.mp h
  obtain ⟨y, hy, h⟩ := Option.bind_eq_some_iff.mp h
  cases y with
  | returned m =>
    have hsame : Ending.returned (m.forget rid) = .thrown k' := Option.some.inj h
    exact Ending.noConfusion hsame
  | thrown m =>
    split_ifs at hy with hcmd
    · exact removeUnnecessaryUuids_ne_thrown (hread hcmd) hy
    · exact Ending.noConfusion (Option.some.inj hy)

/-- Where the first confirmation does not throw, what comes after it is done. -/
theorem processSaveConfirm_returned (hr : k.requests.lookup u.mainRequest = some r)
    (hthrow : confirmThrows u r uid = false)
    (h : (match u.type with
      | .master => k.processSaveConfirmForMasterObject u
      | .piece => k.processSaveConfirmForPiece codec cfg u uid) = some x) :
    ∃ m, x = .returned m := by
  cases x with
  | returned m => exact ⟨m, rfl⟩
  | thrown m =>
    exfalso
    rcases htype : u.type with _ | _
    · simp only [htype] at h
      simp only [confirmThrows, htype, Bool.and_eq_false_imp, decide_eq_true_eq,
        Option.any_eq_false, Bool.or_eq_false_iff, decide_eq_false_iff_not] at hthrow
      obtain ⟨s, hs, h⟩ := Option.bind_eq_some_iff.mp h
      obtain rfl := Option.some.inj (hr.symm.trans hs)
      dsimp only at h
      split_ifs at h
      · exact sendImsSaveConfirm_ne_thrown (k := k.write _) hr hthrow h
      · exact sendImsSaveConfirm_ne_thrown hr hthrow h
    · simp only [htype] at h
      simp only [confirmThrows, htype, Bool.and_eq_false_imp, decide_eq_true_eq,
        decide_eq_false_iff_not] at hthrow
      obtain ⟨s, hs, h⟩ := Option.bind_eq_some_iff.mp h
      obtain rfl := Option.some.inj (hr.symm.trans hs)
      dsimp only at h
      split_ifs at h with hlast
      · obtain ⟨-, t, ht, hnone⟩ := startMasterObjectSave_thrown h
        rw [Kernel.setRequest, AList.lookup_insert] at ht
        obtain rfl := Option.some.inj ht
        exact hthrow hlast hnone
      · exact Ending.noConfusion (Option.some.inj h)

/-- `confirmThrows` says when the first copy of a unit throws. -/
theorem handleFirstBackup_returned (hthrow : ∀ r, k.requests.lookup u.mainRequest = some r →
      confirmThrows u r uid = false)
    (h : k.handleFirstBackupOfSaveUnit codec cfg u uid = some x) : ∃ m, x = .returned m := by
  obtain ⟨y, hy, h⟩ := Option.bind_eq_some_iff.mp h
  obtain ⟨r, hr⟩ : ∃ r, k.requests.lookup u.mainRequest = some r := by
    have hy' := hy
    split at hy' <;> exact (Option.bind_eq_some_iff.mp hy').imp fun r hr => hr.1
  obtain ⟨m, rfl⟩ := processSaveConfirm_returned hr (hthrow r hr) hy
  obtain ⟨m', -, rfl⟩ := Option.map_eq_some_iff.mp h
  exact ⟨m', rfl⟩

/-- Where the confirmation does not throw, the queues are worked off in the end. -/
theorem handleSaveConfirm_returned (hthrow : u.bkpCount = 0 →
      ∀ r, k.requests.lookup u.mainRequest = some r → confirmThrows u r uid = false)
    (h : k.handleSaveConfirmForLocalSaveUnit codec cfg u uid = some x) :
    ∃ m k', x = .returned k' ∧ processPendingSaveRequests cfg m = some k' := by
  obtain ⟨y, hy, h⟩ := Option.bind_eq_some_iff.mp h
  suffices hreturned : ∃ m, y = .returned m by
    obtain ⟨m, rfl⟩ := hreturned
    obtain ⟨k', hk', rfl⟩ := Option.map_eq_some_iff.mp h
    exact ⟨m, k', rfl, hk'⟩
  dsimp only at hy
  split_ifs at hy with hone
  · refine handleFirstBackup_returned (u := { u with bkpCount := u.bkpCount + 1 }) ?_ hy
    exact hthrow (Nat.succ_injective hone)
  · obtain ⟨m, -, rfl⟩ := Option.map_eq_some_iff.mp hy
    exact ⟨m, rfl⟩
  · obtain rfl := Option.some.inj hy
    exact ⟨_, rfl⟩

/-- The confirmation of a piece or of a master object keeps the slots. -/
theorem slots_processSaveConfirm (h : Slots strict c k)
    (hr : k.requests.lookup u.mainRequest = some r)
    (hn : pkgSize (codec.stringify (masterObject codec r)) = n)
    (hfit : k.routerSaveInputSize + n < 2 ^ 32)
    (hk : (match u.type with
      | .master => k.processSaveConfirmForMasterObject u
      | .piece => k.processSaveConfirmForPiece codec cfg u uid) = some x) :
    Slots strict c x.kernel ∧ Aside n k x.kernel := by
  rcases htype : u.type with _ | _
  · rw [htype] at hk
    have hquiet := quiet_processSaveConfirmForMasterObject hk
    exact ⟨h.quiet hquiet, hquiet.aside⟩
  · rw [htype] at hk
    exact slots_processSaveConfirmForPiece h hr hn hfit hk

/-- The unit is handled on from where something was done on the side. -/
theorem Handled.after (h : Handled 0 uid v m k') (ha : Aside n k m)
    (hsize : v.size = u.size) : Handled n uid u k k' where
  units id hid hne := (h.units id (hid.trans_le ha.counter) hne).trans (ha.units id hid)
  router id hid := by
    rcases h.router id hid with hin | ⟨rfl, w, hw, hsame⟩
    · exact .inl (ha.router ▸ hin)
    · exact .inr ⟨rfl, w, hw, hsame.trans hsize⟩
  size := h.size.trans (by simpa using ha.size)

/-- Only the record of the unit is different. -/
theorem Handled.of_setUnit
    (h : Handled n uid v ((k.setUnit uid v).write (.copied rid u.type u.uuid)) k')
    (hsize : v.size = u.size) : Handled n uid u k k' where
  units id hid hne := by
    rw [h.units id hid hne]
    exact AList.lookup_insert_ne hne
  router id hid := by
    rcases h.router id hid with hin | ⟨rfl, w, hw, hsame⟩
    · exact .inl hin
    · exact .inr ⟨rfl, w, hw, hsame.trans hsize⟩
  size := h.size

/-- The first confirmation of a unit, where it does not throw: something is done on the side, which
leaves the unit its place, and then the unit is done or goes on. -/
theorem aside_of_firstBackup (h : Slots strict c k) (hlook : k.saveUnits.lookup uid = some u)
    (hr : k.requests.lookup u.mainRequest = some r)
    (hn : pkgSize (codec.stringify (masterObject codec r)) = n)
    (hfit : k.routerSaveInputSize + n < 2 ^ 32) (hthrow : confirmThrows u r uid = false)
    (hx : handleFirstBackupOfSaveUnit codec cfg k u uid = some x) :
    ∃ m s k', x = .returned k' ∧ Slots strict c m ∧ Aside n k m ∧
      m.saveUnits.lookup uid = some u ∧ m.posted.lookup uid = k.posted.lookup uid ∧
      m.requests.lookup u.mainRequest = some s ∧ s.isLocal = r.isLocal ∧
      (m.cleanUpSaveRequest u uid = some k' ∨
        k' = if s.isLocal then
            { m.reduceStorageInputSize.setUnit uid { u with winnersCount := u.winnersCount + 1 } with
              pendingRouterSaveReqs := uid :: m.pendingRouterSaveReqs }
          else m) := by
  obtain ⟨y, hm, hx⟩ := Option.bind_eq_some_iff.mp hx
  obtain ⟨m, rfl⟩ := processSaveConfirm_returned hr hthrow hm
  obtain ⟨k', hk, rfl⟩ := Option.map_eq_some_iff.mp hx
  obtain ⟨hslots, haside⟩ := slots_processSaveConfirm h hr hn hfit hm
  have hlt := h.unit uid u hlook
  have hlook' : m.saveUnits.lookup uid = some u := (haside.units uid hlt).trans hlook
  dsimp only at hk
  split_ifs at hk
  · obtain ⟨s, hs, -⟩ := Option.bind_eq_some_iff.mp hk
    exact ⟨m, s, k', rfl, hslots, haside, hlook', haside.posted uid hlt, hs, haside.isLocal hr hs,
      .inl hk⟩
  · obtain ⟨s, hs, hk⟩ := Option.bind_eq_some_iff.mp hk
    refine ⟨m, s, k', rfl, hslots, haside, hlook', haside.posted uid hlt, hs, haside.isLocal hr hs,
      .inr ?_⟩
    split_ifs at hk ⊢
    · exact (Option.some.inj hk).symm
    · exact (Option.some.inj hk).symm

/-- The storage has the unit: its slot is given back, and the unit is done or goes on to the
router, unless an exception comes before. -/
theorem slots_firstBackup_local (h : Slots strict (c + 1) k)
    (hlook : k.saveUnits.lookup uid = some u) (hback : u.backup = false)
    (hp : k.posted.lookup uid = none)
    (hq : uid ∉ k.pendingSaveRequests ∧ uid ∉ k.pendingRouterSaveReqs) (hcopy : u.bkpCount ≠ 0)
    (hr : k.requests.lookup u.mainRequest = some r) (hlocal : r.isLocal = true)
    (hn : pkgSize (codec.stringify (masterObject codec r)) = n)
    (hfit : k.routerSaveInputSize + n < 2 ^ 32) (hthrow : confirmThrows u r uid = false)
    (hx : handleFirstBackupOfSaveUnit codec cfg k u uid = some x) :
    ∃ k', x = .returned k' ∧ Slots strict c k' ∧ Handled n uid u k k' := by
  obtain ⟨m, s, k', rfl, hslots, haside, hlook', hposted, hs, hsame, hk⟩ :=
    aside_of_firstBackup h hlook hr hn hfit hthrow hx
  have hp' : m.posted.lookup uid = none := hposted.trans hp
  have hlocal' : s.isLocal = true := hsame.trans hlocal
  refine ⟨k', rfl, ?_⟩
  rcases hk with hk | rfl
  · obtain ⟨hslots', hhandled⟩ :=
      slots_cleanUp_local hslots hlook' hback (by simp [hp']) hs hlocal' hk
    exact ⟨hslots', hhandled.after haside rfl⟩
  · rw [if_pos hlocal']
    constructor
    · refine (hslots.reduceStorageInputSize.setUnit
        (v := { u with winnersCount := u.winnersCount + 1 }) hlook' rfl rfl rfl rfl rfl).pushRouter
        (AList.lookup_insert _) hp' ⟨?_, ?_⟩ hback fun hzero => absurd hzero hcopy
      · exact haside.save ▸ hq.1
      · exact haside.router ▸ hq.2
    · refine Handled.after (v := u) ⟨?_, ?_, le_rfl⟩ haside rfl
      · exact fun id _ hne => AList.lookup_insert_ne hne
      · intro id hid
        rcases List.mem_cons.mp hid with rfl | hid
        · exact .inr ⟨rfl, _, AList.lookup_insert _, rfl⟩
        · exact .inl hid

/-- The first copy of a unit that went through the router. -/
theorem slots_firstBackup_remote (h : Slots strict c k)
    (hlook : k.saveUnits.lookup uid = some u) (hback : u.backup = true)
    (ho : ∀ x ∈ k.posted.lookup uid, x.slot ≠ 1)
    (hr : k.requests.lookup u.mainRequest = some r) (hlocal : r.isLocal = false)
    (hn : pkgSize (codec.stringify (masterObject codec r)) = n)
    (hfit : k.routerSaveInputSize + n < 2 ^ 32) (hthrow : confirmThrows u r uid = false)
    (hx : handleFirstBackupOfSaveUnit codec cfg k u uid = some x) :
    ∃ k', x = .returned k' ∧ Slots strict c k' ∧ Handled n uid u k k' := by
  obtain ⟨m, s, k', rfl, hslots, haside, hlook', hposted, hs, hsame, hk⟩ :=
    aside_of_firstBackup h hlook hr hn hfit hthrow hx
  have hlocal' : s.isLocal = false := hsame.trans hlocal
  refine ⟨k', rfl, ?_⟩
  rcases hk with hk | rfl
  · obtain ⟨hslots', hhandled⟩ :=
      slots_cleanUp_remote hslots hlook' hback (hposted ▸ ho) hs hlocal' hk
    exact ⟨hslots', hhandled.after haside rfl⟩
  · rw [if_neg (by simp [hlocal'])]
    have hkept : Handled 0 uid u m m := ⟨fun _ _ _ => rfl, fun _ hid => .inl hid, le_rfl⟩
    exact ⟨hslots, hkept.after haside rfl⟩

end Kernel

end Metax
