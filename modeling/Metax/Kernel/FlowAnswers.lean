import Metax.Kernel.FlowControl

/-!
# The account as the answers come in

Every answer that finds its unit keeps the account right: a confirmation, a refusal for lack of
space, an encrypted piece, and a cancel of the router. What each of them needs is a hypothesis
of its lemma; that the storage fails is never among them, and no lemma is about it.

A storage that fails is left out because there the account is not kept: the slot of the unit is not
given back (`counter_leaks`).
-/

namespace Metax

namespace Kernel

variable {strict : Prop} {codec : Codec} {cfg : KernelCfg} {c n W : ℕ} {k k' m : Kernel}
  {x : Ending} {id i rid uid : ID32} {r : Request} {u v : SaveUnit} {ids : List ID32} {err : String}
  {uuid : UUID}

/-- `W` bounds what is under way, also when a master object of `n` bytes is added, and leaves
room for each unit. -/
structure Bounded (strict : Prop) (cfg : KernelCfg) (W n : ℕ) (k : Kernel) : Prop where
  max : cfg.maxRouterSaveInputSize ≤ W
  size : k.routerSaveInputSize + n ≤ W
  word : W < 2 ^ 32
  units : ∀ id v, k.saveUnits.lookup id = some v → Admits strict cfg W v.size

theorem Bounded.fit (h : Bounded strict cfg W n k) : k.routerSaveInputSize + n < 2 ^ 32 :=
  h.size.trans_lt h.word

/-- One unit was handled and the queues were worked off. -/
theorem Account.handled (hk : Account strict k) (hbound : Bounded strict cfg W n k)
    (hlook : k.saveUnits.lookup uid = some u) (hnot : uid ∉ k.pendingRouterSaveReqs)
    (hm : Slots strict 0 m) (h : Handled n uid u k m)
    (hpending : processPendingSaveRequests cfg m = some k') : Account strict k' :=
  (h.ready hk.slots (fun hs => (hk.flows hs).live) hlook hnot hbound.max hbound.size hbound.units
    hm).account hpending

/-- The storage confirms a unit of a request that is still saved locally. -/
theorem account_storageSaveConfirm (hk : Account strict k) (hbound : Bounded strict cfg W n k)
    (hp : k.posted.lookup uid = some .saveData) (hlook : k.saveUnits.lookup uid = some u)
    (hr : k.requests.lookup u.mainRequest = some r) (hlocal : r.isLocal = true)
    (hn : pkgSize (codec.stringify (masterObject codec r)) = n)
    (hthrow : confirmThrows u r uid = false)
    (h : (k.answered uid).handleSaveConfirmForLocalSaveUnit codec cfg u uid = some x) :
    Account strict x.kernel := by
  obtain ⟨hzero, hback⟩ := (hk.slots.fits uid).inside _ hp rfl u hlook
  have hq := hk.slots.notQueued hp
  have hnone : (k.answered uid).posted.lookup uid = none := AList.lookup_erase _ _
  have hcopy := ((hk.slots.answered hp rfl).copy hlook hq (by simp [hnone])).quiet
    (quiet_write (.copied u.mainRequest u.type u.uuid))
  obtain ⟨y, hm, h⟩ := Option.bind_eq_some_iff.mp h
  rw [if_pos (by simp [hzero])] at hm
  obtain ⟨m, rfl, hslots, hhandled⟩ := slots_firstBackup_local
    (u := { u with bkpCount := u.bkpCount + 1 }) hcopy (AList.lookup_insert _) hback hnone hq
    (Nat.succ_ne_zero _) hr hlocal hn hbound.fit hthrow hm
  obtain ⟨k', hpending, rfl⟩ := Option.map_eq_some_iff.mp h
  have hhandled' := hhandled.of_setUnit (u := u) rfl
  exact hk.handled hbound hlook hq.2 hslots ⟨hhandled'.units, hhandled'.router, hhandled'.size⟩
    hpending

/-- The router confirms a unit. -/
theorem account_routerSaveConfirm (hk : Account strict k) (hbound : Bounded strict cfg W n k)
    (hp : k.posted.lookup uid = some .tender) (hlook : k.saveUnits.lookup uid = some u)
    (hn : ∀ r, k.requests.lookup u.mainRequest = some r →
      pkgSize (codec.stringify (masterObject codec r)) = n)
    (hthrow : u.bkpCount = 0 → ∀ r, k.requests.lookup u.mainRequest = some r →
      confirmThrows u r uid = false)
    (h : k.handleSaveConfirmForLocalSaveUnit codec cfg u uid = some x) :
    Account strict x.kernel := by
  obtain ⟨hback, hnonlocal⟩ := (hk.slots.fits uid).outside _ hp rfl u hlook
  have hq := hk.slots.notQueued hp
  have htender : ∀ x ∈ k.posted.lookup uid, x.slot = 0 := by
    intro x hx
    obtain rfl := Option.some.inj (hp.symm.trans hx)
    rfl
  have hno : ∀ x ∈ k.posted.lookup uid, x.slot ≠ 1 := fun x hx => by simp [htender x hx]
  have hcopy := (hk.slots.copy hlook hq htender).quiet
    (quiet_write (.copied u.mainRequest u.type u.uuid))
  obtain ⟨y, hm, h⟩ := Option.bind_eq_some_iff.mp h
  suffices hsuff : ∃ m, y = .returned m ∧ Slots strict 0 m ∧ Handled n uid u k m by
    obtain ⟨m, rfl, hslots, hhandled⟩ := hsuff
    obtain ⟨k', hpending, rfl⟩ := Option.map_eq_some_iff.mp h
    exact hk.handled hbound hlook hq.2 hslots hhandled hpending
  dsimp only at hm
  split_ifs at hm with hone
  · have hzero : u.bkpCount = 0 := by omega
    obtain ⟨r, hr⟩ : ∃ r, k.requests.lookup u.mainRequest = some r := by
      obtain ⟨_, hm', -⟩ := Option.bind_eq_some_iff.mp hm
      dsimp only at hm'
      split at hm' <;> exact (Option.bind_eq_some_iff.mp hm').imp fun r hr => hr.1
    obtain ⟨m, rfl, hslots, hhandled⟩ := slots_firstBackup_remote
      (u := { u with bkpCount := u.bkpCount + 1 }) hcopy (AList.lookup_insert _) hback hno hr
      (hnonlocal (fun _ => hzero) r hr) (hn r hr) hbound.fit (hthrow hzero r hr) hm
    exact ⟨m, rfl, hslots, hhandled.of_setUnit rfl⟩
  · obtain ⟨m, hremove, rfl⟩ := Option.map_eq_some_iff.mp hm
    obtain ⟨hslots, hhandled⟩ := slots_removeAndErase
      (u := { u with bkpCount := u.bkpCount + 1 }) hcopy (AList.lookup_insert _) hback hno hremove
    have hhandled' := hhandled.of_setUnit (u := u) rfl
    exact ⟨m, rfl, hslots, hhandled'.units, hhandled'.router,
      hhandled'.size.trans (Nat.add_le_add_left (Nat.zero_le n) _)⟩
  · obtain rfl := Option.some.inj hm
    have hsame : Handled n uid { u with bkpCount := u.bkpCount + 1 }
        ((k.setUnit uid { u with bkpCount := u.bkpCount + 1 }).write
          (.copied u.mainRequest u.type u.uuid)) _ :=
      ⟨fun _ _ _ => rfl, fun _ hid => .inl hid, Nat.le_add_right _ _⟩
    exact ⟨_, rfl, hcopy, hsame.of_setUnit rfl⟩

/-- The storage has no space for a unit: it goes to the router instead. -/
theorem account_storageNoSpace (hk : Account strict k) (hbound : Bounded strict cfg W 0 k)
    (hp : k.posted.lookup uid = some .saveData) (hlook : k.saveUnits.lookup uid = some u)
    (h : (k.answered uid).handleNoSpaceForLocalSaveUnit cfg u uid = some k') :
    Account strict k' := by
  obtain ⟨-, hback⟩ := (hk.slots.fits uid).inside _ hp rfl u hlook
  have hq := hk.slots.notQueued hp
  have hnone : (k.answered uid).posted.lookup uid = none := AList.lookup_erase _ _
  obtain ⟨-, h⟩ := pocoAssert_eq_some.mp h
  obtain ⟨r, hr, hpending⟩ := Option.bind_eq_some_iff.mp h
  have hset :
      Slots strict 1 ((k.answered uid).setRequest u.mainRequest { r with isLocal := false }) :=
    (hk.slots.answered hp rfl).congr le_rfl (.insert hr fun _ => rfl) rfl rfl rfl rfl rfl rfl
  have hslots := hset.reduceStorageInputSize.pushRouter hlook hnone hq hback
    fun _ => nonlocal_insert rfl
  refine hk.handled hbound hlook hq.2 hslots ⟨fun _ _ _ => rfl, fun id hid => ?_, le_rfl⟩ hpending
  exact (List.mem_cons.mp hid).elim (fun he => .inr ⟨he, u, hlook, rfl⟩) .inl

/-! ### Failures -/

/-- The units of a failed request are forgotten; in a strict account no slot is held for one. -/
theorem slots_eraseUnits (h : Slots strict c k)
    (ho : strict → ∀ i ∈ ids, ∀ x ∈ k.posted.lookup i, x.slot ≠ 1)
    (hk : eraseUnits ids k = some k') :
    Slots strict c k' ∧ k'.posted = k.posted ∧ k'.pendingSaveRequests = k.pendingSaveRequests ∧
      k'.pendingRouterSaveReqs = k.pendingRouterSaveReqs ∧
        k'.routerSaveInputSize ≤ k.routerSaveInputSize ∧
          ∀ id ∉ ids, k'.saveUnits.lookup id = k.saveUnits.lookup id := by
  induction ids generalizing k with
  | nil =>
    obtain rfl := Option.some.inj hk
    exact ⟨h, rfl, rfl, rfl, le_rfl, fun _ _ => rfl⟩
  | cons i ids ih =>
    obtain ⟨u, hu, hk⟩ := Option.bind_eq_some_iff.mp hk
    have hload : (if u.backup then k.reduceRouterSaveInputSize u.size else k) =
        k.reduceRouterSaveInputSize u.load := by
      rw [SaveUnit.load]
      split_ifs <;> rfl
    rw [hload] at hk
    obtain ⟨hslots, hposted, hsave, hrouter, hsize, hunits⟩ :=
      ih (h.eraseUnit hu fun hs => ho hs i List.mem_cons_self)
        (fun hs j hj => ho hs j (List.mem_cons_of_mem _ hj)) hk
    refine ⟨hslots, hposted, hsave, hrouter, hsize.trans (Nat.sub_le _ _), fun id hid => ?_⟩
    obtain ⟨hne, hnot⟩ := not_or.mp (List.mem_cons.not.mp hid)
    rw [hunits id hnot]
    exact AList.lookup_erase_ne hne

theorem eraseUnit_setUnit : (k.setUnit uid v).eraseUnit uid = k.eraseUnit uid := by
  simp only [Kernel.eraseUnit, Kernel.setUnit, Ledger.erase_insert]

/-- It does not matter what was last written to a unit that is erased. -/
theorem eraseUnits_setUnit (hin : uid ∈ ids) (hlook : k.saveUnits.lookup uid = some u)
    (hback : v.backup = u.backup) (hsize : v.size = u.size) :
    eraseUnits ids (k.setUnit uid v) = eraseUnits ids k := by
  induction ids generalizing k with
  | nil => exact absurd hin List.not_mem_nil
  | cons i ids ih =>
    by_cases hi : i = uid
    · subst hi
      simp only [eraseUnits, Kernel.setUnit, AList.lookup_insert, hlook, Option.bind_some, hback,
        hsize]
      split_ifs <;> simp only [Kernel.eraseUnit, reduceRouterSaveInputSize, Ledger.erase_insert]
    · have hin' : uid ∈ ids := (List.mem_cons.mp hin).resolve_left fun he => hi he.symm
      simp only [eraseUnits, Kernel.setUnit, AList.lookup_insert_ne hi]
      refine congrArg _ (funext fun w => ?_)
      have hstep : ∀ q : Kernel, q.saveUnits = k.saveUnits →
          eraseUnits ids (({ q with saveUnits := k.saveUnits.insert uid v } : Kernel).eraseUnit i) =
            eraseUnits ids (q.eraseUnit i) := by
        intro q hq
        have hlook' : (q.eraseUnit i).saveUnits.lookup uid = some u := by
          rw [Kernel.eraseUnit, hq, AList.lookup_erase_ne fun he => hi he.symm, hlook]
        have hsame : ({ q with saveUnits := k.saveUnits.insert uid v } : Kernel).eraseUnit i =
            (q.eraseUnit i).setUnit uid v := by
          simp only [Kernel.eraseUnit, Kernel.setUnit, Ledger.erase_insert_of_ne hi, hq]
        rw [hsame, ih hin' hlook']
      split_ifs
      · exact hstep (k.reduceRouterSaveInputSize w.size) rfl
      · exact hstep k rfl

/-- The first failure is the last one: `max_save_fail_count` is 1. -/
theorem handleCanceledSaveUnit_eq (hlook : k.saveUnits.lookup uid = some u)
    (hfail : u.failCount = 0)
    (hin : u.bkpCount = 0 → ∀ r, k.requests.lookup u.mainRequest = some r → uid ∈ r.units) :
    k.handleCanceledSaveUnit cfg u uid err = k.handleFailedSaveUnit cfg u uid err := by
  simp only [handleCanceledSaveUnit, hfail, maxSaveFailCount, if_true, Nat.zero_add,
    handleFailedSaveUnit]
  refine congrArg (fun x => Option.bind x _) ?_
  by_cases hzero : u.bkpCount = 0
  · rw [if_pos hzero, if_pos hzero, processNotBackedUpSaveUnit, processNotBackedUpSaveUnit]
    refine Option.bind_congr fun r hr => ?_
    rw [← eraseUnits_setUnit (k := k.write (.failedUnit u.mainRequest u.uuid))
      (v := { u with failCount := 1 }) (hin hzero r hr) hlook rfl rfl]
    rfl
  · have hcomm : ∀ i,
        (k.setUnit uid { u with failCount := 1 }).removeFromBackupUnits u.mainRequest i =
        (k.removeFromBackupUnits u.mainRequest i).map
          fun k => k.setUnit uid { u with failCount := 1 } := by
      intro i
      simp only [removeFromBackupUnits, Kernel.setUnit]
      rcases k.requests.lookup u.mainRequest with _ | r
      · rfl
      · simp only [Option.bind_some]
        split_ifs <;> rfl
    rw [if_neg hzero, if_neg hzero, hcomm, Option.map_map]
    refine congrArg (fun f => Option.map f _) (funext fun q => ?_)
    exact eraseUnit_setUnit (k := q.reduceRouterSaveInputSize u.size)

/-- The queues without the units `ids`: that of the storage is not held up by a queue of the
router in which no unit is left. -/
def WokenWithout (k : Kernel) (ids : List ID32) : Prop :=
  k.pendingRouterSaveReqs.length < maxStorageInputCnt ∨
    (∃ id ∈ k.pendingRouterSaveReqs, id ∉ ids ∧ (k.saveUnits.lookup id).isSome) ∨
      (∃ x ∈ k.posted.entries, x.1 ∉ ids ∧ (k.saveUnits.lookup x.1).isSome) ∨
        ∀ id ∈ k.pendingSaveRequests, id ∈ ids ∨ (k.saveUnits.lookup id).isNone

/-- A save has failed: its units are gone and the queues may be worked off, if no slot is held
for one of them and the queues are not held up without them. -/
theorem ready_processNotBackedUp (hk : Slots strict 0 k) (hbound : Bounded strict cfg W 0 k)
    (hr : k.requests.lookup rid = some r)
    (ho : strict → ∀ i ∈ r.units, ∀ x ∈ k.posted.lookup i, x.slot ≠ 1)
    (hwoken : strict → k.WokenWithout r.units)
    (h : (k.write (.failedUnit rid uuid)).processNotBackedUpSaveUnit rid err = some m) :
    Ready strict cfg W m := by
  obtain ⟨s, hs, h⟩ := Option.bind_eq_some_iff.mp h
  obtain rfl := Option.some.inj (hr.symm.trans hs)
  obtain ⟨q, hq, h⟩ := Option.bind_eq_some_iff.mp h
  obtain ⟨-, -, -, -, hgone⟩ := eraseUnits_eq_some hq
  obtain ⟨hslots, hposted, hsave, hrouter, hsize, hunits⟩ :=
    slots_eraseUnits (hk.quiet (quiet_write (.failedUnit rid uuid))) ho hq
  have hquiet : Quiet q m := by
    have hdelete : Quiet q (deleteSavedUnits rid r.savedUnits q) := quiet_deleteSavedUnits
    refine hdelete.trans ?_
    dsimp only at h
    split at h <;> exact quiet_respond h
  have hlive : ∀ id ∉ r.units, (k.saveUnits.lookup id).isSome →
      ∃ u, m.saveUnits.lookup id = some u := by
    intro id hid hsome
    rw [hquiet.units, hunits id hid]
    exact Option.isSome_iff_exists.mp hsome
  have hback : ∀ id v, m.saveUnits.lookup id = some v →
      id ∉ r.units ∧ k.saveUnits.lookup id = some v := by
    intro id v hv
    rw [hquiet.units] at hv
    exact hgone id v hv
  refine ⟨hslots.quiet hquiet, ⟨hbound.max, ?_, fun id _ v hv => ?_⟩, fun hs => ?_⟩
  · rw [hquiet.size]
    exact hsize.trans hbound.size
  · exact hbound.units id v (hback id v hv).2
  · rw [Woken, hquiet.router, hrouter, hquiet.save, hsave]
    rcases hwoken hs with hshort | ⟨id, hid, hnot, hsome⟩ | ⟨x, hx, hnot, hsome⟩ | hnone
    · exact .inl hshort
    · exact .inr (.inl ⟨id, hid, hlive id hnot hsome⟩)
    · refine .inr (.inr (.inl ⟨x.1, hlive x.1 hnot hsome, x.2, ?_⟩))
      rw [hquiet.posted, hposted]
      exact AList.mem_lookup_iff.mpr hx
    · refine .inr (.inr (.inr fun id hid => ?_))
      by_contra hne
      obtain ⟨v, hv⟩ := Option.ne_none_iff_exists'.mp hne
      obtain ⟨hnot, hlook⟩ := hback id v hv
      exact (hnone id hid).elim hnot fun hn => by simp [hlook] at hn

/-- The router cancels the backup of a unit. -/
theorem account_routerCancel (hk : Account strict k) (hbound : Bounded strict cfg W 0 k)
    (hp : k.posted.lookup uid = some .tender) (hlook : k.saveUnits.lookup uid = some u)
    (hin : u.bkpCount = 0 → ∀ r, k.requests.lookup u.mainRequest = some r → uid ∈ r.units)
    (hsafe : strict → u.bkpCount = 0 → ∀ r, k.requests.lookup u.mainRequest = some r →
      (∀ i ∈ r.units, ∀ x ∈ k.posted.lookup i, x.slot ≠ 1) ∧ k.WokenWithout r.units)
    (h : k.handleCanceledSaveUnit cfg u uid err = some k') : Account strict k' := by
  obtain ⟨hback, -⟩ := (hk.slots.fits uid).outside _ hp rfl u hlook
  have hq := hk.slots.notQueued hp
  rw [handleCanceledSaveUnit_eq hlook ((hk.slots.fits uid).untried u hlook) hin] at h
  obtain ⟨m, hm, hpending⟩ := Option.bind_eq_some_iff.mp h
  by_cases hzero : u.bkpCount = 0
  · rw [if_pos hzero] at hm
    obtain ⟨r, hr, -⟩ := Option.bind_eq_some_iff.mp hm
    exact (ready_processNotBackedUp hk.slots hbound hr (fun hs => (hsafe hs hzero r hr).1)
      (fun hs => (hsafe hs hzero r hr).2) hm).account hpending
  · rw [if_neg hzero] at hm
    obtain ⟨q, hq', rfl⟩ := Option.map_eq_some_iff.mp hm
    have hquiet := quiet_removeFromBackupUnits hq'
    have hload : u.load = u.size := by simp [SaveUnit.load, hback]
    have hno : strict → ∀ x ∈ q.posted.lookup uid, x.slot ≠ 1 := by
      intro _ x hx
      rw [hquiet.posted] at hx
      obtain rfl := Option.some.inj (hp.symm.trans hx)
      simp [Post.slot]
    have hslots := (hk.slots.quiet hquiet).eraseUnit (hquiet.units ▸ hlook) hno
    rw [hload] at hslots
    refine hk.handled hbound hlook hq.2 hslots ⟨fun id _ hne => ?_, fun id hid => ?_, ?_⟩ hpending
    · rw [Kernel.eraseUnit, AList.lookup_erase_ne hne]
      exact congrArg _ hquiet.units
    · exact .inl (hquiet.router ▸ hid)
    · exact (Nat.sub_le _ _).trans hquiet.size.le

end Kernel

end Metax
