import Metax.Kernel.Slots

/-!
# Working off the queues

What `process_pending_save_requests` does to the flow control: every unit it starts takes its
slot or adds its size, so the account stays right; no unit and nothing that is posted is lost;
and what it leaves in a queue it leaves for a reason. The storage queue stops at the limit of
the slots or before a long queue of the router, and a unit stays in the router queue because it
would be too much.

`Room W` bounds the sizes so that the 32-bit counter cannot wrap.
-/

namespace Metax

namespace Kernel

/-- A unit that is there and for which a message is out. -/
def Outstanding (k : Kernel) (id : ID32) : Prop :=
  (∃ u, k.saveUnits.lookup id = some u) ∧ ∃ p, k.posted.lookup id = some p

/-- With `W` bytes under way, a unit of `s` bytes still fits the 32-bit counter; in a strict
account it also is not larger than the router may hold. -/
def Admits (strict : Prop) (cfg : KernelCfg) (W s : ℕ) : Prop :=
  W + s < 2 ^ 32 ∧ (strict → s ≤ cfg.maxRouterSaveInputSize)

/-- No more than `W` bytes are under way, and every unit queued for the router is admitted. -/
structure Room (strict : Prop) (cfg : KernelCfg) (W : ℕ) (k : Kernel) : Prop where
  max : cfg.maxRouterSaveInputSize ≤ W
  size : k.routerSaveInputSize ≤ W
  units : ∀ id ∈ k.pendingRouterSaveReqs, ∀ u, k.saveUnits.lookup id = some u →
    Admits strict cfg W u.size

/-- Units are started, none is lost. -/
structure Starts (k k' : Kernel) : Prop where
  save : k'.pendingSaveRequests ⊆ k.pendingSaveRequests
  router : k'.pendingRouterSaveReqs ⊆ k.pendingRouterSaveReqs
  size : k.routerSaveInputSize ≤ k'.routerSaveInputSize
  back : ∀ id u', k'.saveUnits.lookup id = some u' →
    ∃ u, k.saveUnits.lookup id = some u ∧ u'.size = u.size
  alive : ∀ id u, k.saveUnits.lookup id = some u →
    ∃ u', k'.saveUnits.lookup id = some u' ∧ u'.size = u.size
  posted : ∀ id p, k.posted.lookup id = some p → ∃ p', k'.posted.lookup id = some p'

variable {strict : Prop} {cfg : KernelCfg} {c W : ℕ} {k k' m : Kernel} {id i : ID32} {r : Request}
  {u : SaveUnit} {ids rest : List ID32}

theorem Starts.refl (k : Kernel) : Starts k k :=
  ⟨List.Subset.refl _, List.Subset.refl _, le_rfl, fun _ u h => ⟨u, h, rfl⟩,
    fun _ u h => ⟨u, h, rfl⟩, fun _ p h => ⟨p, h⟩⟩

theorem Starts.trans (h : Starts k m) (h' : Starts m k') : Starts k k' := by
  refine ⟨List.Subset.trans h'.save h.save, List.Subset.trans h'.router h.router,
    h.size.trans h'.size, ?_, ?_, ?_⟩
  · intro id u'' hu''
    obtain ⟨u', hu', hsize'⟩ := h'.back id u'' hu''
    obtain ⟨u, hu, hsize⟩ := h.back id u' hu'
    exact ⟨u, hu, hsize'.trans hsize⟩
  · intro id u hu
    obtain ⟨u', hu', hsize⟩ := h.alive id u hu
    obtain ⟨u'', hu'', hsize'⟩ := h'.alive id u' hu'
    exact ⟨u'', hu'', hsize'.trans hsize⟩
  · intro id p hp
    obtain ⟨p', hp'⟩ := h.posted id p hp
    exact h'.posted id p' hp'

theorem Starts.outstanding (h : Starts k k') (hout : k.Outstanding id) : k'.Outstanding id := by
  obtain ⟨⟨u, hu⟩, p, hp⟩ := hout
  obtain ⟨u', hu', -⟩ := h.alive id u hu
  exact ⟨⟨u', hu'⟩, h.posted id p hp⟩

/-- One unit, in no other queue, is started. -/
theorem Starts.of_insert {v : SaveUnit} {x : Post} (hlook : k.saveUnits.lookup i = some u)
    (hsize : v.size = u.size) (hposted : k'.posted = k.posted.insert i x)
    (hunits : k'.saveUnits = k.saveUnits.insert i v)
    (hsave : k'.pendingSaveRequests ⊆ k.pendingSaveRequests)
    (hrouter : k'.pendingRouterSaveReqs ⊆ k.pendingRouterSaveReqs)
    (hle : k.routerSaveInputSize ≤ k'.routerSaveInputSize) : Starts k k' := by
  refine ⟨hsave, hrouter, hle, ?_, ?_, ?_⟩
  · rw [hunits]
    exact Ledger.exists_of_lookup_insert (fun _ => rfl) hlook hsize
  · intro id w hw
    rw [hunits]
    exact Ledger.exists_lookup_insert_rel (R := fun u v => v.size = u.size) (fun _ => rfl) hlook
      hsize hw
  · intro id p hp
    rw [hposted]
    exact Ledger.exists_lookup_insert ⟨p, hp⟩

/-! ### The queue of the storage -/

/-- `handle_piece_save` hands the unit over, to the storage or first to the key manager. -/
theorem handlePieceSave_eq_some (h : handlePieceSave k i u r = some k') :
    ∃ x log, x.slot = 1 ∧ k' = { k.post i x with log := log } := by
  rw [handlePieceSave] at h
  split_ifs at h
  · obtain ⟨-, h⟩ := pocoAssert_eq_some.mp h
    exact ⟨.encryptPiece u.content true, k.log, rfl, (Option.some.inj h).symm⟩
  · exact ⟨.saveData, _, rfl, (Option.some.inj h).symm⟩

/-- The front of the queue is taken: it is handed over, or its unit is gone. -/
theorem slots_takePendingSave (h : Slots strict c k) (hq : k.pendingSaveRequests = i :: rest)
    (hk : k.takePendingSave i = some k') :
    Slots strict c k' ∧ Starts k k' ∧ k'.pendingSaveRequests = rest ∧
      k'.pendingRouterSaveReqs = k.pendingRouterSaveReqs ∧
        k'.routerSaveInputSize = k.routerSaveInputSize := by
  have hin : i ∈ k.pendingSaveRequests := hq ▸ List.mem_cons_self
  have htail : k.pendingSaveRequests.tail = rest := by rw [hq, List.tail_cons]
  have hnot : i ∉ rest := (List.nodup_cons.mp (hq ▸ h.nodupSave)).1
  have hsub : rest ⊆ k.pendingSaveRequests := hq ▸ List.subset_cons_self i rest
  have hfits := h.fits i
  have hdequeue := h.dequeue (s := rest) (q := k.pendingRouterSaveReqs)
    (hq ▸ List.sublist_cons_self i rest) (List.Sublist.refl _)
  rw [takePendingSave, htail] at hk
  rcases hlook : k.saveUnits.lookup i with _ | u
  · simp only [hlook] at hk
    obtain rfl := Option.some.inj hk
    exact ⟨hdequeue, ⟨hsub, List.Subset.refl _, le_rfl, fun _ u h => ⟨u, h, rfl⟩,
      fun _ u h => ⟨u, h, rfl⟩, fun _ p h => ⟨p, h⟩⟩, rfl, rfl, rfl⟩
  · simp only [hlook, Option.bind_eq_some_iff, pocoAssert_eq_some] at hk
    obtain ⟨r, -, -, hk⟩ := hk
    obtain ⟨x, log, hslot, rfl⟩ := handlePieceSave_eq_some hk
    have hrouter : i ∉ k.pendingRouterSaveReqs := fun hin' => hfits.apart ⟨hin, hin'⟩
    have hset : Slots strict c (({ k with pendingSaveRequests := rest } : Kernel).setUnit i
        { u with content := getPieceDataForSave r u.start u.size }) :=
      hdequeue.setUnit hlook rfl rfl rfl rfl rfl
    have hpost := hset.takeSlot.postLocal (AList.lookup_insert _) (hfits.free (.inl hin))
      ⟨hnot, hrouter⟩ hslot (hfits.pending hin u hlook) (hfits.parked (.inl hin) u hlook)
    refine ⟨hpost.congr le_rfl (.refl _) rfl rfl rfl rfl rfl rfl,
      .of_insert (v := { u with content := getPieceDataForSave r u.start u.size }) (x := x) hlook
        rfl rfl rfl hsub (List.Subset.refl _) le_rfl, rfl, rfl, rfl⟩

/-- `process_storage_pending_save_requests` stops when the queue is empty, when all slots are
taken, or because the queue of the router is long. -/
theorem slots_storagePendingLoop (h : Slots strict c k) (hq : k.pendingSaveRequests = ids)
    (hk : storagePendingLoop ids k = some k') :
    Slots strict c k' ∧ Starts k k' ∧ k'.pendingRouterSaveReqs = k.pendingRouterSaveReqs ∧
      k'.routerSaveInputSize = k.routerSaveInputSize ∧
        (k'.pendingSaveRequests = [] ∨ maxStorageInputCnt ≤ k'.pendingRouterSaveReqs.length ∨
          maxStorageInputCnt ≤ k'.storageInputCnt) := by
  induction ids generalizing k with
  | nil =>
    obtain rfl := Option.some.inj hk
    exact ⟨h, .refl k, rfl, rfl, .inl hq⟩
  | cons i rest ih =>
    rw [storagePendingLoop] at hk
    split_ifs at hk with hlimit
    · obtain ⟨m, hm, hrest⟩ := Option.bind_eq_some_iff.mp hk
      obtain ⟨hslots, hstarts, hsave, hrouter, hsize⟩ := slots_takePendingSave h hq hm
      obtain ⟨hslots', hstarts', hrouter', hsize', hstop⟩ := ih hslots hsave hrest
      exact ⟨hslots', hstarts.trans hstarts', hrouter'.trans hrouter, hsize'.trans hsize, hstop⟩
    · obtain rfl := Option.some.inj hk
      refine ⟨h, .refl k, rfl, rfl, .inr ?_⟩
      rcases not_and_or.mp hlimit with hlong | hfull
      · exact .inl (not_lt.mp hlong)
      · exact .inr (not_lt.mp hfull)

/-! ### The queue of the router -/

/-- `handle_piece_for_backup` hands the unit over, to the router or first to the key manager. -/
theorem handlePieceForBackup_eq_some
    (h : handlePieceForBackup cfg (k.setUnit i u) i u r = some k') :
    ∃ x v log, x.slot = 0 ∧ (x ≠ .tender → r.isLocal = false) ∧ v.mainRequest = u.mainRequest ∧
      v.bkpCount = u.bkpCount ∧ v.size = u.size ∧ v.failCount = u.failCount ∧
        v.backup = u.backup ∧
        k' = { (k.setUnit i v).post i x with log := log } := by
  have hset : ∀ v, (k.setUnit i u).setUnit i v = k.setUnit i v := fun v => by
    rw [Kernel.setUnit, Kernel.setUnit, Kernel.setUnit, AList.insert_insert]
  simp only [handlePieceForBackup, hset] at h
  split_ifs at h with hlocal henc
  · exact ⟨.tender, u, _, rfl, fun hne => absurd rfl hne, rfl, rfl, rfl, rfl, rfl,
      (Option.some.inj h).symm⟩
  · obtain ⟨-, h⟩ := pocoAssert_eq_some.mp h
    exact ⟨.encryptPiece _ false, { u with content := getPieceDataForSave r u.start u.size },
      k.log, rfl, fun _ => Bool.eq_false_of_not_eq_true hlocal, rfl, rfl, rfl, rfl, rfl,
      (Option.some.inj h).symm⟩
  · exact ⟨.tender, { u with content := getPieceDataForSave r u.start u.size }, _, rfl,
      fun hne => absurd rfl hne, rfl, rfl, rfl, rfl, rfl, (Option.some.inj h).symm⟩

/-- A queued unit is visited: it is started, or is gone, or it would be too much. -/
theorem slots_visitPendingRouterSave (h : Slots strict c k) (hroom : Room strict cfg W k)
    (hin : i ∈ k.pendingRouterSaveReqs) (hk : visitPendingRouterSave cfg k i = some k') :
    Slots strict c k' ∧ Room strict cfg W k' ∧ Starts k k' ∧
      k'.pendingSaveRequests = k.pendingSaveRequests ∧
      ((k'.pendingRouterSaveReqs = k.pendingRouterSaveReqs.erase i ∧
          ∀ u, k.saveUnits.lookup i = some u → k'.Outstanding i) ∨
        k' = k ∧ ∃ u, k.saveUnits.lookup i = some u ∧
          cfg.maxRouterSaveInputSize < k.routerSaveInputSize + u.size) := by
  have hsub : (k.pendingRouterSaveReqs.erase i).Sublist k.pendingRouterSaveReqs :=
    List.erase_sublist
  have hnot : i ∉ k.pendingRouterSaveReqs.erase i :=
    (List.Nodup.mem_erase_iff h.nodupRouter).not.mpr fun hmem => hmem.1 rfl
  have hfits := h.fits i
  have hsave : i ∉ k.pendingSaveRequests := fun hin' => hfits.apart ⟨hin', hin⟩
  have hdequeue := h.dequeue (List.Sublist.refl k.pendingSaveRequests) hsub
  rw [visitPendingRouterSave] at hk
  rcases hlook : k.saveUnits.lookup i with _ | u
  · simp only [hlook] at hk
    obtain rfl := Option.some.inj hk
    refine ⟨hdequeue, ⟨hroom.max, hroom.size, fun id hid => hroom.units id (hsub.subset hid)⟩,
      ⟨List.Subset.refl _, hsub.subset, le_rfl, fun _ u h => ⟨u, h, rfl⟩,
        fun _ u h => ⟨u, h, rfl⟩, fun _ p h => ⟨p, h⟩⟩, rfl, .inl ⟨rfl, fun u hu => ?_⟩⟩
    exact absurd hu.symm (Option.some_ne_none u)
  · have hfit : k.routerSaveInputSize + u.size < 2 ^ 32 :=
      (Nat.add_le_add_right hroom.size u.size).trans_lt (hroom.units i hin u hlook).1
    simp only [hlook, Nat.mod_eq_of_lt hfit] at hk
    split_ifs at hk with hle
    · simp only [Option.bind_eq_some_iff, Option.map_eq_some_iff] at hk
      obtain ⟨r, hr, m, hm, rfl⟩ := hk
      obtain ⟨x, v, log, hslot, hx, hmain, hcount, hsize, hfail, hback, rfl⟩ :=
        handlePieceForBackup_eq_some
          (k := { k with routerSaveInputSize := k.routerSaveInputSize + u.size }) hm
      have hfree := hfits.free (.inr hin)
      have hnonlocal : (x = .tender → u.bkpCount = 0) → Nonlocal k.requests u.mainRequest := by
        -- on the way to the key manager, or without a copy, the request is not saved locally
        intro ht
        by_cases htender : x = .tender
        · exact hfits.routed hin u hlook (ht htender)
        · intro s hs
          obtain rfl := Option.some.inj (hr.symm.trans hs)
          exact hx htender
      refine ⟨hdequeue.startBackup hlook hfree ⟨hsave, hnot⟩ (hfits.parked (.inr hin) u hlook)
        hmain hcount hsize hfail hback hslot hnonlocal rfl rfl rfl rfl rfl rfl ⟨rfl, rfl⟩,
        ⟨hroom.max, hle.trans hroom.max, fun id hid w hw => ?_⟩,
        .of_insert (v := v) (x := x) hlook hsize rfl rfl (List.Subset.refl _) hsub.subset
          (Nat.le_add_right _ _), rfl, .inl ⟨rfl, fun _ _ => ?_⟩⟩
      · have hne : id ≠ i := by
          rintro rfl
          exact hnot hid
        rw [Kernel.post, Kernel.setUnit, AList.lookup_insert_ne hne] at hw
        exact hroom.units id (hsub.subset hid) w hw
      · exact ⟨⟨v, AList.lookup_insert _⟩, x, AList.lookup_insert _⟩
    · obtain rfl := Option.some.inj hk
      exact ⟨h, hroom, .refl k, rfl, .inr ⟨rfl, u, rfl, not_le.mp hle⟩⟩

/-- `process_router_pending_save_requests` leaves the units for which there is no room. -/
theorem slots_routerPendingLoop (h : Slots strict c k) (hroom : Room strict cfg W k)
    (hsub : ids ⊆ k.pendingRouterSaveReqs) (hnodup : ids.Nodup)
    (hk : routerPendingLoop cfg ids k = some k') :
    Slots strict c k' ∧ Room strict cfg W k' ∧ Starts k k' ∧
      k'.pendingSaveRequests = k.pendingSaveRequests ∧
      (∀ id ∈ ids, id ∈ k'.pendingRouterSaveReqs → ∃ u, k'.saveUnits.lookup id = some u ∧
        cfg.maxRouterSaveInputSize < k'.routerSaveInputSize + u.size) ∧
      (∀ id ∈ ids, ∀ u, k.saveUnits.lookup id = some u →
        id ∈ k'.pendingRouterSaveReqs ∨ k'.Outstanding id) ∧
      ∀ id ∈ k.pendingRouterSaveReqs, id ∉ ids → id ∈ k'.pendingRouterSaveReqs := by
  induction ids generalizing k with
  | nil =>
    obtain rfl := Option.some.inj hk
    exact ⟨h, hroom, .refl k, rfl, fun id hid => absurd hid List.not_mem_nil,
      fun id hid => absurd hid List.not_mem_nil, fun id hid _ => hid⟩
  | cons i rest ih =>
    obtain ⟨m, hm, hrest⟩ := Option.bind_eq_some_iff.mp hk
    obtain ⟨hslots, hroom', hstarts, hsave, hcase⟩ :=
      slots_visitPendingRouterSave h hroom (hsub List.mem_cons_self) hm
    obtain ⟨hnot, hnodup'⟩ := List.nodup_cons.mp hnodup
    have hothers : ∀ id ∈ k.pendingRouterSaveReqs, id ≠ i → id ∈ m.pendingRouterSaveReqs := by
      intro id hid hne
      rcases hcase with ⟨herase, -⟩ | ⟨rfl, -⟩
      · exact herase ▸ (List.mem_erase_of_ne hne).mpr hid
      · exact hid
    have hrestsub : rest ⊆ m.pendingRouterSaveReqs := fun id hid =>
      hothers id (hsub (List.mem_cons_of_mem _ hid)) fun he => hnot (he ▸ hid)
    obtain ⟨hslots', hroom'', hstarts', hsave', hleft, hstarted, hstay⟩ :=
      ih hslots hroom' hrestsub hnodup' hrest
    refine ⟨hslots', hroom'', hstarts.trans hstarts', hsave'.trans hsave, fun id hid hin => ?_,
      fun id hid u hu => ?_, fun id hid hnotin => ?_⟩
    · rcases List.mem_cons.mp hid with rfl | hid
      · rcases hcase with ⟨herase, -⟩ | ⟨rfl, u, hu, htoo⟩
        · have hin' := hstarts'.router hin
          rw [herase, List.Nodup.mem_erase_iff h.nodupRouter] at hin'
          exact absurd rfl hin'.1
        · obtain ⟨u', hu', hsize⟩ := hstarts'.alive id u hu
          exact ⟨u', hu', hsize ▸ htoo.trans_le (Nat.add_le_add_right hstarts'.size _)⟩
      · exact hleft id hid hin
    · rcases List.mem_cons.mp hid with rfl | hid
      · rcases hcase with ⟨-, hout⟩ | ⟨rfl, -⟩
        · exact .inr (hstarts'.outstanding (hout u hu))
        · exact .inl (hstay id (hsub List.mem_cons_self) hnot)
      · obtain ⟨u', hu', -⟩ := hstarts.alive id u hu
        exact hstarted id hid u' hu'
    · obtain ⟨hne, hnotin'⟩ := not_or.mp (List.mem_cons.not.mp hnotin)
      exact hstay id (hothers id hid hne) hnotin'

/-! ### Both queues -/

/-- What is queued is not forgotten: the units in the queue of the router are there, and while
a unit is queued, an answer for another one is still to come. -/
structure Flows (k : Kernel) : Prop where
  live : ∀ id ∈ k.pendingRouterSaveReqs, ∃ u, k.saveUnits.lookup id = some u
  awaits : ∀ id u, k.saveUnits.lookup id = some u →
    id ∈ k.pendingSaveRequests ∨ id ∈ k.pendingRouterSaveReqs → ∃ v, k.Outstanding v

/-- The queue of the storage is not held up by a queue of the router in which no unit is left,
unless it has none left either or an answer is still to come. -/
def Woken (k : Kernel) : Prop :=
  k.pendingRouterSaveReqs.length < maxStorageInputCnt ∨
    (∃ id ∈ k.pendingRouterSaveReqs, ∃ u, k.saveUnits.lookup id = some u) ∨
      (∃ v, k.Outstanding v) ∨ ∀ id ∈ k.pendingSaveRequests, k.saveUnits.lookup id = none

/-- Where all units in the queue of the router are there, nothing is held up for nothing. -/
theorem woken_of_live (h : ∀ id ∈ k.pendingRouterSaveReqs, ∃ u, k.saveUnits.lookup id = some u) :
    k.Woken := by
  rcases hq : k.pendingRouterSaveReqs with _ | ⟨id, rest⟩
  · left
    simp [hq, maxStorageInputCnt]
  · right; left
    have hin : id ∈ k.pendingRouterSaveReqs := by simp [hq]
    exact ⟨id, hin, h id hin⟩

/-- Where a slot is taken in a strict account, an answer is still to come. -/
theorem Slots.outstanding_of_local (h : Slots strict c k) (hs : strict) (hpos : 0 < k.localSlots) :
    ∃ v, k.Outstanding v := by
  obtain ⟨v, p, hp, hslot⟩ := Ledger.exists_of_total_pos hpos
  have hone : p.slot = 1 := by
    rcases p with ⟨pkg, _ | _⟩ | _ | _ <;> simp [Post.slot] at hslot ⊢
  obtain ⟨u, hu⟩ := Option.isSome_iff_exists.mp ((h.fits v).present hs p hp hone)
  exact ⟨v, ⟨u, hu⟩, p, hp⟩

/-- Where bytes are being backed up, an answer of the router is still to come. -/
theorem Slots.outstanding_of_backup (h : Slots strict c k) (hpos : 0 < k.backupSize) :
    ∃ v, k.Outstanding v := by
  obtain ⟨v, u, hu, hload⟩ := Ledger.exists_of_total_pos hpos
  have hback : u.backup = true := by
    by_contra hnot
    simp [SaveUnit.load, hnot] at hload
  obtain ⟨p, hp, -⟩ := (h.fits v).backedUp u hu hback
  exact ⟨v, ⟨u, hu⟩, p, hp⟩

/-- **The queues are worked off**: the account stays right, no unit is lost, and what is left
in a queue waits for an answer that is still to come. -/
theorem slots_processPendingSaveRequests (h : Slots strict 0 k) (hroom : Room strict cfg W k)
    (hwoken : strict → k.Woken) (hk : processPendingSaveRequests cfg k = some k') :
    Slots strict 0 k' ∧ Starts k k' ∧ (strict → k'.Flows) := by
  obtain ⟨m, hm, hk⟩ := Option.bind_eq_some_iff.mp hk
  obtain ⟨hslots, hstarts, hrouter, hsize, hstop⟩ := slots_storagePendingLoop h rfl hm
  have hroom' : Room strict cfg W m := by
    refine ⟨hroom.max, hsize ▸ hroom.size, fun id hid u' hu' => ?_⟩
    obtain ⟨u, hu, hsame⟩ := hstarts.back id u' hu'
    exact hsame ▸ hroom.units id (hrouter ▸ hid) u hu
  obtain ⟨hslots', hroom'', hstarts', hsave, hleft, hstarted, -⟩ :=
    slots_routerPendingLoop hslots hroom' (List.Subset.refl _) hslots.nodupRouter hk
  refine ⟨hslots', hstarts.trans hstarts', fun hs => ?_⟩
  -- a unit is left in the queue of the router because the router is busy
  have hbusy : ∀ id ∈ k'.pendingRouterSaveReqs, ∃ v, k'.Outstanding v := by
    intro id hid
    obtain ⟨u, hu, htoo⟩ := hleft id (hstarts'.router hid) hid
    have hsmall := (hroom''.units id hid u hu).2 hs
    have hback := hslots'.size
    exact hslots'.outstanding_of_backup (by omega)
  refine ⟨fun id hid => ?_, fun id u hu hin => ?_⟩
  · obtain ⟨u, hu, -⟩ := hleft id (hstarts'.router hid) hid
    exact ⟨u, hu⟩
  · rcases hin with hin | hin
    · rw [hsave] at hin
      rcases hstop with hnil | hlong | hfull
      · simp [hnil] at hin
      · rw [hrouter] at hlong
        rcases hwoken hs with hshort | ⟨i, hi, w, hw⟩ | ⟨v, hv⟩ | hgone
        · exact absurd hlong (not_le.mpr hshort)
        · obtain ⟨w', hw', -⟩ := hstarts.alive i w hw
          rcases hstarted i (hrouter ▸ hi) w' hw' with hstays | hout
          · exact hbusy i hstays
          · exact ⟨i, hout⟩
        · exact ⟨v, hstarts'.outstanding (hstarts.outstanding hv)⟩
        · obtain ⟨w, hw, -⟩ := (hstarts.trans hstarts').back id u hu
          simp [hgone id (hstarts.save hin)] at hw
      · have hcnt := hslots.cnt
        have hpos : 0 < m.localSlots := by
          simp only [maxStorageInputCnt] at hfull
          omega
        obtain ⟨v, hv⟩ := hslots.outstanding_of_local hs hpos
        exact ⟨v, hstarts'.outstanding hv⟩
    · exact hbusy id hin

end Kernel

end Metax
