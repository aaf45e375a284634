import Metax.Kernel.Confirmed
import Metax.Kernel.PendingQueues

/-!
# What a handler does besides the queues

Most of what a handler does is no concern of the flow control: it answers the IMS, deletes
pieces, writes requests back. Such a step is *quiet*. Building a master object is the one
thing on the side that is: its unit is new and is handed over at once, so the account grows by
it and every id that was in use keeps its place. `Aside n` says so; `n` bounds what is added
to the size being backed up.
-/

namespace Metax

namespace Kernel

/-- Nothing the flow control looks at has changed. -/
structure Quiet (k k' : Kernel) : Prop where
  counter : k.requestCounter ≤ k'.requestCounter
  requests : SameLocal k.requests k'.requests
  posted : k'.posted = k.posted
  units : k'.saveUnits = k.saveUnits
  save : k'.pendingSaveRequests = k.pendingSaveRequests
  router : k'.pendingRouterSaveReqs = k.pendingRouterSaveReqs
  cnt : k'.storageInputCnt = k.storageInputCnt
  size : k'.routerSaveInputSize = k.routerSaveInputSize

/-- The ids in use keep their places, and the size being backed up grows by `n` at most. -/
structure Aside (n : ℕ) (k k' : Kernel) : Prop where
  counter : k.requestCounter ≤ k'.requestCounter
  requests : SameLocal k.requests k'.requests
  posted : ∀ id < k.requestCounter, k'.posted.lookup id = k.posted.lookup id
  units : ∀ id < k.requestCounter, k'.saveUnits.lookup id = k.saveUnits.lookup id
  save : k'.pendingSaveRequests = k.pendingSaveRequests
  router : k'.pendingRouterSaveReqs = k.pendingRouterSaveReqs
  size : k'.routerSaveInputSize ≤ k.routerSaveInputSize + n

variable {strict : Prop} {codec : Codec} {cfg : KernelCfg} {c n : ℕ} {k k' m : Kernel}
  {x : Ending} {id rid uid : ID32} {r r' : Request} {u : SaveUnit} {us : List UUID}
  {names : List (Option UUID)} {pkg : Bytes}

/-- A request has the flag it had. -/
theorem Aside.isLocal (h : Aside n k k') (hr : k.requests.lookup rid = some r)
    (hr' : k'.requests.lookup rid = some r') : r'.isLocal = r.isLocal := by
  obtain ⟨s, hs, hsame⟩ := h.requests rid r' hr'
  obtain rfl := Option.some.inj (hr.symm.trans hs)
  exact hsame

/-- Quiet steps can be put in sequence. -/
theorem Quiet.refl (k : Kernel) : Quiet k k := ⟨le_rfl, .refl _, rfl, rfl, rfl, rfl, rfl, rfl⟩

theorem Quiet.trans (h : Quiet k m) (h' : Quiet m k') : Quiet k k' where
  counter := h.counter.trans h'.counter
  requests := h.requests.trans h'.requests
  posted := h'.posted.trans h.posted
  units := h'.units.trans h.units
  save := h'.save.trans h.save
  router := h'.router.trans h.router
  cnt := h'.cnt.trans h.cnt
  size := h'.size.trans h.size

/-- **A quiet step keeps the account.** -/
theorem Slots.quiet (h : Slots strict c k) (hq : Quiet k k') : Slots strict c k' :=
  h.congr hq.counter hq.requests.le hq.posted hq.units hq.save hq.router hq.cnt hq.size

/-- It is a step on the side that adds nothing. -/
theorem Quiet.aside (h : Quiet k k') : Aside n k k' where
  counter := h.counter
  requests := h.requests
  posted _ _ := by rw [h.posted]
  units _ _ := by rw [h.units]
  save := h.save
  router := h.router
  size := h.size ▸ Nat.le_add_right _ _

/-- A quiet step and one more on the side. -/
theorem Aside.trans (h : Aside 0 k m) (h' : Aside n m k') : Aside n k k' where
  counter := h.counter.trans h'.counter
  requests := h.requests.trans h'.requests
  posted id hid := (h'.posted id (hid.trans_le h.counter)).trans (h.posted id hid)
  units id hid := (h'.units id (hid.trans_le h.counter)).trans (h.units id hid)
  save := h'.save.trans h.save
  router := h'.router.trans h.router
  size := h'.size.trans (Nat.add_le_add_right h.size n)

/-- Where the queues and the places of the ids in use are the same, what waits still waits. -/
theorem Flows.congr (h : k.Flows) (hk : Slots strict c k)
    (hposted : ∀ id < k.requestCounter, k'.posted.lookup id = k.posted.lookup id)
    (hunits : ∀ id < k.requestCounter, k'.saveUnits.lookup id = k.saveUnits.lookup id)
    (hsave : k'.pendingSaveRequests = k.pendingSaveRequests)
    (hrouter : k'.pendingRouterSaveReqs = k.pendingRouterSaveReqs) : k'.Flows := by
  refine ⟨fun id hid => ?_, fun id u hu hin => ?_⟩
  · rw [hrouter] at hid
    rw [hunits id (hk.inRouter id hid)]
    exact h.live id hid
  · rw [hsave, hrouter] at hin
    have hlt : id < k.requestCounter := hin.elim (hk.inSave id) (hk.inRouter id)
    rw [hunits id hlt] at hu
    obtain ⟨v, ⟨w, hw⟩, p, hp⟩ := h.awaits id u hu hin
    refine ⟨v, ⟨w, ?_⟩, p, ?_⟩
    · rw [hunits v (hk.unit v w hw), hw]
    · rw [hposted v (hk.posted v p hp), hp]

/-- **A step on the side keeps the queues flowing.** -/
theorem Flows.aside (h : k.Flows) (hk : Slots strict c k) (ha : Aside n k k') : k'.Flows :=
  h.congr hk ha.posted ha.units ha.save ha.router

/-- What is queued was queued, and what an answer was to come for still waits for it. -/
theorem Flows.mono (h : k.Flows) (hsave : k'.pendingSaveRequests ⊆ k.pendingSaveRequests)
    (hrouter : k'.pendingRouterSaveReqs ⊆ k.pendingRouterSaveReqs)
    (hback : ∀ id u', k'.saveUnits.lookup id = some u' → ∃ u, k.saveUnits.lookup id = some u)
    (halive : ∀ id u, k.saveUnits.lookup id = some u → ∃ u', k'.saveUnits.lookup id = some u')
    (hout : ∀ id, k.Outstanding id → k'.Outstanding id) : k'.Flows := by
  refine ⟨fun id hid => ?_, fun id u' hu' hin => ?_⟩
  · obtain ⟨u, hu⟩ := h.live id (hrouter hid)
    exact halive id u hu
  · obtain ⟨u, hu⟩ := hback id u' hu'
    obtain ⟨v, hv⟩ := h.awaits id u hu (hin.imp (fun hq => hsave hq) fun hq => hrouter hq)
    exact ⟨v, hout v hv⟩

/-- So does a unit that starts. -/
theorem Flows.starts (h : k.Flows) (hs : Starts k k') : k'.Flows :=
  h.mono hs.save hs.router (fun id u' hu' => (hs.back id u' hu').imp fun _ hu => hu.1)
    (fun id u hu => (hs.alive id u hu).imp fun _ hu' => hu'.1) fun _ hv => hs.outstanding hv

/-! ### Quiet steps -/

/-- Entries, records and answers are quiet. -/
theorem quiet_write (e : Entry) : Quiet k (k.write e) :=
  ⟨le_rfl, .refl _, rfl, rfl, rfl, rfl, rfl, rfl⟩

/-- A record has to say as before where its units are saved. -/
theorem quiet_setRequest (hr : k.requests.lookup rid = some r) (hlocal : r'.isLocal = r.isLocal) :
    Quiet k (k.setRequest rid r') :=
  ⟨le_rfl, .insert hr hlocal, rfl, rfl, rfl, rfl, rfl, rfl⟩

theorem quiet_eraseRequest (rid : ID32) :
    Quiet k { k with requests := k.requests.erase rid } :=
  ⟨le_rfl, .erase rid, rfl, rfl, rfl, rfl, rfl, rfl⟩

theorem quiet_forget (rid : ID32) : Quiet k (k.forget rid) :=
  ⟨le_rfl, .refl _, rfl, rfl, rfl, rfl, rfl, rfl⟩

theorem quiet_respond {resp : Response} (h : k.respond rid resp = some k') : Quiet k k' := by
  obtain ⟨i, rfl⟩ := respond_eq_some h
  exact ⟨le_rfl, .refl _, rfl, rfl, rfl, rfl, rfl, rfl⟩

theorem quiet_handlePieceDelete (p : UUID) : Quiet k (k.handlePieceDelete rid p) :=
  ⟨Nat.le_succ _, .refl _, rfl, rfl, rfl, rfl, rfl, rfl⟩

/-- Deleting pieces is logged, and posted to nobody the account knows. -/
theorem quiet_deleteSavedUnits : Quiet k (deleteSavedUnits rid us k) := by
  induction us generalizing k with
  | nil => exact .refl k
  | cons p us ih => exact (quiet_handlePieceDelete p).trans ih

/-- The same for those of the old object. -/
theorem quiet_deleteOldPieces (hr : k.requests.lookup rid = some r)
    (hlocal : r'.isLocal = r.isLocal) : Quiet k (deleteOldPieces rid names k r').kernel := by
  fun_induction deleteOldPieces rid names k r' with
  | case1 | case2 => exact quiet_setRequest hr hlocal
  | case3 p names k r' ih => exact (quiet_handlePieceDelete p).trans (ih hr hlocal)

/-- `remove_unnecessary_uuids`. -/
theorem quiet_removeUnnecessaryUuids (hr : k.requests.lookup rid = some r)
    (h : k.removeUnnecessaryUuids rid r = some x) : Quiet k x.kernel := by
  obtain ⟨old, -, h⟩ := Option.bind_eq_some_iff.mp h
  split at h
  · obtain rfl := Option.some.inj h
    exact .refl _
  · dsimp only at h
    split at h
    · obtain rfl := Option.some.inj h
      exact quiet_setRequest hr rfl
    · obtain rfl := Option.some.inj h
      exact quiet_deleteOldPieces hr rfl

/-- `send_ims_save_confirm`. -/
theorem quiet_sendImsSaveConfirm (h : k.sendImsSaveConfirm rid = some x) : Quiet k x.kernel := by
  obtain ⟨r, hr, h⟩ := Option.bind_eq_some_iff.mp h
  obtain ⟨i, -, h⟩ := Option.bind_eq_some_iff.mp h
  obtain ⟨y, hy, h⟩ := Option.bind_eq_some_iff.mp h
  refine Ending.of_andThen (P := fun m => Quiet k m) h ?_ fun m m' hm hm' => ?_
  · split_ifs at hy
    · exact ((quiet_write _).trans (quiet_write _)).trans (quiet_removeUnnecessaryUuids hr hy)
    · obtain rfl := Option.some.inj hy
      exact quiet_write _
  · obtain rfl := Option.some.inj hm'
    exact hm.trans (quiet_forget rid)

/-- `process_save_confirm_for_master_object`. -/
theorem quiet_processSaveConfirmForMasterObject
    (h : k.processSaveConfirmForMasterObject u = some x) : Quiet k x.kernel := by
  obtain ⟨r, -, h⟩ := Option.bind_eq_some_iff.mp h
  by_cases hcmd : r.cmd = .update
  · rw [if_pos hcmd] at h
    exact (quiet_write _).trans (quiet_sendImsSaveConfirm h)
  · rw [if_neg hcmd] at h
    exact quiet_sendImsSaveConfirm h

/-- A request may be crossed out or go. -/
theorem quiet_removeFromBackupUnits (h : k.removeFromBackupUnits rid uid = some k') :
    Quiet k k' := by
  obtain ⟨r, hr, h⟩ := Option.bind_eq_some_iff.mp h
  dsimp only at h
  split_ifs at h
  · obtain rfl := Option.some.inj h
    exact quiet_eraseRequest rid
  · obtain rfl := Option.some.inj h
    exact quiet_setRequest hr rfl

/-! ### The master object -/

/-- `save_master_object`: the size of the master object must fit the counter. -/
theorem slots_saveMasterObject (h : Slots strict c k)
    (hfit : k.routerSaveInputSize + pkgSize pkg < 2 ^ 32)
    (hk : saveMasterObject cfg k rid pkg = some k') :
    Slots strict c k' ∧ Aside (pkgSize pkg) k k' := by
  obtain ⟨hp, hu, hsave, hrouter⟩ := h.fresh
  obtain ⟨r, hr, hk⟩ := Option.bind_eq_some_iff.mp hk
  rcases hlocal : r.isLocal with _ | _
  · simp only [hlocal] at hk
    obtain rfl := Option.some.inj hk
    constructor
    · exact h.change k.requestCounter (Nat.le_succ _) (Nat.lt_succ_self _)
        (RequestsLe.insert hr fun hl => hl) (fun id hid => AList.lookup_insert_ne hid)
        (fun id hid => AList.lookup_insert_ne hid) (fun _ _ hq => hq) (fun _ _ hq => hq)
        h.nodupSave h.nodupRouter hp (AList.lookup_insert _) hu (AList.lookup_insert _)
        (.remote hsave hrouter rfl rfl (fun _ => nonlocal_insert hlocal) rfl) rfl
        (Nat.mod_eq_of_lt hfit)
    · exact ⟨Nat.le_succ _, SameLocal.insert hr rfl, fun id hid => AList.lookup_insert_ne hid.ne,
        fun id hid => AList.lookup_insert_ne hid.ne, rfl, rfl, Nat.mod_le _ _⟩
  · simp only [hlocal] at hk
    obtain rfl := Option.some.inj hk
    constructor
    · exact h.change k.requestCounter (Nat.le_succ _) (Nat.lt_succ_self _)
        (RequestsLe.insert hr fun hl => hl) (fun id hid => AList.lookup_insert_ne hid)
        (fun id hid => AList.lookup_insert_ne hid) (fun _ _ hq => hq) (fun _ _ hq => hq)
        h.nodupSave h.nodupRouter hp (AList.lookup_insert _) hu (AList.lookup_insert _)
        (.local hsave hrouter rfl rfl rfl rfl) rfl rfl
    · exact ⟨Nat.le_succ _, SameLocal.insert hr rfl, fun id hid => AList.lookup_insert_ne hid.ne,
        fun id hid => AList.lookup_insert_ne hid.ne, rfl, rfl, Nat.le_add_right _ _⟩

/-- `start_master_object_save`. -/
theorem slots_startMasterObjectSave (h : Slots strict c k) (hr : k.requests.lookup rid = some r)
    (hn : pkgSize (codec.stringify (masterObject codec r)) = n)
    (hfit : k.routerSaveInputSize + n < 2 ^ 32)
    (hk : startMasterObjectSave codec cfg k rid = some x) :
    Slots strict c x.kernel ∧ Aside n k x.kernel := by
  subst hn
  obtain ⟨s, hs, hk⟩ := Option.bind_eq_some_iff.mp hk
  obtain rfl := Option.some.inj (hr.symm.trans hs)
  have hwrite : Quiet k (k.write (.built rid r (masterObject codec r))) := quiet_write _
  dsimp only at hk
  split_ifs at hk
  · obtain rfl := Option.some.inj hk
    exact ⟨h, (Quiet.refl k).aside⟩
  · obtain rfl := Option.some.inj hk
    have hset : Quiet (k.write (.built rid r (masterObject codec r)))
        ((k.write (.built rid r (masterObject codec r))).setRequest rid { r with
          waitsFor := .encryption (codec.stringify (masterObject codec r)) }) :=
      quiet_setRequest hr rfl
    exact ⟨h.quiet (hwrite.trans hset), (hwrite.trans hset).aside⟩
  · obtain ⟨k', hk', rfl⟩ := Option.map_eq_some_iff.mp hk
    obtain ⟨hslots, haside⟩ := slots_saveMasterObject (h.quiet hwrite) hfit hk'
    exact ⟨hslots, hwrite.aside.trans haside⟩

/-- `process_save_confirm_for_piece`. -/
theorem slots_processSaveConfirmForPiece (h : Slots strict c k)
    (hr : k.requests.lookup u.mainRequest = some r)
    (hn : pkgSize (codec.stringify (masterObject codec r)) = n)
    (hfit : k.routerSaveInputSize + n < 2 ^ 32)
    (hk : k.processSaveConfirmForPiece codec cfg u uid = some x) :
    Slots strict c x.kernel ∧ Aside n k x.kernel := by
  obtain ⟨s, hs, hk⟩ := Option.bind_eq_some_iff.mp hk
  obtain rfl := Option.some.inj (hr.symm.trans hs)
  have hset : Quiet k (k.setRequest u.mainRequest { r with
      units := r.units.filter (· ≠ uid)
      savedUnits := r.savedUnits.insert u.uuid }) := quiet_setRequest hr rfl
  dsimp only at hk
  split_ifs at hk
  · obtain ⟨hslots, haside⟩ := slots_startMasterObjectSave (h.quiet hset)
      (AList.lookup_insert _) hn hfit hk
    exact ⟨hslots, hset.aside.trans haside⟩
  · obtain rfl := Option.some.inj hk
    exact ⟨h.quiet hset, hset.aside⟩

end Kernel

end Metax
