import Metax.Kernel.SlotAccounting

/-!
# No save is stuck in a queue

A queued unit is started by `process_pending_save_requests`, and the kernel calls that when an
answer comes, if no exception comes before. So a unit is stuck when no answer is to come any more.
`Awaited` is an id for which one is: its unit is there, something is posted for it, and each answer
that can come works off the queues, or brings it one task further. In a run that meets the strict
condition every queued unit has an awaited one beside it.

Without the condition it has not: after 150 failures of the storage all slots are leaked, and the
next object that is saved locally in pieces stays in the queue for ever.
-/

namespace Metax

open Run (run)

/-- The unit an answer of the storage or the router decides about. -/
def Event.replyTo : Event → Option ID32
  | .storageSaveConfirm id | .storageNoSpace id | .storageFailed id _ | .routerSaveConfirm id
  | .routerCancel id => some id
  | .imsSave _ _ _ _ | .imsUpdate _ _ _ | .oldMaster _ _ _ _ _ | .oldMasterFailed _ _
  | .getAesKey _ _ | .masterEncrypted _ _ | .pieceEncrypted _ _ | .routerSaveOffer _ _
  | .routerAuth _ _ | .fileChanged _ _ => none

namespace Kernel

/-- An answer is to come for the unit `v`, and, unless it is a confirmation that throws, makes the
kernel work off the queues: at once, or, where the unit is with the key manager, from the storage
or the router to which it goes next. -/
structure Awaited (codec : Codec) (cfg : KernelCfg) (k : Kernel) (v : ID32) : Prop where
  outstanding : k.Outstanding v
  wakes : ∀ e k', e.replyTo = some v → k.ConfirmReturns v → step codec cfg k e = some k' →
    ∃ m, processPendingSaveRequests cfg m = some k'
  goesOn : ∀ key k', step codec cfg k (.pieceEncrypted v key) = some k' →
    (∃ u, k'.saveUnits.lookup v = some u) ∧
      (k'.posted.lookup v = some .saveData ∨ k'.posted.lookup v = some .tender)

variable {strict : Prop} {codec : Codec} {cfg : KernelCfg} {c n : ℕ} {k k' : Kernel}
  {id v : ID32} {u : SaveUnit} {e : Event} {evs : List Event} {err : String} {data : Bytes}

/-! ### Answers work off the queues -/

theorem forUnit_of_lookup {f : SaveUnit → Option Kernel} (hlook : k.saveUnits.lookup v = some u)
    (h : k.forUnit v f = some k') : f u = some k' := by
  simpa only [forUnit, hlook] using h

theorem handleSaveConfirm_wakes (hreturns : u.bkpCount = 0 →
      ∀ r, k.requests.lookup u.mainRequest = some r → confirmThrows u r v = false)
    (h : (k.handleSaveConfirmForLocalSaveUnit codec cfg u v).map Ending.kernel = some k') :
    ∃ m, processPendingSaveRequests cfg m = some k' := by
  obtain ⟨x, hx, rfl⟩ := Option.map_eq_some_iff.mp h
  obtain ⟨m, k', rfl, hpending⟩ := handleSaveConfirm_returned hreturns hx
  exact ⟨m, hpending⟩

theorem handleCanceled_wakes (hfail : u.failCount = 0)
    (h : k.handleCanceledSaveUnit cfg u v err = some k') :
    ∃ m, processPendingSaveRequests cfg m = some k' := by
  simp only [handleCanceledSaveUnit, hfail, maxSaveFailCount, Nat.zero_add, if_true] at h
  obtain ⟨m, -, hpending⟩ := Option.bind_eq_some_iff.mp h
  exact ⟨m, hpending⟩

/-- What is posted for a unit that is there is awaited. -/
theorem Slots.awaited (h : Slots strict c k) (hout : k.Outstanding v) :
    Awaited codec cfg k v := by
  refine ⟨hout, fun e k' he hreturns hstep => ?_, fun key k' hstep => ?_⟩
  · obtain ⟨⟨u, hu⟩, -⟩ := hout
    have hu' : (k.answered v).saveUnits.lookup v = some u := hu
    have hfail := (h.fits v).untried u hu
    have hreturns' := hreturns u hu
    cases e <;> simp only [Event.replyTo, reduceCtorEq, Option.some.injEq] at he
    all_goals
      subst he
      obtain ⟨-, hstep⟩ := pocoAssert_eq_some.mp hstep
    case storageSaveConfirm =>
      exact handleSaveConfirm_wakes (k := k.answered _) hreturns' (forUnit_of_lookup hu' hstep)
    case storageNoSpace =>
      obtain ⟨-, hstep⟩ := pocoAssert_eq_some.mp (forUnit_of_lookup hu' hstep)
      obtain ⟨r, -, hpending⟩ := Option.bind_eq_some_iff.mp hstep
      exact ⟨_, hpending⟩
    case storageFailed => exact handleCanceled_wakes hfail (forUnit_of_lookup hu' hstep)
    case routerSaveConfirm => exact handleSaveConfirm_wakes hreturns' (forUnit_of_lookup hu hstep)
    case routerCancel => exact handleCanceled_wakes hfail (forUnit_of_lookup hu hstep)
  · obtain ⟨⟨u, hu⟩, -⟩ := hout
    simp only [step, handlePieceEncrypted] at hstep
    split at hstep
    · obtain ⟨r, r', log, -, -, rfl⟩ := handleSaveAfterPieceEncrypt_eq_some hu hstep
      refine ⟨⟨_, AList.lookup_insert _⟩, ?_⟩
      simp only [Kernel.post, AList.lookup_insert]
      split_ifs <;> simp
    · simp at hstep

/-- **No stuck queue.** While a live unit is queued, an answer for another one is still to
come. -/
theorem queue_not_stuck (h : run (step codec cfg) initial evs = some k)
    (hok : Run.Along (step codec cfg) (FlowCondition True codec cfg) initial evs)
    (hlook : k.saveUnits.lookup id = some u)
    (hq : id ∈ k.pendingSaveRequests ∨ id ∈ k.pendingRouterSaveReqs) :
    ∃ v ≠ id, Awaited codec cfg k v := by
  have hk := account_run h hok
  obtain ⟨v, hv⟩ := (hk.flows trivial).awaits id u hlook hq
  refine ⟨v, ?_, hk.slots.awaited hv⟩
  rintro rfl
  obtain ⟨-, p, hp⟩ := hv
  simp [(hk.slots.fits v).free hq] at hp

/-- Two objects are saved locally; the second waits for the router, which is backing up the
first. -/
theorem queue_not_stuck_of_four : ∃ k u, run (step .plain ⟨2, 4, 1⟩) initial
    [.imsSave 7 ⟨.message [1, 2, 3] [], false, .default, "text", 0, 0⟩ 5
        fun i => BitVec.ofNat 128 (9 + i),
      .imsSave 8 ⟨.message [4, 5, 6] [], false, .default, "text", 0, 0⟩ 6
          fun i => BitVec.ofNat 128 (9 + i),
      .storageSaveConfirm 1, .storageSaveConfirm 3] = some k ∧
    k.saveUnits.lookup 3 = some u ∧ 3 ∈ k.pendingRouterSaveReqs ∧
      ∃ v ≠ 3, Awaited .plain ⟨2, 4, 1⟩ k v := by
  have hrun : run (step .plain ⟨2, 4, 1⟩) initial
    [.imsSave 7 ⟨.message [1, 2, 3] [], false, .default, "text", 0, 0⟩ 5
        fun i => BitVec.ofNat 128 (9 + i),
      .imsSave 8 ⟨.message [4, 5, 6] [], false, .default, "text", 0, 0⟩ 6
          fun i => BitVec.ofNat 128 (9 + i),
      .storageSaveConfirm 1, .storageSaveConfirm 3] = some _ := rfl
  exact ⟨_, _, hrun, rfl, by decide, queue_not_stuck hrun (by decide) rfl (.inr (by decide))⟩

/-! ### A stuck queue -/

/-- No unit is there, nothing is posted or queued, and `n` slots are taken. -/
structure Leaked (n : ℕ) (k : Kernel) : Prop where
  counter : k.requestCounter = 2 * n
  units : k.saveUnits = ∅
  posted : k.posted = ∅
  save : k.pendingSaveRequests = []
  router : k.pendingRouterSaveReqs = []
  cnt : k.storageInputCnt = n

/-- The only unit is with the storage, and one more slot is taken. -/
structure Saving (n : ℕ) (k : Kernel) : Prop where
  counter : k.requestCounter = 2 * (n + 1)
  units : k.saveUnits = AList.insert (2 * n + 1)
    ⟨2 * n, 0, 0, 0, .master, 5, [], .save, 0, 0, false⟩ ∅
  posted : k.posted = AList.insert (2 * n + 1) .saveData ∅
  save : k.pendingSaveRequests = []
  router : k.pendingRouterSaveReqs = []
  cnt : k.storageInputCnt = n + 1
  ims : k.imsReqIds.lookup (2 * n) = some 7
  request : ∃ r, k.requests.lookup (2 * n) = some r ∧ r.units = [2 * n + 1] ∧ r.savedUnits = [] ∧
    r.cmd = .save

theorem Leaked.saveEmpty (h : Leaked n k) :
    ∃ k', step .plain ⟨1, 21000000, 1⟩ k (saveLocally []) = some k' ∧ Saving n k' := by
  obtain ⟨counter, requests, ims, units, save, router, cnt, size, posted, log⟩ := k
  obtain ⟨hcounter, hunits, hposted, hsave, hrouter, hcnt⟩ := h
  dsimp only at hcounter hunits hposted hsave hrouter hcnt
  subst hunits hposted hsave hrouter hcounter
  have hgen : ∀ g, generatePiecesJson 0 g = ∅ := fun g => rfl
  simp [saveLocally, step, handleImsSaveRequest, processImsSaveRequest, newRequest, openRequest,
    getDataSizeFromRequestObject, Source.data, shouldSaveInLocal, shouldGenerateNewKey,
    handleSaveOfUnencryptedData, startSave, hgen,
    startMasterObjectSave, saveMasterObject, prepareUnitForSave, postStorageSaveRequest,
    Kernel.setRequest, Kernel.setUnit, Kernel.post, Kernel.write]
  constructor <;> try simp [hcnt]
  · rfl
  · rfl

theorem Saving.storageFailed (h : Saving n k) (err : String) : ∃ k', step .plain ⟨1, 21000000, 1⟩ k
    (.storageFailed (2 * n + 1) err) = some k' ∧ Leaked (n + 1) k' := by
  obtain ⟨hcounter, hunits, hposted, hsave, hrouter, hcnt, hims, r, hr, hru, hrs, hcmd⟩ := h
  simp [-AList.insert_empty, Ledger.erase_insert, step, forUnit, Kernel.answered, hposted, hunits,
    handleCanceledSaveUnit, maxSaveFailCount, handleFailedSaveUnit, Kernel.setUnit, Kernel.write,
    processNotBackedUpSaveUnit, hr, hru, hrs, hcmd, eraseUnits, Kernel.eraseUnit, deleteSavedUnits,
    sendImsSaveFailResponse, respond, Kernel.forget, hims, processPendingSaveRequests,
    processStoragePendingSaveRequests, hsave, hrouter, storagePendingLoop,
    processRouterPendingSaveRequests, routerPendingLoop]
  constructor <;> simp [hcnt, hcounter] <;> rfl

/-- Each failure of the storage leaks a slot. -/
theorem leaked_run (n : ℕ) : ∃ k, run (step .plain ⟨1, 21000000, 1⟩) initial
    ((List.range n).flatMap fun i => [saveLocally [], .storageFailed (2 * i + 1) "err"]) = some k ∧
      Leaked n k := by
  induction n with
  | zero => exact ⟨initial, rfl, rfl, rfl, rfl, rfl, rfl, rfl⟩
  | succ n ih =>
    obtain ⟨k, hrun, hk⟩ := ih
    obtain ⟨m, hm, hsaving⟩ := hk.saveEmpty
    obtain ⟨k', hk', hleaked⟩ := hsaving.storageFailed "err"
    refine ⟨k', ?_, hleaked⟩
    rw [List.range_succ, List.flatMap_append]
    refine Run.run_append_eq_some.mpr ⟨k, hrun, Run.run_cons_eq_some.mpr ⟨m, hm, ?_⟩⟩
    exact Run.run_cons_eq_some.mpr ⟨k', hk', rfl⟩

/-- Where all slots are leaked the pieces of a local save stay in the queue. -/
theorem Leaked.saveTwoPieces (h : Leaked n k) (hn : maxStorageInputCnt ≤ n)
    (hlen : data.length = 7000001) :
    ∃ k' u, step .plain ⟨1, 21000000, 1⟩ k (saveLocally data) = some k' ∧ k'.posted = ∅ ∧
      2 * n + 1 ∈ k'.pendingSaveRequests ∧ k'.saveUnits.lookup (2 * n + 1) = some u := by
  obtain ⟨counter, requests, ims, units, save, router, cnt, size, posted, log⟩ := k
  obtain ⟨hcounter, hunits, hposted, hsave, hrouter, hcnt⟩ := h
  dsimp only at hcounter hunits hposted hsave hrouter hcnt
  subst hunits hposted hsave hrouter hcounter
  have hlist : twoPieces.toList = [(9, ⟨0, 7000000, none⟩), (10, ⟨7000000, 1, none⟩)] := rfl
  have hne : twoPieces.entries.length ≠ 0 := by decide
  have hfull : ¬ cnt < maxStorageInputCnt := by omega
  simp only [saveLocally, step, handleImsSaveRequest, processImsSaveRequest, newRequest,
    getDataSizeFromRequestObject, Source.data, hlen, generatePiecesJson_eq_twoPieces,
    shouldGenerateNewKey, handleSaveOfUnencryptedData, startSave]
  simp [-AList.insert_empty, hne, hlist, openRequest, preparePiecesForSave, shouldSaveInLocal,
    prepareUnitForSave, processPendingSaveRequests, processStoragePendingSaveRequests,
    storagePendingLoop, hfull, processRouterPendingSaveRequests, routerPendingLoop,
    Kernel.setRequest, Kernel.setUnit]

/-- As many failed saves as there are slots, and then an object of two pieces. -/
def stuckRun : List Event :=
  ((List.range maxStorageInputCnt).flatMap fun i =>
    [saveLocally [], .storageFailed (2 * i + 1) "err"]) ++ [saveLocally (List.replicate 7000001 0)]

/-- **A stuck queue.** A live unit is queued, and no answer is to come. -/
theorem queue_stuck : ∃ k u, run (step .plain ⟨1, 21000000, 1⟩) initial stuckRun = some k ∧
    k.saveUnits.lookup 301 = some u ∧ 301 ∈ k.pendingSaveRequests ∧ ∀ v, ¬ k.Outstanding v := by
  obtain ⟨m, hm, hleaked⟩ := leaked_run maxStorageInputCnt
  obtain ⟨k, u, hk, hposted, hin, hu⟩ :=
    hleaked.saveTwoPieces le_rfl (List.length_replicate (a := 0))
  refine ⟨k, u, Run.run_append_eq_some.mpr ⟨m, hm, ?_⟩, hu, hin, fun v hv => ?_⟩
  · exact Run.run_cons_eq_some.mpr ⟨k, hk, rfl⟩
  · obtain ⟨-, p, hp⟩ := hv
    rw [hposted] at hp
    exact absurd hp.symm (Option.some_ne_none p)

end Kernel

end Metax
