import Metax.Kernel.Onward

/-!
# Units that are gone

A unit that has been erased is never made again, it is not put into a queue, and nothing is handed
to the storage for it: `Buried` says so of any part of the save path, whatever it does. An answer
that comes for it all the same finds nothing.

Its id may still be in a queue. The router queue drops every such id when it is worked off, the
storage queue those that its loop comes to: `Reaches` says which.

The last part puts this together for the answers and for whole events (`buried_step`). What a save
that has failed leaves behind depends on it (`Metax.Kernel.FailedSave`).
-/

namespace Metax

namespace Kernel

/-- The id is in one of the queues. -/
def Queued (k : Kernel) (id : ID32) : Prop :=
  id ∈ k.pendingSaveRequests ∨ id ∈ k.pendingRouterSaveReqs

/-- What is gone stays gone, it is not queued again, and the storage is not handed it any more. -/
structure Buried (k k' : Kernel) : Prop where
  counter : k.requestCounter ≤ k'.requestCounter
  gone : ∀ id < k.requestCounter, k.saveUnits.lookup id = none → k'.saveUnits.lookup id = none
  queued : ∀ id < k.requestCounter, k.saveUnits.lookup id = none → k'.Queued id → k.Queued id
  posted : ∀ id < k.requestCounter, k.saveUnits.lookup id = none →
    k'.posted.lookup id = some .saveData → k.posted.lookup id = some .saveData

variable {codec : Codec} {cfg : KernelCfg} {k k' m : Kernel} {x : Ending} {rid uid id : ID32}
  {r : Request} {u u' : SaveUnit}

namespace Buried

/-- Parts of the save path can be put in sequence. -/
theorem refl (k : Kernel) : Buried k k :=
  ⟨le_rfl, fun _ _ h => h, fun _ _ _ h => h, fun _ _ _ h => h⟩

/-- What is gone after the first part is gone for the second one. -/
theorem trans (h : Buried k m) (h' : Buried m k') : Buried k k' where
  counter := h.counter.trans h'.counter
  gone id hid hnone := h'.gone id (hid.trans_le h.counter) (h.gone id hid hnone)
  queued id hid hnone hq :=
    h.queued id hid hnone (h'.queued id (hid.trans_le h.counter) (h.gone id hid hnone) hq)
  posted id hid hnone hp :=
    h.posted id hid hnone (h'.posted id (hid.trans_le h.counter) (h.gone id hid hnone) hp)

/-- A part that makes no unit, hands nothing over and puts nothing into a queue. -/
theorem of_same (hcounter : k.requestCounter ≤ k'.requestCounter)
    (hunits : k'.saveUnits = k.saveUnits) (hposted : k'.posted = k.posted)
    (hqueued : ∀ id, k'.Queued id → k.Queued id) : Buried k k' :=
  ⟨hcounter, fun _ _ h => hunits ▸ h, fun id _ _ h => hqueued id h, fun _ _ _ h => hposted ▸ h⟩

/-- A quiet step does not touch the queues. -/
theorem queued_quiet (h : Quiet k k') : k'.Queued id ↔ k.Queued id := by
  rw [Queued, h.save, h.router, Queued]

theorem quiet (h : Quiet k k') : Buried k k' :=
  of_same h.counter h.units h.posted fun _ => (queued_quiet h).mp

/-- What is posted is posted for a unit that is there or is just being made. -/
theorem post {x : Post} (hlive : k.requestCounter ≤ uid ∨ k.saveUnits.lookup uid ≠ none) :
    Buried k (k.post uid x) := by
  refine ⟨le_rfl, fun _ _ h => h, fun _ _ _ h => h, fun id hid hnone hp => ?_⟩
  have hne : id ≠ uid := by
    rintro rfl
    exact hlive.elim (fun hle => absurd hid hle.not_gt) fun hsome => hsome hnone
  rwa [Kernel.post, AList.lookup_insert_ne hne] at hp

/-- A unit is written back that is there, or one is made with a new id. -/
theorem setUnit (hlive : k.requestCounter ≤ uid ∨ k.saveUnits.lookup uid ≠ none) :
    Buried k (k.setUnit uid u) := by
  refine ⟨le_rfl, fun id hid hnone => ?_, fun _ _ _ h => h, fun _ _ _ h => h⟩
  have hne : id ≠ uid := by
    rintro rfl
    exact hlive.elim (fun hle => absurd hid hle.not_gt) fun hsome => hsome hnone
  rwa [Kernel.setUnit, AList.lookup_insert_ne hne]

/-- A unit that is there is written back and handed over. -/
theorem handOver (u' : SaveUnit) (x : Post) (hlook : k.saveUnits.lookup uid = some u)
    (hcounter : k.requestCounter ≤ k'.requestCounter)
    (hunits : k'.saveUnits = k.saveUnits.insert uid u')
    (hposted : k'.posted = k.posted.insert uid x)
    (hqueued : ∀ id, k'.Queued id → k.Queued id) : Buried k k' := by
  have hlive : k.saveUnits.lookup uid ≠ none := by
    rw [hlook]
    exact Option.some_ne_none u
  have hset : Buried k (k.setUnit uid u') := .setUnit (.inr hlive)
  have hpost : Buried (k.setUnit uid u') ((k.setUnit uid u').post uid x) := by
    refine .post (.inr ?_)
    rw [Kernel.setUnit, AList.lookup_insert]
    exact Option.some_ne_none u'
  exact (hset.trans hpost).trans (.of_same hcounter hunits hposted hqueued)

/-- A unit is forgotten. -/
theorem erase (uid : ID32) (hcounter : k.requestCounter ≤ k'.requestCounter)
    (hunits : k'.saveUnits = k.saveUnits.erase uid) (hposted : k'.posted = k.posted)
    (hqueued : ∀ id, k'.Queued id → k.Queued id) : Buried k k' := by
  refine ⟨hcounter, fun id _ hnone => ?_, fun id _ _ h => hqueued id h, fun _ _ _ h => hposted ▸ h⟩
  rw [hunits, Ledger.lookup_erase_ite, hnone, ite_self]

/-- Requests, entries of the log and counters have no part in it. -/
theorem setRequest (rid : ID32) (r : Request) : Buried k (k.setRequest rid r) :=
  of_same le_rfl rfl rfl fun _ h => h

theorem write (e : Entry) : Buried k (k.write e) := of_same le_rfl rfl rfl fun _ h => h

theorem reduceStorage : Buried k k.reduceStorageInputSize := of_same le_rfl rfl rfl fun _ h => h

/-- An answer takes back what was posted. -/
theorem answered (id : ID32) : Buried k (k.answered id) := by
  refine ⟨le_rfl, fun _ _ h => h, fun _ _ _ h => h, fun i _ _ hp => ?_⟩
  obtain ⟨-, hp⟩ := Ledger.of_lookup_erase hp
  exact hp

/-- A new unit is queued under its new id. -/
theorem prepareUnit {b s : ℕ} {t : UnitType} {uuid : UUID} {c : Bytes} {backup : Bool} :
    Buried k (k.prepareUnitForSave rid r b s t uuid c backup) := by
  refine ⟨Nat.le_succ _, fun id hid hnone => ?_, fun id hid _ hq => ?_, fun _ _ _ h => h⟩
  · simp only [prepareUnitForSave, Kernel.setRequest, Kernel.setUnit]
    rwa [AList.lookup_insert_ne hid.ne]
  · simp only [Queued, prepareUnitForSave] at hq
    -- the new id is the counter, and `id` is below it
    refine hq.imp (fun hq => ?_) fun hq => ?_
    all_goals
      split_ifs at hq
      · exact (List.mem_cons.mp hq).resolve_left hid.ne
      · exact hq

/-- A unit that is there is put into the queue of the router. -/
theorem enqueue (hlive : k.saveUnits.lookup uid ≠ none) :
    Buried k { k with pendingRouterSaveReqs := uid :: k.pendingRouterSaveReqs } := by
  refine ⟨le_rfl, fun _ _ h => h, fun id _ hnone hq => ?_, fun _ _ _ h => h⟩
  have hne : id ≠ uid := by
    rintro rfl
    exact hlive hnone
  exact hq.imp_right fun hq => (List.mem_cons.mp hq).resolve_left hne

end Buried

/-- **The queue of the storage**: what is handed over has its unit. -/
theorem buried_takePendingSave (h : k.takePendingSave uid = some k') : Buried k k' := by
  simp only [takePendingSave] at h
  split at h
  · obtain rfl := Option.some.inj h
    exact .of_same le_rfl rfl rfl fun _ h => h.imp_left List.mem_of_mem_tail
  · rename_i u hu
    obtain ⟨r, -, h⟩ := Option.bind_eq_some_iff.mp h
    obtain ⟨-, h⟩ := pocoAssert_eq_some.mp h
    obtain ⟨x, log, -, rfl⟩ := handlePieceSave_eq_some h
    exact .handOver _ x hu le_rfl rfl rfl fun _ h => h.imp_left List.mem_of_mem_tail

/-- Its loop, id by id. -/
theorem buried_storagePendingLoop {ids : List ID32} (h : storagePendingLoop ids k = some k') :
    Buried k k' := by
  induction ids generalizing k with
  | nil =>
    obtain rfl := Option.some.inj h
    exact .refl k
  | cons i ids ih =>
    rw [storagePendingLoop] at h
    split_ifs at h
    · obtain ⟨m, hm, h⟩ := Option.bind_eq_some_iff.mp h
      exact (buried_takePendingSave hm).trans (ih h)
    · obtain rfl := Option.some.inj h
      exact .refl k

/-- **The queue of the router**: what is left in it was there before. -/
theorem buried_visitPendingRouterSave (h : visitPendingRouterSave cfg k uid = some k') :
    Buried k k' := by
  simp only [visitPendingRouterSave] at h
  split at h
  · obtain rfl := Option.some.inj h
    exact .of_same le_rfl rfl rfl fun _ h => h.imp_right List.mem_of_mem_erase
  · rename_i u hu
    split_ifs at h
    · obtain ⟨r, -, h⟩ := Option.bind_eq_some_iff.mp h
      obtain ⟨m, hm, rfl⟩ := Option.map_eq_some_iff.mp h
      obtain ⟨x, v, log, -, -, -, -, -, -, -, rfl⟩ := handlePieceForBackup_eq_some
        (k := { k with routerSaveInputSize := (k.routerSaveInputSize + u.size) % 2 ^ 32 }) hm
      exact .handOver v x hu le_rfl rfl rfl fun _ h => h.imp_right List.mem_of_mem_erase
    · obtain rfl := Option.some.inj h
      exact .refl k

/-- Both queues are worked off. -/
theorem buried_processPendingSaveRequests (h : processPendingSaveRequests cfg k = some k') :
    Buried k k' := by
  have hloop : ∀ {ids : List ID32} {k : Kernel}, routerPendingLoop cfg ids k = some k' →
      Buried k k' := by
    intro ids
    induction ids with
    | nil =>
      intro k h
      obtain rfl := Option.some.inj h
      exact .refl k
    | cons i ids ih =>
      intro k h
      obtain ⟨m, hm, h⟩ := Option.bind_eq_some_iff.mp h
      exact (buried_visitPendingRouterSave hm).trans (ih h)
  obtain ⟨m, hm, h⟩ := Option.bind_eq_some_iff.mp h
  exact (buried_storagePendingLoop hm).trans (hloop h)

/-! ### Ids that are left in a queue

A failed save leaves the ids of its units in the queues. `p` are the ids that should go, `q` those
that take a slot when the storage queue comes to them. -/

/-- With `n` slots taken, the loop over the storage queue comes to every id with `p`. -/
def Reaches (p q : ID32 → Bool) : List ID32 → ℕ → Prop
  | [], _ => True
  | i :: ids, n =>
    (p i = true → n < maxStorageInputCnt) ∧ Reaches p q ids (if q i then n + 1 else n)

instance decidableReaches (p q : ID32 → Bool) : (ids : List ID32) → (n : ℕ) →
    Decidable (Reaches p q ids n)
  | [], _ => .isTrue trivial
  | i :: ids, n =>
    have := decidableReaches p q ids (if q i then n + 1 else n)
    inferInstanceAs (Decidable (_ ∧ _))

variable {p q : ID32 → Bool} {ids : List ID32} {i : ID32} {n : ℕ}

/-- Once all slots are taken the loop comes to nothing more. -/
theorem Reaches.none_of_le (h : Reaches p q ids n) (hn : maxStorageInputCnt ≤ n) :
    ∀ i ∈ ids, p i ≠ true := by
  induction ids generalizing n with
  | nil => exact fun _ hi => absurd hi List.not_mem_nil
  | cons i ids ih =>
    obtain ⟨hfront, hrest⟩ := h
    intro j hj hp
    rcases List.mem_cons.mp hj with rfl | hj
    · exact absurd (hfront hp) hn.not_gt
    · refine ih hrest ?_ j hj hp
      split_ifs
      · exact hn.trans (Nat.le_succ n)
      · exact hn

/-- A unit that is there takes a slot. -/
theorem takePendingSave_eq_some (h : k.takePendingSave i = some m) :
    m.pendingSaveRequests = k.pendingSaveRequests.tail ∧
      m.pendingRouterSaveReqs = k.pendingRouterSaveReqs ∧
      (∀ j u, m.saveUnits.lookup j = some u → ∃ v, k.saveUnits.lookup j = some v) ∧
      (m.storageInputCnt = k.storageInputCnt ∨
        m.storageInputCnt = k.storageInputCnt + 1 ∧ ∃ u, k.saveUnits.lookup i = some u) := by
  simp only [takePendingSave] at h
  rcases hlook : k.saveUnits.lookup i with _ | u
  · simp only [hlook] at h
    obtain rfl := Option.some.inj h
    exact ⟨rfl, rfl, fun _ u hu => ⟨u, hu⟩, .inl rfl⟩
  · simp only [hlook, Option.bind_eq_some_iff, pocoAssert_eq_some] at h
    obtain ⟨r, -, -, h⟩ := h
    obtain ⟨x, log, -, rfl⟩ := handlePieceSave_eq_some h
    refine ⟨rfl, rfl, fun j v hv => ?_, .inr ⟨rfl, u, rfl⟩⟩
    obtain ⟨rfl, -⟩ | ⟨-, hv⟩ := Ledger.eq_or_of_lookup_insert hv
    · exact ⟨u, hlook⟩
    · exact ⟨v, hv⟩

/-- What the loop comes to leaves the storage queue. -/
theorem dropped_storagePendingLoop (hids : k.pendingSaveRequests = ids)
    (hcnt : k.storageInputCnt ≤ n) (hreach : Reaches p q ids n)
    (hshort : ∀ i ∈ ids, p i = true → k.pendingRouterSaveReqs.length < maxStorageInputCnt)
    (hslot : ∀ i u, k.saveUnits.lookup i = some u → q i = true)
    (h : storagePendingLoop ids k = some k') : ∀ i ∈ k'.pendingSaveRequests, p i ≠ true := by
  induction ids generalizing k n with
  | nil =>
    obtain rfl := Option.some.inj h
    exact fun i hi => absurd (hids ▸ hi) List.not_mem_nil
  | cons i ids ih =>
    rw [storagePendingLoop] at h
    split_ifs at h with hlimit
    · obtain ⟨m, hm, h⟩ := Option.bind_eq_some_iff.mp h
      obtain ⟨htail, hrouter, hlive, hslots⟩ := takePendingSave_eq_some hm
      refine ih (n := if q i then n + 1 else n) ?_ ?_ hreach.2 (fun j hj hp => ?_)
        (fun j u hu => ?_) h
      · rw [htail, hids, List.tail_cons]
      · rcases hslots with hsame | ⟨hmore, u, hu⟩
        · rw [hsame]
          split_ifs
          · exact hcnt.trans (Nat.le_succ n)
          · exact hcnt
        · rw [hmore, if_pos (hslot i u hu)]
          exact Nat.succ_le_succ hcnt
      · rw [hrouter]
        exact hshort j (List.mem_cons_of_mem i hj) hp
      · obtain ⟨v, hv⟩ := hlive j u hu
        exact hslot j v hv
    · obtain rfl := Option.some.inj h
      intro j hj hp
      rw [hids] at hj
      refine hreach.none_of_le ?_ j hj hp
      -- the loop has stopped although the router queue is short
      exact (not_lt.mp fun hlt => hlimit ⟨hshort j hj hp, hlt⟩).trans hcnt

/-- The router queue is visited once for each time an id is in it. -/
theorem count_routerPendingLoop (hgone : k.saveUnits.lookup i = none)
    (h : routerPendingLoop cfg ids k = some k') :
    k'.pendingSaveRequests = k.pendingSaveRequests ∧
      k'.pendingRouterSaveReqs.count i ≤ k.pendingRouterSaveReqs.count i - ids.count i := by
  induction ids generalizing k with
  | nil =>
    obtain rfl := Option.some.inj h
    exact ⟨rfl, le_rfl⟩
  | cons j ids ih =>
    obtain ⟨m, hm, h⟩ := Option.bind_eq_some_iff.mp h
    obtain ⟨hsave, hgone', hcount⟩ : m.pendingSaveRequests = k.pendingSaveRequests ∧
        m.saveUnits.lookup i = none ∧
        m.pendingRouterSaveReqs.count i ≤
          k.pendingRouterSaveReqs.count i - if j = i then 1 else 0 := by
      simp only [visitPendingRouterSave] at hm
      rcases hlook : k.saveUnits.lookup j with _ | u
      · simp only [hlook] at hm
        obtain rfl := Option.some.inj hm
        refine ⟨rfl, hgone, ?_⟩
        rw [List.count_erase]
        simp only [beq_iff_eq, le_refl]
      · have hne : i ≠ j := by
          rintro rfl
          exact Option.some_ne_none u (hlook.symm.trans hgone)
        rw [if_neg hne.symm]
        simp only [hlook] at hm
        split_ifs at hm
        · obtain ⟨r, -, hm⟩ := Option.bind_eq_some_iff.mp hm
          obtain ⟨m', hbackup, rfl⟩ := Option.map_eq_some_iff.mp hm
          obtain ⟨x, v, log, -, -, -, -, -, -, -, rfl⟩ := handlePieceForBackup_eq_some
            (k := { k with routerSaveInputSize := (k.routerSaveInputSize + u.size) % 2 ^ 32 })
            hbackup
          refine ⟨rfl, ?_, ?_⟩
          · rw [Kernel.post, Kernel.setUnit, AList.lookup_insert_ne hne]
            exact hgone
          · exact List.Sublist.count_le i List.erase_sublist
        · obtain rfl := Option.some.inj hm
          exact ⟨rfl, hgone, le_rfl⟩
    obtain ⟨hsave', hcount'⟩ := ih hgone' h
    refine ⟨hsave'.trans hsave, ?_⟩
    rw [List.count_cons]
    simp only [beq_iff_eq]
    omega

/-- **The queues drop what is gone**, if the loop over the storage queue comes to it. -/
theorem not_queued_processPendingSaveRequests
    (hreach : Reaches p q k.pendingSaveRequests k.storageInputCnt)
    (hshort : ∀ i ∈ k.pendingSaveRequests, p i = true →
      k.pendingRouterSaveReqs.length < maxStorageInputCnt)
    (hslot : ∀ i u, k.saveUnits.lookup i = some u → q i = true)
    (hid : i < k.requestCounter) (hgone : k.saveUnits.lookup i = none) (hp : p i = true)
    (h : processPendingSaveRequests cfg k = some k') : ¬ k'.Queued i := by
  obtain ⟨m, hm, h⟩ := Option.bind_eq_some_iff.mp h
  have hdropped := dropped_storagePendingLoop rfl le_rfl hreach hshort hslot hm
  have hgone' := (buried_storagePendingLoop hm).gone i hid hgone
  obtain ⟨hsave, hcount⟩ := count_routerPendingLoop hgone' h
  rintro (hin | hin)
  · exact hdropped i (hsave ▸ hin) hp
  · have hpos := List.count_pos_iff.mpr hin
    omega

/-! ### The parts of the save path -/

/-- The unit of a master object is new. -/
theorem buried_saveMasterObject {pkg : Bytes} (h : saveMasterObject cfg k rid pkg = some k') :
    Buried k k' := by
  obtain ⟨r, -, h⟩ := Option.bind_eq_some_iff.mp h
  have hlive : (k.prepareUnitForSave rid r 0 (pkgSize pkg) .master r.uuid pkg
      (!r.isLocal)).saveUnits.lookup k.requestCounter ≠ none := by
    simp only [prepareUnitForSave, Kernel.setRequest, Kernel.setUnit, AList.lookup_insert]
    exact Option.some_ne_none _
  have hpost : ∀ x, Buried k ((k.prepareUnitForSave rid r 0 (pkgSize pkg) .master r.uuid pkg
      (!r.isLocal)).post k.requestCounter x) := fun x =>
    Buried.prepareUnit.trans (.post (.inr hlive))
  dsimp only at h
  split_ifs at h
  all_goals obtain rfl := Option.some.inj h
  · exact (hpost .saveData).trans (.of_same le_rfl rfl rfl fun _ h => h)
  · exact (hpost .tender).trans (.of_same le_rfl rfl rfl fun _ h => h)

/-- So it is whether the object is encrypted first or not. -/
theorem buried_startMasterObjectSave (h : startMasterObjectSave codec cfg k rid = some x) :
    Buried k x.kernel := by
  obtain ⟨r, -, h⟩ := Option.bind_eq_some_iff.mp h
  dsimp only at h
  split_ifs at h
  · obtain rfl := Option.some.inj h
    exact .refl k
  · obtain rfl := Option.some.inj h
    exact .of_same le_rfl rfl rfl fun _ h => h
  · obtain ⟨k', hk', rfl⟩ := Option.map_eq_some_iff.mp h
    exact (Buried.write _).trans (buried_saveMasterObject hk')

/-- The units of the pieces are new. -/
theorem buried_preparePieces {ps : List (UUID × Piece)}
    (h : preparePiecesForSave rid ps k = some k') : Buried k k' := by
  induction ps generalizing k with
  | nil =>
    obtain rfl := Option.some.inj h
    exact .refl k
  | cons x ps ih =>
    obtain ⟨r, -, h⟩ := Option.bind_eq_some_iff.mp h
    exact Buried.prepareUnit.trans (ih h)

/-- Hence those of every save that starts. -/
theorem buried_startSave (h : k.startSave codec cfg rid r = some x) : Buried k x.kernel := by
  have hset : Buried k (k.setRequest rid r) := .setRequest rid r
  rw [startSave] at h
  split_ifs at h
  · exact hset.trans (buried_startMasterObjectSave h)
  · obtain ⟨k', hk', rfl⟩ := Option.map_eq_some_iff.mp h
    obtain ⟨m, hm, hpending⟩ := Option.bind_eq_some_iff.mp hk'
    exact (hset.trans (buried_preparePieces hm)).trans (buried_processPendingSaveRequests hpending)

theorem buried_processImsSaveRequest {g : ℕ → UUID}
    (h : k.processImsSaveRequest codec cfg rid r g = some x) : Buried k x.kernel := by
  rw [processImsSaveRequest] at h
  dsimp only at h
  split_ifs at h
  · obtain rfl := Option.some.inj h
    exact .setRequest _ _
  · obtain rfl := Option.some.inj h
    exact .setRequest _ _
  · exact buried_startSave h

/-- An update that fails before it starts has none. -/
theorem buried_failUpdate {failure : FetchFailure} (h : k.failUpdate cfg rid r failure = some k') :
    Buried k k' := by
  rcases failure with _ | err | err
  · obtain ⟨m, hm, rfl⟩ := Option.map_eq_some_iff.mp h
    exact (Buried.quiet (quiet_respond hm)).trans (.of_same le_rfl rfl rfl fun _ h => h)
  · obtain ⟨m, hm, hpending⟩ := Option.bind_eq_some_iff.mp h
    exact ((Buried.setRequest _ _).trans (.quiet (quiet_respond hm))).trans
      (buried_processPendingSaveRequests hpending)
  · exact (Buried.setRequest _ _).trans (.quiet (quiet_respond h))

/-- A unit that is backed up goes. -/
theorem Buried.removeAndErase {s : ℕ}
    (h : (k.reduceRouterSaveInputSize s).removeFromBackupUnits rid id = some m) :
    Buried k (m.eraseUnit uid) := by
  have hquiet := quiet_removeFromBackupUnits h
  refine .erase uid hquiet.counter ?_ hquiet.posted fun _ => (Buried.queued_quiet hquiet).mp
  rw [Kernel.eraseUnit, hquiet.units]
  rfl

/-- The first copy of a unit may start the master object. -/
theorem buried_firstBackup (h : k.handleFirstBackupOfSaveUnit codec cfg u uid = some x)
    (hlook : k.saveUnits.lookup uid = some u) (hunits : k.UnitsFresh) : Buried k x.kernel := by
  obtain ⟨y, hm, hx⟩ := Option.bind_eq_some_iff.mp h
  obtain ⟨hb, hlook'⟩ : Buried k y.kernel ∧ y.kernel.saveUnits.lookup uid ≠ none := by
    rcases htype : u.type with _ | _
    · simp only [htype] at hm
      have hquiet := quiet_processSaveConfirmForMasterObject hm
      exact ⟨.quiet hquiet, by rw [hquiet.units, hlook]; exact Option.some_ne_none u⟩
    · simp only [htype] at hm
      obtain ⟨r, -, hm⟩ := Option.bind_eq_some_iff.mp hm
      dsimp only at hm
      split_ifs at hm
      · refine ⟨(Buried.setRequest _ _).trans (buried_startMasterObjectSave hm), ?_⟩
        rw [lookup_startMasterObjectSave (by exact hunits uid u hlook) hm]
        exact fun hnone => Option.some_ne_none u (hlook.symm.trans hnone)
      · obtain rfl := Option.some.inj hm
        exact ⟨.setRequest _ _, fun hnone => Option.some_ne_none u (hlook.symm.trans hnone)⟩
  refine hb.trans ?_
  rcases y with m | m
  swap
  · obtain rfl := Option.some.inj hx
    exact .refl m
  obtain ⟨k', hk, rfl⟩ := Option.map_eq_some_iff.mp hx
  dsimp only at hk
  split_ifs at hk
  · obtain ⟨r, -, hk⟩ := Option.bind_eq_some_iff.mp hk
    split_ifs at hk
    · obtain rfl := Option.some.inj hk
      exact .erase uid le_rfl rfl rfl fun _ h => h
    · obtain rfl := Option.some.inj hk
      exact .erase uid le_rfl rfl rfl fun _ h => h
    · obtain ⟨q, hq, rfl⟩ := Option.map_eq_some_iff.mp hk
      exact .removeAndErase hq
  · obtain ⟨r, -, hk⟩ := Option.bind_eq_some_iff.mp hk
    split_ifs at hk
    all_goals obtain rfl := Option.some.inj hk
    · have hset : Buried m (m.reduceStorageInputSize.setUnit uid
          { u with winnersCount := u.winnersCount + 1 }) :=
        Buried.reduceStorage.trans (.setUnit (.inr hlook'))
      refine hset.trans (.enqueue ?_)
      rw [Kernel.setUnit, AList.lookup_insert]
      exact Option.some_ne_none _
    · exact .refl m

/-- Every other copy takes the unit one step further. -/
theorem buried_handleSaveConfirm (hlook : k.saveUnits.lookup uid = some u) (hunits : k.UnitsFresh)
    (h : k.handleSaveConfirmForLocalSaveUnit codec cfg u uid = some x) : Buried k x.kernel := by
  rw [handleSaveConfirmForLocalSaveUnit] at h
  obtain ⟨y, hm, h⟩ := Option.bind_eq_some_iff.mp h
  refine Ending.of_andThen (P := fun m => Buried k m) h ?_ fun m m' hb hpending =>
    hb.trans (buried_processPendingSaveRequests hpending)
  have hlive : k.saveUnits.lookup uid ≠ none := fun hnone =>
    Option.some_ne_none u (hlook.symm.trans hnone)
  have hset : Buried k ((k.setUnit uid { u with bkpCount := u.bkpCount + 1 }).write
      (.copied u.mainRequest u.type u.uuid)) := (Buried.setUnit (.inr hlive)).trans (.write _)
  have honly : Only u.mainRequest k (k.setUnit uid { u with bkpCount := u.bkpCount + 1 }) :=
    .setUnit (.refl hunits) hlook rfl rfl
  have hfresh : (k.setUnit uid { u with bkpCount := u.bkpCount + 1 }).UnitsFresh :=
    honly.unitsFresh
  dsimp only at hm
  split_ifs at hm
  · exact hset.trans (buried_firstBackup hm (AList.lookup_insert _) hfresh)
  · obtain ⟨m, hremove, rfl⟩ := Option.map_eq_some_iff.mp hm
    obtain ⟨q, hq, rfl⟩ := Option.map_eq_some_iff.mp hremove
    exact hset.trans (.removeAndErase hq)
  · obtain rfl := Option.some.inj hm
    exact hset

/-- A save that fails takes all its units with it. -/
theorem buried_eraseUnits {ids : List ID32} (h : eraseUnits ids k = some k') : Buried k k' := by
  induction ids generalizing k with
  | nil =>
    obtain rfl := Option.some.inj h
    exact .refl k
  | cons i ids ih =>
    obtain ⟨u, -, h⟩ := Option.bind_eq_some_iff.mp h
    refine Buried.trans ?_ (ih h)
    split_ifs
    · exact .erase i le_rfl rfl rfl fun _ h => h
    · exact .erase i le_rfl rfl rfl fun _ h => h

/-- And the answer to the IMS does not bring them back. -/
theorem buried_handleFailedSaveUnit {err : String}
    (h : k.handleFailedSaveUnit cfg u uid err = some k') : Buried k k' := by
  rw [handleFailedSaveUnit] at h
  obtain ⟨m, hm, hpending⟩ := Option.bind_eq_some_iff.mp h
  refine Buried.trans ?_ (buried_processPendingSaveRequests hpending)
  split_ifs at hm
  · obtain ⟨r, -, hm⟩ := Option.bind_eq_some_iff.mp hm
    obtain ⟨q, hq, hm⟩ := Option.bind_eq_some_iff.mp hm
    refine ((Buried.write _).trans (buried_eraseUnits hq)).trans (.quiet ?_)
    have hdelete : Quiet q (deleteSavedUnits u.mainRequest r.savedUnits q) := quiet_deleteSavedUnits
    refine hdelete.trans ?_
    dsimp only at hm
    split at hm <;> exact quiet_respond hm
  · obtain ⟨q, hq, rfl⟩ := Option.map_eq_some_iff.mp hm
    have hquiet := quiet_removeFromBackupUnits hq
    exact .erase uid hquiet.counter (congrArg (AList.erase uid) hquiet.units) hquiet.posted
      fun _ => (Buried.queued_quiet hquiet).mp
  · obtain ⟨q, hq, rfl⟩ := Option.map_eq_some_iff.mp hm
    have hquiet := quiet_removeFromBackupUnits hq
    exact .erase uid hquiet.counter (congrArg (AList.erase uid) hquiet.units) hquiet.posted
      fun _ => (Buried.queued_quiet hquiet).mp

/-- The content of a unit that is there is handed to the router. -/
theorem buried_sendUnitContent {receiver : Receiver} {n : ℕ}
    (hlook : k.saveUnits.lookup uid = some u) :
    Buried k (k.sendUnitContent uid u receiver n) := by
  refine Buried.trans ?_ (.write _)
  exact .setUnit (.inr fun hnone => Option.some_ne_none u (hlook.symm.trans hnone))

/-- A canceled unit is gone, with its save if it had no copy. -/
theorem buried_canceled {err : String} (hlook : k.saveUnits.lookup uid = some u)
    (h : k.handleCanceledSaveUnit cfg u uid err = some k') : Buried k k' := by
  have hcount : Buried k (k.setUnit uid { u with failCount := u.failCount + 1 }) :=
    .setUnit (.inr fun hnone => Option.some_ne_none u (hlook.symm.trans hnone))
  rw [handleCanceledSaveUnit] at h
  dsimp only at h
  split_ifs at h
  · exact hcount.trans (buried_handleFailedSaveUnit h)
  · obtain rfl := Option.some.inj h
    exact hcount.trans (.write _)

/-- An encrypted piece is handed on, to the storage or to the queue of the router. -/
theorem buried_pieceEncrypted {key : AesKey}
    (h : k.handlePieceEncrypted codec cfg uid key = some k') :
    Buried k k' := by
  rw [handlePieceEncrypted] at h
  split at h
  · rcases hlook : k.saveUnits.lookup uid with _ | u
    · have hnone : (k.answered uid).saveUnits.lookup uid = none := hlook
      simp only [handleSaveAfterPieceEncrypt, hnone] at h
      obtain rfl := Option.some.inj h
      exact .answered uid
    · obtain ⟨r, r', log, -, -, rfl⟩ := handleSaveAfterPieceEncrypt_eq_some hlook h
      exact .handOver _ _ hlook le_rfl rfl rfl fun _ h => h
  · exact absurd h.symm (Option.some_ne_none k')

/-- **Step lemma.** What is gone stays gone, whatever happens. -/
theorem buried_step {e : Event} (hk : Sound False k) (h : step codec cfg k e = some k') :
    Buried k k' := by
  have hanswered : ∀ id, Buried k (k.answered id) := fun id => .answered id
  cases e with
  -- an id is buried once its unit is gone: the new ones come after it
  | imsSave i args uuid g =>
    have hopen : Buried k (k.openRequest i) := .of_same (Nat.le_succ _) rfl rfl fun _ h => h
    rw [step, handleImsSaveRequest] at h
    obtain ⟨x, hx, rfl⟩ := Option.map_eq_some_iff.mp h
    exact hopen.trans (buried_processImsSaveRequest hx)
  | imsUpdate i args uuid =>
    obtain rfl := Option.some.inj h
    exact .of_same (Nat.le_succ _) rfl rfl fun _ h => h
  | oldMaster rid old key inStorage g =>
    simp only [step, Option.bind_eq_some_iff, pocoAssert_eq_some] at h
    obtain ⟨r, -, -, h⟩ := h
    rcases handleUnencryptedMasterObject_cases h with ⟨v, -, h⟩ | ⟨v, err, h⟩
    · exact (Buried.write _).trans (buried_processImsSaveRequest h)
    · exact ((Buried.write _).trans (.setRequest _ _)).trans (buried_failUpdate h)
  | oldMasterFailed rid failure =>
    simp only [step, Option.bind_eq_some_iff, pocoAssert_eq_some] at h
    obtain ⟨r, -, -, h⟩ := h
    exact buried_failUpdate h
  | getAesKey rid key =>
    simp only [step, Option.bind_eq_some_iff, pocoAssert_eq_some] at h
    obtain ⟨r, -, -, h⟩ := h
    obtain ⟨x, hx, rfl⟩ := Option.map_eq_some_iff.mp h
    exact buried_startSave hx
  | masterEncrypted rid key =>
    obtain ⟨r, -, h⟩ := Option.bind_eq_some_iff.mp h
    rw [handleMasterEncrypted] at h
    split at h
    · exact (Buried.setRequest _ _).trans (buried_saveMasterObject h)
    · exact absurd h.symm (Option.some_ne_none k')
  | pieceEncrypted uid key => exact buried_pieceEncrypted h
  -- an answer for a unit that is gone finds nothing to do
  | storageSaveConfirm id =>
    obtain ⟨-, h⟩ := pocoAssert_eq_some.mp h
    rcases forUnit_cases h with ⟨-, rfl⟩ | ⟨u, hu, h⟩
    · exact hanswered id
    · obtain ⟨x, hx, rfl⟩ := Option.map_eq_some_iff.mp h
      exact (hanswered id).trans (buried_handleSaveConfirm hu hk.unitsFresh hx)
  | storageNoSpace id =>
    obtain ⟨-, h⟩ := pocoAssert_eq_some.mp h
    rcases forUnit_cases h with ⟨-, rfl⟩ | ⟨u, hu, h⟩
    · exact hanswered id
    · obtain ⟨-, h⟩ := pocoAssert_eq_some.mp h
      -- a unit that finds no space waits for the router, and is still there
      obtain ⟨r, -, h⟩ := Option.bind_eq_some_iff.mp h
      dsimp only at h
      refine Buried.trans ?_ (buried_processPendingSaveRequests h)
      have hlocal := (Buried.setRequest (k := k.answered id) u.mainRequest
        { r with isLocal := false }).trans .reduceStorage
      refine ((hanswered id).trans hlocal).trans (.enqueue fun hnone => ?_)
      exact Option.some_ne_none u (hu.symm.trans hnone)
  | storageFailed id err =>
    obtain ⟨-, h⟩ := pocoAssert_eq_some.mp h
    rcases forUnit_cases h with ⟨-, rfl⟩ | ⟨u, hu, h⟩
    · exact hanswered id
    · exact (hanswered id).trans (buried_canceled hu h)
  | routerSaveConfirm id =>
    obtain ⟨-, h⟩ := pocoAssert_eq_some.mp h
    rcases forUnit_cases h with ⟨-, rfl⟩ | ⟨u, hu, h⟩
    · exact .refl k
    · obtain ⟨x, hx, rfl⟩ := Option.map_eq_some_iff.mp h
      exact buried_handleSaveConfirm hu hk.unitsFresh hx
  | routerCancel id =>
    obtain ⟨-, h⟩ := pocoAssert_eq_some.mp h
    rcases forUnit_cases h with ⟨-, rfl⟩ | ⟨u, hu, h⟩
    · exact .refl k
    · exact buried_canceled hu h
  | routerSaveOffer id n =>
    obtain ⟨-, h⟩ := pocoAssert_eq_some.mp h
    rcases forUnit_cases h with ⟨-, rfl⟩ | ⟨u, hu, h⟩
    · exact .refl k
    · obtain rfl := Option.some.inj h
      exact buried_sendUnitContent hu
  | routerAuth id n =>
    obtain ⟨-, h⟩ := pocoAssert_eq_some.mp h
    rcases forUnit_cases h with ⟨-, rfl⟩ | ⟨u, hu, h⟩
    · exact .refl k
    · obtain rfl := Option.some.inj h
      exact buried_sendUnitContent hu
  | fileChanged rid source =>
    simp only [step, Option.bind_eq_some_iff, pocoAssert_eq_some] at h
    obtain ⟨r, -, -, h⟩ := h
    obtain rfl := Option.some.inj h
    exact .setRequest _ _

end Kernel

end Metax
