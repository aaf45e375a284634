import Metax.Kernel.FlowAnswers

/-!
# The account as saves begin

A piece that was encrypted goes on to where it was headed for; a new request brings new units,
which are queued or, for an object that is not chunked, handed over at once.

New units have ids that nothing else has, so the account only grows by them (`Slots.fresh`).
-/

namespace Metax

open Ledger (Table)

namespace Kernel

variable {strict : Prop} {codec : Codec} {cfg : KernelCfg} {c n W : ℕ} {k k' m : Kernel}
  {x : Ending} {id i rid uid : ID32} {r : Request} {u v : SaveUnit} {ps : List (UUID × Piece)}
  {pkg enc : Bytes}
  {key : AesKey}

/-! ### Encrypted pieces -/

/-- The key manager's answer for a unit that is gone; it held no slot. -/
theorem Slots.answered_remote {p : Post} (h : Slots strict c k)
    (hp : k.posted.lookup i = some p) (hslot : p.slot = 0) (hlook : k.saveUnits.lookup i = none) :
    Slots strict c (k.answered i) := by
  refine h.change i le_rfl (h.posted i p hp) (.refl _)
    (fun id hid => AList.lookup_erase_ne hid) (fun _ _ => rfl) (fun _ _ hq => hq)
    (fun _ _ hq => hq) h.nodupSave h.nodupRouter hp (AList.lookup_erase _ _) hlook hlook
    (.idle (h.notQueued hp).1 (h.notQueued hp).2 (by simp)) ?_ rfl
  simp [hslot, Kernel.answered]

/-- `handle_save_after_piece_encrypt` hands the encrypted piece over. -/
theorem handleSaveAfterPieceEncrypt_eq_some (hlook : k.saveUnits.lookup uid = some u)
    (h : (k.answered uid).handleSaveAfterPieceEncrypt cfg uid enc key = some k') :
    ∃ r r' log, k.requests.lookup u.mainRequest = some r ∧ r'.isLocal = r.isLocal ∧
      k' = { ((k.setUnit uid { u with content := enc }).setRequest u.mainRequest r').post uid
        (if r.isLocal then .saveData else .tender) with log := log } := by
  have hsame : (k.answered uid).saveUnits.lookup uid = some u := hlook
  simp only [handleSaveAfterPieceEncrypt, hsame, Option.bind_eq_some_iff, pocoAssert_eq_some] at h
  obtain ⟨r, hr, -, p, -, h⟩ := h
  refine ⟨r, { r with masterJson := r.masterJson.insert u.uuid { p with aesKey := some key } }, ?_⟩
  split_ifs at h with hlocal
  · refine ⟨.handed u.mainRequest .storage u.uuid enc :: k.log, hr, rfl,
      (Option.some.inj h).symm.trans ?_⟩
    simp only [hlocal, if_true, postStorageSaveRequest, Kernel.post, Kernel.write,
      Kernel.setRequest, Kernel.setUnit, Kernel.answered, Ledger.insert_erase]
  · refine ⟨.handed u.mainRequest (.router u.cmd cfg.dataCopyCount dataVersionStart) u.uuid enc ::
      k.log, hr, rfl, (Option.some.inj h).symm.trans ?_⟩
    simp only [hlocal, backupData, Kernel.post, Kernel.write, Kernel.setRequest, Kernel.setUnit,
      Kernel.answered, Ledger.insert_erase]
    rfl

/-- The key manager has encrypted a piece; a piece that is to be saved locally finds its unit,
and its request is still saved locally. -/
theorem account_pieceEncrypted {toStorage : Bool} (hk : Account strict k)
    (hp : k.posted.lookup uid = some (.encryptPiece pkg toStorage))
    (hlocal : toStorage = true → ∃ u r, k.saveUnits.lookup uid = some u ∧
      k.requests.lookup u.mainRequest = some r ∧ r.isLocal = true)
    (h : (k.answered uid).handleSaveAfterPieceEncrypt cfg uid enc key = some k') :
    Account strict k' := by
  have hfits := hk.slots.fits uid
  have hq := hk.slots.notQueued hp
  rcases hlook : k.saveUnits.lookup uid with _ | u
  · -- the unit is gone, so the piece was on its way to the router
    have hremote : toStorage = false := by
      by_contra hne
      obtain ⟨u, -, hu, -⟩ := hlocal (Bool.eq_true_of_not_eq_false hne)
      simp [hlook] at hu
    subst hremote
    have hnone : (k.answered uid).saveUnits.lookup uid = none := hlook
    simp only [handleSaveAfterPieceEncrypt, hnone] at h
    obtain rfl := Option.some.inj h
    refine ⟨hk.slots.answered_remote hp rfl hlook, fun hs => (hk.flows hs).mono
      (List.Subset.refl _) (List.Subset.refl _) (fun id u hu => ⟨u, hu⟩) (fun id u hu => ⟨u, hu⟩)
      fun id hout => ?_⟩
    obtain ⟨⟨w, hw⟩, p, hp'⟩ := hout
    have hne : id ≠ uid := by
      rintro rfl
      simp [hlook] at hw
    exact ⟨⟨w, hw⟩, p, (AList.lookup_erase_ne hne).trans hp'⟩
  · obtain ⟨r, r', log, hr, hsame, rfl⟩ := handleSaveAfterPieceEncrypt_eq_some hlook h
    have hstarts : Starts k { ((k.setUnit uid { u with content := enc }).setRequest u.mainRequest
        r').post uid (if r.isLocal then .saveData else .tender) with log := log } :=
      .of_insert (v := { u with content := enc }) hlook rfl rfl rfl (List.Subset.refl _)
        (List.Subset.refl _) le_rfl
    refine ⟨?_, fun hs => (hk.flows hs).starts hstarts⟩
    have hset := (hk.slots.setUnit (v := { u with content := enc }) hlook rfl rfl rfl rfl
      rfl).quiet (quiet_setRequest (k := k.setUnit uid { u with content := enc }) hr hsame)
    rcases toStorage with _ | _
    · obtain ⟨-, hnonlocal⟩ := hfits.outside _ hp rfl u hlook
      have hoff : r.isLocal = false := hnonlocal Post.noConfusion r hr
      refine hset.repost (AList.lookup_insert _) hp rfl Post.noConfusion ?_ rfl rfl (.refl _) rfl
        rfl rfl ⟨rfl, rfl⟩
      simp [hoff, Post.slot]
    · obtain ⟨w, s, hw, hs, hon⟩ := hlocal rfl
      obtain rfl := Option.some.inj (hlook.symm.trans hw)
      obtain rfl := Option.some.inj (hr.symm.trans hs)
      obtain ⟨hzero, hback⟩ := hfits.inside _ hp rfl u hlook
      have hpost := (hset.answered hp rfl).postLocal (x := .saveData)
        (AList.lookup_insert _) (AList.lookup_erase _ _) hq rfl hzero hback
      refine hpost.congr le_rfl (.refl _) ?_ rfl rfl rfl rfl rfl
      simp [hon, Kernel.post, Kernel.answered, Kernel.setRequest, Kernel.setUnit,
        Ledger.insert_erase]

/-! ### New units -/

theorem Pieces.exists_of_mem_toList {p : Pieces} {x : UUID × Piece} (h : x ∈ p.toList) :
    ∃ e ∈ p.entries, e.2 = x.2 := by
  rw [Pieces.toList, List.mem_insertionSort] at h
  obtain ⟨e, he, rfl⟩ := List.mem_map.mp h
  exact ⟨e, he, rfl⟩

/-- The units of the pieces are queued. What `Q` says of the units in the queue of the router
before it says of them after, if it does of the new units. -/
theorem slots_preparePieces {Q : Option SaveUnit → Prop} (h : Slots strict c k)
    (hQ : ∀ x ∈ ps, ∀ u : SaveUnit, u.size = x.2.size → Q (some u))
    (hk : preparePiecesForSave rid ps k = some k') :
    Slots strict c k' ∧ k'.routerSaveInputSize = k.routerSaveInputSize ∧
      ((∀ id ∈ k.pendingRouterSaveReqs, Q (k.saveUnits.lookup id)) →
        ∀ id ∈ k'.pendingRouterSaveReqs, Q (k'.saveUnits.lookup id)) := by
  induction ps generalizing k with
  | nil =>
    obtain rfl := Option.some.inj hk
    exact ⟨h, rfl, fun hq => hq⟩
  | cons x ps ih =>
    obtain ⟨r, hr, hk⟩ := Option.bind_eq_some_iff.mp hk
    obtain ⟨hslots, hsize, hqueue⟩ :=
      ih (h.preparePiece hr) (fun y hy => hQ y (List.mem_cons_of_mem _ hy)) hk
    refine ⟨hslots, hsize, fun hq => hqueue fun id hid => ?_⟩
    dsimp only [prepareUnitForSave, Kernel.setUnit, Kernel.setRequest] at hid ⊢
    by_cases hnew : id = k.requestCounter
    · rw [hnew, AList.lookup_insert]
      exact hQ x List.mem_cons_self _ rfl
    · rw [AList.lookup_insert_ne hnew]
      refine hq id ?_
      split_ifs at hid
      · exact (List.mem_cons.mp hid).resolve_left hnew
      · exact hid

/-- The record of a request that has no units is written. -/
theorem Account.setRequest (hk : Account strict k) (r : Request)
    (hmain : ∀ id v, k.saveUnits.lookup id = some v → v.mainRequest ≠ rid) :
    Account strict (k.setRequest rid r) :=
  ⟨hk.slots.setRequest r hmain, fun hs =>
    (hk.flows hs).congr hk.slots (fun _ _ => rfl) (fun _ _ => rfl) rfl rfl⟩

/-- The end of a save request: its master object is handed over, or its pieces are queued. -/
theorem account_startSave (hk : Account strict (k.setRequest rid r))
    (hbound : Bounded strict cfg W n k)
    (hn : pkgSize (codec.stringify (masterObject codec r)) = n)
    (hpieces : ∀ x ∈ r.masterJson.entries, Admits strict cfg W x.2.size)
    (h : k.startSave codec cfg rid r = some x) : Account strict x.kernel := by
  have hset := hk.slots
  rw [startSave] at h
  split_ifs at h
  · obtain ⟨hslots, haside⟩ :=
      slots_startMasterObjectSave hset (AList.lookup_insert _) hn hbound.fit h
    exact ⟨hslots, fun hs => (hk.flows hs).aside hset haside⟩
  · obtain ⟨k', hk', rfl⟩ := Option.map_eq_some_iff.mp h
    obtain ⟨m, hm, hpending⟩ := Option.bind_eq_some_iff.mp hk'
    have hallowed : ∀ x ∈ r.masterJson.toList, Admits strict cfg W x.2.size := by
      intro x hx
      obtain ⟨e, he, hsame⟩ := Pieces.exists_of_mem_toList hx
      exact hsame ▸ hpieces e he
    obtain ⟨hslots, hsize, hroom⟩ := slots_preparePieces
      (Q := fun o => ∀ u, o = some u → Admits strict cfg W u.size) hset
      (fun x hx u hu w hw => Option.some.inj hw ▸ hu ▸ hallowed x hx) hm
    obtain ⟨-, -, hlive⟩ := slots_preparePieces (Q := fun o => ∃ u, o = some u) hset
      (fun x _ u _ => ⟨u, rfl⟩) hm
    have hready : Ready strict cfg W m := by
      refine ⟨hslots, ⟨hbound.max, ?_, hroom fun id _ u hu => hbound.units id u hu⟩, fun hs => ?_⟩
      · rw [hsize]
        exact (Nat.le_add_right _ n).trans hbound.size
      · exact woken_of_live (hlive (hk.flows hs).live)
    exact hready.account hpending

/-- `process_ims_save_request`. -/
theorem account_processImsSaveRequest {g : ℕ → UUID} (hk : Account strict k)
    (hbound : Bounded strict cfg W n k)
    (hmain : ∀ id v, k.saveUnits.lookup id = some v → v.mainRequest ≠ rid)
    (hn : pkgSize (codec.stringify (masterObject codec
      { r with masterJson := generatePiecesJson r.source.data.length g })) = n)
    (hpieces : ∀ x ∈ (generatePiecesJson r.source.data.length g).entries,
      Admits strict cfg W x.2.size)
    (h : k.processImsSaveRequest codec cfg rid r g = some x) : Account strict x.kernel := by
  rw [processImsSaveRequest] at h
  dsimp only at h
  split_ifs at h
  · obtain rfl := Option.some.inj h
    exact hk.setRequest _ hmain
  · obtain rfl := Option.some.inj h
    exact hk.setRequest _ hmain
  · rw [handleSaveOfUnencryptedData] at h
    dsimp only at h
    split_ifs at h
    · refine account_startSave (hk.setRequest _ hmain) hbound ?_ ?_ h
      · exact hn
      · exact hpieces
    · refine account_startSave (hk.setRequest _ hmain) hbound ?_ ?_ h
      · exact hn
      · exact hpieces

end Kernel

end Metax
