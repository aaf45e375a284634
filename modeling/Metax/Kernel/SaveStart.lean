import Metax.Kernel.Moves

/-!
# The invariant at the start of a save

The save path starts with an object cut into pieces, a unit for each of them, and the master
object when there are none. All of it works for one request; the functions below keep the
invariant of that request and leave the others alone.

A file may be gone when it is looked at. Then there is an exception before anything is cut or queued
(`processImsSaveRequest_thrown`, `startMasterObjectSave_thrown`), and there is none any more once
the size of the object is known (`startSave_ne_thrown`).
-/

namespace Metax

open Ledger (Table)

namespace Kernel

/-- The invariant of the save path. -/
structure Sound (fresh : Prop) (k : Kernel) : Prop where
  unitsFresh : k.UnitsFresh
  soundFor : ∀ rid, SoundFor fresh ∅ k rid

variable {codec : Codec} {cfg : KernelCfg} {fresh : Prop} {todo todo' : Set UUID}
  {k₀ k k' m : Kernel} {x : Ending} {rid uid : ID32} {r r' : Request} {u : SaveUnit}

/-- A step for one request that keeps its invariant keeps the whole invariant. -/
theorem Sound.only (h : Sound fresh k) (honly : Only rid k k') (hself : SoundFor fresh ∅ k' rid) :
    Sound fresh k' := by
  refine ⟨honly.unitsFresh, fun rid' => ?_⟩
  by_cases hrid : rid' = rid
  · exact hrid ▸ hself
  · exact (honly.frame rid' hrid).soundFor (h.soundFor rid')

/-- A neutral step keeps the invariant, of all requests and of one. -/
theorem Sound.neutral (h : Sound fresh k) (hn : Neutral k k') : Sound fresh k' :=
  ⟨hn.unitsFresh h.unitsFresh, fun rid => (hn.frame rid).soundFor (h.soundFor rid)⟩

theorem SoundFor.neutral (h : SoundFor fresh todo k rid) (hn : Neutral k k') :
    SoundFor fresh todo k' rid := (hn.frame rid).soundFor h

/-- More pieces may be without a unit. -/
theorem RequestSound.mono (h : RequestSound fresh todo k rid r)
    (hsub : ∀ p ∈ r.masterJson, p ∈ todo → p ∈ todo') : RequestSound fresh todo' k rid r :=
  ⟨h.id, h.listed, h.owned, h.waits, h.early, h.fetching, h.encryption,
    fun hwait p hp htodo => h.pieces hwait p hp fun hin => htodo (hsub p hp hin), h.unit,
    h.saved, h.old, h.apart⟩

theorem SoundFor.mono (h : SoundFor fresh todo k rid) (hsub : todo ⊆ todo') :
    SoundFor fresh todo' k rid :=
  ⟨h.toProgress, fun r hr => (h.request r hr).mono fun _ _ hp => hsub hp⟩

/-! ### Cutting the object -/

/-- The uuids of the pieces are those the generator returned. -/
theorem mem_generatePiecesLoop {g : ℕ → UUID} {i b s : ℕ} {pj : Pieces} {p : UUID}
    (h : p ∈ generatePiecesLoop g i b s pj) : p ∈ pj ∨ ∃ j, p = g j := by
  fun_induction generatePiecesLoop g i b s pj with
  | case1 i b s pj _ ih =>
    rcases ih h with hin | hj
    · rw [AList.mem_insert] at hin
      exact hin.elim (fun he => .inr ⟨i, he⟩) .inl
    · exact .inr hj
  | case2 i b s pj =>
    rw [AList.mem_insert] at h
    exact h.elim (fun he => .inr ⟨i, he⟩) .inl
  | case3 => exact .inl h

/-- The pieces have the names of the generator. -/
theorem mem_generatePiecesJson {g : ℕ → UUID} {s : ℕ} {p : UUID}
    (h : p ∈ generatePiecesJson s g) : ∃ j, p = g j := by
  rw [generatePiecesJson] at h
  split_ifs at h
  · exact absurd h (AList.notMem_empty p)
  · exact (mem_generatePiecesLoop h).resolve_left (AList.notMem_empty p)

/-- The loop over the pieces comes to each of them. -/
theorem Pieces.mem_toList_iff {pieces : Pieces} {p : UUID} :
    p ∈ pieces.toList.map Prod.fst ↔ p ∈ pieces := by
  rw [Pieces.toList, List.mem_map, AList.mem_keys, AList.keys, List.keys, List.mem_map]
  constructor
  · rintro ⟨q, hq, rfl⟩
    rw [List.mem_insertionSort, List.mem_map] at hq
    obtain ⟨e, he, rfl⟩ := hq
    exact ⟨e, he, rfl⟩
  · rintro ⟨e, he, rfl⟩
    exact ⟨(e.1, e.2), (List.mem_insertionSort _).mpr (List.mem_map_of_mem he), rfl⟩

/-! ### The master object -/

/-- **The master object gets its unit**, when no other unit is without a copy. -/
theorem sound_saveMasterObject {pkg : Bytes} (honly : Only rid k₀ k)
    (hs : SoundFor fresh ∅ k rid) (hr : k.requests.lookup rid = some r)
    (hwait : r.waitsFor = .nothing) (hdec : ¬ Decided k.log rid)
    (hstart : k.Startable rid r r.uuid .master)
    (h : saveMasterObject cfg k rid pkg = some k') :
    Only rid k₀ k' ∧ SoundFor fresh ∅ k' rid := by
  have hprepared : SoundFor fresh ∅ (k.prepareUnitForSave rid r 0 (pkgSize pkg) .master r.uuid pkg
      (!r.isLocal)) rid :=
    (hs.prepareUnit honly.unitsFresh hr hwait hdec hstart).mono fun _ hp => hp.1
  have honly' : Only rid k₀ (k.prepareUnitForSave rid r 0 (pkgSize pkg) .master r.uuid pkg
    (!r.isLocal)) := honly.prepareUnit
  rw [saveMasterObject, hr, Option.bind_some] at h
  dsimp only at h
  have hn : Neutral (k.prepareUnitForSave rid r 0 (pkgSize pkg) .master r.uuid pkg (!r.isLocal))
      k' := by
    split_ifs at h
    · obtain rfl := Option.some.inj h
      exact (neutral_postStorageSaveRequest rid k.requestCounter pkg r.uuid).congr rfl rfl rfl rfl
        rfl
    · obtain rfl := Option.some.inj h
      exact (neutral_backupData rid k.requestCounter r.uuid r.cmd cfg.dataCopyCount pkg
        r.dataVersion).congr rfl rfl rfl rfl rfl
  exact ⟨honly'.neutral hn, hprepared.neutral hn⟩

/-- The master object is built when every piece has a copy and nothing is decided, unless the
file is gone. -/
theorem sound_startMasterObjectSave (honly : Only rid k₀ k) (hs : SoundFor fresh ∅ k rid)
    (hr : k.requests.lookup rid = some r) (hwait : r.waitsFor = .nothing)
    (hdec : ¬ Decided k.log rid) (hbuilt : ¬ Built k.log rid)
    (hsettled : Settled k.saveUnits rid)
    (hcopied : ∀ p ∈ r.masterJson, .copied rid .piece p ∈ k.log)
    (h : startMasterObjectSave codec cfg k rid = some x) :
    Only rid k₀ x.kernel ∧ SoundFor fresh ∅ x.kernel rid := by
  have hreq := hs.request r hr
  have hjust : Justified fresh (.built rid r (masterObject codec r)) k.log := by
    refine ⟨hcopied, hbuilt, fun hfresh old hold p hp => ?_⟩
    exact hreq.apart hfresh old ((hreq.old old).mp hold) p hp
  have hprogress : Progress fresh (k.write (.built rid r (masterObject codec r))) rid :=
    hs.toProgress.write hreq.id (fun he => Bool.noConfusion he) (fun _ _ _ => hsettled)
      (fun he => Bool.noConfusion he) hjust
  have hreq' : RequestSound fresh ∅ (k.write (.built rid r (masterObject codec r))) rid r := by
    refine hreq.write (fun he => ?_) (fun m he => Entry.noConfusion he)
      (fun _ he => Bool.noConfusion he) fun _ _ _ he => ?_
    · exact Wait.noConfusion (hwait.symm.trans he)
    · exact Wait.noConfusion (hwait.symm.trans he)
  have hdec' : ¬ Decided (k.write (.built rid r (masterObject codec r))).log rid := by
    intro hd
    exact (decided_cons.mp hd).elim (fun he => Bool.noConfusion he.2) hdec
  have hin : ∃ r' m, .built rid r' m ∈ (k.write (.built rid r (masterObject codec r))).log ∧
      r'.uuid = r.uuid := ⟨r, _, List.mem_cons_self, rfl⟩
  rw [startMasterObjectSave, hr, Option.bind_some] at h
  dsimp only at h
  split_ifs at h
  · obtain rfl := Option.some.inj h
    exact ⟨honly, hs⟩
  · obtain rfl := Option.some.inj h
    refine ⟨(honly.write rfl).setRequest _, hprogress.setRequest (hreq'.setWait ?_ fun _ => ?_)⟩
    · exact fun he => Wait.noConfusion (hwait.symm.trans he)
    · exact ⟨hsettled, hdec', _, rfl, hin⟩
  · obtain ⟨k', hk', rfl⟩ := Option.map_eq_some_iff.mp h
    refine sound_saveMasterObject (honly.write rfl) ⟨hprogress, fun s hs' => ?_⟩ hr hwait hdec'
      ⟨hsettled, hin⟩ hk'
    obtain rfl : r = s := Option.some.inj (hr.symm.trans hs')
    exact hreq'

/-- An exception for a file that is gone comes before the master object is built. -/
theorem startMasterObjectSave_thrown
    (h : startMasterObjectSave codec cfg k rid = some (.thrown k')) :
    k' = k ∧ ∃ r, k.requests.lookup rid = some r ∧ getDataSizeFromRequestObject r = none := by
  obtain ⟨r, hr, h⟩ := Option.bind_eq_some_iff.mp h
  dsimp only at h
  split_ifs at h with hsize
  · injection h with h
    injection h with h
    exact ⟨h.symm, r, hr, hsize⟩
  · injection h with h
    exact Ending.noConfusion h
  · obtain ⟨m, -, h⟩ := Option.map_eq_some_iff.mp h
    exact Ending.noConfusion h

/-- The units of the pieces are prepared, one by one. -/
theorem sound_preparePiecesForSave {ps : List (UUID × Piece)} (honly : Only rid k₀ k)
    (hs : SoundFor fresh { p | p ∈ ps.map Prod.fst } k rid)
    (hreq : ∀ r, k.requests.lookup rid = some r → r.waitsFor = .nothing ∧
      ∀ q ∈ ps, q.1 ∈ r.masterJson)
    (hdec : ¬ Decided k.log rid) (hbuilt : ¬ Built k.log rid)
    (h : preparePiecesForSave rid ps k = some k') :
    Only rid k₀ k' ∧ SoundFor fresh ∅ k' rid := by
  induction ps generalizing k with
  | nil =>
    obtain rfl := Option.some.inj h
    exact ⟨honly, hs.mono fun p hp => absurd hp List.not_mem_nil⟩
  | cons q ps ih =>
    obtain ⟨uuid, piece⟩ := q
    obtain ⟨r, hr, hrest⟩ := Option.bind_eq_some_iff.mp h
    obtain ⟨hwait, hmem⟩ := hreq r hr
    have hunit : SoundFor fresh _
        (k.prepareUnitForSave rid r piece.start piece.size .piece uuid [] false) rid :=
      hs.prepareUnit honly.unitsFresh hr hwait hdec ⟨hbuilt, hmem _ List.mem_cons_self⟩
    refine ih honly.prepareUnit (hunit.mono ?_) (fun s hs' => ?_) hdec hbuilt hrest
    · rintro p ⟨hp, hne⟩
      exact (List.mem_cons.mp hp).resolve_left (hne rfl)
    · dsimp only [prepareUnitForSave, Kernel.setRequest, Kernel.setUnit] at hs'
      rw [AList.lookup_insert] at hs'
      obtain rfl := Option.some.inj hs'
      exact ⟨hwait, fun q hq => hmem q (List.mem_cons_of_mem _ hq)⟩

/-! ### The start of a save -/

/-- Nothing has happened yet that the save of the request would have to wait for. -/
structure Idle (k : Kernel) (rid : ID32) : Prop where
  settled : Settled k.saveUnits rid
  decided : ¬ Decided k.log rid
  built : ¬ Built k.log rid

/-- **A save starts**, with the units of its pieces or with its master object. -/
theorem sound_startSave (honly : Only rid k₀ k) (hs : Progress fresh k rid)
    (hreq : RequestSound fresh Set.univ k rid r) (hwait : r.waitsFor = .nothing)
    (hidle : k.Idle rid) (h : k.startSave codec cfg rid r = some x) :
    Only rid k₀ x.kernel ∧ SoundFor fresh ∅ x.kernel rid := by
  rw [startSave] at h
  split_ifs at h with hlen
  · have hnone : ∀ p, p ∉ r.masterJson := by
      intro p hp
      rw [AList.mem_keys, AList.keys, List.length_eq_zero_iff.mp hlen] at hp
      exact List.not_mem_nil hp
    have hset : SoundFor fresh ∅ (k.setRequest rid r) rid :=
      hs.setRequest (hreq.mono fun p hp => absurd hp (hnone p))
    exact sound_startMasterObjectSave (honly.setRequest r) hset (AList.lookup_insert _) hwait
      hidle.decided hidle.built hidle.settled (fun p hp => absurd hp (hnone p)) h
  · obtain ⟨k', hk', rfl⟩ := Option.map_eq_some_iff.mp h
    obtain ⟨m, hm, hpending⟩ := Option.bind_eq_some_iff.mp hk'
    have hset : SoundFor fresh { p | p ∈ r.masterJson.toList.map Prod.fst } (k.setRequest rid r)
        rid := hs.setRequest (hreq.mono fun p hp _ => Pieces.mem_toList_iff.mpr hp)
    obtain ⟨honly', hs'⟩ := sound_preparePiecesForSave (honly.setRequest r) hset
      (fun s hs' => by
        rw [Kernel.setRequest, AList.lookup_insert] at hs'
        obtain rfl := Option.some.inj hs'
        exact ⟨hwait, fun q hq => Pieces.mem_toList_iff.mp (List.mem_map_of_mem hq)⟩)
      hidle.decided hidle.built hm
    have hn := neutral_processPendingSaveRequests hpending
    exact ⟨honly'.neutral hn, hs'.neutral hn⟩

/-- Where a save can be started the file is there. -/
theorem startSave_ne_thrown (hsize : getDataSizeFromRequestObject r ≠ none) :
    k.startSave codec cfg rid r ≠ some (.thrown k') := by
  intro h
  rw [startSave] at h
  split_ifs at h
  · obtain ⟨-, s, hs, hnone⟩ := startMasterObjectSave_thrown h
    rw [Kernel.setRequest, AList.lookup_insert] at hs
    obtain rfl := Option.some.inj hs
    exact hsize hnone
  · obtain ⟨m, -, h⟩ := Option.map_eq_some_iff.mp h
    exact Ending.noConfusion h

/-- An exception comes before anything is cut or queued. -/
theorem processImsSaveRequest_thrown {g : ℕ → UUID}
    (h : k.processImsSaveRequest codec cfg rid r g = some (.thrown k')) :
    k' = k.setRequest rid r := by
  rw [processImsSaveRequest] at h
  dsimp only at h
  split_ifs at h with hsize
  · injection h with h
    injection h with h
    exact h.symm
  · injection h with h
    exact Ending.noConfusion h
  · rw [handleSaveOfUnencryptedData] at h
    dsimp only at h
    split_ifs at h <;> exact absurd h (startSave_ne_thrown hsize)

/-- The same for a save whose keys are not needed. -/
theorem sound_handleSaveOfUnencryptedData (honly : Only rid k₀ k) (hs : Progress fresh k rid)
    (hreq : RequestSound fresh Set.univ k rid r) (hwait : r.waitsFor = .nothing)
    (hidle : k.Idle rid) (h : k.handleSaveOfUnencryptedData codec cfg rid r = some x) :
    Only rid k₀ x.kernel ∧ SoundFor fresh ∅ x.kernel rid := by
  rw [handleSaveOfUnencryptedData] at h
  split_ifs at h
  · have hlike : r.Like { r with aesKey := none } := ⟨rfl, rfl, rfl, rfl, fun _ => rfl, rfl⟩
    exact sound_startSave honly hs ((Frame.refl rid k).requestSound hlike hreq) hwait hidle h
  · exact sound_startSave honly hs hreq hwait hidle h

/-- A request that waits for nothing and lists no piece yet is cut and started. -/
theorem sound_processImsSaveRequest {g : ℕ → UUID} (honly : Only rid k₀ k)
    (hs : Progress fresh k rid) (hreq : RequestSound fresh Set.univ k rid r)
    (hwait : r.waitsFor = .nothing) (hnil : r.masterJson = ∅) (hidle : k.Idle rid)
    (hnew : fresh → ∀ m, r.oldMasterJson = some m → ∀ j, g j ∉ m.pieces)
    (h : k.processImsSaveRequest codec cfg rid r g = some x) :
    Only rid k₀ x.kernel ∧ SoundFor fresh ∅ x.kernel rid := by
  have hsaved : ∀ p, p ∉ r.savedUnits := by
    intro p hp
    have hin := hreq.saved p hp
    rw [hnil] at hin
    exact AList.notMem_empty p hin
  have hapart : fresh → ∀ m, r.oldMasterJson = some m →
      ∀ p ∈ generatePiecesJson r.source.data.length g, p ∉ m.pieces := by
    intro hfresh m hm p hp
    obtain ⟨j, rfl⟩ := mem_generatePiecesJson hp
    exact hnew hfresh m hm j
  have hcut : ∀ w bu, (w = .nothing ∨ w = .genAesKey) → ∀ todo,
      (w = .nothing → todo = Set.univ) → RequestSound fresh todo k rid
        { r with
          waitsFor := w
          masterJson := generatePiecesJson r.source.data.length g
          backupUnits := bu } := by
    intro w bu hw todo htodo
    refine ⟨hreq.id, hreq.listed, hreq.owned, fun _ => ⟨hidle.settled, hidle.decided⟩,
      fun _ => hidle.built, fun he => ?_, fun pkg he => ?_, fun hne p _ hp => ?_,
      fun uid u hu => absurd hu (hidle.settled uid u), fun p hp => absurd hp (hsaved p),
      hreq.old, hapart⟩
    · rcases hw with rfl | rfl <;> exact Wait.noConfusion he
    · rcases hw with rfl | rfl <;> exact Wait.noConfusion he
    · rw [htodo (hw.resolve_right hne)] at hp
      exact absurd (Set.mem_univ p) hp
  rw [processImsSaveRequest] at h
  dsimp only at h
  split_ifs at h
  · obtain rfl := Option.some.inj h
    refine ⟨honly.setRequest r, hs.setRequest (hreq.mono fun p hp => ?_)⟩
    rw [hnil] at hp
    exact absurd hp (AList.notMem_empty p)
  · obtain rfl := Option.some.inj h
    refine ⟨honly.setRequest _, hs.setRequest (hcut .genAesKey _ (.inr rfl) ∅ fun he => ?_)⟩
    exact Wait.noConfusion he
  · have hset := hcut .nothing (r.backupUnits.insert rid) (.inl rfl) Set.univ fun _ => rfl
    rw [← hwait] at hset
    exact sound_handleSaveOfUnencryptedData honly hs hset hwait hidle h

end Kernel

end Metax
