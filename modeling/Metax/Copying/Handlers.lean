import Metax.Copying.Effects

/-!
# The answers once the pieces are asked for

An answer to the request itself is about the new master object, any other is about a piece or about
the deletion of one. Each of them keeps the invariant.

Which of the two it is decides the id: the request and its pieces have different ones, and what is
posted for an id says what an answer to it may be.
-/

namespace Metax

namespace Copying

variable {intact : Prop} {random : ℕ → UUID} {dataCopyCount : UInt16} {now : ℕ} {s t : Copying}
  {rid id ims : ID32} {r q : Request} {m : MasterJson} {c : Content} {p : Post} {e : Event}

/-! ### What is known of an answer -/

theorem frame_received : Frame rid s (s.received e) := by
  cases e with
  | elsewhere | routerAuth | routerCopySucceeded | routerSaveOffer | routerSaveConfirm
  | routerDeleted => exact .refl rid s
  | _ => exact frame_answered _

theorem received_requests : (s.received e).requests = s.requests := by
  cases e with
  | _ => rfl

theorem received_log : (s.received e).log = s.log := by
  cases e with
  | _ => rfl

theorem received_imsReqIds : (s.received e).imsReqIds = s.imsReqIds := by
  cases e with
  | _ => rfl

/-- A handler that does nothing keeps everything. -/
theorem Under.withRequest {f : Request → Option Copying} (h : Under intact random rid ims s)
    (hf : ∀ r, s.requests.lookup id = some r → f r = some t → Under intact random rid ims t)
    (ht : s.withRequest id f = some t) : Under intact random rid ims t := by
  rw [Copying.withRequest] at ht
  cases hr : s.requests.lookup id with
  | none =>
    rw [hr, Option.elim_none] at ht
    rwa [← Option.some.inj ht]
  | some r =>
    rw [hr, Option.elim_some] at ht
    exact hf r hr ht

/-- Either the request waits for the new master object or a piece waits. -/
theorem Under.post_cases (h : Under intact random rid ims s) (hp : s.posted.lookup id = some p) :
    id = rid ∧ p.IsMain ∨ id ≠ rid ∧ p.IsPart := by
  by_cases hid : id = rid
  · rw [hid] at hp
    exact .inl ⟨hid, h.mainPost p hp⟩
  · exact .inr ⟨hid, h.partPost id p hid hp⟩

/-- When the new master object is on its way, nothing is counted any more. -/
theorem Under.ready (h : Under intact random rid ims s) (hq : s.requests.lookup rid = some q)
    (hp : s.posted.lookup rid = some .saveStorage ∨ s.posted.lookup rid = some .saveRouter)
    (hims : s.imsReqIds.lookup rid ≠ none) :
    q.units = ∅ ∧ ∃ c, q.data = some c ∧ q.masterJson = some c.master := by
  obtain hopen | hclosed := h.phase
  · obtain ⟨q₀, m, hcopies⟩ := hopen.under
    obtain rfl : q₀ = q := Option.some.inj (hcopies.request.symm.trans hq)
    obtain ⟨c, hc, rfl, -⟩ := hcopies.saving hp
    refine ⟨hcopies.units ?_, c, hc, hcopies.master⟩
    obtain hsave | hsave := hp
    · rw [hsave]
      exact Option.some_ne_none _
    · rw [hsave]
      exact Option.some_ne_none _
  · exact absurd hclosed.ims_eq hims

/-- **Everything was copied** when the new master object is confirmed. -/
theorem Under.complete (h : Under intact random rid ims s)
    (hp : s.posted.lookup rid = some .saveStorage ∨ s.posted.lookup rid = some .saveRouter)
    (hims : s.imsReqIds.lookup rid ≠ none) : Complete random (.masterCopied rid :: s.log) := by
  obtain hopen | hclosed := h.phase
  · obtain ⟨q, m, hcopies⟩ := hopen.under
    obtain ⟨hunits, -⟩ := h.ready hcopies.request hp hims
    obtain ⟨c, -, rfl, hsaved⟩ := hcopies.saving hp
    obtain ⟨old, k, n, hgot, hcopy, howed⟩ := hcopies.pieces
    have hsub : s.log ⊆ .masterCopied rid :: s.log := List.subset_cons_self _ _
    refine ⟨old, k, n, c, hsub hgot, hcopy, fun ps hps x hx => ?_, hsaved.mono hsub, rid,
      List.mem_cons_self⟩
    obtain ⟨i, u, hu, hasked, hdone⟩ := howed ps hps x hx
    obtain hdone | ⟨-, hmem, -⟩ := hdone
    · exact ⟨i, u, hu, hsub hasked, hsub hdone⟩
    · rw [hunits] at hmem
      exact absurd hmem (Finset.notMem_empty i)
  · exact absurd hclosed.ims_eq hims

/-! ### The new master object -/

theorem Under.mainFailed (h : Under intact random rid ims s) (hq : s.requests.lookup rid = some q)
    (ht : s.handleFailedRequest now rid q = some t) : Under intact random rid ims t := by
  have hmain := h.main q hq
  rw [handleFailedRequest, hmain.cmd] at ht
  dsimp only at ht
  rw [handleFailedCopyRequest, pocoAssert_eq_some, hmain.typ,
    if_neg fun heq => RequestType.noConfusion heq, if_neg hmain.st,
    handleFailedImsCopyRequest] at ht
  obtain ⟨-, ht⟩ := ht
  split_ifs at ht with hzero
  · exact (h.toBase.failed hq h.toReported ht).1
  · rw [← Option.some.inj ht]
    refine h.frame (frame_removeFromBackupUnits hq fun hims => ?_)
    obtain hopen | hclosed := h.phase
    · obtain ⟨q₀, m, hcopies⟩ := hopen.under
      obtain rfl : q₀ = q := Option.some.inj (hcopies.request.symm.trans hq)
      exact absurd hcopies.updated hzero
    · exact absurd hclosed.ims_eq hims

theorem Under.mainCanceled (h : Under intact random rid ims s) (hq : s.requests.lookup rid = some q)
    (ht : s.handleRouterCancel now rid q = some t) : Under intact random rid ims t := by
  rw [handleRouterCancel] at ht
  have hsame : Request.Same rid { q with failCount := q.failCount + 1 } q :=
    { Request.Same.refl rid q with }
  exact (h.frame (frame_setRequest hq hsame.toAkin fun _ => hsame)).mainFailed
    (AList.lookup_insert _) ht

/-- The new master object was encrypted. -/
theorem Under.mainEncrypted (h : Under intact random rid ims s)
    (hp : s.posted.lookup rid = some (.encrypt c)) {s₁ : Copying}
    (h₁ : Under intact random rid ims s₁) (hrequests : s₁.requests = s.requests)
    (hlog : s₁.log = s.log) (hims : s₁.imsReqIds = s.imsReqIds)
    (hq : s₁.requests.lookup rid = some q)
    (ht : s₁.handleCopyOfEncryptedMasterObject dataCopyCount rid q c = some t) :
    Under intact random rid ims t := by
  rw [handleCopyOfEncryptedMasterObject, pocoAssert_eq_some] at ht
  rw [← Option.some.inj ht.2]
  refine h₁.saveMasterObject hq (fun hintact => ?_) fun hne => ?_
  · rw [hlog]
    exact h.encrypting hintact c hp
  · rw [hims] at hne
    rw [hrequests] at hq
    obtain hopen | hclosed := h.phase
    · obtain ⟨q₀, m, hcopies⟩ := hopen.under
      obtain rfl : q₀ = q := Option.some.inj (hcopies.request.symm.trans hq)
      refine ⟨hcopies.units ?_, ?_⟩
      · rw [hp]
        exact Option.some_ne_none _
      · rw [hcopies.encrypting c hp]
        exact hcopies.master
    · exact absurd hclosed.ims_eq hne

/-- An answer about the new master object. -/
theorem Under.mainStep (h : Under intact random rid ims s) (hp : s.posted.lookup rid = some p)
    (hmain : p.IsMain) (htarget : e.target = some rid) (hans : e.answers p = true)
    (ht : (s.received e).handle random dataCopyCount now (some p) e = some t) :
    Under intact random rid ims t := by
  have h' : Under intact random rid ims (s.received e) := h.frame frame_received
  have hrequests : (s.received e).requests = s.requests := received_requests
  have hlog : (s.received e).log = s.log := received_log
  have hims : (s.received e).imsReqIds = s.imsReqIds := received_imsReqIds
  obtain ⟨s', hs'⟩ : ∃ x, x = s.received e := ⟨_, rfl⟩
  rw [← hs'] at h' hrequests hlog hims ht
  -- what a save of the master object rests on: no part is pending, and every piece is copied
  have hready : ∀ q, s'.requests.lookup rid = some q →
      s.posted.lookup rid = some .saveStorage ∨ s.posted.lookup rid = some .saveRouter →
      s'.imsReqIds.lookup rid ≠ none →
        q.units = ∅ ∧ ∃ c, q.data = some c ∧ q.masterJson = some c.master := by
    rw [hrequests, hims]
    exact fun q => h.ready
  have hcomplete :
      s.posted.lookup rid = some .saveStorage ∨ s.posted.lookup rid = some .saveRouter →
      s'.imsReqIds.lookup rid ≠ none → Complete random (.masterCopied rid :: s'.log) := by
    rw [hlog, hims]
    exact h.complete
  -- which answers are possible is decided by what is posted for the request itself
  cases p with
  | encrypt c =>
    cases e with
    | encrypted i =>
      obtain rfl : i = rid := Option.some.inj htarget
      rw [handle, Option.bind_eq_some_iff] at ht
      obtain ⟨q, hq, ht⟩ := ht
      exact h.mainEncrypted hp h' hrequests hlog hims hq ht
    | _ => cases hans
  | saveStorage =>
    cases e with
    | storageSaveConfirm i =>
      obtain rfl : i = rid := Option.some.inj htarget
      refine h'.withRequest (fun q hq hf => ?_) ht
      have hcopy := h'.main q hq
      rw [handleSaveConfirmForCopyOrRemoteRequest, hcopy.typ, hcopy.cmd] at hf
      exact h'.handleCopySuccessForMasterObject hq (hcomplete (.inl hp)) hf
    | storageNoSpace i =>
      obtain rfl : i = rid := Option.some.inj htarget
      refine h'.withRequest (fun q hq hf => ?_) ht
      have hcopy := h'.main q hq
      rw [handleNoSpaceForCopyOrRemoteRequest, hcopy.typ, hcopy.cmd] at hf
      rw [← Option.some.inj hf]
      exact h'.backupData hq (hready q hq (.inl hp))
    | storageFailed i =>
      obtain rfl : i = rid := Option.some.inj htarget
      exact h'.withRequest (fun q hq hf => h'.mainFailed hq hf) ht
    -- every other answer to a save does not fit it
    | _ => cases hans
  | saveRouter =>
    cases e with
    | routerSaveOffer i =>
      refine h'.withRequest (fun q hq hf => ?_) ht
      rw [handleRouterSaveOffer, pocoAssert_eq_some] at hf
      rw [← Option.some.inj hf.2]
      exact h'.frame (frame_write trivial)
    | routerSaveConfirm i =>
      obtain rfl : i = rid := Option.some.inj htarget
      refine h'.withRequest (fun q hq hf => ?_) ht
      rw [handleRouterSaveConfirmForRequestObject, (h'.main q hq).cmd] at hf
      exact h'.handleCopySuccessForMasterObject hq (hcomplete (.inr hp)) hf
    | routerCancel i =>
      obtain rfl : i = rid := Option.some.inj htarget
      exact h'.withRequest (fun q hq hf => h'.mainCanceled hq hf) ht
    | _ => cases hans
  | _ => exact hmain.elim

/-! ### The pieces -/

/-- A deletion is there only after a failure. -/
theorem Under.answered_of_del (h : Under intact random rid ims s) (hid : id ≠ rid)
    (hr : s.requests.lookup id = some r) (hdel : r.cmd = .del) : s.imsReqIds.lookup rid = none := by
  obtain hopen | hclosed := h.phase
  · have hcopy := hopen.copies id r hid hr
    rw [hdel] at hcopy
    cases hcopy
  · exact hclosed.ims_eq

theorem Under.partFailed (h : Under intact random rid ims s) (hid : id ≠ rid)
    (hr : s.requests.lookup id = some r) (ht : s.handleFailedRequest now id r = some t) :
    Under intact random rid ims t := by
  rw [handleFailedRequest] at ht
  cases hcmd : r.cmd with
  | del =>
    rw [hcmd] at ht
    rw [← Option.some.inj ht]
    exact h.frame (frame_eraseRequest fun hne => absurd (h.answered_of_del hid hr hcmd) hne)
  | copy =>
    have hpart := h.parts id r hid hr
    rw [hcmd] at ht
    dsimp only at ht
    rw [handleFailedCopyRequest, pocoAssert_eq_some, if_pos hpart.typ,
      handleFailedKernelCopyRequest, pocoAssert_eq_some, hpart.parent, Option.bind_some,
      Option.bind_eq_some_iff] at ht
    obtain ⟨-, -, q, hq, ht⟩ := ht
    rw [Option.map_eq_some_iff] at ht
    obtain ⟨s₁, hs₁, ht⟩ := ht
    rw [← ht]
    split_ifs at hs₁ with hzero
    · -- the first failure of a piece that was never copied is the failure of the copy
      obtain ⟨h₁, hnone, hkept⟩ := h.toBase.failed hq h.toReported hs₁
      have hframe : Frame rid s₁ (s₁.removeFromBackupUnits rid q id) :=
        frame_removeFromBackupUnits (hkept rid q hq) fun hne => absurd hnone hne
      refine (h₁.frame hframe).frame (frame_eraseRequest fun hne => absurd ?_ hne)
      rw [hframe.ims_eq, hnone]
    · rw [← Option.some.inj hs₁]
      have hframe := frame_removeFromBackupUnits hq (h.needed hid hq)
      refine (h.frame hframe).frame (frame_eraseRequest fun _ x hx => ?_)
      obtain ⟨hsame, -⟩ := lookup_removeFromBackupUnits (s := s) (q := q) (i := id) hid
      obtain rfl : r = x := Option.some.inj (hr.symm.trans (hsame ▸ hx))
      exact fun hneeded => hneeded.elim hid fun hnot => hzero hnot.1

/-- A request for a piece is written back with nothing changed that matters. -/
theorem Under.setPart {r' : Request} (h : Under intact random rid ims s)
    (hr : s.requests.lookup id = some r) (hsame : r'.Same rid r) :
    Under intact random rid ims (s.setRequest id r') :=
  h.frame (frame_setRequest hr hsame.toAkin fun _ => hsame)

theorem Under.partCanceled (h : Under intact random rid ims s) (hid : id ≠ rid)
    (hr : s.requests.lookup id = some r) (ht : s.handleRouterCancel now id r = some t) :
    Under intact random rid ims t := by
  rw [handleRouterCancel] at ht
  have hsame : Request.Same rid { r with failCount := r.failCount + 1 } r :=
    { Request.Same.refl rid r with }
  exact (h.setPart hr hsame).partFailed hid (AList.lookup_insert _) ht

theorem Under.partNack (h : Under intact random rid ims s) (hid : id ≠ rid)
    (hr : s.requests.lookup id = some r)
    (ht : s.handleStorageNegativeResponse dataCopyCount now id r = some t) :
    Under intact random rid ims t := by
  rw [handleStorageNegativeResponse] at ht
  cases hcmd : r.cmd with
  | copy =>
    obtain ⟨r', hr'⟩ : ∃ x, x = { r with isLocal := false } := ⟨_, rfl⟩
    have hsame : r'.Same rid r := by
      rw [hr']
      exact { Request.Same.refl rid r with }
    have hkernel : r'.typ = .kernel := hsame.typ.trans (h.parts id r hid hr).typ
    rw [hcmd] at ht
    dsimp only at ht
    rw [handleStorageNegativeResponseForCopyReq, ← hr', hkernel,
      if_neg fun heq => RequestType.noConfusion heq] at ht
    exact (h.setPart hr hsame).postRouterCopyRequest hid ht
  | del =>
    rw [hcmd] at ht
    rw [← Option.some.inj ht]
    exact h.frame (frame_post hid trivial trivial)

theorem Under.partAuth (h : Under intact random rid ims s) (hr : s.requests.lookup id = some r)
    (winnersCount : UInt16) :
    Under intact random rid ims (s.handleRouterAuthRequest id r winnersCount) := by
  have hsame : Request.Same rid { r with
      winnersCount := r.winnersCount + winnersCount
      st := .receiving } r :=
    { Request.Same.refl rid r with st := fun _ heq => RequestState.noConfusion heq }
  exact (h.setPart hr hsame).frame (frame_write trivial)

/-- The unit of a deletion is struck when there is nothing left to respond to. -/
theorem handleDeletedResponse_eq (hq : s.requests.lookup rid = some q)
    (hnone : s.imsReqIds.lookup rid = none) (hparent : r.parentReqId = some rid) :
    s.handleDeletedResponseForKernelRequest id r =
      s.setRequest rid { q with units := q.units.erase id } := by
  have hims : ∀ x, (s.setRequest rid x).imsReqIds.lookup rid = none := fun _ => hnone
  simp only [handleDeletedResponseForKernelRequest, hparent, hq, hims, Option.elim_none, ite_self]

theorem frame_deletedResponse (hid : id ≠ rid) (hnone : s.imsReqIds.lookup rid = none)
    (hparent : r.parentReqId = some rid) :
    Frame rid s (s.handleDeletedResponseForKernelRequest id r) ∧
      (s.handleDeletedResponseForKernelRequest id r).requests.lookup id = s.requests.lookup id := by
  cases hq : s.requests.lookup rid with
  | none =>
    simp only [handleDeletedResponseForKernelRequest, hparent, hq]
    exact ⟨.refl rid s, trivial⟩
  | some q =>
    rw [handleDeletedResponse_eq hq hnone hparent]
    refine ⟨frame_setRequest hq { Request.Akin.refl q with } fun hne => absurd hnone hne, ?_⟩
    exact AList.lookup_insert_ne hid

/-- A deletion counts what was deleted. -/
theorem frame_deleted (hr : s.requests.lookup id = some r) (hdel : r.cmd = .del)
    (hnone : s.imsReqIds.lookup rid = none) :
    Frame rid s (s.setRequest id { r with updated := r.updated + 1 }) := by
  have hakin : Request.Akin { r with updated := r.updated + 1 } r :=
    { Request.Akin.refl r with
      counted := fun _ hcopy => RequestCommand.noConfusion (hdel.symm.trans hcopy) }
  exact frame_setRequest hr hakin fun hne => absurd hnone hne

theorem Under.partStorageDeleted (h : Under intact random rid ims s) (hid : id ≠ rid)
    (hr : s.requests.lookup id = some r)
    (ht : s.handleStorageDeleted dataCopyCount id r = some t) : Under intact random rid ims t := by
  rw [handleStorageDeleted, pocoAssert_eq_some] at ht
  obtain ⟨⟨hdel, -⟩, ht⟩ := ht
  have hnone := h.answered_of_del hid hr hdel
  have hcounted := frame_deleted hr hdel hnone
  have hstruck := (frame_deletedResponse (r := { r with updated := r.updated + 1 }) hid
    (hcounted.ims_eq.trans hnone) (h.parts id r hid hr).parent).1
  rw [← Option.some.inj ht]
  exact h.frame ((hcounted.trans hstruck).trans (frame_post hid trivial trivial))

theorem Under.partRouterDeleted (h : Under intact random rid ims s) (hid : id ≠ rid)
    (hr : s.requests.lookup id = some r) (ht : s.handleRouterDeleted id r = some t) :
    Under intact random rid ims t := by
  rw [handleRouterDeleted, pocoAssert_eq_some] at ht
  obtain ⟨⟨hdel, -⟩, ht⟩ := ht
  have hnone := h.answered_of_del hid hr hdel
  obtain ⟨hstruck, hlookup⟩ := frame_deletedResponse hid hnone (h.parts id r hid hr).parent
  rw [← Option.some.inj ht]
  exact h.frame (hstruck.trans (frame_deleted (hlookup.trans hr) hdel (hstruck.ims_eq.trans hnone)))

theorem Under.partCopied (h : Under intact random rid ims s) (hid : id ≠ rid)
    (hr : s.requests.lookup id = some r)
    (ht : s.handleStorageCopySucceeded dataCopyCount id r = some t) :
    Under intact random rid ims t := by
  rw [handleStorageCopySucceeded, pocoAssert_eq_some, pocoAssert_eq_some, pocoAssert_eq_some] at ht
  exact h.handleCopySuccessForPiece hid hr ht.2.2.2

theorem Under.partNoSpace (h : Under intact random rid ims s) (hid : id ≠ rid)
    (hr : s.requests.lookup id = some r) (ht : s.handleStorageNoSpaceCopy id r = some t) :
    Under intact random rid ims t := by
  rw [handleStorageNoSpaceCopy] at ht
  have hsame : Request.Same rid { r with isLocal := false } r := { Request.Same.refl rid r with }
  exact (h.setPart hr hsame).postRouterCopyRequest hid ht

/-- An answer about a piece, or about the deletion of one. -/
theorem Under.partStep (h : Under intact random rid ims s) (hid : id ≠ rid) (hpart : p.IsPart)
    (htarget : e.target = some id) (hans : e.answers p = true)
    (ht : (s.received e).handle random dataCopyCount now (some p) e = some t) :
    Under intact random rid ims t := by
  have h' : Under intact random rid ims (s.received e) := h.frame frame_received
  obtain ⟨s', hs'⟩ : ∃ x, x = s.received e := ⟨_, rfl⟩
  rw [← hs'] at h' ht
  -- the answers that more than one kind of posting can get
  have hnack : ∀ i, i = id → s'.withRequest i (fun r =>
      s'.handleStorageNegativeResponse dataCopyCount now i r) = some t →
      Under intact random rid ims t := by
    rintro i rfl ht
    exact h'.withRequest (fun r hr hf => h'.partNack hid hr hf) ht
  have hfailed : ∀ i, i = id → s'.withRequest i (fun r => s'.handleFailedRequest now i r) = some t →
      Under intact random rid ims t := by
    rintro i rfl ht
    exact h'.withRequest (fun r hr hf => h'.partFailed hid hr hf) ht
  have hcanceled : ∀ i, i = id →
      s'.withRequest i (fun r => s'.handleRouterCancel now i r) = some t →
      Under intact random rid ims t := by
    rintro i rfl ht
    exact h'.withRequest (fun r hr hf => h'.partCanceled hid hr hf) ht
  have hauth : ∀ i n, i = id → s'.withRequest i (fun r =>
      some (s'.handleRouterAuthRequest i r n)) = some t → Under intact random rid ims t := by
    rintro i n rfl ht
    refine h'.withRequest (fun r hr hf => ?_) ht
    rw [← Option.some.inj hf]
    exact h'.partAuth hr n
  -- which answers are possible is decided by what is posted for the part
  cases p with
  | copyStorage =>
    cases e with
    | storageNack i => exact hnack i (Option.some.inj htarget) ht
    | storageCopySucceeded i =>
      obtain rfl : i = id := Option.some.inj htarget
      exact h'.withRequest (fun r hr hf => h'.partCopied hid hr hf) ht
    | storageNoSpaceCopy i =>
      obtain rfl : i = id := Option.some.inj htarget
      exact h'.withRequest (fun r hr hf => h'.partNoSpace hid hr hf) ht
    | storageFailed i => exact hfailed i (Option.some.inj htarget) ht
    | _ => cases hans
  | copyRouter =>
    cases e with
    | routerAuth i n => exact hauth i n (Option.some.inj htarget) ht
    | routerCopySucceeded i =>
      obtain rfl : i = id := Option.some.inj htarget
      refine h'.withRequest (fun r hr hf => ?_) ht
      rw [handleRouterCopySucceeded, pocoAssert_eq_some] at hf
      exact h'.handleCopySuccessForPiece hid hr hf.2
    | routerCancel i => exact hcanceled i (Option.some.inj htarget) ht
    | _ => cases hans
  | deleteStorage =>
    cases e with
    | storageNack i => exact hnack i (Option.some.inj htarget) ht
    | storageDeleted i =>
      obtain rfl : i = id := Option.some.inj htarget
      exact h'.withRequest (fun r hr hf => h'.partStorageDeleted hid hr hf) ht
    | storageFailed i => exact hfailed i (Option.some.inj htarget) ht
    | _ => cases hans
  | deleteRouter =>
    cases e with
    | routerAuth i n => exact hauth i n (Option.some.inj htarget) ht
    | routerDeleted i =>
      obtain rfl : i = id := Option.some.inj htarget
      exact h'.withRequest (fun r hr hf => h'.partRouterDeleted hid hr hf) ht
    | routerCancel i => exact hcanceled i (Option.some.inj htarget) ht
    | _ => cases hans
  | _ => exact hpart.elim

/-- **Step lemma**, once the pieces are asked for. -/
theorem Under.step {x : Event × ℕ} (h : Under intact random rid ims s) (he : s.Possible x.1)
    (ht : s.step random dataCopyCount x = some t) : Under intact random rid ims t := by
  rw [Copying.step] at ht
  obtain ⟨e, now⟩ := x
  dsimp only at he ht
  cases htarget : e.target with
  | none =>
    cases e with
    | elsewhere n =>
      rw [← Option.some.inj ht]
      exact h.frame (frame_counter n)
    | _ => cases htarget
  | some id =>
    obtain ⟨p, hp, hans⟩ := he id htarget
    rw [htarget, Option.bind_some, hp] at ht
    obtain ⟨rfl, hmain⟩ | ⟨hid, hpart⟩ := h.post_cases hp
    · exact h.mainStep hp hmain htarget hans ht
    · exact h.partStep hid hpart htarget hans ht

end Copying

end Metax
