import Metax.Deletion.Invariant

/-!
# Keeping the chunks

`keep_chunks` is looked at when the storage has the object, which is then deleted without its master
object being read. When the storage does not have it, the master object comes from the router, and
what is done with it is the same for every delete request.

So the request keeps the chunks exactly in the runs in which no such master object comes
(`keep_honoured_iff`): one direction is an invariant, `Clean`, and the other one finds the first
delete of a piece, which no later step takes back.
-/

namespace Metax

namespace Deletion

variable {dataCopyCount : ℕ} {s t : Deletion} {rid id ims : ID32} {uuid : UUID} {keepChunks : Bool}
  {r : Request} {e : Entry}

/-- The request for which a delete is issued. -/
def Entry.deletes : Entry → Option ID32
  | .deleteStorage id _ | .deleteRouter id _ _ _ => some id
  | _ => none

/-- **The law**: no delete was issued but for the object itself. -/
def Spares (rid : ID32) (s : Deletion) : Prop := ∀ e ∈ s.log, ∀ i ∈ e.deletes, i = rid

instance : Decidable (s.Spares rid) :=
  have : ∀ e : Entry, Decidable (∀ i ∈ e.deletes, i = rid) := fun _ => Option.decidableForallMem _
  List.decidableBAll _ _

/-- The master object that an answer brings. -/
def Event.master : Event → Option Master
  | .storageGetData _ m encrypted | .routerGetData _ m encrypted => if encrypted then none else m
  | .decrypted _ m => m
  | _ => none

/-- It can be processed up to its first piece. -/
def Master.Names (m : Master) : Prop :=
  increaseVersion m.version ≠ none ∧ ∃ u us, m.pieces = some (some u :: us)

/-- An answer brings a master object that names a piece, and there is an id for its request. -/
def ReadsPieces (rid : ID32) (s : Deletion) (e : Event) : Prop :=
  s.requestCounter ≠ rid ∧ ∃ m ∈ e.master, m.Names

/-- Nothing was deleted but the object, and no piece has a request. -/
structure Clean (rid : ID32) (s : Deletion) : Prop where
  spares : s.Spares rid
  ims : ∀ id r, s.requests.lookup id = some r → r.typ = .ims

/-! ### What issues no delete -/

/-- An entry that deletes the object only. -/
theorem Clean.write (h : Clean rid s) (he : ∀ i ∈ e.deletes, i = rid) : Clean rid (s.write e) :=
  ⟨List.forall_mem_cons.mpr ⟨he, h.spares⟩, h.ims⟩

/-- The same with the question to the storage or the router that it stands for. -/
theorem Clean.post (h : Clean rid s) (he : ∀ i ∈ e.deletes, i = rid) (p : Post) :
    Clean rid (s.post id p e) :=
  ⟨(h.write he).spares, h.ims⟩

/-- What is no delete is not in the way. -/
theorem Clean.writeOther (h : Clean rid s) (he : e.deletes = none) : Clean rid (s.write e) :=
  h.write fun _ hi => by simp [he] at hi

/-- A question that deletes nothing. -/
theorem Clean.postOther (h : Clean rid s) (he : e.deletes = none) (p : Post) :
    Clean rid (s.post id p e) :=
  ⟨(h.writeOther he).spares, h.ims⟩

/-- The object may be deleted here. -/
theorem Clean.postStorageDelete (h : Clean rid s) (r : Request) :
    Clean rid (s.postStorageDeleteRequest rid r) :=
  h.post (e := .deleteStorage rid r.uuid) (fun _ hi => (Option.some.inj hi).symm) .deleteStorage

/-- And on other nodes. -/
theorem Clean.postRouterDelete (h : Clean rid s) (r : Request) :
    Clean rid (s.postRouterDeleteRequest dataCopyCount rid r) :=
  h.post (e := .deleteRouter rid r.uuid r.dataVersion (dataCopyCount - 1))
    (fun _ hi => (Option.some.inj hi).symm) .deleteRouter

/-- No entry is written when an answer arrives. -/
theorem Clean.erasePost (h : Clean rid s) (id : ID32) : Clean rid (s.answered id) :=
  ⟨h.spares, h.ims⟩

/-- No request of a piece comes up when a request of the IMS is written back. -/
theorem Clean.setRequest (h : Clean rid s) (hr : r.typ = .ims) : Clean rid (s.setRequest id r) where
  spares := h.spares
  ims := Ledger.forall_lookup_insert h.ims hr

/-- Nor when one goes. -/
theorem Clean.eraseRequest (h : Clean rid s) (id : ID32) : Clean rid (s.eraseRequest id) where
  spares := h.spares
  ims i q hq := by
    obtain ⟨-, hq⟩ := Ledger.of_lookup_erase hq
    exact h.ims i q hq

/-- A response to the IMS deletes nothing. -/
theorem Clean.respond (h : Clean rid s) (i : ID32) (a : Answer) : Clean rid (s.respond id i a) :=
  ⟨(h.writeOther (e := .respond i a) rfl).spares, h.ims⟩

/-- Nor does a failure. -/
theorem Clean.sendImsDeleteFailedResponse (h : Clean rid s) (r : Request) :
    Clean rid (s.sendImsDeleteFailedResponse id r) := by
  rw [Deletion.sendImsDeleteFailedResponse]
  split
  · exact h
  · exact h.respond _ _

/-- The request ends. -/
theorem Clean.handleFailedDeleteRequest (h : Clean rid s)
    (hstep : s.handleFailedDeleteRequest id r = some t) : Clean rid t := by
  rw [Deletion.handleFailedDeleteRequest] at hstep
  split_ifs at hstep
  · cases hp : r.parentReqId with
    | none =>
      rw [hp] at hstep
      cases hstep
    | some p =>
      rw [hp] at hstep
      obtain ⟨q, -, heq⟩ := Option.bind_eq_some_iff.mp hstep
      obtain rfl := Option.some.inj heq
      exact ((h.sendImsDeleteFailedResponse q).eraseRequest p).eraseRequest id
  · obtain rfl := Option.some.inj hstep
    exact (h.sendImsDeleteFailedResponse r).eraseRequest id
  · obtain rfl := Option.some.inj hstep
    exact h.eraseRequest id

/-- A copy of the object was deleted. -/
theorem Clean.handleDeletedResponse (h : Clean rid s) (hr : r.typ = .ims) :
    Clean rid (s.handleDeletedResponse id r) := by
  have hset : Clean rid (s.setRequest id { r with units := r.units.erase id }) := h.setRequest hr
  rw [Deletion.handleDeletedResponse, if_pos hr, handleDeletedResponseForImsRequest, unitDeleted]
  split_ifs
  · split
    · exact hset
    · exact hset.respond _ _
  · exact hset

/-- It is counted. -/
theorem Clean.countUpdated (h : Clean rid s) (id : ID32) : Clean rid (s.countUpdated id) := by
  rw [Deletion.countUpdated]
  split
  · exact h
  · next q hq => exact h.setRequest (h.ims id q hq)

/-- The storage deletes its copy and other nodes are asked for theirs. -/
theorem Clean.handleStorageDeleted (h : Clean rid s) (hr : r.typ = .ims) :
    Clean rid (s.handleStorageDeleted dataCopyCount rid r) := by
  obtain ⟨q, hq⟩ : ∃ q : Request, q = { r with updated := r.updated + 1 } := ⟨_, rfl⟩
  have htyp : q.typ = .ims := by
    rw [hq]
    exact hr
  rw [Deletion.handleStorageDeleted, ← hq]
  exact ((h.setRequest htyp).handleDeletedResponse htyp).postRouterDelete q

/-! ### The master object -/

/-- A master object that names no piece: only the object itself is deleted. -/
theorem Clean.removeUnnecessaryUuids (h : Clean rid s) (hr : r.typ = .ims) {m : Master}
    (hnot : m.Names → (s.requests.lookup s.requestCounter).isSome) {q : Request} {b : Bool}
    (hremove : Deletion.removeUnnecessaryUuids rid s r m = (t, q, b)) :
    Clean rid t ∧ q.typ = .ims := by
  rw [Deletion.removeUnnecessaryUuids] at hremove
  cases hv : increaseVersion m.version with
  | none =>
    obtain ⟨rfl, rfl, -⟩ : s = t ∧ r = q ∧ false = b := by simpa [hv] using hremove
    exact ⟨h, hr⟩
  | some v =>
    cases hpieces : m.pieces with
    | none =>
      obtain ⟨rfl, rfl, -⟩ : s = t ∧ { r with dataVersion := v } = q ∧ true = b := by
        simpa [hv, hpieces] using hremove
      exact ⟨h, hr⟩
    | some us =>
      simp only [hv, hpieces] at hremove
      rcases us with - | ⟨- | u, us⟩
      · obtain ⟨rfl, rfl, -⟩ : s = t ∧
            { r with dataVersion := v, units := insert rid r.units } = q ∧ true = b := by
          simpa [deletePieces] using hremove
        exact ⟨h, hr⟩
      · obtain ⟨rfl, rfl, -⟩ : s = t ∧ { r with dataVersion := v } = q ∧ false = b := by
          simpa [deletePieces] using hremove
        exact ⟨h, hr⟩
      · -- the id is taken: an exception
        have htaken := hnot ⟨by simp [hv], u, us, hpieces⟩
        have hfree : s.requests.lookup s.requestCounter ≠ none :=
          Option.isSome_iff_ne_none.mp htaken
        simp only [deletePieces, handlePieceDelete, getRequestId, if_neg hfree] at hremove
        obtain ⟨rfl, rfl, -⟩ : { s with requestCounter := nextCounter s.requestCounter } = t ∧
            { r with dataVersion := v } = q ∧ false = b := by simpa using hremove
        exact ⟨⟨h.spares, h.ims⟩, hr⟩

/-- A master object is processed that names no piece, or cannot be, or finds no id free. -/
theorem Clean.handleUnencryptedMasterObject (h : Clean rid s) {m : Option Master}
    (hnot : ∀ m' ∈ m, m'.Names → (s.requests.lookup s.requestCounter).isSome)
    (hstep : s.handleUnencryptedMasterObject dataCopyCount rid r m = some t) : Clean rid t := by
  rw [Deletion.handleUnencryptedMasterObject.eq_def, pocoAssert] at hstep
  split_ifs at hstep with hr
  cases m with
  | none => exact h.handleFailedDeleteRequest hstep
  | some m =>
    obtain ⟨⟨t', q, b⟩, hremove⟩ : ∃ x, x = Deletion.removeUnnecessaryUuids rid
      (s.write (.gotMaster m)) { r with oldMasterJson := some m } m := ⟨_, rfl⟩
    obtain ⟨hclean, hq⟩ := (h.writeOther (e := .gotMaster m) rfl).removeUnnecessaryUuids
      (r := { r with oldMasterJson := some m }) hr (hnot m rfl) hremove.symm
    have hset : Clean rid (t'.setRequest rid q) := hclean.setRequest hq
    simp only [processDeleteRequest, ← hremove] at hstep
    cases b with
    | false => exact hset.handleFailedDeleteRequest hstep
    | true =>
      obtain rfl := Option.some.inj hstep
      split
      · exact hset.postStorageDelete q
      · exact hset.postRouterDelete q

/-- The same for one that may be encrypted, which goes to the key manager first. -/
theorem Clean.gotMasterObject (h : Clean rid s) {m : Option Master} {encrypted : Bool}
    (hnot : encrypted = false → ∀ m' ∈ m, m'.Names → (s.requests.lookup s.requestCounter).isSome)
    (hstep : s.gotMasterObject dataCopyCount rid r m encrypted = some t) : Clean rid t := by
  rw [Deletion.gotMasterObject, pocoAssert] at hstep
  split_ifs at hstep with hr hencrypted
  · obtain rfl := Option.some.inj hstep
    exact h.postOther (e := .decrypt rid) rfl .decrypt
  · exact h.handleUnencryptedMasterObject (hnot (Bool.eq_false_iff.mpr hencrypted)) hstep

/-! ### Steps -/

/-- Without pieces, only the object and its helper wait. -/
theorem Inv.posted (h : Inv rid uuid keepChunks ims s) (hclean : Clean rid s) {p : Post}
    (hp : s.posted.lookup id = some p) :
    (id = rid ∧ p ≠ .getRouter ∧ ∃ r, s.requests.lookup id = some r) ∨ id ≠ rid ∧ p = .getRouter ∧
      ∃ r, s.requests.lookup id = some r ∧ r.IsHelper rid ∧
        Idle rid uuid keepChunks ims ((s.answered id).eraseRequest id) := by
  obtain hreading | ⟨hunder, hwaits⟩ := h
  · obtain ⟨rfl, hq, hidle⟩ | hhelper := hreading.posted hp
    · obtain ⟨r, hr, -⟩ := hidle.main
      refine .inl ⟨rfl, ?_, r, hr⟩
      rintro rfl
      simp at hq
    · exact .inr hhelper
  · cases hr : s.requests.lookup id with
    | none =>
      have hnone := (waits_none hr).mp (hwaits id)
      rw [hp] at hnone
      cases hnone
    | some r =>
      have heq : id = rid := by
        by_contra hne
        have htyp := (hunder.pieces id r hne hr).typ
        rw [hclean.ims id r hr] at htyp
        cases htyp
      refine .inl ⟨heq, ?_, r, rfl⟩
      rintro rfl
      have hw := (waits_some hr).mp (hwaits id)
      rw [hp] at hw
      obtain hw | ⟨hw, -⟩ := hw <;> cases hw

/-- The storage does not have the object: the router is asked for it. -/
theorem Clean.handleStorageNegativeResponse (h : Clean rid s)
    (hstep : s.handleStorageNegativeResponseForDeleteReq dataCopyCount rid r = some t) :
    Clean rid t := by
  rw [handleStorageNegativeResponseForDeleteReq, getRequestId] at hstep
  split_ifs at hstep
  · obtain rfl := Option.some.inj hstep
    have hcount : Clean rid { s with requestCounter := nextCounter s.requestCounter } :=
      ⟨h.spares, h.ims⟩
    exact (hcount.setRequest (r := { helperRequest r.uuid rid with st := .requested })
      rfl).postOther (e := .getRouter s.requestCounter r.uuid) rfl .getRouter
  · obtain rfl := Option.some.inj hstep
    exact h.postRouterDelete r

/-- An answer to the request itself. -/
theorem Clean.handle (h : Clean rid s) {e : Event} (htarget : e.target = some rid)
    (hreads : ∀ m ∈ e.master, m.Names → (s.requests.lookup s.requestCounter).isSome)
    {p : Post} (he : e.Answers p) (hne : p ≠ .getRouter) (hr : s.requests.lookup rid = some r)
    (hstep : s.handle dataCopyCount e = some t) : Clean rid t := by
  have hims := h.ims rid r hr
  cases e with
  | elsewhere => cases htarget
  -- by the answer, each of which is for this request
  | storageAck =>
    obtain rfl := Option.some.inj htarget
    rw [Deletion.handle, withRequest, hr] at hstep
    obtain rfl := Option.some.inj hstep
    rw [handleStoragePositiveResponseForLocalRequest]
    split_ifs
    · exact h.postStorageDelete r
    -- the object is here: it is deleted at once, or its master object is read first
    · exact (h.setRequest (r := { r with st := .sending }) hims).postOther
        (e := .getStorage _ r.uuid) rfl .getStorage
  | storageNack =>
    obtain rfl := Option.some.inj htarget
    rw [Deletion.handle, withRequest, hr] at hstep
    exact h.handleStorageNegativeResponse hstep
  -- only a plain master object can be read for its pieces
  | storageGetData i m encrypted =>
    obtain rfl := Option.some.inj htarget
    rw [Deletion.handle, withRequest, hr] at hstep
    refine h.gotMasterObject (fun hplain => ?_) hstep
    subst hplain
    exact hreads
  | storageDeleted =>
    obtain rfl := Option.some.inj htarget
    rw [Deletion.handle, withRequest, hr] at hstep
    obtain rfl := Option.some.inj hstep
    exact (h.writeOther (e := .copyDeleted _) rfl).handleStorageDeleted hims
  | storageFailed =>
    obtain rfl := Option.some.inj htarget
    rw [Deletion.handle, withRequest, hr] at hstep
    exact h.handleFailedDeleteRequest hstep
  | decrypted i m =>
    obtain rfl := Option.some.inj htarget
    rw [Deletion.handle, hr, Option.bind_some] at hstep
    exact h.handleUnencryptedMasterObject hreads hstep
  | decryptionFail =>
    obtain rfl := Option.some.inj htarget
    rw [Deletion.handle, hr, Option.bind_some, handleDecryptionFailForDeleteRequest, pocoAssert,
      if_pos hims] at hstep
    obtain ⟨i, -, heq⟩ := Option.bind_eq_some_iff.mp hstep
    obtain rfl := Option.some.inj heq
    exact (h.respond _ _).eraseRequest _
  -- the router is asked through a helper, whose answers are not for this request
  | routerGetData => exact absurd he hne
  | routerDeleted =>
    obtain rfl := Option.some.inj htarget
    rw [Deletion.handle, withRequest, hr] at hstep
    obtain rfl := Option.some.inj hstep
    exact ((h.writeOther (e := .copyDeleted _) rfl).handleDeletedResponse hims).countUpdated _
  | routerCancel =>
    obtain rfl := Option.some.inj htarget
    rw [Deletion.handle, withRequest, hr] at hstep
    exact Clean.handleFailedDeleteRequest
      (h.setRequest (r := { r with failCount := r.failCount + 1 }) hims) hstep

/-- An answer that brings no master object with a piece to delete. -/
theorem clean_step (h : Inv rid uuid keepChunks ims s) (hclean : Clean rid s) {e : Event}
    (hpossible : s.Possible e) (hnot : ¬ s.ReadsPieces rid e)
    (hstep : s.step dataCopyCount e = some t) : Clean rid t := by
  -- who reads the pieces would get an id, and the counter has to be at that of this request
  have hreads : ∀ m ∈ e.master, m.Names → s.requestCounter = rid := fun m hm hnames => by
    by_contra hne
    exact hnot ⟨hne, m, hm, hnames⟩
  cases htarget : e.target with
  | none =>
    cases e with
    | elsewhere counter =>
      obtain rfl := Option.some.inj hstep
      exact ⟨hclean.spares, hclean.ims⟩
    | _ => cases htarget
  | some id =>
    obtain ⟨p, hp, he⟩ := hpossible id htarget
    rw [step] at hstep
    -- the answer is for the request itself, or for the helper that asks the router
    obtain ⟨rfl, hne, r, hr⟩ | ⟨hid, rfl, r, hr, hhelper, hidle⟩ := h.posted hclean hp
    · have hreceived : Clean id (s.received e) ∧ (s.received e).requests = s.requests ∧
          (s.received e).requestCounter = s.requestCounter := by
        by_cases hdelete : ∃ i, e = .routerDeleted i
        · obtain ⟨i, rfl⟩ := hdelete
          exact ⟨hclean, rfl, rfl⟩
        · rw [received_eq htarget fun i heq => hdelete ⟨i, heq⟩]
          exact ⟨hclean.erasePost id, rfl, rfl⟩
      obtain ⟨hc, hrequests, hcounter⟩ := hreceived
      -- for the request itself
      refine hc.handle htarget (fun m hm hnames => ?_) he hne (hrequests ▸ hr) hstep
      rw [hrequests, hcounter, hreads m hm hnames, hr]
      rfl
    -- for the helper, which is erased and hands the master object on
    · have hrouter : ∀ i, e ≠ .routerDeleted i := by
        rintro i rfl
        cases he
      rw [received_eq htarget hrouter] at hstep
      have hc := hclean.erasePost id
      obtain ⟨q, hq, hmain, -⟩ := hidle.main
      have hlookup : s.requests.lookup rid = some q :=
        (AList.lookup_erase_ne hid.symm).symm.trans hq
      cases e with
      | routerGetData i m encrypted =>
        obtain rfl := Option.some.inj htarget
        rw [handle, withRequest, show (s.answered i).requests.lookup i = some r from hr] at hstep
        simp only [Option.elim_some, processReceivedMasterObjectFromRouter, hhelper.parent,
          show (s.answered i).requests.lookup rid = some q from hlookup] at hstep
        refine (hc.eraseRequest i).gotMasterObject (fun hplain m' hm' hnames => ?_) hstep
        subst hplain
        rw [show ((s.answered i).eraseRequest i).requestCounter = rid from hreads m' hm' hnames, hq]
        rfl
      | routerCancel i =>
        obtain rfl := Option.some.inj htarget
        rw [handle, withRequest, show (s.answered i).requests.lookup i = some r from hr] at hstep
        exact (hc.setRequest (r := { r with failCount := r.failCount + 1 })
          hhelper.typ).handleFailedDeleteRequest hstep
      | elsewhere => cases htarget
      | storageNack => obtain he | he | he := he <;> cases he
      | storageFailed => obtain he | he | he := he <;> cases he
      | _ => cases he

/-! ### What is read -/

/-- What was sent stays in the log when the request fails, and it does fail. -/
theorem Request.IsMain.handleFailedDeleteRequest (hr : r.IsMain uuid keepChunks) :
    ∃ t, s.handleFailedDeleteRequest rid r = some t ∧ ∀ e ∈ s.log, e ∈ t.log := by
  rw [Deletion.handleFailedDeleteRequest, if_pos hr.typ, if_neg hr.st]
  refine ⟨_, rfl, fun e he => ?_⟩
  rw [eraseRequest, sendImsDeleteFailedResponse]
  split
  · exact he
  · exact List.mem_cons_of_mem _ he

/-- The first piece is deleted. -/
theorem Spreading.reads (h : Spreading rid uuid keepChunks ims s) {m : Master} (hnames : m.Names)
    (hfree : s.requests.lookup s.requestCounter = none)
    {q : Request} {b : Bool} (hremove : Deletion.removeUnnecessaryUuids rid s r m = (t, q, b)) :
    ∃ u, .deleteStorage s.requestCounter u ∈ t.log := by
  obtain ⟨hv, u, us, hpieces⟩ := hnames
  obtain ⟨v, hv⟩ := Option.ne_none_iff_exists'.mp hv
  obtain ⟨id, hid⟩ : ∃ id, id = s.requestCounter := ⟨_, rfl⟩
  obtain ⟨s', hs'⟩ : ∃ s', s' = (s.handlePieceDelete u rid).1 := ⟨_, rfl⟩
  have hpiece : s.handlePieceDelete u rid = (s', some id) := by
    rw [hs', hid]
    simp only [Deletion.handlePieceDelete, getRequestId, if_pos hfree]
  have hspread : Spreading rid uuid keepChunks ims s' := by
    rw [hs']
    exact (h.handlePieceDelete u).1
  have hlog : .deleteStorage id u ∈ s'.log := by
    rw [hs', (h.handlePieceDelete u).2.1, hpiece]
    exact List.mem_cons_self
  refine ⟨u, hid ▸ ?_⟩
  obtain ⟨⟨t', q', b'⟩, hloop⟩ : ∃ x, x = Deletion.deletePieces rid s'
    { r with dataVersion := v, units := insert id r.units } us := ⟨_, rfl⟩
  obtain ⟨-, -, -, hkept, -⟩ := hspread.deletePieces hloop.symm
  simp only [Deletion.removeUnnecessaryUuids, hv, hpieces, Deletion.deletePieces, hpiece,
    ← hloop] at hremove
  cases b' with
  | false =>
    obtain ⟨rfl, -⟩ := Prod.mk.inj hremove
    exact hkept _ hlog
  | true =>
    obtain ⟨rfl, -⟩ := Prod.mk.inj hremove
    exact hkept _ hlog

/-- A master object that names a piece deletes it, whatever the request says about chunks. -/
theorem Idle.reads (h : Idle rid uuid keepChunks ims s) (hr : s.requests.lookup rid = some r)
    {m : Master} (hnames : m.Names) (hcounter : s.requestCounter ≠ rid) :
    ∃ t, s.handleUnencryptedMasterObject dataCopyCount rid r (some m) = some t ∧
      ¬ t.Spares rid := by
  obtain ⟨hmain, -⟩ := h.isMain hr
  obtain ⟨⟨t', q, b⟩, hremove⟩ : ∃ x, x = Deletion.removeUnnecessaryUuids rid
    (s.write (.gotMaster m)) { r with oldMasterJson := some m } m := ⟨_, rfl⟩
  have hspread := h.spreading m
  obtain ⟨u, hu⟩ := hspread.reads hnames (h.alone _ hcounter) hremove.symm
  obtain ⟨-, ⟨v, units, hq⟩, -⟩ := hspread.removeUnnecessaryUuids hremove.symm
  have hqmain : q.IsMain uuid keepChunks := by
    rw [hq]
    exact ⟨hmain.typ, hmain.st, hmain.uuid_eq, hmain.keep⟩
  have hnot : ∀ t : Deletion, (∀ e ∈ t'.log, e ∈ t.log) → ¬ t.Spares rid := fun t ht hspares =>
    hcounter (hspares _ (ht _ hu) _ rfl)
  rw [Deletion.handleUnencryptedMasterObject, pocoAssert, if_pos hmain.typ, processDeleteRequest,
    ← hremove]
  cases b with
  | false =>
    have hfails : ∃ t, (t'.setRequest rid q).handleFailedDeleteRequest rid q = some t ∧
        ∀ e ∈ (t'.setRequest rid q).log, e ∈ t.log := hqmain.handleFailedDeleteRequest
    obtain ⟨t, hstep, hlog⟩ := hfails
    exact ⟨t, hstep, hnot t hlog⟩
  | true =>
    refine ⟨_, rfl, hnot _ fun e he => ?_⟩
    split
    · exact List.mem_cons_of_mem _ he
    · exact List.mem_cons_of_mem _ he

/-- What waits for something else than a deletion waits to read the master object. -/
theorem Inv.reading (h : Inv rid uuid keepChunks ims s) {p : Post}
    (hp : s.posted.lookup id = some p) (hrouter : p ≠ .deleteRouter)
    (hstorage : p ≠ .deleteStorage) : Reading rid uuid keepChunks ims s := by
  obtain hreading | ⟨-, hwaits⟩ := h
  · exact hreading
  · cases hr : s.requests.lookup id with
    | none =>
      have hnone := (waits_none hr).mp (hwaits id)
      rw [hp] at hnone
      cases hnone
    | some r =>
      have hw := (waits_some hr).mp (hwaits id)
      rw [hp] at hw
      obtain hw | ⟨hw, -⟩ := hw
      · exact absurd (Option.some.inj hw) hrouter
      · exact absurd (Option.some.inj hw) hstorage

/-- **A master object that is read** costs its first piece, whatever the request asked for. -/
theorem reads_step (h : Inv rid uuid keepChunks ims s) {e : Event} (hpossible : s.Possible e)
    (hreads : s.ReadsPieces rid e) : ∃ t, s.step dataCopyCount e = some t ∧ ¬ t.Spares rid := by
  obtain ⟨hcounter, m, hm, hnames⟩ := hreads
  cases e with
  | storageGetData i m' encrypted =>
    obtain ⟨p, hp, rfl⟩ := hpossible i rfl
    obtain ⟨rfl, -, hidle⟩ | ⟨-, hp, -⟩ := (h.reading hp (by decide) (by decide)).posted hp
    · obtain ⟨r, hr, hmain, -⟩ := hidle.main
      cases encrypted with
      | true => cases hm
      | false =>
        obtain rfl : m' = some m := hm
        have hreceived : s.received (.storageGetData i (some m) false) = s.answered i := rfl
        rw [step, hreceived, handle, withRequest, hr, Option.elim_some, gotMasterObject, pocoAssert,
          if_pos hmain.typ, if_neg Bool.false_ne_true]
        exact hidle.reads hr hnames hcounter
    · cases hp
  | decrypted i m' =>
    obtain ⟨p, hp, rfl⟩ := hpossible i rfl
    obtain ⟨rfl, -, hidle⟩ | ⟨-, hp, -⟩ := (h.reading hp (by decide) (by decide)).posted hp
    · obtain ⟨r, hr, -⟩ := hidle.main
      obtain rfl : m' = some m := hm
      have hreceived : s.received (.decrypted i (some m)) = s.answered i := rfl
      rw [step, hreceived, handle, hr, Option.bind_some]
      exact hidle.reads hr hnames hcounter
    · cases hp
  | routerGetData i m' encrypted =>
    obtain ⟨p, hp, rfl⟩ := hpossible i rfl
    obtain ⟨-, hq, -⟩ | ⟨hid, -, r, hr, hhelper, hidle⟩ :=
      (h.reading hp (by decide) (by decide)).posted hp
    · simp at hq
    · obtain ⟨q, hq, hmain, -⟩ := hidle.main
      have hlookup : (s.answered i).requests.lookup rid = some q :=
        (AList.lookup_erase_ne hid.symm).symm.trans hq
      cases encrypted with
      | true => cases hm
      | false =>
        obtain rfl : m' = some m := hm
        have hreceived : s.received (.routerGetData i (some m) false) = s.answered i := rfl
        rw [step, hreceived, handle, withRequest,
          show (s.answered i).requests.lookup i = some r from hr, Option.elim_some]
        simp only [processReceivedMasterObjectFromRouter, hhelper.parent, hlookup]
        rw [gotMasterObject, pocoAssert, if_pos hmain.typ, if_neg Bool.false_ne_true]
        exact hidle.reads hq hnames hcounter
  | _ => cases hm

/-! ### Runs -/

/-- **`keep_chunks` is honoured exactly if** no master object is read that names a piece. -/
theorem keep_honoured_iff (dataCopyCount : ℕ) (rid : ID32) (uuid : UUID) (ims : ID32)
    (es : List Event)
    (hpossible : Run.Along (step dataCopyCount) Possible (start rid uuid true ims) es) :
    Run.Along (step dataCopyCount) (fun s e => ∀ t ∈ s.step dataCopyCount e, t.Spares rid)
        (start rid uuid true ims) es ↔
      Run.Along (step dataCopyCount) (fun s e => ¬ s.ReadsPieces rid e)
        (start rid uuid true ims) es := by
  have hstart : Clean rid (start rid uuid true ims) := by
    refine ⟨List.forall_mem_cons.mpr ⟨nofun, List.forall_mem_nil _⟩, fun id r hr => ?_⟩
    obtain ⟨-, rfl⟩ | ⟨-, hr⟩ := Ledger.eq_or_of_lookup_insert hr
    · rfl
    · cases hr
  constructor
  · intro h
    refine (hpossible.and h).of_invariant (Inv rid uuid true ims)
      (fun s e t hinv hok hstep => inv_step hinv hok.1 hstep)
      (fun s e hinv hok hreads => ?_) inv_start
    obtain ⟨t, hstep, hnot⟩ := reads_step hinv hok.1 hreads
    exact hnot (hok.2 t hstep)
  · intro h
    refine (hpossible.and h).of_invariant (fun s => Inv rid uuid true ims s ∧ Clean rid s)
      (fun s e t hinv hok hstep => ⟨inv_step hinv.1 hok.1 hstep,
        clean_step hinv.1 hinv.2 hok.1 hok.2 hstep⟩)
      (fun s e hinv hok t hstep => ?_) ⟨inv_start, hstart⟩
    exact (clean_step hinv.1 hinv.2 hok.1 hok.2 hstep).spares

/-- An object of the storage is deleted, and then the copies of the peers. -/
theorem keep_honoured_local : Run.Along (step 3) (fun s e => ∀ t ∈ s.step 3 e, t.Spares 0)
    (start 0 5 true 9) [.storageAck 0, .storageDeleted 0, .routerDeleted 0, .routerCancel 0] :=
  (keep_honoured_iff 3 0 5 9 _ (by decide)).mpr
    ⟨fun h => absurd h.2 nofun, fun _ _ => ⟨fun h => absurd h.2 nofun, fun _ _ =>
      ⟨fun h => absurd h.2 nofun, fun _ _ => ⟨fun h => absurd h.2 nofun, fun _ _ => trivial⟩⟩⟩⟩

/-- **An object that only peers have** loses its pieces. -/
theorem not_keep_honoured : ¬ ∀ (dataCopyCount : ℕ) (rid : ID32) (uuid : UUID) (ims : ID32)
    (es : List Event), Run.Along (step dataCopyCount) Possible (start rid uuid true ims) es →
    Run.Along (step dataCopyCount) (fun s e => ∀ t ∈ s.step dataCopyCount e, t.Spares rid)
      (start rid uuid true ims) es := by
  intro h
  have hrun := h 3 0 5 9 [.storageNack 0, .routerGetData 1 (some ⟨some [some 7], .absent⟩) false]
    (by decide)
  have hfails : ¬ Run.Along (step 3) (fun s e => ∀ t ∈ s.step 3 e, t.Spares 0) (start 0 5 true 9)
      [.storageNack 0, .routerGetData 1 (some ⟨some [some 7], .absent⟩) false] := by decide
  exact hfails hrun

end Deletion

end Metax
