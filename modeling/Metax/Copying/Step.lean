import Metax.Copying.Data
import Metax.Library.Run

/-!
# The answers to a copy request

`step` is what the kernel does at an answer of the storage, the key manager or the router. An answer
comes only while something is posted that asks for it (`Possible`): the storage and the key manager
answer once, and so does the router when it has an object; to a `copyRouter`, a `saveRouter` and a
`deleteRouter` it passes on what any number of peers tell, until the tender ends and it cancels. An
answer for a request that is gone is not looked at.
-/

namespace Metax

namespace Copying

variable (random : ℕ → UUID) (dataCopyCount : UInt16) (now : ℕ) (s : Copying)

/-! ### The storage -/

/-- `kernel::handle_storage_positive_response_for_local_request`, with `authenticate_request`, which
finds every request authorized. -/
def handleStoragePositiveResponseForLocalRequest (id : ID32) (r : Request) : Copying :=
  s.postStorageGetRequest id { r with st := .authentication }

/-- The helper request of `kernel::handle_storage_negative_response_for_copy_req`. -/
def helperRequest (uuid : UUID) (preqId : ID32) : Request :=
  { Request.new uuid .lookupInDb .copy .ims now with parentReqId := some preqId }

/-- `kernel::handle_storage_negative_response_for_copy_req`. -/
def handleStorageNegativeResponseForCopyReq (id : ID32) (r : Request) : Option Copying :=
  let r := { r with isLocal := false }
  let s := s.setRequest id r
  if r.typ = .ims then
    match s.getRequestId with
    | (_, none) => none
    | (s, some tmpId) => s.postRouterGetRequest tmpId (helperRequest now r.uuid id)
  else s.postRouterCopyRequest id r

/-- `kernel::handle_storage_negative_response_for_ims_request`, with
`handle_storage_negative_response_for_delete_req` for the deletion of a piece. -/
def handleStorageNegativeResponse (id : ID32) (r : Request) : Option Copying :=
  match r.cmd with
  | .copy => s.handleStorageNegativeResponseForCopyReq now id r
  | .del => some (s.postRouterDeleteRequest dataCopyCount id r)

/-- `kernel::handle_storage_copy_succeeded`. A request of the router is none of this copy. -/
def handleStorageCopySucceeded (id : ID32) (r : Request) : Option Copying :=
  pocoAssert (r.cmd = .copy) <| pocoAssert (r.typ = .kernel) <| pocoAssert (r.updated = 0) <|
    s.handleCopySuccessForPiece dataCopyCount id r

/-- `kernel::handle_storage_no_space_copy`. -/
def handleStorageNoSpaceCopy (id : ID32) (r : Request) : Option Copying :=
  let r := { r with isLocal := false }
  (s.setRequest id r).postRouterCopyRequest id r

/-- `kernel::handle_save_confirm_for_copy_or_remote_request`. -/
def handleSaveConfirmForCopyOrRemoteRequest (id : ID32) (r : Request) : Option Copying :=
  match r.typ with
  | .ims => if r.cmd = .copy then s.handleCopySuccessForMasterObject dataCopyCount id r else some s
  | .kernel => some (s.eraseRequest id)

/-- `kernel::handle_no_space_for_copy_or_remote_request`. -/
def handleNoSpaceForCopyOrRemoteRequest (id : ID32) (r : Request) : Option Copying :=
  match r.typ with
  | .ims => if r.cmd = .copy then some (s.backupData id r dataCopyCount) else some s
  | .kernel => s.postRouterCopyRequest id r

/-- `kernel::handle_storage_deleted`, with `handle_storage_deleted_response_for_kernel_request`. -/
def handleStorageDeleted (id : ID32) (r : Request) : Option Copying :=
  pocoAssert (r.cmd = .del ∧ r.typ = .kernel) <|
    let r := { r with updated := r.updated + 1 }
    some (((s.setRequest id r).handleDeletedResponseForKernelRequest id r).postRouterDeleteRequest
      dataCopyCount id r)

/-! ### The router -/

/-- `kernel::process_received_master_object_from_router`, for what is not a get request. -/
def processReceivedMasterObjectFromRouter (id : ID32) (r : Request) (m : Option Master)
    (key : Option AesKey) : Option Copying :=
  match r.parentReqId with
  | none => some s
  | some p => match s.requests.lookup p with
    | none => some s
    | some q => (s.eraseRequest id).gotMasterObject random dataCopyCount now p q m key

/-- `kernel::handle_router_save_offer`, with
`kernel::handle_master_object_save_offer_for_copy_request`. -/
def handleRouterSaveOffer (id : ID32) (r : Request) : Option Copying :=
  pocoAssert (r.cmd = .copy) <| some (s.write (.saveData id r.uuid r.data))

/-- `kernel::handle_router_auth_request`. -/
def handleRouterAuthRequest (id : ID32) (r : Request) (winnersCount : UInt16) : Copying :=
  (s.setRequest id { r with
    winnersCount := r.winnersCount + winnersCount
    st := .receiving }).write (.authData id r.uuid)

/-- `kernel::handle_router_save_confirm_for_request_object`. -/
def handleRouterSaveConfirmForRequestObject (id : ID32) (r : Request) : Option Copying :=
  match r.cmd with
  | .copy => s.handleCopySuccessForMasterObject dataCopyCount id r
  | .del => some s

/-- `kernel::handle_router_copy_succeeded`. -/
def handleRouterCopySucceeded (id : ID32) (r : Request) : Option Copying :=
  pocoAssert (r.cmd = .copy ∧ r.typ = .kernel) <| s.handleCopySuccessForPiece dataCopyCount id r

/-- `kernel::handle_router_deleted`. -/
def handleRouterDeleted (id : ID32) (r : Request) : Option Copying :=
  pocoAssert (r.cmd = .del ∧ r.typ = .kernel) <|
    some ((s.handleDeletedResponseForKernelRequest id r).setRequest id
      { r with updated := r.updated + 1 })

/-- `kernel::handle_router_cancel`. A request of the kernel without a parent takes another way to
the same end. -/
def handleRouterCancel (id : ID32) (r : Request) : Option Copying :=
  let r := { r with failCount := r.failCount + 1 }
  (s.setRequest id r).handleFailedRequest now id r

/-! ### Steps -/

/-- The answers, and what other requests do to the counter. -/
inductive Event
  | elsewhere (counter : ID32)
  | storageAck (id : ID32)
  | storageNack (id : ID32)
  | storageGetData (id : ID32) (m : Option Master) (key : Option AesKey)
  | storageCopySucceeded (id : ID32)
  | storageNoSpaceCopy (id : ID32)
  | storageSaveConfirm (id : ID32)
  | storageNoSpace (id : ID32)
  | storageDeleted (id : ID32)
  | storageFailed (id : ID32)
  | decrypted (id : ID32) (m : Option Master)
  | decryptionFail (id : ID32) (err : String)
  | encrypted (id : ID32)
  | routerGetData (id : ID32) (m : Option Master) (key : Option AesKey)
  | routerAuth (id : ID32) (winnersCount : UInt16)
  | routerCopySucceeded (id : ID32)
  | routerSaveOffer (id : ID32)
  | routerSaveConfirm (id : ID32)
  | routerDeleted (id : ID32)
  | routerCancel (id : ID32)

/-- The request that is answered. -/
def Event.target : Event → Option ID32
  | .elsewhere _ => none
  | .storageAck id | .storageNack id | .storageGetData id _ _ | .storageCopySucceeded id
  | .storageNoSpaceCopy id | .storageSaveConfirm id | .storageNoSpace id | .storageDeleted id
  | .storageFailed id | .decrypted id _ | .decryptionFail id _ | .encrypted id
  | .routerGetData id _ _ | .routerAuth id _ | .routerCopySucceeded id | .routerSaveOffer id
  | .routerSaveConfirm id | .routerDeleted id | .routerCancel id => some id

/-- What is posted can be answered so. -/
def Event.answers : Event → Post → Bool
  | .storageAck _, .lookUp => true
  | .storageNack _, .lookUp => true
  | .storageNack _, .getStorage => true
  | .storageNack _, .copyStorage => true
  | .storageNack _, .deleteStorage => true
  | .storageGetData _ _ _, .getStorage => true
  | .storageCopySucceeded _, .copyStorage => true
  | .storageNoSpaceCopy _, .copyStorage => true
  | .storageSaveConfirm _, .saveStorage => true
  | .storageNoSpace _, .saveStorage => true
  | .storageDeleted _, .deleteStorage => true
  | .storageFailed _, .lookUp => true
  | .storageFailed _, .getStorage => true
  | .storageFailed _, .copyStorage => true
  | .storageFailed _, .saveStorage => true
  | .storageFailed _, .deleteStorage => true
  | .decrypted _ _, .decrypt => true
  | .decryptionFail _ _, .decrypt => true
  | .encrypted _, .encrypt _ => true
  | .routerGetData _ _ _, .getRouter => true
  | .routerAuth _ _, .copyRouter => true
  | .routerAuth _ _, .deleteRouter => true
  | .routerCopySucceeded _, .copyRouter => true
  | .routerSaveOffer _, .saveRouter => true
  | .routerSaveConfirm _, .saveRouter => true
  | .routerDeleted _, .deleteRouter => true
  | .routerCancel _, .getRouter => true
  | .routerCancel _, .copyRouter => true
  | .routerCancel _, .saveRouter => true
  | .routerCancel _, .deleteRouter => true
  | _, _ => false

/-- The answer is one to something that is posted. -/
def Possible (e : Event) : Prop :=
  ∀ id ∈ e.target, ∃ p ∈ s.posted.lookup id, e.answers p = true

instance (e : Event) : Decidable (s.Possible e) :=
  inferInstanceAs (Decidable (∀ id ∈ e.target, ∃ p ∈ s.posted.lookup id, e.answers p = true))

/-- What is still posted when the answer was taken: a tender goes on after what a peer tells. -/
def received : Event → Copying
  | .elsewhere _ | .routerAuth _ _ | .routerCopySucceeded _ | .routerSaveOffer _
  | .routerSaveConfirm _ | .routerDeleted _ => s
  | e => e.target.elim s s.answered

/-- A handler finds its request, or it does nothing. -/
def withRequest (id : ID32) (f : Request → Option Copying) : Option Copying :=
  (s.requests.lookup id).elim (some s) f

/-- An answer is handled. `post` is what it answers. -/
def handle (post : Option Post) : Event → Option Copying
  | .elsewhere counter => some { s with requestCounter := counter }
  | .storageAck id => s.withRequest id fun r =>
    some (s.handleStoragePositiveResponseForLocalRequest id r)
  | .storageNack id => s.withRequest id fun r =>
    s.handleStorageNegativeResponse dataCopyCount now id r
  | .storageGetData id m key => s.withRequest id fun r =>
    s.gotMasterObject random dataCopyCount now id r m key
  | .storageCopySucceeded id => s.withRequest id fun r =>
    s.handleStorageCopySucceeded dataCopyCount id r
  | .storageNoSpaceCopy id => s.withRequest id fun r => s.handleStorageNoSpaceCopy id r
  | .storageSaveConfirm id => s.withRequest id fun r =>
    s.handleSaveConfirmForCopyOrRemoteRequest dataCopyCount id r
  | .storageNoSpace id => s.withRequest id fun r =>
    s.handleNoSpaceForCopyOrRemoteRequest dataCopyCount id r
  | .storageDeleted id => s.withRequest id fun r => s.handleStorageDeleted dataCopyCount id r
  | .storageFailed id => s.withRequest id fun r => s.handleFailedRequest now id r
  | .decrypted id m => (s.requests.lookup id).bind fun r =>
    s.handleUnencryptedMasterObject random dataCopyCount now id r m
  | .decryptionFail id err => (s.requests.lookup id).bind fun r =>
    s.sendImsCopyFailedResponse now id r err
  | .encrypted id => (s.requests.lookup id).bind fun r =>
    match post with
    | some (.encrypt c) => s.handleCopyOfEncryptedMasterObject dataCopyCount id r c
    | _ => some s
  | .routerGetData id m key => s.withRequest id fun r =>
    s.processReceivedMasterObjectFromRouter random dataCopyCount now id r m key
  | .routerAuth id winnersCount => s.withRequest id fun r =>
    some (s.handleRouterAuthRequest id r winnersCount)
  | .routerCopySucceeded id => s.withRequest id fun r =>
    s.handleRouterCopySucceeded dataCopyCount id r
  | .routerSaveOffer id => s.withRequest id fun r => s.handleRouterSaveOffer id r
  | .routerSaveConfirm id => s.withRequest id fun r =>
    s.handleRouterSaveConfirmForRequestObject dataCopyCount id r
  | .routerDeleted id => s.withRequest id fun r => s.handleRouterDeleted id r
  | .routerCancel id => s.withRequest id fun r => s.handleRouterCancel now id r

/-- **A step** of the kernel, at the time `now`. -/
def step (e : Event × ℕ) : Option Copying :=
  (s.received e.1).handle random dataCopyCount e.2 (e.1.target.bind s.posted.lookup) e.1

/-- `kernel::handle_ims_copy_request`, as the first thing of a run: the first uuid of the generator
is the one of the copy. -/
def start (id : ID32) (uuid : UUID) (expireDate : ℕ) (isLocal : Bool) (ims : ID32) : Copying :=
  let r := { Request.new uuid .lookupInDb .copy .ims now with
    copyUuid := random 0
    expireDate := expireDate
    isLocal := isLocal }
  (setRequest ⟨Deletion.nextCounter id, 1, ∅, (∅ : Ledger.Table ID32 ID32).insert id ims, ∅, []⟩ id
    r).postStorageLookUpRequest id r

end Copying

end Metax
