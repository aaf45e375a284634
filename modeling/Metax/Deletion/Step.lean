import Metax.Deletion.Data
import Metax.Library.Run

/-!
# The answers to a delete request

`step` is what the kernel does at an answer of the storage, the key manager or the router. An answer
comes only while something is posted that asks for it (`Possible`): the storage and the key manager
answer once, and so does the router when it has an object; to a `deleteRouter` it passes on what any
number of peers tell, until the tender ends and it cancels. An answer for a request that is gone is
not looked at.
-/

namespace Metax

namespace Deletion

variable (dataCopyCount : ℕ) (s : Deletion)

/-! ### The storage -/

/-- `kernel::handle_storage_positive_response_for_local_request`. -/
def handleStoragePositiveResponseForLocalRequest (id : ID32) (r : Request) : Deletion :=
  if r.keepChunks then s.postStorageDeleteRequest id r else s.postStorageGetRequest id r

/-- The helper request of `kernel::handle_storage_negative_response_for_delete_req`. -/
def helperRequest (uuid : UUID) (preqId : ID32) : Request :=
  { Request.new uuid .lookupInDb .ims with parentReqId := some preqId, isLocal := false }

/-- `kernel::handle_storage_negative_response_for_delete_req`. -/
def handleStorageNegativeResponseForDeleteReq (id : ID32) (r : Request) : Option Deletion :=
  if r.typ = .ims ∧ r.oldMasterJson = none then
    match s.getRequestId with
    | (_, none) => none
    | (s, some tmpId) => s.postRouterGetRequest tmpId (helperRequest r.uuid id)
  else some (s.postRouterDeleteRequest dataCopyCount id r)

/-- `kernel::handle_storage_deleted`. -/
def handleStorageDeleted (id : ID32) (r : Request) : Deletion :=
  let r := { r with updated := r.updated + 1 }
  ((s.setRequest id r).handleDeletedResponse id r).postRouterDeleteRequest dataCopyCount id r

/-! ### The router -/

/-- `kernel::process_received_master_object_from_router`, for what is not a get request. -/
def processReceivedMasterObjectFromRouter (id : ID32) (r : Request) (m : Option Master)
    (encrypted : Bool) : Option Deletion :=
  match r.parentReqId with
  | none => some s
  | some p => match s.requests.lookup p with
    | none => some s
    | some q => (s.eraseRequest id).gotMasterObject dataCopyCount p q m encrypted

/-- `kernel::handle_router_deleted`. -/
def handleRouterDeleted (id : ID32) (r : Request) : Deletion :=
  (s.handleDeletedResponse id r).countUpdated id

/-- `kernel::handle_router_cancel`. -/
def handleRouterCancel (id : ID32) (r : Request) : Option Deletion :=
  let r := { r with failCount := r.failCount + 1 }
  (s.setRequest id r).handleFailedDeleteRequest id r

/-! ### Steps -/

/-- The answers, and what other requests do to the counter. -/
inductive Event
  | elsewhere (counter : ID32)
  | storageAck (id : ID32)
  | storageNack (id : ID32)
  | storageGetData (id : ID32) (m : Option Master) (encrypted : Bool)
  | storageDeleted (id : ID32)
  | storageFailed (id : ID32)
  | decrypted (id : ID32) (m : Option Master)
  | decryptionFail (id : ID32)
  | routerGetData (id : ID32) (m : Option Master) (encrypted : Bool)
  | routerDeleted (id : ID32)
  | routerCancel (id : ID32)
  deriving DecidableEq

/-- What is posted can be answered so. -/
def Event.Answers : Event → Post → Prop
  | .elsewhere _, _ => False
  | .storageAck _, p => p = .lookUp
  | .storageNack _, p => p = .lookUp ∨ p = .getStorage ∨ p = .deleteStorage
  | .storageGetData _ _ _, p => p = .getStorage
  | .storageDeleted _, p => p = .deleteStorage
  | .storageFailed _, p => p = .lookUp ∨ p = .getStorage ∨ p = .deleteStorage
  | .decrypted _ _, p => p = .decrypt
  | .decryptionFail _, p => p = .decrypt
  | .routerGetData _ _ _, p => p = .getRouter
  | .routerDeleted _, p => p = .deleteRouter
  | .routerCancel _, p => p = .getRouter ∨ p = .deleteRouter

instance : ∀ (e : Event) (p : Post), Decidable (e.Answers p)
  | .elsewhere _, _ => .isFalse id
  | .storageAck _, p | .storageGetData _ _ _, p | .storageDeleted _, p | .decrypted _ _, p
  | .decryptionFail _, p | .routerGetData _ _ _, p | .routerDeleted _, p =>
    inferInstanceAs (Decidable (p = _))
  | .storageNack _, p | .storageFailed _, p => inferInstanceAs (Decidable (p = _ ∨ p = _ ∨ p = _))
  | .routerCancel _, p => inferInstanceAs (Decidable (p = _ ∨ p = _))

/-- The request that is answered. -/
def Event.target : Event → Option ID32
  | .elsewhere _ => none
  | .storageAck id | .storageNack id | .storageGetData id _ _ | .storageDeleted id
  | .storageFailed id | .decrypted id _ | .decryptionFail id | .routerGetData id _ _
  | .routerDeleted id | .routerCancel id => some id

/-- The answer is one to something that is posted. -/
def Possible (e : Event) : Prop :=
  ∀ id ∈ e.target, ∃ p ∈ s.posted.lookup id, e.Answers p

instance (e : Event) : Decidable (s.Possible e) :=
  have : ∀ id : ID32, Decidable (∃ p ∈ s.posted.lookup id, e.Answers p) := fun _ =>
    Option.decidableExistsMem _
  Option.decidableForallMem _

/-- What is still posted when the answer was taken: a delete tender goes on after a peer tells that
it has deleted its copy. -/
def received : Event → Deletion
  | .elsewhere _ | .routerDeleted _ => s
  | e => e.target.elim s s.answered

/-- A handler finds its request, or it does nothing. -/
def withRequest (id : ID32) (f : Request → Option Deletion) : Option Deletion :=
  (s.requests.lookup id).elim (some s) f

/-- **A step**: an answer is handled. -/
def handle : Event → Option Deletion
  | .elsewhere counter => some { s with requestCounter := counter }
  | .storageAck id => s.withRequest id fun r =>
    some (s.handleStoragePositiveResponseForLocalRequest id r)
  | .storageNack id => s.withRequest id fun r =>
    s.handleStorageNegativeResponseForDeleteReq dataCopyCount id r
  | .storageGetData id m encrypted => s.withRequest id fun r =>
    s.gotMasterObject dataCopyCount id r m encrypted
  | .storageDeleted id => s.withRequest id fun r =>
    some ((s.write (.copyDeleted id)).handleStorageDeleted dataCopyCount id r)
  | .storageFailed id => s.withRequest id fun r => s.handleFailedDeleteRequest id r
  | .decrypted id m => (s.requests.lookup id).bind fun r =>
    s.handleUnencryptedMasterObject dataCopyCount id r m
  | .decryptionFail id => (s.requests.lookup id).bind fun r =>
    s.handleDecryptionFailForDeleteRequest id r
  | .routerGetData id m encrypted => s.withRequest id fun r =>
    s.processReceivedMasterObjectFromRouter dataCopyCount id r m encrypted
  | .routerDeleted id => s.withRequest id fun r =>
    some ((s.write (.copyDeleted id)).handleRouterDeleted id r)
  | .routerCancel id => s.withRequest id fun r => s.handleRouterCancel id r

/-- **A step** of the kernel. -/
def step (e : Event) : Option Deletion := (s.received e).handle dataCopyCount e

/-- `kernel::handle_ims_delete_request`, as the first thing of a run. The ids that other requests
hold are no concern of it. -/
def start (id : ID32) (uuid : UUID) (keepChunks : Bool) (ims : ID32) : Deletion :=
  let d := { Request.new uuid .lookupInDb .ims with keepChunks := keepChunks }
  (setRequest ⟨nextCounter id, ∅, (∅ : Ledger.Table ID32 ID32).insert id ims, ∅, []⟩ id
    d).postStorageLookUpRequest id d

end Deletion

end Metax
