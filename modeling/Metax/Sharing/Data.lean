import Metax.Deletion.Data
import Metax.KeyManager.Task
import Metax.Library.Run

/-!
# Sharing an object

Whoever has the key of an object in the user json can share it. The IMS names the object and the
public key of another user; the kernel has the key manager encrypt the key of the object with that
public key, and the IMS is given the result. How it gets to the other user is not the program's
business. There the IMS hands it to the kernel, whose key manager decrypts it, and the key is
written to the user json. From then on that user can share the object, too.

Many nodes take part. A `Node` is a kernel, as far as sharing uses it, and a key manager. What the
kernel sends the key manager waits in `toKeyManager`, and the replies wait in `out` of the key
manager. Saving, updating and deleting objects only shows in what is written to the user json, and
other requests only in the counter of the ids. A failed assertion ends the process: the step is
`none`.
-/

namespace Metax

namespace Sharing

open Ledger (Table)

/-- What the user json has under `owned_data` of an object. -/
structure Owned where
  aesKey : Text
  aesIv : Text
  copyCount : ℕ
  deriving DecidableEq

/-- A request to share an object, or to accept one. -/
structure Request where
  uuid : UUID
  cmd : Command
  aesKey : Text
  aesIv : Text
  deriving DecidableEq

/-- A package from the IMS or to it. -/
structure ImsPackage where
  requestId : ID32
  cmd : Command
  uuid : UUID
  aesKey : Text
  aesIv : Text
  message : Option Text
  deriving DecidableEq

/-- The kernel. `asked` are the packages the IMS has sent, and `toIms`, `toUserManager` what was
sent to the IMS and to the user manager, oldest first. -/
structure Kernel where
  requestCounter : ID32
  requests : Table ID32 Request
  imsReqIds : Table ID32 ID32
  ownedData : Table UUID Owned
  toKeyManager : List KeyManager.Message
  toIms : List ImsPackage
  toUserManager : List (UUID × Owned)
  asked : List ImsPackage

/-- A node. -/
structure Node (C : Type) where
  kernel : Kernel
  keyManager : KeyManager.State C

namespace Kernel

variable (s : Kernel)

/-- `kernel::get_request_id`. -/
def getRequestId : Option (ID32 × Kernel) :=
  (Deletion.takeRequestId s.requests s.requestCounter).map fun (id, c) =>
    (id, { s with requestCounter := c })

/-- `kernel::add_shared_info_in_user_json`, for a request that is not local. -/
def addSharedInfoInUserJson (uuid : UUID) (o : Owned) : Kernel :=
  { s with
    ownedData := s.ownedData.insert uuid o
    toUserManager := s.toUserManager ++ [(uuid, o)] }

/-- A request has its answer: it is erased, and so is the id it has in the IMS. -/
def answer (id : ID32) (p : ImsPackage) : Kernel :=
  { s with
    requests := s.requests.erase id
    imsReqIds := s.imsReqIds.erase id
    toIms := s.toIms ++ [p] }

/-- A request of the IMS is noted. -/
def note (id ims : ID32) (r : Request) : Kernel :=
  { s with
    requests := s.requests.insert id r
    imsReqIds := s.imsReqIds.insert id ims }

/-- A message to the key manager. -/
def order (m : KeyManager.Message) : Kernel := { s with toKeyManager := s.toKeyManager ++ [m] }

/-! ### Sharing -/

/-- `kernel::send_ims_share_confirm`. -/
def sendImsShareConfirm (id : ID32) (r : Request) : Option Kernel :=
  pocoAssert (r.cmd = .share) <| (s.imsReqIds.lookup id).map fun ims =>
    s.answer id ⟨ims, .shareConfirm, r.uuid, r.aesKey, r.aesIv, none⟩

/-- `kernel::handle_failed_share_request`. -/
def handleFailedShareRequest (id : ID32) (r : Request) : Option Kernel :=
  (s.imsReqIds.lookup id).map fun ims => s.answer id ⟨ims, .shareFail, r.uuid, [], [],
    some ("Fail to share uuid=" ++ r.uuid.toString).toList⟩

/-- `kernel::process_share_request`. -/
def processShareRequest (id : ID32) (r : Request) (p : ImsPackage) : Option Kernel :=
  pocoAssert (r.cmd = .share) <|
    if r.aesKey = [] ∧ r.aesIv = [] then s.sendImsShareConfirm id r
    else some (s.order ⟨id, .reencryptKey, 0, r.aesKey, r.aesIv, p.message, 0⟩)

/-- `kernel::handle_ims_share_request`, with `kernel::get_master_info_from_user_json` and
`kernel::get_keys_from_master_info`. -/
def handleImsShareRequest (p : ImsPackage) : Option Kernel :=
  s.getRequestId.bind fun (id, s) => pocoAssert (s.imsReqIds.lookup id = none) <|
    match s.ownedData.lookup p.uuid with
    | none =>
      let r : Request := ⟨p.uuid, .share, [], []⟩
      (s.note id p.requestId r).handleFailedShareRequest id r
    | some o =>
      let r : Request := ⟨p.uuid, .share, o.aesKey, o.aesIv⟩
      (s.note id p.requestId r).processShareRequest id r p

/-! ### Accepting -/

/-- `kernel::handle_share_accept_for_public_data`. -/
def handleShareAcceptForPublicData (id : ID32) (r : Request) (ims : ID32) : Kernel :=
  { s.addSharedInfoInUserJson r.uuid ⟨[], [], 1⟩ with
    requests := s.requests.erase id
    toIms := s.toIms ++ [⟨ims, .shareAccepted, 0, [], [], none⟩] }

/-- `kernel::process_ims_accept_share_request`. -/
def processImsAcceptShareRequest (p : ImsPackage) : Option Kernel :=
  s.getRequestId.bind fun (id, s) =>
    let r : Request := ⟨p.uuid, .acceptShare, [], []⟩
    if p.aesKey = [] ∧ p.aesIv = [] then
      some (s.handleShareAcceptForPublicData id r p.requestId)
    else pocoAssert (s.imsReqIds.lookup id = none) <|
      some ((s.note id p.requestId r).order ⟨id, .decryptKey, 0, p.aesKey, p.aesIv, none, 0⟩)

/-- `kernel::handle_ims_accept_share_request`. -/
def handleImsAcceptShareRequest (p : ImsPackage) : Option Kernel :=
  if p.uuid = 0 then
    some { s with toIms := s.toIms ++
      [⟨p.requestId, .acceptShareFail, 0, [], [], some "Invalid uuid".toList⟩] }
  else s.processImsAcceptShareRequest p

/-- `kernel::process_ims_input`, for these two commands. -/
def processImsInput (p : ImsPackage) : Option Kernel :=
  let s := { s with asked := s.asked ++ [p] }
  match p.cmd with
  | .share => s.handleImsShareRequest p
  | .acceptShare => s.handleImsAcceptShareRequest p
  | _ => none

/-! ### Replies of the key manager -/

/-- `kernel::handle_key_manager_reencrypted_key_request`. -/
def handleKeyManagerReencryptedKeyRequest (r : Request) (m : KeyManager.Message) : Option Kernel :=
  pocoAssert (m.aesKey ≠ [] ∧ m.aesIv ≠ []) <|
    s.sendImsShareConfirm m.requestId { r with aesKey := m.aesKey, aesIv := m.aesIv }

/-- `kernel::handle_key_manager_failed_share_request`. -/
def handleKeyManagerFailedShareRequest (r : Request) (m : KeyManager.Message) : Kernel :=
  match s.imsReqIds.lookup m.requestId with
  | none => s
  | some ims => s.answer m.requestId ⟨ims, .shareFail, r.uuid, [], [], m.message⟩

/-- `kernel::handle_decrypted_key`. -/
def handleDecryptedKey (r : Request) (m : KeyManager.Message) : Option Kernel :=
  (s.imsReqIds.lookup m.requestId).map fun ims =>
    (s.addSharedInfoInUserJson r.uuid ⟨m.aesKey, m.aesIv, 1⟩).answer m.requestId
      ⟨ims, .shareAccepted, 0, [], [], none⟩

/-- `kernel::handle_key_decryption_fail`. -/
def handleKeyDecryptionFail (m : KeyManager.Message) : Option Kernel :=
  (s.imsReqIds.lookup m.requestId).map fun ims => s.answer m.requestId
    ⟨ims, .acceptShareFail, 0, [], [], some ("Could not decrypt key: ".toList ++ m.data)⟩

/-- `kernel::process_key_manager_input`, for the replies these requests can have. What the request
is not for is only warned of. -/
def processKeyManagerInput (m : KeyManager.Message) : Option Kernel :=
  match s.requests.lookup m.requestId with
  | none => some s
  | some r =>
    match m.cmd with
    | .reencryptedKey => s.handleKeyManagerReencryptedKeyRequest r m
    | .reencryptionFail => some (s.handleKeyManagerFailedShareRequest r m)
    | .decrypted => if r.cmd = .acceptShare then s.handleDecryptedKey r m else some s
    | .decryptionFail => if r.cmd = .acceptShare then s.handleKeyDecryptionFail m else some s
    | _ => none

end Kernel

/-! ### Nodes -/

/-- What happens at a node: a package of the IMS, the key manager handles a package of the kernel,
or the kernel a reply. Besides, an object is saved or updated with a key, or deleted, and other
requests take ids. The library is given as it is when the key manager uses it. -/
inductive Event (C : Type)
  | ims (p : ImsPackage)
  | keyManager (L : KeyManager.Libs C) (F : KeyManager.Faults)
  | reply
  | saved (uuid : UUID) (o : Owned)
  | deleted (uuid : UUID)
  | elsewhere (requestCounter : ID32)

namespace Node

variable {C : Type}

/-- **A step** of a node. -/
def step (n : Node C) : Event C → Option (Node C)
  | .ims p => (n.kernel.processImsInput p).map fun k => { n with kernel := k }
  | .keyManager L F =>
    match n.kernel.toKeyManager with
    | [] => none
    | m :: ms => (KeyManager.handleKernelInput L F n.keyManager m).map fun t =>
      ⟨{ n.kernel with toKeyManager := ms }, t⟩
  | .reply =>
    match n.keyManager.out with
    | [] => none
    | m :: ms => (n.kernel.processKeyManagerInput m).map fun k =>
      ⟨k, { n.keyManager with out := ms }⟩
  | .saved uuid o => some { n with kernel := n.kernel.addSharedInfoInUserJson uuid o }
  | .deleted uuid =>
    some { n with kernel := { n.kernel with ownedData := n.kernel.ownedData.erase uuid } }
  | .elsewhere c => some { n with kernel := { n.kernel with requestCounter := c } }

end Node

/-- A node at the start, with the keys its user has. -/
def Node.init {C : Type} (t : KeyManager.State C) (requestCounter : ID32) : Node C where
  kernel := {
    requestCounter := requestCounter
    requests := ∅
    imsReqIds := ∅
    ownedData := ∅
    toKeyManager := []
    toIms := []
    toUserManager := []
    asked := [] }
  keyManager := { t with out := [] }

end Sharing

end Metax
