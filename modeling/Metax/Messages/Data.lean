import Metax.Deletion.Data
import Metax.KeyManager.Task
import Metax.Library.Run

/-!
# Messages to other users, and listeners of updates

Users are addressed by their public keys. To send one a message, the kernel has the router look for
a peer with this key; a node that is asked compares it with its own, and if it is the same, the
message is sent there and given to the IMS, which confirms it.

A node that has an object keeps a list of those who want to be told of its updates: its own IMS,
which is an empty text in the list, and public keys of others. Who wants to be told but does not
have the object asks the other nodes to be put on their lists. When the object is updated or
deleted, the IMS is told, and the keys are sent to all nodes, each of which compares them with its
own and then tells its IMS, or its user manager if the object is the user json.

This file has the handlers of the kernel for all this. What the storage, the key manager and the
configuration manager answer is worked out here, and a request says in `place` which of them it
waits for. A failed assertion ends the process: the step is `none`.
-/

namespace Metax

namespace Messages

open Ledger (Table)
open Text (cString)

/-- Where a request comes from. -/
inductive RequestType
  | ims
  | kernel
  | router
  | userManager
  deriving DecidableEq

/-- The task of the node a request waits for. -/
inductive Place
  | idle
  | storage
  | config
  | keyManager
  deriving DecidableEq

/-- A request of the kernel, as far as these commands use it. -/
structure Request where
  uuid : UUID
  cmd : Command
  typ : RequestType
  data : Text
  version : ℕ
  place : Place
  deriving DecidableEq

/-- What has happened: the IMS has sent a package that is to be answered, which was a message to a
user; a package was sent to the IMS, to the router or to the user manager; somebody was put on the
list of an object or taken off it, or the list was removed. -/
inductive Entry
  | asked (ims : ID32)
  | sent (id ims : ID32) (userId data : Text)
  | ims (requestId : ID32) (cmd : Command) (uuid : UUID) (payload : Text)
  | router (requestId : ID32) (cmd : Command) (uuid : UUID) (payload : Text) (version : ℕ)
  | userManager (version : ℕ)
  | registered (uuid : UUID) (listener : Text)
  | unregistered (uuid : UUID) (listener : Text)
  | forgotten (uuid : UUID)
  deriving DecidableEq

/-- The kernel, and the file with the public key of its user. The newest entry of `log` is its
first. -/
structure Kernel where
  userJsonUuid : UUID
  publicPem : Option Text
  requestCounter : ID32
  requests : Table ID32 Request
  imsReqIds : Table ID32 ID32
  updateListeners : Table UUID (List Text)
  log : List Entry

/-- The kernel at the start. -/
def Kernel.init (userJsonUuid : UUID) (publicPem : Option Text) (requestCounter : ID32) :
    Kernel where
  userJsonUuid := userJsonUuid
  publicPem := publicPem
  requestCounter := requestCounter
  requests := ∅
  imsReqIds := ∅
  updateListeners := ∅
  log := []

/-- The text of an event. -/
def eventText (event : String) (uuid : UUID) : Text :=
  ("\x7b\"event\":\"" ++ event ++ "\",\"uuid\":\"" ++ uuid.toString ++ "\"\x7d").toList

namespace Kernel

variable (s : Kernel)

/-- Write an entry. -/
def write (e : Entry) : Kernel := { s with log := e :: s.log }

/-- Write a request back. -/
def setRequest (id : ID32) (r : Request) : Kernel :=
  { s with requests := s.requests.insert id r }

/-- `m_requests.erase`. -/
def eraseRequest (id : ID32) : Kernel := { s with requests := s.requests.erase id }

/-- `m_ims_req_ids.erase`. -/
def eraseImsReqId (id : ID32) : Kernel := { s with imsReqIds := s.imsReqIds.erase id }

/-- `kernel::post_router_clear_request`. -/
def postRouterClearRequest (id : ID32) : Kernel := s.write (.router id .clearRequest 0 [] 0)

/-- `kernel::get_request_id`. -/
def getRequestId : Option (ID32 × Kernel) :=
  (Deletion.takeRequestId s.requests s.requestCounter).map fun (id, c) =>
    (id, { s with requestCounter := c })

variable {s} in
theorem getRequestId_eq_some {t : Kernel} {id : ID32} (h : s.getRequestId = some (id, t)) :
    s.requests.lookup s.requestCounter = none ∧ id = s.requestCounter ∧
      t = { s with requestCounter := Deletion.nextCounter s.requestCounter } := by
  obtain ⟨⟨i, c⟩, hget, ht⟩ := Option.map_eq_some_iff.mp h
  obtain ⟨hfresh, rfl, rfl⟩ := Deletion.takeRequestId_eq_some.mp hget
  obtain ⟨rfl, rfl⟩ := Prod.mk.inj ht
  exact ⟨hfresh, rfl, rfl⟩

/-- A new request of the IMS, with the id it has there. -/
def openImsRequest (ims : ID32) (r : Request) : Option (ID32 × Kernel) :=
  (s.getRequestId).map fun (id, t) =>
    (id, { t.setRequest id r with imsReqIds := t.imsReqIds.insert id ims })

/-- The public key of the user, as it is in the file. -/
def ownKey : Text := KeyManager.trim (s.publicPem.getD [])

/-! ### The lists -/

/-- The listeners of an object. -/
def listeners (uuid : UUID) : List Text := (s.updateListeners.lookup uuid).getD []

/-- `kernel::add_update_listener`. -/
def addUpdateListener (uuid : UUID) (p : Text) : Kernel :=
  let parr := s.listeners uuid
  { s with
    updateListeners := s.updateListeners.insert uuid (if parr.contains p then parr else parr ++ [p])
    }.write (.registered uuid p)

/-- `kernel::remove_update_listener`. A list that gets empty is removed. -/
def removeUpdateListener (uuid : UUID) (p : Text) : Kernel × Bool :=
  let parr := s.listeners uuid
  if parr.contains p then
    let rest := parr.erase p
    ({ s with
      updateListeners := if rest = [] then s.updateListeners.erase uuid
        else s.updateListeners.insert uuid rest }.write (.unregistered uuid p), true)
  else (s, false)

/-- The request of `kernel::create_request_for_update_notification`. -/
def notification (uuid : UUID) (cmd : Command) : Request :=
  ⟨uuid, .sendToPeer, .kernel, eventText (if cmd = .update then "updated" else "deleted") uuid, 0,
    .idle⟩

/-- The loop body of `kernel::notify_update`. -/
def notifyListener (uuid : UUID) (cmd : Command) (version : ℕ) (s : Kernel) (p : Text) :
    Option Kernel :=
  (s.getRequestId).map fun (id, t) =>
    let r := notification uuid cmd
    let t := t.setRequest id r
    if p = [] then t.write (.ims id .sendToPeer 0 r.data)
    else t.write
      (.router id (if cmd = .update then .notifyUpdate else .notifyDelete) uuid p version)

/-- `kernel::notify_update`. -/
def notifyUpdate (uuid : UUID) (cmd : Command) (version : ℕ) : Option Kernel :=
  pocoAssert (cmd = .update ∨ cmd = .del) <|
    match s.updateListeners.lookup uuid with
    | none => some s
    | some parr => (parr.foldlM (notifyListener uuid cmd version) s).map fun t =>
      if cmd = .del then
        { t with updateListeners := t.updateListeners.erase uuid }.write (.forgotten uuid)
      else t

/-! ### Registration, for the own IMS -/

/-- `kernel::send_ims_on_update_register_response`. -/
def sendImsOnUpdateRegisterResponse (id : ID32) (r : Request) : Option Kernel :=
  (s.imsReqIds.lookup id).map fun ims =>
    ((s.write (.ims ims .onUpdateRegistered r.uuid [])).eraseImsReqId id).eraseRequest id

/-- `kernel::handle_failed_on_update_register_request`. -/
def handleFailedOnUpdateRegisterRequest (id : ID32) (err : Text) : Option Kernel :=
  (s.imsReqIds.lookup id).map fun ims =>
    ((s.write (.ims ims .onUpdateRegisterFail 0 err)).eraseImsReqId id).eraseRequest id

/-- `kernel::handle_failed_on_update_unregister_request`. -/
def handleFailedOnUpdateUnregisterRequest (id : ID32) (r : Request) (err : Text) : Option Kernel :=
  (s.imsReqIds.lookup id).map fun ims =>
    ((s.write (.ims ims .onUpdateUnregisterFail r.uuid err)).eraseImsReqId id).eraseRequest id

/-- `kernel::handle_ims_register_on_update_request`, with `kernel::post_storage_look_up_request`. -/
def handleImsRegisterOnUpdateRequest (ims : ID32) (uuid : UUID) : Option Kernel :=
  (s.openImsRequest ims ⟨uuid, .onUpdateRegister, .ims, [], 0, .storage⟩).map Prod.snd

/-- `kernel::handle_ims_unregister_on_update_request`, with
`kernel::post_config_get_public_key_request`. -/
def handleImsUnregisterOnUpdateRequest (ims : ID32) (uuid : UUID) : Option Kernel :=
  let (t, b) := s.removeUpdateListener uuid []
  if b then some (t.write (.ims ims .onUpdateUnregistered uuid []))
  else (t.openImsRequest ims ⟨uuid, .onUpdateUnregister, .ims, [], 0, .config⟩).map Prod.snd

/-- `kernel::handle_user_manager_on_update_register`. -/
def handleUserManagerOnUpdateRegister (uuid : UUID) : Option Kernel :=
  (s.getRequestId).map fun (id, t) =>
    t.setRequest id ⟨uuid, .onUpdateRegister, .userManager, [], 0, .config⟩

/-- `kernel::handle_storage_positive_response`, for a registration: the object is here. -/
def handleStoragePositiveResponse (id : ID32) (r : Request) : Option Kernel :=
  if r.typ = .router then
    let t := s.addUpdateListener r.uuid r.data
    let t := t.write (.router id .onUpdateRegistered r.uuid [] 0)
    some ((t.postRouterClearRequest id).eraseRequest id)
  else (s.addUpdateListener r.uuid []).sendImsOnUpdateRegisterResponse id r

/-- `kernel::handle_storage_negative_response`, for a registration. -/
def handleStorageNegativeResponse (id : ID32) (r : Request) : Kernel :=
  if r.typ = .router then (s.write (.router id .refuse r.uuid r.data 0)).eraseRequest id
  else s.setRequest id { r with place := .config }

/-- `kernel::handle_config_get_public_key_response`, for the key in the file. -/
def handleConfigGetPublicKeyResponse (id : ID32) (r : Request) : Kernel :=
  (s.setRequest id { r with data := s.ownKey, place := .idle }).write
    (.router id r.cmd r.uuid s.ownKey 0)

/-- `kernel::handle_router_on_update_registered`. -/
def handleRouterOnUpdateRegistered (id : ID32) : Option Kernel :=
  match s.requests.lookup id, s.imsReqIds.lookup id with
  | some r, some _ =>
    let t := s.postRouterClearRequest id
    if r.uuid = s.userJsonUuid then some (t.eraseRequest id)
    else t.sendImsOnUpdateRegisterResponse id r
  | _, _ => some s

/-- `kernel::handle_router_on_update_register_fail`. -/
def handleRouterOnUpdateRegisterFail (id : ID32) (message : Text) : Option Kernel :=
  match s.requests.lookup id with
  | none => some s
  | some r =>
    if r.uuid = s.userJsonUuid then some (s.eraseRequest id)
    else s.handleFailedOnUpdateRegisterRequest id (cString message)

/-- `kernel::handle_router_on_update_unregistered`. -/
def handleRouterOnUpdateUnregistered (id : ID32) : Kernel :=
  match s.requests.lookup id, s.imsReqIds.lookup id with
  | some r, some ims =>
    let t := (s.write (.ims ims .onUpdateUnregistered r.uuid [])).eraseImsReqId id
    (t.postRouterClearRequest id).eraseRequest id
  | _, _ => s

/-- `kernel::handle_router_on_update_unregister_fail`. -/
def handleRouterOnUpdateUnregisterFail (id : ID32) (message : Text) : Option Kernel :=
  match s.requests.lookup id with
  | none => some s
  | some r => (s.postRouterClearRequest id).handleFailedOnUpdateUnregisterRequest id r
    (("Failed to unregister on update of " ++ r.uuid.toString ++ ".").toList ++ cString message)

/-! ### Registration, for others -/

/-- `kernel::handle_router_on_update_register`. -/
def handleRouterOnUpdateRegister (id : ID32) (uuid : UUID) (key : Text) : Kernel :=
  if key = [] then
    (s.write
      (.router id .onUpdateRegisterFail uuid " Invalid key.".toList 0)).postRouterClearRequest id
  else s.setRequest id ⟨uuid, .onUpdateRegister, .router, key, 0, .storage⟩

/-- `kernel::handle_router_on_update_unregister`. -/
def handleRouterOnUpdateUnregister (id : ID32) (uuid : UUID) (key : Text) : Kernel :=
  if key = [] then
    (s.write
      (.router id .onUpdateUnregisterFail uuid " Invalid key.".toList 0)).postRouterClearRequest id
  else
    let (t, b) := s.removeUpdateListener uuid key
    if b then t.write (.router id .onUpdateUnregistered uuid [] 0)
    else t.write (.router id .refuse uuid key 0)

/-! ### Looking for a key -/

/-- `kernel::handle_router_find_peer`, also for a notification. -/
def handleRouterFindPeer (id : ID32) (cmd : Command) (uuid : UUID) (key : Text) (version : ℕ) :
    Kernel :=
  s.setRequest id ⟨uuid, cmd, .router, key, version, .keyManager⟩

/-- `kernel::send_update_notification_to_ims`. -/
def sendUpdateNotificationToIms (id : ID32) (r : Request) (event : String) : Kernel :=
  if r.uuid = s.userJsonUuid then (s.write (.userManager r.version)).eraseRequest id
  else (s.setRequest id { r with place := .idle }).write
    (.ims id .sendToPeer 0 (eventText event r.uuid))

/-- `kernel::handle_key_manager_id_found_request`. -/
def handleKeyManagerIdFoundRequest (id : ID32) (r : Request) : Kernel :=
  match r.cmd with
  | .findPeer => (s.setRequest id { r with place := .idle }).write (.router id .peerFound 0 [] 0)
  | .notifyUpdate => s.sendUpdateNotificationToIms id r "updated"
  | .notifyDelete => s.sendUpdateNotificationToIms id r "deleted"
  | _ => s

/-- `kernel::handle_key_manager_id_not_found_request`. -/
def handleKeyManagerIdNotFoundRequest (id : ID32) (r : Request) : Kernel :=
  if r.cmd ≠ .notifyUpdate ∧ r.cmd ≠ .notifyDelete then
    (s.write (.router id .refuse r.uuid r.data 0)).eraseRequest id
  else s.eraseRequest id

/-- What `key_manager::handle_kernel_check_id_request` finds, and what the kernel makes of it. -/
def handleKeyManagerCheck (id : ID32) (r : Request) : Kernel :=
  if s.ownKey = cString r.data then s.handleKeyManagerIdFoundRequest id r
  else s.handleKeyManagerIdNotFoundRequest id r

/-! ### Messages -/

/-- `kernel::handle_ims_send_to_peer_request`, with `kernel::post_find_peer_request`. -/
def handleImsSendToPeerRequest (ims : ID32) (uuid : UUID) (userId data : Text) : Option Kernel :=
  pocoAssert (s.imsReqIds.lookup s.requestCounter = none) <|
    (s.openImsRequest ims ⟨uuid, .sendToPeer, .ims, data, 0, .idle⟩).map fun (id, t) =>
      (t.write (.sent id ims userId data)).write (.router id .findPeer 0 userId 0)

/-- `kernel::handle_router_peer_found`. -/
def handleRouterPeerFound (id : ID32) : Option Kernel :=
  (s.requests.lookup id).map fun r => s.write (.router id .sendToPeer 0 r.data 0)

/-- `kernel::handle_router_send_to_peer`. -/
def handleRouterSendToPeer (id : ID32) (data : Text) : Option Kernel :=
  match s.requests.lookup id with
  | none => some s
  | some r => pocoAssert (r.cmd = .findPeer) <| some (s.write (.ims id .sendToPeer 0 data))

/-- `kernel::handle_ims_send_to_peer_confirmed`. -/
def handleImsSendToPeerConfirmed (id : ID32) : Option Kernel :=
  match s.requests.lookup id with
  | none => some s
  | some r =>
    if r.uuid = s.userJsonUuid then some s
    else
      pocoAssert (r.cmd = .findPeer ∨ r.cmd = .sendToPeer ∨ r.cmd = .notifyUpdate ∨
        r.cmd = .notifyDelete) <|
          some (((s.write (.router id .sendToPeerConfirm 0 [] 0)).eraseRequest
            id).postRouterClearRequest id)

/-- `kernel::handle_ims_failed`. -/
def handleImsFailed (id : ID32) (data : Text) : Kernel :=
  match s.requests.lookup id with
  | none => s
  | some r =>
    let t := if r.cmd = .findPeer then s.write (.router id .deliverFail 0 data 0) else s
    if r.uuid = s.userJsonUuid then t else (t.eraseRequest id).postRouterClearRequest id

/-- `kernel::handle_router_send_to_peer_confirm`. -/
def handleRouterSendToPeerConfirm (id : ID32) : Option Kernel :=
  match s.requests.lookup id, s.imsReqIds.lookup id with
  | some r, some ims => pocoAssert (r.cmd = .sendToPeer) <|
    let t := (s.write (.ims ims .sendToPeerConfirm 0 [])).eraseImsReqId id
    some ((t.postRouterClearRequest id).eraseRequest id)
  | _, _ => some s

/-- `kernel::handle_router_failed`. An id that is not there is `0`. -/
def handleRouterFailed (id : ID32) (data : Text) : Kernel :=
  match s.requests.lookup id with
  | none => s
  | some r =>
    let t := if r.cmd = .sendToPeer then
      s.write (.ims ((s.imsReqIds.lookup id).getD 0) .deliverFail 0 data) else s
    ((t.eraseImsReqId id).postRouterClearRequest id).eraseRequest id

/-- `kernel::handle_failed_request`, for a request of the IMS. -/
def handleFailedRequest (id : ID32) (r : Request) : Option Kernel :=
  match r.cmd with
  | .sendToPeer => (s.imsReqIds.lookup id).map fun ims =>
    ((s.write (.ims ims .sendToFail 0 "Failed to deliver data to peer".toList)).eraseImsReqId
      id).eraseRequest id
  | .onUpdateRegister => s.handleFailedOnUpdateRegisterRequest id []
  | .onUpdateUnregister => s.handleFailedOnUpdateUnregisterRequest id r
    ("Listener not found for: " ++ r.uuid.toString).toList
  | _ => some s

/-- `kernel::handle_router_cancel`, for these requests. -/
def handleRouterCancel (id : ID32) : Option Kernel :=
  match s.requests.lookup id with
  | none => some s
  | some r =>
    match r.typ with
    | .ims => s.handleFailedRequest id r
    | .kernel => some s
    | .router | .userManager => some (s.eraseRequest id)

end Kernel

/-! ### Steps -/

/-- What happens: the IMS sends a package; the storage, the configuration manager or the key manager
answers; the router gives a package of another node, or of one that was asked; the user manager
wants to be told of updates; an object is updated or deleted; other requests take ids. -/
inductive Event
  | imsRegister (ims : ID32) (uuid : UUID)
  | imsUnregister (ims : ID32) (uuid : UUID)
  | imsSend (ims : ID32) (uuid : UUID) (userId data : Text)
  | imsConfirm (id : ID32)
  | imsFail (id : ID32) (data : Text)
  | lookedUp (id : ID32) (found : Bool)
  | publicKey (id : ID32)
  | checked (id : ID32)
  | register (id : ID32) (uuid : UUID) (key : Text)
  | unregister (id : ID32) (uuid : UUID) (key : Text)
  | findPeer (id : ID32) (cmd : Command) (uuid : UUID) (key : Text) (version : ℕ)
  | registered (id : ID32)
  | registerFail (id : ID32) (message : Text)
  | unregistered (id : ID32)
  | unregisterFail (id : ID32) (message : Text)
  | peerFound (id : ID32)
  | sendToPeer (id : ID32) (data : Text)
  | sendToPeerConfirm (id : ID32)
  | deliverFail (id : ID32) (data : Text)
  | cancel (id : ID32)
  | userManagerRegister (uuid : UUID)
  | notify (uuid : UUID) (cmd : Command) (version : ℕ)
  | elsewhere (requestCounter : ID32)
  deriving DecidableEq

/-- A request that waits for this task. -/
def Kernel.waitingFor (s : Kernel) (id : ID32) (p : Place) : Option Request :=
  (s.requests.lookup id).filter fun r => r.place = p

/-- **A step** of the kernel. A task that was not asked does not answer. -/
def step (s : Kernel) : Event → Option Kernel
  | .imsRegister ims uuid => (s.write (.asked ims)).handleImsRegisterOnUpdateRequest ims uuid
  | .imsUnregister ims uuid => (s.write (.asked ims)).handleImsUnregisterOnUpdateRequest ims uuid
  | .imsSend ims uuid userId data =>
    (s.write (.asked ims)).handleImsSendToPeerRequest ims uuid userId data
  | .imsConfirm id => s.handleImsSendToPeerConfirmed id
  | .imsFail id data => some (s.handleImsFailed id data)
  | .lookedUp id found => (s.waitingFor id .storage).bind fun r =>
    if found then s.handleStoragePositiveResponse id r
    else some (s.handleStorageNegativeResponse id r)
  | .publicKey id => (s.waitingFor id .config).map fun r => s.handleConfigGetPublicKeyResponse id r
  | .checked id => (s.waitingFor id .keyManager).map fun r => s.handleKeyManagerCheck id r
  | .register id uuid key => some (s.handleRouterOnUpdateRegister id uuid key)
  | .unregister id uuid key => some (s.handleRouterOnUpdateUnregister id uuid key)
  | .findPeer id cmd uuid key version => some (s.handleRouterFindPeer id cmd uuid key version)
  | .registered id => s.handleRouterOnUpdateRegistered id
  | .registerFail id message => s.handleRouterOnUpdateRegisterFail id message
  | .unregistered id => some (s.handleRouterOnUpdateUnregistered id)
  | .unregisterFail id message => s.handleRouterOnUpdateUnregisterFail id message
  | .peerFound id => s.handleRouterPeerFound id
  | .sendToPeer id data => s.handleRouterSendToPeer id data
  | .sendToPeerConfirm id => s.handleRouterSendToPeerConfirm id
  | .deliverFail id data => some (s.handleRouterFailed id data)
  | .cancel id => s.handleRouterCancel id
  | .userManagerRegister uuid => s.handleUserManagerOnUpdateRegister uuid
  | .notify uuid cmd version => s.notifyUpdate uuid cmd version
  | .elsewhere c => some { s with requestCounter := c }

end Messages

end Metax
