import Metax.Kernel.Data

/-!
# Deleting an object

A delete request looks its object up in the local storage, gets the master object from there or,
by a helper request, from the router, and then deletes the pieces and the master: each is a request
of its own, first to the storage and then to the router, where any number of peers may answer
before the router cancels. With `keep_chunks` an object of the local storage is deleted at once.

A `Deletion` is what the kernel has for one delete request, its helpers and its pieces; the id
counter is all it shares with other requests, which move it. Time stamps are left out, and so are
`clear_request` and what only tells the user json, the journal of the backup and the update
listeners of the deletion. The master object arrives parsed: `none` is a text that
`parse_master_object` rejects. A result of `none` is an assertion that fails outside of the `try`
of `handle_unencrypted_master_object`.
-/

namespace Metax

namespace Deletion

open Ledger (Table)

/-! ### Requests -/

/-- `version` of a master object, for `increase_version`. -/
inductive Version
  | absent
  | value (v : UInt32)
  | invalid
  deriving DecidableEq

/-- What the delete path reads of a master object. `pieces` is `none` when it is no JSON object;
a name of a piece that is no uuid is `none`. -/
structure Master where
  pieces : Option (List (Option UUID))
  version : Version
  deriving DecidableEq

/-- `request::state`. -/
inductive RequestState
  | lookupInDb
  | requested
  | receiving
  | sending
  deriving DecidableEq

/-- `request::type`, of the requests of the delete path. -/
inductive RequestType
  | ims
  | kernel
  deriving DecidableEq

/-- `kernel::request`, as far as the delete path uses it. -/
structure Request where
  uuid : UUID
  st : RequestState
  typ : RequestType
  keepChunks : Bool
  failCount : UInt16
  parentReqId : Option ID32
  updated : UInt16
  oldMasterJson : Option Master
  units : Finset ID32
  isLocal : Bool
  winnersCount : UInt16
  dataVersion : UInt32
  deriving DecidableEq

/-- `request(id, u, s, metax::del, t)`. -/
def Request.new (uuid : UUID) (st : RequestState) (typ : RequestType) : Request where
  uuid := uuid
  st := st
  typ := typ
  keepChunks := false
  failCount := 0
  parentReqId := none
  updated := 0
  oldMasterJson := none
  units := ∅
  isLocal := true
  winnersCount := 0
  dataVersion := .ofNat dataVersionStart

/-! ### Messages -/

/-- What a request is waiting for in another task. The router answers a `deleteRouter` any number
of times before it cancels. -/
inductive Post
  | lookUp
  | getStorage
  | getRouter
  | decrypt
  | deleteStorage
  | deleteRouter
  deriving DecidableEq

/-- The final responses. -/
inductive Answer
  | deleted (uuid : UUID)
  | deleteFail (uuid : UUID) (err : String)
  deriving DecidableEq

/-- What the kernel has sent, newest first, with two ghost entries: the master object was read, and
it was told that a copy of what the request `id` is about was deleted. -/
inductive Entry
  | respond (ims : ID32) (a : Answer)
  | lookUp (id : ID32) (uuid : UUID)
  | getStorage (id : ID32) (uuid : UUID)
  | getRouter (id : ID32) (uuid : UUID)
  | decrypt (id : ID32)
  | deleteStorage (id : ID32) (uuid : UUID)
  | deleteRouter (id : ID32) (uuid : UUID) (dataVersion : UInt32) (maxResponseCnt : ℕ)
  | authData (id : ID32) (uuid : UUID)
  | gotMaster (m : Master)
  | copyDeleted (id : ID32)
  deriving DecidableEq

end Deletion

/-- What the kernel has for a delete request. -/
structure Deletion where
  requestCounter : ID32
  requests : Ledger.Table ID32 Deletion.Request
  imsReqIds : Ledger.Table ID32 ID32
  posted : Ledger.Table ID32 Deletion.Post
  log : List Deletion.Entry

namespace Deletion

/-- Adds an entry to the log. -/
def write (s : Deletion) (e : Entry) : Deletion := { s with log := e :: s.log }

/-- Writes a request back. -/
def setRequest (s : Deletion) (id : ID32) (r : Request) : Deletion :=
  { s with requests := s.requests.insert id r }

/-- `m_requests.erase`. -/
def eraseRequest (s : Deletion) (id : ID32) : Deletion :=
  { s with requests := s.requests.erase id }

/-- Sends a message that will be answered. -/
def post (s : Deletion) (id : ID32) (p : Post) (e : Entry) : Deletion :=
  { s with posted := s.posted.insert id p, log := e :: s.log }

/-- The last answer has arrived. -/
def answered (s : Deletion) (id : ID32) : Deletion := { s with posted := s.posted.erase id }

/-! ### Sending -/

/-- `kernel::post_storage_look_up_request`. -/
def postStorageLookUpRequest (s : Deletion) (id : ID32) (r : Request) : Deletion :=
  s.post id .lookUp (.lookUp id r.uuid)

/-- `kernel::post_storage_get_request`. -/
def postStorageGetRequest (s : Deletion) (id : ID32) (r : Request) : Deletion :=
  (s.setRequest id { r with st := .sending }).post id .getStorage (.getStorage id r.uuid)

/-- `kernel::post_router_get_request`. -/
def postRouterGetRequest (s : Deletion) (id : ID32) (r : Request) : Option Deletion :=
  pocoAssert (r.st = .lookupInDb) <|
    some ((s.setRequest id { r with st := .requested }).post id .getRouter (.getRouter id r.uuid))

/-- `kernel::post_storage_delete_request`. -/
def postStorageDeleteRequest (s : Deletion) (id : ID32) (r : Request) : Deletion :=
  s.post id .deleteStorage (.deleteStorage id r.uuid)

/-- `kernel::post_router_delete_request`. -/
def postRouterDeleteRequest (dataCopyCount : ℕ) (s : Deletion) (id : ID32) (r : Request) :
    Deletion :=
  s.post id .deleteRouter (.deleteRouter id r.uuid r.dataVersion (dataCopyCount - 1))

/-- The response to the IMS, after which nothing is left to respond to. -/
def respond (s : Deletion) (id : ID32) (ims : ID32) (a : Answer) : Deletion :=
  { s with imsReqIds := s.imsReqIds.erase id, log := .respond ims a :: s.log }

/-- The text of a uuid in a message. -/
def failText (uuid : UUID) : String := "Failed to delete " ++ uuid.toString ++ " uuid."

/-- The text for a master object that could not be decrypted. -/
def decryptFailText (uuid : UUID) : String :=
  "Failed to delete. Could not decrypt " ++ uuid.toString ++ " uuid."

/-! ### The pieces -/

/-- `KERNEL_REQUEST_UPPER_BOUND`. -/
def requestUpperBound : ID32 := 0x0FFFFFFF

/-- `KERNEL_REQUEST_LOWER_BOUND`. -/
def requestLowerBound : ID32 := 0

/-- The counter after an id was handed out. -/
def nextCounter (c : ID32) : ID32 := ((c + 1) &&& requestUpperBound) ||| requestLowerBound

/-- The ids of the kernel. -/
def idBound : ID32 := 0x10000000

theorem nextCounter_of_lt {c : ID32} (h : c + 1 < idBound) : nextCounter c = c + 1 := by
  have hmod : (c + 1) &&& (2 ^ 28 - 1) = (c + 1) % 2 ^ 28 := Nat.and_two_pow_sub_one_eq_mod _ _
  have hlt : c + 1 < 2 ^ 28 := h
  rw [Nat.mod_eq_of_lt hlt] at hmod
  change ((c + 1) &&& (2 ^ 28 - 1)) ||| 0 = c + 1
  rw [hmod, Nat.or_zero]

/-- `kernel::get_request_id`, for any table of requests: the id and the counter after it. An id that
is taken is an assertion that fails. -/
def takeRequestId {β : Type} (requests : Ledger.Table ID32 β) (counter : ID32) :
    Option (ID32 × ID32) :=
  pocoAssert (requests.lookup counter = none) (some (counter, nextCounter counter))

theorem takeRequestId_eq_some {β : Type} {requests : Ledger.Table ID32 β} {counter id c : ID32} :
    takeRequestId requests counter = some (id, c) ↔
      requests.lookup counter = none ∧ id = counter ∧ c = nextCounter counter := by
  rw [takeRequestId, pocoAssert_eq_some, Option.some.injEq, Prod.mk.injEq, eq_comm (a := counter),
    eq_comm (a := nextCounter counter)]

/-- `kernel::get_request_id`; an id that is taken is an assertion that fails. -/
def getRequestId (s : Deletion) : Deletion × Option ID32 :=
  ({ s with requestCounter := nextCounter s.requestCounter },
    if s.requests.lookup s.requestCounter = none then some s.requestCounter else none)

/-- The request of `kernel::handle_piece_delete`. -/
def pieceRequest (uuid : UUID) (preqId : ID32) : Request :=
  { Request.new uuid .requested .kernel with
    parentReqId := some preqId
    dataVersion := .ofNat dataVersionStart + 1 }

/-- `kernel::handle_piece_delete`, which yields the id of the new request. -/
def handlePieceDelete (s : Deletion) (uuid : UUID) (preqId : ID32) : Deletion × Option ID32 :=
  match s.getRequestId with
  | (s, none) => (s, none)
  | (s, some id) =>
    ((s.setRequest id (pieceRequest uuid preqId)).postStorageDeleteRequest id
      (pieceRequest uuid preqId), some id)

/-- The loop of `kernel::remove_unnecessary_uuids`. A name that is no uuid throws, and so does an
assertion: `false`. -/
def deletePieces (rid : ID32) (s : Deletion) (r : Request) :
    List (Option UUID) → Deletion × Request × Bool
  | [] => (s, r, true)
  | none :: _ => (s, r, false)
  | some u :: us =>
    match s.handlePieceDelete u rid with
    | (s, none) => (s, r, false)
    | (s, some id) => deletePieces rid s { r with units := insert id r.units } us

/-- `kernel::increase_version`, `none` when the version is no number. -/
def increaseVersion : Version → Option UInt32
  | .absent => some (.ofNat dataVersionStart)
  | .value v => some (v + 1)
  | .invalid => none

/-- `kernel::remove_unnecessary_uuids`. The request is written back whatever happens; `false` is an
exception. -/
def removeUnnecessaryUuids (rid : ID32) (s : Deletion) (r : Request) (m : Master) :
    Deletion × Request × Bool :=
  match increaseVersion m.version with
  | none => (s, r, false)
  | some v =>
    let r := { r with dataVersion := v }
    match m.pieces with
    | none => (s, r, true)
    | some us =>
      match deletePieces rid s r us with
      | (s, r, true) => (s, { r with units := insert rid r.units }, true)
      | (s, r, false) => (s, r, false)

/-! ### Failures -/

/-- `kernel::send_ims_delete_failed_response`. -/
def sendImsDeleteFailedResponse (s : Deletion) (id : ID32) (r : Request) : Deletion :=
  match s.imsReqIds.lookup id with
  | none => s
  | some ims => s.respond id ims (.deleteFail r.uuid (failText r.uuid))

/-- `kernel::handle_failed_delete_request`. A helper is told from the request it helps by its
state. -/
def handleFailedDeleteRequest (s : Deletion) (id : ID32) (r : Request) : Option Deletion :=
  if r.typ = .ims then
    if r.st = .requested then
      match r.parentReqId with
      | none => none
      | some p => (s.requests.lookup p).bind fun q =>
        some (((s.sendImsDeleteFailedResponse p q).eraseRequest p).eraseRequest id)
    else
      some ((s.sendImsDeleteFailedResponse id r).eraseRequest id)
  else
    some (s.eraseRequest id)

/-- `kernel::handle_decryption_fail_for_delete_request`. -/
def handleDecryptionFailForDeleteRequest (s : Deletion) (id : ID32) (r : Request) :
    Option Deletion :=
  pocoAssert (r.typ = .ims) <| (s.imsReqIds.lookup id).bind fun ims =>
    some ((s.respond id ims (.deleteFail r.uuid (decryptFailText r.uuid))).eraseRequest id)

/-! ### The master object -/

/-- `kernel::process_delete_request`, `false` when it throws. -/
def processDeleteRequest (dataCopyCount : ℕ) (s : Deletion) (id : ID32) (r : Request) (m : Master) :
    Deletion × Request × Bool :=
  match removeUnnecessaryUuids id s { r with oldMasterJson := some m } m with
  | (s, r, false) => (s, r, false)
  | (s, r, true) =>
    let s := s.setRequest id r
    (if r.isLocal then s.postStorageDeleteRequest id r
      else s.postRouterDeleteRequest dataCopyCount id r, r, true)

/-- `kernel::handle_unencrypted_master_object`. -/
def handleUnencryptedMasterObject (dataCopyCount : ℕ) (s : Deletion) (id : ID32) (r : Request)
    (m : Option Master) : Option Deletion :=
  pocoAssert (r.typ = .ims) <|
    match m with
    | none => s.handleFailedDeleteRequest id r
    | some m =>
      match processDeleteRequest dataCopyCount (s.write (.gotMaster m)) id r m with
      | (s, _, true) => some s
      | (s, r, false) => (s.setRequest id r).handleFailedDeleteRequest id r

/-- `kernel::got_master_object`; `encrypted` tells whether the user json has a key for the uuid. -/
def gotMasterObject (dataCopyCount : ℕ) (s : Deletion) (id : ID32) (r : Request)
    (m : Option Master) (encrypted : Bool) : Option Deletion :=
  pocoAssert (r.typ = .ims) <|
    if encrypted then some (s.post id .decrypt (.decrypt id))
    else s.handleUnencryptedMasterObject dataCopyCount id r m

/-! ### A copy is gone -/

/-- The end of `kernel::handle_deleted_response_for_ims_request` and of
`kernel::handle_deleted_response_for_kernel_request`: the request `p` has one unit less to wait
for. -/
def unitDeleted (s : Deletion) (pid : ID32) (p : Request) (id : ID32) : Deletion :=
  let p := { p with units := p.units.erase id }
  let s := s.setRequest pid p
  if p.units = ∅ then
    match s.imsReqIds.lookup pid with
    | none => s
    | some ims => s.respond pid ims (.deleted p.uuid)
  else s

/-- `kernel::handle_deleted_response_for_ims_request`. -/
def handleDeletedResponseForImsRequest (s : Deletion) (id : ID32) (r : Request) : Deletion :=
  s.unitDeleted id r id

/-- `kernel::handle_deleted_response_for_kernel_request`. -/
def handleDeletedResponseForKernelRequest (s : Deletion) (id : ID32) (r : Request) : Deletion :=
  match r.parentReqId.bind s.requests.lookup, r.parentReqId with
  | some p, some pid => s.unitDeleted pid p id
  | _, _ => s

/-- The response of `handle_storage_deleted` and `handle_router_deleted` to the parent. -/
def handleDeletedResponse (s : Deletion) (id : ID32) (r : Request) : Deletion :=
  if r.typ = .ims then s.handleDeletedResponseForImsRequest id r
  else s.handleDeletedResponseForKernelRequest id r

/-- `++r.updated`. -/
def countUpdated (s : Deletion) (id : ID32) : Deletion :=
  match s.requests.lookup id with
  | none => s
  | some r => s.setRequest id { r with updated := r.updated + 1 }

end Deletion

end Metax
