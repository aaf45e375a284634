import Metax.Deletion.Data
import Metax.Library.Run

/-!
# Getting the pieces of objects

A get request has a piece request for every piece of its object. Each is looked up in the storage,
and where it is missing there it waits in `m_pending_router_get_reqs` until what the router was
asked for leaves room for it (`processRouterPendingGetRequests`).

A `State` is what the kernel has for all gets of the IMS. A master object arrives parsed: how it was
found is left out, and so is what is written to files and sent to the IMS. A stream may ask for a
chunk of any uuid and size at any time; which chunks it asks for is not modelled here. A result of
`none` is an assertion that fails, or an answer to something that was not asked.
-/

namespace Metax

namespace Getting

open Ledger (Table)
open Deletion (nextCounter)

/-! ### Requests -/

/-- `request::state`. -/
inductive RequestState
  | lookupInDb
  | requested
  | sending
  deriving DecidableEq

/-- `request::type`, of the requests of a get. -/
inductive RequestType
  | ims
  | kernel
  deriving DecidableEq

/-- `kernel::request`, as far as a get uses it. `pieces` are the names that are left in
`master_json`; `encrypted` tells whether there is a key. `awaits` is ghost: the master object was
asked for and has not come. -/
structure Request where
  uuid : UUID
  st : RequestState
  typ : RequestType
  parentReqId : Option ID32
  size : UInt32
  encrypted : Bool
  streaming : Bool
  pieces : List UUID
  units : List ID32
  awaits : Bool
  deriving DecidableEq

/-- `request(id, u, request::lookup_in_db, metax::get, t)`. -/
def Request.new (uuid : UUID) (typ : RequestType) : Request where
  uuid := uuid
  st := .lookupInDb
  typ := typ
  parentReqId := none
  size := 0
  encrypted := false
  streaming := false
  pieces := []
  units := []
  awaits := false

/-- An entry of the `pieces` of a master object. A size that is no number of 32 bits is `none`. -/
structure PieceJson where
  uuid : UUID
  size : Option UInt32
  encrypted : Bool
  deriving DecidableEq

/-- A master object: a playlist for a recording, what is streamed, or a file with its pieces. -/
inductive Master
  | playlist
  | stream
  | file (pieces : List PieceJson)
  deriving DecidableEq

/-- What a piece request is waiting for in another task. -/
inductive Post
  | lookUp
  | getStorage
  | getRouter (size : UInt32)
  | decrypt
  deriving DecidableEq

/-- What the kernel has for gets. `pendingRouterGetReqs` has the oldest first, which is the back of
the list of the kernel; `negative` tells whether the error of `reduce_router_get_input_size` was
logged, and `posted` is what other tasks have not answered yet. -/
structure State where
  requestCounter : ID32
  requests : Table ID32 Request
  imsReqIds : Table ID32 ID32
  pendingImsGetRequests : Table UUID (List ID32)
  pendingRouterGetReqs : List ID32
  routerGetInputSize : UInt32
  maxRouterGetInputSize : UInt32
  negative : Bool
  posted : Table ID32 Post

/-- No get so far. -/
def State.init (requestCounter : ID32) : State where
  requestCounter := requestCounter
  requests := ∅
  imsReqIds := ∅
  pendingImsGetRequests := ∅
  pendingRouterGetReqs := []
  routerGetInputSize := 0
  maxRouterGetInputSize := 21000000
  negative := false
  posted := ∅

namespace State

variable (s : State)

/-- Writes a request back. -/
def setRequest (id : ID32) (r : Request) : State := { s with requests := s.requests.insert id r }

/-- `m_requests.erase`. -/
def eraseRequest (id : ID32) : State := { s with requests := s.requests.erase id }

/-- Sends a message that will be answered. -/
def post (id : ID32) (p : Post) : State := { s with posted := s.posted.insert id p }

/-- The answer has arrived. -/
def answered (id : ID32) : State := { s with posted := s.posted.erase id }

/-- `kernel::get_request_id`. -/
def getRequestId : Option (State × ID32) :=
  pocoAssert (s.requests.lookup s.requestCounter = none) <|
    some ({ s with requestCounter := nextCounter s.requestCounter }, s.requestCounter)

/-! ### The budget -/

/-- `kernel::post_router_get_request`, for a piece request. -/
def postRouterGetRequest (id : ID32) (r : Request) : Option State :=
  pocoAssert (r.st = .lookupInDb) <|
    some ((s.setRequest id { r with st := .requested }).post id (.getRouter r.size))

/-- The loop of `process_router_pending_get_requests`. -/
def postPending (s : State) : List ID32 → Option State
  | [] => some { s with pendingRouterGetReqs := [] }
  | i :: ids =>
    if s.routerGetInputSize < s.maxRouterGetInputSize then
      match s.requests.lookup i with
      | none => s.postPending ids
      | some r =>
        (postRouterGetRequest { s with routerGetInputSize := s.routerGetInputSize + r.size }
          i r).bind fun s => s.postPending ids
    else some { s with pendingRouterGetReqs := i :: ids }

/-- `kernel::process_router_pending_get_requests`. -/
def processRouterPendingGetRequests : Option State := s.postPending s.pendingRouterGetReqs

/-- `kernel::reduce_router_get_input_size`. -/
def reduceRouterGetInputSize (n : UInt32) : State :=
  if s.routerGetInputSize < n then { s with negative := true, routerGetInputSize := 0 }
  else { s with routerGetInputSize := s.routerGetInputSize - n }

/-! ### Answering a get -/

/-- `kernel::send_ims_response`, for the requests that wait for a uuid. -/
def respondTo (s : State) : List ID32 → State
  | [] => s
  | b :: ids =>
    if s.imsReqIds.lookup b = none then s.respondTo ids
    else ({ s with imsReqIds := s.imsReqIds.erase b }.eraseRequest b).respondTo ids

/-- `kernel::send_ims_response`. -/
def sendImsResponse (uuid : UUID) : Option State :=
  (s.pendingImsGetRequests.lookup uuid).map fun ids =>
    let s := s.respondTo ids
    { s with pendingImsGetRequests := s.pendingImsGetRequests.erase uuid }

/-- `kernel::handle_failed_ims_get_request`, and what `handle_key_manager_failed_get_request` does
for the get of a piece. -/
def handleFailedImsGetRequest (id : ID32) : Option State :=
  (s.requests.lookup id).elim (some s) fun r => s.sendImsResponse r.uuid

/-- `kernel::handle_failed_kernel_get_request`. -/
def handleFailedKernelGetRequest (r : Request) : Option State :=
  (r.parentReqId.elim (some s) s.handleFailedImsGetRequest).bind fun s =>
    (s.reduceRouterGetInputSize r.size).processRouterPendingGetRequests

/-- `kernel::handle_failed_get_request`. -/
def handleFailedGetRequest (id : ID32) (r : Request) : Option State :=
  match r.typ with
  | .kernel => s.handleFailedKernelGetRequest r
  | .ims => s.handleFailedImsGetRequest id

/-! ### Pieces -/

/-- `kernel::construct_get_request_for_piece` and `kernel::post_look_up_request_for_piece`: the
request of a piece, which yields its id. -/
def newPieceRequest (pid : ID32) (uuid : UUID) (size : UInt32) (encrypted : Bool) :
    Option (State × ID32) :=
  s.getRequestId.map fun (s, id) =>
    (s.setRequest id { Request.new uuid .kernel with parentReqId := some pid, size, encrypted }, id)

/-- `kernel::post_storage_next_piece_get_request`. The units are a set in the order of the ids. -/
def postStorageNextPieceGetRequest (pid : ID32) (p : Request) : Option State :=
  match p.units with
  | [] => some s
  | b :: units =>
    pocoAssert (s.requests.lookup b ≠ none) <|
      some ((s.post b .lookUp).setRequest pid { p with units })

/-- `kernel::write_data_to_stream`, for the piece with the name `uuid`. -/
def writeDataToStream (pid : ID32) (p : Request) (uuid : UUID) : Option State :=
  pocoAssert (uuid ∈ p.pieces) <|
    let p := { p with pieces := p.pieces.erase uuid }
    let s := s.setRequest pid p
    if p.pieces = [] then s.sendImsResponse p.uuid else some s

/-- `kernel::process_unencrypted_piece`. A stream keeps its requests. -/
def processUnencryptedPiece (pid : ID32) (p : Request) (uuid : UUID) : Option State :=
  if p.streaming then some s else s.writeDataToStream pid p uuid

/-- `kernel::handle_piece`, for the request `r` of the id. -/
def handlePiece (id : ID32) (r : Request) : Option State :=
  match r.parentReqId.bind fun pid => (s.requests.lookup pid).map (pid, ·) with
  | none => some (s.eraseRequest id)
  | some (pid, p) => (s.postStorageNextPieceGetRequest pid p).bind fun s =>
    if r.encrypted then some (s.post id .decrypt)
    else (s.requests.lookup pid).bind fun p =>
      (s.processUnencryptedPiece pid p r.uuid).map (·.eraseRequest id)

/-- `kernel::handle_get_request_after_decrypt`, for a piece. -/
def handleGetRequestAfterDecrypt (id : ID32) (r : Request) : Option State :=
  match r.parentReqId.bind fun pid => (s.requests.lookup pid).map (pid, ·) with
  | none => some (s.eraseRequest id)
  | some (pid, p) => (s.processUnencryptedPiece pid p r.uuid).map (·.eraseRequest id)

/-- `kernel::handle_key_manager_failed_get_request`, for a piece. -/
def handleKeyManagerFailedGetRequest (id : ID32) (r : Request) : Option State :=
  r.parentReqId.elim (some (s.eraseRequest id)) (s.eraseRequest id).handleFailedImsGetRequest

/-! ### Master objects -/

/-- The loop of `kernel::start_getting_pieces`. A size that is no number throws: the requests that
there are stay, and the result has `false`. -/
def constructGetRequests (pid : ID32) (s : State) : List PieceJson → Option (State × Bool)
  | [] => some (s, true)
  | q :: qs =>
    match q.size with
    | none => some (s, false)
    | some n => (s.newPieceRequest pid q.uuid n q.encrypted).bind fun (s, id) =>
      (s.requests.lookup pid).bind fun p =>
        constructGetRequests pid
          (s.setRequest pid { p with units := p.units.orderedInsert (· ≤ ·) id }) qs

/-- `max_get_count` pieces are looked up at once. -/
def postStorageFirstPieces (pid : ID32) (s : State) : ℕ → Option State
  | 0 => some s
  | n + 1 => (s.requests.lookup pid).bind fun p =>
    (s.postStorageNextPieceGetRequest pid p).bind fun s => postStorageFirstPieces pid s n

/-- `max_get_count`. -/
def maxGetCount : ℕ := 2

/-- `kernel::start_getting_pieces`; an exception is one of `handle_unencrypted_master_object`. -/
def startGettingPieces (id : ID32) (r : Request) (qs : List PieceJson) : Option State :=
  if qs = [] then s.sendImsResponse r.uuid
  else
    (constructGetRequests id (s.setRequest id { r with pieces := qs.map (·.uuid) }) qs).bind
      fun (s, done) =>
        if done then postStorageFirstPieces id s maxGetCount else s.handleFailedImsGetRequest id

/-- The requests that wait for a uuid go on as streams. -/
def startStreaming (s : State) : List ID32 → State
  | [] => s
  | b :: ids =>
    ((s.requests.lookup b).elim s fun r =>
      s.setRequest b { r with streaming := true }).startStreaming ids

/-- `kernel::handle_unencrypted_master_object`, for a get. `none` is no master object. -/
def handleUnencryptedMasterObject (id : ID32) (r : Request) : Option Master → Option State
  | none => s.handleFailedImsGetRequest id
  | some .playlist => s.sendImsResponse r.uuid
  | some .stream => (s.pendingImsGetRequests.lookup r.uuid).map s.startStreaming
  | some (.file qs) => s.startGettingPieces id r qs

/-! ### The IMS -/

/-- `kernel::handle_ims_get_request`, for what is no livestream. -/
def handleImsGetRequest (ims : ID32) (uuid : UUID) : Option State :=
  s.getRequestId.bind fun (s, id) =>
    pocoAssert (s.imsReqIds.lookup id = none) <|
      let s := { s with imsReqIds := s.imsReqIds.insert id ims }
      match s.pendingImsGetRequests.lookup uuid with
      | none => some
        { s.setRequest id { Request.new uuid .ims with awaits := true } with
          pendingImsGetRequests := s.pendingImsGetRequests.insert uuid [id] }
      | some ids =>
        -- what the first one is, the new one is too
        let streaming := ((ids.head?.bind s.requests.lookup).map (·.streaming)).getD false
        some { s.setRequest id { Request.new uuid .ims with streaming } with
          pendingImsGetRequests := s.pendingImsGetRequests.insert uuid (ids ++ [id]) }

/-- `kernel::handle_ims_clean_stream_request`, for the request that is found. -/
def handleImsCleanStreamRequest (id : ID32) : Option State :=
  (s.requests.lookup id).bind fun r =>
    (s.pendingImsGetRequests.lookup r.uuid).bind fun ids =>
      pocoAssert (id ∈ ids) <|
        some { s.eraseRequest id with
          pendingImsGetRequests := if ids.erase id = [] then s.pendingImsGetRequests.erase r.uuid
            else s.pendingImsGetRequests.insert r.uuid (ids.erase id) }

/-! ### Steps -/

/-- A handler finds its request, or it does nothing. -/
def withRequest (id : ID32) (f : Request → Option State) : Option State :=
  (s.requests.lookup id).elim (some s) f

/-- What is posted for `id` is answered. -/
def answer (id : ID32) (p : Post) : Option State :=
  if s.posted.lookup id = some p then some (s.answered id) else none

/-- What the router was asked for is answered. -/
def routerAnswer (id : ID32) : Option State :=
  match s.posted.lookup id with
  | some (.getRouter _) => some (s.answered id)
  | _ => none

end State

/-- What happens: requests of the IMS, what the kernel finds out about master objects, the answers
to what was posted for pieces, and what other requests do to the counter. -/
inductive Event
  | elsewhere (counter : ID32)
  | kernelCfg (routerGetQueueSize : UInt32)
  | imsGet (ims : ID32) (uuid : UUID)
  | imsCleanStream (id : ID32)
  | gotMaster (id : ID32) (m : Option Master)
  | streamChunk (pid : ID32) (uuid : UUID) (size : UInt32) (encrypted : Bool)
  | storageAck (id : ID32)
  | storageNack (id : ID32)
  | storageGetData (id : ID32)
  | storageFailed (id : ID32)
  | decrypted (id : ID32)
  | decryptionFail (id : ID32)
  | routerGetData (id : ID32)
  | routerCancel (id : ID32)
  deriving DecidableEq

open State

/-- **A step** of the kernel. -/
def step (s : State) : Event → Option State
  | .elsewhere counter => some { s with requestCounter := counter }
  | .kernelCfg n => some { s with maxRouterGetInputSize := n }
  | .imsGet ims uuid => s.handleImsGetRequest ims uuid
  | .imsCleanStream id =>
    if s.imsReqIds.lookup id = none then none else s.handleImsCleanStreamRequest id
  | .gotMaster id m => s.withRequest id fun r =>
    if r.awaits then
      (s.setRequest id { r with awaits := false }).handleUnencryptedMasterObject id
        { r with awaits := false } m
    else none
  | .streamChunk pid uuid size encrypted => (s.requests.lookup pid).bind fun p =>
    if p.typ = .ims ∧ p.streaming then
      (s.newPieceRequest pid uuid size encrypted).map fun (s, id) => s.post id .lookUp
    else none
  | .storageAck id => (s.answer id .lookUp).bind fun s => s.withRequest id fun r =>
    some ((s.setRequest id { r with st := .sending }).post id .getStorage)
  | .storageNack id => (s.answer id .lookUp).bind fun s => s.withRequest id fun _ =>
    { s with
      pendingRouterGetReqs := s.pendingRouterGetReqs ++ [id] }.processRouterPendingGetRequests
  | .storageGetData id => (s.answer id .getStorage).bind fun s => s.withRequest id fun r =>
    s.handlePiece id r
  | .storageFailed id => (s.answer id .getStorage).bind fun s => s.withRequest id fun r =>
    s.handleFailedGetRequest id r
  | .decrypted id => (s.answer id .decrypt).bind fun s => (s.requests.lookup id).bind fun r =>
    s.handleGetRequestAfterDecrypt id r
  | .decryptionFail id => (s.answer id .decrypt).bind fun s => (s.requests.lookup id).bind fun r =>
    s.handleKeyManagerFailedGetRequest id r
  | .routerGetData id => (s.routerAnswer id).bind fun s => s.withRequest id fun r =>
    (s.reduceRouterGetInputSize r.size).processRouterPendingGetRequests.bind fun s =>
      (s.requests.lookup id).bind fun r => s.handlePiece id r
  | .routerCancel id => (s.routerAnswer id).bind fun s => s.withRequest id fun r =>
    s.handleFailedGetRequest id r

end Getting

end Metax
