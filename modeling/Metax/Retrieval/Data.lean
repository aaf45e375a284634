import Metax.Deletion.Data
import Metax.Library.Patches
import Metax.Library.Run

/-!
# Getting a file

What the kernel does for the get requests of one uuid. The first of them looks the master object up;
the others wait with it. If the object is no stream, its file is made at its full length, every
piece is asked for, two at a time, and written to its place when it arrives, and the file is sent to
all who wait after the last one.

A `Fetch` is the part of the kernel these requests use. The data of a request comes from the local
storage or, after a negative answer of it, from the router; the state does not tell these apart, nor
the retries in between. How much is asked of the router at once is left out as well. What is
encrypted goes through the key manager.

A failed assertion ends the process: the step is `none`. A master object may have been written by
anybody, so its pieces may have names that are no uuids, no `from` or `size`, or half a key. While
the requests for the pieces are made such a master object is answered with `get_fail`; a piece that
arrives later finds the assertions of `get_start_position`, or an exception leaves its handler half
done.
-/

namespace Metax

namespace Retrieval

open Ledger (Table)
open Deletion (nextCounter)

/-- `max_get_count`. -/
def maxGetCount : ℕ := 2

/-- A request has neither of the strings `aes_key` and `aes_iv`: what it gets is not encrypted. -/
def Plain (k : AesKey) : Prop := k.key = [] ∧ k.iv = []

/-- A request has both strings. -/
def Whole (k : AesKey) : Prop := k.key ≠ [] ∧ k.iv ≠ []

instance (k : AesKey) : Decidable (Plain k) := inferInstanceAs (Decidable (_ ∧ _))

instance (k : AesKey) : Decidable (Whole k) := inferInstanceAs (Decidable (_ ∧ _))

/-- What a request for a piece is waiting for: nothing yet or any more, its data, or the key
manager. -/
inductive Place
  | idle
  | fetching
  | decrypting (key : AesKey) (pkg : Bytes)
  deriving DecidableEq

/-- A request of the kernel for a piece. -/
structure PieceRequest where
  uuid : UUID
  parentReqId : ID32
  aesKey : AesKey
  place : Place
  deriving DecidableEq

/-- How far the first request is: its master object was asked for, or is decrypted; it is a stream;
or its pieces are written to its file. `pieces` are those left in `master_json`, and `units` the
requests that were not posted yet. -/
inductive Phase
  | fetching
  | decrypting (key : AesKey) (pkg : Bytes)
  | streaming
  | getting (file : Bytes) (pieces : Table PieceName PieceInfo) (units : List ID32)

/-- The master object is on its way. -/
def Phase.waits : Phase → Bool
  | .fetching | .decrypting _ _ => true
  | .streaming | .getting _ _ _ => false

/-- The first request that waits for the uuid. -/
structure Leader where
  id : ID32
  aesKey : AesKey
  contentType : String
  phase : Phase

/-- What the IMS is sent: `get_data` or `get_fail`. -/
inductive Answer
  | getData (file : Bytes) (contentType : String)
  | getFail (message : String)
  deriving DecidableEq

/-- The kernel, as far as the gets of one uuid go. `waiting` are the requests in
`m_pending_ims_get_requests`, each with the id it has in the IMS; `others` are the ids that requests
for anything else have in `m_requests` and `m_ims_req_ids`; `ownedKey` are the two strings the user
json has for the uuid, and `answers` is what was sent to the IMS. -/
structure Fetch where
  uuid : UUID
  requestCounter : ID32
  others : List ID32
  ownedKey : Option AesKey
  shouldBlockGetRequest : Bool
  waiting : List (ID32 × ID32)
  leader : Option Leader
  requests : Table ID32 PieceRequest
  answers : List (ID32 × Answer)

/-- No request so far. -/
def Fetch.init (uuid : UUID) (requestCounter : ID32) : Fetch where
  uuid := uuid
  requestCounter := requestCounter
  others := []
  ownedKey := none
  shouldBlockGetRequest := false
  waiting := []
  leader := none
  requests := ∅
  answers := []

/-- `is_streaming_media`. -/
def isStreamingMedia (contentType : String) : Bool :=
  let m := contentType.toList.take 5
  m == "video".toList || m == "audio".toList

/-- The file `prepare_file_write` makes: the content of the master object, or the last byte of
`size` bytes. -/
def prepareFileWrite (codec : Codec) (m : MasterInfo) : Bytes :=
  match m.content with
  | some c => codec.base64Decode c
  | none => if m.size = 0 then [] else Patches.write 0 [] (m.size - 1) [0x30]

namespace Fetch

variable (s : Fetch)

/-- There is a request with that id in `m_requests`. -/
def InUse (id : ID32) : Prop :=
  s.requests.lookup id ≠ none ∨ id ∈ s.waiting.map Prod.fst ∨ id ∈ s.others

instance (id : ID32) : Decidable (s.InUse id) := inferInstanceAs (Decidable (_ ∨ _ ∨ _))

/-- `kernel::get_request_id`; an id that is taken is an assertion that fails. -/
def getRequestId : Fetch × Option ID32 :=
  ({ s with requestCounter := nextCounter s.requestCounter },
    if s.InUse s.requestCounter then none else some s.requestCounter)

/-- `kernel::send_ims_response`: all who wait are answered, and their requests are erased. -/
def sendImsResponse (answer : Answer) : Option Fetch :=
  pocoAssert (s.waiting ≠ []) <|
    some { s with
      waiting := []
      leader := none
      answers := s.answers ++ s.waiting.map fun w => (w.2, answer) }

/-- Writes a request for a piece back. -/
def setRequest (id : ID32) (r : PieceRequest) : Fetch :=
  { s with requests := s.requests.insert id r }

/-- `m_requests.erase`, of a request for a piece. -/
def eraseRequest (id : ID32) : Fetch := { s with requests := s.requests.erase id }

/-- Writes the first request back. -/
def setLeader (l : Leader) : Fetch := { s with leader := some l }

/-- The first request, if it has that id. -/
def parent (id : ID32) : Option Leader := s.leader.filter fun l => l.id = id

/-! ### Pieces -/

/-- `kernel::set_piece_key`, with the key of the first request and what the master object has for
the piece. -/
def pieceKey (key : AesKey) (p : PieceInfo) : AesKey :=
  ⟨p.aesKey.getD key.key, p.aesIv.getD key.iv⟩

/-- `kernel::construct_get_request_for_piece`: a request for a piece, and its id. An id that is
taken throws, and so does `set_piece_key` where the master object does not have the uuid under the
name `toString` gives it. -/
def constructGetRequestForPiece (l : Leader) (pieces : Table PieceName PieceInfo) (uuid : UUID) :
    Fetch × Option ID32 :=
  match s.getRequestId with
  | (s, none) => (s, none)
  | (s, some id) =>
    match pieces.lookup (.canonical uuid) with
    | none => (s.setRequest id ⟨uuid, l.id, ⟨[], []⟩, .idle⟩, none)
    | some p => (s.setRequest id ⟨uuid, l.id, pieceKey l.aesKey p, .idle⟩, some id)

/-- The size of a piece as an `ID32`, and the uuid its name is read as: `none` where one of the two
throws. -/
def readPiece (name : PieceName) (p : PieceInfo) : Option UUID :=
  match p.size, name with
  | .value n, .canonical u => if n < 2 ^ 32 then some u else none
  | .value n, .other _ u => if n < 2 ^ 32 then u else none
  | _, _ => none

/-- The loop of `kernel::start_getting_pieces`. It has no units where something throws. -/
def constructGetRequests (l : Leader) (pieces : Table PieceName PieceInfo) (s : Fetch) :
    List (Σ _ : PieceName, PieceInfo) → List ID32 → Fetch × Option (List ID32)
  | [], units => (s, some units)
  | ⟨name, p⟩ :: ps, units =>
    match readPiece name p with
    | none => (s, none)
    | some uuid =>
      match s.constructGetRequestForPiece l pieces uuid with
      | (s, none) => (s, none)
      | (s, some id) => constructGetRequests l pieces s ps (units ++ [id])

/-- `kernel::post_storage_next_piece_get_request`. The units are a set in the order of the ids. -/
def postStorageNextPieceGetRequest (l : Leader) (file : Bytes)
    (pieces : Table PieceName PieceInfo) : List ID32 → Option (Fetch × List ID32)
  | [] => some (s, [])
  | i :: units => (s.requests.lookup i).map fun r =>
    ((s.setRequest i { r with place := .fetching }).setLeader
      { l with phase := .getting file pieces units }, units)

/-- The second loop of `kernel::start_getting_pieces`, and whether no assertion failed in it. -/
def postStorageFirstPieces (l : Leader) (file : Bytes) (pieces : Table PieceName PieceInfo) :
    ℕ → Fetch → List ID32 → Fetch × Bool
  | 0, s, _ => (s, true)
  | n + 1, s, units =>
    match s.postStorageNextPieceGetRequest l file pieces units with
    | none => (s, false)
    | some (s, units) => postStorageFirstPieces l file pieces n s units

/-- How the texts of all failures start. -/
def failed : String := "Getting file failed: uuid=" ++ s.uuid.toString ++ "."

/-- `kernel::handle_failed_ims_get_request`; `data` is what the request has for a message. -/
def handleFailedImsGetRequest (data : Option String) : Option Fetch :=
  s.sendImsResponse (.getFail (s.failed ++ data.elim "" fun d => " " ++ d))

/-- `handle_unencrypted_master_object` has this for an exception. -/
def notValid : String := "Master object is not valid or encrypted but key not found."

/-- `kernel::send_ims_requested_data`. -/
def sendImsRequestedData (l : Leader) (file : Bytes) : Option Fetch :=
  s.sendImsResponse (.getData file l.contentType)

/-- `kernel::start_getting_pieces`. Its caller answers every exception in it, an assertion that
fails included. -/
def startGettingPieces (codec : Codec) (l : Leader) (m : MasterInfo) : Option Fetch :=
  let file := prepareFileWrite codec m
  if m.pieces.entries.length = 0 then s.sendImsRequestedData l file
  else
    match constructGetRequests l m.pieces s m.pieces.entries [] with
    | (s, none) => s.handleFailedImsGetRequest (some notValid)
    | (s, some units) =>
      match postStorageFirstPieces l file m.pieces maxGetCount
        (s.setLeader { l with phase := .getting file m.pieces units }) units with
      | (s, false) => s.handleFailedImsGetRequest (some notValid)
      | (s, true) => some s

/-- `kernel::write_data_to_stream`, for the piece with the name `uuid`, with
`kernel::get_start_position`; and whether an exception has left it. -/
def writeDataToStream (l : Leader) (uuid : UUID) (data : Bytes) : Option (Fetch × Bool) :=
  match l.phase with
  | .getting file pieces units => (pieces.lookup (.canonical uuid)).bind fun p =>
    pocoAssert (p.start ≠ .missing ∧ p.size ≠ .missing) <|
      match p.start with
      | .value start =>
        let file := Patches.write 0 file start data
        let pieces := pieces.erase (.canonical uuid)
        let s := s.setLeader { l with phase := .getting file pieces units }
        if pieces.entries.length = 0 then (s.sendImsRequestedData l file).map fun s => (s, false)
        else some (s, false)
      | _ => some (s, true)
  | _ => none

/-- The end of `kernel::handle_piece` and of `kernel::handle_get_request_after_decrypt`: the piece
is written and its request erased, unless an exception comes between. -/
def processUnencryptedPiece (l : Leader) (id : ID32) (r : PieceRequest) (data : Bytes) :
    Option Fetch :=
  (s.writeDataToStream l r.uuid data).map fun (s, thrown) =>
    if thrown then s.setRequest id { r with place := .idle } else s.eraseRequest id

/-- `kernel::handle_piece`, for the request `r` of the id. -/
def handlePiece (id : ID32) (r : PieceRequest) (data : Bytes) : Option Fetch :=
  match s.parent r.parentReqId with
  | none => some (s.eraseRequest id)
  | some l =>
    match l.phase with
    | .getting file pieces units =>
      (s.postStorageNextPieceGetRequest l file pieces units).bind fun (s, units) =>
        if Plain r.aesKey then
          s.processUnencryptedPiece { l with phase := .getting file pieces units } id r data
        else
          pocoAssert (Whole r.aesKey) <|
            some (s.setRequest id { r with place := .decrypting r.aesKey data })
    | _ => none

/-- `kernel::handle_get_request_after_decrypt`, for a piece. -/
def handleGetRequestAfterDecrypt (id : ID32) (r : PieceRequest) (data : Bytes) : Option Fetch :=
  match s.parent r.parentReqId with
  | none => some (s.eraseRequest id)
  | some l => s.processUnencryptedPiece l id r data

/-- `kernel::handle_key_manager_failed_get_request`, with the text of the key manager. -/
def keyManagerFailed : Option Fetch :=
  s.sendImsResponse (.getFail (s.failed ++ " Failed to decrypt data."))

/-- `kernel::handle_key_manager_failed_get_request`, for a piece. -/
def handleKeyManagerFailedGetRequest (id : ID32) (r : PieceRequest) : Option Fetch :=
  match s.parent r.parentReqId with
  | none => some (s.eraseRequest id)
  | some _ => (s.eraseRequest id).keyManagerFailed

/-- `kernel::handle_failed_kernel_get_request`, which keeps the request of the piece. -/
def handleFailedKernelGetRequest (id : ID32) (r : PieceRequest) : Option Fetch :=
  let s := s.setRequest id { r with place := .idle }
  match s.parent r.parentReqId with
  | none => some s
  | some _ => s.sendImsResponse (.getFail (s.failed ++
    " There is a missing chunk in the requested object: chunk_uuid = " ++ r.uuid.toString))

/-! ### The master object -/

/-- `kernel::handle_unencrypted_master_object` and `kernel::handle_decrypted_master_node_for_get`.
What is no master object is answered with `get_fail`. -/
def handleUnencryptedMasterObject (codec : Codec) (l : Leader) (data : Bytes) : Option Fetch :=
  match codec.parse data with
  | none => s.handleFailedImsGetRequest (some notValid)
  | some m =>
    let l := { l with contentType := m.contentType }
    if isStreamingMedia l.contentType then some (s.setLeader { l with phase := .streaming })
    else s.startGettingPieces codec l m

/-- `kernel::got_master_object`, with `kernel::get_keys_from_master_info`. -/
def gotMasterObject (codec : Codec) (l : Leader) (data : Bytes) : Option Fetch :=
  let l := { l with aesKey := s.ownedKey.getD l.aesKey }
  if Plain l.aesKey then
    (s.setLeader l).handleUnencryptedMasterObject codec l data
  else
    pocoAssert (Whole l.aesKey) <|
      some (s.setLeader { l with phase := .decrypting l.aesKey data })

/-! ### The IMS -/

/-- The text of `send_ims_get_fail_request`. -/
def retryLater : String := "Getting file failed. Please retry later."

/-- `kernel::handle_ims_get_request` and `kernel::process_ims_get_request`: while gets are blocked
the answer is `get_fail` at once. -/
def handleImsGetRequest (ims : ID32) : Option Fetch :=
  if s.shouldBlockGetRequest then
    some { s with answers := s.answers ++ [(ims, .getFail retryLater)] }
  else
    match s.getRequestId with
    | (_, none) => none
    | (s, some id) => some { s with
        waiting := s.waiting ++ [(id, ims)]
        leader := if s.waiting = [] then some ⟨id, ⟨[], []⟩, "", .fetching⟩ else s.leader }

end Fetch

/-! ### What this program writes -/

/-- What is read of a piece that was written. -/
def pieceInfo (p : Piece) : PieceInfo where
  start := .value p.start
  size := .value p.size
  aesKey := p.aesKey.map AesKey.key
  aesIv := p.aesKey.map AesKey.iv

/-- What is read of the pieces that were written. -/
def piecesInfo (p : Pieces) : Table PieceName PieceInfo where
  entries := p.toList.map fun x => ⟨.canonical x.1, pieceInfo x.2⟩
  nodupKeys := by
    have hkeys : (p.toList.map fun x => (⟨.canonical x.1, pieceInfo x.2⟩ :
        Σ _ : PieceName, PieceInfo)).keys = (p.toList.map Prod.fst).map PieceName.canonical := by
      rw [List.keys, List.map_map, List.map_map]
      rfl
    rw [List.NodupKeys, hkeys]
    exact p.nodup_toList.map fun _ _ heq => PieceName.canonical.inj heq

/-- What is read of a master object that was written. -/
def masterInfo (m : MasterJson) : MasterInfo where
  size := m.size
  contentType := m.contentType
  pieces := piecesInfo m.pieces
  content := m.content

/-! ### Steps -/

/-- What happens: the rest of the kernel goes on (ids are handed out, other requests come and go,
the user json changes, gets are blocked or not any more); the IMS asks; data arrives, the key
manager answers, or a get fails, for the master object or for a piece. -/
inductive Event
  | elsewhere (requestCounter : ID32) (others : List ID32) (ownedKey : Option AesKey)
      (shouldBlockGetRequest : Bool)
  | imsGet (ims : ID32)
  | gotMaster (data : Bytes)
  | masterDecrypted
  | masterFailed
  | gotPiece (id : ID32) (data : Bytes)
  | pieceDecrypted (id : ID32)
  | pieceFailed (id : ID32)
  deriving DecidableEq

open Fetch

/-- **A step** of the kernel. What was not asked is not answered. -/
def step (codec : Codec) (s : Fetch) : Event → Option Fetch
  | .elsewhere requestCounter others ownedKey shouldBlockGetRequest =>
    some { s with requestCounter, others, ownedKey, shouldBlockGetRequest }
  | .imsGet ims => s.handleImsGetRequest ims
  | .gotMaster data => s.leader.bind fun l =>
    match l.phase with
    | .fetching => s.gotMasterObject codec l data
    | _ => none
  | .masterDecrypted => s.leader.bind fun l =>
    match l.phase with
    | .decrypting key pkg =>
      match codec.decrypt key pkg with
      | some data => s.handleUnencryptedMasterObject codec l data
      | none => s.keyManagerFailed
    | _ => none
  | .masterFailed => s.leader.bind fun l =>
    match l.phase with
    | .fetching => s.handleFailedImsGetRequest none
    | _ => none
  | .gotPiece id data => (s.requests.lookup id).bind fun r =>
    match r.place with
    | .fetching => s.handlePiece id r data
    | _ => none
  | .pieceDecrypted id => (s.requests.lookup id).bind fun r =>
    match r.place with
    | .decrypting key pkg =>
      match codec.decrypt key pkg with
      | some data => s.handleGetRequestAfterDecrypt id r data
      | none => s.handleKeyManagerFailedGetRequest id r
    | _ => none
  | .pieceFailed id => (s.requests.lookup id).bind fun r =>
    match r.place with
    | .fetching => s.handleFailedKernelGetRequest id r
    | _ => none

end Retrieval

end Metax
