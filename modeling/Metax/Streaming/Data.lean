import Metax.Kernel.Data
import Metax.Library.Run

/-!
# Streaming gets

What the kernel does for the streaming get requests of one uuid. The requests share one list of
chunks, which the first of them sets up from the master object. A request keeps a window of chunks
requested, hands the available ones to the IMS in their order, and cuts the first and the last one
to the range it was asked for.

The state is the part of the kernel these requests use, `Stream`. The data of a piece request and of
the look-up of a master object come from the local storage or, after a negative answer of it, from
the router, also after some retries; the state does not tell these apart. An encrypted object goes
through the key manager in between. A failed assertion ends the process: the step is `none`.
-/

namespace Metax

namespace Streaming

/-- `max_get_count`. -/
def maxGetCount : ℕ := 2

/-- The value of a signed number as `Poco::UInt64`. -/
def uint64 (z : ℤ) : ℕ := (z % 2 ^ 64).toNat

/-- The value of a number as `int64_t`. -/
def int64 (z : ℤ) : ℤ := (z + 2 ^ 63) % 2 ^ 64 - 2 ^ 63

/-- `chunk_streaming_info`, with what is in its file. -/
structure Chunk where
  requested : Bool
  available : Bool
  start : ℕ
  size : ℕ
  uuid : UUID
  file : Bytes
  deriving DecidableEq

/-- `get_range`. -/
abbrev GetRange := ℤ × ℤ

/-- `streaming_info` of a request that has the list. `chunkCount` and `sent` are ghost: the count
that was announced to the IMS, and the files that were sent. -/
structure Progress where
  curr : ℕ
  last : ℕ
  chunkCount : ℕ
  sent : List Bytes
  deriving DecidableEq

/-- A get request of the IMS. `asked` is ghost: the range as it came. -/
structure Listener where
  id : ID32
  asked : GetRange
  getRange : GetRange
  streaming : Option Progress
  deriving DecidableEq

/-- A request of the kernel for a chunk. -/
structure PieceRequest where
  id : ID32
  uuid : UUID
  parent : ID32
  aesKey : Option AesKey
  decrypting : Bool
  deriving DecidableEq

/-- A master object that was asked for, by the request it is for. -/
structure LookUp where
  id : ID32
  decrypting : Bool
  deriving DecidableEq

/-- What the requests share: the chunks, the master object's size and pieces and the key, and the
requests for chunks. -/
structure Shared where
  list : List Chunk
  size : ℕ
  pieces : Pieces
  aesKey : Option AesKey
  pieceRequests : List PieceRequest
  nextId : ID32

/-- The state: `m_pending_ims_get_requests` of the uuid with the requests in it, what they share,
the look-ups, and the requests that were cleaned, whose ids are still in `m_ims_req_ids`. -/
structure Stream where
  listeners : List Listener
  shared : Shared
  lookUps : List LookUp
  cleaned : List ID32

/-- No request so far. -/
def Stream.init : Stream := ⟨[], ⟨[], 0, ∅, none, [], 0⟩, [], []⟩

/-- There is a request of the IMS with that id. -/
def Stream.Alive (s : Stream) (id : ID32) : Prop := ∃ l ∈ s.listeners, l.id = id

instance (s : Stream) (id : ID32) : Decidable (s.Alive id) :=
  inferInstanceAs (Decidable (∃ l ∈ s.listeners, l.id = id))

/-! ### The range of a request -/

/-- `normalize_streaming_range`, for an object of `l` bytes. -/
def normalizeStreamingRange (l : ℕ) (r : GetRange) : GetRange :=
  let first := if r.1 = -1 then if r.2 = -1 then 0 else int64 (l - r.2) else r.1
  let second := if r.1 = -1 ∨ r.2 = -1 then int64 (l - 1) else r.2 + (r.1 - 1)
  (if l < uint64 first then 0 else first, if l < uint64 second then int64 (l - 1) else second)

/-- The byte is in the chunk, and not its first one. -/
def Chunk.Within (c : Chunk) (x : ℤ) : Prop := c.start < uint64 x ∧ uint64 x < c.start + c.size

instance (c : Chunk) (x : ℤ) : Decidable (c.Within x) :=
  inferInstanceAs (Decidable (_ ∧ _))

/-- The loop of `calculate_stream_current_chunk_from_range`. -/
def calculateLoop (r : GetRange) : ℕ → List Chunk → ℕ × ℕ → ℕ × ℕ
  | _, [], p => p
  | i, c :: cs, p =>
    calculateLoop r (i + 1) cs
      (if c.Within r.1 then i else p.1, if c.Within r.2 then i + 1 else p.2)

/-- `calculate_stream_current_chunk_from_range` and `process_stream_prepare`: the request has the
list from here on. -/
def Listener.setStreamingState (sh : Shared) (l : Listener) : Listener :=
  let r := normalizeStreamingRange sh.size l.getRange
  let p := calculateLoop r 0 sh.list (0, 0)
  { l with getRange := r, streaming := some ⟨p.1, p.2, uint64 (p.2 - p.1), []⟩ }

/-! ### Sending -/

/-- `prepare_partial_chunk`. -/
def preparePartialChunk (r : GetRange) (c : Chunk) : Bytes :=
  let b := if c.start < uint64 r.1 then uint64 (r.1 - c.start) else 0
  let e := if uint64 r.2 < uint64 (c.start + c.size - 1) then uint64 (r.2 - c.start + 1) else c.size
  (c.file.drop b).take (e - b)

/-- The file that is sent for a chunk. -/
def chunkFile (r : GetRange) (c : Chunk) : Bytes :=
  if c.start < uint64 r.1 ∨ uint64 r.2 < uint64 (c.start + c.size - 1) then preparePartialChunk r c
  else c.file

/-- The loop of `send_available_chunks_to_ims`, which sends `n` chunks at most. -/
def sendLoop (r : GetRange) (list : List Chunk) : ℕ → Progress → Progress
  | 0, p => p
  | n + 1, p =>
    match list[p.curr]? with
    | none => p
    | some c =>
      if c.available then
        sendLoop r list n { p with curr := p.curr + 1, sent := p.sent ++ [chunkFile r c] }
      else p

/-- `set_piece_key`. -/
def pieceKey (sh : Shared) (uuid : UUID) : Option AesKey :=
  ((sh.pieces.lookup uuid).bind Piece.aesKey).or sh.aesKey

/-- `post_look_up_request_for_piece`, for the chunk with that number. -/
def postLookUpRequestForPiece (sh : Shared) (parent : ID32) (i : ℕ) (c : Chunk) : Shared where
  list := sh.list.set i { c with requested := true }
  size := sh.size
  pieces := sh.pieces
  aesKey := sh.aesKey
  pieceRequests := sh.pieceRequests ++ [⟨sh.nextId, c.uuid, parent, pieceKey sh c.uuid, false⟩]
  nextId := sh.nextId + 1

/-- The loop of `post_storage_next_streaming_chunk_get_request`, over `n` chunks at most. -/
def postLoop (parent : ID32) (last : ℕ) : ℕ → ℕ → Shared → Option Shared
  | 0, _, sh => some sh
  | n + 1, next, sh =>
    if next < last then
      match sh.list[next]? with
      | none => none
      | some c =>
        if c.requested then postLoop parent last n (next + 1) sh
        else if c.available then none
        else postLoop parent last n (next + 1) (postLookUpRequestForPiece sh parent next c)
    else some sh

/-- `post_storage_next_streaming_chunk_get_request`. -/
def postNext (sh : Shared) (l : Listener) : Option Shared :=
  match l.streaming with
  | none => none
  | some p => postLoop l.id p.last maxGetCount p.curr sh

/-- `send_available_chunks_to_ims`. -/
def sendAvailableChunks (sh : Shared) (l : Listener) : Option (Shared × Listener) :=
  match l.streaming with
  | none => none
  | some p =>
    let l := { l with streaming := some (sendLoop l.getRange sh.list (p.last - p.curr) p) }
    (postNext sh l).map fun sh => (sh, l)

/-- One request of the loop of `process_pending_get_streaming_requests`, for the chunk with that
number. -/
def serve (i : ℕ) (sh : Shared) (l : Listener) : Option (Shared × Listener) :=
  if (l.streaming.elim 0 Progress.curr) = i then sendAvailableChunks sh l else some (sh, l)

/-- A loop over the requests. -/
def forEach (f : Shared → Listener → Option (Shared × Listener)) :
    Shared → List Listener → Option (Shared × List Listener)
  | sh, [] => some (sh, [])
  | sh, l :: ls =>
    match f sh l with
    | none => none
    | some (sh, l) => (forEach f sh ls).map fun p => (p.1, l :: p.2)

/-- A loop over the requests, in the state. -/
def Stream.each (s : Stream) (f : Shared → Listener → Option (Shared × Listener)) : Option Stream :=
  (forEach f s.shared s.listeners).map fun p => { s with shared := p.1, listeners := p.2 }

/-! ### The handlers -/

/-- `process_ims_get_request`. -/
def processImsGetRequest (s : Stream) (range : GetRange) : Option Stream :=
  let id := s.shared.nextId
  let sh := { s.shared with nextId := id + 1 }
  let l : Listener := ⟨id, range, range, none⟩
  match s.listeners with
  | [] => some { s with listeners := [l], shared := sh, lookUps := s.lookUps ++ [⟨id, false⟩] }
  | e :: _ =>
    if e.streaming.isSome then
      (sendAvailableChunks sh (l.setStreamingState sh)).map fun p =>
        { s with listeners := s.listeners ++ [p.2], shared := p.1 }
    else some { s with listeners := s.listeners ++ [l], shared := sh }

/-- `construct_streaming_state_from_pieces`, before the requests are told. The names of the pieces
are taken to be canonical uuids and no two of them the same, as `generate_pieces_json` makes them;
a master object somebody else has written may have others. -/
def chunksFromPieces (pieces : Pieces) : List Chunk :=
  (pieces.toList.map fun p => ⟨false, false, p.2.start, p.2.size, p.1, []⟩).insertionSort
    fun c c' => c.start ≤ c'.start

/-- `construct_streaming_state_from_content`, before the requests are told. -/
def chunksFromContent (size : ℕ) (content : Bytes) : List Chunk :=
  [⟨true, true, 0, size, 0, content⟩]

/-- The chunks of an object. -/
def chunkList (codec : Codec) (m : MasterJson) : List Chunk :=
  match m.content with
  | some content => chunksFromContent m.size (codec.base64Decode content)
  | none => chunksFromPieces m.pieces

/-- The numbers the list is made of are read as `ID32`, which throws if they do not fit. -/
def readable (m : MasterJson) : Bool :=
  if m.content.isSome then decide (m.size < 2 ^ 32)
  else m.pieces.toList.all fun p => decide (p.2.start < 2 ^ 32 ∧ p.2.size < 2 ^ 32)

/-- The loop of `update_pending_stream_requests`, after the request `id` itself. -/
def updatePending (sh : Shared) (id : ID32) (l : Listener) : Listener :=
  if l.id = id ∨ l.streaming = none then l.setStreamingState sh else l

/-- `construct_streaming_state`. -/
def constructStreamingState (codec : Codec) (s : Stream) (id : ID32) (key : Option AesKey)
    (m : MasterJson) : Option Stream :=
  let sh := { s.shared with
    list := chunkList codec m, size := m.size, pieces := m.pieces, aesKey := key }
  let s := { s with shared := sh, listeners := s.listeners.map (updatePending sh id) }
  if m.content.isSome then s.each (serve 0)
  else s.each fun sh l => (postNext sh l).map fun sh => (sh, l)

/-- `get_streaming_chunk_index`. -/
def getStreamingChunkIndex (list : List Chunk) (uuid : UUID) : ℕ :=
  list.findIdx fun c => c.uuid = uuid

/-- `handle_streaming_chunk`. -/
def handleStreamingChunk (s : Stream) (uuid : UUID) (data : Bytes) : Option Stream :=
  let i := getStreamingChunkIndex s.shared.list uuid
  match s.shared.list[i]? with
  | none => none
  | some c =>
    let list := s.shared.list.set i { c with available := true, file := data }
    { s with shared := { s.shared with list := list } }.each (serve i)

/-- The request for the chunk is answered. -/
def Stream.erase (s : Stream) (id : ID32) : Stream :=
  { s with shared := { s.shared with
    pieceRequests := s.shared.pieceRequests.filter fun p => p.id ≠ id } }

/-- `handle_piece`. -/
def handlePiece (s : Stream) (p : PieceRequest) (data : Bytes) : Option Stream :=
  if s.Alive p.parent then
    match p.aesKey with
    | none => (handleStreamingChunk s p.uuid data).map fun s => s.erase p.id
    | some _ =>
      let waiting := s.shared.pieceRequests.map fun q =>
        if q.id = p.id then { q with decrypting := true } else q
      some { s with shared := { s.shared with pieceRequests := waiting } }
  else some (s.erase p.id)

/-- `handle_get_request_after_decrypt`, for a piece. -/
def handlePieceAfterDecrypt (s : Stream) (p : PieceRequest) (data : Bytes) : Option Stream :=
  if s.Alive p.parent then (handleStreamingChunk s p.uuid data).map fun s => s.erase p.id
  else some (s.erase p.id)

/-- `send_ims_response` with `get_fail`: all requests fail. -/
def failAll (s : Stream) : Stream := { s with listeners := [] }

/-- `handle_failed_kernel_get_request`. -/
def handleFailedPiece (s : Stream) (p : PieceRequest) : Stream :=
  if s.Alive p.parent then failAll (s.erase p.id) else s.erase p.id

/-- The master object was looked up. -/
def Stream.lookedUp (s : Stream) (id : ID32) : Stream :=
  { s with lookUps := s.lookUps.filter fun k => k.id ≠ id }

/-- `got_master_object`, for an encrypted one. -/
def postKeyManagerDecryptMaster (s : Stream) (k : LookUp) : Stream :=
  if s.Alive k.id then
    { s with lookUps := s.lookUps.map fun k' => if k'.id = k.id then ⟨k.id, true⟩ else k' }
  else s.lookedUp k.id

/-- `handle_failed_ims_get_request`. -/
def handleFailedMaster (s : Stream) (k : LookUp) : Option Stream :=
  if s.Alive k.id then some (failAll (s.lookedUp k.id))
  else if k.decrypting then none else some (s.lookedUp k.id)

/-- `handle_unencrypted_master_object`. The answer of the key manager is not expected by a request
that is not there. -/
def handleMasterObject (codec : Codec) (s : Stream) (k : LookUp) (key : Option AesKey)
    (m : MasterJson) : Option Stream :=
  if s.Alive k.id ∧ readable m then constructStreamingState codec (s.lookedUp k.id) k.id key m
  else handleFailedMaster s k

/-- `handle_ims_clean_stream_request`. -/
def handleImsCleanStreamRequest (s : Stream) (id : ID32) : Option Stream :=
  if s.Alive id then
    some { s with listeners := s.listeners.filter fun l => l.id ≠ id, cleaned := id :: s.cleaned }
  else if id ∈ s.cleaned then none else some s

/-- What happens to the requests. -/
inductive Event
  | get (range : GetRange)
  | encryptedMaster (id : ID32)
  | master (id : ID32) (key : Option AesKey) (m : MasterJson)
  | masterFailed (id : ID32)
  | piece (id : ID32) (data : Bytes)
  | decryptedPiece (id : ID32) (data : Bytes)
  | pieceFailed (id : ID32)
  | clean (id : ID32)

/-- The request for a chunk with that id, on the way from the storage and the router or, if
`decrypting`, at the key manager. -/
def Stream.findPiece (s : Stream) (id : ID32) (decrypting : Bool) : Option PieceRequest :=
  s.shared.pieceRequests.find? fun p => p.id = id ∧ p.decrypting = decrypting

/-- The look-up with that id. -/
def Stream.findLookUp (s : Stream) (id : ID32) : Option LookUp :=
  s.lookUps.find? fun k => k.id = id

/-- One event. An answer nobody waits for changes nothing. -/
def step (codec : Codec) (s : Stream) : Event → Option Stream
  | .get range => processImsGetRequest s range
  | .encryptedMaster id => some ((s.findLookUp id).elim s (postKeyManagerDecryptMaster s))
  | .master id key m => (s.findLookUp id).elim (some s) fun k => handleMasterObject codec s k key m
  | .masterFailed id => (s.findLookUp id).elim (some s) (handleFailedMaster s)
  | .piece id data => (s.findPiece id false).elim (some s) fun p => handlePiece s p data
  | .decryptedPiece id data =>
    (s.findPiece id true).elim (some s) fun p => handlePieceAfterDecrypt s p data
  | .pieceFailed id =>
    some ((s.shared.pieceRequests.find? fun p => p.id = id).elim s (handleFailedPiece s))
  | .clean id => handleImsCleanStreamRequest s id

end Streaming

end Metax
