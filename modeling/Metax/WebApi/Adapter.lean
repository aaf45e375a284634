import Metax.Library.Exit
import Metax.Library.Ledger
import Metax.Library.Run
import Metax.Platform.Package
import Metax.Protocol.Command

/-!
# The web API adapter

A handler thread of the HTTP server makes a promise for its request, gives it to the adapter and
waits for its future. The adapter keeps the request in one of three maps, and answers it with
messages of the kernel. The answer of a stream is made of several promises: for a media file, one
for each chunk; for a livestream, one at a time. Its client takes the request out of the map when
it is done with it.

A promise that is set twice throws, which ends the handling of the message; a failed assertion
ends the process. In the thread of a client both are logged, and nothing happens. What the answers
contain is left out. Handlers are atomic.
-/

namespace Metax

namespace WebApi

open Ledger (Table)

/-- The address of a request handler. -/
abbrev ClientId := ℕ

/-- The maps `m_get_requests`, `m_save_requests` and `m_config_requests`. -/
inductive Map
  | get
  | save
  | config
  deriving DecidableEq

/-- `request_info`. Its promises are numbered, the initial one is the first; the vector of stream
promises has the numbers. -/
structure RequestInfo where
  streamPromises : Option (List ℕ)
  curStreamChunk : ℕ
  command : Command
  clientId : ClientId
  deriving DecidableEq

/-- A new `request_info`. -/
def RequestInfo.new (command : Command) (clientId : ClientId) : RequestInfo :=
  ⟨none, 0, command, clientId⟩

/-- What a client may have asked for: data, that a livestream is saved, or something with a single
answer, for which the request is in the given map. -/
inductive Kind
  | get
  | saveStream
  | plain (m : Map)
  deriving DecidableEq

/-- The map of the requests of a kind. -/
def Kind.map : Kind → Map
  | get => .get
  | saveStream => .save
  | plain m => m

/-- How far the kernel has answered a request: not at all, with some of the chunks of a media file,
with the start or content of a livestream, or with its final message. -/
inductive Phase
  | asked
  | streaming (chunkCount sent : ℕ)
  | live
  | ended
  deriving DecidableEq

/-- What there was between the kernel and the client of a request, which client has to take the
request out of its map, and whether it did. -/
structure Talk where
  kind : Kind
  client : Option ClientId
  phase : Phase
  left : Bool
  deriving DecidableEq

/-- The state. For each request there is whether its promises are fulfilled, in the order in which
they were made; `talks` is ghost. -/
structure Adapter where
  requests : Map → Table ID32 RequestInfo
  clientToRequest : Table ClientId ID32
  counter : ID32
  promises : Table ID32 (List Bool)
  talks : Table ID32 Talk

/-- The adapter without requests. -/
def Adapter.init : Adapter := ⟨fun _ => ∅, ∅, 0, ∅, ∅⟩

variable (s : Adapter)

/-! ### Requests and promises -/

/-- Writes a request. -/
def setRequest (m : Map) (id : ID32) (r : RequestInfo) : Adapter :=
  { s with requests := Function.update s.requests m ((s.requests m).insert id r) }

/-- Erases a request. -/
def eraseRequest (m : Map) (id : ID32) : Adapter :=
  { s with requests := Function.update s.requests m ((s.requests m).erase id) }

/-- The promises of a request. -/
def promisesOf (id : ID32) : List Bool := (s.promises.lookup id).getD []

/-- Makes promises. -/
def makePromises (id : ID32) (n : ℕ) : Adapter :=
  { s with promises := s.promises.insert id (promisesOf s id ++ List.replicate n false) }

/-- `set_value`. -/
def setValue (id : ID32) (j : ℕ) : Exit Adapter :=
  if (promisesOf s id)[j]? = some false then
    .done { s with promises := s.promises.insert id ((promisesOf s id).set j true) }
  else .threw s

/-- `clean_get_request`, `clean_save_request` and `clean_config_request`. The last one does not know
of clients. -/
def cleanRequest (m : Map) (id : ID32) (clientId : ClientId) : Exit Adapter :=
  .assert (((s.requests m).lookup id).isSome) <|
    .done { eraseRequest s m id with
      clientToRequest :=
        if m = .config then s.clientToRequest else s.clientToRequest.erase clientId }

/-! ### Messages of the kernel -/

/-- `send_streaming_chunk`. -/
def sendStreamingChunk (id : ID32) (r : RequestInfo) (ps : List ℕ) : Exit Adapter :=
  Exit.orThrow ps[r.curStreamChunk]? s fun j =>
    setValue (setRequest s .get id { r with curStreamChunk := r.curStreamChunk + 1 }) id j

/-- `send_get_response`. -/
def sendGetResponse (id : ID32) : Exit Adapter :=
  match (s.requests .get).lookup id with
  | none => .aborted
  | some r =>
    match r.streamPromises with
    | some ps => .assert (r.curStreamChunk < ps.length) (sendStreamingChunk s id r ps)
    | none => (setValue s id 0).andThen fun s => cleanRequest s .get id r.clientId

/-- `handle_streaming_prepare`. The count of the chunks is cut to 32 bits. -/
def handleStreamingPrepare (id : ID32) (chunkCount : ℕ) : Exit Adapter :=
  match (s.requests .get).lookup id with
  | none => .done s
  | some r =>
    .assert (r.command = .get) <|
      let n := chunkCount % 2 ^ 32
      let ps := List.range' (promisesOf s id).length n
      let s := makePromises (setRequest s .get id { r with streamPromises := some ps }) id n
      setValue s id 0

/-- `handle_get_fail`. -/
def handleGetFail (id : ID32) : Exit Adapter :=
  match (s.requests .get).lookup id with
  | none => .done s
  | some r => (setValue s id 0).andThen fun s => cleanRequest s .get id r.clientId

/-- `send_livestream_cancel_to_client`. -/
def sendLivestreamCancelToClient (id : ID32) (r : RequestInfo) : Exit Adapter :=
  match r.streamPromises with
  | none => setValue s id 0
  | some ps => .assert (ps.length = 1) <| Exit.orThrow ps[0]? s fun j => setValue s id j

/-- `handle_get_livestream_fail` and `handle_save_stream_fail`. -/
def handleLivestreamFail (m : Map) (id : ID32) : Exit Adapter :=
  match (s.requests m).lookup id with
  | none => .done s
  | some r => (sendLivestreamCancelToClient s id r).andThen fun s => cleanRequest s m id 0

/-- A stream promise, with its future. -/
def makeStreamPromise (m : Map) (id : ID32) (r : RequestInfo) : Adapter :=
  makePromises (setRequest s m id { r with streamPromises := some [(promisesOf s id).length] }) id 1

/-- `send_save_stream_response`. -/
def sendSaveStreamResponse (id : ID32) : Exit Adapter :=
  match (s.requests .save).lookup id with
  | none => .done s
  | some r => setValue (makeStreamPromise s .save id r) id 0

/-- `send_livestream_content`. -/
def sendLivestreamContent (id : ID32) (size : ℕ) : Exit Adapter :=
  match (s.requests .get).lookup id with
  | none => .done s
  | some r =>
    .assert (0 ≠ size) <|
      match r.streamPromises with
      | none => setValue (makeStreamPromise s .get id r) id 0
      | some ps =>
        .assert (ps.length = 1) <| Exit.orThrow ps[0]? s fun j =>
          setValue (makeStreamPromise s .get id r) id j

/-- `handle_metax_fail`. The request is cleaned first. -/
def handleMetaxFail (id : ID32) : Exit Adapter :=
  match (s.requests .get).lookup id with
  | some r => (cleanRequest s .get id r.clientId).andThen fun s => setValue s id 0
  | none =>
    match (s.requests .save).lookup id with
    | some _ => (cleanRequest s .save id 0).andThen fun s => setValue s id 0
    | none => (cleanRequest s .config id 0).andThen fun s => setValue s id 0

/-- Any of the handlers that look a request up in a map, and answer and clean it if it is there,
such as `send_save_response`, `handle_deleted_response` or `handle_copy_succeeded_response`. -/
def handleAnswer (m : Map) (id : ID32) : Exit Adapter :=
  match (s.requests m).lookup id with
  | none => .done s
  | some _ => (setValue s id 0).andThen fun s => cleanRequest s m id 0

/-- The messages of the kernel. -/
inductive Message
  | getData
  | prepareStreaming (chunkCount : ℕ)
  | livestreamContent (size : ℕ)
  | getFail
  | getLivestreamFail
  | saveStreamOffer
  | saveStreamFail
  | answer (m : Map)
  | failed
  deriving DecidableEq

/-- `process_metax_input`. -/
def processMetaxInput (id : ID32) : Message → Exit Adapter
  | .getData => sendGetResponse s id
  | .prepareStreaming chunkCount => handleStreamingPrepare s id chunkCount
  | .livestreamContent size => sendLivestreamContent s id size
  | .getFail => handleGetFail s id
  | .getLivestreamFail => handleLivestreamFail s .get id
  | .saveStreamOffer => sendSaveStreamResponse s id
  | .saveStreamFail => handleLivestreamFail s .save id
  | .answer m => handleAnswer s m id
  | .failed => handleMetaxFail s id

/-! ### Clients -/

/-- `generate_request_id`, the id and the counter after it. -/
def generateRequestId : ID32 × ID32 :=
  let counter := if s.counter = 2 ^ 32 - 1 then 0 else s.counter
  (counter, (counter + 1) % 2 ^ 32)

/-- A client waits for the answer to its request. -/
def wait (id : ID32) (kind : Kind) (client : Option ClientId) : Adapter :=
  { s with
    promises := s.promises.insert id [false]
    talks := s.talks.insert id ⟨kind, client, .asked, false⟩ }

/-- An insertion into a map, where an entry that is there stays. -/
def insertNew {κ α : Type} [DecidableEq κ] (t : Table κ α) (k : κ) (a : α) : Table κ α :=
  if (t.lookup k).isSome then t else t.insert k a

/-- `request_info` is put into a map, and the client into `m_client_to_request`. -/
def insertRequest (m : Map) (r : RequestInfo) (client : Option ClientId) : Adapter :=
  let id := (generateRequestId s).1
  { s with
    requests := Function.update s.requests m (insertNew (s.requests m) id r)
    clientToRequest := client.elim s.clientToRequest fun c => insertNew s.clientToRequest c id
    counter := (generateRequestId s).2 }

/-- `handle_get_request`. A string that is no uuid throws in the thread of the client. -/
def handleGetRequest (client : ClientId) (valid : Bool) : Adapter :=
  let id := (generateRequestId s).1
  let t := insertRequest s .get (.new .get client) (some client)
  if valid then wait t id .get (some client)
  else (cleanRequest t .get id client).state.getD t

/-- `handle_save_stream_request`. -/
def handleSaveStreamRequest (client : ClientId) : Adapter :=
  wait (insertRequest s .save (.new .maxCommand 0) (some client)) (generateRequestId s).1
    .saveStream (some client)

/-- Any of the handlers of requests with a single answer. -/
def handleRequest (m : Map) (command : Command) : Adapter :=
  wait (insertRequest s m (.new command 0) none) (generateRequestId s).1 (.plain m) none

/-- The client of a request does not wait any more. -/
def leave (id : ID32) (client : ClientId) : Adapter :=
  (s.talks.lookup id).elim s fun t =>
    { s with talks := s.talks.insert id { t with left := t.left || t.client = some client } }

/-- A client takes a request out of its map. -/
def clean (m : Map) (id : ID32) (client : ClientId) : Adapter :=
  leave ((cleanRequest s m id client).state.getD s) id client

/-- `clean_streaming_request`, and `cancel_livestream_get`, which does not assert that there is the
request. -/
def cleanStreamingRequest (client : ClientId) : Adapter :=
  (s.clientToRequest.lookup client).elim s fun id =>
    if ((s.requests .get).lookup id).isSome then clean s .get id client else s

/-- `cancel_livestream`. -/
def cancelLivestream (client : ClientId) : Adapter :=
  (s.clientToRequest.lookup client).elim s fun id =>
    if ((s.requests .save).lookup id).isSome then clean s .save id client
    else { s with clientToRequest := s.clientToRequest.erase client }

/-! ### Runs -/

/-- What the kernel can send next, and how far it has answered the request then. -/
def Phase.next : Phase → Kind → Message → Option Phase
  | .ended, _, _ => none
  | _, _, .failed => some .ended
  | .asked, .get, .getData => some .ended
  | .streaming n k, .get, .getData => if k < n then some (.streaming n (k + 1)) else none
  | .asked, .get, .prepareStreaming n => some (.streaming n 0)
  | .asked, .get, .livestreamContent _ => some .live
  | .live, .get, .livestreamContent _ => some .live
  | .asked, .get, .getLivestreamFail => some .ended
  | .live, .get, .getLivestreamFail => some .ended
  | _, .get, .getFail => some .ended
  | .asked, .saveStream, .saveStreamOffer => some .live
  | .asked, .saveStream, .saveStreamFail => some .ended
  | .live, .saveStream, .saveStreamFail => some .ended
  | .asked, .plain m, .answer m' => if m' = m then some .ended else none
  | _, _, _ => none

/-- What can happen: a client makes a request or takes it back, or the kernel sends a message. -/
inductive Event
  | getRequest (client : ClientId) (valid : Bool)
  | saveStreamRequest (client : ClientId)
  | request (m : Map) (command : Command)
  | cleanStreaming (client : ClientId)
  | cancelLivestreamGet (client : ClientId)
  | cancelLivestream (client : ClientId)
  | message (id : ID32) (m : Message)
  deriving DecidableEq

/-- The kernel has sent a message. -/
def advance (id : ID32) (m : Message) : Adapter :=
  (s.talks.lookup id).elim s fun t =>
    { s with talks := s.talks.insert id { t with phase := (t.phase.next t.kind m).getD t.phase } }

/-- One event. It goes well, unless the handling of a message ends with an exception or a failed
assertion. -/
def step (s : Adapter) : Event → Option Adapter
  | .getRequest client valid => some (handleGetRequest s client valid)
  | .saveStreamRequest client => some (handleSaveStreamRequest s client)
  | .request m command => some (handleRequest s m command)
  | .cleanStreaming client | .cancelLivestreamGet client => some (cleanStreamingRequest s client)
  | .cancelLivestream client => some (cancelLivestream s client)
  | .message id m => (processMetaxInput (advance s id m) id m).normal

/-- The kernel sends what it can send next. -/
def Sends (s : Adapter) : Event → Prop
  | .message id m => ∃ t ∈ s.talks.lookup id, (t.phase.next t.kind m).isSome
  | _ => True

instance (s : Adapter) (e : Event) : Decidable (Sends s e) :=
  match e with
  | .message id _ => Option.decidableExistsMem (s.talks.lookup id)
  | .getRequest _ _ | .saveStreamRequest _ | .request _ _ | .cleanStreaming _
  | .cancelLivestreamGet _ | .cancelLivestream _ => .isTrue trivial

end WebApi

end Metax
