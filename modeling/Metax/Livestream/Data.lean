import Metax.Platform.Package
import Metax.Library.Ledger
import Metax.Library.Run

/-!
# Hosted livestreams

What the kernel does for the livestreams it hosts: it appends their content to a buffer, and from
time to time saves the buffer as a piece of every recording of the livestream.

The buffer is one for all recordings of a livestream. It grows only while there is a recording, and
is emptied only when it is saved for all of them because of its size.

Listeners and the answers to requests are left out, and of the JSON objects what is not read again.
A failed assertion ends the process: the step is `none`.
-/

namespace Metax

namespace Livestream

open Ledger (Table)

/-- `recording_max_chunk_size`. -/
def recordingMaxChunkSize : ℕ := 1200000

/-- An entry of the `pieces` of a master object. -/
structure Piece where
  uuid : UUID
  start : ℕ
  size : ℕ
  deriving DecidableEq

/-- The `size` and the `pieces` of the master object of a recording, the pieces in the order in
which they were set. -/
structure Master where
  size : ℕ
  pieces : List Piece
  deriving DecidableEq

/-- `create_master_json_template`. -/
def Master.template : Master := ⟨0, []⟩

/-- What the kernel has the storage save: a buffer, a master object, or a playlist with the
recording it is for. -/
inductive Saved
  | chunk (c : Bytes)
  | master (m : Master)
  | playlist (recording : UUID)
  deriving DecidableEq

/-- The last save of each uuid. -/
abbrev Posted := Table UUID Saved

/-- `recording_info`, with the `recording` of its playlist. `waiting` and `heardBefore` are ghost:
what was in the buffer when it started, and how much of the livestream had been heard. -/
structure RecordingInfo where
  uuid : UUID
  master : Master
  recording : UUID
  waiting : Bytes
  heardBefore : ℕ
  deriving DecidableEq

/-- `livestream_info`. `heard` is ghost: the content there was. -/
structure LivestreamInfo where
  requestId : ID32
  recordings : List RecordingInfo
  recChunk : Bytes
  recChunkSize : ℕ
  heard : Bytes
  deriving DecidableEq

/-- A request of `m_requests`. A recording that starts on this node has the uuid its master object
is being saved with. -/
inductive Request
  | saveStream (uuid : UUID)
  | recordingStart (uuid : UUID) (recording : Option UUID)
  deriving DecidableEq

/-- A recording that was stopped, or whose livestream ended, what was in the buffer when it started,
and what was received since. -/
structure Finished where
  recording : UUID
  waiting : Bytes
  received : Bytes
  deriving DecidableEq

/-- The state: `m_enable_livstream_hosting`, `m_hosted_livestreams`, `m_requests`, the saves, and
the recordings that are over. -/
structure State where
  enableHosting : Bool
  hosted : Table UUID LivestreamInfo
  requests : Table ID32 Request
  posted : Posted
  finished : List Finished

/-- No livestream so far. -/
def State.init (enableHosting : Bool) : State := ⟨enableHosting, ∅, ∅, ∅, []⟩

/-! ### Saving the buffer -/

/-- What `add_livestream_chunk_to_recording` does to the recording. A size of `2 ^ 64` bytes would
take `2 ^ 32` pieces. -/
def RecordingInfo.addChunk (li : LivestreamInfo) (uuid : UUID) (r : RecordingInfo) :
    RecordingInfo :=
  { r with
    master :=
      { size := r.master.size + li.recChunkSize
        pieces := r.master.pieces ++ [⟨uuid, r.master.size, li.recChunkSize⟩] } }

/-- What `add_livestream_chunk_to_recording` saves, the recording being changed already. -/
def postRecording (p : Posted) (r : RecordingInfo) : Posted :=
  (p.insert r.recording (.master r.master)).insert r.uuid (.playlist r.recording)

/-- `add_livestream_chunk_to_all_recordings`, with the random uuid. -/
def addLivestreamChunkToAllRecordings (p : Posted) (li : LivestreamInfo) (uuid : UUID) :
    Posted × LivestreamInfo :=
  if li.recordings = [] then (p, li)
  else
    let recordings := li.recordings.map (RecordingInfo.addChunk li uuid)
    (recordings.foldl postRecording (p.insert uuid (.chunk li.recChunk)), { li with recordings })

/-- `add_content_to_recording_chunk`. -/
def addContentToRecordingChunk (p : Posted) (li : LivestreamInfo) (d : Bytes) (origSize : ℕ)
    (uuid : UUID) : Posted × LivestreamInfo :=
  if li.recordings = [] then (p, li)
  else
    let li := { li with
      recChunk := li.recChunk ++ d
      recChunkSize := (li.recChunkSize + origSize) % 2 ^ 32 }
    if recordingMaxChunkSize ≤ li.recChunk.length then
      let q := addLivestreamChunkToAllRecordings p li uuid
      (q.1, { q.2 with recChunk := [], recChunkSize := 0 })
    else (p, li)

/-- A recording that ends, with its livestream. -/
def RecordingInfo.finish (li : LivestreamInfo) (r : RecordingInfo) : Finished :=
  ⟨r.recording, r.waiting, li.heard.drop r.heardBefore⟩

/-! ### Handlers -/

/-- `handle_router_livestream_content`. -/
def handleRouterLivestreamContent (s : State) (u : UUID) (d : Bytes) (origSize : ℕ)
    (uuid : UUID) : State :=
  (s.hosted.lookup u).elim s fun li =>
    let q := addContentToRecordingChunk s.posted { li with heard := li.heard ++ d } d origSize uuid
    { s with posted := q.1, hosted := s.hosted.insert u q.2 }

/-- `process_router_save_stream_request`. -/
def processRouterSaveStreamRequest (s : State) (id : ID32) (u : UUID) : State :=
  let requests := s.requests.insert id (.saveStream u)
  match s.hosted.lookup u with
  | none => { s with requests, hosted := s.hosted.insert u ⟨id, [], [], 0, []⟩ }
  | some li =>
    { s with
      requests := requests.erase li.requestId
      hosted := s.hosted.insert u { li with requestId := id } }

/-- `handle_router_save_stream_request`. -/
def handleRouterSaveStreamRequest (s : State) (id : ID32) (u : UUID) : Option State :=
  if (s.requests.lookup id).isSome then none
  else if s.enableHosting then some (processRouterSaveStreamRequest s id u)
  else some s

/-- `create_and_save_master_for_recording`, for a request that is new. -/
def createAndSaveMasterForRecording (s : State) (id : ID32) (u uuid : UUID) : State :=
  { s with
    requests := s.requests.insert id (.recordingStart u (some uuid))
    posted := s.posted.insert uuid (.master .template) }

/-- `handle_router_recording_start`. -/
def handleRouterRecordingStart (s : State) (id : ID32) (u uuid : UUID) : Option State :=
  if s.hosted.lookup u = none then some s
  else if (s.requests.lookup id).isSome then none
  else some (createAndSaveMasterForRecording s id u uuid)

/-- `handle_ims_recording_start`. -/
def handleImsRecordingStart (s : State) (id : ID32) (u uuid : UUID) : Option State :=
  if (s.requests.lookup id).isSome then none
  else if s.hosted.lookup u = none then
    some { s with requests := s.requests.insert id (.recordingStart u none) }
  else some (createAndSaveMasterForRecording s id u uuid)

/-- `handle_save_confirm_for_remote_recording_start` and
`handle_save_confirm_for_local_recording_start`. The uuid is that of the playlist. -/
def handleSaveConfirmForRecordingStart (s : State) (id : ID32) (u recording uuid : UUID) :
    Option State :=
  (s.hosted.lookup u).map fun li =>
    let r : RecordingInfo := ⟨uuid, .template, recording, li.recChunk, li.heard.length⟩
    { s with
      hosted := s.hosted.insert u { li with recordings := li.recordings ++ [r] }
      posted := s.posted.insert uuid (.playlist recording)
      requests := s.requests.erase id }

/-- `handle_storage_save_confirm`. -/
def handleStorageSaveConfirm (s : State) (id : ID32) (uuid : UUID) : Option State :=
  match s.requests.lookup id with
  | some (.recordingStart u (some recording)) =>
    handleSaveConfirmForRecordingStart s id u recording uuid
  | _ => some s

/-- `handle_storage_no_space`. -/
def handleStorageNoSpace (s : State) (id : ID32) : State :=
  match s.requests.lookup id with
  | some (.recordingStart _ (some _)) => { s with requests := s.requests.erase id }
  | _ => s

/-- `stop_recording_and_send_response_to_router` and `stop_recording_and_send_response_to_ims`. -/
def stopRecording (s : State) (u : UUID) (li : LivestreamInfo) (playlist uuid : UUID) : State :=
  (li.recordings.find? fun r => r.uuid = playlist).elim s fun r =>
    let r := r.addChunk li uuid
    { s with
      posted := postRecording (s.posted.insert uuid (.chunk li.recChunk)) r
      hosted := s.hosted.insert u
        { li with recordings := li.recordings.eraseP fun r => r.uuid = playlist }
      finished := s.finished ++ [r.finish li] }

/-- `handle_router_recording_stop` and `handle_ims_recording_stop`. A payload that is no uuid is an
exception. -/
def handleRecordingStop (s : State) (u : UUID) (playlist : Option UUID) (uuid : UUID) : State :=
  (s.hosted.lookup u).elim s fun li =>
    playlist.elim s fun playlist => stopRecording s u li playlist uuid

/-- `clean_up_hosted_livestream`. -/
def cleanUpHostedLivestream (s : State) (id : ID32) (u uuid : UUID) : Option State :=
  (s.hosted.lookup u).bind fun li =>
    if li.requestId = id then
      let q := addLivestreamChunkToAllRecordings s.posted li uuid
      some { s with
        posted := q.1
        hosted := s.hosted.erase u
        requests := s.requests.erase id
        finished := s.finished ++ q.2.recordings.map (RecordingInfo.finish li) }
    else none

/-- `handle_router_cancel`. -/
def handleRouterCancel (s : State) (id : ID32) (uuid : UUID) : Option State :=
  match s.requests.lookup id with
  | none => some s
  | some (.saveStream u) => cleanUpHostedLivestream s id u uuid
  | some (.recordingStart _ _) => some { s with requests := s.requests.erase id }

/-! ### Runs -/

/-- What can come in. The last uuid of an event is the one that is drawn at random in it. -/
inductive Event
  | saveStream (id : ID32) (u : UUID)
  | content (u : UUID) (d : Bytes) (origSize : ℕ) (uuid : UUID)
  | routerRecordingStart (id : ID32) (u uuid : UUID)
  | imsRecordingStart (id : ID32) (u uuid : UUID)
  | saveConfirm (id : ID32) (uuid : UUID)
  | noSpace (id : ID32)
  | recordingStop (u : UUID) (playlist : Option UUID) (uuid : UUID)
  | cancel (id : ID32) (uuid : UUID)
  deriving DecidableEq

/-- One event. -/
def step (s : State) : Event → Option State
  | .saveStream id u => handleRouterSaveStreamRequest s id u
  | .content u d origSize uuid => some (handleRouterLivestreamContent s u d origSize uuid)
  | .routerRecordingStart id u uuid => handleRouterRecordingStart s id u uuid
  | .imsRecordingStart id u uuid => handleImsRecordingStart s id u uuid
  | .saveConfirm id uuid => handleStorageSaveConfirm s id uuid
  | .noSpace id => some (handleStorageNoSpace s id)
  | .recordingStop u playlist uuid => some (handleRecordingStop s u playlist uuid)
  | .cancel id uuid => handleRouterCancel s id uuid

/-- The uuid that is drawn at random. -/
def Event.drawn : Event → Option UUID
  | .saveStream _ _ | .noSpace _ => none
  | .content _ _ _ uuid | .routerRecordingStart _ _ uuid | .imsRecordingStart _ _ uuid
  | .saveConfirm _ uuid | .recordingStop _ _ uuid | .cancel _ uuid => some uuid

/-- A random uuid is not one that was used. -/
def Fresh (s : State) (e : Event) : Prop := ∀ uuid ∈ e.drawn, s.posted.lookup uuid = none

instance (s : State) (e : Event) : Decidable (Fresh s e) :=
  Option.decidableForallMem e.drawn

end Livestream

end Metax
