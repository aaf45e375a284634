import Metax.Router.Data
import Mathlib.Data.List.Sort

/-!
# What the kernel and the storages ask of the router

The handlers of `kernel_rx`, `backup_rx`, `storage_rx` and `storage_writer_rx`. A handler that
finds its tender by request id passes it on together with its key in `m_tenders`.

Each handler asserts what it expects of the tender; which inputs that leaves is the matter of
`Metax.Router.Survival`.
-/

namespace Metax

namespace Router

open Exit (assert)

/-- `router::is_first_command_of_multiwinner_tender`. -/
def isFirstCommandOfMultiwinnerTender (cmd : Command) : Bool :=
  cmd ∈ [.save, .update, .notifyUpdate, .notifyDelete, .del, .copy]

/-- `router::get_command_rating`. -/
def getCommandRating (cmd : Command) : ℕ :=
  if cmd ∈ [.onUpdateRegister, .onUpdateUnregister, .save, .saveStream] then 50
  else if cmd ∈ [.del, .update] then 5
  else if cmd = .get then 10
  else 0

/-- `router::get_request_id`: the counter after an id was taken from it. -/
def nextRequestId (c : ID32) : ID32 :=
  ((c + 1) &&& routerRequestUpperBound) ||| routerRequestLowerBound

/-- The commands that mark a tender of `m_sync_tenders`. -/
def isSyncCommand (cmd : Command) : Bool := cmd ∈ [.startStorageSync, .getJournalInfo]

/-! ### Sending -/

/-- A package for the link whose header is that of the tender, one hop further. -/
def Tender.link (t : Tender) (cmd : Command) (peers : Finset ID32) (p : Payload) : LinkPackage where
  cmd := cmd
  peers := peers
  cmdRating := getCommandRating t.cmd
  shouldBlockBySync := t.cmd = .get
  message := { t.writeRouterData with hopId := t.hopId - 1 }.serialize p

/-- `router::post_link_kernel_tender`. -/
def postLinkKernelTender (s : State) (t : Tender) (inp : KernelPackage) : State :=
  s.emit (.link (t.link .broadcast ∅ inp.payload))

/-- `router::send_tender_data`: to the first of the peers of the tender. -/
def sendTenderData (s : State) (t : Tender) (cmd : Command) (p : Payload) : Outcome :=
  if h : t.prs.Nonempty then
    .done (s.emit (.link {
      cmd := .send
      peers := {t.prs.min' h}
      cmdRating := 0
      shouldBlockBySync := false
      message := { t.writeRouterData with hopId := t.hopId - 1, cmd := cmd }.serialize p }))
  else .aborted

/-- `post_sync_started_request_to_link_peer` and `post_sync_finished_request_to_link_peer`. -/
def postSyncRequestToLinkPeer (s : State) (t : Tender) (cmd : Command) : Outcome :=
  if h : t.prs.Nonempty then
    .done (s.emit (.link {
      cmd := cmd
      peers := {t.prs.min' h}
      cmdRating := 0
      shouldBlockBySync := false
      message := [] }))
  else .aborted

/-! ### Cleaning up -/

/-- `router::clean_up_tender_from_timeline`. The place of the last pointer changes, which the
heap built over the timeline before each use does not depend on. -/
def cleanUpTenderFromTimeline (s : State) (p : Pointer) : Outcome :=
  assert (p ∈ s.timeline) (.done { s with timeline := s.timeline.erase p })

/-- `router::clean_up_sync_tender_info`. -/
def cleanUpSyncTenderInfo (s : State) (p : Pointer) (t : Tender) : Outcome :=
  assert (isSyncCommand t.cmd) <| (cleanUpTenderFromTimeline s p).andThen fun s =>
    let s := { s with
      idTenders := s.idTenders.erase t.requestId
      syncTenders := s.syncTenders.erase t.tenderId }
    if s.syncTenders.entries = [] then
      .done (s.emit (.kernel { KernelPackage.new with cmd := .syncFinished }))
    else .done s

/-- `router::clean_up_tender_info`. -/
def cleanUpTenderInfo (s : State) (p : Pointer) (t : Tender) : Outcome :=
  (cleanUpTenderFromTimeline s p).andThen fun s =>
    .done { s with
      idTenders := s.idTenders.erase t.requestId
      responses := s.responses.erase t.tenderId
      tenders := s.tenders.erase t.tenderId }

/-- `router::cancel_request`. -/
def cancelRequest (s : State) (rid : ID32) : State :=
  if rid = noRequest then s
  else s.emit (.kernel { KernelPackage.new with cmd := .cancel, requestId := rid })

/-- `router::clean_up_tender`. -/
def cleanUpTender (s : State) (p : Pointer) (t : Tender) : Outcome :=
  let o := if isSyncCommand t.cmd then cleanUpSyncTenderInfo s p t else cleanUpTenderInfo s p t
  o.andThen fun s => .done (if t.isCanceled then s else cancelRequest s t.requestId)

/-! ### New tenders of this node -/

/-- The handlers of the kernel's requests: they accept some commands and copy some of the
request's fields into the tender. -/
def announce (cmds : List Command) (copyFields : KernelPackage → Tender → Tender) (s : State)
    (inp : KernelPackage) (tId : RandomUUID) : Outcome :=
  assert (inp.cmd ∈ cmds) <|
  assert (s.idTenders.lookup inp.requestId = none) <|
  assert (s.tenders.lookup tId.1 = none) <|
    let t : Tender := copyFields inp {
      RouterData.new with
      tenderId := tId.1
      cmd := inp.cmd
      uuid := inp.uuid
      hopId := s.maxHops
      requestId := inp.requestId
      typ := .internal
      st := .announced
      prs := ∅
      maxResponseCnt := inp.maxResponseCnt
      receivedResponseCnt := 0
      winners := []
      isCanceled := false }
    let s := (s.assign (.tender tId.1) t).enter (.tender tId.1) inp.requestId tId.1
    .done (postLinkKernelTender s t inp)

/-- `router::handle_kernel_get`. -/
def handleKernelGet := announce [.get] fun _ t => t

/-- `router::handle_kernel_save_stream`. -/
def handleKernelSaveStream := announce [.saveStream] fun _ t => t

/-- `router::handle_kernel_find_peer`. -/
def handleKernelFindPeer := announce [.findPeer, .notifyUpdate, .notifyDelete] fun inp t =>
  { t with dataVersion := inp.dataVersion }

/-- `router::handle_kernel_save_request`. -/
def handleKernelSaveRequest :=
  announce [.save, .update, .notifyUpdate, .notifyDelete, .del, .copy] fun inp t =>
    { t with
      dataVersion := inp.dataVersion
      lastUpdated := inp.lastUpdated
      expireDate := inp.expireDate }

/-- `router::handle_kernel_on_update_register_request`. -/
def handleKernelOnUpdateRegisterRequest := announce [.onUpdateRegister] fun _ t => t

/-- `router::handle_kernel_recording_start`. -/
def handleKernelRecordingStart := announce [.recordingStart] fun _ t => t

/-- `router::handle_kernel_recording_stop`. -/
def handleKernelRecordingStop := announce [.recordingStop] fun _ t => t

/-- `router::handle_kernel_on_update_unregister_request`. -/
def handleKernelOnUpdateUnregisterRequest := announce [.onUpdateUnregister] fun _ t => t

/-! ### Data for a tender that exists -/

/-- Look a request up in `m_id_tenders` and its tender in `m_tenders`. -/
def withTender (s : State) (rid : ID32) (f : UUID → Tender → Outcome) : Outcome :=
  match s.idTenders.lookup rid with
  | none => .done s
  | some i =>
    match s.tenders.lookup i with
    | none => .done s
    | some t => f i t

/-- Look a request up in `m_id_tenders` and its tender in `m_sync_tenders`. -/
def withSyncTender (s : State) (rid : ID32) (f : UUID → Tender → Outcome) : Outcome :=
  match s.idTenders.lookup rid with
  | none => .done s
  | some i =>
    match s.syncTenders.lookup i with
    | none => .done s
    | some t => f i t

/-- `router::handle_kernel_data_transfer`. -/
def handleKernelDataTransfer (s : State) (inp : KernelPackage) : Outcome :=
  withTender s inp.requestId fun i t =>
    assert (t.st = .confirmed ∨ t.st = .received) <|
      let t := { t with
        st := .confirmed
        hopId := s.maxHops
        uuid := if inp.cmd = .recordingStarted then inp.uuid else t.uuid
        dataVersion := if inp.cmd = .livestreamContent then inp.dataVersion else t.dataVersion }
      sendTenderData (s.assign (.tender i) t) t inp.cmd inp.payload

/-- `router::handle_storage_data_transfer`. -/
def handleStorageDataTransfer (s : State) (inp : StoragePackage) : Outcome :=
  withTender s inp.requestId fun i t =>
    assert (t.st = .confirmed ∨ t.st = .received) <|
      let t := { t with st := .confirmed, hopId := s.maxHops }
      sendTenderData (s.assign (.tender i) t) t inp.cmd inp.payload

/-- `router::handle_kernel_offer_for_multiwinner_tender`. -/
def handleKernelOfferForMultiwinnerTender (s : State) (i : UUID) (t : Tender) : Outcome :=
  if t.st ≠ .announced then .done s
  else assert (t.typ = .remote) <|
    let s := s.assign (.tender i) { t with hopId := s.maxHops }
    let old := (s.responses.lookup t.tenderId).getD []
    .done { s with
      responses := s.responses.insert t.tenderId (old ++ [⟨linkRequestUpperBound, [0]⟩]) }

/-- `router::handle_kernel_offer`. -/
def handleKernelOffer (s : State) (inp : KernelPackage) : Outcome :=
  withTender s inp.requestId fun i t =>
    if isFirstCommandOfMultiwinnerTender t.cmd then handleKernelOfferForMultiwinnerTender s i t
    else handleKernelDataTransfer s inp

/-- The winners of a tender by peer, in the order of the peers. -/
def winnersByPeer (l : List (ID32 × UInt32)) : List (ID32 × List UInt32) :=
  ((l.map Prod.fst).dedup.mergeSort (· ≤ ·)).map fun p =>
    (p, (l.filter fun w => w.1 = p).map Prod.snd)

/-- `router::send_accept_to_winner_peers`. -/
def sendAcceptToWinnerPeers (s : State) (i : UUID) (t : Tender) (inp : KernelPackage) : Outcome :=
  if t.winners = [] then .done s
  else assert (t.st = .confirmed ∨ t.st = .received) <|
    let t := { t with st := .confirmed, hopId := s.maxHops }
    .done <| (winnersByPeer t.winners).foldl (fun s w => s.emit (.link {
      cmd := .send
      peers := {w.1}
      cmdRating := 0
      shouldBlockBySync := false
      message := { t.writeRouterData with
        hopId := t.hopId - 1
        cmd := inp.cmd
        winnersId := w.2 }.serialize inp.payload })) (s.assign (.tender i) t)

/-- `router::handle_kernel_accept_for_multiwinner_tender`. -/
def handleKernelAcceptForMultiwinnerTender (s : State) (inp : KernelPackage) : Outcome :=
  withTender s inp.requestId fun i t =>
    if isFirstCommandOfMultiwinnerTender t.cmd then sendAcceptToWinnerPeers s i t inp
    else handleKernelDataTransfer s inp

/-- `router::handle_kernel_confirm_for_multiwinner_tender`. -/
def handleKernelConfirmForMultiwinnerTender (s : State) (inp : KernelPackage) : Outcome :=
  withTender s inp.requestId fun i t =>
    assert (t.typ = .remote) <|
      let t := { t with hopId := s.maxHops }
      sendTenderData (s.assign (.tender i) t) t inp.cmd inp.payload

/-- `router::handle_sync_data_transfer`. -/
def handleSyncDataTransfer (s : State) (inp : KernelPackage) : Outcome :=
  withSyncTender s inp.requestId fun _ t =>
    let o := if inp.cmd = .sendUuids then postSyncRequestToLinkPeer s t .syncStarted else .done s
    o.andThen fun s => sendTenderData s t inp.cmd inp.payload

/-- `router::handle_kernel_get_uuid_request`. -/
def handleKernelGetUuidRequest (s : State) (inp : KernelPackage) : Outcome :=
  withTender s inp.requestId fun i t =>
    let t := { t with
      dataVersion := inp.dataVersion
      lastUpdated := inp.lastUpdated
      expireDate := inp.expireDate
      uuid := inp.uuid }
    sendTenderData (s.assign (.tender i) t) t inp.cmd inp.payload

/-- `router::handle_kernel_sync_finished`. -/
def handleKernelSyncFinished (s : State) (inp : KernelPackage) : Outcome :=
  withSyncTender s inp.requestId fun i t =>
    (postSyncRequestToLinkPeer s t .syncFinished).andThen fun s =>
      (sendTenderData s t inp.cmd inp.payload).andThen fun s =>
        cleanUpSyncTenderInfo s (.syncTender i) t

/-- `router::handle_kernel_clear_request`. -/
def handleKernelClearRequest (s : State) (inp : KernelPackage) : Outcome :=
  match s.idTenders.lookup inp.requestId with
  | none => .done s
  | some i =>
    match s.tenders.lookup i with
    | none => .aborted
    | some t => .done (s.assign (.tender i) { t with isCanceled := true })

/-! ### Refusals -/

/-- `router::broadcast_tender_to_peers`. -/
def broadcastTenderToPeers (s : State) (i : UUID) (t : Tender) (p : Payload) : Outcome :=
  assert (t.prs.card = 1) <| assert (t.typ = .remote) <|
    .done ((s.emit (.link (t.link .broadcastExcept t.prs p))).assign (.tender i)
      { t with requestId := noRequest })

/-- `router::handle_refuse`. -/
def handleRefuse (s : State) (rid : ID32) (p : Payload) : Outcome :=
  withTender s rid fun i t =>
    if t.hopId = 1 then cleanUpTender s (.tender i) t
    else (broadcastTenderToPeers s i t p).andThen fun s =>
      .done { s with idTenders := s.idTenders.erase rid }

/-! ### The inputs -/

/-- `router::process_kernel_input`. -/
def processKernelInput (s : State) (inp : KernelPackage) (fresh : RandomUUID) : Outcome :=
  if inp.cmd = .get then handleKernelGet s inp fresh
  else if inp.cmd ∈ [.update, .del, .copy, .save] then handleKernelSaveRequest s inp fresh
  else if inp.cmd = .onUpdateRegister then handleKernelOnUpdateRegisterRequest s inp fresh
  else if inp.cmd = .onUpdateUnregister then handleKernelOnUpdateUnregisterRequest s inp fresh
  else if inp.cmd = .saveStream then handleKernelSaveStream s inp fresh
  else if inp.cmd = .recordingStart then handleKernelRecordingStart s inp fresh
  else if inp.cmd = .recordingStop then handleKernelRecordingStop s inp fresh
  else if inp.cmd ∈ [.notifyUpdate, .notifyDelete, .findPeer] then handleKernelFindPeer s inp fresh
  else if inp.cmd = .refuse then handleRefuse s inp.requestId inp.payload
  else if inp.cmd = .clearRequest then handleKernelClearRequest s inp
  else if inp.cmd ∈ [.auth, .saveOffer] then handleKernelOffer s inp
  else if inp.cmd ∈ [.authData, .saveData] then handleKernelAcceptForMultiwinnerTender s inp
  else if inp.cmd ∈ [.updated, .getData, .deleted, .copySucceeded, .saveConfirm] then
    handleKernelConfirmForMultiwinnerTender s inp
  else if inp.cmd ∈ [.sendJournalInfo, .sendUuids] then handleSyncDataTransfer s inp
  else if inp.cmd = .syncFinished then handleKernelSyncFinished s inp
  else if inp.cmd = .getUuid then handleKernelGetUuidRequest s inp
  else if inp.cmd ∈ [.peerFound, .sendToPeer, .sendToPeerConfirm, .deliverFail, .noPermissions,
      .saveStreamOffer, .streamAuth, .livestreamContent, .getLivestreamContent,
      .cancelLivestreamGet, .recordingStarted, .recordingStopped, .recordingFail, .getJournalInfo,
      .onUpdateRegistered, .onUpdateRegisterFail, .onUpdateUnregisterFail,
      .onUpdateUnregistered] then handleKernelDataTransfer s inp
  else .done s

/-- `router::process_backup_input`. -/
def processBackupInput (s : State) (inp : KernelPackage) (fresh : RandomUUID) : Outcome :=
  if inp.cmd ∈ [.update, .save] then handleKernelSaveRequest s inp fresh else .done s

/-- `router::process_storage_input`. -/
def processStorageInput (s : State) (inp : StoragePackage) : Outcome :=
  if inp.cmd ∈ [.getData, .deleted] then handleStorageDataTransfer s inp
  else if inp.cmd = .refuse then handleRefuse s inp.requestId inp.payload
  else .done s

/-- `router::process_storage_writer_input`. -/
def processStorageWriterInput (s : State) (inp : StoragePackage) : Outcome :=
  if inp.cmd ∈ [.saveConfirm, .updated] then handleStorageDataTransfer s inp else .done s

end Router

end Metax
