import Metax.Router.KernelInput

/-!
# What the link hands to the router

A message of a peer is decoded into the member `m_router_data`, which is reset when the message
was handled: an exception leaves it as it is, and so does a negative acknowledgement.

The second copy of an announcement, a response to a tender of this node and one that goes on to
another node come in through the same handler, and it is the stored tender that tells them apart.
-/

namespace Metax

namespace Router

open Exit (assert)

/-- `router::is_invalid_new_tender`. -/
def isInvalidNewTender (cmd : Command) : Bool :=
  cmd ∉ [.get, .findPeer, .save, .update, .saveStream, .del, .notifyUpdate, .notifyDelete, .copy,
    .onUpdateRegister, .onUpdateUnregister, .sendJournalInfo, .recordingStart, .recordingStop]

/-- `router::is_own_sync_tender`. -/
def isOwnSyncTender (cmd : Command) : Bool := cmd ∈ [.startStorageSync, .getJournalInfo, .getUuid]

/-- The commands `process_existing_tender` drops as copies of an announcement. -/
def isKnownAnnouncement (cmd : Command) : Bool :=
  cmd ∈ [.get, .save, .update, .del, .copy, .onUpdateRegister, .findPeer]

/-- `router::post_new_tender_to_kernel`. -/
def postNewTenderToKernel (s : State) (inp : LinkInput) (rid : ID32) : Outcome :=
  let d := s.routerData
  match inp.package.payload d.headerSize with
  | .error _ => .threw s
  | .ok p => .done (s.emit (.kernel {
      requestId := rid
      cmd := d.cmd
      uuid := d.uuid
      maxResponseCnt := 1
      dataVersion := d.dataVersion
      lastUpdated := d.lastUpdated
      expireDate := d.expireDate
      payload := p }))

/-- The tender `process_new_tender` fills in. -/
def State.newTender (s : State) (inp : LinkInput) : Tender :=
  { s.routerData with
    requestId := s.requestCounter
    typ := .remote
    st := .received
    prs := inp.peers
    maxResponseCnt := 1
    receivedResponseCnt := 0
    winners := []
    isCanceled := false }

/-- `router::process_new_tender`. The tender is stored when its announcement is parsed for the
kernel, but its entries in `m_id_tenders` and the timeline are made afterwards. -/
def processNewTender (s : State) (p : Pointer) (inp : LinkInput) : Outcome :=
  let rid := s.requestCounter
  let s := { s.assign p (s.newTender inp) with requestCounter := nextRequestId rid }
  (postNewTenderToKernel s inp rid).andThen fun s => .done (s.enter p rid s.routerData.tenderId)

/-- `router::forward_remote_tender`. -/
def forwardRemoteTender (s : State) (t : Tender) (inp : LinkInput) : Outcome :=
  match inp.package.payload s.routerData.headerSize with
  | .error _ => .threw s
  | .ok p =>
    assert (t.prs.card = 1) <| assert (t.typ = .remote) <|
      .done (s.emit (.link (t.link .broadcastExcept t.prs p)))

/-- `router::handle_new_remote_tender`. -/
def handleNewRemoteTender (s : State) (inp : LinkInput) : Outcome :=
  let d := s.routerData
  assert (d.tenderId ≠ 0) <| assert (d.cmd ≠ .maxCommand) <|
  assert (s.tenders.lookup d.tenderId = none) <|
    if isInvalidNewTender d.cmd then .done s
    else (processNewTender s (.tender d.tenderId) inp).andThen fun s' =>
      if isFirstCommandOfMultiwinnerTender d.cmd ∧ d.hopId ≠ 1 then
        forwardRemoteTender s' (s.newTender inp) inp
      else .done s'

/-- `router::send_response_to_kernel`. -/
def sendResponseToKernel (s : State) (inp : LinkInput) : Outcome :=
  let best := inp.header
  match inp.package.payload best.headerSize with
  | .error _ => .threw s
  | .ok p =>
    match s.tenders.lookup best.tenderId with
    | none => .aborted
    | some t =>
      if best.cmd = .getData ∧ t.st = .confirmed then .done s
      else
        let t := { t with prs := t.prs ∪ inp.peers, st := .confirmed }
        assert (t.requestId ≠ noRequest) <|
        assert (s.idTenders.lookup t.requestId ≠ none) <|
          .done <| (s.emit (.kernel { KernelPackage.new with
            cmd := best.cmd
            uuid := best.uuid
            requestId := t.requestId
            dataVersion := best.dataVersion
            payload := p })).assign (.tender best.tenderId)
              { t with receivedResponseCnt := t.receivedResponseCnt + 1 }

/-- `router::bypass_tender_response`. -/
def bypassTenderResponse (s : State) (inp : LinkInput) : Outcome :=
  let best := inp.header
  match s.tenders.lookup best.tenderId with
  | none => .aborted
  | some t =>
    assert (t.requestId = noRequest ∨ isFirstCommandOfMultiwinnerTender t.cmd) <|
      let s' := s.emit (.link {
        cmd := .send
        peers := t.prs
        cmdRating := 0
        shouldBlockBySync := false
        message := RouterData.updateHopId inp.package.message (best.hopId - 1) })
      let t := { t with hopId := best.hopId }
      let t := if s.routerData.cmd ∈ [.saveStreamOffer, .peerFound, .sendToPeer] then
        { t with prs := inp.peers } else t
      .done (s'.assign (.tender best.tenderId) t)

/-- `router::process_remote_tender`. -/
def processRemoteTender (s : State) (t : Tender) (inp : LinkInput) : Outcome :=
  let cmd := s.routerData.cmd
  if (cmd ∈ [.livestreamContent, .sendToPeer, .cancelLivestreamGet] ∧ t.st = .confirmed) ∨
      cmd = .sendUuids then sendResponseToKernel s inp
  else bypassTenderResponse s inp

/-- `router::process_existing_tender_data`. -/
def processExistingTenderData (s : State) (t : Tender) (inp : LinkInput) : Outcome :=
  if t.isCanceled then .done s
  else match t.typ with
    | .remote => processRemoteTender s t inp
    | .internal => sendResponseToKernel s inp

/-- `router::process_existing_tender`. -/
def processExistingTender (s : State) (t : Tender) (inp : LinkInput) : Outcome :=
  let d := s.routerData
  assert (d.cmd ≠ .maxCommand) <| assert (d.tenderId ≠ 0) <|
    if isKnownAnnouncement d.cmd then .done s
    else if d.cmd = .syncFinished then cleanUpTenderInfo s (.tender d.tenderId) t
    else processExistingTenderData s t inp

/-- `router::handle_new_sync_tender`. -/
def handleNewSyncTender (s : State) (inp : LinkInput) : Outcome :=
  let d := s.routerData
  if d.cmd ∈ [.syncFinished, .getUuid] then .done s
  else assert (d.cmd ∈ [.getJournalInfo, .startStorageSync]) <|
    assert (s.syncTenders.lookup d.tenderId = none) <|
      processNewTender s (.syncTender d.tenderId) inp

/-- `router::process_existing_sync_tender`. -/
def processExistingSyncTender (s : State) (t : Tender) (inp : LinkInput) : Outcome :=
  let s := s.assign (.syncTender s.routerData.tenderId) { t with st := .confirmed }
  postNewTenderToKernel s inp t.requestId

/-- `m_router_data.reset ()`. -/
def State.resetRouterData (s : State) : State := { s with routerData := s.routerData.reset }

/-- `router::handle_sync_tenders`. -/
def handleSyncTenders (s : State) (inp : LinkInput) : Outcome :=
  let o := match s.syncTenders.lookup s.routerData.tenderId with
    | none => handleNewSyncTender s inp
    | some t => processExistingSyncTender s t inp
  o.andThen fun s => .done s.resetRouterData

/-- `m_router_data.extract_header`: a message is decoded into the member. -/
def State.extractHeader (s : State) (inp : LinkInput) : State :=
  { s with routerData := s.routerData.decodeInto inp.package }

/-- A message without a tender id gets one. -/
def named (d : RouterData) (fresh : RandomUUID) : RouterData :=
  if d.tenderId = 0 then { d with tenderId := fresh.1 } else d

/-- The same in `m_router_data`. -/
def State.nameTender (s : State) (fresh : RandomUUID) : State :=
  { s with routerData := named s.routerData fresh }

/-- `handle_link_data` behind the header: `m_router_data` is the message. -/
def handleRouterData (s : State) (inp : LinkInput) : Outcome :=
  let d := s.routerData
  if isOwnSyncTender d.cmd then handleSyncTenders s inp
  else assert (d.tenderId ≠ 0) <| assert (d.cmd ≠ .maxCommand) <|
    let o := match s.tenders.lookup d.tenderId with
      | none => handleNewRemoteTender s inp
      | some t => processExistingTender s t inp
    o.andThen fun s => .done s.resetRouterData

/-- `router::handle_link_data`. -/
def handleLinkData (s : State) (inp : LinkInput) (fresh : RandomUUID) : Outcome :=
  handleRouterData ((s.extractHeader inp).nameTender fresh) inp

/-- `router::handle_link_nack`. -/
def handleLinkNack (s : State) (inp : LinkInput) : Outcome :=
  let s := s.extractHeader inp
  let d := s.routerData
  assert (d.tenderId ≠ 0) <|
    match s.tenders.lookup d.tenderId with
    | none => .done s
    | some t => cleanUpTender s (.tender d.tenderId) t

/-- `router::send_notification_to_kernel`. -/
def sendNotificationToKernel (s : State) (inp : LinkInput) : Outcome :=
  .done (s.emit (.notification inp.cmd inp.package.message))

/-- `router::process_link_input`. -/
def processLinkInput (s : State) (inp : LinkInput) (fresh : RandomUUID) : Outcome :=
  if inp.cmd = .nack then handleLinkNack s inp
  else if inp.cmd = .receivedData then handleLinkData s inp fresh
  else if inp.cmd ∈ [.connected, .disconnected] then sendNotificationToKernel s inp
  else .done s

end Router

end Metax
