import Metax.Library.Ledger
import Metax.Library.Run
import Metax.Library.Text
import Metax.Platform.UuidText
import Metax.Protocol.Command

/-!
# Synchronization in the kernel

A node that pulls from a peer receives the journal of the peer, lets the backup task say which
uuids it lacks, and requests these. The names it still waits for stand in the `master_json` of the
request: every uuid that arrives is stored, entered into the journal and removed from it, and with
the last one the request is removed and the router told that the synchronization is finished.

This is the part of the kernel that serves the side that pulls. An exception leaves the task
running, a failed assertion has no result. Ids in use at a time are distinct, so the requests a
notification opens are not kept here.
-/

namespace Metax

namespace Sync

/-- The fields of a `request` a synchronization reads. -/
structure Request where
  cmd : Command
  uuid : UUID
  masterJson : Option (Ledger.Table Text Char)
  deriving DecidableEq

/-- A `get_uuid` message of the router. -/
structure UuidMessage where
  uuid : UUID
  data : Package
  dataVersion : UInt32
  lastUpdated : UInt64
  expireDate : UInt64
  deriving DecidableEq

/-- What the kernel sends. -/
inductive Output
  | storageSave (uuid : UUID) (data : Package)
  | userManagerSaveData (data : Package)
  | notifyIms (uuid : UUID)
  | notifyRouter (uuid : UUID) (listener : Text) (version : UInt32)
  | journalSave (uuid : UUID) (version : UInt32) (lastUpdated expireDate : UInt64)
  | backupJournal (requestId : ID32) (syncClass : UInt32) (journal : Text)
  | routerSendUuids (requestId : ID32) (names : List Text)
  | routerSyncFinished (requestId : ID32)
  | imsSyncFinished
  deriving DecidableEq

/-- The fields of the kernel a synchronization reads, and what it has sent, oldest first. -/
structure State where
  requests : Ledger.Table ID32 Request
  updateListeners : Ledger.Table UUID (List Text)
  userJsonUuid : UUID
  shouldBlockGetRequest : Bool
  syncClass : UInt32
  out : List Output
  deriving DecidableEq

/-- What the kernel receives. -/
inductive Event
  | routerJournalInfo (requestId : ID32) (message : Option Text)
  | backupSendUuids (requestId : ID32) (uuids : Ledger.Table Text Char)
  | routerGetUuid (requestId : ID32) (m : UuidMessage)
  | routerFailed (requestId : ID32)
  | routerSyncFinished

namespace State

variable (s : State)

/-- Send a message. -/
def send (o : Output) : State := { s with out := s.out ++ [o] }

/-- `process_journal_info_for_sync`. -/
def processJournalInfoForSync (requestId : ID32) (message : Text) : State :=
  let s := { s with requests := s.requests.insert requestId ⟨.getJournalInfo, 0, none⟩ }
  s.send (.backupJournal requestId s.syncClass message)

/-- `handle_router_get_journal_info`. -/
def handleRouterGetJournalInfo (requestId : ID32) (message : Option Text) : State :=
  match message with
  | none => s.send (.routerSyncFinished requestId)
  | some message => s.processJournalInfoForSync requestId message

/-- `post_router_send_uuids_request`. The request stays, also when there is nothing to request. -/
def postRouterSendUuidsRequest (requestId : ID32) (names : Ledger.Table Text Char) : State :=
  if names.keys = [] then s.send (.routerSyncFinished requestId)
  else
    let s := { s with shouldBlockGetRequest := true }
    s.send (.routerSendUuids requestId names.keys)

/-- `handle_backup_send_uuids`. -/
def handleBackupSendUuids (requestId : ID32) (uuids : Ledger.Table Text Char) : State :=
  match s.requests.lookup requestId with
  | none => s
  | some r =>
    let s := { s with requests := s.requests.insert requestId { r with masterJson := some uuids } }
    s.postRouterSendUuidsRequest requestId uuids

/-- A listener of the IMS has no name. -/
def notification (uuid : UUID) (version : UInt32) (listener : Text) : Output :=
  if listener = [] then .notifyIms uuid else .notifyRouter uuid listener version

/-- `notify_update`, of an update. -/
def notifyUpdate (uuid : UUID) (version : UInt32) : State :=
  match s.updateListeners.lookup uuid with
  | none => s
  | some listeners => { s with out := s.out ++ listeners.map (notification uuid version) }

/-- `process_requested_uuid_for_sync`. The uuid is entered into the journal before it is looked for
among the requested ones. -/
def processRequestedUuidForSync (requestId : ID32) (r : Request) (m : UuidMessage) :
    Option State :=
  match r.masterJson with
  | none => none
  | some names =>
    let s := s.send (.journalSave m.uuid m.dataVersion m.lastUpdated m.expireDate)
    if m.uuid.text ∈ names then
      let names := names.erase m.uuid.text
      if names.keys = [] then
        some { s.send (.routerSyncFinished requestId) with
          requests := s.requests.erase requestId }
      else
        some { s with requests := s.requests.insert requestId { r with masterJson := some names } }
    else none

/-- `handle_router_get_uuid`. -/
def handleRouterGetUuid (requestId : ID32) (m : UuidMessage) : Option State :=
  match s.requests.lookup requestId with
  | none => some s
  | some r =>
    if r.cmd = .getJournalInfo then
      let s := s.send (.storageSave m.uuid m.data)
      let s := if r.uuid = s.userJsonUuid then s.send (.userManagerSaveData m.data) else s
      (s.notifyUpdate m.uuid m.dataVersion).processRequestedUuidForSync requestId r m
    else none

/-- `handle_failed_sync_request`, of a request the router gives up. -/
def handleFailedSyncRequest (requestId : ID32) : State :=
  { s with requests := s.requests.erase requestId }

/-- `handle_router_sync_finished_request`. -/
def handleRouterSyncFinishedRequest : State :=
  let s := { s with shouldBlockGetRequest := false }
  s.send .imsSyncFinished

/-- One input. -/
def step : Event → Option State
  | .routerJournalInfo requestId message => some (s.handleRouterGetJournalInfo requestId message)
  | .backupSendUuids requestId uuids => some (s.handleBackupSendUuids requestId uuids)
  | .routerGetUuid requestId m => s.handleRouterGetUuid requestId m
  | .routerFailed requestId => some (s.handleFailedSyncRequest requestId)
  | .routerSyncFinished => some s.handleRouterSyncFinishedRequest

end State

end Sync

end Metax
