import Metax.Backup.Data
import Metax.Library.Run

/-!
# The backup task

The handlers of `backup.cpp` on an initialized device json. `runTask` ends the node on every
exception and on every failed assertion, so a handler that lets one escape has no result; those
that catch exceptions go on.

The file of the device json is always written and read without errors.
-/

namespace Metax

namespace Backup

open Text

/-- Thirty days in microseconds. -/
def thirtyDays : Int64 := 2592000000000

namespace State

variable (s : State) (L : Libs)

/-- `save_device_json`. -/
def saveDeviceJson : State :=
  if s.deviceJsonUpdated then { s with file := s.storageData, deviceJsonUpdated := false } else s

/-- `parse_device_json`, when the node starts again. -/
def parseDeviceJson : State :=
  { s with
    storageData := s.file.entries.foldr (fun e data => data.insert e.1
      { e.2 with expirationDate := e.2.expirationDate.map Expiration.reread }) ∅
    deviceJsonUpdated := false }

/-- `handle_kernel_dump_user_info`. A new key makes the json be written in any case. -/
def handleKernelDumpUserInfo (requestId : ID32) (newKey : Bool) : State :=
  (saveDeviceJson { s with deviceJsonUpdated := s.deviceJsonUpdated || newKey }).send
    (.saveConfirm requestId)

/-! ### Requests of the storage and of the user manager -/

/-- `handle_storage_get_uuid`. Exceptions are caught before anything is sent. -/
def handleStorageGetUuid (requestId : ID32) (uuid : UUID) (data : Package) : State :=
  match s.storageData.lookup uuid with
  | none => s
  | some u =>
    match u.version, u.lastUpdated, u.expirationDate with
    | some version, some lastUpdated, none =>
      s.send (.getUuid requestId uuid data version lastUpdated 0)
    | some version, some lastUpdated, some x =>
      match x.uint64 with
      | some expireDate => s.send (.getUuid requestId uuid data version lastUpdated expireDate)
      | none => s
    | _, _, _ => s

/-- `handle_add_in_device_json` for the user manager. -/
def handleAddForUserManager (uuid : UUID) (version : UInt32) (lastUpdated : UInt64) : State :=
  if lastUpdated = 0 then s
  else s.set uuid ⟨some version, some false, some lastUpdated, some (.unsigned 0)⟩

/-! ### Journals -/

/-- `construct_journal_info_line`. -/
def constructJournalInfoLine (e : Entry) (lastSeen : Int64) (uuid : Text) : Text :=
  match e.lastUpdated, e.version, e.isDeleted with
  | some lastUpdated, some version, some isDeleted =>
    if lastSeen < lastUpdated.toInt64 then
      cat ' ' [uuid, (toString lastUpdated.toInt64.toInt).toList,
        [if isDeleted then 'd' else 's'], (toString version.toNat).toList] ++ ['\n']
    else []
  | _, _, _ => []

/-- The entries in the order of their names, which is that of the uuids. -/
def sortedEntries : List (Sigma fun _ : UUID => Entry) :=
  s.storageData.entries.insertionSort fun a b => a.1 ≤ b.1

/-- `send_journal_info_by_last_seen_time`. -/
def sendJournalInfoByLastSeenTime (lastSeen : Int64) : Text :=
  s.sortedEntries.flatMap fun e => constructJournalInfoLine e.2 lastSeen e.1.text

/-- `send_journal_info_for_uuids`, `none` where the message is not an object as expected. -/
def sendJournalInfoForUuids (message : Text) (lastSeen : Int64) : Option Text :=
  (L.uuidsMember message).map fun uuids =>
    match uuids with
    | none => []
    | some names => (tokens ',' names).flatMap fun name =>
      match s.lookupName L name with
      | none => []
      | some e => constructJournalInfoLine e lastSeen name

/-- `handle_kernel_send_journal_info`. An invalid message is answered with an empty journal. -/
def handleKernelSendJournalInfo (requestId : ID32) (time : Int64) (message : Option Text) : State :=
  match message with
  | none => s.send (.getJournalInfo requestId (s.sendJournalInfoByLastSeenTime time))
  | some message => s.send (.getJournalInfo requestId
      ((s.sendJournalInfoForUuids L (cString message) time).getD []))

/-- `handle_add_in_device_json` for the kernel. -/
def handleAddInDeviceJson (uuid : UUID) (version : UInt32) (isDeleted : Bool)
    (lastUpdated expireDate : UInt64) : State :=
  s.set uuid ⟨some version, some isDeleted, some lastUpdated, some (.unsigned expireDate)⟩

/-- `handle_kernel_delete_from_device_json`: what is there is marked as deleted. -/
def handleKernelDeleteFromDeviceJson (uuid : UUID) (version : UInt32) (lastUpdated : UInt64)
    (now : Int64) : State :=
  match s.storageData.lookup uuid with
  | none => s
  | some _ => s.set uuid
      ⟨some version, some true, some lastUpdated, some (.signed (now + thirtyDays))⟩

/-- `from_string<uint32_t>`. -/
def toUInt32 (t : Text) : UInt32 := .ofNat (readUnsigned (2 ^ 32) L.unassigned t)

/-- `from_string<UInt64>`. -/
def toUInt64 (t : Text) : UInt64 := .ofNat (readUnsigned (2 ^ 64) L.unassigned t)

/-- `update_info_for_deleted_uuid`: no look at what the json says of the uuid. -/
def updateInfoForDeletedUuid (uuid lastUpdated version : Text) (now : Int64) : Option State := do
  let u ← L.parseUuid uuid
  pure (s.handleKernelDeleteFromDeviceJson u (toUInt32 L version) (toUInt64 L lastUpdated) now)

/-- `should_get_update`, for a name the json has. -/
def shouldGetUpdate (e : Entry) (version lastUpdated : Text) : Option Bool := do
  let ov ← e.version
  let pv := toUInt32 L version
  if ov < pv then pure true
  else if ov = pv then do
    let ou ← e.lastUpdated
    pure (ou.toInt64 < (toUInt64 L lastUpdated).toInt64)
  else pure false

/-- `post_kernel_notify_delete`. -/
def postKernelNotifyDelete (uuid : Text) (version : UInt64) : Option State := do
  let u ← L.parseUuid uuid
  pure (s.send (.notifyDelete u version.toUInt32))

/-- `post_storage_remove_from_cache_request`. -/
def postStorageRemoveFromCacheRequest (uuid : Text) : Option State := do
  let u ← L.parseUuid uuid
  pure (s.send (.deleteFromCache u))

/-- `post_storage_delete_request_for_uuids`. -/
def postStorageDeleteRequestForUuids (uuids : List Text) : State :=
  if uuids = [] then s else s.send (.delUuids uuids)

end State

/-- A line of a journal. -/
structure Line where
  uuid : Text
  lastUpdated : Text
  operation : Text
  version : Text
  deriving DecidableEq

/-- Four tokens are a line. -/
def Line.ofText (t : Text) : Option Line :=
  match tokens ' ' t with
  | [uuid, lastUpdated, operation, version] => some ⟨uuid, lastUpdated, operation, version⟩
  | _ => none

/-- The loop variables of `handle_kernel_get_journal_info`: the task, the uuids to delete and the
names to request. -/
structure Journal where
  task : State
  deleted : List Text
  requested : Ledger.Table Text Char

namespace Journal

variable (L : Libs) (syncClass : UInt32) (now : Int64)

/-- A line that tells of a deletion. -/
def delete (j : Journal) (l : Line) : Option Journal := do
  let task ← j.task.updateInfoForDeletedUuid L l.uuid l.lastUpdated l.version now
  let task ← task.postKernelNotifyDelete L l.uuid (State.toUInt64 L l.version)
  pure { j with task := task, deleted := j.deleted ++ [l.uuid] }

/-- What is requested after a line that tells of a saved uuid. -/
def request (j : Journal) (l : Line) : Option (Ledger.Table Text Char) :=
  match j.task.lookupName L l.uuid with
  | none => pure (if syncClass = 1 then j.requested.insert l.uuid 's' else j.requested)
  | some e => do
    let update ← State.shouldGetUpdate L e l.version l.lastUpdated
    pure (if update then j.requested.insert l.uuid 'u' else j.requested)

/-- A line that tells of a saved uuid. -/
def save (j : Journal) (l : Line) : Option Journal := do
  let requested ← j.request L syncClass l
  let task ← j.task.postStorageRemoveFromCacheRequest L l.uuid
  pure { j with task := task, requested := requested }

/-- One of two operations is asserted. -/
def process (j : Journal) (l : Line) : Option Journal :=
  if l.operation = ['d'] then j.delete L now l
  else if l.operation = ['s'] then j.save L syncClass l
  else none

/-- One round of the loop. Four tokens are asserted. -/
def line (j : Journal) (t : Text) : Option Journal :=
  (Line.ofText t).bind (j.process L syncClass now)

end Journal

/-- `handle_kernel_get_journal_info`. The kernel does not pass on a message without a text. -/
def State.handleKernelGetJournalInfo (s : State) (L : Libs) (requestId : ID32) (syncClass : UInt32)
    (message : Text) (now : Int64) : Option State := do
  let j ← Run.run (Journal.line L syncClass now) ⟨s, [], ∅⟩ (lines (cString message))
  pure ((j.task.postStorageDeleteRequestForUuids j.deleted).send (.sendUuids requestId j.requested))

/-! ### Expiration -/

/-- What `handle_expired_data` does with an entry. -/
inductive Verdict
  | keep
  | mark (e : Entry)
  | remove

/-- `handle_expired_data`. -/
def handleExpiredData (e : Entry) (x : Expiration) (now : Int64) : Option Verdict := do
  let date ← x.int64
  if date ≠ 0 ∧ date ≤ now then
    match e.isDeleted with
    | none => pure .keep
    | some true => pure .remove
    | some false => pure (.mark { e with
        isDeleted := some true, expirationDate := some (.signed (now + thirtyDays)) })
  else pure .keep

/-- The loop variables of `clean_up_expired_data`. -/
structure CleanUp where
  storageData : Ledger.Table UUID Entry
  removed : List UUID
  marked : List UUID

namespace CleanUp

/-- What becomes of the entry of a uuid. -/
def apply (c : CleanUp) (u : UUID) : Verdict → CleanUp
  | .keep => c
  | .mark e => { c with storageData := c.storageData.insert u e, marked := c.marked ++ [u] }
  | .remove => { c with removed := c.removed ++ [u] }

/-- One round of the loop. -/
def entry (now : Int64) (c : CleanUp) (e : Sigma fun _ : UUID => Entry) : Option CleanUp :=
  match e.2.expirationDate with
  | none => some c
  | some x => (handleExpiredData e.2 x now).map (c.apply e.1)

end CleanUp

namespace State

variable (s : State) (L : Libs)

/-- `clean_up_expired_data`. -/
def cleanUpExpiredData (now : Int64) : Option State := do
  let c ← Run.run (CleanUp.entry now) ⟨s.storageData, [], []⟩ s.sortedEntries
  let task := { s with storageData := c.storageData }
  let task := task.postStorageDeleteRequestForUuids (c.marked.map UUID.text)
  pure { task with
    storageData := c.removed.foldl (fun data u => data.erase u) task.storageData
    deviceJsonUpdated := task.deviceJsonUpdated || !c.marked.isEmpty || !c.removed.isEmpty }

/-- One input of the task. -/
def step : Event → Option State
  | .sendJournalInfo requestId time message =>
    some (s.handleKernelSendJournalInfo L requestId time message)
  | .del uuid version lastUpdated now =>
    some (s.handleKernelDeleteFromDeviceJson uuid version lastUpdated now)
  | .save uuid version isDeleted lastUpdated expireDate =>
    some (s.handleAddInDeviceJson uuid version isDeleted lastUpdated expireDate)
  | .getJournalInfo requestId syncClass message now =>
    s.handleKernelGetJournalInfo L requestId syncClass message now
  | .dumpUserInfo requestId newKey => some (s.handleKernelDumpUserInfo requestId newKey)
  | .userManagerSave uuid version lastUpdated =>
    some (s.handleAddForUserManager uuid version lastUpdated)
  | .getUuid requestId uuid data => some (s.handleStorageGetUuid requestId uuid data)
  | .timeout => some s.saveDeviceJson
  | .cleanUp now => s.cleanUpExpiredData now
  | .restart => some s.parseDeviceJson

end State

end Backup

end Metax
