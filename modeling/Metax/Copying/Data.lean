import Metax.Deletion.Data

/-!
# Copying an object

A copy request looks its object up in the local storage, gets the master object from there or, by a
helper request, from the router, and has every piece copied under a new uuid: each copy is a request
of its own, first to the storage and, where that has no copy or no space, to the router. When every
piece was copied once, the new master object is saved, and when that was done once, the copy is
reported. Any number of peers may go on answering. A failure before a first success is reported at
once, and the pieces that were copied are deleted again.

A `Copying` is what the kernel has for one copy request, its helpers, its pieces and the deletions;
the id counter is all it shares with other requests, which move it. What only tells the user json
and the journal of the backup is left out, and so is `clear_request`. The master object arrives
parsed: `none` is a text that `parse_master_object` rejects, and a package that was encrypted is
what was given to the key manager. `random` are the uuids the generator yields, one after the
other. A result of `none` is an assertion that fails outside of the `try` of
`handle_unencrypted_master_object`.
-/

namespace Metax

namespace Copying

open Ledger (Table)

/-! ### Requests -/

/-- What the copy path reads of a master object. `size` is `none` when it is no number, and
`pieces` when it is no JSON object; a name of a piece that is no uuid is `none`, and so is a content
that is no text. -/
structure Master where
  size : Option ℕ
  contentType : String
  content : Option (Option Bytes)
  pieces : Option (List (Option UUID × Piece))

/-- `request::state`. -/
inductive RequestState
  | lookupInDb
  | requested
  | authentication
  | receiving
  | sending
  deriving DecidableEq

/-- `request::type`, of the requests of the copy path. -/
inductive RequestType
  | ims
  | kernel
  deriving DecidableEq

/-- The commands of the requests of the copy path. -/
inductive RequestCommand
  | copy
  | del
  deriving DecidableEq

/-- The content of a package: a master object, as it is or encrypted with a key. -/
inductive Content
  | plain (m : MasterJson)
  | encrypted (key : AesKey) (m : MasterJson)

/-- The master object in a package. -/
def Content.master : Content → MasterJson
  | plain m => m
  | encrypted _ m => m

/-- `kernel::request`, as far as the copy path uses it. `data` of a piece, the text of `copy_uuid`,
is left out. -/
structure Request where
  uuid : UUID
  st : RequestState
  cmd : RequestCommand
  typ : RequestType
  data : Option Content
  failCount : UInt16
  masterJson : Option MasterJson
  parentReqId : Option ID32
  updated : UInt16
  aesKey : Option AesKey
  oldMasterJson : Option Master
  units : Finset ID32
  backupUnits : Finset ID32
  savedUnits : List UUID
  isLocal : Bool
  winnersCount : UInt16
  copyUuid : UUID
  dataVersion : UInt32
  lastUpdated : ℕ
  expireDate : ℕ

/-- `request(id, u, s, c, t)` at the time `now`. -/
def Request.new (uuid : UUID) (st : RequestState) (cmd : RequestCommand) (typ : RequestType)
    (now : ℕ) : Request where
  uuid := uuid
  st := st
  cmd := cmd
  typ := typ
  data := none
  failCount := 0
  masterJson := none
  parentReqId := none
  updated := 0
  aesKey := none
  oldMasterJson := none
  units := ∅
  backupUnits := ∅
  savedUnits := []
  isLocal := true
  winnersCount := 0
  copyUuid := 0
  dataVersion := .ofNat dataVersionStart
  lastUpdated := now
  expireDate := 0

/-! ### Messages -/

/-- What a request is waiting for in another task. The router answers a `copyRouter`, a `saveRouter`
and a `deleteRouter` any number of times before it cancels. -/
inductive Post
  | lookUp
  | getStorage
  | getRouter
  | decrypt
  | encrypt (content : Content)
  | copyStorage
  | copyRouter
  | saveStorage
  | saveRouter
  | deleteStorage
  | deleteRouter

/-- The final responses. -/
inductive Answer
  | copySucceeded (uuid copyUuid : UUID)
  | copyFailed (uuid : UUID) (err : String)
  | deleted (uuid : UUID)
  deriving DecidableEq

/-- What the kernel has sent, newest first, with four ghost entries: a master object was read, a
copy of the piece of the request `id` or of the new master object was confirmed, and a copy has
failed. -/
inductive Entry
  | respond (ims : ID32) (a : Answer)
  | lookUp (id : ID32) (uuid : UUID)
  | getStorage (id : ID32) (uuid : UUID)
  | getRouter (id : ID32) (uuid : UUID)
  | decrypt (id : ID32) (key : AesKey)
  | encrypt (id : ID32) (key : AesKey) (m : MasterJson)
  | copyStorage (id : ID32) (uuid copyUuid : UUID)
  | copyRouter (id : ID32) (uuid copyUuid : UUID)
  | saveStorage (id : ID32) (uuid : UUID) (data : Option Content)
  | saveRouter (id : ID32) (uuid : UUID) (data : Option Content) (maxResponseCnt : UInt16)
  | saveData (id : ID32) (uuid : UUID) (data : Option Content)
  | authData (id : ID32) (uuid : UUID)
  | deleteStorage (id : ID32) (uuid : UUID)
  | deleteRouter (id : ID32) (uuid : UUID) (dataVersion : UInt32) (maxResponseCnt : UInt16)
  | gotMaster (m : Master)
  | pieceCopied (id : ID32) (copyUuid : UUID)
  | masterCopied (id : ID32)
  | failed

end Copying

/-- What the kernel has for a copy request. -/
structure Copying where
  requestCounter : ID32
  drawn : ℕ
  requests : Ledger.Table ID32 Copying.Request
  imsReqIds : Ledger.Table ID32 ID32
  posted : Ledger.Table ID32 Copying.Post
  log : List Copying.Entry

namespace Copying

/-- Adds an entry to the log. -/
def write (s : Copying) (e : Entry) : Copying := { s with log := e :: s.log }

/-- Writes a request back. -/
def setRequest (s : Copying) (id : ID32) (r : Request) : Copying :=
  { s with requests := s.requests.insert id r }

/-- `m_requests.erase`. -/
def eraseRequest (s : Copying) (id : ID32) : Copying :=
  { s with requests := s.requests.erase id }

/-- Sends a message that will be answered. -/
def post (s : Copying) (id : ID32) (p : Post) (e : Entry) : Copying :=
  { s with posted := s.posted.insert id p, log := e :: s.log }

/-- The last answer has arrived. -/
def answered (s : Copying) (id : ID32) : Copying := { s with posted := s.posted.erase id }

/-- The response to the IMS, after which nothing is left to respond to. -/
def respond (s : Copying) (id : ID32) (ims : ID32) (a : Answer) : Copying :=
  { s with imsReqIds := s.imsReqIds.erase id, log := .respond ims a :: s.log }

/-- `kernel::get_request_id`; an id that is taken is an assertion that fails. -/
def getRequestId (s : Copying) : Copying × Option ID32 :=
  ({ s with requestCounter := Deletion.nextCounter s.requestCounter },
    if s.requests.lookup s.requestCounter = none then some s.requestCounter else none)

/-! ### Sending -/

/-- `kernel::post_storage_look_up_request`. -/
def postStorageLookUpRequest (s : Copying) (id : ID32) (r : Request) : Copying :=
  s.post id .lookUp (.lookUp id r.uuid)

/-- `kernel::post_storage_get_request`. -/
def postStorageGetRequest (s : Copying) (id : ID32) (r : Request) : Copying :=
  (s.setRequest id { r with st := .sending }).post id .getStorage (.getStorage id r.uuid)

/-- `kernel::post_router_get_request`. -/
def postRouterGetRequest (s : Copying) (id : ID32) (r : Request) : Option Copying :=
  pocoAssert (r.st = .lookupInDb) <|
    some ((s.setRequest id { r with st := .requested }).post id .getRouter (.getRouter id r.uuid))

/-- `kernel::post_storage_copy_request`. -/
def postStorageCopyRequest (s : Copying) (id : ID32) (r : Request) : Copying :=
  s.post id .copyStorage (.copyStorage id r.uuid r.copyUuid)

/-- `kernel::post_router_copy_request`. -/
def postRouterCopyRequest (s : Copying) (id : ID32) (r : Request) : Option Copying :=
  pocoAssert (r.cmd = .copy ∧ r.typ = .kernel) <|
    some (s.post id .copyRouter (.copyRouter id r.uuid r.copyUuid))

/-- `kernel::post_storage_save_request`. -/
def postStorageSaveRequest (s : Copying) (id : ID32) (r : Request) : Copying :=
  s.post id .saveStorage (.saveStorage id r.copyUuid r.data)

/-- `kernel::backup_data`, whose `copy_cnt` has eight bits. -/
def backupData (s : Copying) (id : ID32) (r : Request) (copyCnt : UInt16) : Copying :=
  s.post id .saveRouter (.saveRouter id r.copyUuid r.data copyCnt.toUInt8.toUInt16)

/-- `kernel::post_storage_delete_request`. -/
def postStorageDeleteRequest (s : Copying) (id : ID32) (r : Request) : Copying :=
  s.post id .deleteStorage (.deleteStorage id r.uuid)

/-- `kernel::post_router_delete_request`. -/
def postRouterDeleteRequest (dataCopyCount : UInt16) (s : Copying) (id : ID32) (r : Request) :
    Copying :=
  s.post id .deleteRouter (.deleteRouter id r.uuid r.dataVersion (dataCopyCount - 1))

/-! ### The end of a copy -/

/-- `kernel::remove_from_backup_units`. -/
def removeFromBackupUnits (s : Copying) (id : ID32) (r : Request) (uid : ID32) : Copying :=
  let r := { r with backupUnits := r.backupUnits.erase uid }
  if r.backupUnits = ∅ then s.eraseRequest id else s.setRequest id r

/-- The request of `kernel::handle_piece_delete` at the time `now`. -/
def deleteRequest (uuid : UUID) (preqId : ID32) (now : ℕ) : Request :=
  { Request.new uuid .requested .del .kernel now with
    parentReqId := some preqId
    dataVersion := .ofNat dataVersionStart + 1 }

/-- The loop of `kernel::send_ims_copy_failed_response`, over `kernel::handle_piece_delete`. -/
def deletePieces (now : ℕ) (preqId : ID32) (s : Copying) : List UUID → Option Copying
  | [] => some s
  | u :: us =>
    match s.getRequestId with
    | (_, none) => none
    | (s, some id) =>
      let d := deleteRequest u preqId now
      deletePieces now preqId ((s.setRequest id d).postStorageDeleteRequest id d) us

/-- `kernel::send_ims_copy_failed_response`. -/
def sendImsCopyFailedResponse (now : ℕ) (s : Copying) (id : ID32) (r : Request) (err : String) :
    Option Copying :=
  pocoAssert (r.typ = .ims) <|
    let s := s.write .failed
    let s := (s.imsReqIds.lookup id).elim s fun ims => s.respond id ims (.copyFailed r.uuid err)
    s.deletePieces now id r.savedUnits

/-- `kernel::handle_failed_kernel_copy_request`. -/
def handleFailedKernelCopyRequest (now : ℕ) (s : Copying) (id : ID32) (r : Request) :
    Option Copying :=
  pocoAssert (r.typ = .kernel) <|
    r.parentReqId.bind fun pid => (s.requests.lookup pid).bind fun q =>
      (if r.updated = 0 then s.sendImsCopyFailedResponse now pid q "Failed to copy."
        else some s).map fun s => (s.removeFromBackupUnits pid q id).eraseRequest id

/-- `kernel::handle_failed_ims_copy_request`. -/
def handleFailedImsCopyRequest (now : ℕ) (s : Copying) (id : ID32) (r : Request) :
    Option Copying :=
  if r.updated = 0 then s.sendImsCopyFailedResponse now id r "Failed to copy."
  else some (s.removeFromBackupUnits id r id)

/-- `kernel::handle_failed_copy_request`. A helper is told from the request it helps by its
state. -/
def handleFailedCopyRequest (now : ℕ) (s : Copying) (id : ID32) (r : Request) : Option Copying :=
  pocoAssert (r.cmd = .copy) <|
    if r.typ = .kernel then s.handleFailedKernelCopyRequest now id r
    else if r.st = .requested then
      r.parentReqId.bind fun pid => (s.requests.lookup pid).bind fun q =>
        ((s.eraseRequest id).sendImsCopyFailedResponse now pid q "Failed to copy.").map fun s =>
          s.removeFromBackupUnits pid q pid
    else s.handleFailedImsCopyRequest now id r

/-- `kernel::handle_failed_request`. A deletion is given up. -/
def handleFailedRequest (now : ℕ) (s : Copying) (id : ID32) (r : Request) : Option Copying :=
  match r.cmd with
  | .copy => s.handleFailedCopyRequest now id r
  | .del => some (s.eraseRequest id)

/-! ### The new master object -/

/-- `kernel::create_master_json_template`. -/
def createMasterJsonTemplate (r : Request) (size : ℕ) (contentType : String) : MasterJson where
  size := size
  version := r.dataVersion.toNat
  contentType := contentType
  pieces := ∅
  content := none
  lastUpdated := r.lastUpdated
  expirationDate := r.expireDate
  protocolVersion := masterVersion

/-- The end of `kernel::handle_copy_of_master_object` and of
`kernel::handle_copy_of_encrypted_master_object`. -/
def saveMasterObject (dataCopyCount : UInt16) (s : Copying) (id : ID32) (r : Request)
    (c : Content) : Copying :=
  let r := { r with data := some c }
  let s := s.setRequest id r
  if r.isLocal then s.postStorageSaveRequest id r else s.backupData id r dataCopyCount

/-- `kernel::handle_copy_of_master_object`. -/
def handleCopyOfMasterObject (dataCopyCount : UInt16) (s : Copying) (id : ID32) (r : Request) :
    Option Copying :=
  pocoAssert (r.cmd = .copy) <| r.masterJson.map fun m =>
    match r.aesKey with
    | none => s.saveMasterObject dataCopyCount id r (.plain m)
    | some key => s.post id (.encrypt (.encrypted key m)) (.encrypt id key m)

/-- `kernel::handle_copy_of_encrypted_master_object`. -/
def handleCopyOfEncryptedMasterObject (dataCopyCount : UInt16) (s : Copying) (id : ID32)
    (r : Request) (c : Content) : Option Copying :=
  pocoAssert (r.cmd = .copy) <| some (s.saveMasterObject dataCopyCount id r c)

/-! ### The pieces -/

/-- The request of `kernel::handle_copy_of_each_piece`. -/
def pieceRequest (id : ID32) (r : Request) (old new : UUID) : Request :=
  { Request.new old .requested .copy .kernel r.lastUpdated with
    dataVersion := r.dataVersion
    expireDate := r.expireDate
    parentReqId := some id
    copyUuid := new }

/-- `kernel::handle_copy_of_each_piece`. An id that is taken throws, and so does a name that is no
uuid: `false`. -/
def handleCopyOfEachPiece (id : ID32) (s : Copying) (r : Request) (old : Option UUID) (new : UUID) :
    Copying × Request × Bool :=
  match s.getRequestId, old with
  | (s, some cid), some u =>
    let c := pieceRequest id r u new
    ((s.setRequest cid c).postStorageCopyRequest cid c,
      { r with units := insert cid r.units, backupUnits := insert cid r.backupUnits }, true)
  | (s, _), _ => (s, r, false)

/-- `nm->set`, on the new master object of a request. -/
def Request.setPiece (r : Request) (new : UUID) (p : Piece) : Request :=
  { r with masterJson := r.masterJson.map fun m => { m with pieces := m.pieces.insert new p } }

/-- The loop of `kernel::generate_copy_request_for_pieces`. -/
def copyPieces (random : ℕ → UUID) (id : ID32) (s : Copying) (r : Request) :
    List (Option UUID × Piece) → Copying × Request × Bool
  | [] => (s, r, true)
  | (old, p) :: ps =>
    let new := random s.drawn
    match handleCopyOfEachPiece id { s with drawn := s.drawn + 1 } r old new with
    | (s, r, true) => copyPieces random id s (r.setPiece new p) ps
    | (s, r, false) => (s, r, false)

/-- `kernel::generate_copy_request_for_pieces`. The request is written back whatever happens;
`false` is an exception. -/
def generateCopyRequestForPieces (random : ℕ → UUID) (dataCopyCount : UInt16) (s : Copying)
    (id : ID32) (r : Request) (m : Master) : Copying × Bool :=
  match m.pieces with
  | none => (s.setRequest id r, false)
  | some [] =>
    match (s.setRequest id r).handleCopyOfMasterObject dataCopyCount id r with
    | none => (s.setRequest id r, false)
    | some s => (s, true)
  | some ps =>
    match copyPieces random id s r ps with
    | (s, r, b) => (s.setRequest id r, b)

/-- `kernel::process_copy_request`. -/
def processCopyRequest (random : ℕ → UUID) (dataCopyCount : UInt16) (s : Copying) (id : ID32)
    (r : Request) (m : Master) : Copying × Bool :=
  match m.size, m.content with
  | some size, some none =>
    (s.setRequest id { r with masterJson := some (createMasterJsonTemplate r size m.contentType) },
      false)
  | some size, content =>
    let mj := { createMasterJsonTemplate r size m.contentType with content := content.join }
    let r := { r with masterJson := some mj, backupUnits := insert id r.backupUnits }
    generateCopyRequestForPieces random dataCopyCount s id r m
  | none, _ => (s, false)

/-- `kernel::handle_unencrypted_master_object`. -/
def handleUnencryptedMasterObject (random : ℕ → UUID) (dataCopyCount : UInt16) (now : ℕ)
    (s : Copying) (id : ID32) (r : Request) (m : Option Master) : Option Copying :=
  pocoAssert (r.typ = .ims) <|
    match m with
    | none => s.handleFailedRequest now id r
    | some m =>
      let r := { r with oldMasterJson := some m }
      match processCopyRequest random dataCopyCount ((s.write (.gotMaster m)).setRequest id r) id r
        m with
      | (s, true) => some s
      | (s, false) => (s.requests.lookup id).bind fun r => s.handleFailedRequest now id r

/-- `kernel::got_master_object`; `key` is what the user json has for the uuid. -/
def gotMasterObject (random : ℕ → UUID) (dataCopyCount : UInt16) (now : ℕ) (s : Copying) (id : ID32)
    (r : Request) (m : Option Master) (key : Option AesKey) : Option Copying :=
  pocoAssert (r.typ = .ims) <|
    let r := { r with aesKey := key }
    let s := s.setRequest id r
    match key with
    | some k => some (s.post id .decrypt (.decrypt id k))
    | none => s.handleUnencryptedMasterObject random dataCopyCount now id r m

/-! ### Successes -/

/-- `kernel::remove_id_from_parent_units`. -/
def removeIdFromParentUnits (dataCopyCount : UInt16) (s : Copying) (pid : ID32) (q : Request)
    (id : ID32) : Option Copying :=
  let q := { q with units := q.units.erase id }
  let s := s.setRequest pid q
  if q.units = ∅ then s.handleCopyOfMasterObject dataCopyCount pid q else some s

/-- `std::set::insert`. -/
def insertUnit (u : UUID) (us : List UUID) : List UUID :=
  if us.any fun v => v = u then us else us ++ [u]

/-- `kernel::handle_first_copy_success_for_piece`. -/
def handleFirstCopySuccessForPiece (dataCopyCount : UInt16) (s : Copying) (id : ID32) (r : Request)
    (pid : ID32) (q : Request) : Option Copying :=
  pocoAssert (r.updated = 1) <|
    (s.removeIdFromParentUnits dataCopyCount pid
      { q with savedUnits := insertUnit r.copyUuid q.savedUnits } id).bind fun s =>
        if dataCopyCount = 1 then some (s.eraseRequest id)
        else if r.isLocal then s.postRouterCopyRequest id r
        else some s

/-- `kernel::handle_copy_success_for_piece`. -/
def handleCopySuccessForPiece (dataCopyCount : UInt16) (s : Copying) (id : ID32) (r : Request) :
    Option Copying :=
  pocoAssert (r.typ = .kernel ∧ r.cmd = .copy) <|
    let r := { r with updated := r.updated + 1 }
    let s := (s.setRequest id r).write (.pieceCopied id r.copyUuid)
    r.parentReqId.bind fun pid => (s.requests.lookup pid).bind fun q =>
      if r.updated = 1 then s.handleFirstCopySuccessForPiece dataCopyCount id r pid q
      else if dataCopyCount = r.updated then
        some ((s.removeFromBackupUnits pid q id).eraseRequest id)
      else some s

/-- `kernel::handle_first_copy_success_for_master_object`, with the response of
`kernel::send_ims_copy_succeeded_response`. -/
def handleFirstCopySuccessForMasterObject (dataCopyCount : UInt16) (s : Copying) (id : ID32)
    (r : Request) : Option Copying :=
  pocoAssert (r.updated = 1) <| (s.imsReqIds.lookup id).map fun ims =>
    let s := s.respond id ims (.copySucceeded r.uuid r.copyUuid)
    if dataCopyCount = 1 then s.eraseRequest id
    else if r.isLocal then s.backupData id r (dataCopyCount - 1)
    else s

/-- `kernel::handle_copy_success_for_master_object`. -/
def handleCopySuccessForMasterObject (dataCopyCount : UInt16) (s : Copying) (id : ID32)
    (r : Request) : Option Copying :=
  pocoAssert (r.typ = .ims ∧ r.cmd = .copy) <|
    let r := { r with updated := r.updated + 1 }
    let s := (s.setRequest id r).write (.masterCopied id)
    if r.updated = 1 then s.handleFirstCopySuccessForMasterObject dataCopyCount id r
    else if dataCopyCount = r.updated then some (s.removeFromBackupUnits id r id)
    else some s

/-! ### Deletions -/

/-- `kernel::handle_deleted_response_for_kernel_request`. The unit is struck from those of the copy
request, too. -/
def handleDeletedResponseForKernelRequest (s : Copying) (id : ID32) (r : Request) : Copying :=
  match r.parentReqId with
  | none => s
  | some pid =>
    match s.requests.lookup pid with
    | none => s
    | some p =>
      let p := { p with units := p.units.erase id }
      let s := s.setRequest pid p
      if p.units = ∅ then
        (s.imsReqIds.lookup pid).elim s fun ims => s.respond pid ims (.deleted p.uuid)
      else s

end Copying

end Metax
