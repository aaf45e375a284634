import Metax.Library.Run
import Metax.Platform.DbJson

/-!
# The storage task

`storage.cpp` serves the requests of the kernel, the router and the backup task on one shared
`db_json`. An `Op` is one such call with its arguments and with what the file system does
during the call; `perform` runs it and gives the command of the reply, if one is sent.
-/

namespace Metax

namespace Storage

open DbJson

/-- The commands `storage.cpp` answers with. -/
inductive Command
  | saveConfirm
  | updated
  | deleted
  | nack
  | noSpace
  | failed
  | copySucceeded
  | getData
  | moveCacheToStorageCompleted (status : Bool)
  deriving DecidableEq

/-- `28 == e.code() ? no_space : failed`. -/
def Command.ofExn (e : Exn) : Command := if e.code = 28 then .noSpace else .failed

/-- The calls of `storage.cpp` that change the database. -/
inductive Op
  | saveData (uuid : UUID) (data : Package) (w : Write)
  | saveDataAsyncForRouter (uuid : UUID) (data : Package) (w : Write)
  | updateDataAsyncForRouter (uuid : UUID) (data : Package) (w : Write)
  | addInCache (uuid : UUID) (data : Package) (w : Write) (now : Int64)
  | copyData (uuid newUuid : UUID) (c : Copy)
  | deleteUuids (uuids : List (UUID × Bool × Bool))
  | deleteData (uuid : UUID) (cacheRemoved cacheRemoved' removed : Bool)
  | deleteDataAsyncForRouter (uuid : UUID) (cacheRemoved removed : Bool)
  | deleteDataFromCache (uuid : UUID) (removed : Bool)
  | moveCacheToStorage (listing : Option (List (UUID × Move)))
  | cleanupCache (now : Int64) (v : List (UUID × Bool))

/-- `storage::save_data`. -/
def saveData (s : DbJson) (uuid : UUID) (data : Package) (w : Write) : DbJson × Command :=
  match (s.reduceUuidSize uuid).create uuid data w with
  | (s, .ok ()) => (s, .saveConfirm)
  | (s, .error e) => (s, .ofExn e)

/-- `storage::save_data_async_for_router`: a reply is sent on success only. -/
def saveDataAsyncForRouter (s : DbJson) (uuid : UUID) (data : Package) (w : Write) :
    DbJson × Option Command :=
  match s.create uuid data w with
  | (s, .ok ()) => (s, some .saveConfirm)
  | (s, .error _) => (s, none)

/-- `storage::update_data_async_for_router`. -/
def updateDataAsyncForRouter (s : DbJson) (uuid : UUID) (data : Package) (w : Write) :
    DbJson × Option Command :=
  match (s.reduceUuidSize uuid).create uuid data w with
  | (s, .ok ()) => (s, some .updated)
  | (s, .error _) => (s, none)

/-- `storage::copy_data`. -/
def copyData (s : DbJson) (uuid newUuid : UUID) (c : Copy) : DbJson × Command :=
  if s.lookUp uuid false then
    match s.copy uuid newUuid c with
    | (s, .ok ()) => (s, .copySucceeded)
    | (s, .error e) => (s, .ofExn e)
  else
    (s, .nack)

/-- `storage::delete_uuids`: an exception leaves the loop. -/
def deleteUuids (s : DbJson) : List (UUID × Bool × Bool) → DbJson
  | [] => s
  | (uuid, cacheRemoved, removed) :: st =>
    if s.lookUp uuid true then
      match s.deleteUuid uuid cacheRemoved removed with
      | (s, .ok ()) => deleteUuids s st
      | (s, .error _) => s
    else
      deleteUuids s st

/-- `storage::delete_data`: the cached file goes first, then `delete_uuid` is called when the
uuid is stored. The reply stays `nack` when something throws. -/
def deleteData (s : DbJson) (uuid : UUID) (cacheRemoved cacheRemoved' removed : Bool) :
    DbJson × Command :=
  match s.deleteUuidFromCache uuid cacheRemoved with
  | (s, .error _) => (s, .nack)
  | (s, .ok ()) =>
    if s.lookUp uuid false then
      match s.deleteUuid uuid cacheRemoved' removed with
      | (s, .ok ()) => (s, .deleted)
      | (s, .error _) => (s, .nack)
    else
      (s, .nack)

/-- `storage::get_data_from_db`: the answer to a get, `failed` when the file is not found. An
exception that is no `Poco::Exception` leaves the request without an answer. -/
def getDataFromDb (s : DbJson) (uuid : UUID) : Option (Command × Bytes) :=
  match s.get uuid with
  | .ok content => some (.getData, content)
  | .error .badAlloc => none
  | .error _ => some (.failed, [])

/-- Runs one call. -/
def perform (s : DbJson) : Op → DbJson × Option Command
  | .saveData uuid data w => let (s, cmd) := saveData s uuid data w; (s, some cmd)
  | .saveDataAsyncForRouter uuid data w => saveDataAsyncForRouter s uuid data w
  | .updateDataAsyncForRouter uuid data w => updateDataAsyncForRouter s uuid data w
  | .addInCache uuid data w now => (s.addInCache uuid data w now, none)
  | .copyData uuid newUuid c => let (s, cmd) := copyData s uuid newUuid c; (s, some cmd)
  | .deleteUuids uuids => (deleteUuids s uuids, none)
  | .deleteData uuid cacheRemoved cacheRemoved' removed =>
    let (s, cmd) := deleteData s uuid cacheRemoved cacheRemoved' removed; (s, some cmd)
  | .deleteDataAsyncForRouter uuid cacheRemoved removed =>
    let (s, r) := s.deleteUuid uuid cacheRemoved removed
    (s, match r with | .ok () => some .deleted | .error _ => none)
  | .deleteDataFromCache uuid removed => ((s.deleteUuidFromCache uuid removed).1, none)
  | .moveCacheToStorage listing =>
    let (s, status) := s.moveCacheToStorage listing
    (s, some (.moveCacheToStorageCompleted status))
  | .cleanupCache now v => (s.cleanupCache now v, none)

/-- The state after one call. -/
def step (s : DbJson) (op : Op) : Option DbJson := some (perform s op).1

end Storage

end Metax
