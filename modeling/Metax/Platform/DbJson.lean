import Metax.Library.Ledger
import Metax.Platform.Package

/-!
# The file database `db_json`

A `DbJson` is the state of a `db_json` object together with the two directories it owns:
the storage directory (`m_db_path`) and the cache directory inside it (`m_cache_path`), each a
table from file names (uuids) to files. The counters `m_cache_size` and `m_storage_size` are
the `uint64_t` fields the class keeps next to them.

The file system is the environment: whether a file can be opened, how many bytes of a write
reach the file before the stream fails, whether a file can be removed, is an argument of each
operation (`Write`, `Copy`, `Move`, and a `Bool` for `Poco::File::remove`). A thrown exception
is the `Except.error` in the result; the state next to it is what the operation left behind.
-/

namespace Metax

open Ledger (Table)

/-- A file of the cache directory. Of the storage directory only the contents matter:
nothing reads the modification time of a file there. -/
structure CacheFile where
  content : Bytes
  lastModified : Int64
  deriving DecidableEq

/-- The state of a `db_json` object and its two directories. -/
structure DbJson where
  dbPathName : String
  dbPath : Table UUID Bytes
  cachePath : Table UUID CacheFile
  cacheSize : UInt64
  storageSize : UInt64
  cacheAge : UInt64
  cacheLimit : UInt64
  storageLimit : Int64

namespace DbJson

/-- The exceptions the operations throw. `file` stands for what `Poco::File` throws, with the
code it carries; `badAlloc` is the only one that is no `Poco::Exception`. -/
inductive Exn
  | notFound
  | noSpaceInStorage
  | couldNotSave (path : String)
  | noSpaceForCopy
  | file (errno : ℤ)
  | badAlloc
  deriving DecidableEq

/-- `Poco::Exception::code`. -/
def Exn.code : Exn → ℤ
  | notFound => 0
  | noSpaceInStorage => 28
  | couldNotSave _ => 0
  | noSpaceForCopy => 28
  | file errno => errno
  | badAlloc => 0

/-- `Poco::Exception::message`. -/
def Exn.message : Exn → String
  | notFound => "Not found!"
  | noSpaceInStorage => "Failed to save: No space in storage"
  | couldNotSave path => "Could not save in " ++ path
  | noSpaceForCopy => "Failed to copy: No space in storage"
  | file _ => ""
  | badAlloc => ""

/-- What an operation returns besides the new state. -/
abbrev Result := Except Exn Unit

/-- The constructor `db_json::db_json`, together with what the two directories hold. The
argument `l` is the age limit in minutes. -/
def opened (dir : String) (dbPath : Table UUID Bytes) (cachePath : Table UUID CacheFile)
    (cacheSize storageSize l t : UInt64) (m : Int64) : DbJson where
  dbPathName := if dir.isEmpty then "./storage" else dir
  dbPath := dbPath
  cachePath := cachePath
  cacheSize := cacheSize
  storageSize := storageSize
  cacheAge := l * 60000000
  cacheLimit := t
  storageLimit := m

/-! ### Sizes of the two directories -/

/-- The sum of the byte sizes of the files in the storage directory. -/
def storageTotal (s : DbJson) : ℕ := Ledger.total (fun _ c => c.length) s.dbPath

/-- The sum of the byte sizes of the files in the cache directory. -/
def cacheTotal (s : DbJson) : ℕ := Ledger.total (fun _ f => f.content.length) s.cachePath

/-- The size of the file `uuid` of the storage directory, `0` when there is none. -/
def storedSize (s : DbJson) (uuid : UUID) : ℕ := Ledger.weight (fun _ c => c.length) s.dbPath uuid

/-- The size of the file `uuid` of the cache directory, `0` when there is none. -/
def cachedSize (s : DbJson) (uuid : UUID) : ℕ :=
  Ledger.weight (fun _ f => f.content.length) s.cachePath uuid

/-! ### Writing a file -/

/-- How an `std::ofstream` behaves on one write: all goes well; the file cannot be opened; the
stream fails in `write`, after `n` bytes reached the (already truncated) file; or the content stays
in the buffer of the stream, and only `n` bytes of it reach the file when `close` flushes it. -/
inductive Write
  | ok
  | notOpened
  | short (n : ℕ)
  | unflushed (n : ℕ)
  deriving DecidableEq

/-- The count passed to `ofs.write`: the size cast to `int32_t`. A negative count writes
nothing and sets `badbit`. -/
def streamsize (content : Package) : ℕ := if content.size < 2 ^ 31 then content.size else 0

/-- The file after the write, `none` when it was never opened. -/
def Write.file (w : Write) (content : Package) : Option Bytes :=
  match w with
  | ok => some (content.message.take (streamsize content))
  | notOpened => none
  | short n | unflushed n => some (content.message.take (min n (streamsize content)))

/-- `ofs.fail()` after `ofs.write`. It is asked before `ofs.close()`, whose failure goes
unnoticed. -/
def Write.fail (w : Write) (content : Package) : Bool :=
  match w with
  | ok | unflushed _ => decide (2 ^ 31 ≤ content.size)
  | notOpened | short _ => true

/-- The whole content reached the file. -/
def Write.Whole (w : Write) (content : Package) : Prop := w.file content = some content.message

instance (w : Write) (content : Package) : Decidable (w.Whole content) :=
  inferInstanceAs (Decidable (_ = _))

/-- Puts the outcome of a write into the storage directory. -/
def store (s : DbJson) (uuid : UUID) : Option Bytes → DbJson
  | none => s
  | some c => { s with dbPath := s.dbPath.insert uuid c }

/-! ### The operations -/

/-- `db_json::look_up_in_cache`. -/
def lookUpInCache (s : DbJson) (uuid : UUID) : Bool := (s.cachePath.lookup uuid).isSome

/-- `db_json::look_up`. -/
def lookUp (s : DbJson) (uuid : UUID) (shouldLookUpCache : Bool) : Bool :=
  (shouldLookUpCache && s.lookUpInCache uuid) || (s.dbPath.lookup uuid).isSome

/-- What `db_json::get` reads from an open file: the length goes through `uint32_t` into an
`int32_t`; a negative one makes `new char[length + 1]` throw. -/
def readFile (file : Bytes) : Except Exn Bytes :=
  let length := file.length % 2 ^ 32
  if length < 2 ^ 31 then .ok (file.take length) else .error .badAlloc

/-- `db_json::get`: a cached file is preferred to a stored one. -/
def get (s : DbJson) (uuid : UUID) : Except Exn Bytes :=
  match s.cachePath.lookup uuid, s.dbPath.lookup uuid with
  | some f, _ => readFile f.content
  | none, some c => readFile c
  | none, none => .error .notFound

/-- The space check of `db_json::create`, made only when a limit is set. -/
def lacksSpace (s : DbJson) (content : Package) : Bool :=
  decide (0 ≤ s.storageLimit) &&
    decide (s.storageLimit.toUInt64 < s.storageSize + UInt64.ofNat content.size)

/-- `db_json::create`. -/
def create (s : DbJson) (uuid : UUID) (content : Package) (w : Write) : DbJson × Result :=
  if s.lacksSpace content then
    (s, .error .noSpaceInStorage)
  else
    let s := s.store uuid (w.file content)
    if w.fail content then
      (s, .error (.couldNotSave (s.dbPathName ++ "/" ++ uuid.toString)))
    else
      ({ s with storageSize := s.storageSize + UInt64.ofNat content.size }, .ok ())

/-- `db_json::add_in_cache`: the stream's state is not looked at. -/
def addInCache (s : DbJson) (uuid : UUID) (content : Package) (w : Write) (now : Int64) : DbJson :=
  let s := match w.file content with
    | none => s
    | some c => { s with cachePath := s.cachePath.insert uuid ⟨c, now⟩ }
  { s with cacheSize := s.cacheSize + UInt64.ofNat content.size }

/-- `db_json::delete_uuid_from_cache`; `removed` tells whether `f.remove()` succeeds. -/
def deleteUuidFromCache (s : DbJson) (uuid : UUID) (removed : Bool) : DbJson × Result :=
  match s.cachePath.lookup uuid with
  | none => (s, .ok ())
  | some f =>
    let s := { s with cacheSize := s.cacheSize - UInt64.ofNat f.content.length }
    if removed then
      ({ s with cachePath := s.cachePath.erase uuid }, .ok ())
    else
      (s, .error (.file 0))

/-- The part of `db_json::delete_uuid` that is about the storage directory. -/
def deleteStored (s : DbJson) (uuid : UUID) (removed : Bool) : DbJson × Result :=
  match s.dbPath.lookup uuid with
  | none => (s, .ok ())
  | some c =>
    let s := { s with storageSize := s.storageSize - UInt64.ofNat c.length }
    if removed then
      ({ s with dbPath := s.dbPath.erase uuid }, .ok ())
    else
      (s, .error (.file 0))

/-- `db_json::delete_uuid`; the two flags tell whether the removals of the cached and of the
stored file succeed. -/
def deleteUuid (s : DbJson) (uuid : UUID) (cacheRemoved removed : Bool) : DbJson × Result :=
  match s.deleteUuidFromCache uuid cacheRemoved with
  | (s, .ok ()) => s.deleteStored uuid removed
  | (s, .error e) => (s, .error e)

/-- `db_json::reduce_uuid_size`. -/
def reduceUuidSize (s : DbJson) (uuid : UUID) : DbJson :=
  { s with storageSize := s.storageSize - UInt64.ofNat (s.storedSize uuid) }

/-- How `Poco::File::copyTo` behaves: all goes well, the target cannot be opened, or the copy
fails with error `errno` after `n` bytes reached the (already truncated) target. -/
inductive Copy
  | ok
  | notOpened (errno : ℤ)
  | short (n : ℕ) (errno : ℤ)
  deriving DecidableEq

/-- What `copyTo` reads of the source: the target is truncated before the source is read, so
that a file copied onto itself ends up empty. -/
def copySource (s : DbJson) (oldUuid newUuid : UUID) : Bytes :=
  if oldUuid = newUuid then [] else (s.dbPath.lookup oldUuid).getD []

/-- `db_json::copy`; the caller has found `oldUuid` in the storage directory. The space check
is made whatever the limit is. -/
def copy (s : DbJson) (oldUuid newUuid : UUID) (c : Copy) : DbJson × Result :=
  let size := UInt64.ofNat (s.storedSize oldUuid)
  if s.storageLimit.toUInt64 < s.storageSize + size then
    (s, .error .noSpaceForCopy)
  else
    match c with
    | .notOpened errno => (s, .error (.file errno))
    | .short n errno =>
      (s.store newUuid (some ((s.copySource oldUuid newUuid).take n)), .error (.file errno))
    | .ok =>
      let s' := s.store newUuid (some (s.copySource oldUuid newUuid))
      ({ s' with storageSize := s.storageSize + size }, .ok ())

/-- The loop of `db_json::cleanup_cache` over the sorted files; next to each file stands
whether its removal succeeds. A removal that fails throws after the counter was reduced, and
a file that is gone by now throws at once: both end the loop. -/
def cleanupLoop (s : DbJson) (old : Int64) : List (UUID × Bool) → DbJson
  | [] => s
  | (uuid, removed) :: v =>
    match s.cachePath.lookup uuid with
    | none => s
    | some f =>
      if (s.cacheAge ≠ 0 ∧ f.lastModified < old) ∨ s.cacheLimit < s.cacheSize then
        let s := { s with cacheSize := s.cacheSize - UInt64.ofNat f.content.length }
        if removed then
          cleanupLoop { s with cachePath := s.cachePath.erase uuid } old v
        else
          s
      else
        s

/-- `db_json::cleanup_cache` at time `now`, for a listing of the cache directory that
`std::sort` has put in order of modification time. `Poco::Timestamp` is a signed number of
microseconds, and `old -= m_cache_age` takes the unsigned age as one. -/
def cleanupCache (s : DbJson) (now : Int64) (v : List (UUID × Bool)) : DbJson :=
  s.cleanupLoop (now - s.cacheAge.toInt64) v

/-- How `Poco::File::moveTo`, a `copyTo` followed by a `remove`, behaves: all goes well, the
copy leaves the target untouched (`none`) or with `n` bytes, or the source is not removed. -/
inductive Move
  | ok
  | copyFailed (n : Option ℕ)
  | notRemoved
  deriving DecidableEq

/-- The stored file of that name after a move, `none` when it is untouched. -/
def Move.file (m : Move) (content : Bytes) : Option Bytes :=
  match m with
  | ok => some content
  | copyFailed n => n.map fun n => content.take n
  | notRemoved => some content

/-- One round of the loop of `db_json::move_cache_to_storage`, with the status it yields. -/
def moveFile (s : DbJson) (uuid : UUID) (m : Move) : DbJson × Bool :=
  match s.cachePath.lookup uuid with
  | none => (s, false)
  | some f =>
    let s := s.store uuid (m.file f.content)
    if m = .ok then
      ({ s with cachePath := s.cachePath.erase uuid }, true)
    else
      (s, false)

/-- The loop of `db_json::move_cache_to_storage`. -/
def moveLoop (s : DbJson) : List (UUID × Move) → DbJson × Bool
  | [] => (s, true)
  | (uuid, m) :: v =>
    let (s, status) := s.moveFile uuid m
    let (s, rest) := s.moveLoop v
    (s, status && rest)

/-- `db_json::move_cache_to_storage` for a listing of the cache directory, `none` when the
directory is not found. The counter of the cache is reset whatever happened. -/
def moveCacheToStorage (s : DbJson) (listing : Option (List (UUID × Move))) : DbJson × Bool :=
  let (s, status) := match listing with
    | some v => s.moveLoop v
    | none => (s, false)
  ({ s with cacheSize := 0 }, status)

end DbJson

end Metax
