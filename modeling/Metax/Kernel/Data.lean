import Metax.Library.Ledger
import Metax.Platform.Package
import Mathlib.Data.List.Sort

/-!
# The data of the kernel's save path

The kernel splits an object into pieces, describes them in a master object and hands pieces
and master, each as a *save unit*, to the local storage and to the router. This file has the
records of `kernel.hpp` that the save path reads, the messages it sends, and the state of the
kernel together with its environment.

The other tasks of the node are the environment. What a unit is waiting for there is a `Post`,
what a request is waiting for a `Wait`; what the kernel has sent, with a few ghost entries that
say what happened when, is the `log`, newest entry first. JSON text, base64 and the cipher are
third-party code: a `Codec` is all that is known of them.

What the save path writes to the user json and to the device json goes to other tasks and is left
out, as are the messages that clear a request at the router. The entries of the user json it reads
are the program's own, with all their fields.
-/

namespace Metax

open Ledger (Table)

/-- An AES key and its initialization vector. A field without them is `none`; in the source
both strings are empty. -/
structure AesKey where
  key : Bytes
  iv : Bytes
  deriving DecidableEq

/-- `max_chunk_size`. -/
def maxChunkSize : ℕ := 7000000

/-- `max_storage_input_cnt`. -/
def maxStorageInputCnt : ℕ := 150

/-- `max_save_fail_count`. -/
def maxSaveFailCount : ℕ := 1

/-- `DATA_VERSION_START`. -/
def dataVersionStart : ℕ := 1

/-- `MASTER_VERSION`. -/
def masterVersion : ℕ := 1

/-! ### Master objects -/

/-- What a master object says of a piece: `from` and `size`, and the key it was encrypted
with, if it was. -/
structure Piece where
  start : ℕ
  size : ℕ
  aesKey : Option AesKey
  deriving DecidableEq

/-- The `pieces` of a master object. -/
abbrev Pieces := Table UUID Piece

/-- The pieces as a `Poco::JSON::Object` iterates over them, in the order of their names. -/
def Pieces.toList (p : Pieces) : List (UUID × Piece) :=
  (p.entries.map fun e => (e.1, e.2)).insertionSort fun e e' => e.1.toNat ≤ e'.1.toNat

theorem Pieces.mem_toList {p : Pieces} {u : UUID} {q : Piece} :
    (u, q) ∈ p.toList ↔ p.lookup u = some q := by
  rw [Pieces.toList, List.mem_insertionSort, List.mem_map, ← Option.mem_def, AList.mem_lookup_iff]
  constructor
  · rintro ⟨⟨v, r⟩, he, hu⟩
    obtain ⟨rfl, rfl⟩ := Prod.mk.inj hu
    exact he
  · exact fun he => ⟨⟨u, q⟩, he, rfl⟩

theorem Pieces.nodup_toList (p : Pieces) : (p.toList.map Prod.fst).Nodup := by
  have hperm : (p.toList.map Prod.fst).Perm p.keys := by
    rw [Pieces.toList]
    refine ((List.perm_insertionSort _ _).map _).trans ?_
    rw [List.map_map]
    exact .rfl
  exact hperm.nodup_iff.mpr p.keys_nodup

/-- A master object. The content of an object that is not chunked stands in it, in base64. -/
structure MasterJson where
  size : ℕ
  version : ℕ
  contentType : String
  pieces : Pieces
  content : Option Bytes
  lastUpdated : ℕ
  expirationDate : ℕ
  protocolVersion : ℕ

/-- What a JSON object has under a name whose value is taken for a number: nothing, a value that
is none, or a number. -/
inductive NumberField
  | missing
  | unreadable
  | value (n : ℕ)
  deriving DecidableEq

/-- A name in the `pieces` of a master object that is read: what `Poco::UUID::toString` gives for
a uuid, or any other text, with the uuid that `Poco::UUID` reads in it, if it reads one. -/
inductive PieceName
  | canonical (uuid : UUID)
  | other (text : String) (read : Option UUID)
  deriving DecidableEq

/-- What a master object that is read has for a piece. It may have been written by anybody. -/
structure PieceInfo where
  start : NumberField
  size : NumberField
  aesKey : Option Bytes
  aesIv : Option Bytes
  deriving DecidableEq

/-- A master object as `parse_master_object` reads it. The pieces are in the order in which a
`Poco::JSON::Object` iterates over them. -/
structure MasterInfo where
  size : ℕ
  contentType : String
  pieces : Table PieceName PieceInfo
  content : Option Bytes

/-- What an update reads of the old master object: its version, its content type, and the names
in its `pieces`, if it has an object there, each with the uuid `Poco::UUID` reads in it. -/
structure OldMaster where
  version : NumberField
  contentType : String
  names : Option (List (Option UUID))

/-- The pieces the old master object lists. -/
def OldMaster.pieces (m : OldMaster) : List UUID := (m.names.getD []).reduceOption

/-- The third-party code the save and get paths rely on: JSON text, base64, and the cipher of
the key manager. What is read back is what was written where a theorem says so. -/
structure Codec where
  stringify : MasterJson → Bytes
  parse : Bytes → Option MasterInfo
  base64Encode : Bytes → Bytes
  base64Decode : Bytes → Bytes
  encrypt : AesKey → Bytes → Bytes
  decrypt : AesKey → Bytes → Option Bytes

/-- The simplest codec: the JSON text of an object is its inline content, and a key is written in
front of what it encrypts. Examples are computed with it. -/
def Codec.plain : Codec where
  stringify m := m.content.getD []
  parse _ := none
  base64Encode b := b
  base64Decode b := b
  encrypt k b := k.key ++ b
  decrypt k b := some (b.drop k.key.length)

/-! ### Requests and save units -/

/-- The commands of the requests and units on the save path. -/
inductive SaveCommand
  | save
  | update
  deriving DecidableEq

/-- What a request of the IMS is waiting for before it can go on: the old master object of an
update, a new key, or the encryption of its master object `pkg`. -/
inductive Wait
  | nothing
  | oldMaster
  | genAesKey
  | encryption (pkg : Bytes)
  deriving DecidableEq

/-- Where the content of a request is read: in the message it came with, where `file_path` is
empty, or in the file of that name, which may be gone. `behind` is what a read past the end
yields. -/
inductive Source
  | message (data behind : Bytes)
  | file (data behind : Bytes)
  | gone (behind : Bytes)

/-- The content as it is now. -/
def Source.data : Source → Bytes
  | message data _ | file data _ => data
  | gone _ => []

/-- What a read past the end yields. -/
def Source.behind : Source → Bytes
  | message _ behind | file _ behind | gone behind => behind

/-- `file_path` is not empty. -/
def Source.isFile : Source → Bool
  | message _ _ => false
  | file _ _ | gone _ => true

/-- The fields of `request` the save path reads. `waitsFor` stands for the one message about the
request itself that is out. -/
structure Request where
  uuid : UUID
  waitsFor : Wait
  cmd : SaveCommand
  source : Source
  contentType : String
  enc : Bool
  aesKey : Option AesKey
  masterJson : Pieces
  oldMasterJson : Option OldMaster
  units : List ID32
  backupUnits : List ID32
  savedUnits : List UUID
  isLocal : Bool
  dataVersion : ℕ
  lastUpdated : ℕ
  expireDate : ℕ

/-- `save_unit::unit_type`. -/
inductive UnitType
  | master
  | piece
  deriving DecidableEq

/-- `save_unit`. The pointer to the main request is its id. -/
structure SaveUnit where
  mainRequest : ID32
  start : ℕ
  size : ℕ
  bkpCount : ℕ
  type : UnitType
  uuid : UUID
  content : Bytes
  cmd : SaveCommand
  failCount : ℕ
  winnersCount : ℕ
  backup : Bool
  deriving DecidableEq

/-! ### Messages -/

/-- What a save unit is waiting for in another task: the key manager encrypts it (on its way
to the storage or, if not `toStorage`, to the router); the storage saves it; the router has
been asked to find places for it, and may answer any number of times. -/
inductive Post
  | encryptPiece (pkg : Bytes) (toStorage : Bool)
  | saveData
  | tender
  deriving DecidableEq

/-- Where the bytes of a unit go. -/
inductive Receiver
  | storage
  | router (cmd : SaveCommand) (maxResponseCnt : ℕ) (dataVersion : ℕ)
  | saveOffer
  | authData
  deriving DecidableEq

/-- The final responses to a save or update request. -/
inductive Response
  | saveConfirm (uuid : UUID)
  | updated (uuid : UUID)
  | saveFail (err : String)
  | updateFail (err : String)
  deriving DecidableEq

/-- `true` for `save_confirm` and `updated`. -/
def Response.isConfirm : Response → Bool
  | saveConfirm _ | updated _ => true
  | saveFail _ | updateFail _ => false

/-- What the kernel has done, each entry with the id of the main request it was done for:
the messages of the save path, and the ghost entries `gotOldMaster`, `built` (a master object
was made from the request as it was), `copied` (a unit has one more confirmed copy) and
`failedUnit` (a unit failed with no copy). -/
inductive Entry
  | handed (owner : ID32) (receiver : Receiver) (uuid : UUID) (data : Bytes)
  | tenderAgain (owner : ID32) (uuid : UUID)
  | removeFromCache (owner : ID32) (uuid : UUID)
  | delete (owner : ID32) (id : ID32) (uuid : UUID)
  | respond (owner : ID32) (ims : ID32) (r : Response)
  | gotOldMaster (owner : ID32) (m : OldMaster)
  | built (owner : ID32) (r : Request) (m : MasterJson)
  | copied (owner : ID32) (type : UnitType) (uuid : UUID)
  | failedUnit (owner : ID32) (uuid : UUID)

/-- The main request an entry is about. -/
def Entry.owner : Entry → ID32
  | handed o _ _ _ | tenderAgain o _ | removeFromCache o _ | delete o _ _
  | respond o _ _ | gotOldMaster o _ | built o _ _ | copied o _ _ | failedUnit o _ => o

/-! ### The kernel -/

/-- The settings of the save path. -/
structure KernelCfg where
  dataCopyCount : ℕ
  maxRouterSaveInputSize : ℕ
  storageClass : ℕ

/-- The state of the save path of the kernel, with what its environment has been asked. -/
structure Kernel where
  requestCounter : ID32
  requests : Table ID32 Request
  imsReqIds : Table ID32 ID32
  saveUnits : Table ID32 SaveUnit
  pendingSaveRequests : List ID32
  pendingRouterSaveReqs : List ID32
  storageInputCnt : ℕ
  routerSaveInputSize : ℕ
  posted : Table ID32 Post
  log : List Entry

namespace Kernel

/-- A kernel that has just started. -/
def initial : Kernel where
  requestCounter := 0
  requests := ∅
  imsReqIds := ∅
  saveUnits := ∅
  pendingSaveRequests := []
  pendingRouterSaveReqs := []
  storageInputCnt := 0
  routerSaveInputSize := 0
  posted := ∅
  log := []

/-- Adds an entry to the log. -/
def write (k : Kernel) (e : Entry) : Kernel := { k with log := e :: k.log }

/-- Writes a request back. -/
def setRequest (k : Kernel) (rid : ID32) (r : Request) : Kernel :=
  { k with requests := k.requests.insert rid r }

/-- Writes a save unit back. -/
def setUnit (k : Kernel) (uid : ID32) (u : SaveUnit) : Kernel :=
  { k with saveUnits := k.saveUnits.insert uid u }

/-- `m_save_units.erase`. -/
def eraseUnit (k : Kernel) (uid : ID32) : Kernel := { k with saveUnits := k.saveUnits.erase uid }

/-- Leaves an id waiting for another task. -/
def post (k : Kernel) (id : ID32) (p : Post) : Kernel :=
  { k with posted := k.posted.insert id p }

/-- An answer has arrived that is the last one for this id. -/
def answered (k : Kernel) (id : ID32) : Kernel := { k with posted := k.posted.erase id }

end Kernel

/-- `poco_assert`: the kernel aborts when the condition fails. -/
def pocoAssert {α : Type*} (p : Prop) [Decidable p] (x : Option α) : Option α :=
  if p then x else none

@[simp]
theorem pocoAssert_eq_some {α : Type*} {p : Prop} [Decidable p] {x : Option α} {a : α} :
    pocoAssert p x = some a ↔ p ∧ x = some a := by
  rw [pocoAssert]
  split_ifs with h
  · exact ⟨fun hx => ⟨h, hx⟩, fun hx => hx.2⟩
  · simp [h]

end Metax
