import Metax.Library.Ledger
import Metax.Library.Text
import Metax.Platform.UuidText

/-!
# The data of the backup task

The backup task keeps the device json: for every uuid this node stores or has deleted, the
version, the time of the last change, a deletion mark and an expiration date. The keys of the json
are written as texts of uuids. What the fields hold is typed as the code writes it; a field can be
missing in a json read from a file.

The kernel, the storage, the router and the user manager send the packages below; what the task
sends is a log.
-/

namespace Metax

namespace Backup

/-- What the task relies on and does not define: the uuid and the JSON parser of Poco, and what a
variable holds that was never assigned. -/
structure Libs where
  parseUuid : Text → Option UUID
  /-- A uuid is read back from its text. -/
  parseUuid_text : ∀ u : UUID, parseUuid u.text = some u
  /-- The member "uuids" of an object, `none` where the parser or `getValue` throws. -/
  uuidsMember : Text → Option (Option Text)
  unassigned : ℕ

/-- An expiration date, as the type it was set with. -/
inductive Expiration
  | unsigned (n : UInt64)
  | signed (n : Int64)
  deriving DecidableEq

namespace Expiration

/-- `getValue<Int64>`: throws what does not fit. -/
def int64 : Expiration → Option Int64
  | unsigned n => if n.toNat < 2 ^ 63 then some n.toInt64 else none
  | signed n => some n

/-- `getValue<UInt64>`. -/
def uint64 : Expiration → Option UInt64
  | unsigned n => some n
  | signed n => if 0 ≤ n then some n.toUInt64 else none

/-- The type a number has when it is read from a file: the signed one, if it fits. -/
def reread : Expiration → Expiration
  | unsigned n => if n.toNat < 2 ^ 63 then signed n.toInt64 else unsigned n
  | signed n => signed n

end Expiration

/-- An entry of the device json. -/
structure Entry where
  version : Option UInt32
  isDeleted : Option Bool
  lastUpdated : Option UInt64
  expirationDate : Option Expiration
  deriving DecidableEq

/-- What the task sends. A request to delete uuids has them joined by commas. -/
inductive Message
  | getUuid (requestId : ID32) (uuid : UUID) (data : Package) (version : UInt32)
      (lastUpdated expireDate : UInt64)
  | notifyDelete (uuid : UUID) (version : UInt32)
  | sendUuids (requestId : ID32) (uuids : Ledger.Table Text Char)
  | saveConfirm (requestId : ID32)
  | getJournalInfo (requestId : ID32) (journal : Text)
  | delUuids (uuids : List Text)
  | deleteFromCache (uuid : UUID)
  deriving DecidableEq

/-- The task: `m_storage_data`, `m_device_json_updated`, the json in the file, and what was sent,
oldest first. -/
structure State where
  storageData : Ledger.Table UUID Entry
  deviceJsonUpdated : Bool
  file : Ledger.Table UUID Entry
  out : List Message
  deriving DecidableEq

/-- The packages the task receives, the expirations of its timers, and a restart of the node. The
times are readings of the clock, in microseconds. -/
inductive Event
  | sendJournalInfo (requestId : ID32) (time : Int64) (message : Option Text)
  | del (uuid : UUID) (version : UInt32) (lastUpdated : UInt64) (now : Int64)
  | save (uuid : UUID) (version : UInt32) (isDeleted : Bool) (lastUpdated expireDate : UInt64)
  | getJournalInfo (requestId : ID32) (syncClass : UInt32) (message : Text) (now : Int64)
  | dumpUserInfo (requestId : ID32) (newKey : Bool)
  | userManagerSave (uuid : UUID) (version : UInt32) (lastUpdated : UInt64)
  | getUuid (requestId : ID32) (uuid : UUID) (data : Package)
  | timeout
  | cleanUp (now : Int64)
  | restart

namespace State

variable (s : State)

/-- `initialize_device_json` without a file. -/
def fresh : State := ⟨∅, false, ∅, []⟩

/-- The entry a JSON name leads to. The names are texts of uuids. -/
def lookupName (L : Libs) (name : Text) : Option Entry :=
  match L.parseUuid name with
  | some u => if u.text = name then s.storageData.lookup u else none
  | none => none

/-- Send a message. -/
def send (m : Message) : State := { s with out := s.out ++ [m] }

/-- `m_storage_data->set` with the mark that the json has changed. -/
def set (u : UUID) (e : Entry) : State :=
  { s with storageData := s.storageData.insert u e, deviceJsonUpdated := true }

@[simp]
theorem send_storageData (m : Message) : (s.send m).storageData = s.storageData := rfl

@[simp]
theorem send_out (m : Message) : (s.send m).out = s.out ++ [m] := rfl

@[simp]
theorem set_storageData (u : UUID) (e : Entry) :
    (s.set u e).storageData = s.storageData.insert u e := rfl

@[simp]
theorem set_out (u : UUID) (e : Entry) : (s.set u e).out = s.out := rfl

variable {s}

@[simp]
theorem lookupName_send {L : Libs} {m : Message} {name : Text} :
    (s.send m).lookupName L name = s.lookupName L name := rfl

/-- A uuid is found under its text. -/
theorem lookupName_text {L : Libs} {u : UUID} :
    s.lookupName L u.text = s.storageData.lookup u := by
  rw [lookupName, L.parseUuid_text]
  exact if_pos rfl

end State

end Backup

end Metax
