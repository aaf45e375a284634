import Metax.Library.Ledger
import Metax.Library.Text
import Metax.Platform.UuidText
import Metax.Protocol.Command

/-!
# The data of the user manager

The user manager keeps the user json of this device's user: under `owned_data` it holds, for every
uuid the user owns, the AES key it is encrypted with. The json is encrypted with the key of the
user, written to a file, and stored in the network under a uuid of its own, so that another device
of the same user can get it from there.

The member `foreign_data` is written once and never read; it is left out.
-/

namespace Metax

namespace UserManager

/-- A member of a JSON object: not there, of a type that is not asked for, or a value. -/
inductive Field (α : Type)
  | missing
  | other
  | is (a : α)
  deriving DecidableEq

namespace Field

variable {α : Type}

/-- `getValue` and `getObject`, where the first throws and the second gives a null pointer. -/
def get : Field α → Option α
  | is a => some a
  | _ => none

/-- `has`. -/
def Has (f : Field α) : Prop := f ≠ missing

instance (f : Field α) : Decidable f.Has :=
  match f with
  | missing => .isFalse fun h => h rfl
  | other => .isTrue nofun
  | is _ => .isTrue nofun

/-- The member is set if it is not there. -/
def orElse (f : Field α) (a : α) : Field α :=
  match f with
  | missing => is a
  | f => f

end Field

/-- What is recorded for an owned uuid. -/
structure KeyInfo where
  aesKey : Text
  aesIv : Text
  copyCount : UInt64
  deriving DecidableEq

/-- The object `owned_data`. Its members can be something else than the information on a key. -/
abbrev OwnedData := Ledger.Table Text (Option KeyInfo)

/-- A user json. -/
structure UserJson where
  protocolVersion : Field UInt64
  version : Field UInt64
  ownedData : Field OwnedData
  lastUpdated : Field UInt64
  deriving DecidableEq

namespace UserJson

/-- The key that is found for an owned uuid. -/
def key (j : UserJson) (name : Text) : Option KeyInfo :=
  ((j.ownedData.get).bind fun owned => owned.lookup name).join

/-- A change of the object under `owned_data`. -/
def modifyOwned (j : UserJson) (f : OwnedData → OwnedData) : UserJson :=
  match j.ownedData with
  | .is owned => { j with ownedData := .is (f owned) }
  | _ => j

/-- `validate_user_json`. -/
def Valid (j : UserJson) : Prop := j.protocolVersion.Has ∧ j.ownedData.Has

instance (j : UserJson) : Decidable j.Valid := inferInstanceAs (Decidable (_ ∧ _))

end UserJson

/-- What the task relies on and does not define: the JSON texts and the uuids of Poco, and the
cipher made from a key and an initialization vector. `J` are texts, `E` encrypted texts. `none` is
an exception. -/
structure Libs (J E : Type) where
  parse : J → Option UserJson
  stringify : UserJson → J
  canCreateCipher : Text → Text → Bool
  encrypt : Text → Text → J → E
  decrypt : Text → Text → E → Option J
  parseUuid : Text → Option UUID

/-- What `m_owned_data` points to: nothing, the object in the user json, or an object of its own. -/
inductive OwnedPointer
  | null
  | ofUserJson
  | detached (owned : OwnedData)
  deriving DecidableEq

/-- What the task sends to the kernel and, the last one, to the backup task. -/
inductive Output (J E : Type)
  | userJson (json : J) (uuid : UUID)
  | get (uuid : UUID)
  | onUpdateRegister (uuid : UUID)
  | backup (cmd : Command) (json : E) (lastUpdated : UInt64) (version : UInt32) (uuid : UUID)
  | saveConfirm (requestId : ID32)
  | keyInitFail
  | deviceJson (cmd : Command) (version lastUpdated : UInt64) (uuid : UUID)
  deriving DecidableEq

/-- The task: its members, the file with the user json, and what was sent, oldest first. -/
structure State (J E : Type) where
  userJsonUuid : Text
  userJson : Option UserJson
  ownedData : OwnedPointer
  userJsonCipher : Option (Text × Text)
  userJsonUpdated : Bool
  shouldGetUserJson : Bool
  shouldSaveUserJson : Bool
  isUserJsonSaved : Bool
  file : Option E
  out : List (Output J E)
  deriving DecidableEq

/-- What the backup task sends once: the information on the user json, and whether it was just
made. -/
structure Config where
  uuid : Option Text
  aesKey : Option Text
  aesIv : Option Text
  isGenerated : Bool

/-- A package of the kernel. -/
inductive Message (E : Type)
  | save (uuid : UUID) (info : KeyInfo)
  | del (uuid : UUID)
  | dumpUserInfo (requestId : ID32) (key iv : Text)
  | update (dataVersion : UInt32)
  | saveData (copy : E)
  | connected
  | failed
  | saveFail
  | saveConfirm

namespace State

variable {J E : Type} (s : State J E)

/-- The task before it is configured, with the file it will find. -/
def fresh (file : Option E) : State J E :=
  ⟨[], none, .null, none, false, false, false, true, file, []⟩

/-- Send a message. -/
def send (o : Output J E) : State J E := { s with out := s.out ++ [o] }

/-- The key the user manager has for an owned uuid. -/
def key (name : Text) : Option KeyInfo := s.userJson.bind fun j => j.key name

@[simp]
theorem send_key (o : Output J E) : (s.send o).key = s.key := rfl

end State

end UserManager

end Metax
