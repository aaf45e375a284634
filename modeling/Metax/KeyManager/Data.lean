import Metax.Library.Attempt
import Metax.Library.Ledger
import Metax.Library.Text
import Metax.Platform.Package
import Metax.Protocol.Command

/-!
# The data of the key manager

The key manager holds the RSA key of the user, in two files and as a cipher, the file with the key
of the user json, encrypted with it, and the ciphers of livestreams. The kernel sends it packages
with data to encrypt and to decrypt, and requests that replace the keys.

What the cryptographic library and the file system do is given by `Libs` and `Faults`. Any of their
operations may throw. Which handler goes on after an exception depends on its class, so exceptions
are told apart as far as the handlers do.
-/

namespace Metax

namespace KeyManager

/-- The classes of exceptions the handlers tell apart: those of Poco, of which failed assertions and
those of files are two, and all others. -/
inductive Exception
  | assertion
  | file
  | poco
  | other
  deriving DecidableEq

/-- A `Poco::Exception`. -/
def Exception.IsPoco (e : Exception) : Prop := e ≠ other

instance (e : Exception) : Decidable e.IsPoco := inferInstanceAs (Decidable (e ≠ .other))

/-- An AES key, as the library has it. -/
structure AesKey where
  key : Text
  iv : Text

/-- The object in the file with the key of the user json. -/
structure JsonKey where
  aesKey : Option Text
  aesIv : Option Text
  uuid : Option Text

/-- The cryptographic library and the JSON parser. `C` are ciphers. What depends on chance is given
as it is when the request is handled. -/
structure Libs (C : Type) where
  newAesKey : Except Exception AesKey
  cipherKey : Text → Text → Except Exception AesKey
  createCipher : AesKey → Except Exception C
  /-- The texts of a new RSA key, the public one first. -/
  newRsaKey : Except Exception (Text × Text)
  /-- The cipher of a key that is read from two files. -/
  rsaCipher : Text → Text → Except Exception C
  /-- The cipher of a public key that is read from a stream. -/
  publicCipher : Text → Except Exception C
  encryptString : C → Text → Except Exception Text
  decryptString : C → Text → Except Exception Text
  encryptBase64 : C → Text → Except Exception Text
  decryptBase64 : C → Text → Except Exception Text
  encryptStream : C → Text → Except Exception Text
  decryptStream : C → Text → Except Exception Text
  base64Decode : Text → Except Exception Text
  base64Encode : Text → Text
  parseJsonKey : Text → Except Exception JsonKey
  stringifyJsonKey : JsonKey → Text
  /-- The object with all keys of the user. -/
  stringifyUserKeys : Text → Text → JsonKey → Text
  /-- The message of an exception. -/
  messageOf : Exception → Text

/-- The files: the two of the user's key, the one with the key of the user json, and the temporary
ones. -/
inductive File
  | publicPem
  | privatePem
  | publicTmp
  | privateTmp
  | userJsonKey
  | userJsonKeyTmp
  | publicPemTmp
  | privatePemTmp
  deriving DecidableEq

/-- A file that could not be moved, and what is at the other place then. -/
structure Fault where
  exception : Exception
  left : Option Text

/-- What goes wrong with the files. `written` is what is in a file after a text was written to it
without a look at the state of the stream. -/
structure Faults where
  createDirectories : Option Exception
  saveKeys : Option Exception
  createParent : Option Exception
  openSink : Option Exception
  opens : File → Bool
  written : File → Text → Text
  moveTo : File → Option Fault

/-- A package from the kernel or to it. -/
structure Message where
  requestId : ID32
  cmd : Command
  uuid : UUID
  aesKey : Text
  aesIv : Text
  message : Option Text
  origSize : ℕ

/-- A package of the link with the keys of a paired node. -/
structure LinkMessage where
  requestId : ID32
  publicKey : Text
  privateKey : Text
  userJsonInfo : Text

/-- The task: the files, `m_user_cipher`, `m_stream_ciphers`, and what was sent to the kernel,
oldest first. -/
structure State (C : Type) where
  files : File → Option Text
  userCipher : Option C
  streamCiphers : Ledger.Table UUID C
  out : List Message

namespace Message

/-- The payload. -/
def data (m : Message) : Text := m.message.getD []

/-- The field `size`. -/
def size (m : Message) : ℕ := m.data.length

/-- A reply with nothing but the id of the request. -/
def reply (m : Message) (cmd : Command) : Message := ⟨m.requestId, cmd, 0, [], [], none, 0⟩

/-- A reply goes to where its request came from. -/
@[simp]
theorem reply_requestId {m : Message} {cmd : Command} : (m.reply cmd).requestId = m.requestId := rfl

@[simp]
theorem reply_cmd {m : Message} {cmd : Command} : (m.reply cmd).cmd = cmd := rfl

end Message

namespace State

variable {C : Type} (s : State C)

/-- Send a message. -/
def send (m : Message) : State C := { s with out := s.out ++ [m] }

/-- Write a file, or remove it. -/
def put (f : File) (x : Option Text) : State C :=
  { s with files := fun g => if g = f then x else s.files g }

variable {s} {f g : File} {x : Option Text} {m : Message}

/-- A write changes one file, and nothing that was sent or is held in memory. -/
@[simp]
theorem put_files_self : (s.put f x).files f = x := if_pos rfl

theorem put_files_of_ne (h : g ≠ f) : (s.put f x).files g = s.files g := if_neg h

@[simp]
theorem put_userCipher : (s.put f x).userCipher = s.userCipher := rfl

@[simp]
theorem put_out : (s.put f x).out = s.out := rfl

/-- A reply changes no file. -/
@[simp]
theorem send_files : (s.send m).files = s.files := rfl

@[simp]
theorem send_userCipher : (s.send m).userCipher = s.userCipher := rfl

@[simp]
theorem send_out : (s.send m).out = s.out ++ [m] := rfl

end State

end KeyManager

end Metax
