import Metax.Protocol.RouterData

/-!
# The packages of the link layer

`link_data` is what two link layers exchange when they introduce themselves, and
`key_transfer_package` what they exchange when a user's keys move to another device. Both
headers hold strings, each behind a 32-bit word with its length; neither length is compared
with the size of the package when it is read.
-/

namespace Metax

open BigEndian Scan

/-- A string behind its length. -/
def extractString : Scan Bytes := do
  let s ← take 4
  take (decode s)

/-- A string as it is written: its length is cut to 32 bits first. -/
def encodeString (s : Bytes) : Bytes := encode 4 s.length ++ s.take (s.length % 2 ^ 32)

/-- The fields of `link_data`. -/
structure LinkData where
  version : UInt32
  cmd : Command
  publicKey : Bytes
  loadInfo : UInt32
  deriving DecidableEq

namespace LinkData

/-- The bytes of a header. -/
def encodeHeader (d : LinkData) : Bytes :=
  encode 4 d.version.toNat ++ (encode 4 d.cmd.code ++
    (encodeString d.publicKey ++ encode 4 d.loadInfo.toNat))

/-- `link_data::extract_header`. -/
def extractHeader : Scan LinkData := do
  let version ← take 4
  let cmd ← take 4
  let publicKey ← extractString
  let loadInfo ← take 4
  pure {
    version := .ofNat (decode version)
    cmd := .ofCode (decode cmd)
    publicKey := publicKey
    loadInfo := .ofNat (decode loadInfo) }

/-- `link_data::header_size`. -/
def headerSize (d : LinkData) : ℕ := (16 + d.publicKey.length) % 2 ^ 32

end LinkData

/-- The fields of `key_transfer_package`. -/
structure KeyTransfer where
  version : UInt32
  cmd : Command
  code : Bytes
  publicKey : Bytes
  privateKey : Bytes
  userJsonInfo : Bytes
  deriving DecidableEq

namespace KeyTransfer

/-- The bytes of a header. -/
def encodeHeader (d : KeyTransfer) : Bytes :=
  encode 4 d.version.toNat ++ (encode 4 d.cmd.code ++
    (encodeString d.code ++ (encodeString d.publicKey ++
      (encodeString d.privateKey ++ encodeString d.userJsonInfo))))

/-- `key_transfer_package::extract_header`. -/
def extractHeader : Scan KeyTransfer := do
  let version ← take 4
  let cmd ← take 4
  let code ← extractString
  let publicKey ← extractString
  let privateKey ← extractString
  let userJsonInfo ← extractString
  pure {
    version := .ofNat (decode version)
    cmd := .ofCode (decode cmd)
    code := code
    publicKey := publicKey
    privateKey := privateKey
    userJsonInfo := userJsonInfo }

/-- `key_transfer_package::header_size`. -/
def headerSize (d : KeyTransfer) : ℕ :=
  (24 + d.code.length + d.publicKey.length + d.privateKey.length + d.userJsonInfo.length) % 2 ^ 32

end KeyTransfer

end Metax
