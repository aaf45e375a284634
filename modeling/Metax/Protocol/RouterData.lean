import Metax.Library.BigEndian
import Metax.Library.Scan
import Metax.Platform.Package
import Metax.Protocol.Command

/-!
# The packages routers exchange

`router_data` is the header of every message between two routers; the payload of the message
follows it behind a 32-bit word that holds its flags and its size. `serialize` writes such a
message, `extractHeader` and `extractPayload` read one.

A message arrives in a buffer of exactly its size. The header is read without a look at that
size, so what a short message decodes to depends on the memory behind the buffer: a `Received`
package carries those bytes too.
-/

namespace Metax

open BigEndian Scan

/-- The payload part of a `default_package`: flags and message. The size shares a 32-bit word
with the flags and has 24 bits of it. -/
structure Payload where
  flags : UInt8
  message : Bytes
  size_lt : message.length < 2 ^ 24

namespace Payload

instance : DecidableEq Payload := fun p q =>
  decidable_of_iff (p.flags = q.flags ∧ p.message = q.message)
    ⟨fun h => by cases p; cases q; simp_all, by rintro rfl; exact ⟨rfl, rfl⟩⟩

theorem size_nil : ([] : Bytes).length < 2 ^ 24 := by simp

/-- A package without a message. -/
def empty : Payload := ⟨0, [], size_nil⟩

/-- `size | ((flags << 24) & 0xFF000000)`. -/
def sizeAndFlags (p : Payload) : ℕ := p.flags.toNat * 2 ^ 24 + p.message.length

end Payload

/-- A package as it was received, and the memory behind its buffer. -/
structure Received where
  message : Bytes
  beyond : Bytes
  deriving DecidableEq

namespace Received

/-- The field `size`. -/
def size (p : Received) : ℕ := p.message.length

/-- What a read relative to the buffer finds. -/
def memory (p : Received) : ℕ → UInt8 := Scan.memory (p.message ++ p.beyond)

end Received

/-- The fields of `router_data`. -/
structure RouterData where
  version : UInt32
  tenderId : UUID
  cmd : Command
  uuid : UUID
  hopId : UInt16
  dataVersion : UInt32
  lastUpdated : UInt64
  expireDate : UInt64
  winnersId : List UInt32
  deriving DecidableEq

namespace RouterData

/-- `router_data()`. -/
def new : RouterData where
  version := 0
  tenderId := 0
  cmd := .maxCommand
  uuid := 0
  hopId := 0
  dataVersion := 0
  lastUpdated := 0
  expireDate := 0
  winnersId := []

/-- `router_data::reset`: the counters and dates stay. -/
def reset (d : RouterData) : RouterData :=
  { d with tenderId := 0, cmd := .maxCommand, uuid := 0, winnersId := [] }

/-- `router_data::header_size`, a `uint32_t`. -/
def headerSize (d : RouterData) : ℕ := (70 + 4 * d.winnersId.length) % 2 ^ 32

/-- The winners of a header, one word each. -/
def encodeWinners (l : List UInt32) : Bytes := l.flatMap fun w => encode 4 w.toNat

/-- The bytes of a header. -/
def encodeHeader (d : RouterData) : Bytes :=
  encode 4 d.version.toNat ++ (encode 16 d.tenderId.toNat ++ (encode 4 d.cmd.code ++
    (encode 16 d.uuid.toNat ++ (encode 2 d.hopId.toNat ++ (encode 4 d.dataVersion.toNat ++
      (encode 8 d.lastUpdated.toNat ++ (encode 8 d.expireDate.toNat ++
        (encode 8 d.winnersId.length ++ encodeWinners d.winnersId))))))))

/-- `router_data::serialize`. -/
def serialize (d : RouterData) (p : Payload) : Bytes :=
  d.encodeHeader ++ (encode 4 p.sizeAndFlags ++ p.message)

/-- `router_data::update_hop_id`: overwrite the hop id of a serialized header. The size of the
message stays what it is. -/
def updateHopId (message : Bytes) (h : UInt16) : Bytes :=
  (message.take 40 ++ encode 2 h.toNat ++ message.drop 42).take message.length

/-- The loop over the winners: `push_back` one word after the other. -/
def extractWinners : ℕ → List UInt32 → Scan (List UInt32)
  | 0, l => pure l
  | n + 1, l => do
    tick
    let w ← take 4
    extractWinners n (l ++ [.ofNat (decode w)])

/-- `router_data::extract_header`, reading into the object `d`. The winners are appended to
those the object has. -/
def extractHeader (d : RouterData) : Scan RouterData := do
  let version ← take 4
  let tenderId ← take 16
  let cmd ← take 4
  let uuid ← take 16
  let hopId ← take 2
  let dataVersion ← take 4
  let lastUpdated ← take 8
  let expireDate ← take 8
  let ws ← take 8
  let winnersId ← extractWinners (decode ws) d.winnersId
  pure {
    version := .ofNat (decode version)
    tenderId := .ofNat 128 (decode tenderId)
    cmd := .ofCode (decode cmd)
    uuid := .ofNat 128 (decode uuid)
    hopId := .ofNat (decode hopId)
    dataVersion := .ofNat (decode dataVersion)
    lastUpdated := .ofNat (decode lastUpdated)
    expireDate := .ofNat (decode expireDate)
    winnersId := winnersId }

/-- What a package decodes to when it is read into `d`. -/
def decodeInto (d : RouterData) (p : Received) : RouterData :=
  (d.extractHeader.run p.memory (.start 0)).1

/-- What a package decodes to when it is read into a new object. -/
def ofPackage (p : Received) : RouterData := new.decodeInto p

theorem extractWinners_append (n : ℕ) (l l' : List UInt32) (mem : ℕ → UInt8) (t : Trace) :
    ((extractWinners n (l ++ l')).run mem t).1 = l ++ ((extractWinners n l').run mem t).1 := by
  induction n generalizing l' t with
  | zero => rfl
  | succ n ih =>
    simp only [extractWinners, run_bind, run_tick, run_take, List.append_assoc]
    exact ih _ _

/-- The object a message is read into shows in the winners only: they are put in front. -/
theorem decodeInto_eq (d : RouterData) (p : Received) :
    d.decodeInto p = { ofPackage p with winnersId := d.winnersId ++ (ofPackage p).winnersId } := by
  simp only [ofPackage, decodeInto, extractHeader, run_bind, run_take, run_pure]
  congr 1
  rw [← extractWinners_append, show new.winnersId = [] from rfl, List.append_nil]

end RouterData

/-- The exceptions of `extract_payload`. -/
inductive PackageError
  | illFormed
  | payloadTooLong
  deriving DecidableEq

/-- Their texts. -/
def PackageError.text : PackageError → String
  | .illFormed => "ill-formed package"
  | .payloadTooLong => "payload size exceeds package size"

/-- What `extract_payload` puts into the object: the low 24 bits of the word are the size. -/
def Payload.ofWord (n : ℕ) (message : {l : Bytes // l.length = n % 2 ^ 24}) : Payload where
  flags := .ofNat (n / 2 ^ 24)
  message := message.1
  size_lt := by
    rw [message.2]
    exact Nat.mod_lt n (by decide)

namespace Received

/-- The second half of `extract_payload`: the word with flags and size is `n`, the message is
looked for at `offset`. -/
def extractMessage (p : Received) (offset n : ℕ) : Scan (Except PackageError Payload) :=
  if p.size < offset + n % 2 ^ 24 then pure (.error .payloadTooLong)
  else do
    let message ← takeExact (n % 2 ^ 24)
    pure (.ok (.ofWord n message))

/-- `extract_payload`, called with the offset of the payload. Both checks come before the read
they are about. -/
def extractPayload (p : Received) (offset : ℕ) : Scan (Except PackageError Payload) :=
  if p.size < offset + 4 then pure (.error .illFormed)
  else do
    seek offset
    let word ← take 4
    p.extractMessage (offset + 4) (decode word)

/-- The payload behind a header of the given size, or the exception. -/
def payload (p : Received) (offset : ℕ) : Except PackageError Payload :=
  ((p.extractPayload offset).run p.memory (.start 0)).1

end Received

end Metax
