import Metax.Library.ChunkedStream
import Metax.Protocol.WireFormat

/-!
# Framing on the sockets between peers

Two linked nodes exchange packages over a stream socket. `send_by_socket` puts a word with the
flags and the size in front of a message, `read_message` reads the word and then as many bytes as
it says, in as many rounds as the transport takes.

The word has 24 bits for the size, and the writer does not look whether the size fits. Packages
arrive as they were sent exactly when each of them is shorter than `2 ^ 24` bytes
(`LinkPeer.delivers_iff`): the cuts of the transport do not matter, the sizes do.
-/

namespace Metax

open BigEndian ChunkedStream

/-- What the methods of `link_peer` throw while they read. -/
inductive ReadError
  | disconnected
  | tooBig (size : ℕ)
  deriving DecidableEq

/-- The texts of these exceptions. -/
def ReadError.text : ReadError → String
  | disconnected => "Peer disconnected"
  | tooBig size => "Metax shouldn't receive message bigger than 1GB,message size is: " ++
      toString size

namespace LinkPeer

/-- The bytes of a package. -/
def frame (c : Content) : Bytes := encode 4 c.sizeAndFlags ++ c.message

/-- `send_by_socket`: the bytes that are handed to the socket. An empty package is an assertion
violation, and the length is an `int` in the call of `sendBytes`. -/
def sendBySocket (c : Content) : Option Bytes :=
  if c.size = 0 ∨ 2 ^ 31 ≤ c.size + 4 then none
  else some (frame c)

/-- Packages that are sent one after the other, if each of them is accepted. -/
def sendAll : List Content → Option Bytes
  | [] => some []
  | c :: cs => do
    let first ← sendBySocket c
    let others ← sendAll cs
    pure (first ++ others)

/-- `read_nbytes`. A socket without data is taken as closed. -/
def readNBytes (chunks : List Bytes) (n : ℕ) :
    Except ReadError ({l : Bytes // l.length = n} × List Bytes) :=
  match readVector chunks n with
  | none => .error .disconnected
  | some r => .ok r

/-- `read_message`. The mask comes before the check. -/
def readMessage (chunks : List Bytes) : Except ReadError (Payload × List Bytes) := do
  let header ← readNBytes chunks 4
  let word := decode header.1.1
  if 1000000000 < word % 2 ^ 24 then .error (.tooBig (word % 2 ^ 24))
  else
    let message ← readNBytes header.2 (word % 2 ^ 24)
    pure (.ofWord word message.1, message.2)

/-- `handle_ping_input`: a word alone. -/
def ping (flags : UInt8) : Bytes := encode 4 (flags.toNat <<< 24)

variable {c : Content} {cs : List Content} {bytes : Bytes}

/-- What has 24 bits is at most 1 GB: the check never fires. -/
theorem readMessage_eq (chunks : List Bytes) : readMessage chunks = (do
    let header ← readNBytes chunks 4
    let message ← readNBytes header.2 (decode header.1.1 % 2 ^ 24)
    pure (.ofWord (decode header.1.1) message.1, message.2)) := by
  have hcheck (word : ℕ) : ¬ 1000000000 < word % 2 ^ 24 := by omega
  simp only [readMessage, if_neg (hcheck _)]

theorem reads_readNBytes {s : Bytes} {n : ℕ} (hn : s.length = n) :
    Reads (readNBytes · n) ⟨s, hn⟩ s := by
  intro chunks t h
  obtain ⟨rest, hread, hrest⟩ := h.readVector hn
  refine ⟨rest, ?_, hrest⟩
  simp only [readNBytes, hread]

/-- A ping is a frame without a message. -/
theorem ping_eq_frame (flags : UInt8) : ping flags = frame ⟨.empty, flags⟩ := by
  simp [ping, frame, Content.sizeAndFlags, Package.size, Package.empty]

/-- A package whose size fits the word is read as it was sent. -/
theorem reads_frame (h : c.size < 2 ^ 24) : Reads readMessage (c.payload h) (frame c) := by
  intro chunks t hchunks
  rw [frame, List.append_assoc] at hchunks
  obtain ⟨rest, hheader, hrest⟩ := reads_readNBytes (length_encode 4 c.sizeAndFlags) hchunks
  have hword : decode (encode 4 c.sizeAndFlags) = c.flags.toNat * 2 ^ 24 + c.size := by
    have hflags := c.flags.toNat_lt
    rw [decode_encode (by rw [Content.sizeAndFlags_eq h]; omega), Content.sizeAndFlags_eq h]
  have hsize : c.message.length = decode (encode 4 c.sizeAndFlags) % 2 ^ 24 := by
    rw [hword, Nat.mul_add_mod', Nat.mod_eq_of_lt h, Package.size]
  obtain ⟨rest', hmessage, hrest'⟩ := reads_readNBytes hsize hrest
  refine ⟨rest', ?_, hrest'⟩
  have hpayload : Payload.ofWord (decode (encode 4 c.sizeAndFlags)) ⟨c.message, hsize⟩ =
      c.payload h := by
    simp only [Payload.ofWord, Content.payload, hword]
    congr 1
    have hdiv : (c.flags.toNat * 2 ^ 24 + c.size) / 2 ^ 24 = c.flags.toNat := by omega
    rw [hdiv, UInt8.ofNat_toNat]
  rw [readMessage_eq]
  simp only [hheader, hmessage, bind, Except.bind, pure, Except.pure, hpayload]

/-! ### Sequences -/

/-- The other end reads the packages as they were sent, and nothing else. -/
def Delivers (cs : List Content) (chunks : List Bytes) : Prop :=
  ∃ ps : List Payload, readMany readMessage cs.length chunks = .ok (ps, []) ∧
    List.Forall₂ (fun p c => p.flags = c.flags ∧ p.message = c.message) ps cs

theorem sendAll_eq_some (h : sendAll cs = some bytes) : bytes = (cs.map frame).flatten := by
  induction cs generalizing bytes with
  | nil => exact (Option.some.inj h).symm
  | cons c cs ih =>
    simp only [sendAll, Option.bind_eq_bind, Option.bind_eq_some_iff, Option.pure_def,
      Option.some.injEq] at h
    obtain ⟨first, hfirst, others, hothers, rfl⟩ := h
    rw [sendBySocket] at hfirst
    split at hfirst
    · cases hfirst
    · rw [List.map_cons, List.flatten_cons, Option.some.inj hfirst, ih hothers]

/-- The payloads of packages that fit the word, and how they are read. -/
theorem exists_payloads (h : ∀ c ∈ cs, c.size < 2 ^ 24) : ∃ ps : List Payload,
    List.Forall₂ (fun p c => p.flags = c.flags ∧ p.message = c.message) ps cs ∧
      List.Forall₂ (Reads readMessage) ps (cs.map frame) := by
  induction cs with
  | nil => exact ⟨[], .nil, .nil⟩
  | cons c cs ih =>
    obtain ⟨ps, hsame, hreads⟩ := ih fun c hc => h c (List.mem_cons_of_mem _ hc)
    have hc := h c List.mem_cons_self
    exact ⟨c.payload hc :: ps, .cons ⟨rfl, rfl⟩ hsame, .cons (reads_frame hc) hreads⟩

/-- What is read is shorter than `2 ^ 24` bytes, so nothing longer is delivered. -/
theorem Delivers.size_lt {chunks : List Bytes} (h : Delivers cs chunks) :
    ∀ c ∈ cs, c.size < 2 ^ 24 := by
  obtain ⟨ps, -, hsame⟩ := h
  induction hsame with
  | nil => exact List.forall_mem_nil _
  | @cons p c ps cs hhead _ ih =>
    refine List.forall_mem_cons.mpr ⟨?_, ih⟩
    rw [Package.size, ← hhead.2]
    exact p.size_lt

/-- **Sequences of packages arrive as they were sent exactly when each package is shorter than
`2 ^ 24` bytes**, whatever the transport does to the stream. -/
theorem delivers_iff {chunks : List Bytes} (h : sendAll cs = some bytes)
    (hchunks : Splits chunks bytes) : Delivers cs chunks ↔ ∀ c ∈ cs, c.size < 2 ^ 24 := by
  constructor
  · exact Delivers.size_lt
  · intro hsize
    obtain ⟨ps, hsame, hreads⟩ := exists_payloads hsize
    rw [sendAll_eq_some h, ← List.append_nil (cs.map frame).flatten] at hchunks
    obtain ⟨rest, hread, hrest⟩ := Reads.many hreads hchunks
    rw [hrest.eq_nil, hsame.length_eq] at hread
    exact ⟨ps, hread, hsame⟩

/-- Two packages of one byte each: one chunk has the end of the first and the beginning of the
header of the second. -/
theorem delivers_pair :
    Delivers [⟨⟨[42], Package.size_singleton 42⟩, 7⟩, ⟨⟨[43], Package.size_singleton 43⟩, 0⟩]
      [[7, 0], [0, 1, 42, 0, 0], [0, 1, 43]] :=
  (delivers_iff (by decide : sendAll _ = some [7, 0, 0, 1, 42, 0, 0, 0, 1, 43])
    ⟨by decide, rfl⟩).mpr (by decide)

/-- A package of `2 ^ 24` bytes is read as an empty one. -/
theorem not_delivers : ¬ ∀ (cs : List Content) (bytes : Bytes), sendAll cs = some bytes →
    ∀ chunks, Splits chunks bytes → Delivers cs chunks := by
  intro h
  obtain ⟨message, hlen⟩ : ∃ message : Bytes, message.length = 2 ^ 24 :=
    ⟨List.replicate (2 ^ 24) 0, List.length_replicate⟩
  have hbound : message.length < 2 ^ 32 := by omega
  obtain ⟨c, hc⟩ : ∃ c : Content, c.size = 2 ^ 24 := ⟨⟨⟨message, hbound⟩, 0⟩, hlen⟩
  have hsend : sendAll [c] = some (frame c ++ []) := by
    have hsize : ¬ (c.size = 0 ∨ 2 ^ 31 ≤ c.size + 4) := by omega
    simp only [sendAll, sendBySocket, if_neg hsize, Option.bind_eq_bind, Option.bind_some,
      Option.pure_def]
  obtain ⟨chunks, hchunks⟩ := exists_splits (frame c ++ [])
  have hlt := (h [c] _ hsend chunks hchunks).size_lt c List.mem_cons_self
  omega

end LinkPeer

end Metax
