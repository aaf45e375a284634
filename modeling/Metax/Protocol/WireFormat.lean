import Metax.Protocol.DecodeSafety
import Metax.Protocol.RoundTrip

/-!
# The three wire formats

`router_data`, `link_data` and `key_transfer_package` write themselves into a package in the same
way: a header, a word with the flags and the size of the payload, the payload. The buffer is as
long as `header_size` says, and `extract_payload` is told to look behind `header_size` bytes.

The field `size` of a package has 32 bits, the size in the word behind the header has 24 of them.
A value comes back from its bytes exactly when it fits both (`Value.roundTrips_iff`).
-/

namespace Metax

open BigEndian Scan

/-- What stands behind a header: the flags and the message of a `default_package`. -/
structure Content extends Package where
  flags : UInt8

namespace Content

/-- `size | ((flags << 24) & 0xFF000000)`. -/
def sizeAndFlags (c : Content) : ℕ := c.size ||| c.flags.toNat <<< 24

theorem sizeAndFlags_eq {c : Content} (h : c.size < 2 ^ 24) :
    c.sizeAndFlags = c.flags.toNat * 2 ^ 24 + c.size := by
  rw [sizeAndFlags, Nat.or_comm, Nat.shiftLeft_eq, Nat.mul_comm, Nat.two_pow_add_eq_or_of_lt h]

/-- A content that fits the word is a payload. -/
def payload (c : Content) (h : c.size < 2 ^ 24) : Payload := ⟨c.flags, c.message, h⟩

theorem sizeAndFlags_payload {c : Content} (h : c.size < 2 ^ 24) :
    (c.payload h).sizeAndFlags = c.sizeAndFlags :=
  (sizeAndFlags_eq h).symm

end Content

/-- How one kind of package is written and read. -/
structure WireFormat (α : Type) where
  encodeHeader : α → Bytes
  headerSize : α → ℕ
  extractHeader : Scan α

namespace WireFormat

variable {α : Type} (F : WireFormat α) (d : α) (c : Content)

/-- `serialize`: the bytes that are written. -/
def serialize : Bytes := F.encodeHeader d ++ (encode 4 c.sizeAndFlags ++ c.message)

/-- The bytes that are reserved for them: `(uint32_t)(header_size() + sizeof(size) + size)`. -/
def reserved : ℕ := (F.headerSize d + 4 + c.size) % 2 ^ 32

/-- A value fills the bytes reserved for it and comes back from them, with its content. -/
def RoundTrips : Prop :=
  (F.serialize d c).length = F.reserved d c ∧ ∀ beyond : Bytes,
    (F.extractHeader.run (Received.memory ⟨F.serialize d c, beyond⟩) (.start 0)).1 = d ∧
      ∃ p : Payload, Received.payload ⟨F.serialize d c, beyond⟩ (F.headerSize d) = .ok p ∧
        p.flags = c.flags ∧ p.message = c.message

variable {F d c}

/-- A content comes back exactly when its size fits the word. `n` is the length of the header. -/
theorem payload_iff {beyond : Bytes} {n : ℕ} (hn : n = (F.encodeHeader d).length) :
    (∃ p : Payload, Received.payload ⟨F.serialize d c, beyond⟩ n = .ok p ∧
      p.flags = c.flags ∧ p.message = c.message) ↔ c.size < 2 ^ 24 := by
  constructor
  · rintro ⟨p, -, -, hmessage⟩
    rw [Package.size, ← hmessage]
    exact p.size_lt
  · intro hsize
    refine ⟨c.payload hsize, ?_, rfl, rfl⟩
    have hserialize : F.serialize d c =
        F.encodeHeader d ++
          (encode 4 (c.payload hsize).sizeAndFlags ++ (c.payload hsize).message) := by
      rw [Content.sizeAndFlags_payload]
      rfl
    rw [hserialize, hn]
    exact Received.payload_append _ _ _

/-- A value whose header has `n` bytes, and is read back from them if `n` fits 32 bits. -/
theorem roundTrips_iff_of_header {n : ℕ} (hsize : F.headerSize d = n % 2 ^ 32)
    (hlen : (F.encodeHeader d).length = n)
    (hheader : n < 2 ^ 32 → ∀ rest : Bytes,
      (F.extractHeader.run (memory (F.encodeHeader d ++ rest)) (.start 0)).1 = d) :
    F.RoundTrips d c ↔ c.size < 2 ^ 24 ∧ n + 4 + c.size < 2 ^ 32 := by
  have htotal : (F.serialize d c).length = n + 4 + c.size := by
    simp only [serialize, List.length_append, hlen, length_encode, Package.size]
    omega
  rw [RoundTrips, htotal, reserved, hsize]
  constructor
  · rintro ⟨hreserved, hback⟩
    have hfits : n + 4 + c.size < 2 ^ 32 := by omega
    rw [Nat.mod_eq_of_lt (by omega)] at hback
    exact ⟨(payload_iff hlen.symm).mp (hback []).2, hfits⟩
  · rintro ⟨hpayload, hfits⟩
    have hn : n % 2 ^ 32 = n := Nat.mod_eq_of_lt (by omega)
    refine ⟨by omega, fun beyond => ⟨?_, ?_⟩⟩
    · have hmem : Received.memory ⟨F.serialize d c, beyond⟩ = memory (F.encodeHeader d ++
          (encode 4 c.sizeAndFlags ++ (c.message ++ beyond))) := by
        simp [Received.memory, serialize]
      rw [hmem]
      exact hheader (by omega) _
    · rw [hn]
      exact (payload_iff hlen.symm).mpr hpayload

end WireFormat

/-! ### Strings -/

section

variable {a b : Bytes} {t : Trace}

theorem length_encodeString {b : Bytes} (hb : b.length < 2 ^ 32) :
    (encodeString b).length = 4 + b.length := by
  rw [encodeString, Nat.mod_eq_of_lt hb, List.take_length, List.length_append, length_encode]

/-- A string that starts at the cursor is read back, and the cursor moves behind it. -/
theorem run_extractString (rest : Bytes) (hb : b.length < 2 ^ 32) (ht : t.offset = a.length) :
    (extractString.run (memory (a ++ (encodeString b ++ rest))) t).1 = b ∧
      (extractString.run (memory (a ++ (encodeString b ++ rest))) t).2.offset =
        (a ++ encodeString b).length := by
  have hsplit : a ++ (encodeString b ++ rest) = a ++ (encode 4 b.length ++ (b ++ rest)) := by
    rw [encodeString, Nat.mod_eq_of_lt hb, List.take_length, List.append_assoc]
  have hlen : decode (slice (memory (a ++ (encode 4 b.length ++ (b ++ rest)))) a.length 4) =
      b.length := by
    rw [slice_field rfl (length_encode 4 _), decode_encode hb]
  simp only [extractString, run_bind, run_take, ht, hsplit, hlen]
  constructor
  · rw [← List.append_assoc]
    exact slice_field (by simp) rfl
  · rw [List.length_append, length_encodeString hb]
    omega

/-- What is read as a string is shorter than its word can say. -/
theorem length_extractString_lt (mem : ℕ → UInt8) (t : Trace) :
    ((extractString.run mem t).1).length < 2 ^ 32 := by
  have hword : decode (slice mem t.offset 4) < 256 ^ 4 := by
    have hlen := decode_lt (slice mem t.offset 4)
    rwa [length_slice] at hlen
  simp only [extractString, run_bind, run_take, length_slice]
  exact hword

end

/-! ### The formats -/

namespace LinkData

variable {d : LinkData}

theorem length_encodeHeader (h : d.publicKey.length < 2 ^ 32) :
    d.encodeHeader.length = 16 + d.publicKey.length := by
  simp only [encodeHeader, List.length_append, length_encode, length_encodeString h]
  omega

/-- **Round trip** of the header. -/
theorem run_extractHeader (h : d.publicKey.length < 2 ^ 32) (rest : Bytes) :
    (extractHeader.run (memory (d.encodeHeader ++ rest)) (.start 0)).1 = d := by
  obtain ⟨version, cmd, publicKey, loadInfo⟩ := d
  dsimp only at h
  have hversion : slice (memory (encodeHeader ⟨version, cmd, publicKey, loadInfo⟩ ++ rest)) 0 4 =
      encode 4 version.toNat := by
    simp [encodeHeader, slice_append_left]
  have hcmd : slice (memory (encodeHeader ⟨version, cmd, publicKey, loadInfo⟩ ++ rest)) 4 4 =
      encode 4 cmd.code := by
    simp [encodeHeader, slice_append_right, slice_append_left]
  have hsplit : encodeHeader ⟨version, cmd, publicKey, loadInfo⟩ ++ rest =
      (encode 4 version.toNat ++ encode 4 cmd.code) ++
        (encodeString publicKey ++ (encode 4 loadInfo.toNat ++ rest)) := by
    simp [encodeHeader]
  have hkey := run_extractString (encode 4 loadInfo.toNat ++ rest) h
    (show (Trace.mk 8 [(4, 4), (0, 4)] 0).offset =
      (encode 4 version.toNat ++ encode 4 cmd.code).length by simp)
  rw [← hsplit] at hkey
  have hinfo : slice (memory (encodeHeader ⟨version, cmd, publicKey, loadInfo⟩ ++ rest))
      ((encode 4 version.toNat ++ encode 4 cmd.code) ++ encodeString publicKey).length 4 =
      encode 4 loadInfo.toNat := by
    rw [hsplit, ← List.append_assoc]
    exact slice_field rfl (length_encode 4 _)
  simp only [extractHeader, run_bind, run_take, run_pure, Trace.start, Nat.zero_add, Nat.reduceAdd,
    hversion, hcmd, hkey.1, hkey.2, hinfo]
  rw [decode_encode version.toNat_lt, decode_encode (cmd.code_lt.trans (by decide)),
    decode_encode loadInfo.toNat_lt, Command.ofCode_code]
  simp

end LinkData

namespace KeyTransfer

/-- Every string fits the word with its length. -/
structure Short (d : KeyTransfer) : Prop where
  code : d.code.length < 2 ^ 32
  publicKey : d.publicKey.length < 2 ^ 32
  privateKey : d.privateKey.length < 2 ^ 32
  userJsonInfo : d.userJsonInfo.length < 2 ^ 32

variable {d : KeyTransfer}

/-- What is read is short. -/
theorem short_extractHeader (mem : ℕ → UInt8) (t : Trace) : (extractHeader.run mem t).1.Short := by
  constructor
  all_goals
    simp only [extractHeader, run_bind, run_take, run_pure]
    exact length_extractString_lt _ _

theorem length_encodeHeader (h : d.Short) : d.encodeHeader.length =
    24 + d.code.length + d.publicKey.length + d.privateKey.length + d.userJsonInfo.length := by
  simp only [encodeHeader, List.length_append, length_encode, length_encodeString h.code,
    length_encodeString h.publicKey, length_encodeString h.privateKey,
    length_encodeString h.userJsonInfo]
  omega

/-- **Round trip** of the header. -/
theorem run_extractHeader (h : d.Short) (rest : Bytes) :
    (extractHeader.run (memory (d.encodeHeader ++ rest)) (.start 0)).1 = d := by
  obtain ⟨version, cmd, code, publicKey, privateKey, userJsonInfo⟩ := d
  obtain ⟨hcode, hpublic, hprivate, hinfo⟩ := h
  dsimp only at hcode hpublic hprivate hinfo
  -- the bytes before each of the strings
  obtain ⟨a, ha⟩ : ∃ a, a = encode 4 version.toNat ++ encode 4 cmd.code := ⟨_, rfl⟩
  obtain ⟨b, hb⟩ : ∃ b, b = a ++ encodeString code := ⟨_, rfl⟩
  obtain ⟨c, hc⟩ : ∃ c, c = b ++ encodeString publicKey := ⟨_, rfl⟩
  obtain ⟨e, he⟩ : ∃ e, e = c ++ encodeString privateKey := ⟨_, rfl⟩
  obtain ⟨m, hm⟩ : ∃ m, m = encodeHeader ⟨version, cmd, code, publicKey, privateKey,
    userJsonInfo⟩ ++ rest := ⟨_, rfl⟩
  have hma : m = a ++ (encodeString code ++ (encodeString publicKey ++
      (encodeString privateKey ++ (encodeString userJsonInfo ++ rest)))) := by
    simp [hm, ha, encodeHeader]
  have hmb : m = b ++ (encodeString publicKey ++ (encodeString privateKey ++
      (encodeString userJsonInfo ++ rest))) := by
    simp [hma, hb]
  have hmc : m = c ++ (encodeString privateKey ++ (encodeString userJsonInfo ++ rest)) := by
    simp [hmb, hc]
  have hme : m = e ++ (encodeString userJsonInfo ++ rest) := by
    simp [hmc, he]
  have hversion : slice (memory m) 0 4 = encode 4 version.toNat := by
    simp [hma, ha, slice_append_left]
  have hcmd : slice (memory m) 4 4 = encode 4 cmd.code := by
    simp [hma, ha, slice_append_right, slice_append_left]
  have h₁ := run_extractString (encodeString publicKey ++ (encodeString privateKey ++
      (encodeString userJsonInfo ++ rest))) hcode
    (show (Trace.mk 8 [(4, 4), (0, 4)] 0).offset = a.length by simp [ha])
  rw [← hma, ← hb] at h₁
  have h₂ := run_extractString (encodeString privateKey ++ (encodeString userJsonInfo ++ rest))
    hpublic h₁.2
  rw [← hmb, ← hc] at h₂
  have h₃ := run_extractString (encodeString userJsonInfo ++ rest) hprivate h₂.2
  rw [← hmc, ← he] at h₃
  have h₄ := run_extractString rest hinfo h₃.2
  rw [← hme] at h₄
  rw [← hm]
  simp only [extractHeader, run_bind, run_take, run_pure, Trace.start, Nat.zero_add, Nat.reduceAdd,
    hversion, hcmd, h₁.1, h₂.1, h₃.1, h₄.1]
  rw [decode_encode version.toNat_lt, decode_encode (cmd.code_lt.trans (by decide)),
    Command.ofCode_code]
  simp

end KeyTransfer

/-! ### The law -/

/-- A value of one of the three packages. -/
inductive Value
  | routerData (d : RouterData)
  | linkData (d : LinkData)
  | keyTransfer (d : KeyTransfer)

/-- `router_data`, read into a new object. -/
def RouterData.format : WireFormat RouterData :=
  ⟨RouterData.encodeHeader, RouterData.headerSize, RouterData.new.extractHeader⟩

/-- `link_data`. -/
def LinkData.format : WireFormat LinkData :=
  ⟨LinkData.encodeHeader, LinkData.headerSize, LinkData.extractHeader⟩

/-- `key_transfer_package`. -/
def KeyTransfer.format : WireFormat KeyTransfer :=
  ⟨KeyTransfer.encodeHeader, KeyTransfer.headerSize, KeyTransfer.extractHeader⟩

/-- What routers send is written in this format. -/
theorem RouterData.serialize_payload (d : RouterData) {c : Content} (h : c.size < 2 ^ 24) :
    d.serialize (c.payload h) = RouterData.format.serialize d c := by
  rw [serialize, Content.sizeAndFlags_payload]
  rfl

namespace Value

/-- **The law**: a value comes back from its bytes, and the hop id of a `router_data` can be
overwritten in them. -/
def RoundTrips (c : Content) : Value → Prop
  | routerData d => RouterData.format.RoundTrips d c ∧ ∀ h : UInt16,
      RouterData.updateHopId (RouterData.format.serialize d c) h =
        RouterData.format.serialize { d with hopId := h } c
  | linkData d => LinkData.format.RoundTrips d c
  | keyTransfer d => KeyTransfer.format.RoundTrips d c

/-- How many bytes a header takes. -/
def headerLength : Value → ℕ
  | routerData d => 70 + 4 * d.winnersId.length
  | linkData d => 16 + d.publicKey.length
  | keyTransfer d => 24 + d.code.length + d.publicKey.length + d.privateKey.length +
      d.userJsonInfo.length

theorem roundTrips_routerData {d : RouterData} {c : Content} :
    RouterData.format.RoundTrips d c ↔
      c.size < 2 ^ 24 ∧ 70 + 4 * d.winnersId.length + 4 + c.size < 2 ^ 32 := by
  have hsize : RouterData.format.headerSize d = (70 + 4 * d.winnersId.length) % 2 ^ 32 := rfl
  have hlen : (RouterData.format.encodeHeader d).length = 70 + 4 * d.winnersId.length :=
    d.length_encodeHeader
  refine WireFormat.roundTrips_iff_of_header hsize hlen fun hn rest => ?_
  have hmem : memory (d.encodeHeader ++ rest) = Received.memory ⟨d.encodeHeader ++ rest, []⟩ := by
    simp only [Received.memory, List.append_nil]
  have hwinners : d.winnersId.length < 2 ^ 64 := by omega
  rw [RouterData.format]
  dsimp only
  rw [hmem]
  exact RouterData.ofPackage_encodeHeader d rest [] hwinners

theorem roundTrips_linkData {d : LinkData} {c : Content} : LinkData.format.RoundTrips d c ↔
    c.size < 2 ^ 24 ∧ 16 + d.publicKey.length + 4 + c.size < 2 ^ 32 := by
  have hsize : LinkData.format.headerSize d = (16 + d.publicKey.length) % 2 ^ 32 := rfl
  by_cases h : d.publicKey.length < 2 ^ 32
  · exact WireFormat.roundTrips_iff_of_header hsize (LinkData.length_encodeHeader h)
      fun _ rest => LinkData.run_extractHeader h rest
  · refine iff_of_false (fun hback => h ?_) (by omega)
    rw [← (hback.2 []).1]
    exact length_extractString_lt _ _

theorem roundTrips_keyTransfer {d : KeyTransfer} {c : Content} :
    KeyTransfer.format.RoundTrips d c ↔ c.size < 2 ^ 24 ∧
      24 + d.code.length + d.publicKey.length + d.privateKey.length + d.userJsonInfo.length + 4 +
        c.size < 2 ^ 32 := by
  have hsize : KeyTransfer.format.headerSize d = (24 + d.code.length + d.publicKey.length +
      d.privateKey.length + d.userJsonInfo.length) % 2 ^ 32 := rfl
  by_cases h : d.Short
  · exact WireFormat.roundTrips_iff_of_header hsize (KeyTransfer.length_encodeHeader h)
      fun _ rest => KeyTransfer.run_extractHeader h rest
  · refine iff_of_false (fun hback => h ?_) fun hfits => h ?_
    · rw [← (hback.2 []).1]
      exact KeyTransfer.short_extractHeader _ _
    · constructor <;> omega

/-- **A value round-trips exactly when it fits**: its bytes the field `size` of a package, its
content the 24 bits for the size in the word behind the header. -/
theorem roundTrips_iff (v : Value) (c : Content) :
    v.RoundTrips c ↔ c.size < 2 ^ 24 ∧ v.headerLength + 4 + c.size < 2 ^ 32 := by
  cases v with
  | routerData d =>
    rw [RoundTrips, headerLength, ← roundTrips_routerData]
    exact and_iff_left fun h => d.updateHopId_encodeHeader _ h
  | linkData d =>
    rw [RoundTrips, headerLength]
    exact roundTrips_linkData
  | keyTransfer d =>
    rw [RoundTrips, headerLength]
    exact roundTrips_keyTransfer

/-- A key of `2 ^ 32` bytes does not fit its length. -/
theorem not_roundTrips : ¬ ∀ (v : Value) (c : Content), c.size < 2 ^ 24 → v.RoundTrips c := by
  intro h
  obtain ⟨key, hkey⟩ : ∃ key : Bytes, key.length = 2 ^ 32 :=
    ⟨List.replicate (2 ^ 32) 0, List.length_replicate⟩
  have hback := h (.linkData ⟨0, .maxCommand, key, 0⟩) ⟨.empty, 0⟩ (by decide)
  obtain ⟨-, hfits⟩ := roundTrips_linkData.mp hback
  dsimp only at hfits
  omega

end Value

end Metax
