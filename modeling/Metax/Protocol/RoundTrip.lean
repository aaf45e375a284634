import Metax.Protocol.RouterData

/-!
# What a router writes, a router reads

`serialize` followed by `extract_header` and `extract_payload` gives the header and the payload
back, whatever lies behind the buffer, and `update_hop_id` changes the hop id of the header and
nothing else.

The winners at the end of a header are counted by a field of it, so they are read one by one
(`extractWinners_encode`). Sizes that do not fit their fields are the matter of
`Metax.Protocol.WireFormat`.
-/

namespace Metax

open BigEndian Scan

namespace RouterData

variable {d : RouterData} {p : Payload} {beyond : Bytes}

/-- The fields of a header before the winners, one behind the other. -/
theorem length_encodeHeader (d : RouterData) :
    d.encodeHeader.length = 70 + 4 * d.winnersId.length := by
  have hwinners : (encodeWinners d.winnersId).length = 4 * d.winnersId.length := by
    induction d.winnersId with
    | nil => rfl
    | cons w l ih =>
      simp only [encodeWinners, List.flatMap_cons, List.length_append, length_encode,
        List.length_cons] at ih ⊢
      omega
  simp only [encodeHeader, List.length_append, length_encode, hwinners]
  omega

theorem extractWinners_encode (l w : List UInt32) (a rest : List UInt8) (t : Trace)
    (ht : t.offset = a.length) :
    ((extractWinners l.length w).run (memory (a ++ (encodeWinners l ++ rest))) t).1 = w ++ l := by
  induction l generalizing w a t with
  | nil => simp [extractWinners]
  | cons x l ih =>
    have hx : slice (memory (a ++ (encodeWinners (x :: l) ++ rest))) a.length 4 =
        encode 4 x.toNat := by
      rw [encodeWinners, List.flatMap_cons, List.append_assoc]
      exact slice_field rfl (length_encode 4 _)
    have hword : UInt32.ofNat (decode (encode 4 x.toNat)) = x := by
      rw [decode_encode x.toNat_lt]
      exact UInt32.ofNat_toNat
    simp only [List.length_cons, extractWinners, run_bind, run_tick, run_take, ht, hx, hword]
    have hrest : a ++ (encodeWinners (x :: l) ++ rest) =
        (a ++ encode 4 x.toNat) ++ (encodeWinners l ++ rest) := by
      simp [encodeWinners]
    rw [hrest, ih (w ++ [x]) (a ++ encode 4 x.toNat)
      ⟨a.length + 4, (a.length, 4) :: t.reads, t.rounds + 1⟩ (by simp), List.append_assoc,
      List.singleton_append]

/-- The part of a header before the winners. -/
theorem encodeHeader_split (d : RouterData) :
    ∃ a : Bytes, a.length = 70 ∧ d.encodeHeader = a ++ encodeWinners d.winnersId := by
  refine ⟨encode 4 d.version.toNat ++ (encode 16 d.tenderId.toNat ++ (encode 4 d.cmd.code ++
    (encode 16 d.uuid.toNat ++ (encode 2 d.hopId.toNat ++ (encode 4 d.dataVersion.toNat ++
      (encode 8 d.lastUpdated.toNat ++ (encode 8 d.expireDate.toNat ++
        encode 8 d.winnersId.length))))))), ?_, ?_⟩
  · simp
  · simp [encodeHeader]

/-- **Round trip** of the header. -/
theorem ofPackage_encodeHeader (d : RouterData) (rest beyond : Bytes)
    (hwinners : d.winnersId.length < 2 ^ 64) :
    ofPackage ⟨d.encodeHeader ++ rest, beyond⟩ = d := by
  have hmem : (⟨d.encodeHeader ++ rest, beyond⟩ : Received).memory =
      memory (d.encodeHeader ++ (rest ++ beyond)) := by
    rw [Received.memory, List.append_assoc]
  have hcount : slice (memory (d.encodeHeader ++ (rest ++ beyond))) 62 8 =
      encode 8 d.winnersId.length := by
    simp [encodeHeader, slice_append_right, slice_append_left]
  have hlen : decode (encode 8 d.winnersId.length) = d.winnersId.length := decode_encode hwinners
  have hloop : ∀ t : Trace, t.offset = 70 →
      ((extractWinners d.winnersId.length []).run
        (memory (d.encodeHeader ++ (rest ++ beyond))) t).1 = d.winnersId := by
    intro t ht
    obtain ⟨a, ha, hsplit⟩ := d.encodeHeader_split
    rw [hsplit, List.append_assoc, extractWinners_encode _ _ _ _ _ (ht.trans ha.symm)]
    exact List.nil_append _
  -- the other fields, each at its place
  have hversion : slice (memory (d.encodeHeader ++ (rest ++ beyond))) 0 4 =
      encode 4 d.version.toNat := by
    simp [encodeHeader, slice_append_left]
  have htender : slice (memory (d.encodeHeader ++ (rest ++ beyond))) 4 16 =
      encode 16 d.tenderId.toNat := by
    simp [encodeHeader, slice_append_right, slice_append_left]
  have hcmd : slice (memory (d.encodeHeader ++ (rest ++ beyond))) 20 4 = encode 4 d.cmd.code := by
    simp [encodeHeader, slice_append_right, slice_append_left]
  have huuid : slice (memory (d.encodeHeader ++ (rest ++ beyond))) 24 16 =
      encode 16 d.uuid.toNat := by
    simp [encodeHeader, slice_append_right, slice_append_left]
  have hhop : slice (memory (d.encodeHeader ++ (rest ++ beyond))) 40 2 =
      encode 2 d.hopId.toNat := by
    simp [encodeHeader, slice_append_right, slice_append_left]
  have hdata : slice (memory (d.encodeHeader ++ (rest ++ beyond))) 42 4 =
      encode 4 d.dataVersion.toNat := by
    simp [encodeHeader, slice_append_right, slice_append_left]
  have hupdated : slice (memory (d.encodeHeader ++ (rest ++ beyond))) 46 8 =
      encode 8 d.lastUpdated.toNat := by
    simp [encodeHeader, slice_append_right, slice_append_left]
  have hexpire : slice (memory (d.encodeHeader ++ (rest ++ beyond))) 54 8 =
      encode 8 d.expireDate.toNat := by
    simp [encodeHeader, slice_append_right, slice_append_left]
  simp only [ofPackage, decodeInto, extractHeader, run_bind, run_take, run_pure, hmem,
    Trace.start, Nat.zero_add, Nat.reduceAdd, hcount, hlen, hversion, htender, hcmd, huuid, hhop,
    hdata, hupdated, hexpire, new, hloop]
  rw [decode_encode d.version.toNat_lt, decode_encode d.tenderId.isLt, 
    decode_encode (d.cmd.code_lt.trans (by decide)),
    decode_encode d.uuid.isLt, decode_encode d.hopId.toNat_lt, decode_encode d.dataVersion.toNat_lt,
    decode_encode d.lastUpdated.toNat_lt, decode_encode d.expireDate.toNat_lt, Command.ofCode_code]
  simp

theorem ofPackage_serialize (d : RouterData) (p : Payload) (beyond : Bytes)
    (hwinners : d.winnersId.length < 2 ^ 64) : ofPackage ⟨d.serialize p, beyond⟩ = d :=
  ofPackage_encodeHeader d _ beyond hwinners

end RouterData

namespace Payload

theorem sizeAndFlags_lt (p : Payload) : p.sizeAndFlags < 256 ^ 4 := by
  have hflags : p.flags.toNat < 2 ^ 8 := p.flags.toNat_lt
  have hlen := p.size_lt
  rw [sizeAndFlags]
  omega

theorem sizeAndFlags_mod (p : Payload) : p.sizeAndFlags % 2 ^ 24 = p.message.length := by
  have hlen := p.size_lt
  rw [sizeAndFlags]
  omega

/-- The word and the bytes behind it give the payload back. -/
theorem ofWord_sizeAndFlags (p : Payload)
    (m : {l : Bytes // l.length = p.sizeAndFlags % 2 ^ 24}) (hm : m.1 = p.message) :
    ofWord p.sizeAndFlags m = p := by
  have hlen := p.size_lt
  have hflags : p.sizeAndFlags / 2 ^ 24 = p.flags.toNat := by
    rw [sizeAndFlags]
    omega
  obtain ⟨flags, message, hsize⟩ := p
  simp only [ofWord, hflags, hm, UInt8.ofNat_toNat]

end Payload

namespace Received

/-- A payload behind any header. -/
theorem payload_append (header : Bytes) (p : Payload) (beyond : Bytes) :
    (⟨header ++ (encode 4 p.sizeAndFlags ++ p.message), beyond⟩ : Received).payload header.length =
      .ok p := by
  have htotal : (⟨header ++ (encode 4 p.sizeAndFlags ++ p.message), beyond⟩ : Received).size =
      header.length + 4 + p.message.length := by
    simp only [size, List.length_append, length_encode]
    omega
  have hmem : (⟨header ++ (encode 4 p.sizeAndFlags ++ p.message), beyond⟩ : Received).memory =
      Scan.memory (header ++ (encode 4 p.sizeAndFlags ++ (p.message ++ beyond))) := by
    simp [memory]
  have hword : decode (slice (Scan.memory (header ++ (encode 4 p.sizeAndFlags ++
      (p.message ++ beyond)))) header.length 4) = p.sizeAndFlags := by
    rw [slice_field rfl (length_encode 4 _), decode_encode p.sizeAndFlags_lt]
  have hmessage : slice (Scan.memory (header ++ (encode 4 p.sizeAndFlags ++
      (p.message ++ beyond)))) (header.length + 4) p.message.length = p.message := by
    rw [← List.append_assoc]
    exact slice_field (by simp) rfl
  rw [payload, extractPayload, if_neg (by rw [htotal]; omega), hmem]
  simp only [run_bind, run_seek, run_take, hword]
  rw [extractMessage, if_neg (by rw [htotal, p.sizeAndFlags_mod]; omega)]
  simp only [run_bind, run_takeExact, run_pure]
  refine congrArg Except.ok (p.ofWord_sizeAndFlags _ ?_)
  dsimp only
  rw [p.sizeAndFlags_mod]
  exact hmessage

end Received

namespace RouterData

/-- **Round trip** of the payload. -/
theorem payload_serialize (d : RouterData) (p : Payload) (beyond : Bytes)
    (hwinners : 70 + 4 * d.winnersId.length < 2 ^ 32) :
    (⟨d.serialize p, beyond⟩ : Received).payload d.headerSize = .ok p := by
  have hsize : d.headerSize = d.encodeHeader.length := by
    rw [headerSize, length_encodeHeader, Nat.mod_eq_of_lt hwinners]
  rw [hsize]
  exact Received.payload_append _ _ _

theorem updateHopId_append {a b l : Bytes} (ha : a.length = 40) (hb : b.length = 2) (h : UInt16) :
    updateHopId (a ++ (b ++ l)) h = a ++ (encode 2 h.toNat ++ l) := by
  have htake : (a ++ (b ++ l)).take 40 = a := List.take_left' ha
  have hdrop : (a ++ (b ++ l)).drop 42 = l := by
    rw [← List.append_assoc]
    exact List.drop_left' (by simp [ha, hb])
  rw [updateHopId, htake, hdrop, List.append_assoc]
  exact List.take_of_length_le (by simp [hb])

/-- What stands before and behind the hop id of a header. -/
theorem encodeHeader_hop_split (d : RouterData) : ∃ a l : Bytes, a.length = 40 ∧
    ∀ h : UInt16, { d with hopId := h }.encodeHeader = a ++ (encode 2 h.toNat ++ l) := by
  refine ⟨encode 4 d.version.toNat ++ (encode 16 d.tenderId.toNat ++ (encode 4 d.cmd.code ++
      encode 16 d.uuid.toNat)), encode 4 d.dataVersion.toNat ++ (encode 8 d.lastUpdated.toNat ++
    (encode 8 d.expireDate.toNat ++ (encode 8 d.winnersId.length ++
      encodeWinners d.winnersId))), ?_, fun h => ?_⟩
  · simp
  · simp [encodeHeader]

/-- The hop id behind any header is overwritten in place. -/
theorem updateHopId_encodeHeader (d : RouterData) (rest : Bytes) (h : UInt16) :
    updateHopId (d.encodeHeader ++ rest) h = { d with hopId := h }.encodeHeader ++ rest := by
  obtain ⟨a, l, ha, hsplit⟩ := d.encodeHeader_hop_split
  have hd : d.encodeHeader = a ++ (encode 2 d.hopId.toNat ++ l) := hsplit d.hopId
  rw [hsplit h, hd, List.append_assoc, List.append_assoc,
    updateHopId_append ha (length_encode 2 _), List.append_assoc, List.append_assoc]

/-- The hop id of a message is overwritten in place. -/
theorem updateHopId_serialize (d : RouterData) (p : Payload) (h : UInt16) :
    updateHopId (d.serialize p) h = { d with hopId := h }.serialize p :=
  d.updateHopId_encodeHeader _ h

end RouterData

end Metax
