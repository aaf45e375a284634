import Metax.Protocol.LinkData

/-!
# Where the decoders read

The headers of `link_data`, `router_data` and `key_transfer_package` declare lengths and counts
that the sender chose. Their `extract_header` follows those numbers without comparing them with
the size of the package, while `extract_payload` checks every read. So decoding stays inside the
received buffer exactly when the declared lengths fit it, and then the winners, the only loop,
take no more rounds than the buffer has bytes.

Of what lies behind the buffer nothing is assumed: the condition is about the bytes of the package.
-/

namespace Metax

open BigEndian Scan

/-- The three packages that are decoded from a peer's bytes. The object a `router_data` is read
into may have been used before. -/
inductive Format
  | linkData
  | routerData (d : RouterData)
  | keyTransfer

namespace Format

/-- `extract_header` of the format, answering the header size the payload is looked for behind. -/
def extractHeader : Format → Scan ℕ
  | linkData => do
    let d ← LinkData.extractHeader
    pure d.headerSize
  | routerData d => do
    let d' ← d.extractHeader
    pure d'.headerSize
  | keyTransfer => do
    let d ← KeyTransfer.extractHeader
    pure d.headerSize

/-- Decoding a package: the header, then the payload behind it. -/
def decodePackage (f : Format) (p : Received) : Scan (Except PackageError Payload) := do
  let n ← f.extractHeader
  p.extractPayload n

/-- The trace a decoder leaves on a package. -/
def trace (f : Format) (p : Received) : Trace := ((f.decodePackage p).run p.memory (.start 0)).2

/-- Only bytes of the package are read, and the loops take at most as many rounds as it has
bytes. -/
def DecodesSafely (f : Format) (p : Received) : Prop :=
  (f.trace p).Inside p.size ∧ (f.trace p).rounds ≤ p.size

instance (f : Format) (p : Received) : Decidable (f.DecodesSafely p) :=
  inferInstanceAs (Decidable (_ ∧ _))

/-- The bytes start with `k` strings, each behind its length, and `e` more bytes. -/
def HoldsStrings (e : ℕ) : ℕ → Bytes → Prop
  | 0, m => e ≤ m.length
  | k + 1, m => 4 + decode (m.take 4) ≤ m.length ∧
      HoldsStrings e k (m.drop (4 + decode (m.take 4)))

/-- The lengths a header declares fit the package. -/
def Fits : Format → Received → Prop
  | linkData, p => HoldsStrings 4 1 (p.message.drop 8)
  | routerData _, p => 70 ≤ p.size ∧ 70 + 4 * decode ((p.message.drop 62).take 8) ≤ p.size
  | keyTransfer, p => HoldsStrings 0 4 (p.message.drop 8)

end Format

/-! ### The payload -/

theorem Received.extractMessage_reads (p : Received) {o n : ℕ} (mem : ℕ → UInt8) {t : Trace}
    (ht : t.offset = o) : ∃ new, ((p.extractMessage o n).run mem t).2.reads = new ++ t.reads ∧
      (∀ r ∈ new, r.1 + r.2 ≤ p.size) ∧
      ((p.extractMessage o n).run mem t).2.rounds = t.rounds := by
  unfold Received.extractMessage
  by_cases hsize : p.size < o + n % 2 ^ 24
  · rw [if_pos hsize]
    exact ⟨[], rfl, by simp, rfl⟩
  · rw [if_neg hsize]
    refine ⟨[(t.offset, n % 2 ^ 24)], rfl, ?_, rfl⟩
    simp only [List.mem_singleton, forall_eq]
    omega

/-- Whatever the offset is, every read of a payload is one that was checked. -/
theorem Received.extractPayload_reads (p : Received) (o : ℕ) (mem : ℕ → UInt8) (t : Trace) :
    ∃ new, ((p.extractPayload o).run mem t).2.reads = new ++ t.reads ∧
      (∀ r ∈ new, r.1 + r.2 ≤ p.size) ∧ ((p.extractPayload o).run mem t).2.rounds = t.rounds := by
  unfold Received.extractPayload
  by_cases hword : p.size < o + 4
  · rw [if_pos hword]
    exact ⟨[], rfl, by simp, rfl⟩
  · rw [if_neg hword]
    simp only [run_bind, run_seek, run_take]
    obtain ⟨new, hreads, hnew, hrounds⟩ := p.extractMessage_reads (o := o + 4)
      (n := decode (slice mem o 4)) mem (t := ⟨o + 4, (o, 4) :: t.reads, t.rounds⟩) rfl
    refine ⟨new ++ [(o, 4)], ?_, ?_, hrounds⟩
    · rw [hreads, List.append_assoc, List.singleton_append]
    · intro r hr
      cases List.mem_append.mp hr with
      | inl hr => exact hnew r hr
      | inr hr =>
        obtain rfl := List.mem_singleton.mp hr
        dsimp only
        omega

theorem Received.extractPayload_inside (p : Received) (o : ℕ) (mem : ℕ → UInt8) (t : Trace) :
    ((p.extractPayload o).run mem t).2.Inside p.size ↔ t.Inside p.size := by
  obtain ⟨new, hreads, hnew, -⟩ := p.extractPayload_reads o mem t
  rw [Trace.Inside, hreads, List.forall_mem_append]
  exact and_iff_right fun r hr => .inr (hnew r hr)

/-! ### The cursor behind a header -/

/-- Where `k` strings that start at `o` end. -/
def stringsEnd (mem : ℕ → UInt8) : ℕ → ℕ → ℕ
  | 0, o => o
  | k + 1, o => stringsEnd mem k (o + 4 + decode (slice mem o 4))

theorem le_stringsEnd (mem : ℕ → UInt8) (k o : ℕ) : o ≤ stringsEnd mem k o := by
  induction k generalizing o with
  | zero => exact le_rfl
  | succ k ih =>
    have := ih (o + 4 + decode (slice mem o 4))
    rw [stringsEnd]
    omega

/-- A string ends behind its length field and its bytes. -/
@[simp]
theorem extractString_offset (mem : ℕ → UInt8) (t : Trace) :
    (extractString.run mem t).2.offset = t.offset + 4 + decode (slice mem t.offset 4) := rfl

@[simp]
theorem extractString_rounds (mem : ℕ → UInt8) (t : Trace) :
    (extractString.run mem t).2.rounds = t.rounds := rfl

theorem steady_extractString : Steady extractString :=
  (steady_take 4).bind fun _ => steady_take _

theorem steady_extractWinners (n : ℕ) (l : List UInt32) :
    Steady (RouterData.extractWinners n l) := by
  induction n generalizing l with
  | zero => exact steady_pure l
  | succ n ih => exact steady_tick.bind fun _ => (steady_take 4).bind fun _ => ih _

theorem extractWinners_end (n : ℕ) (l : List UInt32) (mem : ℕ → UInt8) (t : Trace) :
    ((RouterData.extractWinners n l).run mem t).2.offset = t.offset + 4 * n ∧
      ((RouterData.extractWinners n l).run mem t).2.rounds = t.rounds + n := by
  induction n generalizing l t with
  | zero => exact ⟨rfl, rfl⟩
  | succ n ih =>
    obtain ⟨hoffset, hrounds⟩ := ih (l ++ [.ofNat (decode (slice mem t.offset 4))])
      ⟨t.offset + 4, (t.offset, 4) :: t.reads, t.rounds + 1⟩
    constructor
    · refine hoffset.trans ?_
      dsimp only
      omega
    · refine hrounds.trans ?_
      dsimp only
      omega

/-- A field that lies inside the package is the same in its memory. -/
theorem Received.slice_memory (p : Received) {o n : ℕ} (h : o + n ≤ p.size) :
    slice p.memory o n = (p.message.drop o).take n := by
  have hsize : p.size = p.message.length := rfl
  refine List.ext_getElem (by simp; omega) fun i hi hi' => ?_
  have hi₂ : o + i < p.message.length := by
    rw [length_slice] at hi
    omega
  simp [slice, Received.memory, Scan.memory, List.getElem?_append_left hi₂,
    List.getElem?_eq_getElem hi₂]

namespace Format

/-- Headers of both formats are read from front to back. -/
theorem steady_extractHeader (f : Format) : Steady f.extractHeader := by
  cases f with
  | linkData =>
    refine Steady.bind ?_ fun _ => steady_pure _
    exact (steady_take 4).bind fun _ => (steady_take 4).bind fun _ =>
      steady_extractString.bind fun _ => (steady_take 4).bind fun _ => steady_pure _
  | routerData d =>
    refine Steady.bind ?_ fun _ => steady_pure _
    exact (steady_take 4).bind fun _ => (steady_take 16).bind fun _ => (steady_take 4).bind fun _ =>
      (steady_take 16).bind fun _ => (steady_take 2).bind fun _ => (steady_take 4).bind fun _ =>
      (steady_take 8).bind fun _ => (steady_take 8).bind fun _ => (steady_take 8).bind fun _ =>
      (steady_extractWinners _ _).bind fun _ => steady_pure _
  | keyTransfer =>
    refine Steady.bind ?_ fun _ => steady_pure _
    exact (steady_take 4).bind fun _ => (steady_take 4).bind fun _ =>
      steady_extractString.bind fun _ => steady_extractString.bind fun _ =>
      steady_extractString.bind fun _ => steady_extractString.bind fun _ => steady_pure _

/-- Decoding stays inside the package exactly when the header ends there. -/
theorem inside_iff_header (f : Format) (p : Received) :
    (f.trace p).Inside p.size ↔ (f.extractHeader.run p.memory (.start 0)).2.offset ≤ p.size := by
  rw [← f.steady_extractHeader.inside_iff]
  exact p.extractPayload_inside _ _ _

theorem holdsStrings_iff (p : Received) (e k : ℕ) {o : ℕ} (ho : o ≤ p.size) :
    HoldsStrings e k (p.message.drop o) ↔ stringsEnd p.memory k o + e ≤ p.size := by
  induction k generalizing o with
  | zero =>
    have hsize : p.size = p.message.length := rfl
    simp only [HoldsStrings, stringsEnd, List.length_drop]
    omega
  | succ k ih =>
    have hsize : p.size = p.message.length := rfl
    have hend := le_stringsEnd p.memory k (o + 4 + decode (slice p.memory o 4))
    simp only [HoldsStrings, stringsEnd, List.length_drop, List.drop_drop]
    by_cases hword : o + 4 ≤ p.size
    · rw [← p.slice_memory hword, ← Nat.add_assoc]
      constructor
      · rintro ⟨hlen, hrest⟩
        exact (ih (by omega)).mp hrest
      · intro hrest
        exact ⟨by omega, (ih (by omega)).mpr hrest⟩
    · constructor
      · rintro ⟨hlen, -⟩
        omega
      · intro hrest
        omega

theorem extractHeader_rounds (f : Format) (p : Received) :
    (f.extractHeader.run p.memory (.start 0)).2.rounds =
      match f with
      | routerData _ => decode (slice p.memory 62 8)
      | _ => 0 := by
  cases f with
  | linkData => rfl
  | routerData d => exact (extractWinners_end _ _ _ _).2.trans (Nat.zero_add _)
  | keyTransfer => rfl

/-- So a header fits if its end does. -/
theorem header_fits_iff (f : Format) (p : Received) :
    (f.extractHeader.run p.memory (.start 0)).2.offset ≤ p.size ↔ f.Fits p := by
  have hsize : p.size = p.message.length := rfl
  cases f with
  | linkData =>
    have hend : ((extractHeader linkData).run p.memory (.start 0)).2.offset =
        stringsEnd p.memory 1 8 + 4 := rfl
    rw [hend, Fits]
    by_cases h : 8 ≤ p.size
    · exact (holdsStrings_iff p 4 1 h).symm
    · have := le_stringsEnd p.memory 1 8
      rw [List.drop_of_length_le (by omega)]
      simp only [HoldsStrings, List.length_nil]
      omega
  | routerData d =>
    have hend : ((extractHeader (routerData d)).run p.memory (.start 0)).2.offset =
        70 + 4 * decode (slice p.memory 62 8) := (extractWinners_end _ _ _ _).1
    rw [hend, Fits]
    by_cases h : 70 ≤ p.size
    · rw [p.slice_memory (by omega)]
      exact ⟨fun h' => ⟨h, h'⟩, And.right⟩
    · exact iff_of_false (by omega) fun h' => h h'.1
  | keyTransfer =>
    have hend : ((extractHeader keyTransfer).run p.memory (.start 0)).2.offset =
        stringsEnd p.memory 4 8 + 0 := rfl
    rw [hend, Fits]
    by_cases h : 8 ≤ p.size
    · exact (holdsStrings_iff p 0 4 h).symm
    · have := le_stringsEnd p.memory 4 8
      rw [List.drop_of_length_le (by omega)]
      simp only [HoldsStrings, List.length_nil]
      omega

/-- **Decode safety.** Decoding a package reads its own bytes only, in at most as many rounds as
it has bytes, exactly when the lengths its header declares fit it. -/
theorem decodes_safely_iff (f : Format) (p : Received) : f.DecodesSafely p ↔ f.Fits p := by
  obtain ⟨-, -, -, hrounds⟩ := p.extractPayload_reads (f.extractHeader.run p.memory (.start 0)).1
    p.memory (f.extractHeader.run p.memory (.start 0)).2
  change (f.trace p).rounds = _ at hrounds
  rw [DecodesSafely, inside_iff_header, header_fits_iff, hrounds, extractHeader_rounds]
  constructor
  · exact And.left
  · intro hfits
    refine ⟨hfits, ?_⟩
    cases f with
    | linkData => exact Nat.zero_le _
    | routerData d =>
      obtain ⟨hheader, hwinners⟩ := hfits
      dsimp only
      rw [p.slice_memory (by omega)]
      omega
    | keyTransfer => exact Nat.zero_le _

/-- A message of eight bytes is read behind its end by all three decoders. -/
theorem not_decodes_safely :
    ¬ ∀ (f : Format) (p : Received), f.DecodesSafely p := by
  intro h
  have hshort := h linkData ⟨List.replicate 8 0, []⟩
  revert hshort
  decide

end Format

end Metax
