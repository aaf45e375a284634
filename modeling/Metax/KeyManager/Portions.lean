import Metax.Kernel.Chunking
import Metax.Livestream.Recording

/-!
# Decrypting by portions

What has the content type `video/mp2t` is decrypted in portions of 30016 bytes, the size of 30000
encrypted bytes. A piece of a file is encrypted as a whole; a piece of a recording is what was in
the buffer, one encrypted message after the other. Writer and reader agree exactly when every
message of a piece but the last fills a portion and the last fits one (`Aligned`).

That they agree on nothing else is shown by a cipher that only pads (`padding`): messages of zeros
can be read off its output in one way only.

For files this is a matter of the size of a piece, and for recordings one of the messages that come
over the livestream (`portions_decrypt_iff`, `aligned_upload_iff`).
-/

namespace Metax

namespace KeyManager

/-! ### Ciphers -/

/-- The size of `n` bytes when they are encrypted. -/
def encryptedSize (n : ℕ) : ℕ := 16 * (n / 16 + 1)

/-- `Poco::Crypto::Cipher`, which decrypts exactly what it encrypted as a whole. `none` is an
exception. -/
structure Cipher where
  encryptString : Bytes → Bytes
  decryptString : Bytes → Option Bytes
  length_encryptString : ∀ m, (encryptString m).length = encryptedSize m.length
  decryptString_eq_some : ∀ c m, decryptString c = some m ↔ c = encryptString m

/-- `psize` of `decrypt_portion_data`. -/
def portionSize : ℕ := 30016

namespace Cipher

variable (cipher : Cipher)

/-- `key_manager::decrypt_portion_data`. -/
def decryptPortionData (msg : Bytes) : Option Bytes :=
  let i := msg.length / portionSize
  let decData := (List.range i).foldlM (fun decData i =>
    (cipher.decryptString ((msg.drop (i * portionSize)).take portionSize)).map (decData ++ ·)) []
  if i * portionSize < msg.length then
    decData.bind fun decData =>
      (cipher.decryptString (msg.drop (i * portionSize))).map (decData ++ ·)
  else decData

/-- Messages that are encrypted one by one. -/
def stream (ms : List Bytes) : Bytes := (ms.map cipher.encryptString).flatten

@[simp]
theorem stream_nil : cipher.stream [] = [] := rfl

/-- Messages are encrypted one after the other. -/
@[simp]
theorem stream_cons (m : Bytes) (ms : List Bytes) :
    cipher.stream (m :: ms) = cipher.encryptString m ++ cipher.stream ms := rfl

/-- What was encrypted as a whole is decrypted. -/
theorem decryptString_encryptString (m : Bytes) :
    cipher.decryptString (cipher.encryptString m) = some m :=
  (cipher.decryptString_eq_some _ _).mpr rfl

/-! ### Portions -/

/-- What is less than a portion is decrypted as a whole. -/
theorem decryptPortionData_of_lt {msg : Bytes} (h : msg.length < portionSize) :
    cipher.decryptPortionData msg = if msg = [] then some [] else cipher.decryptString msg := by
  have hdiv : msg.length / portionSize = 0 := Nat.div_eq_of_lt h
  rw [decryptPortionData, hdiv]
  by_cases hnil : msg = []
  · subst hnil
    rfl
  · have hpos : 0 * portionSize < msg.length := by
      rw [Nat.zero_mul]
      exact List.length_pos_of_ne_nil hnil
    rw [if_pos hpos, if_neg hnil, Nat.zero_mul]
    simp

/-- What was decrypted before stands in front. -/
theorem foldlM_append {α : Type} (d : ℕ → Option (List α)) (is : List ℕ) (a b : List α) :
    is.foldlM (fun acc i => (d i).map (acc ++ ·)) (a ++ b) =
      (is.foldlM (fun acc i => (d i).map (acc ++ ·)) b).map (a ++ ·) := by
  induction is generalizing b with
  | nil => rfl
  | cons i is ih =>
    rw [List.foldlM_cons, List.foldlM_cons]
    cases d i with
    | none => rfl
    | some c =>
      simp only [Option.map_some, Option.bind_eq_bind, Option.bind_some, List.append_assoc]
      exact ih (b ++ c)

/-- **One portion** is decrypted, and then the rest. -/
theorem decryptPortionData_append {x : Bytes} (hx : x.length = portionSize) (y : Bytes) :
    cipher.decryptPortionData (x ++ y) = (cipher.decryptString x).bind fun m =>
      (cipher.decryptPortionData y).map (m ++ ·) := by
  have hlen : (x ++ y).length = portionSize + y.length := by
    rw [List.length_append, hx]
  have hdiv : (x ++ y).length / portionSize = y.length / portionSize + 1 := by
    rw [hlen, Nat.add_comm, Nat.add_div_right _ (by decide)]
  have hdrop : ∀ i, (x ++ y).drop ((i + 1) * portionSize) = y.drop (i * portionSize) := by
    intro i
    rw [Nat.succ_mul, Nat.add_comm, ← List.drop_drop, ← hx, List.drop_left]
  have hrest : (y.length / portionSize + 1) * portionSize < (x ++ y).length ↔
      y.length / portionSize * portionSize < y.length := by
    rw [hlen, Nat.succ_mul]
    omega
  rw [decryptPortionData, decryptPortionData, hdiv]
  simp only [hdrop, hrest, List.range_succ_eq_map, List.foldlM_cons, List.foldlM_map, Nat.zero_mul,
    List.drop_zero, Nat.succ_eq_add_one]
  rw [← hx, List.take_left]
  cases cipher.decryptString x with
  | none =>
    simp
  | some m =>
    have hfold := foldlM_append (fun i => cipher.decryptString
      ((y.drop (i * x.length)).take x.length)) (List.range (y.length / x.length)) m []
    rw [List.append_nil] at hfold
    simp only [Option.map_some, List.nil_append, Option.bind_eq_bind, Option.bind_some, hfold]
    generalize (List.range (y.length / x.length)).foldlM (fun (acc : Bytes) i =>
      (cipher.decryptString ((y.drop (i * x.length)).take x.length)).map (acc ++ ·)) [] = decData
    split_ifs
    · cases decData with
      | none => rfl
      | some d =>
        cases cipher.decryptString (y.drop (y.length / x.length * x.length)) with
        | none => rfl
        | some b =>
          simp only [Option.map_some, Option.bind_some, List.append_assoc]
    · rfl

/-! ### What agrees with the portions -/

end Cipher

/-- Every message but the last fills a portion, and the last fits one. -/
def Aligned (sizes : List ℕ) : Prop :=
  (∀ n ∈ sizes.dropLast, encryptedSize n = portionSize) ∧
    ∀ n ∈ sizes.getLast?, encryptedSize n ≤ portionSize

instance (sizes : List ℕ) : Decidable (Aligned sizes) :=
  haveI : Decidable (∀ n ∈ sizes.dropLast, encryptedSize n = portionSize) := List.decidableBAll _ _
  inferInstanceAs (Decidable (_ ∧ _))

/-- No messages are aligned. -/
@[simp]
theorem aligned_nil : Aligned [] := ⟨nofun, nofun⟩

/-- A message alone has to fit a portion. -/
theorem aligned_singleton {n : ℕ} : Aligned [n] ↔ encryptedSize n ≤ portionSize := by
  simp [Aligned]

/-- A message that is followed by another has to fill one. -/
theorem aligned_cons {n : ℕ} {ns : List ℕ} (hns : ns ≠ []) :
    Aligned (n :: ns) ↔ encryptedSize n = portionSize ∧ Aligned ns := by
  rw [Aligned, Aligned, List.dropLast_cons_of_ne_nil hns, List.getLast?_cons_of_ne_nil hns,
    List.forall_mem_cons, and_assoc]

/-- Encryption yields at least one block. -/
theorem encryptedSize_pos (n : ℕ) : 0 < encryptedSize n := by
  rw [encryptedSize]
  omega

namespace Cipher

variable (cipher : Cipher)

/-- So an encrypted message is never empty. -/
theorem encryptString_ne_nil (m : Bytes) : cipher.encryptString m ≠ [] := by
  intro h
  have hlen := cipher.length_encryptString m
  rw [h] at hlen
  exact absurd hlen (encryptedSize_pos m.length).ne

/-- Nothing is decrypted to nothing. -/
theorem decryptPortionData_nil : cipher.decryptPortionData [] = some [] :=
  (cipher.decryptPortionData_of_lt (by decide)).trans (if_pos rfl)

/-- **Messages that fill the portions** are read back. -/
theorem decryptPortionData_stream {ms : List Bytes} (h : Aligned (ms.map List.length)) :
    cipher.decryptPortionData (cipher.stream ms) = some ms.flatten := by
  induction ms with
  | nil => exact cipher.decryptPortionData_nil
  | cons m ms ih =>
    have hfull : encryptedSize m.length = portionSize → Aligned (ms.map List.length) →
        cipher.decryptPortionData (cipher.stream (m :: ms)) = some (m :: ms).flatten := by
      intro hm hms
      have hlen : (cipher.encryptString m).length = portionSize :=
        (cipher.length_encryptString m).trans hm
      rw [stream_cons, cipher.decryptPortionData_append hlen, decryptString_encryptString,
        Option.bind_some, ih hms]
      rfl
    cases ms with
    | nil =>
      have hle : encryptedSize m.length ≤ portionSize := aligned_singleton.mp h
      obtain hlt | heq := hle.lt_or_eq
      · have hlen : (cipher.encryptString m).length < portionSize :=
          (cipher.length_encryptString m).trans_lt hlt
        rw [stream_cons, stream_nil, List.append_nil, cipher.decryptPortionData_of_lt hlen,
          if_neg (cipher.encryptString_ne_nil m), decryptString_encryptString, List.flatten_cons,
          List.flatten_nil, List.append_nil]
      · exact hfull heq aligned_nil
    | cons m' ms =>
      obtain ⟨hm, hms⟩ := (aligned_cons (List.cons_ne_nil _ _)).mp h
      exact hfull hm hms

end Cipher

/-! ### A cipher that only pads -/

/-- The padding of `n` bytes. -/
def pad (n : ℕ) : Bytes := List.replicate (16 - n % 16) (16 - n % 16).toUInt8

/-- What a padding is taken from. -/
def unpad (c : Bytes) : Bytes := c.take (c.length - (c.getLast?.getD 0).toNat)

/-- Padding has the size of an encryption. -/
theorem length_append_pad (m : Bytes) : (m ++ pad m.length).length = encryptedSize m.length := by
  have hmod := Nat.mod_lt m.length (by decide : 0 < 16)
  have hdiv := Nat.div_add_mod m.length 16
  rw [List.length_append, pad, List.length_replicate, encryptedSize]
  omega

/-- And it can be taken off again. -/
theorem unpad_append (m : Bytes) : unpad (m ++ pad m.length) = m := by
  have hmod := Nat.mod_lt m.length (by decide : 0 < 16)
  have hne : 16 - m.length % 16 ≠ 0 := by omega
  have hlast : (m ++ pad m.length).getLast? = some (16 - m.length % 16).toUInt8 := by
    rw [List.getLast?_append, pad, List.getLast?_replicate, if_neg hne]
    rfl
  have hval : (16 - m.length % 16).toUInt8.toNat = 16 - m.length % 16 := by
    rw [Nat.toUInt8_eq, UInt8.toNat_ofNat']
    omega
  rw [unpad, hlast, Option.getD_some, hval, List.length_append, pad, List.length_replicate,
    Nat.add_sub_cancel, List.take_left]

/-- **Padding**, and nothing else. -/
def padding : Cipher where
  encryptString m := m ++ pad m.length
  decryptString c := if unpad c ++ pad (unpad c).length = c then some (unpad c) else none
  length_encryptString := length_append_pad
  decryptString_eq_some c m := by
    constructor
    · intro h
      split_ifs at h with hc
      obtain rfl := Option.some.inj h
      exact hc.symm
    · rintro rfl
      rw [unpad_append, if_pos rfl]

/-- A message of zeros. -/
def zeros (n : ℕ) : Bytes := List.replicate n 0

theorem length_zeros (n : ℕ) : (zeros n).length = n := List.length_replicate

/-- The padding starts where the zeros end. -/
theorem takeWhile_padding (n : ℕ) (x : Bytes) :
    (padding.encryptString (zeros n) ++ x).takeWhile (· = 0) = zeros n := by
  have hmod := Nat.mod_lt n (by decide : 0 < 16)
  have hne : (16 - n % 16).toUInt8 ≠ 0 := by
    intro h
    have hval := congrArg UInt8.toNat h
    rw [Nat.toUInt8_eq, UInt8.toNat_ofNat', UInt8.toNat_zero] at hval
    omega
  obtain ⟨k, hk⟩ : ∃ k, 16 - n % 16 = k + 1 := ⟨15 - n % 16, by omega⟩
  have hpad : padding.encryptString (zeros n) ++ x =
      zeros n ++ ((16 - n % 16).toUInt8 :: (List.replicate k (16 - n % 16).toUInt8 ++ x)) := by
    change zeros n ++ pad (zeros n).length ++ x = _
    rw [length_zeros, pad, List.append_assoc]
    conv_lhs => rw [hk, List.replicate_succ, ← hk]
    rfl
  rw [hpad, List.takeWhile_append_of_pos fun b hb => decide_eq_true (List.eq_of_mem_replicate hb),
    List.takeWhile_cons_of_neg (by simpa using hne), List.append_nil]

/-- Zeros can be read off the padding in one way only. -/
theorem padding_zeros_inj {n l : ℕ} {x y : Bytes}
    (h : padding.encryptString (zeros n) ++ x = padding.encryptString (zeros l) ++ y) :
    n = l ∧ x = y := by
  have htake := congrArg (List.takeWhile (· = 0)) h
  rw [takeWhile_padding, takeWhile_padding] at htake
  have hlen := congrArg List.length htake
  rw [length_zeros, length_zeros] at hlen
  subst hlen
  exact ⟨rfl, List.append_cancel_left h⟩

/-- **Zeros that are read back** fill the portions. -/
theorem aligned_of_padding {ns : List ℕ} {z : ℕ}
    (h : padding.decryptPortionData (padding.stream (ns.map zeros)) = some (zeros z)) :
    Aligned ns := by
  induction ns generalizing z with
  | nil => exact aligned_nil
  | cons n ns ih =>
    rw [List.map_cons, Cipher.stream_cons] at h
    obtain ⟨s, hs⟩ : ∃ s, s = padding.encryptString (zeros n) ++ padding.stream (ns.map zeros) :=
      ⟨_, rfl⟩
    rw [← hs] at h
    have hsize : (padding.encryptString (zeros n)).length = encryptedSize n := by
      rw [padding.length_encryptString, length_zeros]
    by_cases hlt : s.length < portionSize
    · -- all of it is one message
      have hne : s ≠ [] := by
        rw [hs]
        exact List.append_ne_nil_of_left_ne_nil (padding.encryptString_ne_nil _) _
      rw [padding.decryptPortionData_of_lt hlt, if_neg hne, padding.decryptString_eq_some,
        ← List.append_nil (padding.encryptString (zeros z)), hs] at h
      obtain ⟨-, hrest⟩ := padding_zeros_inj h
      cases ns with
      | nil =>
        rw [aligned_singleton, ← hsize]
        rw [hs, hrest, List.append_nil] at hlt
        exact hlt.le
      | cons n' ns =>
        rw [List.map_cons, Cipher.stream_cons] at hrest
        exact absurd (List.append_eq_nil_iff.mp hrest).1 (padding.encryptString_ne_nil _)
    · have htake : (s.take portionSize).length = portionSize := by
        rw [List.length_take]
        omega
      rw [← List.take_append_drop portionSize s, padding.decryptPortionData_append htake] at h
      obtain ⟨a, ha, hab⟩ := Option.bind_eq_some_iff.mp h
      obtain ⟨b, hb, heq⟩ := Option.map_eq_some_iff.mp hab
      obtain ⟨-, hzeros, hzeros'⟩ := List.append_eq_replicate_iff.mp heq
      rw [padding.decryptString_eq_some, hzeros] at ha
      have hfirst : padding.encryptString (zeros n) ++ padding.stream (ns.map zeros) =
          padding.encryptString (zeros a.length) ++ s.drop portionSize := by
        rw [← hs]
        conv_lhs => rw [← List.take_append_drop portionSize s, ha]
        rw [zeros]
      obtain ⟨hn, hrest⟩ := padding_zeros_inj hfirst
      have hfull : encryptedSize n = portionSize := by
        rw [← hsize, hn, zeros, ← ha]
        exact htake
      have hns : Aligned ns := by
        rw [← hrest, hzeros'] at hb
        exact ih hb
      cases ns with
      | nil => exact aligned_singleton.mpr hfull.le
      | cons n' ns => exact (aligned_cons (List.cons_ne_nil _ _)).mpr ⟨hfull, hns⟩

/-! ### What the kernel makes -/

/-- How `add_content_to_recording_chunk` groups what comes, `w` being the size of it when it is
encrypted; the rest is saved when the recording stops. -/
def recordingChunks {α : Type} (w : α → ℕ) : List α → List α → List (List α)
  | chunk, [] => [chunk]
  | chunk, m :: ms =>
    if Livestream.recordingMaxChunkSize ≤ ((chunk ++ [m]).map w).sum then
      (chunk ++ [m]) :: recordingChunks w [] ms
    else recordingChunks w (chunk ++ [m]) ms

/-- Where an encrypted object of the content type `video/mp2t` comes from: a file of a size, or a
livestream with messages of these sizes. -/
inductive Origin
  | upload (size : ℕ)
  | recording (sizes : List ℕ)

/-- The sizes of the messages that each piece of an object is made of. -/
def Origin.pieces (g : ℕ → UUID) : Origin → List (List ℕ)
  | .upload size => (Kernel.piecesJson maxChunkSize size g).entries.map fun e => [e.2.size]
  | .recording sizes => recordingChunks encryptedSize [] sizes

/-- **The law**: every piece is read back from what is stored of it. -/
def Decrypts (cipher : Cipher) (pieces : List (List Bytes)) : Prop :=
  ∀ ms ∈ pieces, cipher.decryptPortionData (cipher.stream ms) = some ms.flatten

/-- Messages of zeros of any sizes. -/
theorem map_length_zeros (ns : List ℕ) : (ns.map zeros).map List.length = ns := by
  rw [List.map_map, show List.length ∘ zeros = id from funext length_zeros, List.map_id]

/-- Together they are zeros as well. -/
theorem flatten_zeros (ns : List ℕ) : (ns.map zeros).flatten = zeros ns.sum := by
  induction ns with
  | nil => rfl
  | cons n ns ih =>
    rw [List.map_cons, List.flatten_cons, ih, List.sum_cons, zeros, zeros, zeros,
      List.replicate_append_replicate]

/-- Messages that the cipher that only pads lets through. -/
theorem aligned_of_decrypts {sizes : List (List ℕ)}
    (h : Decrypts padding (sizes.map (·.map zeros))) {ns : List ℕ} (hns : ns ∈ sizes) :
    Aligned ns := by
  have hread := h (ns.map zeros) (List.mem_map_of_mem hns)
  rw [flatten_zeros] at hread
  exact aligned_of_padding hread

/-- Pieces of such messages. -/
theorem map_map_length_zeros (sizes : List (List ℕ)) :
    (sizes.map (·.map zeros)).map (·.map List.length) = sizes := by
  rw [List.map_map]
  exact (List.map_congr_left fun ns _ => map_length_zeros ns).trans (List.map_id sizes)

/-- **Portions undo the encryption exactly if** the messages of every piece fill them. -/
theorem portions_decrypt_iff (g : ℕ → UUID) (o : Origin) :
    (∀ (cipher : Cipher) (pieces : List (List Bytes)),
      pieces.map (·.map List.length) = o.pieces g → Decrypts cipher pieces) ↔
    ∀ ns ∈ o.pieces g, Aligned ns := by
  constructor
  · intro h ns hns
    exact aligned_of_decrypts (h padding _ (map_map_length_zeros _)) hns
  · intro h cipher pieces hpieces ms hms
    refine cipher.decryptPortionData_stream (h _ ?_)
    rw [← hpieces]
    exact List.mem_map_of_mem hms

/-- A file is read back exactly if it has no pieces. -/
theorem aligned_upload_iff {g : ℕ → UUID} (hg : Kernel.Distinct g) {size : ℕ}
    (hsize : size < 2 ^ 64) :
    (∀ ns ∈ (Origin.upload size).pieces g, Aligned ns) ↔ size ≤ maxChunkSize := by
  constructor
  · intro h
    by_contra hbig
    have hfirst := (Kernel.lookup_piecesJson (u := g 0) (by decide) hsize (not_le.mp hbig) hg).mpr
      ⟨0, Nat.zero_le _, rfl, rfl⟩
    have hrounds : 0 < Kernel.rounds maxChunkSize size :=
      Nat.div_pos (Nat.le_sub_one_of_lt (not_le.mp hbig)) (by decide)
    have haligned := h _ (List.mem_map_of_mem (AList.mem_lookup_iff.mp hfirst))
    rw [aligned_singleton, Kernel.pieceAt, if_pos hrounds] at haligned
    have hfits : encryptedSize maxChunkSize ≤ portionSize := haligned
    exact absurd hfits (by decide)
  · intro h
    rw [Origin.pieces, Kernel.piecesJson, if_pos h]
    intro ns hns
    cases hns

/-- **A file of two pieces** is not read back. -/
theorem not_portions_decrypt : ¬ ∀ (g : ℕ → UUID) (o : Origin) (cipher : Cipher)
    (pieces : List (List Bytes)),
    pieces.map (·.map List.length) = o.pieces g → Decrypts cipher pieces := by
  intro h
  have hsize : 7000001 < 2 ^ 64 := by decide
  have hle := (aligned_upload_iff Kernel.distinct_counting hsize).mp fun ns hns =>
    aligned_of_decrypts (h Kernel.counting _ padding _ (map_map_length_zeros _)) hns
  exact absurd hle (by decide)

/-! ### Recordings of a livestream -/

section Recording

open Livestream (LivestreamInfo addContentToRecordingChunk
  addLivestreamChunkToAllRecordings recordingMaxChunkSize)

variable {li : LivestreamInfo} {cipher : Cipher}

/-- The chunks that are saved while messages come, and when the recording stops. Where a chunk is
saved to does not matter to the buffer. -/
def savedChunks (li : LivestreamInfo) : List Bytes → List Bytes
  | [] => [li.recChunk]
  | d :: ds =>
    let next := (addContentToRecordingChunk ∅ li d d.length 0).2
    if next.recChunk = [] then (li.recChunk ++ d) :: savedChunks next ds else savedChunks next ds

/-- The size of a piece when it is stored. -/
theorem length_stream (ms : List Bytes) :
    (cipher.stream ms).length = (ms.map fun m => encryptedSize m.length).sum := by
  induction ms with
  | nil => rfl
  | cons m ms ih =>
    rw [Cipher.stream_cons, List.length_append, ih, cipher.length_encryptString, List.map_cons,
      List.sum_cons]

/-- What comes later is stored behind it. -/
theorem stream_append (ms : List Bytes) (m : Bytes) :
    cipher.stream (ms ++ [m]) = cipher.stream ms ++ cipher.encryptString m := by
  simp [Cipher.stream]

/-- **What is saved of a recording**: the messages as `recordingChunks` groups them. -/
theorem savedChunks_eq (hrec : li.recordings ≠ []) {chunk : List Bytes}
    (hchunk : li.recChunk = cipher.stream chunk) (ms : List Bytes) :
    savedChunks li (ms.map cipher.encryptString) =
      (recordingChunks (fun m => encryptedSize m.length) chunk ms).map cipher.stream := by
  induction ms generalizing li chunk with
  | nil => rw [List.map_nil, savedChunks, recordingChunks, hchunk, List.map_singleton]
  | cons m ms ih =>
    have hbuffer : li.recChunk ++ cipher.encryptString m = cipher.stream (chunk ++ [m]) := by
      rw [hchunk, stream_append]
    have hsize : ((chunk ++ [m]).map fun m => encryptedSize m.length).sum =
        (cipher.stream (chunk ++ [m])).length := (length_stream _).symm
    rw [List.map_cons, savedChunks, recordingChunks, hsize, addContentToRecordingChunk,
      if_neg hrec]
    dsimp only
    rw [hbuffer]
    by_cases hfull : recordingMaxChunkSize ≤ (cipher.stream (chunk ++ [m])).length
    · -- the buffer is saved for every recording, and empty
      rw [if_pos hfull, if_pos hfull, if_pos rfl, addLivestreamChunkToAllRecordings, if_neg hrec,
        List.map_cons]
      exact congrArg _ (ih (fun hnil => hrec (List.map_eq_nil_iff.mp hnil)) rfl)
    · have hne : cipher.stream (chunk ++ [m]) ≠ [] := by
        rw [stream_append]
        exact List.append_ne_nil_of_right_ne_nil _ (cipher.encryptString_ne_nil m)
      rw [if_neg hfull, if_neg hfull, if_neg hne]
      refine ih ?_ ?_
      · exact hrec
      · rfl

/-- Only the sizes of the messages decide how they are grouped. -/
theorem recordingChunks_map {α β : Type} (f : α → β) (w : β → ℕ) (chunk ms : List α) :
    (recordingChunks (fun m => w (f m)) chunk ms).map (·.map f) =
      recordingChunks w (chunk.map f) (ms.map f) := by
  induction ms generalizing chunk with
  | nil => rfl
  | cons m ms ih =>
    have hchunk : (chunk ++ [m]).map f = chunk.map f ++ [f m] := by
      rw [List.map_append, List.map_singleton]
    have hsum : ((chunk ++ [m]).map fun m => w (f m)).sum = ((chunk.map f ++ [f m]).map w).sum := by
      rw [← hchunk, List.map_map]
      rfl
    rw [List.map_cons, recordingChunks, recordingChunks, hsum]
    split_ifs
    · rw [List.map_cons, hchunk, ih, List.map_nil]
    · rw [ih, hchunk]

/-- **The pieces of a recording** are those of its origin. -/
theorem savedChunks_pieces (hrec : li.recordings ≠ []) (hempty : li.recChunk = []) (g : ℕ → UUID)
    (ms : List Bytes) : ∃ pieces : List (List Bytes),
      savedChunks li (ms.map cipher.encryptString) = pieces.map cipher.stream ∧
      pieces.map (·.map List.length) = (Origin.recording (ms.map List.length)).pieces g := by
  have hchunk : li.recChunk = cipher.stream [] := hempty
  exact ⟨recordingChunks (fun m => encryptedSize m.length) [] ms, savedChunks_eq hrec hchunk ms,
    recordingChunks_map List.length encryptedSize [] ms⟩

end Recording

end KeyManager

end Metax
