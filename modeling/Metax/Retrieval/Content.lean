import Metax.Kernel.Chunking
import Metax.Retrieval.Answers

/-!
# What is saved is what is got

A save leaves a master object and pieces behind (`Saved`), encrypted or not. When what arrives for a
get is what the save left behind (`Honest`), in whatever order the pieces come, from the storage or
from the router, every answer of the kernel is the content that was saved, or `get_fail` if some
part could not be got or gets were blocked (`answer_of_run`). Where nothing failed, everybody whose
get was let in has been answered with the content when nothing is on its way any more
(`answered_with_content`).

Three things have to be so for this: the offset of a piece is kept in 32 bits, so the last piece
has to start below `2 ^ 32`; the content is no stream, for a stream is sent in chunks; and the ids
of the kernel last.
-/

namespace Metax

namespace Retrieval

open Ledger (Table)
open Kernel (masterContent piecesJson getPieceDataForSave rounds)

/-! ### What a save leaves behind -/

/-- Where the piece of that name is, without its key. -/
def layout (pieces : Pieces) (u : UUID) : Option (ℕ × ℕ) :=
  (pieces.lookup u).map fun p => (p.start, p.size)

/-- A save that was done: the request, the uuids of its pieces, and its master object. Each piece
has a key of its own if the object is encrypted. -/
structure Saved (codec : Codec) (maxSize : ℕ) where
  request : Request
  g : ℕ → UUID
  master : MasterJson
  maxSize_pos : 0 < maxSize
  maxSize_lt : maxSize < 2 ^ 32
  length_lt : request.source.data.length < 2 ^ 64
  last_lt : rounds maxSize request.source.data.length * maxSize < 2 ^ 32
  distinct : Kernel.Distinct g
  size : master.size = request.source.data.length
  contentType : master.contentType = request.contentType
  content : master.content = masterContent codec maxSize request
  cut : ∀ u, layout master.pieces u = layout (piecesJson maxSize request.source.data.length g) u
  keys : ∀ u p, master.pieces.lookup u = some p → (p.aesKey = none ↔ request.aesKey = none)
  whole : ∀ k ∈ request.aesKey, Whole k
  wholePieces : ∀ u p, master.pieces.lookup u = some p → ∀ k ∈ p.aesKey, Whole k

/-- Data that is encrypted if there is a key. -/
def sealWith (codec : Codec) (key : Option AesKey) (data : Bytes) : Bytes :=
  key.elim data fun k => codec.encrypt k data

variable {codec : Codec} {maxSize : ℕ}

namespace Saved

variable (o : Saved codec maxSize)

/-- What is stored under the uuid of the object. -/
def masterBytes : Bytes := sealWith codec o.request.aesKey (codec.stringify o.master)

/-- What is stored under the uuid of a piece. -/
def pieceBytes (p : Piece) : Bytes :=
  sealWith codec p.aesKey (getPieceDataForSave o.request p.start p.size)

/-- What the third-party code has to read back. -/
structure Reads : Prop where
  parse : codec.parse (codec.stringify o.master) = some (masterInfo o.master)
  base64 : ∀ b, codec.base64Decode (codec.base64Encode b) = b
  decrypt : ∀ k b, codec.decrypt k (codec.encrypt k b) = some b

end Saved

theorem layout_eq_some {pieces : Pieces} {u : UUID} {x : ℕ × ℕ} :
    layout pieces u = some x ↔ ∃ p, pieces.lookup u = some p ∧ (p.start, p.size) = x := by
  rw [layout, Option.map_eq_some_iff]

/-- A key of a piece does not change the layout. -/
theorem layout_insert {pieces : Pieces} {u : UUID} {p : Piece} (hp : pieces.lookup u = some p)
    (key : Option AesKey) (v : UUID) :
    layout (pieces.insert u { p with aesKey := key }) v = layout pieces v := by
  rw [layout, layout, Ledger.lookup_insert_ite]
  split_ifs with hv
  · rw [hv, hp]
    rfl
  · rfl

/-- `handle_save_after_piece_encrypt` gives a piece its key and leaves all pieces where they are. -/
theorem layout_of_handleSaveAfterPieceEncrypt {cfg : KernelCfg} {k k' : Kernel} {uid rid : ID32}
    {enc : Bytes} {key : AesKey} {r' : Request}
    (h : Kernel.handleSaveAfterPieceEncrypt cfg k uid enc key = some k')
    (hr' : k'.requests.lookup rid = some r') :
    ∃ r, k.requests.lookup rid = some r ∧ r'.source = r.source ∧
      ∀ v, layout r'.masterJson v = layout r.masterJson v := by
  unfold Kernel.handleSaveAfterPieceEncrypt at h
  split at h
  · obtain rfl := Option.some.inj h
    exact ⟨r', hr', rfl, fun _ => rfl⟩
  · rename_i u hu
    obtain ⟨r, hr, h⟩ := Option.bind_eq_some_iff.mp h
    obtain ⟨-, h⟩ := pocoAssert_eq_some.mp h
    obtain ⟨p, hp, h⟩ := Option.bind_eq_some_iff.mp h
    -- neither of the two that send the piece off touches the requests
    have hins : (k.requests.insert u.mainRequest
        { r with masterJson := r.masterJson.insert u.uuid { p with aesKey := some key } }).lookup
          rid = some r' := by
      dsimp only at h
      split_ifs at h <;> obtain rfl := Option.some.inj h <;> exact hr'
    obtain ⟨rfl, rfl⟩ | ⟨-, hother⟩ := Ledger.eq_or_of_lookup_insert hins
    · exact ⟨r, hr, rfl, layout_insert hp (some key)⟩
    · exact ⟨r', hother, rfl, fun _ => rfl⟩

/-- **The kernel's save leaves a `Saved` behind**: the master object it makes of a request whose
pieces were cut by `generate_pieces_json` and have got their keys. -/
def Saved.ofRequest (codec : Codec) (r : Request) (g : ℕ → UUID)
    (hlength : r.source.data.length < 2 ^ 64)
    (hlast : rounds maxChunkSize r.source.data.length * maxChunkSize < 2 ^ 32)
    (hdistinct : Kernel.Distinct g)
    (hlayout : ∀ u,
      layout r.masterJson u = layout (Kernel.generatePiecesJson r.source.data.length g) u)
    (hkeys : ∀ u p, r.masterJson.lookup u = some p → (p.aesKey = none ↔ r.aesKey = none))
    (hwhole : ∀ k ∈ r.aesKey, Whole k)
    (hpieces : ∀ u p, r.masterJson.lookup u = some p → ∀ k ∈ p.aesKey, Whole k) :
    Saved codec maxChunkSize where
  request := r
  g := g
  master := Kernel.masterObject codec r
  maxSize_pos := by decide
  maxSize_lt := by decide
  length_lt := hlength
  last_lt := hlast
  distinct := hdistinct
  size := rfl
  contentType := rfl
  content := Kernel.content_masterObject codec r
  cut u := by
    rw [← Kernel.generatePiecesJson_eq]
    exact hlayout u
  keys := hkeys
  whole := hwhole
  wholePieces := hpieces

namespace Saved

variable {o : Saved codec maxSize} {u : UUID} {p : Piece}

/-- An object that fits one chunk has no pieces. -/
theorem pieces_eq_empty (h : o.request.source.data.length ≤ maxSize) :
    o.master.pieces.lookup u = none := by
  have hlayout := o.cut u
  rw [piecesJson, if_pos h, layout, layout, AList.lookup_empty, Option.map_none,
    Option.map_eq_none_iff] at hlayout
  exact hlayout

/-- The pieces are a partition of a larger one. -/
theorem partition (h : maxSize < o.request.source.data.length) :
    Kernel.Partition maxSize o.request.source.data.length
      (piecesJson maxSize o.request.source.data.length o.g) :=
  Kernel.partition_of_lt o.maxSize_pos o.length_lt h o.distinct o.last_lt

/-- A piece of the master object is where one was cut. -/
theorem exists_piece (hp : o.master.pieces.lookup u = some p) :
    ∃ q, (piecesJson maxSize o.request.source.data.length o.g).lookup u = some q ∧
      q.start = p.start ∧ q.size = p.size := by
  have hlayout := o.cut u
  rw [layout_eq_some.mpr ⟨p, hp, rfl⟩] at hlayout
  obtain ⟨q, hq, heq⟩ := layout_eq_some.mp hlayout.symm
  exact ⟨q, hq, (Prod.mk.inj heq).1, (Prod.mk.inj heq).2⟩

theorem length_of_piece (hp : o.master.pieces.lookup u = some p) :
    maxSize < o.request.source.data.length := by
  by_contra h
  rw [pieces_eq_empty (Nat.not_lt.mp h)] at hp
  cases hp

/-- A piece ends within the object, and its size is a number of 32 bits. -/
theorem piece_le (hp : o.master.pieces.lookup u = some p) :
    p.start + p.size ≤ o.request.source.data.length ∧ p.size < 2 ^ 32 := by
  obtain ⟨q, hq, hstart, hsize⟩ := exists_piece hp
  have hpart := partition (length_of_piece hp)
  have hpos := hpart.nonempty u q hq
  have hmost := hpart.atMost u q hq
  have hmax := o.maxSize_lt
  have hlast := (hpart.covers (q.start + q.size - 1)).mp ⟨u, q, hq, by omega, by omega⟩
  constructor
  · rw [← hstart, ← hsize]
    omega
  · rw [← hsize]
    omega

/-- The pieces cover the object. -/
theorem covered (h : maxSize < o.request.source.data.length) {x : ℕ}
    (hx : x < o.request.source.data.length) :
    ∃ u p, o.master.pieces.lookup u = some p ∧ p.start ≤ x ∧ x < p.start + p.size := by
  obtain ⟨u, q, hq, hle, hlt⟩ := ((partition h).covers x).mpr hx
  have hlayout := o.cut u
  rw [layout_eq_some.mpr ⟨q, hq, rfl⟩] at hlayout
  obtain ⟨p, hp, heq⟩ := layout_eq_some.mp hlayout
  obtain ⟨hstart, hsize⟩ := Prod.mk.inj heq
  exact ⟨u, p, hp, by omega, by omega⟩

/-- The data of a piece is its slice of the content. -/
theorem getPieceDataForSave_eq (hp : o.master.pieces.lookup u = some p) :
    getPieceDataForSave o.request p.start p.size =
      (o.request.source.data.drop p.start).take p.size := by
  obtain ⟨hle, -⟩ := piece_le hp
  rw [getPieceDataForSave, List.drop_append_of_le_length (by omega),
    List.take_append_of_le_length (by rw [List.length_drop]; omega)]

/-- A piece has pieces beside it only if the content is not in the master object. -/
theorem content_eq_none (h : maxSize < o.request.source.data.length) : o.master.content = none := by
  rw [o.content, masterContent, if_neg (by omega)]

end Saved

/-! ### What is read back -/

/-- The two strings of a key; both are empty where there is none. -/
def strings (key : Option AesKey) : AesKey := key.getD ⟨[], []⟩

theorem strings_eq {key : AesKey} {k : Option AesKey} (hk : ∀ x ∈ k, Whole x)
    (h : strings k = key) : Plain key ∧ k = none ∨ Whole key ∧ k = some key := by
  cases k with
  | none => exact .inl ⟨h ▸ ⟨rfl, rfl⟩, rfl⟩
  | some x =>
    obtain rfl : x = key := h
    exact .inr ⟨hk x rfl, rfl⟩

/-- The pieces that are read are those that were written. -/
theorem lookup_piecesInfo {p : Pieces} {name : PieceName} {x : PieceInfo} :
    (piecesInfo p).lookup name = some x ↔
      ∃ u q, name = .canonical u ∧ p.lookup u = some q ∧ x = pieceInfo q := by
  rw [← Option.mem_def, AList.mem_lookup_iff, piecesInfo, List.mem_map]
  constructor
  · rintro ⟨⟨u, q⟩, hmem, heq⟩
    cases heq
    exact ⟨u, q, rfl, Pieces.mem_toList.mp hmem, rfl⟩
  · rintro ⟨u, q, rfl, hq, rfl⟩
    exact ⟨(u, q), Pieces.mem_toList.mpr hq, rfl⟩

/-- A request for a piece has the key of the piece. -/
theorem pieceKey_pieceInfo {p : Piece} {key : Option AesKey}
    (hkeys : p.aesKey = none ↔ key = none) :
    Fetch.pieceKey (strings key) (pieceInfo p) = strings p.aesKey := by
  cases hp : p.aesKey with
  | some k => simp [Fetch.pieceKey, pieceInfo, hp, strings]
  | none => simp [Fetch.pieceKey, pieceInfo, hp, strings, hkeys.mp hp]

/-- What was saved can be used. -/
theorem Saved.usable (o : Saved codec maxSize) :
    Usable (masterInfo o.master).pieces (strings o.request.aesKey) := by
  refine Ledger.all_iff.mpr fun name x hx => ?_
  obtain ⟨u, q, rfl, hq, rfl⟩ := lookup_piecesInfo.mp hx
  refine ⟨rfl, ?_⟩
  rw [pieceKey_pieceInfo (o.keys u q hq)]
  rcases strings_eq (o.wholePieces u q hq) rfl with ⟨hplain, -⟩ | ⟨hwhole, -⟩
  · exact .inl hplain
  · exact .inr hwhole

/-! ### What arrives is what was saved -/

/-- The data that arrives is what the save left behind, and the user json has the key of the object
when its master object arrives. The ids of the kernel last. -/
def Honest (o : Saved codec maxSize) (s : Fetch) : Event → Prop
  | .gotMaster data => data = o.masterBytes ∧ strings s.ownedKey = strings o.request.aesKey ∧
      s.requestCounter + (masterInfo o.master).pieces.entries.length < Deletion.idBound
  | .masterDecrypted =>
    s.requestCounter + (masterInfo o.master).pieces.entries.length < Deletion.idBound
  | .gotPiece id data => ∀ r ∈ s.requests.lookup id, ∀ p ∈ o.master.pieces.lookup r.uuid,
      data = o.pieceBytes p
  | .elsewhere c others ownedKey block => Lasts s (.elsewhere c others ownedKey block)
  | .imsGet ims => Lasts s (.imsGet ims)
  | .masterFailed | .pieceDecrypted _ | .pieceFailed _ => True

instance (o : Saved codec maxSize) (s : Fetch) : ∀ e, Decidable (Honest o s e)
  | .gotMaster _ => inferInstanceAs (Decidable (_ ∧ _ ∧ _))
  | .masterDecrypted => inferInstanceAs (Decidable (_ < _))
  | .gotPiece id data => inferInstanceAs (Decidable (∀ r ∈ s.requests.lookup id,
      ∀ p ∈ o.master.pieces.lookup r.uuid, data = o.pieceBytes p))
  | .elsewhere c others ownedKey block =>
    inferInstanceAs (Decidable (Lasts s (.elsewhere c others ownedKey block)))
  | .imsGet ims => inferInstanceAs (Decidable (Lasts s (.imsGet ims)))
  | .masterFailed | .pieceDecrypted _ | .pieceFailed _ => .isTrue trivial

/-- The storage and the router do not have it. -/
def Event.fails : Event → Bool
  | .masterFailed | .pieceFailed _ => true
  | _ => false

variable {o : Saved codec maxSize} {fails : Prop} {s t : Fetch} {l : Leader} {e : Event}
  {es : List Event} {c : ID32} {r : PieceRequest} {file : Bytes}
  {pieces : Table PieceName PieceInfo} {units : List ID32} {a : Answer} {data : Bytes}

/-- The answer is the content, or a refusal, or something failed. -/
def Right (o : Saved codec maxSize) (fails : Prop) (a : Answer) : Prop :=
  a = .getData o.request.source.data o.request.contentType ∨ a.refuses = true ∨
    fails ∧ ∃ m, a = .getFail m

/-- The pieces that were written. -/
def Written (o : Saved codec maxSize) (pieces : Table PieceName PieceInfo) (x : ℕ) : Prop :=
  ∃ u p, o.master.pieces.lookup u = some p ∧ pieces.lookup (.canonical u) = none ∧ p.start ≤ x ∧
    x < p.start + p.size

/-- A request for a piece has the key of the piece, and its data when that is decrypted. -/
def PieceRequest.Fits (o : Saved codec maxSize) (r : PieceRequest) : Prop :=
  ∃ p, o.master.pieces.lookup r.uuid = some p ∧ r.aesKey = strings p.aesKey ∧
    ∀ key pkg, r.place = .decrypting key pkg → p.aesKey = some key ∧ pkg = o.pieceBytes p

/-- The first request has the key of the object, and the pieces that are not left are in its
file. -/
def Leader.Fits (o : Saved codec maxSize) (l : Leader) : Prop :=
  match l.phase with
  | .fetching => l.aesKey = ⟨[], []⟩
  | .decrypting key pkg =>
    l.aesKey = key ∧ o.request.aesKey = some key ∧ pkg = o.masterBytes
  | .streaming => False
  | .getting file pieces _ => l.contentType = o.request.contentType ∧
    (∀ name p, pieces.lookup name = some p → (masterInfo o.master).pieces.lookup name = some p) ∧
      Patches.Agrees o.request.source.data (Written o pieces) file

/-- **The invariant** of the content. -/
structure Faithful (o : Saved codec maxSize) (fails : Prop) (s : Fetch) : Prop where
  leader : ∀ l, s.leader = some l → l.Fits o ∧
    ∀ c r, s.requests.lookup c = some r → r.parentReqId = l.id → r.Fits o
  answers : ∀ a ∈ s.answers, Right o fails a.2

/-- Everybody who waits is answered. -/
theorem Faithful.respond (hs : ∀ a ∈ s.answers, Right o fails a.2) (ha : Right o fails a)
    (h : s.sendImsResponse a = some t) : Faithful o fails t := by
  have hw : s.waiting ≠ [] := by
    intro hnil
    rw [Fetch.sendImsResponse, pocoAssert, if_neg (not_not.mpr hnil)] at h
    cases h
  obtain rfl := Option.some.inj ((sendImsResponse_eq hw).symm.trans h)
  refine ⟨fun l hl => ?_, fun x hx => ?_⟩
  · cases hl
  · rcases List.mem_append.mp hx with hx | hx
    · exact hs x hx
    · obtain ⟨w, -, rfl⟩ := List.mem_map.mp hx
      exact ha

/-- Posts do not change what fits. -/
theorem fits_of_posts {requests requests' : Table ID32 PieceRequest} {id : ID32}
    (hp : Posts requests requests')
    (h : ∀ c r, requests.lookup c = some r → r.parentReqId = id → r.Fits o) :
    ∀ c r, requests'.lookup c = some r → r.parentReqId = id → r.Fits o := by
  intro c r' hr' hparent'
  obtain ⟨r, hr, huuid, hparent, hkey, hplace⟩ := hp.back c r' hr'
  obtain ⟨p, hpiece, hpkey, hdec⟩ := h c r hr (hparent ▸ hparent')
  refine ⟨p, huuid ▸ hpiece, hkey.trans hpkey, fun key pkg hk => ?_⟩
  rcases hplace with hplace | hplace
  · exact hdec key pkg (hplace ▸ hk)
  · rw [hplace] at hk
    cases hk

/-- The blank file has the length of the content, and nothing is written yet. -/
theorem agrees_prepareFileWrite (h : maxSize < o.request.source.data.length) :
    Patches.Agrees o.request.source.data (Written o (masterInfo o.master).pieces)
      (prepareFileWrite codec (masterInfo o.master)) := by
  refine Patches.agrees_of_length ?_ fun x ⟨u, p, hp, hnone, _⟩ => ?_
  · have hne : ¬ o.request.source.data.length = 0 := by omega
    rw [prepareFileWrite, masterInfo, Saved.content_eq_none h, o.size]
    dsimp only
    rw [if_neg hne, Patches.write]
    simp only [List.nil_append, List.length_nil, Nat.sub_zero, List.drop_nil, List.append_nil,
      List.length_append, List.length_take, List.length_replicate, List.length_singleton]
    omega
  · exact Option.some_ne_none _ ((lookup_piecesInfo.mpr ⟨u, p, rfl, hp, rfl⟩).symm.trans hnone)

/-- A piece goes to its place. -/
theorem agrees_write {u : UUID} {p : Piece} (hp : o.master.pieces.lookup u = some p)
    (h : Patches.Agrees o.request.source.data (Written o pieces) file) :
    Patches.Agrees o.request.source.data (Written o (pieces.erase (.canonical u)))
      (Patches.write 0 file p.start (getPieceDataForSave o.request p.start p.size)) := by
  rw [Saved.getPieceDataForSave_eq hp]
  refine (h.write (Saved.piece_le hp).1).mono fun x ⟨v, q, hq, hnone, hx⟩ => ?_
  rw [Ledger.lookup_erase_ite] at hnone
  split_ifs at hnone with hv
  · obtain rfl := PieceName.canonical.inj hv
    obtain rfl := Option.some.inj (hp.symm.trans hq)
    exact .inr hx
  · exact .inl ⟨v, q, hq, hnone, hx⟩

/-- **The last piece completes the file.** -/
theorem eq_of_empty {u : UUID} {p : Piece} (hp : o.master.pieces.lookup u = some p)
    (hempty : pieces.entries.length = 0)
    (h : Patches.Agrees o.request.source.data (Written o pieces) file) :
    file = o.request.source.data := by
  refine h.eq fun x hx => ?_
  obtain ⟨v, q, hq, hx⟩ := Saved.covered (Saved.length_of_piece hp) hx
  refine ⟨v, q, hq, ?_, hx⟩
  rw [AList.lookup_eq_none, AList.mem_keys, AList.keys, List.keys,
    List.length_eq_zero_iff.mp hempty]
  exact List.not_mem_nil

/-- A request for a piece goes. -/
theorem Faithful.eraseRequest (hs : Faithful o fails s) (c : ID32) :
    Faithful o fails (s.eraseRequest c) where
  leader l hl := by
    obtain ⟨hfits, hpieces⟩ := hs.leader l hl
    exact ⟨hfits, fun c' r' hr' => hpieces c' r' (Ledger.of_lookup_erase hr').2⟩
  answers := hs.answers

/-- A piece is written, and the file is sent with the last one. -/
theorem Faithful.processUnencryptedPiece (hs : Faithful o fails s)
    (hl : (l.at file pieces units).Fits o)
    (hfit : ∀ c r, s.requests.lookup c = some r → r.parentReqId = l.id → r.Fits o)
    {p : Piece} (hp : o.master.pieces.lookup r.uuid = some p)
    (hdata : data = getPieceDataForSave o.request p.start p.size)
    (h : s.processUnencryptedPiece (l.at file pieces units) c r data = some t) :
    Faithful o fails t := by
  obtain ⟨htype, hsub, hagrees⟩ := hl
  obtain ⟨⟨u, thrown⟩, hu, rfl⟩ := Option.map_eq_some_iff.mp h
  obtain ⟨x, hx, hu⟩ := Option.bind_eq_some_iff.mp hu
  obtain ⟨v, q, hname, hq, rfl⟩ := lookup_piecesInfo.mp (hsub _ x hx)
  obtain rfl := PieceName.canonical.inj hname
  obtain rfl := Option.some.inj (hp.symm.trans hq)
  obtain ⟨-, hu⟩ := pocoAssert_eq_some.mp hu
  have hwritten := agrees_write hp hagrees
  rw [← hdata] at hwritten
  dsimp only [pieceInfo] at hu
  split_ifs at hu with hempty
  · obtain ⟨v, hv, heq⟩ := Option.map_eq_some_iff.mp hu
    obtain ⟨rfl, rfl⟩ := Prod.mk.inj heq
    refine (Faithful.respond hs.answers (.inl ?_) hv).eraseRequest c
    rw [eq_of_empty hp hempty hwritten]
    exact congrArg _ htype
  · obtain ⟨rfl, rfl⟩ := Prod.mk.inj (Option.some.inj hu)
    have hset : Faithful o fails (s.setLeader (l.at (Patches.write 0 file p.start data)
        (pieces.erase (.canonical r.uuid)) units)) := by
      refine ⟨fun l' hl' => ?_, hs.answers⟩
      obtain rfl := Option.some.inj hl'
      exact ⟨⟨htype, fun name q hq => hsub name q (Ledger.of_lookup_erase hq).2, hwritten⟩, hfit⟩
    exact hset.eraseRequest c

/-- The file of an object without pieces is its content. -/
theorem prepareFileWrite_of_le (ho : o.Reads) (h : o.request.source.data.length ≤ maxSize) :
    prepareFileWrite codec (masterInfo o.master) = o.request.source.data := by
  rw [prepareFileWrite, masterInfo, o.content, masterContent, if_pos h]
  dsimp only
  rw [ho.base64, Kernel.getPieceDataForSave_all]

/-- The loop over pieces that were saved comes to its end. -/
theorem constructGetRequests_ne_none {ps : List (Σ _ : PieceName, PieceInfo)} (hb : s.Bounded)
    (hid : l.id < s.requestCounter) (hroom : s.requestCounter + ps.length < Deletion.idBound)
    (hsub : ∀ e ∈ ps, (masterInfo o.master).pieces.lookup e.1 = some e.2) :
    (Fetch.constructGetRequests l (masterInfo o.master).pieces s ps units).2 ≠ none := by
  induction ps generalizing s units with
  | nil => exact Option.some_ne_none units
  | cons e ps ih =>
    obtain ⟨name, x⟩ := e
    have hx := hsub _ List.mem_cons_self
    obtain ⟨u, q, rfl, hq, rfl⟩ := lookup_piecesInfo.mp hx
    have hread : Fetch.readPiece (.canonical u) (pieceInfo q) = some u :=
      if_pos (Saved.piece_le hq).2
    have hone : s.requestCounter + 1 < Deletion.idBound :=
      (Nat.add_le_add_left (Nat.succ_le_succ (Nat.zero_le ps.length)) _).trans_lt hroom
    rw [Fetch.constructGetRequests, hread]
    simp only [Fetch.constructGetRequestForPiece, hb.getRequestId hone, hx]
    have hmade : Made l (masterInfo o.master).pieces s _ :=
      Made.insert (r := ⟨u, l.id, Fetch.pieceKey l.aesKey (pieceInfo q), .idle⟩) hb hid rfl rfl
        (.inl ⟨_, hx, rfl⟩)
    refine ih hmade.bounded (Nat.lt_succ_of_lt hid) ?_ fun e he =>
      hsub e (List.mem_cons_of_mem _ he)
    change s.requestCounter + 1 + ps.length < Deletion.idBound
    rw [Nat.add_assoc, Nat.add_comm 1]
    exact hroom

/-- The pieces start to be got: there are none, or all of them are left. -/
theorem Faithful.startGettingPieces (ho : o.Reads) (hs : Faithful o fails s)
    (hkey : l.aesKey = strings o.request.aesKey) (htype : l.contentType = o.request.contentType)
    (hled : Led s l.id)
    (hroom : s.requestCounter + (masterInfo o.master).pieces.entries.length < Deletion.idBound)
    (hnone : ∀ c r, s.requests.lookup c = some r → r.parentReqId ≠ l.id)
    (h : s.startGettingPieces codec l (masterInfo o.master) = some t) : Faithful o fails t := by
  unfold Fetch.startGettingPieces at h
  dsimp only at h
  -- above the bound the content is in pieces; up to it the master object carries it
  by_cases hbig : maxSize < o.request.source.data.length
  · have hnonempty : ¬ (masterInfo o.master).pieces.entries.length = 0 := by
      intro hempty
      obtain ⟨u, p, hp, -⟩ := Saved.covered hbig (Nat.zero_lt_of_lt hbig)
      have hmem := AList.mem_lookup_iff.mp (lookup_piecesInfo.mpr ⟨u, p, rfl, hp, rfl⟩)
      rw [show (piecesInfo o.master.pieces).entries = [] from List.length_eq_zero_iff.mp hempty]
        at hmem
      cases hmem
    -- the requests for the pieces are made, each under an id of its own
    rw [if_neg hnonempty] at h
    have hsub : ∀ e ∈ (masterInfo o.master).pieces.entries,
        (masterInfo o.master).pieces.lookup e.1 = some e.2 :=
      fun e he => AList.mem_lookup_iff.mpr he
    obtain ⟨u, made, hu, hmade, hall⟩ := constructGetRequests_spec hled.bounded hled.id_lt hroom
      hsub (hkey ▸ o.usable)
      (show (([] : List UUID).map PieceName.canonical ++ (masterInfo o.master).pieces.keys).Nodup
        from (masterInfo o.master).pieces.keys_nodup) (children_nil hnone)
    have hsome : (Fetch.constructGetRequests l (masterInfo o.master).pieces s
        (masterInfo o.master).pieces.entries []).2 ≠ none :=
      constructGetRequests_ne_none hled.bounded hled.id_lt hroom hsub
    rw [hu] at hsome
    obtain ⟨units, rfl⟩ := Option.ne_none_iff_exists'.mp hsome
    rw [hu] at h
    dsimp only at h
    -- what is left of the pieces is what the requests are for
    obtain ⟨us, hus, -, hchildren⟩ := hall units rfl
    have hleft := hchildren.congr fun u => left_iff_of_names hus
    obtain ⟨v, units', hv, hlv, hwithin, hposts, -, -⟩ :=
      postStorageFirstPieces_spec (n := maxGetCount)
        (s := u.setLeader (l.at (prepareFileWrite codec (masterInfo o.master))
          (masterInfo o.master).pieces units)) rfl hleft fun h => by cases h
    change Fetch.postStorageFirstPieces l (prepareFileWrite codec (masterInfo o.master))
      (masterInfo o.master).pieces maxGetCount (u.setLeader { l with
        phase := .getting (prepareFileWrite codec (masterInfo o.master))
          (masterInfo o.master).pieces units }) units = (v, true) at hv
    rw [hv] at h
    obtain rfl := Option.some.inj h
    -- the leader is now at the pieces, with its requests waiting
    refine ⟨fun l' hl' => ?_, ?_⟩
    · obtain rfl := Option.some.inj (hlv.symm.trans hl')
      refine ⟨⟨htype, fun _ _ hp => hp, agrees_prepareFileWrite hbig⟩, ?_⟩
      refine fits_of_posts hposts fun c r hr hparent => ?_
      rcases hmade.back c r hr with hr | ⟨-, hidle, hpiece⟩
      · exact absurd hparent (hnone c r hr)
      · -- every request was made for a piece of the master object
        obtain ⟨x, hx⟩ := Option.ne_none_iff_exists'.mp (hleft.child c r hr hparent).1
        obtain ⟨w, q, hname, hq, rfl⟩ := lookup_piecesInfo.mp hx
        obtain rfl := PieceName.canonical.inj hname
        refine ⟨q, hq, ?_, fun key pkg hplace => ?_⟩
        · rcases hpiece with ⟨x, hx', hkey'⟩ | ⟨habsent, -⟩
          · obtain rfl := Option.some.inj (hx.symm.trans hx')
            rw [hkey', hkey]
            exact pieceKey_pieceInfo (o.keys _ q hq)
          · exact absurd (hx.symm.trans habsent) (Option.some_ne_none _)
        · rw [hidle] at hplace
          cases hplace
    · rw [hwithin.answers]
      intro a ha
      exact hs.answers a (hmade.answers ▸ ha)
  -- without pieces the content of the master object is the answer
  · have hempty : (masterInfo o.master).pieces.entries.length = 0 := by
      rw [List.length_eq_zero_iff]
      refine List.eq_nil_iff_forall_not_mem.mpr fun ⟨name, x⟩ hmem => ?_
      obtain ⟨u, p, -, hp, -⟩ := lookup_piecesInfo.mp (AList.mem_lookup_iff.mpr hmem)
      rw [Saved.pieces_eq_empty (Nat.not_lt.mp hbig)] at hp
      cases hp
    rw [if_pos hempty] at h
    refine Faithful.respond hs.answers (.inl ?_) h
    rw [prepareFileWrite_of_le ho (Nat.not_lt.mp hbig), htype]

/-- The master object was read. -/
theorem Faithful.handleUnencryptedMasterObject (ho : o.Reads)
    (hstream : isStreamingMedia o.request.contentType = false) (hs : Faithful o fails s)
    (hkey : l.aesKey = strings o.request.aesKey) (hled : Led s l.id)
    (hroom : s.requestCounter + (masterInfo o.master).pieces.entries.length < Deletion.idBound)
    (hnone : ∀ c r, s.requests.lookup c = some r → r.parentReqId ≠ l.id)
    (h : s.handleUnencryptedMasterObject codec l (codec.stringify o.master) = some t) :
    Faithful o fails t := by
  unfold Fetch.handleUnencryptedMasterObject at h
  rw [ho.parse] at h
  dsimp only [masterInfo] at h
  rw [o.contentType, hstream] at h
  exact Faithful.startGettingPieces (l := { l with contentType := o.request.contentType }) ho hs
    hkey rfl hled hroom hnone h

/-- What is encrypted is decrypted with the same key. -/
theorem decrypt_sealWith (ho : o.Reads) (key : AesKey) (b : Bytes) :
    codec.decrypt key (sealWith codec (some key) b) = some b := ho.decrypt key b

/-- The data of a piece arrives. -/
theorem Faithful.handlePiece (hsound : Sound s) (hs : Faithful o fails s)
    (hr : s.requests.lookup c = some r)
    (hdata : ∀ p ∈ o.master.pieces.lookup r.uuid, data = o.pieceBytes p)
    (h : s.handlePiece c r data = some t) : Faithful o fails t := by
  unfold Fetch.handlePiece at h
  cases hparent : s.parent r.parentReqId with
  | none =>
    rw [hparent] at h
    obtain rfl := Option.some.inj h
    exact hs.eraseRequest c
  | some l =>
    obtain ⟨hl, hid⟩ := parent_eq_some.mp hparent
    obtain ⟨file, pieces, units, hphase, hgets⟩ := hsound.getting_of_child hl hr hid.symm
    obtain ⟨hlfits, hfits⟩ := hs.leader l hl
    obtain ⟨p, hp, hkey, -⟩ := hfits c r hr hid.symm
    obtain rfl := hdata p hp
    have hlat : s.leader = some (l.at file pieces units) := by
      rw [Leader.at_eq hphase]
      exact hl
    obtain ⟨u, units', hu, hlu, hwithin, hposts, -, -, -, -⟩ :=
      postStorageNextPieceGetRequest_spec hlat hgets.children
    -- the leader still fits, with the units that are left
    have hlfits' : (l.at file pieces units').Fits o := by
      rw [Leader.Fits, hphase] at hlfits
      exact hlfits
    have hfits' := fits_of_posts hposts hfits
    have hanswers : ∀ a ∈ u.answers, Right o fails a.2 := by
      rw [hwithin.answers]
      exact hs.answers
    have hfaithful : Faithful o fails u := by
      refine ⟨fun l' hl' => ?_, hanswers⟩
      obtain rfl := Option.some.inj (hlu.symm.trans hl')
      exact ⟨hlfits', hfits'⟩
    rw [hparent] at h
    dsimp only at h
    rw [hphase] at h
    dsimp only at h
    rw [hu, Option.bind_some] at h
    rcases strings_eq (o.wholePieces _ p hp) hkey.symm with ⟨hplain, hnone⟩ | ⟨hwhole, hsome⟩
    · dsimp only at h
      rw [if_pos hplain] at h
      refine hfaithful.processUnencryptedPiece hlfits' hfits' hp ?_ h
      rw [Saved.pieceBytes, hnone]
      rfl
    · have hplain : ¬ Plain r.aesKey := fun hplain => hwhole.1 hplain.1
      dsimp only at h
      rw [if_neg hplain, pocoAssert, if_pos hwhole] at h
      obtain rfl := Option.some.inj h
      refine ⟨fun l' hl' => ?_, hanswers⟩
      obtain rfl := Option.some.inj (hlu.symm.trans hl')
      refine ⟨hlfits', Ledger.forall_lookup_insert hfits' fun _ => ⟨p, hp, hkey, ?_⟩⟩
      intro key' pkg hk
      obtain ⟨rfl, rfl⟩ := Place.decrypting.inj hk
      exact ⟨hsome, rfl⟩

/-- A piece was decrypted. -/
theorem Faithful.handleGetRequestAfterDecrypt {pkg : Bytes} {key : AesKey} (ho : o.Reads)
    (hsound : Sound s) (hs : Faithful o fails s) (hr : s.requests.lookup c = some r)
    (hplace : r.place = .decrypting key pkg) (hdata : codec.decrypt key pkg = some data)
    (h : s.handleGetRequestAfterDecrypt c r data = some t) : Faithful o fails t := by
  unfold Fetch.handleGetRequestAfterDecrypt at h
  cases hparent : s.parent r.parentReqId with
  | none =>
    rw [hparent] at h
    obtain rfl := Option.some.inj h
    exact hs.eraseRequest c
  | some l =>
    obtain ⟨hl, hid⟩ := parent_eq_some.mp hparent
    obtain ⟨file, pieces, units, hphase, -⟩ := hsound.getting_of_child hl hr hid.symm
    obtain ⟨hlfits, hfits⟩ := hs.leader l hl
    obtain ⟨p, hp, -, hdec⟩ := hfits c r hr hid.symm
    obtain ⟨hpkey, rfl⟩ := hdec key pkg hplace
    rw [Saved.pieceBytes, hpkey, decrypt_sealWith ho] at hdata
    rw [hparent] at h
    dsimp only at h
    rw [← Leader.at_eq hphase] at hlfits h
    exact hs.processUnencryptedPiece hlfits hfits hp (Option.some.inj hdata).symm h

/-- The key manager fails only with what nobody waits for. -/
theorem Faithful.handleKeyManagerFailedGetRequest {pkg : Bytes} {key : AesKey} (ho : o.Reads)
    (hs : Faithful o fails s) (hr : s.requests.lookup c = some r)
    (hplace : r.place = .decrypting key pkg) (hdata : codec.decrypt key pkg = none)
    (h : s.handleKeyManagerFailedGetRequest c r = some t) : Faithful o fails t := by
  unfold Fetch.handleKeyManagerFailedGetRequest at h
  cases hparent : s.parent r.parentReqId with
  | none =>
    rw [hparent] at h
    obtain rfl := Option.some.inj h
    exact hs.eraseRequest c
  | some l =>
    obtain ⟨hl, hid⟩ := parent_eq_some.mp hparent
    obtain ⟨p, -, -, hdec⟩ := (hs.leader l hl).2 c r hr hid.symm
    obtain ⟨hpkey, rfl⟩ := hdec key pkg hplace
    rw [Saved.pieceBytes, hpkey, decrypt_sealWith ho] at hdata
    cases hdata

/-- A piece was not found. -/
theorem Faithful.handleFailedKernelGetRequest (hs : Faithful o fails s) (hfails : fails)
    (h : s.handleFailedKernelGetRequest c r = some t) : Faithful o fails t := by
  have hsame : (s.setRequest c { r with place := .idle }).parent r.parentReqId =
      s.parent r.parentReqId := rfl
  unfold Fetch.handleFailedKernelGetRequest at h
  dsimp only at h
  rw [hsame] at h
  cases hparent : s.parent r.parentReqId with
  | none =>
    rw [hparent] at h
    obtain rfl := Option.some.inj h
    refine ⟨fun l hl => ⟨(hs.leader l hl).1, Ledger.forall_lookup_insert (hs.leader l hl).2
      fun hp => ?_⟩, hs.answers⟩
    exact absurd hp.symm (ne_of_parent_eq_none hparent hl)
  | some l =>
    rw [hparent] at h
    exact Faithful.respond (s := s.setRequest c { r with place := .idle }) hs.answers
      (.inr (.inr ⟨hfails, _, rfl⟩)) h

/-! ### Steps and runs -/

/-- The master object arrives. -/
theorem Faithful.gotMasterObject (ho : o.Reads)
    (hstream : isStreamingMedia o.request.contentType = false) (hsound : Sound s)
    (hs : Faithful o fails s) (hl : s.leader = some l) (hphase : l.phase = .fetching)
    (howned : strings s.ownedKey = strings o.request.aesKey)
    (hroom : s.requestCounter + (masterInfo o.master).pieces.entries.length < Deletion.idBound)
    (h : s.gotMasterObject codec l o.masterBytes = some t) : Faithful o fails t := by
  have hlfits := (hs.leader l hl).1
  have hnone := hsound.childless hl fun file pieces units hp => by
    rw [hphase] at hp
    cases hp
  have hled := hsound.led hl
  rw [Leader.Fits, hphase] at hlfits
  have hkey : s.ownedKey.getD l.aesKey = strings o.request.aesKey := hlfits ▸ howned
  have hset : ∀ l', l'.id = l.id → l'.Fits o → Faithful o fails (s.setLeader l') := by
    refine fun l' hid hl' => ⟨fun l'' hl'' => ?_, hs.answers⟩
    obtain rfl := Option.some.inj hl''
    exact ⟨hl', fun c r hr hparent => absurd (hparent.trans hid) (hnone c r hr)⟩
  unfold Fetch.gotMasterObject at h
  dsimp only at h
  rw [hkey] at h
  rcases strings_eq o.whole rfl with ⟨hplain, hown⟩ | ⟨hwhole, hown⟩
  · rw [if_pos hplain] at h
    have hbytes : o.masterBytes = codec.stringify o.master := by
      rw [Saved.masterBytes, hown]
      rfl
    have hfits : Leader.Fits o { l with aesKey := strings o.request.aesKey } := by
      rw [Leader.Fits, hphase, hown]
      rfl
    rw [hbytes] at h
    exact Faithful.handleUnencryptedMasterObject
      (l := { l with aesKey := strings o.request.aesKey }) ho hstream
      (hset { l with aesKey := strings o.request.aesKey } rfl hfits) rfl
      ⟨hled.waiting, Option.some_ne_none _, hled.bounded.setLeader _, hled.id_lt, hled.owned⟩ hroom
      hnone h
  · have hplain : ¬ Plain (strings o.request.aesKey) := fun hplain => hwhole.1 hplain.1
    rw [if_neg hplain, pocoAssert, if_pos hwhole] at h
    obtain rfl := Option.some.inj h
    refine hset _ ?_ ?_
    · rfl
    · exact ⟨rfl, hown, rfl⟩

/-- A step with what was saved is regular. -/
theorem Faithful.regular (ho : o.Reads) (hs : Faithful o fails s) (he : Honest o s e) :
    Regular codec s e := by
  have hsaved : ∀ m ∈ codec.parse (codec.stringify o.master), m = masterInfo o.master := by
    intro m hm
    rw [ho.parse] at hm
    exact (Option.some.inj hm).symm
  cases e with
  | elsewhere | imsGet => exact ⟨he, fun a ha => absurd ha (Option.not_mem_none a)⟩
  | masterFailed | gotPiece | pieceDecrypted | pieceFailed =>
    exact ⟨trivial, fun a ha => absurd ha (Option.not_mem_none a)⟩
  | gotMaster data =>
    obtain ⟨rfl, howned, hroom⟩ := he
    refine ⟨trivial, fun a ha m hm => ?_⟩
    obtain ⟨l, hl, ha⟩ := Option.bind_eq_some_iff.mp ha
    have hlfits := (hs.leader l hl).1
    cases hphase : l.phase with
    | decrypting | streaming | getting =>
      rw [hphase] at ha
      exact absurd ha.symm (Option.some_ne_none a)
    | fetching =>
      rw [hphase] at ha
      rw [Leader.Fits, hphase] at hlfits
      have hkey : s.ownedKey.getD l.aesKey = strings o.request.aesKey := hlfits ▸ howned
      rw [hkey] at ha
      dsimp only at ha
      split_ifs at ha with hplain
      obtain rfl := Option.some.inj ha
      rcases strings_eq o.whole rfl with ⟨-, hown⟩ | ⟨hwhole, -⟩
      · rw [Saved.masterBytes, hown] at hm
        obtain rfl := hsaved m hm
        exact ⟨o.usable, hroom⟩
      · exact absurd hplain.1 hwhole.1
  | masterDecrypted =>
    refine ⟨trivial, fun a ha m hm => ?_⟩
    obtain ⟨l, hl, ha⟩ := Option.bind_eq_some_iff.mp ha
    have hlfits := (hs.leader l hl).1
    cases hphase : l.phase with
    | fetching | streaming | getting =>
      rw [hphase] at ha
      exact absurd ha.symm (Option.some_ne_none a)
    | decrypting key pkg =>
      rw [hphase] at ha
      rw [Leader.Fits, hphase] at hlfits
      obtain ⟨hkey, hown, rfl⟩ := hlfits
      obtain ⟨data, hdata, rfl⟩ := Option.map_eq_some_iff.mp ha
      rw [Saved.masterBytes, hown, decrypt_sealWith ho] at hdata
      obtain rfl := Option.some.inj hdata
      obtain rfl := hsaved m hm
      have hstrings : strings o.request.aesKey = l.aesKey := by
        rw [hown, hkey]
        rfl
      exact ⟨hstrings ▸ o.usable, he⟩

/-- **One step** with what was saved keeps what is known of the content. -/
theorem Faithful.step (ho : o.Reads) (hstream : isStreamingMedia o.request.contentType = false)
    (hsound : Sound s) (hs : Faithful o fails s) (he : Honest o s e)
    (hfails : e.fails = true → fails) (h : step codec s e = some t) : Faithful o fails t := by
  have hexpected := expected_of_step h
  cases e with
  | elsewhere c others key block =>
    obtain rfl := Option.some.inj h
    exact ⟨hs.leader, hs.answers⟩
  | imsGet ims =>
    -- a blocked get is answered at once; another one waits behind the older ones or leads
    rw [Retrieval.step, Fetch.handleImsGetRequest, hsound.bounded.getRequestId he] at h
    split_ifs at h with hblock
    · obtain rfl := Option.some.inj h
      refine ⟨hs.leader, fun a ha => ?_⟩
      rcases List.mem_append.mp ha with ha | ha
      · exact hs.answers a ha
      · rw [List.mem_singleton.mp ha]
        exact .inr (.inl (beq_self_eq_true _))
    · obtain rfl := Option.some.inj h
      refine ⟨fun l hl => ?_, hs.answers⟩
      change (if s.waiting = [] then _ else s.leader) = some l at hl
      split_ifs at hl
      · obtain rfl := Option.some.inj hl
        refine ⟨rfl, fun c r hr hparent => ?_⟩
        exact absurd (hsound.bounded.requests c r hr).2 (hparent ▸ Nat.lt_irrefl _)
      · exact hs.leader l hl
  -- the master object, plain or to be decrypted, is the one of the object that is saved
  | gotMaster data =>
    obtain ⟨l, hl, hphase⟩ := hexpected
    rw [Retrieval.step, hl, Option.bind_some, hphase] at h
    obtain ⟨rfl, howned, hroom⟩ := he
    exact hs.gotMasterObject ho hstream hsound hl hphase howned hroom h
  | masterDecrypted =>
    obtain ⟨l, key, pkg, hl, hphase⟩ := hexpected
    have hlfits := (hs.leader l hl).1
    have hnone := hsound.childless hl fun file pieces units hp => by
      rw [hphase] at hp
      cases hp
    rw [Leader.Fits, hphase] at hlfits
    obtain ⟨hkey, hown, rfl⟩ := hlfits
    have hdata : codec.decrypt key o.masterBytes = some (codec.stringify o.master) := by
      rw [Saved.masterBytes, hown]
      exact decrypt_sealWith ho key _
    have hstrings : l.aesKey = strings o.request.aesKey := by
      rw [hown, hkey]
      rfl
    rw [Retrieval.step, hl, Option.bind_some, hphase] at h
    dsimp only at h
    rw [hdata] at h
    exact Faithful.handleUnencryptedMasterObject ho hstream hs hstrings (hsound.led hl) he hnone h
  -- a failure is one of the run, and is reported as such
  | masterFailed =>
    obtain ⟨l, hl, hphase⟩ := hexpected
    rw [Retrieval.step, hl, Option.bind_some, hphase] at h
    exact Faithful.respond hs.answers (.inr (.inr ⟨hfails rfl, _, rfl⟩)) h
  -- a piece, by the request it was made for
  | gotPiece id data =>
    obtain ⟨r, hr, hplace⟩ := hexpected
    rw [Retrieval.step, hr, Option.bind_some, hplace] at h
    exact hs.handlePiece hsound hr (he r hr) h
  | pieceDecrypted id =>
    obtain ⟨r, key, pkg, hr, hplace⟩ := hexpected
    rw [Retrieval.step, hr, Option.bind_some, hplace] at h
    dsimp only at h
    cases hdec : codec.decrypt key pkg with
    | some data =>
      rw [hdec] at h
      exact hs.handleGetRequestAfterDecrypt ho hsound hr hplace hdec h
    | none =>
      rw [hdec] at h
      exact hs.handleKeyManagerFailedGetRequest ho hr hplace hdec h
  | pieceFailed id =>
    obtain ⟨r, hr, hplace⟩ := hexpected
    rw [Retrieval.step, hr, Option.bind_some, hplace] at h
    exact hs.handleFailedKernelGetRequest (hfails rfl) h

theorem faithful_init (uuid : UUID) (n : ID32) : Faithful o fails (Fetch.init uuid n) where
  leader l hl := by cases hl
  answers a ha := by cases ha

variable {uuid : UUID} {n : ID32}

/-- What is known of the content holds in every run with what was saved, and its steps are
regular. -/
theorem faithful_of_run (ho : o.Reads) (hstream : isStreamingMedia o.request.contentType = false)
    (h : Run.run (step codec) (Fetch.init uuid n) es = some s)
    (hhonest : Run.Along (step codec) (Honest o) (Fetch.init uuid n) es) :
    Faithful o (∃ e ∈ es, e.fails = true) s ∧ Counted s (tally es) := by
  have hfails : Run.Along (step codec) (fun _ e => e.fails = true → ∃ e ∈ es, e.fails = true)
      (Fetch.init uuid n) es := Run.along_of_forall fun e he hf => ⟨e, he, hf⟩
  refine Run.foldl_of_run Tally.count
    (fun s n => Faithful o (∃ e ∈ es, e.fails = true) s ∧ Counted s n)
    (fun s e t n hs hok hstep => ?_)
    ⟨faithful_init uuid n, sound_init uuid n, rfl, rfl, rfl⟩ (hhonest.and hfails) h
  obtain ⟨t', ht', hcounted⟩ := step_spec hs.2 (hs.1.regular ho hok.1) (expected_of_step hstep)
  obtain rfl := Option.some.inj (ht'.symm.trans hstep)
  exact ⟨hs.1.step ho hstream hs.2.sound hok.1 hok.2 hstep, hcounted⟩

/-- **What is got is what was saved**: in every run in which what arrives is what the save left
behind, in any order, each answer is the content, or the get was refused, or the answer is
`get_fail` and some part could not be got. -/
theorem answer_of_run (ho : o.Reads) (hstream : isStreamingMedia o.request.contentType = false)
    (h : Run.run (step codec) (Fetch.init uuid n) es = some s)
    (hhonest : Run.Along (step codec) (Honest o) (Fetch.init uuid n) es) :
    ∀ a ∈ s.answers, a.2 = .getData o.request.source.data o.request.contentType ∨
      a.1 ∈ (tally es).refused ∧ a.2 = .getFail Fetch.retryLater ∨
        (∃ e ∈ es, e.fails = true) ∧ ∃ m, a.2 = .getFail m := by
  obtain ⟨hfaithful, hcounted⟩ := faithful_of_run ho hstream h hhonest
  intro a ha
  rcases hfaithful.answers a ha with hdata | hrefuses | hfail
  · exact .inl hdata
  · refine .inr (.inl ⟨?_, eq_of_beq hrefuses⟩)
    rw [← hcounted.refused]
    exact List.mem_map_of_mem (List.mem_filter.mpr ⟨ha, hrefuses⟩)
  · exact .inr (.inr hfail)

/-- The bytes `abc` are saved as they are. -/
def abc : Saved abcCodec 2 where
  request := { Kernel.saving [97, 98, 99] with contentType := "text/plain" }
  g := Kernel.counting
  master := abcMaster
  maxSize_pos := by decide
  maxSize_lt := by decide
  length_lt := by decide
  last_lt := by decide
  distinct := Kernel.distinct_counting
  size := rfl
  contentType := rfl
  content := rfl
  cut u := by
    have hpieces : piecesJson 2 3 Kernel.counting = abcMaster.pieces := by
      simp [piecesJson, Kernel.piecesLoop, abcMaster, Kernel.counting]
    exact congrArg (layout · u) hpieces.symm
  keys := Ledger.all_iff.mp (by decide)
  whole := nofun
  wholePieces := Ledger.all_iff.mp (by decide)

theorem reads_abc : abc.Reads where
  parse := rfl
  base64 _ := rfl
  decrypt k b := by
    change some ((k.key ++ b).drop k.key.length) = some b
    rw [List.drop_left]

set_option maxRecDepth 8000 in
theorem honest_threeGets : Run.Along (step abcCodec) (Honest abc) (Fetch.init 1 10)
    (threeGets ++ [.gotPiece 14 [97, 98]]) := by decide

theorem answer_of_run_threeGets : ∃ s,
    Run.run (step abcCodec) (Fetch.init 1 10) (threeGets ++ [.gotPiece 14 [97, 98]]) = some s ∧
      s.answers.length = 3 ∧
        ∀ a ∈ s.answers, a.2 = .getData [97, 98, 99] "text/plain" ∨
          a.1 ∈ [8] ∧ a.2 = .getFail Fetch.retryLater ∨
            (∃ e ∈ threeGets ++ [.gotPiece 14 [97, 98]], e.fails = true) ∧ ∃ m, a.2 = .getFail m :=
  ⟨_, rfl, rfl, answer_of_run reads_abc (by decide) rfl honest_threeGets⟩

/-- **A round trip**: if nothing fails, then when no master object and no piece is on its way any
more, nobody waits, and everybody whose get was let in has been answered, in order, with the content
that was saved. -/
theorem answered_with_content (ho : o.Reads)
    (hstream : isStreamingMedia o.request.contentType = false)
    (h : Run.run (step codec) (Fetch.init uuid n) es = some s)
    (hhonest : Run.Along (step codec) (Honest o) (Fetch.init uuid n) es)
    (hfails : ∀ e ∈ es, e.fails = false) (hquiet : s.Quiet) :
    s.waiting = [] ∧ s.answers.filter (fun a => !a.2.refuses) =
      (tally es).admitted.map fun ims =>
        (ims, .getData o.request.source.data o.request.contentType) := by
  obtain ⟨hfaithful, hcounted⟩ := faithful_of_run ho hstream h hhonest
  have hwaiting : s.waiting = [] := by
    by_contra hw
    obtain ⟨l, hl, hphase⟩ := hcounted.sound.stream_of_quiet hquiet hw
    have hfits := (hfaithful.leader l hl).1
    rw [Leader.Fits, hphase] at hfits
    exact hfits
  have hclients := hcounted.clients
  rw [Fetch.clients, hwaiting, List.map_nil, List.append_nil] at hclients
  refine ⟨hwaiting, ?_⟩
  rw [← hclients, List.map_map]
  refine (List.map_id _).symm.trans (List.map_congr_left fun a ha => ?_)
  obtain ⟨hmem, hlet⟩ := List.mem_filter.mp ha
  rcases hfaithful.answers a hmem with hdata | hrefuses | ⟨⟨e, he, hf⟩, -⟩
  · exact Prod.ext rfl hdata
  · rw [hrefuses] at hlet
    cases hlet
  · exact absurd ((hfails e he).symm.trans hf) Bool.noConfusion

theorem answered_with_content_threeGets : ∃ s,
    Run.run (step abcCodec) (Fetch.init 1 10) (threeGets ++ [.gotPiece 14 [97, 98]]) = some s ∧
      s.waiting = [] ∧ s.answers.filter (fun a => !a.2.refuses) =
        [7, 9].map fun ims => (ims, .getData [97, 98, 99] "text/plain") :=
  ⟨_, rfl, answered_with_content reads_abc (by decide) rfl honest_threeGets (by decide) (by decide)⟩

end Retrieval

end Metax
