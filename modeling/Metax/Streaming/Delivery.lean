import Metax.Streaming.Ranges

/-!
# What a range get delivers

An object is streamed to several requests, each for a range. For every range, and in whatever order
the chunks arrive, a request should be announced as many chunks as it is sent, and these should be
the bytes of its range (`Delivers`).

They are, unless the last byte that is asked for is the first one of a chunk, or directly behind the
object (`delivers_iff_endsWithin`).

The invariant `Faithful` says of every request what it was announced and what it was sent so far;
when all chunks have come these are what `Delivers` speaks of.
-/

namespace Metax

namespace Streaming

variable {codec : Codec} {m : MasterJson} {data : Bytes} {s s' : Stream} {sh sh' : Shared}
  {l l' : Listener} {r : GetRange}

/-! ### The law -/

/-- The master object describes the data: its chunks lie one behind the other, their numbers can be
read, and a vector can hold them. -/
structure Describes (codec : Codec) (m : MasterJson) (data : Bytes) : Prop where
  readable : readable m
  size : m.size = data.length
  contiguous : Contiguous 0 (chunkList codec m) data.length
  count : (chunkList codec m).length < 2 ^ 64
  content : ∀ b, m.content = some b → codec.base64Decode b = data

/-- The bytes are those of the chunk. -/
def IsChunk (codec : Codec) (m : MasterJson) (data : Bytes) (uuid : UUID) (b : Bytes) : Prop :=
  ∀ c ∈ chunkList codec m, c.uuid = uuid → b = slice data c.start (c.start + c.size)

/-- What arrives is the master object, and the chunks it names. -/
def Honest (codec : Codec) (m : MasterJson) (data : Bytes) (s : Stream) : Event → Prop
  | .master _ _ m' => m' = m
  | .piece id b => ∀ p, s.findPiece id false = some p → p.aesKey = none →
      IsChunk codec m data p.uuid b
  | .decryptedPiece id b => ∀ p, s.findPiece id true = some p → IsChunk codec m data p.uuid b
  | _ => True

/-- Nothing is on the way for a request that is there. -/
def Quiet (s : Stream) : Prop :=
  (∀ p ∈ s.shared.pieceRequests, ¬ s.Alive p.parent) ∧ ∀ k ∈ s.lookUps, ¬ s.Alive k.id

/-- **The law**: the normalized range lies in the object, and a request for it is sent the announced
number of chunks, which together have the bytes of the range. -/
def Delivers (codec : Codec) (m : MasterJson) (data : Bytes) (r : GetRange) : Prop :=
  let n := normalizeStreamingRange data.length r
  (0 ≤ n.1 ∧ n.1 ≤ n.2 ∧ n.2 < data.length) ∧
    ∀ es s, Run.Along (step codec) (fun s e => Free s e ∧ Honest codec m data s e) .init es →
      Run.run (step codec) .init es = some s → Quiet s →
        ∀ l ∈ s.listeners, l.asked = r → ∃ p, l.streaming = some p ∧
          p.sent.length = p.chunkCount ∧ p.sent.flatten = slice data n.1.toNat (n.2.toNat + 1)

/-! ### What is sent -/

/-- A chunk of the list, and the same one in the master object. -/
def Fills (data : Bytes) (c c₀ : Chunk) : Prop :=
  c.start = c₀.start ∧ c.size = c₀.size ∧ c.uuid = c₀.uuid ∧
    (c.available → c.file = slice data c₀.start (c₀.start + c₀.size))

/-- The list is that of the master object, and what is available is right. -/
def Filled (codec : Codec) (m : MasterJson) (data : Bytes) (sh : Shared) : Prop :=
  sh.size = m.size ∧ List.Forall₂ (Fills data) sh.list (chunkList codec m)

/-- What a request was announced and sent so far. -/
def Sent (codec : Codec) (m : MasterJson) (data : Bytes) (l : Listener) : Prop :=
  ∃ p j, l.streaming = some p ∧ l.getRange = normalizeStreamingRange m.size l.asked ∧
    j = calculateLoop l.getRange 0 (chunkList codec m) (0, 0) ∧
    p.last = j.2 ∧ p.chunkCount = uint64 (j.2 - j.1) ∧ j.1 ≤ p.curr ∧ p.curr ≤ max j.1 j.2 ∧
      p.sent = (((chunkList codec m).drop j.1).take (p.curr - j.1)).map
        fun c => chunkFile l.getRange (c.fill data)

theorem Filled.of_extends (h : Filled codec m data sh) (hext : Extends sh sh') :
    Filled codec m data sh' := by
  refine ⟨hext.size.trans h.1, List.forall₂_iff_get.mpr ⟨?_, fun i hi hi₀ => ?_⟩⟩
  · have hlen := congrArg List.length hext.unmarked
    rw [List.length_map, List.length_map] at hlen
    exact hlen.trans h.2.length_eq
  · obtain ⟨c, hc, heq⟩ := hext.getElem? (List.getElem?_eq_getElem hi)
    obtain ⟨hav, hstart, hsize, huuid, hfile⟩ := unmarked_eq heq
    obtain ⟨hlt, rfl⟩ := List.getElem?_eq_some_iff.mp hc
    obtain ⟨h₁, h₂, h₃, h₄⟩ := (List.forall₂_iff_get.mp h.2).2 i hlt hi₀
    refine ⟨hstart.symm.trans h₁, hsize.symm.trans h₂, huuid.symm.trans h₃, fun hav' => ?_⟩
    exact hfile.symm.trans (h₄ (hav.trans hav'))

theorem calculateLoop_congr {cs cs₀ : List Chunk} (h : List.Forall₂ (Fills data) cs cs₀) (i : ℕ)
    (p : ℕ × ℕ) : calculateLoop r i cs p = calculateLoop r i cs₀ p := by
  induction h generalizing i p with
  | nil => rfl
  | cons hc _ ih =>
    rename_i c c₀ _ _ _
    have hwithin (x : ℤ) : c.Within x ↔ c₀.Within x := by
      rw [Chunk.Within, Chunk.Within, hc.1, hc.2.1]
    rw [calculateLoop, calculateLoop, ih]
    simp only [hwithin]

/-- A request that gets the list has been sent nothing. -/
theorem sent_setStreamingState (hsh : Filled codec m data sh) (hl : l.getRange = l.asked) :
    Sent codec m data (l.setStreamingState sh) := by
  have hrange : (l.setStreamingState sh).getRange = normalizeStreamingRange m.size l.asked := by
    show normalizeStreamingRange sh.size l.getRange = _
    rw [hsh.1, hl]
  have hloop : calculateLoop (l.setStreamingState sh).getRange 0 sh.list (0, 0) =
      calculateLoop (l.setStreamingState sh).getRange 0 (chunkList codec m) (0, 0) :=
    calculateLoop_congr hsh.2 _ _
  refine ⟨_, _, rfl, hrange, rfl, ?_⟩
  rw [← hloop]
  refine ⟨rfl, rfl, le_rfl, le_max_left _ _, ?_⟩
  obtain ⟨n, hn⟩ : ∃ n, n = (calculateLoop (l.setStreamingState sh).getRange 0 sh.list (0, 0)).1 :=
    ⟨_, rfl⟩
  have hnone : ((chunkList codec m).drop n).take (n - n) = [] := by
    rw [Nat.sub_self, List.take_zero]
  rw [hn] at hnone
  exact (congrArg (List.map _) hnone).symm

/-- **The sending loop** sends the files of the chunks one by one. -/
theorem sent_sendLoop {list : List Chunk}
    (hlist : List.Forall₂ (Fills data) list (chunkList codec m))
    {j : ℕ} (n : ℕ) (p : Progress) (hj : j ≤ p.curr)
    (hsent : p.sent = (((chunkList codec m).drop j).take (p.curr - j)).map
      fun c => chunkFile r (c.fill data)) :
    (sendLoop r list n p).sent =
      (((chunkList codec m).drop j).take ((sendLoop r list n p).curr - j)).map
        fun c => chunkFile r (c.fill data) := by
  induction n generalizing p with
  | zero => exact hsent
  | succ n ih =>
    rw [sendLoop]
    cases hc : list[p.curr]? with
    | none => exact hsent
    | some c =>
      dsimp only
      split_ifs with hav
      · refine ih _ (Nat.le_succ_of_le hj) ?_
        obtain ⟨hlt, rfl⟩ := List.getElem?_eq_some_iff.mp hc
        have hlt₀ : p.curr < (chunkList codec m).length := hlist.length_eq ▸ hlt
        obtain ⟨hstart, hsize, -, hfile⟩ := (List.forall₂_iff_get.mp hlist).2 p.curr hlt hlt₀
        have hget : ((chunkList codec m).drop j)[p.curr - j]? =
            some ((chunkList codec m).get ⟨p.curr, hlt₀⟩) := by
          rw [List.getElem?_drop, Nat.add_sub_cancel' hj]
          exact List.getElem?_eq_getElem hlt₀
        have hchunk : chunkFile r (list.get ⟨p.curr, hlt⟩) =
            chunkFile r (((chunkList codec m).get ⟨p.curr, hlt₀⟩).fill data) := by
          have hfile' := hfile hav
          rw [chunkFile, chunkFile, preparePartialChunk, preparePartialChunk, hstart, hsize, hfile']
          rfl
        show p.sent ++ [chunkFile r (list.get ⟨p.curr, hlt⟩)] = _
        have hcount : p.curr + 1 - j = (p.curr - j) + 1 := by omega
        rw [hcount, List.take_add_one, hget, List.map_append, hsent, hchunk]
        rfl
      · exact hsent

/-- **What is sent to one request.** -/
theorem Sent.of_sends (h : Sent codec m data l) (hsh : Filled codec m data sh)
    (hsends : Sends sh l l') : Sent codec m data l' := by
  obtain ⟨p, sh₁, hp, hext, rfl⟩ := hsends
  obtain ⟨p', j, hp', hrange, hj, hlast, hcount, hle, hmax, hsent⟩ := h
  obtain rfl := Option.some.inj (hp.symm.trans hp')
  obtain ⟨hlast', hcount', hle', hmax', -⟩ :=
    sendLoop_spec l.getRange sh₁.list (p.last - p.curr) p
  refine ⟨_, j, rfl, hrange, hj, hlast'.trans hlast, hcount'.trans hcount, hle.trans hle', ?_,
    sent_sendLoop (hsh.of_extends hext).2 _ p hle hsent⟩
  omega

/-! ### Along a run -/

/-- **The invariant** of what the requests have been sent. -/
structure Faithful (codec : Codec) (m : MasterJson) (data : Bytes) (s : Stream) : Prop where
  unset : ∀ l ∈ s.listeners, l.streaming = none → l.getRange = l.asked
  filled : ∀ l ∈ s.listeners, l.streaming.isSome → Filled codec m data s.shared
  sent : ∀ l ∈ s.listeners, l.streaming.isSome → Sent codec m data l

theorem Faithful.of_subset (h : Faithful codec m data s)
    (hls : ∀ l ∈ s'.listeners, l ∈ s.listeners) (hlist : s'.shared.list = s.shared.list)
    (hsize : s'.shared.size = s.shared.size) : Faithful codec m data s' where
  unset l hl := h.unset l (hls l hl)
  filled l hl hset := by
    have := h.filled l (hls l hl) hset
    rw [Filled] at this ⊢
    rw [hlist, hsize]
    exact this
  sent l hl := h.sent l (hls l hl)

theorem Faithful.of_nil (hnil : s.listeners = []) : Faithful codec m data s := by
  have hno : ∀ l, l ∉ s.listeners := fun l hl => List.not_mem_nil (hnil ▸ hl)
  exact ⟨fun l hl => absurd hl (hno l), fun l hl => absurd hl (hno l),
    fun l hl => absurd hl (hno l)⟩

/-- A new request. -/
theorem Faithful.get (h : Faithful codec m data s) (hext : Extends s.shared s'.shared)
    (hjoins : Joins s s') : Faithful codec m data s' := by
  obtain ⟨l₀, l', hls, hrange, hnew⟩ := hjoins
  have hcases {l : Listener} (hl : l ∈ s'.listeners) : l ∈ s.listeners ∨ l = l' := by
    rw [hls] at hl
    exact (List.mem_append.mp hl).imp_right List.mem_singleton.mp
  rcases hnew with ⟨rfl, hunset⟩ | ⟨⟨e, he, hset⟩, sh, hsh, hsends⟩
  · have hnot : ¬ l'.streaming.isSome := by
      rw [hunset]
      exact Bool.false_ne_true
    refine ⟨fun l hl hl' => ?_, fun l hl hl' => ?_, fun l hl hl' => ?_⟩
    · rcases hcases hl with hl | rfl
      · exact h.unset l hl hl'
      · exact hrange
    · rcases hcases hl with hl | rfl
      · exact (h.filled l hl hl').of_extends hext
      · exact absurd hl' hnot
    · rcases hcases hl with hl | rfl
      · exact h.sent l hl hl'
      · exact absurd hl' hnot
  · have hfilled := h.filled e he hset
    have hsent : Sent codec m data l' :=
      (sent_setStreamingState (hfilled.of_extends hsh) hrange).of_sends
        (hfilled.of_extends hsh) hsends
    refine ⟨fun l hl hl' => ?_, fun l hl _ => hfilled.of_extends hext, fun l hl hl' => ?_⟩
    · rcases hcases hl with hl | rfl
      · exact h.unset l hl hl'
      · obtain ⟨p, -, hp, -⟩ := hsent
        rw [hp] at hl'
        cases hl'
    · rcases hcases hl with hl | rfl
      · exact h.sent l hl hl'
      · exact hsent

/-- What one turn of a loop over the requests leaves of the invariant. -/
theorem Sent.of_turn (h : Sent codec m data l) (hsh : Filled codec m data sh)
    (hturn : l' = l ∨ Sends sh l l') : Sent codec m data l' := by
  rcases hturn with rfl | hsends
  · exact h
  · exact h.of_sends hsh hsends

/-- All requests have the list. -/
theorem Faithful.of_sent (hsent : ∀ l ∈ s.listeners, Sent codec m data l)
    (hfilled : Filled codec m data s.shared) : Faithful codec m data s := by
  refine ⟨fun l hl hunset => ?_, fun _ _ _ => hfilled, fun l hl _ => hsent l hl⟩
  obtain ⟨p, -, hp, -⟩ := hsent l hl
  rw [hp] at hunset
  cases hunset

theorem exists_of_forall₂ {R : Listener → Listener → Prop} {ls ls' : List Listener}
    (h : List.Forall₂ R ls ls') (hl' : l' ∈ ls') : ∃ l ∈ ls, R l l' := by
  induction h with
  | nil => exact absurd hl' List.not_mem_nil
  | cons hR _ ih =>
    rcases List.mem_cons.mp hl' with rfl | hl'
    · exact ⟨_, List.mem_cons_self, hR⟩
    · obtain ⟨l, hl, hR⟩ := ih hl'
      exact ⟨l, List.mem_cons_of_mem _ hl, hR⟩

/-- The list of the master object is right at first. -/
theorem filled_chunkList (hm : Describes codec m data) (hlist : sh.list = chunkList codec m)
    (hsize : sh.size = m.size) : Filled codec m data sh := by
  refine ⟨hsize, ?_⟩
  rw [hlist, List.forall₂_same]
  refine fun c hc => ⟨rfl, rfl, rfl, fun hav => ?_⟩
  rw [chunkList] at hc
  split at hc
  · rename_i content hcontent
    obtain rfl := List.mem_singleton.mp hc
    show codec.base64Decode content = slice data 0 (0 + m.size)
    rw [hm.content content hcontent, slice, List.drop_zero, Nat.zero_add, Nat.sub_zero, hm.size,
      List.take_length]
  · obtain ⟨p, -, rfl⟩ := List.mem_map.mp ((List.mem_insertionSort _).mp hc)
    cases hav

/-- **A chunk arrives.** -/
theorem Faithful.chunk (h : Faithful codec m data s) (hinv : Inv s) {p : PieceRequest}
    (hp : p ∈ s.shared.pieceRequests) (halive : s.Alive p.parent) {b : Bytes}
    (hb : IsChunk codec m data p.uuid b)
    (hchunk : (handleStreamingChunk s p.uuid b).map (fun s => s.erase p.id) = some s') :
    Faithful codec m data s' := by
  have hr : Running s := hinv.phase.resolve_left fun hw => hw.orphans p hp halive
  obtain ⟨s₁, hs₁, rfl⟩ := Option.map_eq_some_iff.mp hchunk
  obtain ⟨-, -, -, i, c, hc, huuid, sh₀, hsh₀, hext, hturns⟩ :=
    hr.handleStreamingChunk hinv.listeners hs₁
  have hset {l : Listener} (hl : l ∈ s.listeners) : l.streaming.isSome := by
    obtain ⟨p, hp, -⟩ := hr.served l hl
    rw [hp]
    rfl
  obtain ⟨l₀, hl₀, -⟩ := halive
  obtain ⟨hsize, hlist⟩ := h.filled l₀ hl₀ (hset hl₀)
  have hfilled : Filled codec m data sh₀ := by
    rw [hsh₀]
    refine ⟨hsize, List.forall₂_iff_get.mpr ⟨by rw [List.length_set]; exact hlist.length_eq,
      fun j hj hj₀ => ?_⟩⟩
    have hj' : j < s.shared.list.length := by rwa [List.length_set] at hj
    have hold := (List.forall₂_iff_get.mp hlist).2 j hj' hj₀
    rw [List.get_eq_getElem, List.getElem_set]
    split_ifs with hij
    · obtain ⟨hlt, rfl⟩ := List.getElem?_eq_some_iff.mp hc
      subst hij
      obtain ⟨h₁, h₂, h₃, -⟩ := hold
      refine ⟨h₁, h₂, h₃, fun _ => ?_⟩
      exact hb _ (List.get_mem _ ⟨i, hj₀⟩) (h₃.symm.trans huuid)
    · exact hold
  have hf₁ : Faithful codec m data s₁ := by
    refine .of_sent (fun l' hl' => ?_) (hfilled.of_extends hext)
    obtain ⟨l, hl, hturn⟩ := exists_of_forall₂ hturns hl'
    exact (h.sent l hl (hset hl)).of_turn hfilled hturn
  exact hf₁.of_subset (fun _ h => h) rfl rfl

/-- **Step lemma.** -/
theorem faithful_step (hm : Describes codec m data) {e : Event}
    (h : Inv s ∧ Faithful codec m data s) (hok : Free s e ∧ Honest codec m data s e)
    (hstep : step codec s e = some s') : Inv s' ∧ Faithful codec m data s' := by
  refine ⟨inv_step h.1 hok.1 hstep, ?_⟩
  obtain ⟨hinv, hf⟩ := h
  -- a step that drops listeners or requests and leaves the chunk list keeps all of it
  have hsame (s' : Stream) (hls : ∀ l ∈ s'.listeners, l ∈ s.listeners)
      (hlist : s'.shared.list = s.shared.list) (hsize : s'.shared.size = s.shared.size) :
      Faithful codec m data s' := hf.of_subset hls hlist hsize
  have hlookedUp (id : ID32) : Faithful codec m data (s.lookedUp id) :=
    hsame _ (fun _ h => h) rfl rfl
  have hfailed {k : LookUp} (hfail : handleFailedMaster s k = some s') :
      Faithful codec m data s' := by
    rcases handleFailedMaster_cases hfail with rfl | ⟨-, rfl⟩
    · exact .of_nil rfl
    · exact hlookedUp _
  cases e with
  | get range =>
    obtain ⟨-, hext, hjoins⟩ := hinv.get hstep
    exact hf.get hext hjoins
  | clean id =>
    rw [step, handleImsCleanStreamRequest] at hstep
    split_ifs at hstep
    · obtain rfl := Option.some.inj hstep
      exact hsame _ (fun l hl => List.mem_of_mem_filter hl) rfl rfl
    · obtain rfl := Option.some.inj hstep
      exact hf
  | encryptedMaster id =>
    obtain rfl := Option.some.inj hstep
    cases s.findLookUp id with
    | none => exact hf
    | some k =>
      show Faithful codec m data (postKeyManagerDecryptMaster s k)
      rw [postKeyManagerDecryptMaster]
      split_ifs
      · exact hsame _ (fun _ h => h) rfl rfl
      · exact hlookedUp _
  -- the chunk list is filled from the master object, and every listener gets its first turn
  | master id key m' =>
    have hm' : m' = m := hok.2
    subst hm'
    obtain rfl | ⟨k, hk, hmaster⟩ := eq_or_of_elim hstep
    · exact hf
    · rcases handleMasterObject_cases hmaster with ⟨halive, hconstruct⟩ | hfail
      · obtain ⟨-, sh₀, hlist, hsize, hext, hturns⟩ :=
          hinv.construct (List.mem_of_find?_eq_some hk) halive hconstruct
        have hfilled := filled_chunkList hm hlist hsize
        refine .of_sent (fun l' hl' => ?_) (hfilled.of_extends hext)
        obtain ⟨l, hl, hunset, hturn⟩ := exists_of_forall₂ hturns hl'
        exact (sent_setStreamingState hfilled (hf.unset l hl hunset)).of_turn hfilled hturn
      · exact hfailed hfail
  | masterFailed id =>
    obtain rfl | ⟨k, -, hfail⟩ := eq_or_of_elim hstep
    · exact hf
    · exact hfailed hfail
  -- what arrives for a piece is that piece's content
  | piece id b =>
    obtain rfl | ⟨p, hp, hpiece⟩ := eq_or_of_elim hstep
    · exact hf
    · have hmem : p ∈ s.shared.pieceRequests := List.mem_of_find?_eq_some hp
      rcases handlePiece_cases hpiece with ⟨halive, hkey, hchunk⟩ | rfl | ⟨-, rfl⟩
      · exact hf.chunk hinv hmem halive (hok.2 p hp hkey) hchunk
      · exact hsame _ (fun _ h => h) rfl rfl
      · exact hsame _ (fun _ h => h) rfl rfl
  | decryptedPiece id b =>
    obtain rfl | ⟨p, hp, hpiece⟩ := eq_or_of_elim hstep
    · exact hf
    · have hmem : p ∈ s.shared.pieceRequests := List.mem_of_find?_eq_some hp
      rcases handlePieceAfterDecrypt_cases hpiece with ⟨halive, hchunk⟩ | ⟨-, rfl⟩
      · exact hf.chunk hinv hmem halive (hok.2 p hp) hchunk
      · exact hsame _ (fun _ h => h) rfl rfl
  | pieceFailed id =>
    obtain rfl := Option.some.inj hstep
    cases s.shared.pieceRequests.find? fun p => p.id = id with
    | none => exact hf
    | some p =>
      show Faithful codec m data (handleFailedPiece s p)
      rw [handleFailedPiece]
      split_ifs
      · exact .of_nil rfl
      · exact hsame _ (fun _ h => h) rfl rfl

/-! ### The bytes of a range -/

theorem Describes.lt (hm : Describes codec m data) : data.length < 2 ^ 33 := by
  have hread := hm.readable
  rw [Streaming.readable] at hread
  split_ifs at hread with hcontent
  · rw [← hm.size]
    have := of_decide_eq_true hread
    omega
  · -- the last byte is in a chunk, whose numbers are small
    by_contra hbig
    obtain ⟨c, hc, -, hlt⟩ := hm.contiguous.exists_mem (Nat.zero_le _)
      (Nat.sub_lt (show 0 < data.length by omega) Nat.one_pos)
    rw [chunkList, Option.not_isSome_iff_eq_none.mp hcontent] at hc
    obtain ⟨p, hp, rfl⟩ := List.mem_map.mp ((List.mem_insertionSort _).mp hc)
    obtain ⟨hstart, hsize⟩ := of_decide_eq_true (List.all_eq_true.mp hread p hp)
    dsimp only at hlt
    omega

/-- The condition on a range: its last byte is neither the first one of a chunk nor directly behind
the object. -/
def EndsWithin (codec : Codec) (m : MasterJson) (size : ℕ) (r : GetRange) : Prop :=
  ¬ EndsBehind size r ∧ ∀ c ∈ chunkList codec m, c.start ≠ (wanted size r).2

instance (codec : Codec) (m : MasterJson) (size : ℕ) (r : GetRange) :
    Decidable (EndsWithin codec m size r) :=
  have : Decidable (∀ c ∈ chunkList codec m, c.start ≠ (wanted size r).2) := List.decidableBAll _ _
  inferInstanceAs (Decidable (_ ∧ _))

theorem inv_init_faithful : Inv .init ∧ Faithful codec m data .init := ⟨inv_init, .of_nil rfl⟩

theorem postLoop_of_le {parent : ID32} {last n next : ℕ} (h : last ≤ next) :
    postLoop parent last n next sh = some sh := by
  cases n with
  | zero => rfl
  | succ n => rw [postLoop, if_neg (not_lt.mpr h)]

/-- A run with a single request for the range, which gets the master object. -/
def firstRun (m : MasterJson) (r : GetRange) : List Event := [.get r, .master 0 none m]

/-- **Without a last chunk nothing is sent**, and nothing is asked for. -/
theorem firstRun_spec (hread : readable m)
    (hlast :
      (calculateLoop (normalizeStreamingRange m.size r) 0 (chunkList codec m) (0, 0)).2 = 0) :
    ∃ s, Run.run (step codec) .init (firstRun m r) = some s ∧ Quiet s ∧
      ∃ l ∈ s.listeners, l.asked = r ∧ ∃ p, l.streaming = some p ∧ p.sent = [] := by
  -- the one listener has nothing to get: its first chunk is the last one
  obtain ⟨sh, hsh⟩ : ∃ sh : Shared, sh =
    ⟨chunkList codec m, m.size, m.pieces, none, [], 1⟩ := ⟨_, rfl⟩
  obtain ⟨l, hl⟩ : ∃ l : Listener, l = Listener.setStreamingState sh ⟨0, r, r, none⟩ := ⟨_, rfl⟩
  obtain ⟨p, hp⟩ : ∃ p, l.streaming = some p := hl ▸ ⟨_, rfl⟩
  have hzero : p.last = 0 ∧ p.sent = [] := by
    rw [hl] at hp
    obtain rfl := Option.some.inj hp
    rw [hsh]
    exact ⟨hlast, rfl⟩
  have hpost : postNext sh l = some sh := by
    rw [postNext, hp]
    exact postLoop_of_le (hzero.1.trans_le (Nat.zero_le _))
  -- so neither what is available nor what comes next is sent
  have hserve : serve 0 sh l = some (sh, l) := by
    rw [serve]
    split_ifs
    · have hsame :
          { l with streaming := some (sendLoop l.getRange sh.list (p.last - p.curr) p) } = l := by
        rw [hzero.1, Nat.zero_sub, sendLoop, ← hp]
      rw [sendAvailableChunks, hp]
      dsimp only
      rw [hsame, hpost]
      rfl
    · rfl
  -- the run itself: the get, and the master object that answers its look-up
  have hrun : Run.run (step codec) .init (firstRun m r) = some ⟨[l], sh, [], []⟩ := by
    have hturn (f : Shared → Listener → Option (Shared × Listener)) (hf : f sh l = some (sh, l)) :
        Stream.each ⟨[l], sh, [], []⟩ f = some ⟨[l], sh, [], []⟩ := by
      show (forEach f sh [l]).map _ = _
      rw [forEach, hf]
      rfl
    have hmap : [(⟨0, r, r, none⟩ : Listener)].map (updatePending sh 0) = [l] := by
      rw [hl]
      rfl
    have hconstruct : constructStreamingState codec
        ⟨[⟨0, r, r, none⟩], ⟨[], 0, ∅, none, [], 1⟩, [], []⟩ 0 none m = some ⟨[l], sh, [], []⟩ := by
      show (if m.content.isSome then Stream.each ⟨[(⟨0, r, r, none⟩ : Listener)].map
          (updatePending ⟨chunkList codec m, m.size, m.pieces, none, [], 1⟩ 0),
            ⟨chunkList codec m, m.size, m.pieces, none, [], 1⟩, [], []⟩ (serve 0)
        else Stream.each ⟨[(⟨0, r, r, none⟩ : Listener)].map
          (updatePending ⟨chunkList codec m, m.size, m.pieces, none, [], 1⟩ 0),
            ⟨chunkList codec m, m.size, m.pieces, none, [], 1⟩, [], []⟩
              fun sh l => (postNext sh l).map fun sh => (sh, l)) = _
      rw [← hsh, hmap]
      split_ifs
      · exact hturn _ hserve
      · exact hturn _ (by rw [hpost]; rfl)
    have hmaster : handleMasterObject codec
        ⟨[⟨0, r, r, none⟩], ⟨[], 0, ∅, none, [], 1⟩, [⟨0, false⟩], []⟩ ⟨0, false⟩ none m =
          some ⟨[l], sh, [], []⟩ := by
      rw [handleMasterObject, if_pos ⟨⟨_, List.mem_singleton_self _, rfl⟩, hread⟩]
      exact hconstruct
    show ((handleMasterObject codec
      ⟨[⟨0, r, r, none⟩], ⟨[], 0, ∅, none, [], 1⟩, [⟨0, false⟩], []⟩
        ⟨0, false⟩ none m).bind some) = _
    rw [hmaster]
    rfl
  -- nothing is requested or looked up any more, and nothing was sent
  refine ⟨_, hrun, ⟨fun q hq => ?_, fun k hk => ?_⟩, l, List.mem_singleton_self _, ?_, p, hp,
    hzero.2⟩
  · rw [hsh] at hq
    exact absurd hq List.not_mem_nil
  · exact absurd hk List.not_mem_nil
  · rw [hl]
    rfl

/-- A range that is delivered ends within a chunk. -/
theorem Delivers.endsWithin (hm : Describes codec m data) (hsize : 0 < data.length)
    (hr : Deliverable r) (hinter : Intersects data.length r) (h : Delivers codec m data r) :
    EndsWithin codec m data.length r := by
  have hlt := hm.lt
  have hshape := shape_of_deliverable hr
  have hend : ¬ EndsBehind data.length r := fun hend => by
    have hbound := h.1.2.2
    rw [normalize_of_endsBehind hlt hend] at hbound
    omega
  refine ⟨hend, fun c hc hstart => ?_⟩
  have hn := normalize_eq_wanted hsize hlt hshape hinter hend
  obtain ⟨hle, hlast⟩ := wanted_bounds hsize hshape hinter
  have hnone := ends_of_start hm.contiguous hlast hlt hc hstart (f := (wanted data.length r).1)
  rw [ends, ← hn, ← hm.size] at hnone
  obtain ⟨s, hrun, hquiet, l, hl, hasked, p, hp, hsent⟩ := firstRun_spec hm.readable hnone
  have hok : Run.Along (step codec) (fun s e => Free s e ∧ Honest codec m data s e) .init
      (firstRun m r) := ⟨⟨trivial, trivial⟩, fun _ _ => ⟨⟨trivial, rfl⟩, fun _ _ => trivial⟩⟩
  obtain ⟨p', hp', -, hbytes⟩ := h.2 _ _ hok hrun hquiet l hl hasked
  obtain rfl := Option.some.inj (hp.symm.trans hp')
  -- a range has bytes
  have hlen := congrArg List.length hbytes
  rw [hsent, hn, length_slice (by dsimp only; omega)] at hlen
  dsimp only [List.flatten_nil, List.length_nil] at hlen
  omega

/-- A range that ends within a chunk is delivered. -/
theorem delivers_of_endsWithin (hm : Describes codec m data) (hsize : 0 < data.length)
    (hr : Deliverable r) (hinter : Intersects data.length r)
    (h : EndsWithin codec m data.length r) : Delivers codec m data r := by
  obtain ⟨hend, hno⟩ := h
  have hlt := hm.lt
  have hshape := shape_of_deliverable hr
  have hn := normalize_eq_wanted hsize hlt hshape hinter hend
  obtain ⟨hle, hlast⟩ := wanted_bounds hsize hshape hinter
  obtain ⟨hjlt, hjlen, hflat⟩ := flatten_ends hm.contiguous hle hlast hlt data hno
  rw [Delivers, hn]
  refine ⟨⟨by omega, by dsimp only; omega, by dsimp only; omega⟩,
    fun es s hok hrun hquiet l hl hasked => ?_⟩
  obtain ⟨hinv, hf⟩ := Run.invariant_of_run (fun s => Inv s ∧ Faithful codec m data s)
    (fun _ _ _ h hok hs => faithful_step hm h hok hs) inv_init_faithful hok hrun
  obtain ⟨p, hp, hdone⟩ := hinv.survives.complete hquiet.1 hquiet.2 l hl
  have hset : l.streaming.isSome := by
    rw [hp]
    rfl
  obtain ⟨p', j, hp', hget, hj, hlastj, hcount, hjle, hmax, hsent⟩ := hf.sent l hl hset
  obtain rfl := Option.some.inj (hp.symm.trans hp')
  rw [hasked, hm.size, hn] at hget
  rw [hget] at hj hsent
  have hends : j = ends (chunkList codec m) (wanted data.length r).1 (wanted data.length r).2 := hj
  rw [← hends] at hjlt hjlen hflat
  -- everything up to the last chunk was sent
  have hcurr : p.curr - j.1 = j.2 - j.1 := by omega
  rw [hcurr] at hsent
  refine ⟨p, hp, ?_, ?_⟩
  · have hfits := hm.count
    rw [hsent, hcount, List.length_map, List.length_take, List.length_drop,
      uint64_of_lt (by omega) (by omega)]
    omega
  · rw [hsent, hflat]
    congr 1

/-- **The range is delivered exactly if its last byte is within a chunk.** -/
theorem delivers_iff_endsWithin (codec : Codec) (m : MasterJson) (data : Bytes) (r : GetRange)
    (hm : Describes codec m data) (hsize : 0 < data.length) (hr : Deliverable r)
    (hinter : Intersects data.length r) :
    Delivers codec m data r ↔ EndsWithin codec m data.length r :=
  ⟨fun h => h.endsWithin hm hsize hr hinter, delivers_of_endsWithin hm hsize hr hinter⟩

theorem describes_twoPieces : Describes .plain twoPieces [10, 11, 12, 13] where
  readable := by decide
  size := rfl
  contiguous := ⟨rfl, rfl, rfl⟩
  count := by decide
  content _ h := by cases h

/-- The first two bytes. -/
theorem delivers_twoBytes : Delivers .plain twoPieces [10, 11, 12, 13] (0, 2) :=
  (delivers_iff_endsWithin .plain twoPieces [10, 11, 12, 13] (0, 2) describes_twoPieces (by decide)
    (.inr ⟨"bytes=0-1".toList, rfl⟩) (.inr (by decide))).mpr (by decide)

/-- **The first byte alone is not delivered.** -/
theorem first_byte_not_delivered :
    ¬ ∀ (codec : Codec) (m : MasterJson) (data : Bytes) (r : GetRange),
    Describes codec m data → 0 < data.length → Deliverable r → Intersects data.length r →
      Delivers codec m data r := by
  intro h
  have hr : Deliverable (0, 1) := .inr ⟨"bytes=0-0".toList, rfl⟩
  have hlaw := h .plain twoPieces [10, 11, 12, 13] (0, 1) describes_twoPieces (by decide) hr
    (.inr (by decide))
  exact absurd (hlaw.endsWithin describes_twoPieces (by decide) hr (.inr (by decide))) (by decide)

end Streaming

end Metax
