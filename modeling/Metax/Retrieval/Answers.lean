import Metax.Retrieval.Data

/-!
# Every get is answered once

A get of a file has a request for every piece that is left: it is one of the units, or it is on its
way (`Children`), and while there are units some piece is on its way (`BusyBut`). So a get that has
pieces left never stops by itself.

Not every master object lets a get go on. A piece without a `from`, with half a key, or named twice
ends the process or the handler it comes to, and an id that is handed out again while its request is
still there ends the process too. `Regular` says of a step that the ids last, and that a master
object which is read in it is `Usable`. Where all steps are regular no assertion fails
(`isSome_step`), and the answers are in the order of the requests, one for each, but for gets that
come while they are blocked, which are answered at once; those that are not answered wait, and when
nothing is on its way any more, nobody waits, unless for a stream (`answered_once`).
-/

namespace Metax

namespace Retrieval

open Ledger (Table)
open Deletion (idBound nextCounter nextCounter_of_lt)

variable {codec : Codec} {s t : Fetch} {l : Leader} {e : Event} {es : List Event} {id c : ID32}
  {r : PieceRequest} {file : Bytes} {pieces : Table PieceName PieceInfo} {units : List ID32}
  {left : UUID → Prop} {requests : Table ID32 PieceRequest} {key : AesKey} {name : PieceName}
  {p : PieceInfo} {uuid u : UUID}

/-! ### Master objects that can be used -/

/-- Both strings of a key are there, or none of them is. -/
def Proper (k : AesKey) : Prop := Plain k ∨ Whole k

instance (k : AesKey) : Decidable (Proper k) := inferInstanceAs (Decidable (_ ∨ _))

/-- The value is a number. -/
def Numeric : NumberField → Bool
  | .value _ => true
  | .missing | .unreadable => false

/-- A piece of a master object whose request has the key `key`: its start is a number, and with the
key of the object it has both strings of a key or none. A second name for a uuid that has its own
name is not usable. -/
def UsablePiece (pieces : Table PieceName PieceInfo) (key : AesKey) : PieceName → PieceInfo → Prop
  | .canonical _, p => Numeric p.start = true ∧ Proper (Fetch.pieceKey key p)
  | .other _ (some u), _ => pieces.lookup (.canonical u) = none
  | .other _ none, _ => True

instance (pieces : Table PieceName PieceInfo) (key : AesKey) : ∀ name p,
    Decidable (UsablePiece pieces key name p)
  | .canonical _, _ => inferInstanceAs (Decidable (_ ∧ _))
  | .other _ (some u), _ => inferInstanceAs (Decidable (pieces.lookup (.canonical u) = none))
  | .other _ none, _ => .isTrue trivial

/-- All pieces of a master object can be used. -/
def Usable (pieces : Table PieceName PieceInfo) (key : AesKey) : Prop :=
  Ledger.All (UsablePiece pieces key) pieces

instance (pieces : Table PieceName PieceInfo) (key : AesKey) : Decidable (Usable pieces key) :=
  inferInstanceAs (Decidable (Ledger.All _ _))

/-! ### The invariant -/

/-- The requests for pieces of one parent: one for every name that is left, and it is a unit as long
as it was not posted. -/
structure Children (requests : Table ID32 PieceRequest) (id : ID32) (left : UUID → Prop)
    (units : List ID32) : Prop where
  child : ∀ c r, requests.lookup c = some r → r.parentReqId = id →
    left r.uuid ∧ (c ∈ units ↔ r.place = .idle)
  unique : ∀ c r c' r', requests.lookup c = some r → requests.lookup c' = some r' →
    r.parentReqId = id → r'.parentReqId = id → r.uuid = r'.uuid → c = c'
  all : ∀ u, left u → ∃ c r, requests.lookup c = some r ∧ r.parentReqId = id ∧ r.uuid = u
  nodup : units.Nodup
  units : ∀ c ∈ units, ∃ r, requests.lookup c = some r ∧ r.parentReqId = id

/-- While there are units, a piece other than `c` was asked for. -/
def BusyBut (c : Option ID32) (requests : Table ID32 PieceRequest) (id : ID32)
    (units : List ID32) : Prop :=
  units ≠ [] → ∃ c' r, some c' ≠ c ∧ requests.lookup c' = some r ∧ r.parentReqId = id ∧
    r.place = .fetching

/-- What is left of the pieces of a parent. -/
def Left (pieces : Table PieceName PieceInfo) (u : UUID) : Prop :=
  pieces.lookup (.canonical u) ≠ none

/-- A piece that is left has the name `toString` gives its uuid, and says where it starts and how
large it is. -/
def Placed (pieces : Table PieceName PieceInfo) : Prop :=
  ∀ name p, pieces.lookup name = some p →
    (∃ u, name = .canonical u) ∧ Numeric p.start = true ∧ p.size ≠ .missing

/-- The requests of a parent have both strings of a key or none. -/
def Keyed (requests : Table ID32 PieceRequest) (id : ID32) : Prop :=
  ∀ c r, requests.lookup c = some r → r.parentReqId = id → Proper r.aesKey

/-- A first request whose pieces are got: what is left of them can be used and has its requests, and
one of these is on its way. -/
structure Gets (requests : Table ID32 PieceRequest) (id : ID32)
    (pieces : Table PieceName PieceInfo) (units : List ID32) : Prop where
  children : Children requests id (Left pieces) units
  nonempty : pieces.entries.length ≠ 0
  busy : BusyBut none requests id units
  placed : Placed pieces
  keyed : Keyed requests id

/-- What is known of the first request, by how far it is. -/
def Leader.Sound (l : Leader) (requests : Table ID32 PieceRequest) : Prop :=
  match l.phase with
  | .getting _ pieces units => Gets requests l.id pieces units
  | .fetching => (∀ c r, requests.lookup c = some r → r.parentReqId ≠ l.id) ∧ Proper l.aesKey
  | .decrypting _ _ | .streaming => ∀ c r, requests.lookup c = some r → r.parentReqId ≠ l.id

/-- Ids come from the counter. -/
structure Fetch.Bounded (s : Fetch) : Prop where
  requests : ∀ c r, s.requests.lookup c = some r →
    c < s.requestCounter ∧ r.parentReqId < s.requestCounter
  waiting : ∀ w ∈ s.waiting, w.1 < s.requestCounter
  others : ∀ id ∈ s.others, id < s.requestCounter

/-- **The invariant.** -/
structure Sound (s : Fetch) : Prop where
  leader : ∀ l, s.leader = some l →
    s.waiting ≠ [] ∧ l.id < s.requestCounter ∧ l.Sound s.requests
  waiting : s.leader = none → s.waiting = []
  bounded : s.Bounded
  owned : ∀ k ∈ s.ownedKey, Proper k

/-- The answer to a get that comes while gets are blocked. -/
def Answer.refuses (a : Answer) : Bool := a == .getFail Fetch.retryLater

/-- Who was answered but not refused, and who waits, in their order. -/
def Fetch.clients (s : Fetch) : List ID32 :=
  (s.answers.filter fun a => !a.2.refuses).map Prod.fst ++ s.waiting.map Prod.snd

/-- Who was refused. -/
def Fetch.refused (s : Fetch) : List ID32 := (s.answers.filter fun a => a.2.refuses).map Prod.fst

/-! ### Answers -/

/-- The texts differ in what follows `failed`. -/
theorem ne_retryLater (uuid text : String) :
    "Getting file failed: uuid=" ++ uuid ++ "." ++ text ≠ Fetch.retryLater := by
  intro heq
  have hchars := congrArg String.toList heq
  simp [Fetch.retryLater, String.toList_append] at hchars

/-- No text about the uuid is that of a refusal. -/
theorem refuses_failed (s : Fetch) (text : String) :
    (Answer.getFail (s.failed ++ text)).refuses = false :=
  beq_eq_false_iff_ne.mpr fun heq => ne_retryLater s.uuid.toString text (Answer.getFail.inj heq)

theorem sendImsResponse_eq {a : Answer} (hw : s.waiting ≠ []) :
    s.sendImsResponse a = some { s with
      waiting := []
      leader := none
      answers := s.answers ++ s.waiting.map fun w => (w.2, a) } := if_pos hw

/-- Everybody is in the place of the order he had. -/
structure Kept (s t : Fetch) : Prop where
  clients : t.clients = s.clients
  refused : t.refused = s.refused
  blocked : t.shouldBlockGetRequest = s.shouldBlockGetRequest

theorem Kept.trans {u : Fetch} (h : Kept s t) (h' : Kept t u) : Kept s u :=
  ⟨h'.clients.trans h.clients, h'.refused.trans h.refused, h'.blocked.trans h.blocked⟩

/-- The process goes on, with the invariant, and everybody is in the place of the order he had. -/
def Goes (s : Fetch) (o : Option Fetch) : Prop := ∃ t, o = some t ∧ Sound t ∧ Kept s t

theorem Goes.of_kept {o : Option Fetch} (h : Goes t o) (hkept : Kept s t) : Goes s o := by
  obtain ⟨u, hu, hsound, hkept'⟩ := h
  exact ⟨u, hu, hsound, hkept.trans hkept'⟩

/-- The state has a first request with that id. -/
structure Led (s : Fetch) (id : ID32) : Prop where
  waiting : s.waiting ≠ []
  leader : s.leader ≠ none
  bounded : s.Bounded
  id_lt : id < s.requestCounter
  owned : ∀ k ∈ s.ownedKey, Proper k

/-- Who waits is answered: those after him in the order are not, and nobody is refused. -/
theorem clients_answered {a : Answer} (ha : a.refuses = false) (w : List (ID32 × ID32)) :
    (((w.map fun w => (w.2, a)).filter fun a => !a.2.refuses).map Prod.fst = w.map Prod.snd) ∧
      (w.map fun w => (w.2, a)).filter (fun a => a.2.refuses) = [] := by
  induction w with
  | nil => exact ⟨rfl, rfl⟩
  | cons x w ih => simp [ha, ih.1, ih.2]

/-- Answering all who wait keeps the invariant and the order. -/
theorem goes_sendImsResponse {a : Answer} (ha : a.refuses = false) (hs : Led s id) :
    Goes s (s.sendImsResponse a) := by
  obtain ⟨hadmitted, hrefused⟩ := clients_answered ha s.waiting
  refine ⟨_, sendImsResponse_eq hs.waiting, ⟨fun l hl => ?_, fun _ => rfl,
    ⟨hs.bounded.requests, fun w hw => absurd hw List.not_mem_nil, hs.bounded.others⟩, hs.owned⟩,
    ⟨?_, ?_, rfl⟩⟩
  · cases hl
  · rw [Fetch.clients, Fetch.clients, List.filter_append, List.map_append, hadmitted, List.map_nil,
      List.append_nil]
  · rw [Fetch.refused, Fetch.refused, List.filter_append, hrefused, List.append_nil]

/-! ### Changes of the requests -/

/-- Requests are kept, but for their places: some of them were posted. -/
structure Posts (requests requests' : Table ID32 PieceRequest) : Prop where
  back : ∀ c r', requests'.lookup c = some r' → ∃ r, requests.lookup c = some r ∧
    r'.uuid = r.uuid ∧ r'.parentReqId = r.parentReqId ∧ r'.aesKey = r.aesKey ∧
    (r'.place = r.place ∨ r'.place = .fetching)

theorem Posts.refl (requests : Table ID32 PieceRequest) : Posts requests requests :=
  ⟨fun _ r' h => ⟨r', h, rfl, rfl, rfl, .inl rfl⟩⟩

theorem Posts.trans {requests' requests'' : Table ID32 PieceRequest} (h : Posts requests requests')
    (h' : Posts requests' requests'') : Posts requests requests'' := by
  refine ⟨fun c r'' hr'' => ?_⟩
  obtain ⟨r', hr', huuid', hparent', hkey', hplace'⟩ := h'.back c r'' hr''
  obtain ⟨r, hr, huuid, hparent, hkey, hplace⟩ := h.back c r' hr'
  refine ⟨r, hr, huuid'.trans huuid, hparent'.trans hparent, hkey'.trans hkey, ?_⟩
  rcases hplace' with hplace' | hplace'
  · rw [hplace']
    exact hplace
  · exact .inr hplace'

/-- A request goes to another place. -/
theorem Children.place {units' : List ID32} {q : Place} (h : Children requests id left units)
    (hr : requests.lookup c = some r) (hparent : r.parentReqId = id)
    (hself : c ∈ units' ↔ q = .idle) (hother : ∀ c', c' ≠ c → (c' ∈ units' ↔ c' ∈ units))
    (hnodup : units'.Nodup) :
    Children (requests.insert c { r with place := q }) id left units' := by
  -- every request has the uuid and the parent it had
  have hback : ∀ c' r', (requests.insert c { r with place := q }).lookup c' = some r' →
      ∃ r₁, requests.lookup c' = some r₁ ∧ r'.uuid = r₁.uuid ∧ r'.parentReqId = r₁.parentReqId := by
    refine Ledger.forall_lookup_insert (fun c' r' hr' => ⟨r', hr', rfl, rfl⟩) ?_
    exact ⟨r, hr, rfl, rfl⟩
  refine ⟨fun c' r' hr' hparent' => ?_, fun c₁ r₁ c₂ r₂ h₁ h₂ hp₁ hp₂ huuid => ?_, fun u hu => ?_,
    hnodup, fun c' hc' => ?_⟩
  · obtain ⟨rfl, rfl⟩ | ⟨hne, hr'⟩ := Ledger.eq_or_of_lookup_insert hr'
    · exact ⟨(h.child c' r hr hparent).1, hself⟩
    · obtain ⟨hleft, hidle⟩ := h.child c' r' hr' hparent'
      exact ⟨hleft, (hother c' hne).trans hidle⟩
  · obtain ⟨r₁', h₁', hu₁, hq₁⟩ := hback c₁ r₁ h₁
    obtain ⟨r₂', h₂', hu₂, hq₂⟩ := hback c₂ r₂ h₂
    exact h.unique c₁ r₁' c₂ r₂' h₁' h₂' (hq₁.symm.trans hp₁) (hq₂.symm.trans hp₂)
      (hu₁.symm.trans (huuid.trans hu₂))
  · obtain ⟨c', r', hr', hparent', hu'⟩ := h.all u hu
    by_cases hcc : c' = c
    · subst hcc
      obtain rfl := Option.some.inj (hr.symm.trans hr')
      exact ⟨c', _, AList.lookup_insert _, hparent', hu'⟩
    · exact ⟨c', r', (AList.lookup_insert_ne hcc).trans hr', hparent', hu'⟩
  · by_cases hcc : c' = c
    · subst hcc
      exact ⟨_, AList.lookup_insert _, hparent⟩
    · obtain ⟨r', hr', hparent'⟩ := h.units c' ((hother c' hcc).mp hc')
      exact ⟨r', (AList.lookup_insert_ne hcc).trans hr', hparent'⟩

/-- The first unit is posted. -/
theorem Children.post (h : Children requests id left (c :: units))
    (hr : requests.lookup c = some r) :
    Children (requests.insert c { r with place := .fetching }) id left units := by
  obtain ⟨hc, hnodup⟩ := List.nodup_cons.mp h.nodup
  obtain ⟨r₀, hr₀, hparent⟩ := h.units c List.mem_cons_self
  obtain rfl : r = r₀ := Option.some.inj (hr.symm.trans hr₀)
  refine h.place hr hparent (iff_of_false hc Place.noConfusion) (fun c' hne => ?_) hnodup
  rw [List.mem_cons, or_iff_right hne]

/-- What was posted is no unit. -/
theorem Children.notMem_units (h : Children requests id left units)
    (hr : requests.lookup c = some r) (hparent : r.parentReqId = id) (hplace : r.place ≠ .idle) :
    c ∉ units := fun hc => hplace ((h.child c r hr hparent).2.mp hc)

/-- A request that was posted goes to another place. -/
theorem Children.move (h : Children requests id left units) (hr : requests.lookup c = some r)
    (hparent : r.parentReqId = id) (hplace : r.place ≠ .idle) {q : Place} (hq : q ≠ .idle) :
    Children (requests.insert c { r with place := q }) id left units :=
  h.place hr hparent (iff_of_false (h.notMem_units hr hparent hplace) hq) (fun _ _ => Iff.rfl)
    h.nodup

/-- A request that is answered and its name go together. -/
theorem Children.erase (h : Children requests id (Left pieces) units)
    (hr : requests.lookup c = some r) (hparent : r.parentReqId = id) (hplace : r.place ≠ .idle) :
    Children (requests.erase c) id (Left (pieces.erase (.canonical r.uuid))) units := by
  have hc := h.notMem_units hr hparent hplace
  refine ⟨fun c' r' hr' hparent' => ?_, fun c₁ r₁ c₂ r₂ h₁ h₂ => ?_, fun u hu => ?_, h.nodup,
    fun c' hc' => ?_⟩
  · obtain ⟨hne, hr'⟩ := Ledger.of_lookup_erase hr'
    obtain ⟨hleft, hidle⟩ := h.child c' r' hr' hparent'
    have huuid : r'.uuid ≠ r.uuid := fun heq => hne (h.unique c' r' c r hr' hr hparent' hparent heq)
    refine ⟨?_, hidle⟩
    rw [Left, AList.lookup_erase_ne fun heq => huuid (PieceName.canonical.inj heq)]
    exact hleft
  · exact h.unique c₁ r₁ c₂ r₂ (Ledger.of_lookup_erase h₁).2 (Ledger.of_lookup_erase h₂).2
  · rw [Left, Ledger.lookup_erase_ite] at hu
    split_ifs at hu with heq
    · exact absurd rfl hu
    · obtain ⟨c', r', hr', hparent', hu'⟩ := h.all u hu
      have hne : c' ≠ c := by
        rintro rfl
        obtain rfl := Option.some.inj (hr.symm.trans hr')
        exact heq (congrArg PieceName.canonical hu'.symm)
      exact ⟨c', r', (AList.lookup_erase_ne hne).trans hr', hparent', hu'⟩
  · obtain ⟨r', hr', hparent'⟩ := h.units c' hc'
    have hne : c' ≠ c := fun heq => hc (heq ▸ hc')
    exact ⟨r', (AList.lookup_erase_ne hne).trans hr', hparent'⟩

/-! ### Posting -/

/-- A state that differs in the first request and the requests for pieces. -/
structure Within (s t : Fetch) : Prop where
  uuid : t.uuid = s.uuid
  requestCounter : t.requestCounter = s.requestCounter
  others : t.others = s.others
  ownedKey : t.ownedKey = s.ownedKey
  shouldBlockGetRequest : t.shouldBlockGetRequest = s.shouldBlockGetRequest
  waiting : t.waiting = s.waiting
  answers : t.answers = s.answers

theorem Within.refl (s : Fetch) : Within s s := ⟨rfl, rfl, rfl, rfl, rfl, rfl, rfl⟩

/-- The answers and those who wait say who is in which place. -/
theorem kept_of_same (hwaiting : t.waiting = s.waiting) (hanswers : t.answers = s.answers)
    (hblock : t.shouldBlockGetRequest = s.shouldBlockGetRequest) : Kept s t := by
  refine ⟨?_, ?_, hblock⟩
  · rw [Fetch.clients, Fetch.clients, hanswers, hwaiting]
  · rw [Fetch.refused, Fetch.refused, hanswers]

theorem Within.kept (h : Within s t) : Kept s t :=
  kept_of_same h.waiting h.answers h.shouldBlockGetRequest

theorem Within.trans {u : Fetch} (h : Within s t) (h' : Within t u) : Within s u :=
  ⟨h'.uuid.trans h.uuid, h'.requestCounter.trans h.requestCounter, h'.others.trans h.others,
    h'.ownedKey.trans h.ownedKey, h'.shouldBlockGetRequest.trans h.shouldBlockGetRequest,
    h'.waiting.trans h.waiting, h'.answers.trans h.answers⟩

/-- Posts keep the ids below the counter. -/
theorem Fetch.Bounded.posts (hb : s.Bounded) (h : Within s t) (hp : Posts s.requests t.requests) :
    t.Bounded where
  requests c r' hr' := by
    obtain ⟨r, hr, -, hparent, -, -⟩ := hp.back c r' hr'
    rw [h.requestCounter, hparent]
    exact hb.requests c r hr
  waiting := by
    rw [h.waiting, h.requestCounter]
    exact hb.waiting
  others := by
    rw [h.others, h.requestCounter]
    exact hb.others

/-- Posts keep the keys of the requests. -/
theorem Keyed.posts {requests' : Table ID32 PieceRequest} (h : Keyed requests id)
    (hp : Posts requests requests') : Keyed requests' id := by
  intro c r' hr' hparent'
  obtain ⟨r, hr, -, hparent, hkey, -⟩ := hp.back c r' hr'
  rw [hkey]
  exact h c r hr (hparent ▸ hparent')

/-- What a request is while its file is written. -/
def Leader.at (l : Leader) (file : Bytes) (pieces : Table PieceName PieceInfo)
    (units : List ID32) : Leader :=
  { l with phase := .getting file pieces units }

/-- **The next piece is asked for.** What was not a unit stays as it is, and if there is a unit
left, a piece that was one was asked for. -/
theorem postStorageNextPieceGetRequest_spec (hl : s.leader = some (l.at file pieces units))
    (h : Children s.requests l.id left units) :
    ∃ t units', s.postStorageNextPieceGetRequest l file pieces units = some (t, units') ∧
      t.leader = some (l.at file pieces units') ∧ Within s t ∧ Posts s.requests t.requests ∧
      Children t.requests l.id left units' ∧ units'.length = units.length - 1 ∧
      (∀ c, c ∉ units → t.requests.lookup c = s.requests.lookup c) ∧
      ∀ c, (∀ c' ∈ c, c' ∉ units) → BusyBut c t.requests l.id units' := by
  cases units with
  | nil =>
    refine ⟨s, [], rfl, hl, .refl s, .refl _, h, rfl, fun _ _ => rfl, ?_⟩
    exact fun _ _ hne => absurd rfl hne
  | cons i units =>
    obtain ⟨r, hr, hparent⟩ := h.units i List.mem_cons_self
    refine ⟨(s.setRequest i { r with place := .fetching }).setLeader (l.at file pieces units),
      units, ?_, rfl, ⟨rfl, rfl, rfl, rfl, rfl, rfl, rfl⟩, ⟨?_⟩, h.post hr, rfl, fun c hc => ?_,
      fun c hc _ => ?_⟩
    · rw [Fetch.postStorageNextPieceGetRequest, hr]
      rfl
    · refine Ledger.forall_lookup_insert (fun c' r' hr' => ?_) ⟨r, hr, rfl, rfl, rfl, .inr rfl⟩
      exact ⟨r', hr', rfl, rfl, rfl, .inl rfl⟩
    · exact AList.lookup_insert_ne fun heq => hc (heq ▸ List.mem_cons_self)
    · refine ⟨i, _, fun heq => ?_, AList.lookup_insert _, hparent, rfl⟩
      exact hc i heq.symm List.mem_cons_self

/-- The first pieces are asked for, and if there is one to ask for at all, the get is busy. -/
theorem postStorageFirstPieces_spec {n : ℕ} (hl : s.leader = some (l.at file pieces units))
    (h : Children s.requests l.id left units) (hbusy : n = 0 → BusyBut none s.requests l.id units) :
    ∃ t units', Fetch.postStorageFirstPieces l file pieces n s units = (t, true) ∧
      t.leader = some (l.at file pieces units') ∧ Within s t ∧ Posts s.requests t.requests ∧
      Children t.requests l.id left units' ∧ BusyBut none t.requests l.id units' := by
  induction n generalizing s units with
  | zero => exact ⟨s, units, rfl, hl, .refl s, .refl _, h, hbusy rfl⟩
  | succ n ih =>
    obtain ⟨t, units', ht, hlt, hwithin, hposts, hchildren, -, -, hnext⟩ :=
      postStorageNextPieceGetRequest_spec hl h
    have hbusy' : BusyBut none t.requests l.id units' := hnext none fun c hc => by cases hc
    obtain ⟨u, units'', hu, hlu, hwithin', hposts', hrest⟩ := ih hlt hchildren fun _ => hbusy'
    refine ⟨u, units'', ?_, hlu, hwithin.trans hwithin', hposts.trans hposts', hrest⟩
    rw [Fetch.postStorageFirstPieces, ht]
    exact hu

/-! ### Making the requests -/

/-- A request more, for a name that has none. -/
theorem Children.insert {done : List UUID} (h : Children requests id (· ∈ done) units)
    (hc : requests.lookup c = none) (hparent : r.parentReqId = id) (hplace : r.place = .idle)
    (hu : r.uuid ∉ done) :
    Children (requests.insert c r) id (· ∈ done ++ [r.uuid]) (units ++ [c]) := by
  have hnew : c ∉ units := by
    intro hmem
    obtain ⟨r', hr', -⟩ := h.units c hmem
    rw [hc] at hr'
    cases hr'
  have hne : ∀ c' r', requests.lookup c' = some r' → c' ≠ c := by
    rintro c' r' hr' rfl
    rw [hc] at hr'
    cases hr'
  have hold : ∀ c' r', requests.lookup c' = some r' → r'.parentReqId = id → r'.uuid ≠ r.uuid :=
    fun c' r' hr' hp heq => hu (heq ▸ (h.child c' r' hr' hp).1)
  refine ⟨fun c' r' hr' hp => ?_, fun c₁ r₁ c₂ r₂ h₁ h₂ hp₁ hp₂ huuid => ?_, fun u hmem => ?_, ?_,
    fun c' hc' => ?_⟩
  · obtain ⟨rfl, rfl⟩ | ⟨hcc, hr'⟩ := Ledger.eq_or_of_lookup_insert hr'
    · exact ⟨List.mem_append_right _ (List.mem_singleton_self _),
        iff_of_true (List.mem_append_right _ (List.mem_singleton_self _)) hplace⟩
    · obtain ⟨hdone, hidle⟩ := h.child c' r' hr' hp
      refine ⟨List.mem_append_left _ hdone, ?_⟩
      rw [← hidle, List.mem_append, List.mem_singleton, or_iff_left hcc]
  · obtain ⟨rfl, rfl⟩ | ⟨-, hold₁⟩ := Ledger.eq_or_of_lookup_insert h₁
    · obtain ⟨rfl, -⟩ | ⟨-, hold₂⟩ := Ledger.eq_or_of_lookup_insert h₂
      · rfl
      · exact absurd huuid.symm (hold c₂ r₂ hold₂ hp₂)
    · obtain ⟨rfl, rfl⟩ | ⟨-, hold₂⟩ := Ledger.eq_or_of_lookup_insert h₂
      · exact absurd huuid (hold c₁ r₁ hold₁ hp₁)
      · exact h.unique c₁ r₁ c₂ r₂ hold₁ hold₂ hp₁ hp₂ huuid
  · rcases List.mem_append.mp hmem with hmem | hmem
    · obtain ⟨c', r', hr', hp, hu'⟩ := h.all u hmem
      exact ⟨c', r', (AList.lookup_insert_ne (hne c' r' hr')).trans hr', hp, hu'⟩
    · exact ⟨c, r, AList.lookup_insert _, hparent, (List.mem_singleton.mp hmem).symm⟩
  · exact List.nodup_append.mpr ⟨h.nodup, List.nodup_singleton _, fun a ha b hb heq =>
      hnew (List.mem_singleton.mp hb ▸ heq ▸ ha)⟩
  · rcases List.mem_append.mp hc' with hc' | hc'
    · obtain ⟨r', hr', hp⟩ := h.units c' hc'
      exact ⟨r', (AList.lookup_insert_ne (hne c' r' hr')).trans hr', hp⟩
    · rw [List.mem_singleton.mp hc']
      exact ⟨r, AList.lookup_insert _, hparent⟩

/-- Who has no requests for pieces may start with them. -/
theorem children_nil (hnone : ∀ c r, requests.lookup c = some r → r.parentReqId ≠ id) :
    Children requests id (· ∈ ([] : List UUID)) [] := by
  refine ⟨fun c r hr hparent => absurd hparent (hnone c r hr), fun c r _ _ hr _ hparent => ?_,
    fun u hu => absurd hu List.not_mem_nil, List.nodup_nil, List.forall_mem_nil _⟩
  exact absurd hparent (hnone c r hr)

/-- A new id is below the next one. -/
theorem Fetch.Bounded.insert (hb : s.Bounded) (hp : r.parentReqId < s.requestCounter) :
    ({ s with requestCounter := s.requestCounter + 1 }.setRequest s.requestCounter r).Bounded where
  requests := by
    refine Ledger.forall_lookup_insert (fun c r' hr' => ?_) ?_
    · obtain ⟨hc, hp'⟩ := hb.requests c r' hr'
      exact ⟨Nat.lt_succ_of_lt hc, Nat.lt_succ_of_lt hp'⟩
    · exact ⟨Nat.lt_succ_self _, Nat.lt_succ_of_lt hp⟩
  waiting w hw := Nat.lt_succ_of_lt (hb.waiting w hw)
  others c hc := Nat.lt_succ_of_lt (hb.others c hc)

theorem Fetch.Bounded.setLeader (hb : s.Bounded) (l : Leader) : (s.setLeader l).Bounded :=
  ⟨hb.requests, hb.waiting, hb.others⟩

theorem Fetch.Bounded.lookup_counter (hb : s.Bounded) :
    s.requests.lookup s.requestCounter = none := by
  cases h : s.requests.lookup s.requestCounter with
  | none => rfl
  | some r => exact absurd (hb.requests _ r h).1 (Nat.lt_irrefl _)

/-- **No id is taken**: while the ids last, the next one belongs to nobody. -/
theorem Fetch.Bounded.getRequestId (hb : s.Bounded) (hroom : s.requestCounter + 1 < idBound) :
    s.getRequestId =
      ({ s with requestCounter := s.requestCounter + 1 }, some s.requestCounter) := by
  have hfree : ¬ s.InUse s.requestCounter := by
    rintro (huse | hwait | hother)
    · exact huse hb.lookup_counter
    · obtain ⟨w, hw, heq⟩ := List.mem_map.mp hwait
      exact absurd (hb.waiting w hw) (heq ▸ Nat.lt_irrefl _)
    · exact absurd (hb.others _ hother) (Nat.lt_irrefl _)
  rw [Fetch.getRequestId, if_neg hfree, nextCounter_of_lt hroom]

/-- What the loop over the pieces of a master object makes: requests that are not posted yet, with
the key of the piece, or without one where the master object does not have the piece. -/
structure Made (l : Leader) (pieces : Table PieceName PieceInfo) (s t : Fetch) : Prop where
  waiting : t.waiting = s.waiting
  answers : t.answers = s.answers
  uuid : t.uuid = s.uuid
  ownedKey : t.ownedKey = s.ownedKey
  shouldBlockGetRequest : t.shouldBlockGetRequest = s.shouldBlockGetRequest
  leader : t.leader = s.leader
  requestCounter : s.requestCounter ≤ t.requestCounter
  bounded : t.Bounded
  back : ∀ c r, t.requests.lookup c = some r → s.requests.lookup c = some r ∨
    r.parentReqId = l.id ∧ r.place = .idle ∧
      ((∃ p, pieces.lookup (.canonical r.uuid) = some p ∧ r.aesKey = Fetch.pieceKey l.aesKey p) ∨
        pieces.lookup (.canonical r.uuid) = none ∧ r.aesKey = ⟨[], []⟩)

theorem Made.refl (hb : s.Bounded) : Made l pieces s s :=
  ⟨rfl, rfl, rfl, rfl, rfl, rfl, le_rfl, hb, fun _ _ h => .inl h⟩

theorem Made.trans {u : Fetch} (h : Made l pieces s t) (h' : Made l pieces t u) :
    Made l pieces s u := by
  refine ⟨h'.waiting.trans h.waiting, h'.answers.trans h.answers, h'.uuid.trans h.uuid,
    h'.ownedKey.trans h.ownedKey, h'.shouldBlockGetRequest.trans h.shouldBlockGetRequest,
    h'.leader.trans h.leader, h.requestCounter.trans h'.requestCounter, h'.bounded,
    fun c r hr => ?_⟩
  rcases h'.back c r hr with hr | hnew
  · exact h.back c r hr
  · exact .inr hnew

/-- A request more, for a name of the master object. -/
theorem Made.insert (hb : s.Bounded) (hid : l.id < s.requestCounter)
    (hparent : r.parentReqId = l.id) (hplace : r.place = .idle)
    (hkey : (∃ p, pieces.lookup (.canonical r.uuid) = some p ∧
      r.aesKey = Fetch.pieceKey l.aesKey p) ∨
        pieces.lookup (.canonical r.uuid) = none ∧ r.aesKey = ⟨[], []⟩) :
    Made l pieces s
      ({ s with requestCounter := s.requestCounter + 1 }.setRequest s.requestCounter r) := by
  refine ⟨rfl, rfl, rfl, rfl, rfl, rfl, Nat.le_succ _, hb.insert (hparent ▸ hid),
    fun c r' hr' => ?_⟩
  obtain ⟨-, rfl⟩ | ⟨-, hr'⟩ := Ledger.eq_or_of_lookup_insert hr'
  · exact .inr ⟨hparent, hplace, hkey⟩
  · exact .inl hr'

/-- **The requests for the pieces.** If the loop comes to its end, all names were those `toString`
gives, and each has a request. -/
theorem constructGetRequests_spec {ps : List (Σ _ : PieceName, PieceInfo)} {done : List UUID}
    (hb : s.Bounded) (hid : l.id < s.requestCounter)
    (hroom : s.requestCounter + ps.length < idBound)
    (hsub : ∀ e ∈ ps, pieces.lookup e.1 = some e.2) (husable : Usable pieces l.aesKey)
    (hnodup : (done.map PieceName.canonical ++ ps.map Sigma.fst).Nodup)
    (h : Children s.requests l.id (· ∈ done) units) :
    ∃ t made, Fetch.constructGetRequests l pieces s ps units = (t, made) ∧ Made l pieces s t ∧
      ∀ units' ∈ made, ∃ us : List UUID, ps.map Sigma.fst = us.map PieceName.canonical ∧
        (∀ e ∈ ps, e.2.size ≠ .missing) ∧
          Children t.requests l.id (· ∈ done ++ us) units' := by
  induction ps generalizing s done units with
  | nil =>
    refine ⟨s, some units, rfl, .refl hb, fun units' hunits => ⟨[], rfl, List.forall_mem_nil _, ?_⟩⟩
    obtain rfl := Option.some.inj hunits
    rw [List.append_nil]
    exact h
  | cons e ps ih =>
    obtain ⟨name, p⟩ := e
    have hp : pieces.lookup name = some p := hsub _ List.mem_cons_self
    have hthrows : Fetch.readPiece name p = none →
        ∃ t made, Fetch.constructGetRequests l pieces s (⟨name, p⟩ :: ps) units = (t, made) ∧
          Made l pieces s t ∧ ∀ units' ∈ made, ∃ us : List UUID,
            (name :: ps.map Sigma.fst) = us.map PieceName.canonical ∧
              (∀ e ∈ (⟨name, p⟩ :: ps : List (Σ _ : PieceName, PieceInfo)), e.2.size ≠ .missing) ∧
                Children t.requests l.id (· ∈ done ++ us) units' := by
      intro hread
      refine ⟨s, none, ?_, .refl hb, fun _ hnone => absurd hnone (Option.not_mem_none _)⟩
      rw [Fetch.constructGetRequests, hread]
    cases hread : Fetch.readPiece name p with
    | none => exact hthrows hread
    | some u =>
      have hone : s.requestCounter + 1 < idBound :=
        (Nat.add_le_add_left (Nat.succ_le_succ (Nat.zero_le ps.length)) _).trans_lt hroom
      have hget := hb.getRequestId hone
      cases name with
      | other text v =>
        -- the uuid has no name of its own, so the loop ends here
        obtain rfl : v = some u := by
          unfold Fetch.readPiece at hread
          split at hread
          · rename_i heq
            cases heq
          · rename_i heq
            obtain ⟨-, rfl⟩ := PieceName.other.inj heq
            split_ifs at hread
            exact hread
          · cases hread
        have hnone : pieces.lookup (.canonical u) = none := Ledger.all_iff.mp husable _ p hp
        refine ⟨{ s with requestCounter := s.requestCounter + 1 }.setRequest s.requestCounter
          ⟨u, l.id, ⟨[], []⟩, .idle⟩, none, ?_, .insert hb hid rfl rfl (.inr ⟨hnone, rfl⟩),
          fun _ hnone => absurd hnone (Option.not_mem_none _)⟩
        rw [Fetch.constructGetRequests, hread]
        simp only [Fetch.constructGetRequestForPiece, hget, hnone]
      | canonical v =>
        obtain ⟨rfl, hsize⟩ : v = u ∧ p.size ≠ .missing := by
          unfold Fetch.readPiece at hread
          split at hread
          · rename_i n w hn heq
            obtain rfl := PieceName.canonical.inj heq
            split_ifs at hread
            exact ⟨Option.some.inj hread, hn ▸ NumberField.noConfusion⟩
          · rename_i heq
            cases heq
          · cases hread
        have hv : v ∉ done := fun hmem => (List.nodup_append.mp hnodup).2.2 _
          (List.mem_map_of_mem hmem) _ List.mem_cons_self rfl
        have hnodup' : ((done ++ [v]).map PieceName.canonical ++ ps.map Sigma.fst).Nodup := by
          rw [List.map_append, List.append_assoc]
          exact hnodup
        have hins := h.insert (r := ⟨v, l.id, Fetch.pieceKey l.aesKey p, .idle⟩) hb.lookup_counter
          rfl rfl hv
        have hmade₁ : Made l pieces s
            ({ s with requestCounter := s.requestCounter + 1 }.setRequest s.requestCounter
              ⟨v, l.id, Fetch.pieceKey l.aesKey p, .idle⟩) :=
          .insert hb hid rfl rfl (.inl ⟨p, hp, rfl⟩)
        obtain ⟨t, made, ht, hmade, hall⟩ := ih hmade₁.bounded (Nat.lt_succ_of_lt hid)
          (show s.requestCounter + 1 + ps.length < idBound by
            rw [Nat.add_assoc, Nat.add_comm 1]
            exact hroom)
          (fun e he => hsub e (List.mem_cons_of_mem _ he)) hnodup' hins
        refine ⟨t, made, ?_, hmade₁.trans hmade, fun units' hunits => ?_⟩
        · rw [Fetch.constructGetRequests, hread]
          simp only [Fetch.constructGetRequestForPiece, hget, hp]
          exact ht
        · obtain ⟨us, hus, hsizes, hchildren⟩ := hall units' hunits
          refine ⟨v :: us, congrArg (PieceName.canonical v :: ·) hus,
            List.forall_mem_cons.mpr ⟨hsize, hsizes⟩, ?_⟩
          rw [List.append_assoc] at hchildren
          exact hchildren

theorem Children.congr {left' : UUID → Prop} (h : Children requests id left units)
    (hleft : ∀ u, left u ↔ left' u) : Children requests id left' units where
  child c r hr hparent := (h.child c r hr hparent).imp_left (hleft _).mp
  unique := h.unique
  all u hu := h.all u ((hleft u).mpr hu)
  nodup := h.nodup
  units := h.units

/-- What is left at first are all names. -/
theorem left_iff_of_names {us : List UUID}
    (hus : pieces.entries.map Sigma.fst = us.map PieceName.canonical) :
    u ∈ us ↔ Left pieces u := by
  have hkey : pieces.keys = us.map PieceName.canonical := hus
  rw [Left, ne_eq, AList.lookup_eq_none, not_not, AList.mem_keys, hkey,
    List.mem_map_of_injective fun _ _ heq => PieceName.canonical.inj heq]

/-! ### The handlers -/

theorem Led.of_within (hs : Led s id) (h : Within s t) (hl : t.leader ≠ none) (hb : t.Bounded) :
    Led t id where
  waiting := h.waiting ▸ hs.waiting
  leader := hl
  bounded := hb
  id_lt := h.requestCounter ▸ hs.id_lt
  owned := h.ownedKey ▸ hs.owned

/-- A master object that is not valid is answered. -/
theorem goes_notValid (hs : Led s id) :
    Goes s (s.handleFailedImsGetRequest (some Fetch.notValid)) :=
  goes_sendImsResponse (refuses_failed s _) hs

/-- A first request without pieces starts to get them. -/
theorem startGettingPieces_spec {m : MasterInfo} (hs : Led s l.id)
    (hroom : s.requestCounter + m.pieces.entries.length < idBound)
    (husable : Usable m.pieces l.aesKey)
    (hnone : ∀ c r, s.requests.lookup c = some r → r.parentReqId ≠ l.id) :
    Goes s (s.startGettingPieces codec l m) := by
  unfold Fetch.startGettingPieces
  dsimp only
  split_ifs with hempty
  -- without pieces the answer is the content of the master object
  · exact goes_sendImsResponse rfl hs
  obtain ⟨t, made, ht, hmade, hall⟩ := constructGetRequests_spec hs.bounded hs.id_lt hroom
    (fun e he => AList.mem_lookup_iff.mpr he) husable
    (show (([] : List UUID).map PieceName.canonical ++ m.pieces.keys).Nodup
      from m.pieces.keys_nodup)
    (children_nil hnone)
  have hkept : Kept s t := kept_of_same hmade.waiting hmade.answers hmade.shouldBlockGetRequest
  have hled : Led t l.id := by
    refine ⟨hmade.waiting ▸ hs.waiting, hmade.leader ▸ hs.leader, hmade.bounded,
      hs.id_lt.trans_le hmade.requestCounter, hmade.ownedKey ▸ hs.owned⟩
  -- the requests that were made, or none where a piece was not valid
  rw [ht]
  cases made with
  | none => exact (goes_notValid hled).of_kept hkept
  | some units =>
    obtain ⟨us, hus, hsizes, hchildren⟩ := hall units rfl
    have hleft := hchildren.congr fun u => left_iff_of_names hus
    -- up to `maxGetCount` of them are posted now
    obtain ⟨u, units', hu, hlu, hwithin, hposts, hchildren', hbusy⟩ :=
      postStorageFirstPieces_spec (n := maxGetCount)
        (s := t.setLeader (l.at (prepareFileWrite codec m) m.pieces units)) rfl hleft
        fun h => by cases h
    have hset : Within t (t.setLeader (l.at (prepareFileWrite codec m) m.pieces units)) :=
      ⟨rfl, rfl, rfl, rfl, rfl, rfl, rfl⟩
    have hwithin' : Within t u := hset.trans hwithin
    have hled' : Led u l.id :=
      hled.of_within hwithin' (by rw [hlu]; exact Option.some_ne_none _)
        (hled.bounded.posts hwithin' hposts)
    -- every piece has its place in the file
    have hplaced : Placed m.pieces := by
      intro name p hp
      have hmem : ⟨name, p⟩ ∈ m.pieces.entries := AList.mem_lookup_iff.mp hp
      have hname : name ∈ us.map PieceName.canonical := hus ▸ List.mem_map_of_mem hmem
      obtain ⟨v, -, rfl⟩ := List.mem_map.mp hname
      exact ⟨⟨v, rfl⟩, (Ledger.all_iff.mp husable _ p hp).1, hsizes _ hmem⟩
    -- and its key can be used
    have hkeyed : Keyed t.requests l.id := by
      intro c r hr hparent
      rcases hmade.back c r hr with hold | ⟨-, -, ⟨p, hp, hkey⟩ | ⟨-, hkey⟩⟩
      · exact absurd hparent (hnone c r hold)
      · exact hkey ▸ (Ledger.all_iff.mp husable _ p hp).2
      · exact hkey ▸ .inl ⟨rfl, rfl⟩
    dsimp only
    rw [show Fetch.postStorageFirstPieces l (prepareFileWrite codec m) m.pieces maxGetCount
      (t.setLeader { l with phase := .getting (prepareFileWrite codec m) m.pieces units }) units =
        (u, true) from hu]
    refine ⟨u, rfl, ⟨fun l' hl' => ?_, fun hnone' => ?_, hled'.bounded, hled'.owned⟩,
      hkept.trans hwithin'.kept⟩
    · obtain rfl := Option.some.inj (hlu.symm.trans hl')
      exact ⟨hled'.waiting, hled'.id_lt, hchildren', hempty, hbusy, hplaced, hkeyed.posts hposts⟩
    · rw [hlu] at hnone'
      cases hnone'

/-- A master object was read. -/
theorem handleUnencryptedMasterObject_spec {data : Bytes} (hs : Led s l.id)
    (hregular : ∀ m ∈ codec.parse data, Usable m.pieces l.aesKey ∧
      s.requestCounter + m.pieces.entries.length < idBound)
    (hnone : ∀ c r, s.requests.lookup c = some r → r.parentReqId ≠ l.id) :
    Goes s (s.handleUnencryptedMasterObject codec l data) := by
  unfold Fetch.handleUnencryptedMasterObject
  cases hparse : codec.parse data with
  | none => exact goes_notValid hs
  | some m =>
    dsimp only
    split_ifs with hstream
    · refine ⟨_, rfl, ⟨fun l' hl' => ?_, fun hnone' => ?_, hs.bounded.setLeader _, hs.owned⟩,
        ⟨rfl, rfl, rfl⟩⟩
      · obtain rfl := Option.some.inj hl'
        exact ⟨hs.waiting, hs.id_lt, hnone⟩
      · cases hnone'
    · obtain ⟨husable, hroom⟩ := hregular m hparse
      exact startGettingPieces_spec (l := { l with contentType := m.contentType }) hs hroom husable
        hnone

/-- What happens to the requests of others does not matter to a first request. -/
theorem Leader.Sound.congr {requests' : Table ID32 PieceRequest} (h : l.Sound requests)
    (hsame : ∀ c r, r.parentReqId = l.id →
      (requests'.lookup c = some r ↔ requests.lookup c = some r)) : l.Sound requests' := by
  unfold Leader.Sound at h ⊢
  cases hp : l.phase with
  | getting file pieces units =>
    rw [hp] at h
    obtain ⟨hchildren, hempty, hbusy, hplaced, hkeyed⟩ := h
    refine ⟨⟨fun c r hr hparent => ?_, fun c r c' r' hr hr' hparent hparent' => ?_, fun u hu => ?_,
      hchildren.nodup, fun c hc => ?_⟩, hempty, fun hne => ?_, hplaced,
      fun c r hr hparent => hkeyed c r ((hsame c r hparent).mp hr) hparent⟩
    · exact hchildren.child c r ((hsame c r hparent).mp hr) hparent
    · exact hchildren.unique c r c' r' ((hsame c r hparent).mp hr) ((hsame c' r' hparent').mp hr')
        hparent hparent'
    · obtain ⟨c, r, hr, hparent, huuid⟩ := hchildren.all u hu
      exact ⟨c, r, (hsame c r hparent).mpr hr, hparent, huuid⟩
    · obtain ⟨r, hr, hparent⟩ := hchildren.units c hc
      exact ⟨r, (hsame c r hparent).mpr hr, hparent⟩
    · obtain ⟨c, r, hc, hr, hparent, hplace⟩ := hbusy hne
      exact ⟨c, r, hc, (hsame c r hparent).mpr hr, hparent, hplace⟩
  | fetching =>
    rw [hp] at h
    exact ⟨fun c r hr hparent => h.1 c r ((hsame c r hparent).mp hr) hparent, h.2⟩
  | decrypting key pkg | streaming =>
    rw [hp] at h
    exact fun c r hr hparent => h c r ((hsame c r hparent).mp hr) hparent

/-- What happens to the requests of others keeps the invariant. -/
theorem Sound.others {requests' : Table ID32 PieceRequest} (hs : Sound s)
    (hsame : ∀ l, s.leader = some l → ∀ c r, r.parentReqId = l.id →
      (requests'.lookup c = some r ↔ s.requests.lookup c = some r))
    (hb : ∀ c r, requests'.lookup c = some r → ∃ r', s.requests.lookup c = some r' ∧
      r.parentReqId = r'.parentReqId) : Sound { s with requests := requests' } where
  leader l hl := by
    obtain ⟨hw, hid, hsound⟩ := hs.leader l hl
    exact ⟨hw, hid, hsound.congr (hsame l hl)⟩
  waiting := hs.waiting
  bounded := by
    refine ⟨fun c r hr => ?_, hs.bounded.waiting, hs.bounded.others⟩
    obtain ⟨r', hr', hparent⟩ := hb c r hr
    rw [hparent]
    exact hs.bounded.requests c r' hr'
  owned := hs.owned

/-- When nobody waits any more, a request may go. -/
theorem Sound.eraseRequest_of_none (hs : Sound s) (hnone : s.leader = none) (c : ID32) :
    Sound (s.eraseRequest c) :=
  hs.others (fun l hl => absurd (hnone.symm.trans hl) (Option.some_ne_none l).symm)
    fun _ r' hr' => ⟨r', (Ledger.of_lookup_erase hr').2, rfl⟩

/-- A piece is written and its request erased. -/
theorem processUnencryptedPiece_spec {data : Bytes} (hs : Led s l.id)
    (hr : s.requests.lookup c = some r) (hparent : r.parentReqId = l.id) (hplace : r.place ≠ .idle)
    (h : Children s.requests l.id (Left pieces) units) (hplaced : Placed pieces)
    (hkeyed : Keyed s.requests l.id) (hbusy : BusyBut (some c) s.requests l.id units) :
    Goes s (s.processUnencryptedPiece (l.at file pieces units) c r data) := by
  obtain ⟨p, hp⟩ := Option.ne_none_iff_exists'.mp (h.child c r hr hparent).1
  obtain ⟨-, hstart, hsize⟩ := hplaced _ p hp
  obtain ⟨start, hvalue⟩ : ∃ n, p.start = .value n := by
    cases hvalue : p.start with
    | value n => exact ⟨n, rfl⟩
    | missing | unreadable =>
      rw [hvalue] at hstart
      cases hstart
  have hassert : p.start ≠ .missing ∧ p.size ≠ .missing :=
    ⟨by rw [hvalue]; exact NumberField.noConfusion, hsize⟩
  unfold Fetch.processUnencryptedPiece Fetch.writeDataToStream Leader.at
  dsimp only
  rw [hp, Option.bind_some, pocoAssert, if_pos hassert, hvalue]
  dsimp only
  split_ifs with hempty
  · -- the file is complete, so nobody waits any more
    obtain ⟨t, ht, hsound, hkept⟩ :=
      goes_sendImsResponse (a := .getData (Patches.write 0 file start data) l.contentType) rfl
        (hs.of_within (t := s.setLeader (l.at (Patches.write 0 file start data)
          (pieces.erase (.canonical r.uuid)) units)) ⟨rfl, rfl, rfl, rfl, rfl, rfl, rfl⟩
            (Option.some_ne_none _) (hs.bounded.setLeader _))
    have hnone : t.leader = none := by
      obtain rfl := Option.some.inj
        ((sendImsResponse_eq (s := s.setLeader _) hs.waiting).symm.trans ht)
      rfl
    refine ⟨t.eraseRequest c, ?_, hsound.eraseRequest_of_none hnone c, ⟨hkept.clients,
      hkept.refused, hkept.blocked⟩⟩
    exact congrArg (Option.map _) (congrArg (Option.map fun s => (s, false)) ht)
  · refine ⟨_, rfl, ⟨fun l' hl' => ?_, fun hnone => ?_, ⟨fun c' r' hr' => ?_, hs.bounded.waiting,
      hs.bounded.others⟩, hs.owned⟩, ⟨rfl, rfl, rfl⟩⟩
    · obtain rfl := Option.some.inj hl'
      refine ⟨hs.waiting, hs.id_lt, h.erase hr hparent hplace, hempty, fun hne => ?_,
        fun name q hq => hplaced name q (Ledger.of_lookup_erase hq).2,
        fun c' r' hr' => hkeyed c' r' (Ledger.of_lookup_erase hr').2⟩
      obtain ⟨c', r', hc', hr', hparent', hplace'⟩ := hbusy hne
      have hcc : c' ≠ c := fun heq => hc' (congrArg some heq)
      exact ⟨c', r', Option.some_ne_none c', (AList.lookup_erase_ne hcc).trans hr', hparent',
        hplace'⟩
    · cases hnone
    · exact hs.bounded.requests c' r' (Ledger.of_lookup_erase hr').2

theorem parent_eq_some : s.parent id = some l ↔ s.leader = some l ∧ l.id = id := by
  rw [Fetch.parent, Option.filter_eq_some_iff, decide_eq_true_iff]

theorem ne_of_parent_eq_none (h : s.parent id = none) (hl : s.leader = some l) : l.id ≠ id := by
  intro heq
  rw [parent_eq_some.mpr ⟨hl, heq⟩] at h
  cases h

/-- The request of an orphan is erased. -/
theorem Sound.eraseOrphan (hs : Sound s) (hr : s.requests.lookup c = some r)
    (hnone : s.parent r.parentReqId = none) : Sound (s.eraseRequest c) := by
  refine hs.others (fun l hl c' r' hparent => ?_) fun c' r' hr' =>
    ⟨r', (Ledger.of_lookup_erase hr').2, rfl⟩
  rw [Ledger.lookup_erase_ite]
  split_ifs with hcc
  · subst hcc
    refine iff_of_false not_false fun hr' => ?_
    obtain rfl := Option.some.inj (hr.symm.trans hr')
    exact ne_of_parent_eq_none hnone hl hparent.symm
  · exact Iff.rfl

/-- The request of an orphan stays when it fails. -/
theorem Sound.failOrphan (hs : Sound s) (hr : s.requests.lookup c = some r)
    (hnone : s.parent r.parentReqId = none) : Sound (s.setRequest c { r with place := .idle }) := by
  refine hs.others (fun l hl c' r' hparent => ?_) ?_
  · rw [Ledger.lookup_insert_ite]
    split_ifs with hcc
    · subst hcc
      refine iff_of_false (fun heq => ?_) fun hr' => ?_
      · obtain rfl := Option.some.inj heq
        exact ne_of_parent_eq_none hnone hl hparent.symm
      · obtain rfl := Option.some.inj (hr.symm.trans hr')
        exact ne_of_parent_eq_none hnone hl hparent.symm
    · exact Iff.rfl
  · exact Ledger.forall_lookup_insert (fun c' r' hr' => ⟨r', hr', rfl⟩) ⟨r, hr, rfl⟩

/-- The first request of a child writes its file. -/
theorem Sound.getting_of_child (hs : Sound s) (hl : s.leader = some l)
    (hr : s.requests.lookup c = some r) (hparent : r.parentReqId = l.id) :
    ∃ file pieces units, l.phase = .getting file pieces units ∧
      Gets s.requests l.id pieces units := by
  obtain ⟨-, -, hsound⟩ := hs.leader l hl
  unfold Leader.Sound at hsound
  cases hp : l.phase with
  | getting file pieces units =>
    rw [hp] at hsound
    exact ⟨file, pieces, units, rfl, hsound⟩
  | fetching =>
    rw [hp] at hsound
    exact absurd hparent (hsound.1 c r hr)
  | decrypting key pkg | streaming =>
    rw [hp] at hsound
    exact absurd hparent (hsound c r hr)

theorem Sound.led (hs : Sound s) (hl : s.leader = some l) : Led s l.id := by
  obtain ⟨hw, hid, -⟩ := hs.leader l hl
  exact ⟨hw, by rw [hl]; exact Option.some_ne_none l, hs.bounded, hid, hs.owned⟩

theorem Leader.at_eq {l : Leader} (h : l.phase = .getting file pieces units) :
    l.at file pieces units = l := by
  rw [Leader.at, ← h]

/-- **The data of a piece arrives.** -/
theorem handlePiece_spec {data : Bytes} (hs : Sound s) (hr : s.requests.lookup c = some r)
    (hplace : r.place = .fetching) : Goes s (s.handlePiece c r data) := by
  unfold Fetch.handlePiece
  cases hparent : s.parent r.parentReqId with
  | none => exact ⟨_, rfl, hs.eraseOrphan hr hparent, ⟨rfl, rfl, rfl⟩⟩
  | some l =>
    obtain ⟨hl, hid⟩ := parent_eq_some.mp hparent
    obtain ⟨file, pieces, units, hphase, hgets⟩ := hs.getting_of_child hl hr hid.symm
    have hposted : r.place ≠ .idle := by
      rw [hplace]
      exact Place.noConfusion
    have hc : c ∉ units := hgets.children.notMem_units hr hid.symm hposted
    have hlat : s.leader = some (l.at file pieces units) := by
      rw [Leader.at_eq hphase]
      exact hl
    obtain ⟨t, units', ht, hlt, hwithin, hposts, hchildren', -, hsame, hbusy⟩ :=
      postStorageNextPieceGetRequest_spec hlat hgets.children
    have hbusy' : BusyBut (some c) t.requests l.id units' :=
      hbusy _ fun c' hc' => by
        obtain rfl := Option.some.inj hc'
        exact hc
    have hr' : t.requests.lookup c = some r := (hsame c hc).trans hr
    have hkeyed' : Keyed t.requests l.id := hgets.keyed.posts hposts
    have hled : Led t l.id := (hs.led hl).of_within hwithin
      (by rw [hlt]; exact Option.some_ne_none _) (hs.bounded.posts hwithin hposts)
    dsimp only
    rw [hphase]
    dsimp only
    rw [ht, Option.bind_some]
    dsimp only
    split_ifs with hplain
    · exact (processUnencryptedPiece_spec hled hr' hid.symm hposted hchildren' hgets.placed hkeyed'
        hbusy').of_kept hwithin.kept
    · have hwhole : Whole r.aesKey := (hkeyed' c r hr' hid.symm).resolve_left hplain
      have hmoved := hchildren'.move hr' hid.symm hposted (q := .decrypting r.aesKey data)
        Place.noConfusion
      rw [pocoAssert, if_pos hwhole]
      refine ⟨_, rfl, ⟨fun l' hl' => ?_, fun hnone => ?_, ⟨?_, hled.bounded.waiting,
        hled.bounded.others⟩, hled.owned⟩,
        ⟨hwithin.kept.clients, hwithin.kept.refused, hwithin.kept.blocked⟩⟩
      · obtain rfl := Option.some.inj (hlt.symm.trans hl')
        refine ⟨hled.waiting, hled.id_lt, hmoved, hgets.nonempty, fun hne => ?_, hgets.placed,
          Ledger.forall_lookup_insert hkeyed' (hkeyed' c r hr')⟩
        obtain ⟨c', r', hc', hlookup, hp', hplace'⟩ := hbusy' hne
        have hcc : c' ≠ c := fun heq => hc' (congrArg some heq)
        exact ⟨c', r', Option.some_ne_none c', (AList.lookup_insert_ne hcc).trans hlookup, hp',
          hplace'⟩
      · exact absurd (hlt.symm.trans hnone) (Option.some_ne_none _)
      · exact Ledger.forall_lookup_insert hled.bounded.requests (hled.bounded.requests c r hr')

/-- A piece was decrypted. -/
theorem handleGetRequestAfterDecrypt_spec {data pkg : Bytes} {key : AesKey} (hs : Sound s)
    (hr : s.requests.lookup c = some r) (hplace : r.place = .decrypting key pkg) :
    Goes s (s.handleGetRequestAfterDecrypt c r data) := by
  unfold Fetch.handleGetRequestAfterDecrypt
  cases hparent : s.parent r.parentReqId with
  | none => exact ⟨_, rfl, hs.eraseOrphan hr hparent, ⟨rfl, rfl, rfl⟩⟩
  | some l =>
    obtain ⟨hl, hid⟩ := parent_eq_some.mp hparent
    obtain ⟨file, pieces, units, hphase, hgets⟩ := hs.getting_of_child hl hr hid.symm
    have hposted : r.place ≠ .idle := by
      rw [hplace]
      exact Place.noConfusion
    -- the piece that keeps the get busy is fetched, and this one is not
    have hbusy' : BusyBut (some c) s.requests l.id units := by
      intro hne
      obtain ⟨c', r', -, hr', hp', hplace'⟩ := hgets.busy hne
      refine ⟨c', r', fun heq => ?_, hr', hp', hplace'⟩
      obtain rfl := Option.some.inj heq
      obtain rfl := Option.some.inj (hr.symm.trans hr')
      rw [hplace] at hplace'
      cases hplace'
    rw [← Leader.at_eq hphase]
    exact processUnencryptedPiece_spec (hs.led hl) hr hid.symm hposted hgets.children hgets.placed
      hgets.keyed hbusy'

/-- A piece could not be decrypted. -/
theorem handleKeyManagerFailedGetRequest_spec (hs : Sound s) (hr : s.requests.lookup c = some r) :
    Goes s (s.handleKeyManagerFailedGetRequest c r) := by
  unfold Fetch.handleKeyManagerFailedGetRequest
  cases hparent : s.parent r.parentReqId with
  | none => exact ⟨_, rfl, hs.eraseOrphan hr hparent, ⟨rfl, rfl, rfl⟩⟩
  | some l =>
    have hled := hs.led (parent_eq_some.mp hparent).1
    have hled' : Led (s.eraseRequest c) l.id := by
      refine ⟨hled.waiting, hled.leader, ⟨fun c' r' hr' => ?_, hled.bounded.waiting,
        hled.bounded.others⟩, hled.id_lt, hled.owned⟩
      exact hs.bounded.requests c' r' (Ledger.of_lookup_erase hr').2
    exact (goes_sendImsResponse (refuses_failed s _) hled').of_kept ⟨rfl, rfl, rfl⟩

/-- A piece was not found. -/
theorem handleFailedKernelGetRequest_spec (hs : Sound s) (hr : s.requests.lookup c = some r) :
    Goes s (s.handleFailedKernelGetRequest c r) := by
  have hsame : (s.setRequest c { r with place := .idle }).parent r.parentReqId =
      s.parent r.parentReqId := rfl
  unfold Fetch.handleFailedKernelGetRequest
  dsimp only
  rw [hsame]
  cases hparent : s.parent r.parentReqId with
  | none => exact ⟨_, rfl, hs.failOrphan hr hparent, ⟨rfl, rfl, rfl⟩⟩
  | some l =>
    have hled := hs.led (parent_eq_some.mp hparent).1
    have hrefuses : (Answer.getFail ((s.setRequest c { r with place := .idle }).failed ++
        " There is a missing chunk in the requested object: chunk_uuid = " ++
          r.uuid.toString)).refuses = false := by
      rw [String.append_assoc]
      exact refuses_failed _ _
    have hled' : Led (s.setRequest c { r with place := .idle }) l.id :=
      ⟨hled.waiting, hled.leader, ⟨Ledger.forall_lookup_insert hs.bounded.requests
        (hs.bounded.requests c r hr), hled.bounded.waiting, hled.bounded.others⟩, hled.id_lt,
        hled.owned⟩
    exact (goes_sendImsResponse hrefuses hled').of_kept ⟨rfl, rfl, rfl⟩

/-! ### Steps -/

/-- What was asked for and is not answered. -/
def Expected (s : Fetch) : Event → Prop
  | .elsewhere _ _ _ _ | .imsGet _ => True
  | .gotMaster _ | .masterFailed => ∃ l, s.leader = some l ∧ l.phase = .fetching
  | .masterDecrypted => ∃ l key pkg, s.leader = some l ∧ l.phase = .decrypting key pkg
  | .gotPiece id _ | .pieceFailed id => ∃ r, s.requests.lookup id = some r ∧ r.place = .fetching
  | .pieceDecrypted id => ∃ r key pkg, s.requests.lookup id = some r ∧
      r.place = .decrypting key pkg

/-- The text of the master object that is read in a step, with the key of the first request. -/
def opened (codec : Codec) (s : Fetch) : Event → Option (AesKey × Bytes)
  | .gotMaster data => s.leader.bind fun l =>
    match l.phase with
    | .fetching =>
      if Plain (s.ownedKey.getD l.aesKey) then some (s.ownedKey.getD l.aesKey, data) else none
    | _ => none
  | .masterDecrypted => s.leader.bind fun l =>
    match l.phase with
    | .decrypting key pkg => (codec.decrypt key pkg).map fun data => (l.aesKey, data)
    | _ => none
  | .elsewhere _ _ _ _ | .imsGet _ | .masterFailed | .gotPiece _ _ | .pieceDecrypted _
  | .pieceFailed _ => none

/-- The ids of the kernel last, and those of other requests are ids it has handed out. The user json
has both strings of a key or none. -/
def Lasts (s : Fetch) : Event → Prop
  | .elsewhere requestCounter others ownedKey _ =>
    s.requestCounter ≤ requestCounter ∧ requestCounter < idBound ∧
      (∀ id ∈ others, id < requestCounter) ∧ ∀ k ∈ ownedKey, Proper k
  | .imsGet _ => s.requestCounter + 1 < idBound
  | .gotMaster _ | .masterDecrypted | .masterFailed | .gotPiece _ _ | .pieceDecrypted _
  | .pieceFailed _ => True

/-- **A regular step**: the ids last, and a master object that is read can be used and has no more
pieces than there are ids left. -/
structure Regular (codec : Codec) (s : Fetch) (e : Event) : Prop where
  lasts : Lasts s e
  usable : ∀ a ∈ opened codec s e, ∀ m ∈ codec.parse a.2,
    Usable m.pieces a.1 ∧ s.requestCounter + m.pieces.entries.length < idBound

instance (s : Fetch) : ∀ e, Decidable (Lasts s e)
  | .elsewhere _ _ _ _ => inferInstanceAs (Decidable (_ ∧ _ ∧ _ ∧ _))
  | .imsGet _ => inferInstanceAs (Decidable (_ < _))
  | .gotMaster _ | .masterDecrypted | .masterFailed | .gotPiece _ _ | .pieceDecrypted _
  | .pieceFailed _ => .isTrue trivial

instance (codec : Codec) (s : Fetch) (e : Event) : Decidable (Regular codec s e) :=
  decidable_of_iff (Lasts s e ∧ ∀ a ∈ opened codec s e, ∀ m ∈ codec.parse a.2,
    Usable m.pieces a.1 ∧ s.requestCounter + m.pieces.entries.length < idBound)
    ⟨fun h => ⟨h.1, h.2⟩, fun h => ⟨h.lasts, h.usable⟩⟩

/-- A first request without pieces has no requests for them. -/
theorem Sound.childless (hs : Sound s) (hl : s.leader = some l)
    (hphase : ∀ file pieces units, l.phase ≠ .getting file pieces units) :
    ∀ c r, s.requests.lookup c = some r → r.parentReqId ≠ l.id := by
  intro c r hr hparent
  obtain ⟨file, pieces, units, hp, -⟩ := hs.getting_of_child hl hr hparent
  exact hphase file pieces units hp

/-- The counter goes on, and what the rest of the kernel has in use came from it. -/
theorem Sound.elsewhere {n : ID32} {others : List ID32} {ownedKey : Option AesKey} {block : Bool}
    (hs : Sound s) (hle : s.requestCounter ≤ n) (hothers : ∀ id ∈ others, id < n)
    (howned : ∀ k ∈ ownedKey, Proper k) :
    Sound { s with
      requestCounter := n, others := others, ownedKey := ownedKey,
      shouldBlockGetRequest := block } where
  leader l hl := by
    obtain ⟨hw, hid, hsound⟩ := hs.leader l hl
    exact ⟨hw, hid.trans_le hle, hsound⟩
  waiting := hs.waiting
  bounded := by
    refine ⟨fun c r hr => ?_, fun w hw => (hs.bounded.waiting w hw).trans_le hle, hothers⟩
    obtain ⟨hc, hp⟩ := hs.bounded.requests c r hr
    exact ⟨hc.trans_le hle, hp.trans_le hle⟩
  owned := howned

/-- **The IMS asks**, and waits behind those who wait already, unless gets are blocked. -/
theorem handleImsGetRequest_spec (hs : Sound s) (hroom : s.requestCounter + 1 < idBound)
    (ims : ID32) :
    ∃ t, s.handleImsGetRequest ims = some t ∧ Sound t ∧
      t.shouldBlockGetRequest = s.shouldBlockGetRequest ∧
      t.clients = s.clients ++ (if s.shouldBlockGetRequest then [] else [ims]) ∧
      t.refused = s.refused ++ (if s.shouldBlockGetRequest then [ims] else []) := by
  unfold Fetch.handleImsGetRequest
  split_ifs with hblock
  · have hrefuses : (Answer.getFail Fetch.retryLater).refuses = true := beq_self_eq_true _
    refine ⟨_, rfl, ⟨hs.leader, hs.waiting, ⟨hs.bounded.requests, hs.bounded.waiting,
      hs.bounded.others⟩, hs.owned⟩, rfl, ?_, ?_⟩
    · simp [Fetch.clients, hrefuses]
    · simp [Fetch.refused, hrefuses]
  · rw [hs.bounded.getRequestId hroom]
    refine ⟨_, rfl, ⟨fun l hl => ?_, fun hnone => ?_, ⟨fun c r hr => ?_, fun w hw => ?_,
      fun id hid => Nat.lt_succ_of_lt (hs.bounded.others id hid)⟩, hs.owned⟩, rfl, ?_,
      (List.append_nil _).symm⟩
    · refine ⟨List.append_ne_nil_of_right_ne_nil _ (List.cons_ne_nil _ _), ?_⟩
      change (if s.waiting = [] then _ else s.leader) = some l at hl
      split_ifs at hl with hempty
      · obtain rfl := Option.some.inj hl
        refine ⟨Nat.lt_succ_self _, fun c r hr hparent => ?_, .inl ⟨rfl, rfl⟩⟩
        exact absurd (hs.bounded.requests c r hr).2 (hparent ▸ Nat.lt_irrefl _)
      · obtain ⟨-, hid, hsound⟩ := hs.leader l hl
        exact ⟨Nat.lt_succ_of_lt hid, hsound⟩
    · change (if s.waiting = [] then _ else s.leader) = none at hnone
      split_ifs at hnone with hempty
      exact absurd (hs.waiting hnone) hempty
    · obtain ⟨hc, hp⟩ := hs.bounded.requests c r hr
      exact ⟨Nat.lt_succ_of_lt hc, Nat.lt_succ_of_lt hp⟩
    · rcases List.mem_append.mp hw with hold | hnew
      · exact Nat.lt_succ_of_lt (hs.bounded.waiting w hold)
      · rw [List.mem_singleton.mp hnew]
        exact Nat.lt_succ_self _
    · simp [Fetch.clients]

/-- The master object arrives. -/
theorem gotMasterObject_spec {data : Bytes} (hs : Sound s) (hl : s.leader = some l)
    (hphase : l.phase = .fetching)
    (hregular : ∀ a ∈ opened codec s (.gotMaster data), ∀ m ∈ codec.parse a.2,
      Usable m.pieces a.1 ∧ s.requestCounter + m.pieces.entries.length < idBound) :
    Goes s (s.gotMasterObject codec l data) := by
  have hnone := hs.childless hl fun file pieces units h => by
    rw [hphase] at h
    cases h
  have hled := hs.led hl
  have hproper : Proper (s.ownedKey.getD l.aesKey) := by
    cases hown : s.ownedKey with
    | some k => exact hs.owned k hown
    | none =>
      obtain ⟨-, -, hsound⟩ := hs.leader l hl
      rw [Leader.Sound, hphase] at hsound
      exact hsound.2
  unfold Fetch.gotMasterObject
  dsimp only
  split_ifs with hplain
  · refine (handleUnencryptedMasterObject_spec (s := s.setLeader _) (l := { l with
      aesKey := s.ownedKey.getD l.aesKey }) ⟨hled.waiting, Option.some_ne_none _,
        hled.bounded.setLeader _, hled.id_lt, hled.owned⟩ (fun m hm => ?_) hnone).of_kept
          ⟨rfl, rfl, rfl⟩
    refine hregular (s.ownedKey.getD l.aesKey, data) ?_ m hm
    rw [opened, hl, Option.bind_some, hphase]
    exact if_pos hplain
  · rw [pocoAssert, if_pos (hproper.resolve_left hplain)]
    refine ⟨_, rfl, ⟨fun l' hl' => ?_, fun h => ?_, hled.bounded.setLeader _, hled.owned⟩,
      ⟨rfl, rfl, rfl⟩⟩
    · obtain rfl := Option.some.inj hl'
      exact ⟨hled.waiting, hled.id_lt, hnone⟩
    · cases h

/-- Who has asked: whether gets are blocked, whose gets were let in and whose were refused. -/
structure Tally where
  blocked : Bool
  admitted : List ID32
  refused : List ID32

/-- Counts an event. -/
def Tally.count (t : Tally) : Event → Tally
  | .elsewhere _ _ _ block => { t with blocked := block }
  | .imsGet ims =>
    if t.blocked then { t with refused := t.refused ++ [ims] }
    else { t with admitted := t.admitted ++ [ims] }
  | .gotMaster _ | .masterDecrypted | .masterFailed | .gotPiece _ _ | .pieceDecrypted _
  | .pieceFailed _ => t

/-- The gets of a run. At first none is blocked. -/
def tally (es : List Event) : Tally := es.foldl Tally.count ⟨false, [], []⟩

/-- The state has everybody in the place that the events say. -/
structure Counted (s : Fetch) (n : Tally) : Prop where
  sound : Sound s
  blocked : s.shouldBlockGetRequest = n.blocked
  clients : s.clients = n.admitted
  refused : s.refused = n.refused

/-- **One step**: what was asked for is answered without a failing assertion, the invariant is kept,
and nobody changes his place in the order. -/
theorem step_spec {n : Tally} (hs : Counted s n) (hok : Regular codec s e) (he : Expected s e) :
    ∃ t, step codec s e = some t ∧ Counted t (n.count e) := by
  obtain ⟨hsound, hblocked, hclients, hrefused⟩ := hs
  -- every step but the arrival of a get answers nobody else than it should
  have hgoes : ∀ {o : Option Fetch}, Goes s o → ∃ t, o = some t ∧ Counted t n := by
    rintro o ⟨t, ht, hsound', hkept⟩
    exact ⟨t, ht, hsound', hkept.blocked.trans hblocked, hkept.clients.trans hclients,
      hkept.refused.trans hrefused⟩
  cases e with
  | elsewhere c others ownedKey block =>
    obtain ⟨hle, -, hothers, howned⟩ := hok.lasts
    exact ⟨_, rfl, hsound.elsewhere hle hothers howned, rfl, hclients, hrefused⟩
  -- a get is admitted or refused, by the switch, and counted as such
  | imsGet ims =>
    obtain ⟨t, ht, hsound', hblock, hadmitted, hdenied⟩ :=
      handleImsGetRequest_spec hsound hok.lasts ims
    refine ⟨t, ht, ?_⟩
    rw [hblocked, hclients] at hadmitted
    rw [hblocked, hrefused] at hdenied
    rw [Tally.count]
    split_ifs with hb
    · rw [if_pos hb] at hadmitted hdenied
      exact ⟨hsound', hblock.trans hblocked, hadmitted.trans (List.append_nil _), hdenied⟩
    · rw [if_neg hb] at hadmitted hdenied
      exact ⟨hsound', hblock.trans hblocked, hadmitted, hdenied.trans (List.append_nil _)⟩
  -- the answers for the leader, which is at the phase they belong to
  | gotMaster data =>
    obtain ⟨l, hl, hphase⟩ := he
    rw [step, hl, Option.bind_some, hphase]
    exact hgoes (gotMasterObject_spec hsound hl hphase hok.usable)
  | masterDecrypted =>
    obtain ⟨l, key, pkg, hl, hphase⟩ := he
    have hnone := hsound.childless hl fun file pieces units h => by
      rw [hphase] at h
      cases h
    rw [step, hl, Option.bind_some, hphase]
    dsimp only
    cases hdata : codec.decrypt key pkg with
    | some data =>
      refine hgoes (handleUnencryptedMasterObject_spec (hsound.led hl) (fun m hm => ?_) hnone)
      refine hok.usable (l.aesKey, data) ?_ m hm
      rw [opened, hl, Option.bind_some, hphase]
      exact congrArg (Option.map _) hdata
    | none => exact hgoes (goes_sendImsResponse (refuses_failed s _) (hsound.led hl))
  | masterFailed =>
    obtain ⟨l, hl, hphase⟩ := he
    rw [step, hl, Option.bind_some, hphase]
    exact hgoes (goes_sendImsResponse (refuses_failed s _) (hsound.led hl))
  -- the answers for a piece, whose request waits for them
  | gotPiece id data =>
    obtain ⟨r, hr, hplace⟩ := he
    rw [step, hr, Option.bind_some, hplace]
    exact hgoes (handlePiece_spec hsound hr hplace)
  | pieceDecrypted id =>
    obtain ⟨r, key, pkg, hr, hplace⟩ := he
    rw [step, hr, Option.bind_some, hplace]
    dsimp only
    split
    · exact hgoes (handleGetRequestAfterDecrypt_spec hsound hr hplace)
    · exact hgoes (handleKeyManagerFailedGetRequest_spec hsound hr)
  | pieceFailed id =>
    obtain ⟨r, hr, hplace⟩ := he
    rw [step, hr, Option.bind_some, hplace]
    exact hgoes (handleFailedKernelGetRequest_spec hsound hr)

/-- What was not asked for is not answered. -/
theorem expected_of_step (h : step codec s e = some t) : Expected s e := by
  cases e with
  | elsewhere _ _ _ _ => trivial
  | imsGet _ => trivial
  | gotMaster _ =>
    obtain ⟨l, hl, h⟩ := Option.bind_eq_some_iff.mp h
    split at h
    case h_1 hphase => exact ⟨l, hl, hphase⟩
    case h_2 => cases h
  | masterDecrypted =>
    obtain ⟨l, hl, h⟩ := Option.bind_eq_some_iff.mp h
    split at h
    case h_1 key pkg hphase => exact ⟨l, key, pkg, hl, hphase⟩
    case h_2 => cases h
  | masterFailed =>
    obtain ⟨l, hl, h⟩ := Option.bind_eq_some_iff.mp h
    split at h
    case h_1 hphase => exact ⟨l, hl, hphase⟩
    case h_2 => cases h
  | gotPiece _ _ =>
    obtain ⟨r, hr, h⟩ := Option.bind_eq_some_iff.mp h
    split at h
    case h_1 hplace => exact ⟨r, hr, hplace⟩
    case h_2 => cases h
  | pieceDecrypted _ =>
    obtain ⟨r, hr, h⟩ := Option.bind_eq_some_iff.mp h
    split at h
    case h_1 key pkg hplace => exact ⟨r, key, pkg, hr, hplace⟩
    case h_2 => cases h
  | pieceFailed _ =>
    obtain ⟨r, hr, h⟩ := Option.bind_eq_some_iff.mp h
    split at h
    case h_1 hplace => exact ⟨r, hr, hplace⟩
    case h_2 => cases h

/-! ### Runs -/

theorem sound_init (uuid : UUID) (n : ID32) : Sound (Fetch.init uuid n) where
  leader l hl := by cases hl
  waiting _ := rfl
  bounded := by
    refine ⟨fun c r hr => ?_, List.forall_mem_nil _, List.forall_mem_nil _⟩
    cases hr
  owned k hk := absurd hk (Option.not_mem_none k)

variable {n : ID32}

/-- The invariant, and the order, in every run. -/
theorem counted_of_run (h : Run.run (step codec) (Fetch.init uuid n) es = some s)
    (hok : Run.Along (step codec) (Regular codec) (Fetch.init uuid n) es) :
    Counted s (tally es) := by
  refine Run.foldl_of_run Tally.count Counted (fun s e t n hs hok hstep => ?_)
    ⟨sound_init uuid n, rfl, rfl, rfl⟩ hok h
  obtain ⟨t', ht', hcounted⟩ := step_spec hs hok (expected_of_step hstep)
  obtain rfl := Option.some.inj (ht'.symm.trans hstep)
  exact hcounted

/-- The master object of the bytes `abc`, cut into pieces of at most two bytes. -/
def abcMaster : MasterJson where
  size := 3
  version := 1
  contentType := "text/plain"
  pieces := ((∅ : Pieces).insert 0 ⟨0, 2, none⟩).insert 1 ⟨2, 1, none⟩
  content := none
  lastUpdated := 0
  expirationDate := 0
  protocolVersion := 1

/-- Its text, in ASCII. -/
def abcText : Bytes :=
  [123, 34, 99, 111, 110, 116, 101, 110, 116, 95, 116, 121, 112, 101, 34, 58, 34, 116, 101, 120,
    116, 47, 112, 108, 97, 105, 110, 34, 44, 34, 101, 120, 112, 105, 114, 97, 116, 105, 111, 110,
    95, 100, 97, 116, 101, 34, 58, 48, 44, 34, 108, 97, 115, 116, 95, 117, 112, 100, 97, 116, 101,
    100, 34, 58, 48, 44, 34, 112, 105, 101, 99, 101, 115, 34, 58, 123, 34, 48, 48, 48, 48, 48, 48,
    48, 48, 45, 48, 48, 48, 48, 45, 48, 48, 48, 48, 45, 48, 48, 48, 48, 45, 48, 48, 48, 48, 48, 48,
    48, 48, 48, 48, 48, 48, 34, 58, 123, 34, 102, 114, 111, 109, 34, 58, 48, 44, 34, 115, 105, 122,
    101, 34, 58, 50, 125, 44, 34, 48, 48, 48, 48, 48, 48, 48, 48, 45, 48, 48, 48, 48, 45, 48, 48,
    48, 48, 45, 48, 48, 48, 48, 45, 48, 48, 48, 48, 48, 48, 48, 48, 48, 48, 48, 49, 34, 58, 123, 34,
    102, 114, 111, 109, 34, 58, 50, 44, 34, 115, 105, 122, 101, 34, 58, 49, 125, 125, 44, 34, 112,
    114, 111, 116, 111, 99, 111, 108, 95, 118, 101, 114, 115, 105, 111, 110, 34, 58, 49, 44, 34,
    115, 105, 122, 101, 34, 58, 51, 44, 34, 118, 101, 114, 115, 105, 111, 110, 34, 58, 49, 125]

/-- A codec that knows this text by its first byte. -/
def abcCodec : Codec :=
  { Codec.plain with
    stringify := fun _ => abcText
    parse := fun b => if b.head? = some 0x7b then some (masterInfo abcMaster) else none }

/-- Two gets, with a refused one between them; the second piece comes first. -/
def threeGets : List Event :=
  [.imsGet 7, .elsewhere 13 [12] none true, .imsGet 8, .elsewhere 13 [12] none false, .imsGet 9,
    .gotMaster abcText, .gotPiece 15 [99]]

set_option maxRecDepth 8000 in
theorem regular_threeGets : Run.Along (step abcCodec) (Regular abcCodec) (Fetch.init 1 10)
    (threeGets ++ [.gotPiece 14 [97, 98]]) := by decide

/-- Neither a master object nor a piece is on its way. -/
structure Fetch.Quiet (s : Fetch) : Prop where
  master : ∀ l ∈ s.leader, l.phase.waits = false
  pieces : Ledger.All (fun _ r => r.place = .idle) s.requests

instance (s : Fetch) : Decidable s.Quiet :=
  decidable_of_iff ((∀ l ∈ s.leader, l.phase.waits = false) ∧
    Ledger.All (fun _ r => r.place = .idle) s.requests)
    ⟨fun h => ⟨h.1, h.2⟩, fun h => ⟨h.master, h.pieces⟩⟩

/-- A get never stops by itself: when nothing is on its way, whoever waits waits for a stream. -/
theorem Sound.stream_of_quiet (hs : Sound s) (hquiet : s.Quiet) (hw : s.waiting ≠ []) :
    ∃ l, s.leader = some l ∧ l.phase = .streaming := by
  cases hl : s.leader with
  | none => exact absurd (hs.waiting hl) hw
  | some l =>
    refine ⟨l, rfl, ?_⟩
    have hwaits := hquiet.master l hl
    obtain ⟨-, -, hsound⟩ := hs.leader l hl
    unfold Leader.Sound at hsound
    cases hp : l.phase with
    | getting file pieces units =>
      rw [hp] at hsound
      have hidle : ∀ c r, s.requests.lookup c = some r → r.place = .idle :=
        Ledger.all_iff.mp hquiet.pieces
      -- some piece is left, so it has a request, which is a unit
      obtain ⟨⟨name, p⟩, hmem⟩ := List.exists_mem_of_length_pos (Nat.pos_of_ne_zero hsound.nonempty)
      have hp := AList.mem_lookup_iff.mpr hmem
      obtain ⟨⟨u, rfl⟩, -⟩ := hsound.placed _ p hp
      have hu : Left pieces u := by
        rw [Left, hp]
        exact Option.some_ne_none p
      obtain ⟨c, r, hr, hparent, -⟩ := hsound.children.all u hu
      have hc : c ∈ units := (hsound.children.child c r hr hparent).2.mpr (hidle c r hr)
      obtain ⟨c', r', -, hr', -, hplace⟩ := hsound.busy (List.ne_nil_of_mem hc)
      rw [hidle c' r' hr'] at hplace
      cases hplace
    | streaming => rfl
    | fetching =>
      rw [hp] at hwaits
      cases hwaits
    | decrypting key pkg =>
      rw [hp] at hwaits
      cases hwaits

end Retrieval

end Metax
