import Metax.Streaming.Data

/-!
# Cancelling shared streams

Several requests stream the same object, and each chunk is asked for by one of them only. When
requests come and are cancelled in any order, every chunk that is requested but not available should
have an outstanding request with a living parent, so that every remaining request is sent all its
chunks (`Survives`).

A request that is cancelled while a chunk it asked for, or the master object, is on the way takes
these with it. As long as no such request is cancelled while others remain, the law holds in every
state (`survives_run`).
-/

namespace Metax

namespace Streaming

variable {codec : Codec} {s s' : Stream} {sh sh' : Shared} {l l' : Listener} {c c' : Chunk}
  {A : ID32 → Prop}

/-! ### The law -/

/-- **The law**: nothing that is requested is lost, and when nothing is on the way any more for a
request that is there, every request has been sent the chunks up to its last one. -/
structure Survives (s : Stream) : Prop where
  outstanding : ∀ l ∈ s.listeners, l.streaming.isSome → ∀ c ∈ s.shared.list, c.requested →
    c.available = false → ∃ p ∈ s.shared.pieceRequests, p.uuid = c.uuid ∧ s.Alive p.parent
  complete : (∀ p ∈ s.shared.pieceRequests, ¬ s.Alive p.parent) →
    (∀ k ∈ s.lookUps, ¬ s.Alive k.id) →
      ∀ l ∈ s.listeners, ∃ p, l.streaming = some p ∧ p.last ≤ p.curr

/-- The condition on a step: a request that is cancelled is the last one, or nothing it asked for is
on the way. -/
def Free (s : Stream) : Event → Prop
  | .clean id => (∀ l ∈ s.listeners, l.id = id) ∨
      (∀ p ∈ s.shared.pieceRequests, p.parent ≠ id) ∧ ∀ k ∈ s.lookUps, k.id ≠ id
  | _ => True

instance (s : Stream) : ∀ e, Decidable (Free s e)
  | .clean _ => inferInstanceAs (Decidable (_ ∨ _ ∧ _))
  | .get _ | .encryptedMaster _ | .master _ _ _ | .masterFailed _ | .piece _ _ | .decryptedPiece _ _
  | .pieceFailed _ => .isTrue trivial

/-! ### The list of chunks -/

/-- A chunk without its mark. -/
def Chunk.unmarked (c : Chunk) : Chunk := { c with requested := false }

/-- More chunks are requested, nothing else is different. -/
structure Extends (sh sh' : Shared) : Prop where
  unmarked : sh'.list.map Chunk.unmarked = sh.list.map Chunk.unmarked
  requested : ∀ (i : ℕ) (c c' : Chunk), sh.list[i]? = some c → sh'.list[i]? = some c' →
    c.requested → c'.requested
  pieceRequests : ∀ p ∈ sh.pieceRequests, p ∈ sh'.pieceRequests
  size : sh'.size = sh.size
  nextId : sh.nextId ≤ sh'.nextId

theorem Extends.refl (sh : Shared) : Extends sh sh where
  unmarked := rfl
  requested i c c' h h' := by
    rw [h] at h'
    exact Option.some.inj h' ▸ id
  pieceRequests _ h := h
  size := rfl
  nextId := le_rfl

/-- The chunk there was. -/
theorem Extends.getElem? (h : Extends sh sh') {i : ℕ} (hc : sh'.list[i]? = some c') :
    ∃ c, sh.list[i]? = some c ∧ c.unmarked = c'.unmarked := by
  have hmap := congrArg (·[i]?) h.unmarked
  simp only [List.getElem?_map, hc, Option.map_some] at hmap
  obtain ⟨c, hc, hcc⟩ := Option.map_eq_some_iff.mp hmap.symm
  exact ⟨c, hc, hcc⟩

theorem Extends.getElem?' (h : Extends sh sh') {i : ℕ} (hc : sh.list[i]? = some c) :
    ∃ c', sh'.list[i]? = some c' ∧ c'.unmarked = c.unmarked := by
  have hmap := congrArg (·[i]?) h.unmarked
  simp only [List.getElem?_map, hc, Option.map_some] at hmap
  exact Option.map_eq_some_iff.mp hmap

theorem Extends.trans {sh'' : Shared} (h : Extends sh sh') (h' : Extends sh' sh'') :
    Extends sh sh'' where
  unmarked := h'.unmarked.trans h.unmarked
  requested i c c'' hc hc'' hreq := by
    obtain ⟨c', hc', -⟩ := h'.getElem? hc''
    exact h'.requested i c' c'' hc' hc'' (h.requested i c c' hc hc' hreq)
  pieceRequests p hp := h'.pieceRequests p (h.pieceRequests p hp)
  size := h'.size.trans h.size
  nextId := h.nextId.trans h'.nextId

theorem unmarked_eq (h : c.unmarked = c'.unmarked) :
    c.available = c'.available ∧ c.start = c'.start ∧ c.size = c'.size ∧ c.uuid = c'.uuid ∧
      c.file = c'.file := by
  simp only [Chunk.unmarked, Chunk.mk.injEq, true_and] at h
  exact h

theorem Extends.uuids (h : Extends sh sh') :
    sh'.list.map Chunk.uuid = sh.list.map Chunk.uuid := by
  have hmap := congrArg (List.map Chunk.uuid) h.unmarked
  rw [List.map_map, List.map_map] at hmap
  exact hmap

/-! ### Requests for chunks -/

/-- The requests for chunks have ids of their own. -/
structure Numbered (sh : Shared) : Prop where
  fresh : ∀ p ∈ sh.pieceRequests, p.id < sh.nextId
  parents : ∀ p ∈ sh.pieceRequests, p.parent < sh.nextId
  unique : ∀ p ∈ sh.pieceRequests, ∀ q ∈ sh.pieceRequests, p.id = q.id → p = q

/-- The chunks that are requested and not available have a request whose parent is there. -/
structure Sound (A : ID32 → Prop) (sh : Shared) : Prop extends Numbered sh where
  outstanding : ∀ c ∈ sh.list, c.requested → c.available = false →
    ∃ p ∈ sh.pieceRequests, p.uuid = c.uuid ∧ A p.parent

/-- **Asking for a chunk.** -/
theorem Sound.postLookUp {parent : ID32} {i : ℕ} (h : Sound A sh) (hA : A parent)
    (hparent : parent < sh.nextId) (hc : sh.list[i]? = some c) :
    Sound A (postLookUpRequestForPiece sh parent i c) ∧
      Extends sh (postLookUpRequestForPiece sh parent i c) := by
  constructor
  · refine ⟨⟨?_, ?_, ?_⟩, ?_⟩
    · intro p hp
      rcases List.mem_append.mp hp with hp | hp
      · exact Nat.lt_succ_of_lt (h.fresh p hp)
      · obtain rfl := List.mem_singleton.mp hp
        exact Nat.lt_succ_self _
    · intro p hp
      rcases List.mem_append.mp hp with hp | hp
      · exact Nat.lt_succ_of_lt (h.parents p hp)
      · obtain rfl := List.mem_singleton.mp hp
        exact Nat.lt_succ_of_lt hparent
    · intro p hp q hq hpq
      rcases List.mem_append.mp hp with hp | hp <;> rcases List.mem_append.mp hq with hq | hq
      · exact h.unique p hp q hq hpq
      · obtain rfl := List.mem_singleton.mp hq
        exact absurd hpq (h.fresh p hp).ne
      · obtain rfl := List.mem_singleton.mp hp
        exact absurd hpq (h.fresh q hq).ne'
      · rw [List.mem_singleton.mp hp, List.mem_singleton.mp hq]
    · intro d hd hreq hav
      rcases List.mem_or_eq_of_mem_set hd with hd | rfl
      · obtain ⟨p, hp, huuid, hAp⟩ := h.outstanding d hd hreq hav
        exact ⟨p, List.mem_append_left _ hp, huuid, hAp⟩
      · exact ⟨_, List.mem_append_right _ (List.mem_singleton_self _), rfl, hA⟩
  · have hset : sh.list.set i c = sh.list := by
      obtain ⟨hi, rfl⟩ := List.getElem?_eq_some_iff.mp hc
      exact List.set_getElem_self hi
    constructor
    · show (sh.list.set i { c with requested := true }).map Chunk.unmarked = _
      conv_rhs => rw [← hset]
      rw [List.map_set, List.map_set]
      rfl
    · intro j d d' hd hd' hreq
      have hd'' : (sh.list.set i { c with requested := true })[j]? = some d' := hd'
      rw [List.getElem?_set] at hd''
      split_ifs at hd'' with hij hj
      · rw [← Option.some.inj hd'']
      · rw [hd] at hd''
        exact Option.some.inj hd'' ▸ hreq
    · exact fun p hp => List.mem_append_left _ hp
    · rfl
    · exact Nat.le_succ _

/-- **Keeping the window requested.** The first chunk of the window is requested afterwards. -/
theorem Sound.postLoop {parent : ID32} {last n next : ℕ} (h : Sound A sh) (hA : A parent)
    (hparent : parent < sh.nextId) (hpost : postLoop parent last n next sh = some sh') :
    Sound A sh' ∧ Extends sh sh' ∧
      (0 < n → next < last → ∃ c, sh'.list[next]? = some c ∧ c.requested) := by
  induction n generalizing next sh with
  | zero =>
    obtain rfl := Option.some.inj hpost
    exact ⟨h, .refl _, fun h => absurd h (Nat.lt_irrefl _)⟩
  | succ n ih =>
    rw [Streaming.postLoop] at hpost
    split_ifs at hpost with hlast
    · cases hc : sh.list[next]? with
      | none =>
        rw [hc] at hpost
        cases hpost
      | some c =>
        rw [hc] at hpost
        dsimp only at hpost
        split_ifs at hpost with hreq hav
        · obtain ⟨hsound, hext, -⟩ := ih h hparent hpost
          obtain ⟨c', hc', -⟩ := hext.getElem?' hc
          exact ⟨hsound, hext, fun _ _ => ⟨c', hc', hext.requested _ _ _ hc hc' hreq⟩⟩
        · obtain ⟨hsound, hext⟩ := h.postLookUp hA hparent hc
          obtain ⟨hsound', hext', -⟩ := ih hsound (Nat.lt_succ_of_lt hparent) hpost
          have hset : (postLookUpRequestForPiece sh parent next c).list[next]? =
              some { c with requested := true } := by
            show (sh.list.set next { c with requested := true })[next]? = _
            rw [List.getElem?_set_self (List.getElem?_eq_some_iff.mp hc).1]
          obtain ⟨c', hc', -⟩ := hext'.getElem?' hset
          exact ⟨hsound', hext.trans hext',
            fun _ _ => ⟨c', hc', hext'.requested _ _ _ hset hc' rfl⟩⟩
    · obtain rfl := Option.some.inj hpost
      exact ⟨h, .refl _, fun _ hlt => absurd hlt hlast⟩

/-! ### Sending -/

/-- What the sending loop does: it stops at a chunk that is not available, or after the last one. -/
theorem sendLoop_spec (r : GetRange) (list : List Chunk) (n : ℕ) (p : Progress) :
    (sendLoop r list n p).last = p.last ∧ (sendLoop r list n p).chunkCount = p.chunkCount ∧
      p.curr ≤ (sendLoop r list n p).curr ∧ (sendLoop r list n p).curr ≤ p.curr + n ∧
        ((sendLoop r list n p).curr = p.curr + n ∨
          ∀ c, list[(sendLoop r list n p).curr]? = some c → c.available = false) := by
  induction n generalizing p with
  | zero => exact ⟨rfl, rfl, le_rfl, le_rfl, .inl rfl⟩
  | succ n ih =>
    cases hc : list[p.curr]? with
    | none =>
      have heq : sendLoop r list (n + 1) p = p := by rw [sendLoop, hc]
      rw [heq, hc]
      exact ⟨rfl, rfl, le_rfl, by omega, .inr fun c h => by cases h⟩
    | some c =>
      by_cases hav : c.available = true
      · have heq : sendLoop r list (n + 1) p =
            sendLoop r list n { p with curr := p.curr + 1, sent := p.sent ++ [chunkFile r c] } := by
          rw [sendLoop, hc]
          exact if_pos hav
        obtain ⟨hlast, hcount, hle, hle', hstop⟩ :=
          ih { p with curr := p.curr + 1, sent := p.sent ++ [chunkFile r c] }
        dsimp only at hle hle' hstop
        rw [heq]
        refine ⟨hlast, hcount, by omega, by omega, ?_⟩
        rcases hstop with hstop | hstop
        · exact .inl (by rw [hstop]; omega)
        · exact .inr hstop
      · have heq : sendLoop r list (n + 1) p = p := by
          rw [sendLoop, hc]
          exact if_neg hav
        rw [heq, hc]
        refine ⟨rfl, rfl, le_rfl, by omega, .inr fun d hd => ?_⟩
        rw [← Option.some.inj hd]
        exact Bool.eq_false_iff.mpr hav

/-- The request waits for a chunk that is on the way, or has been sent all its chunks. -/
def Served (sh : Shared) (l : Listener) : Prop :=
  ∃ p, l.streaming = some p ∧
    (p.curr < p.last → ∃ c, sh.list[p.curr]? = some c ∧ c.requested ∧ c.available = false)

theorem Served.of_extends (h : Served sh l) (hext : Extends sh sh') : Served sh' l := by
  obtain ⟨p, hp, hwait⟩ := h
  refine ⟨p, hp, fun hlt => ?_⟩
  obtain ⟨c, hc, hreq, hav⟩ := hwait hlt
  obtain ⟨c', hc', heq⟩ := hext.getElem?' hc
  exact ⟨c', hc', hext.requested _ _ _ hc hc' hreq, (unmarked_eq heq).1.trans hav⟩

/-- What is sent to a request: the available chunks. -/
def Sends (sh : Shared) (l l' : Listener) : Prop :=
  ∃ p sh₁, l.streaming = some p ∧ Extends sh sh₁ ∧
    l' = { l with streaming := some (sendLoop l.getRange sh₁.list (p.last - p.curr) p) }

/-- **Sending the available chunks to one request.** -/
theorem Sound.sendAvailableChunks (h : Sound A sh) (hA : A l.id) (hid : l.id < sh.nextId)
    (hsend : sendAvailableChunks sh l = some (sh', l')) :
    Sound A sh' ∧ Extends sh sh' ∧ Served sh' l' ∧ Sends sh l l' := by
  rw [Streaming.sendAvailableChunks] at hsend
  cases hp : l.streaming with
  | none =>
    rw [hp] at hsend
    cases hsend
  | some p =>
    rw [hp] at hsend
    obtain ⟨sh₁, hpost, heq⟩ := Option.map_eq_some_iff.mp hsend
    obtain ⟨rfl, rfl⟩ := Prod.mk.inj heq
    obtain ⟨hsound, hext, hreq⟩ := h.postLoop hA hid hpost
    refine ⟨hsound, hext, ⟨_, rfl, fun hlt => ?_⟩, p, sh, hp, .refl _, rfl⟩
    obtain ⟨hlast, -, hle, hle', hstop⟩ := sendLoop_spec l.getRange sh.list (p.last - p.curr) p
    obtain ⟨c', hc', hmark⟩ := hreq (by decide) hlt
    obtain ⟨c, hc, heq⟩ := hext.getElem? hc'
    rw [hlast] at hlt
    rcases hstop with hstop | hstop
    · omega
    · exact ⟨c', hc', hmark, (unmarked_eq heq).1.symm.trans (hstop c hc)⟩

/-! ### Loops over the requests -/

section ForEach

variable {f : Shared → Listener → Option (Shared × Listener)} {I : Shared → Prop}
  {P Q : Shared → Listener → Prop} {R : Shared → Listener → Listener → Prop}

/-- **Loop rule.** What one request's turn does is done for all, each time for a list with maybe
some more chunks requested. -/
theorem forEach_spec {ls ls' : List Listener}
    (hstep : ∀ sh l sh' l', I sh → P sh l → f sh l = some (sh', l') →
      I sh' ∧ Extends sh sh' ∧ Q sh' l' ∧ R sh l l')
    (hP : ∀ sh sh' l, Extends sh sh' → P sh l → P sh' l)
    (hQ : ∀ sh sh' l, Extends sh sh' → Q sh l → Q sh' l)
    (hR : ∀ sh sh' l l', Extends sh sh' → R sh' l l' → R sh l l')
    (hI : I sh) (hls : ∀ l ∈ ls, P sh l) (h : forEach f sh ls = some (sh', ls')) :
    I sh' ∧ Extends sh sh' ∧ (∀ l ∈ ls', Q sh' l) ∧ List.Forall₂ (R sh) ls ls' := by
  induction ls generalizing sh ls' with
  | nil =>
    obtain ⟨rfl, rfl⟩ := Prod.mk.inj (Option.some.inj h)
    exact ⟨hI, .refl _, fun l hl => absurd hl List.not_mem_nil, .nil⟩
  | cons l ls ih =>
    rw [forEach] at h
    cases hf : f sh l with
    | none =>
      rw [hf] at h
      cases h
    | some r =>
      obtain ⟨sh₁, l₁⟩ := r
      rw [hf] at h
      obtain ⟨⟨sh₂, ls₂⟩, hrest, heq⟩ := Option.map_eq_some_iff.mp h
      obtain ⟨rfl, rfl⟩ := Prod.mk.inj heq
      obtain ⟨hI₁, hext, hQ₁, hR₁⟩ := hstep sh l sh₁ l₁ hI (hls l List.mem_cons_self) hf
      obtain ⟨hI₂, hext₂, hQ₂, hR₂⟩ := ih hI₁
        (fun l' hl' => hP _ _ _ hext (hls l' (List.mem_cons_of_mem _ hl'))) hrest
      refine ⟨hI₂, hext.trans hext₂, fun l' hl' => ?_,
        .cons hR₁ (hR₂.imp fun a b => hR _ _ _ _ hext)⟩
      rcases List.mem_cons.mp hl' with rfl | hl'
      · exact hQ _ _ _ hext₂ hQ₁
      · exact hQ₂ l' hl'

end ForEach

/-- **One round over the requests.** -/
theorem each_spec {f : Shared → Listener → Option (Shared × Listener)}
    {P Q : Shared → Listener → Prop} {R : Shared → Listener → Listener → Prop}
    (hstep : ∀ sh l sh' l', Sound A sh → A l.id → l.id < sh.nextId → P sh l →
      f sh l = some (sh', l') → Sound A sh' ∧ Extends sh sh' ∧ Q sh' l' ∧ R sh l l')
    (hP : ∀ sh sh' l, Extends sh sh' → P sh l → P sh' l)
    (hQ : ∀ sh sh' l, Extends sh sh' → Q sh l → Q sh' l)
    (hR : ∀ sh sh' l l', Extends sh sh' → R sh' l l' → R sh l l')
    (hsound : Sound A s.shared) (hA : ∀ l ∈ s.listeners, A l.id)
    (hid : ∀ l ∈ s.listeners, l.id < s.shared.nextId) (hls : ∀ l ∈ s.listeners, P s.shared l)
    (h : s.each f = some s') :
    Sound A s'.shared ∧ Extends s.shared s'.shared ∧ (∀ l ∈ s'.listeners, Q s'.shared l) ∧
      List.Forall₂ (R s.shared) s.listeners s'.listeners ∧ s'.lookUps = s.lookUps := by
  obtain ⟨⟨sh', ls'⟩, hloop, rfl⟩ := Option.map_eq_some_iff.mp h
  obtain ⟨hsound', hext, hQ', hR'⟩ := forEach_spec (I := Sound A)
    (P := fun sh l => A l.id ∧ l.id < sh.nextId ∧ P sh l) (Q := Q) (R := R)
    (fun sh l sh' l' hI hPl hf => hstep sh l sh' l' hI hPl.1 hPl.2.1 hPl.2.2 hf)
    (fun sh sh' l hext hPl =>
      ⟨hPl.1, lt_of_lt_of_le hPl.2.1 hext.nextId, hP _ _ _ hext hPl.2.2⟩)
    hQ hR hsound (fun l hl => ⟨hA l hl, hid l hl, hls l hl⟩) hloop
  exact ⟨hsound', hext, hQ', hR', rfl⟩

/-! ### The invariant -/

/-- The master object is on the way for one of the requests. -/
structure Waiting (s : Stream) : Prop where
  unset : ∀ l ∈ s.listeners, l.streaming = none
  orphans : ∀ p ∈ s.shared.pieceRequests, ¬ s.Alive p.parent
  asked : s.listeners = [] ∨ ∃ k ∈ s.lookUps, s.Alive k.id
  once : ∀ k ∈ s.lookUps, ∀ k' ∈ s.lookUps, s.Alive k.id → s.Alive k'.id → k.id = k'.id

/-- The requests have the list. -/
structure Running (s : Stream) : Prop where
  sound : Sound s.Alive s.shared
  served : ∀ l ∈ s.listeners, Served s.shared l
  nodup : (s.shared.list.map Chunk.uuid).Nodup
  done : ∀ k ∈ s.lookUps, ¬ s.Alive k.id

/-- **The invariant.** -/
structure Inv (s : Stream) : Prop where
  numbered : Numbered s.shared
  listeners : ∀ l ∈ s.listeners, l.id < s.shared.nextId
  lookUps : ∀ k ∈ s.lookUps, k.id < s.shared.nextId
  phase : Waiting s ∨ Running s

theorem ids_congr {ls ls' : List Listener} (h : List.Forall₂ (fun l l' => l'.id = l.id) ls ls') :
    ls'.map Listener.id = ls.map Listener.id := by
  induction h with
  | nil => rfl
  | cons hid _ ih => rw [List.map_cons, List.map_cons, hid, ih]

/-- Who is there, by the ids of the requests. -/
theorem alive_congr {id : ID32} (h : s'.listeners.map Listener.id = s.listeners.map Listener.id) :
    s'.Alive id ↔ s.Alive id := by
  have hmem (s : Stream) : s.Alive id ↔ id ∈ s.listeners.map Listener.id := List.mem_map.symm
  rw [hmem, hmem, h]

theorem Inv.of_nil (h : Numbered s.shared) (hlook : ∀ k ∈ s.lookUps, k.id < s.shared.nextId)
    (hnil : s.listeners = []) : Inv s := by
  have hdead (id : ID32) : ¬ s.Alive id := by
    rintro ⟨l, hl, -⟩
    rw [hnil] at hl
    exact List.not_mem_nil hl
  have hno : ∀ l, l ∉ s.listeners := fun l hl => hdead l.id ⟨l, hl, rfl⟩
  exact ⟨h, fun l hl => absurd hl (hno l), hlook,
    .inl ⟨fun l hl => absurd hl (hno l), fun p _ => hdead _, .inl hnil,
      fun k _ _ _ hk => absurd hk (hdead _)⟩⟩

theorem inv_init : Inv .init :=
  .of_nil ⟨fun _ h => absurd h List.not_mem_nil, fun _ h => absurd h List.not_mem_nil,
    fun _ h => absurd h List.not_mem_nil⟩ (fun _ h => absurd h List.not_mem_nil) rfl

/-- **The invariant is the law, and more.** -/
theorem Inv.survives (h : Inv s) : Survives s := by
  rcases h.phase with hw | hr
  · constructor
    · intro l hl hsome
      rw [hw.unset l hl] at hsome
      cases hsome
    · intro _ hlook l hl
      rcases hw.asked with hnil | ⟨k, hk, halive⟩
      · rw [hnil] at hl
        exact absurd hl List.not_mem_nil
      · exact absurd halive (hlook k hk)
  · constructor
    · exact fun l _ _ => hr.sound.outstanding
    · intro hpieces _ l hl
      obtain ⟨p, hp, hwait⟩ := hr.served l hl
      refine ⟨p, hp, not_lt.mp fun hlt => ?_⟩
      obtain ⟨c, hc, hreq, hav⟩ := hwait hlt
      obtain ⟨q, hq, -, halive⟩ := hr.sound.outstanding c (List.mem_of_getElem? hc) hreq hav
      exact hpieces q hq halive

/-! ### Requests come and go -/

theorem Numbered.skip (h : Numbered sh) {n : ℕ} (hn : sh.nextId ≤ n) :
    Numbered { sh with nextId := n } where
  fresh p hp := lt_of_lt_of_le (h.fresh p hp) hn
  parents p hp := lt_of_lt_of_le (h.parents p hp) hn
  unique := h.unique

theorem extends_skip {n : ℕ} (hn : sh.nextId ≤ n) : Extends sh { sh with nextId := n } where
  unmarked := rfl
  requested := (Extends.refl sh).requested
  pieceRequests _ h := h
  size := rfl
  nextId := hn

/-- A new request, which is sent what is available if the others have the list. -/
def Joins (s s' : Stream) : Prop :=
  ∃ l₀ l' : Listener, s'.listeners = s.listeners ++ [l'] ∧ l₀.getRange = l₀.asked ∧
    (l' = l₀ ∧ l₀.streaming = none ∨ (∃ l ∈ s.listeners, l.streaming.isSome) ∧
      ∃ sh, Extends s.shared sh ∧ Sends sh (l₀.setStreamingState sh) l')

/-- **A new request.** -/
theorem Inv.get (h : Inv s) {range : GetRange} (hget : processImsGetRequest s range = some s') :
    Inv s' ∧ Extends s.shared s'.shared ∧ Joins s s' := by
  have hskip := h.numbered.skip (Nat.le_succ s.shared.nextId)
  have hlook : ∀ k ∈ s.lookUps, k.id < s.shared.nextId + 1 := fun k hk =>
    Nat.lt_succ_of_lt (h.lookUps k hk)
  rw [processImsGetRequest] at hget
  cases hls : s.listeners with
  | nil =>
    rw [hls] at hget
    obtain rfl := Option.some.inj hget
    -- the new request is the only one, and nothing that is on the way is for it
    have halive (id : ID32)
        (hid : ∃ l ∈ [(⟨s.shared.nextId, range, range, none⟩ : Listener)], l.id = id) :
        id = s.shared.nextId := by
      obtain ⟨l, hl, rfl⟩ := hid
      obtain rfl := List.mem_singleton.mp hl
      rfl
    refine ⟨⟨hskip, fun l hl => ?_, fun k hk => ?_,
      .inl ⟨fun l hl => ?_, fun p hp hp' => ?_, ?_, ?_⟩⟩, extends_skip (Nat.le_succ _),
      _, _, by rw [hls]; rfl, rfl, .inl ⟨rfl, rfl⟩⟩
    · obtain rfl := List.mem_singleton.mp hl
      exact Nat.lt_succ_self _
    · rcases List.mem_append.mp hk with hk | hk
      · exact hlook k hk
      · obtain rfl := List.mem_singleton.mp hk
        exact Nat.lt_succ_self _
    · obtain rfl := List.mem_singleton.mp hl
      rfl
    · exact (h.numbered.parents p hp).ne (halive _ hp')
    · exact .inr ⟨_, List.mem_append_right _ (List.mem_singleton_self _), _,
        List.mem_singleton_self _, rfl⟩
    · exact fun k _ k' _ hk hk' => (halive _ hk).trans (halive _ hk').symm
  | cons e ls =>
    rw [hls] at hget
    dsimp only at hget
    have hmono (l : Listener) (id : ID32) (hid : s.Alive id) :
        ∃ l' ∈ (e :: ls) ++ [l], l'.id = id := by
      obtain ⟨l', hl', hid⟩ := hid
      rw [hls] at hl'
      exact ⟨l', List.mem_append_left _ hl', hid⟩
    split_ifs at hget with hset
    · -- the others have the list
      have hr : Running s := by
        refine h.phase.resolve_left fun hw => ?_
        rw [hw.unset e (hls ▸ List.mem_cons_self)] at hset
        cases hset
      obtain ⟨⟨sh', l'⟩, hsend, rfl⟩ := Option.map_eq_some_iff.mp hget
      have hsound : Sound (fun id => s.Alive id ∨ id = s.shared.nextId)
          { s.shared with nextId := s.shared.nextId + 1 } :=
        ⟨hskip, fun c hc hreq hav => by
          obtain ⟨p, hp, huuid, hp'⟩ := hr.sound.outstanding c hc hreq hav
          exact ⟨p, hp, huuid, .inl hp'⟩⟩
      obtain ⟨hsound', hext, hserved, hsends⟩ := hsound.sendAvailableChunks
        (.inr rfl) (Nat.lt_succ_self _) hsend
      have hid : l'.id = s.shared.nextId := by
        obtain ⟨p, sh₁, -, -, hl'⟩ := hsends
        rw [hl']
        rfl
      have hext' := (extends_skip (Nat.le_succ s.shared.nextId)).trans hext
      have halive (id : ID32) : (∃ l ∈ (e :: ls) ++ [l'], l.id = id) ↔
          s.Alive id ∨ id = s.shared.nextId := by
        rw [← hls]
        constructor
        · rintro ⟨l, hl, rfl⟩
          rcases List.mem_append.mp hl with hl | hl
          · exact .inl ⟨l, hl, rfl⟩
          · obtain rfl := List.mem_singleton.mp hl
            exact .inr hid
        · rintro (⟨l, hl, rfl⟩ | rfl)
          · exact ⟨l, List.mem_append_left _ hl, rfl⟩
          · exact ⟨l', List.mem_append_right _ (List.mem_singleton_self _), hid⟩
      refine ⟨⟨hsound'.toNumbered, fun l hl => ?_, fun k hk => ?_,
        .inr ⟨?_, fun l hl => ?_, ?_, ?_⟩⟩, hext', ⟨s.shared.nextId, range, range, none⟩, l',
        by rw [hls], rfl, .inr ⟨⟨e, hls ▸ List.mem_cons_self, hset⟩, _,
          extends_skip (Nat.le_succ _), hsends⟩⟩
      · rcases List.mem_append.mp hl with hl | hl
        · exact lt_of_lt_of_le (h.listeners l (hls ▸ hl)) hext'.nextId
        · obtain rfl := List.mem_singleton.mp hl
          rw [hid]
          exact hext.nextId
      · exact lt_of_lt_of_le (h.lookUps k hk) hext'.nextId
      · refine ⟨hsound'.toNumbered, fun c hc hreq hav => ?_⟩
        obtain ⟨p, hp, huuid, hp'⟩ := hsound'.outstanding c hc hreq hav
        exact ⟨p, hp, huuid, (halive _).mpr hp'⟩
      · rcases List.mem_append.mp hl with hl | hl
        · exact (hr.served l (hls ▸ hl)).of_extends hext'
        · obtain rfl := List.mem_singleton.mp hl
          exact hserved
      · show (sh'.list.map Chunk.uuid).Nodup
        rw [hext'.uuids]
        exact hr.nodup
      · intro k hk hk'
        rcases (halive _).mp hk' with hk' | hk'
        · exact hr.done k hk hk'
        · exact (h.lookUps k hk).ne hk'
    · -- the master object is on the way
      have hw : Waiting s := by
        refine h.phase.resolve_right fun hr => ?_
        obtain ⟨p, hp, -⟩ := hr.served e (hls ▸ List.mem_cons_self)
        rw [hp] at hset
        exact hset rfl
      obtain rfl := Option.some.inj hget
      have halive {id : ID32} (hid : id < s.shared.nextId)
          (h : ∃ l ∈ (e :: ls) ++ [(⟨s.shared.nextId, range, range, none⟩ : Listener)], l.id = id) :
          s.Alive id := by
        obtain ⟨l, hl, rfl⟩ := h
        rcases List.mem_append.mp hl with hl | hl
        · exact ⟨l, hls ▸ hl, rfl⟩
        · obtain rfl := List.mem_singleton.mp hl
          exact absurd hid (lt_irrefl _)
      refine ⟨⟨hskip, fun l hl => ?_, hlook, .inl ⟨fun l hl => ?_, fun p hp hp' => ?_, ?_, ?_⟩⟩,
        extends_skip (Nat.le_succ _), _, _, by rw [hls], rfl, .inl ⟨rfl, rfl⟩⟩
      · rcases List.mem_append.mp hl with hl | hl
        · exact Nat.lt_succ_of_lt (h.listeners l (hls ▸ hl))
        · obtain rfl := List.mem_singleton.mp hl
          exact Nat.lt_succ_self _
      · rcases List.mem_append.mp hl with hl | hl
        · exact hw.unset l (hls ▸ hl)
        · obtain rfl := List.mem_singleton.mp hl
          rfl
      · exact hw.orphans p hp (halive (h.numbered.parents p hp) hp')
      · rcases hw.asked with hnil | ⟨k, hk, hk'⟩
        · rw [hls] at hnil
          cases hnil
        · exact .inr ⟨k, hk, hmono _ _ hk'⟩
      · exact fun k hk k' hk₂ hk' hk₂' => hw.once k hk k' hk₂ (halive (h.lookUps k hk) hk')
          (halive (h.lookUps k' hk₂) hk₂')

/-- **A request is cancelled.** -/
theorem Inv.clean (h : Inv s) {id : ID32} (hfree : Free s (.clean id))
    (hclean : handleImsCleanStreamRequest s id = some s') : Inv s' := by
  rw [handleImsCleanStreamRequest] at hclean
  split_ifs at hclean with halive hcleaned
  · obtain rfl := Option.some.inj hclean
    rcases hfree with hlast | ⟨hpieces, hlook⟩
    · refine .of_nil h.numbered h.lookUps (List.filter_eq_nil_iff.mpr fun l hl => ?_)
      rw [hlast l hl]
      simp only [ne_eq, not_true_eq_false, decide_false, Bool.false_eq_true, not_false_eq_true]
    · have hmem {l : Listener} (hl : l ∈ s.listeners.filter fun l => l.id ≠ id) : l ∈ s.listeners :=
        List.mem_of_mem_filter hl
      have hless {id' : ID32} (h : ∃ l ∈ s.listeners.filter fun l => l.id ≠ id, l.id = id') :
          s.Alive id' := by
        obtain ⟨l, hl, hid⟩ := h
        exact ⟨l, hmem hl, hid⟩
      have hmore {id' : ID32} (hne : id' ≠ id) (h : s.Alive id') :
          ∃ l ∈ s.listeners.filter fun l => l.id ≠ id, l.id = id' := by
        obtain ⟨l, hl, rfl⟩ := h
        exact ⟨l, List.mem_filter.mpr ⟨hl, decide_eq_true hne⟩, rfl⟩
      refine ⟨h.numbered, fun l hl => h.listeners l (hmem hl), h.lookUps, ?_⟩
      rcases h.phase with hw | hr
      · refine .inl ⟨fun l hl => hw.unset l (hmem hl),
          fun p hp hp' => hw.orphans p hp (hless hp'), ?_,
          fun k hk k' hk₂ hk' hk₂' => hw.once k hk k' hk₂ (hless hk') (hless hk₂')⟩
        rcases hw.asked with hnil | ⟨k, hk, hk'⟩
        · rw [Stream.Alive, hnil] at halive
          obtain ⟨l, hl, -⟩ := halive
          exact absurd hl List.not_mem_nil
        · exact .inr ⟨k, hk, hmore (hlook k hk) hk'⟩
      · refine .inr ⟨⟨h.numbered, fun c hc hreq hav => ?_⟩, fun l hl => hr.served l (hmem hl),
          hr.nodup, fun k hk hk' => hr.done k hk (hless hk')⟩
        obtain ⟨p, hp, huuid, hp'⟩ := hr.sound.outstanding c hc hreq hav
        exact ⟨p, hp, huuid, hmore (hpieces p hp) hp'⟩
  · obtain rfl := Option.some.inj hclean
    exact h

/-! ### The master object arrives -/

theorem uuids_chunksFromPieces (pieces : Pieces) :
    ((chunksFromPieces pieces).map Chunk.uuid).Perm (pieces.toList.map Prod.fst) := by
  rw [chunksFromPieces]
  refine ((List.perm_insertionSort _ _).map _).trans ?_
  rw [List.map_map]
  exact .rfl

/-- The chunks have uuids of their own. -/
theorem nodup_chunkList (m : MasterJson) : ((chunkList codec m).map Chunk.uuid).Nodup := by
  rw [chunkList]
  split
  · exact List.nodup_singleton _
  · exact (uuids_chunksFromPieces _).nodup_iff.mpr (Pieces.nodup_toList _)

/-- No chunk is on the way at first. -/
theorem not_requested_chunkList {m : MasterJson} (hc : c ∈ chunkList codec m) :
    ¬ (c.requested ∧ c.available = false) := by
  rw [chunkList] at hc
  split at hc
  · obtain rfl := List.mem_singleton.mp hc
    exact fun h => Bool.noConfusion h.2
  · obtain ⟨p, -, rfl⟩ := List.mem_map.mp ((List.mem_insertionSort _).mp hc)
    exact fun h => Bool.noConfusion h.1

/-- The request's turn in `process_pending_get_streaming_requests`. -/
theorem serve_spec {i : ℕ} (h : Sound A sh) (hA : A l.id) (hid : l.id < sh.nextId)
    (hl : (l.streaming.elim 0 Progress.curr) = i ∨ Served sh l)
    (hserve : serve i sh l = some (sh', l')) :
    Sound A sh' ∧ Extends sh sh' ∧ Served sh' l' ∧ (l' = l ∨ Sends sh l l') := by
  rw [serve] at hserve
  split_ifs at hserve with hi
  · obtain ⟨hsound, hext, hserved, hsends⟩ := h.sendAvailableChunks hA hid hserve
    exact ⟨hsound, hext, hserved, .inr hsends⟩
  · obtain ⟨rfl, rfl⟩ := Prod.mk.inj (Option.some.inj hserve)
    exact ⟨h, .refl _, hl.resolve_left hi, .inl rfl⟩

theorem Sends.of_extends (hext : Extends sh sh') (h : Sends sh' l l') : Sends sh l l' := by
  obtain ⟨p, sh₁, hp, hext₁, hl'⟩ := h
  exact ⟨p, sh₁, hp, hext.trans hext₁, hl'⟩

theorem Sends.id (h : l' = l ∨ Sends sh l l') : l'.id = l.id := by
  rcases h with rfl | ⟨p, sh₁, -, -, rfl⟩ <;> rfl

/-- **A round of `process_pending_get_streaming_requests`.** -/
theorem each_serve {i : ℕ} (hsound : Sound s.Alive s.shared)
    (hid : ∀ l ∈ s.listeners, l.id < s.shared.nextId)
    (hls : ∀ l ∈ s.listeners, (l.streaming.elim 0 Progress.curr) = i ∨ Served s.shared l)
    (h : s.each (serve i) = some s') :
    Sound s.Alive s'.shared ∧ Extends s.shared s'.shared ∧
      (∀ l ∈ s'.listeners, Served s'.shared l) ∧
        List.Forall₂ (fun l l' => l' = l ∨ Sends s.shared l l') s.listeners s'.listeners ∧
          s'.lookUps = s.lookUps :=
  each_spec (Q := Served) (R := fun sh l l' => l' = l ∨ Sends sh l l')
    (fun _ _ _ _ hsound hA hid hl hserve => serve_spec hsound hA hid hl hserve)
    (fun _ _ _ hext hl => hl.imp_right fun h => h.of_extends hext)
    (fun _ _ _ hext h => h.of_extends hext)
    (fun _ _ _ _ hext h => h.imp_right fun h => h.of_extends hext)
    hsound (fun l hl => ⟨l, hl, rfl⟩) hid hls h

/-- **A round of `post_get_request_for_streaming_pieces`.** -/
theorem each_post (hsound : Sound s.Alive s.shared)
    (hid : ∀ l ∈ s.listeners, l.id < s.shared.nextId)
    (hls : ∀ l ∈ s.listeners, l.streaming.isSome ∧ ∀ c ∈ s.shared.list, c.available = false)
    (h : s.each (fun sh l => (postNext sh l).map fun sh => (sh, l)) = some s') :
    Sound s.Alive s'.shared ∧ Extends s.shared s'.shared ∧
      (∀ l ∈ s'.listeners, Served s'.shared l) ∧
        List.Forall₂ (fun l l' => l' = l) s.listeners s'.listeners ∧ s'.lookUps = s.lookUps := by
  have hnone {sh sh' : Shared} (hext : Extends sh sh') (h : ∀ c ∈ sh.list, c.available = false) :
      ∀ c ∈ sh'.list, c.available = false := by
    intro c' hc'
    obtain ⟨i, hi⟩ := List.getElem?_of_mem hc'
    obtain ⟨c, hc, heq⟩ := hext.getElem? hi
    exact (unmarked_eq heq).1.symm.trans (h c (List.mem_of_getElem? hc))
  refine each_spec (P := fun sh l => l.streaming.isSome ∧ ∀ c ∈ sh.list, c.available = false)
    (Q := Served) (R := fun _ l l' => l' = l) ?_
    (fun _ _ _ hext hl => ⟨hl.1, hnone hext hl.2⟩)
    (fun _ _ _ hext h => h.of_extends hext) (fun _ _ _ _ _ h => h)
    hsound (fun l hl => ⟨l, hl, rfl⟩) hid hls h
  intro sh l sh' l' hsound hA hid hl hpost
  obtain ⟨sh₁, hloop, heq⟩ := Option.map_eq_some_iff.mp hpost
  obtain ⟨rfl, rfl⟩ := Prod.mk.inj heq
  rw [postNext] at hloop
  obtain ⟨p, hp⟩ := Option.isSome_iff_exists.mp hl.1
  rw [hp] at hloop
  obtain ⟨hsound', hext, hreq⟩ := hsound.postLoop hA hid hloop
  refine ⟨hsound', hext, ⟨p, hp, fun hlt => ?_⟩, rfl⟩
  obtain ⟨c, hc, hmark⟩ := hreq (by decide) hlt
  exact ⟨c, hc, hmark, hnone hext hl.2 c (List.mem_of_getElem? hc)⟩

/-- **The master object is there.** The requests get the list. -/
theorem Inv.construct (h : Inv s) {k : LookUp} {key : Option AesKey} {m : MasterJson}
    (hk : k ∈ s.lookUps) (halive : s.Alive k.id)
    (hconstruct : constructStreamingState codec (s.lookedUp k.id) k.id key m = some s') :
    Inv s' ∧ ∃ sh₀ : Shared, sh₀.list = chunkList codec m ∧ sh₀.size = m.size ∧
      Extends sh₀ s'.shared ∧ List.Forall₂ (fun l l' => l.streaming = none ∧
        (l' = l.setStreamingState sh₀ ∨ Sends sh₀ (l.setStreamingState sh₀) l'))
          s.listeners s'.listeners := by
  -- a look-up for a request that is there means that all of them wait
  have hw : Waiting s := h.phase.resolve_right fun hr => hr.done k hk halive
  -- the object as it was looked up, and the state in which every request is told of it
  obtain ⟨sh₀, hsh₀⟩ : ∃ sh₀, sh₀ = { s.shared with
    list := chunkList codec m, size := m.size, pieces := m.pieces, aesKey := key } := ⟨_, rfl⟩
  obtain ⟨s₀, hs₀⟩ : ∃ s₀ : Stream, s₀ = { s.lookedUp k.id with
    shared := sh₀, listeners := s.listeners.map (updatePending sh₀ k.id) } := ⟨_, rfl⟩
  have hupdate {l : Listener} (hl : l ∈ s.listeners) :
      updatePending sh₀ k.id l = l.setStreamingState sh₀ := if_pos (.inr (hw.unset l hl))
  have hids : s₀.listeners.map Listener.id = s.listeners.map Listener.id := by
    rw [hs₀, List.map_map]
    refine List.map_congr_left fun l hl => ?_
    rw [Function.comp_apply, hupdate hl]
    rfl
  have hsound : Sound s₀.Alive s₀.shared := by
    rw [hs₀, hsh₀]
    exact ⟨⟨h.numbered.fresh, h.numbered.parents, h.numbered.unique⟩,
      fun c hc hreq hav => absurd ⟨hreq, hav⟩ (not_requested_chunkList hc)⟩
  have hid : ∀ l ∈ s₀.listeners, l.id < s₀.shared.nextId := by
    intro l hl
    have hmem : l.id ∈ s.listeners.map Listener.id := hids ▸ List.mem_map_of_mem hl
    obtain ⟨l', hl', heq⟩ := List.mem_map.mp hmem
    rw [← heq, hs₀, hsh₀]
    exact h.listeners l' hl'
  have hset : ∀ l ∈ s₀.listeners, ∃ l₀ ∈ s.listeners, l = l₀.setStreamingState sh₀ := by
    intro l hl
    rw [hs₀] at hl
    obtain ⟨l₀, hl₀, rfl⟩ := List.mem_map.mp hl
    exact ⟨l₀, hl₀, hupdate hl₀⟩
  -- the loop over the requests, with the content of the master object or with pieces to ask for
  have hround : Sound s₀.Alive s'.shared ∧ Extends s₀.shared s'.shared ∧
      (∀ l ∈ s'.listeners, Served s'.shared l) ∧
        List.Forall₂ (fun l l' => l' = l ∨ Sends s₀.shared l l') s₀.listeners s'.listeners ∧
          s'.lookUps = s₀.lookUps := by
    rw [constructStreamingState] at hconstruct
    dsimp only at hconstruct
    have hshared : { (s.lookedUp k.id).shared with
        list := chunkList codec m, size := m.size, pieces := m.pieces, aesKey := key } = sh₀ :=
      hsh₀.symm
    have hstate : { s.lookedUp k.id with
        shared := sh₀
        listeners := (s.lookedUp k.id).listeners.map (updatePending sh₀ k.id) } = s₀ :=
      hs₀.symm
    rw [hshared, hstate] at hconstruct
    split_ifs at hconstruct with hcontent
    · refine each_serve hsound hid (fun l hl => .inl ?_) hconstruct
      obtain ⟨l₀, -, rfl⟩ := hset l hl
      obtain ⟨content, hcontent⟩ := Option.isSome_iff_exists.mp hcontent
      have hlist : sh₀.list = chunksFromContent m.size (codec.base64Decode content) := by
        rw [hsh₀]
        show chunkList codec m = _
        rw [chunkList, hcontent]
      show (calculateLoop _ 0 sh₀.list (0, 0)).1 = 0
      rw [hlist, chunksFromContent, calculateLoop, calculateLoop, ite_self]
    · obtain ⟨hsound', hext, hserved, heq, hlook⟩ := each_post hsound hid (fun l hl => by
        obtain ⟨l₀, -, rfl⟩ := hset l hl
        refine ⟨rfl, fun c hc => ?_⟩
        have hlist : s₀.shared.list = chunksFromPieces m.pieces := by
          rw [hs₀, hsh₀]
          show chunkList codec m = _
          rw [chunkList, Option.not_isSome_iff_eq_none.mp hcontent]
        rw [hlist] at hc
        obtain ⟨p, -, rfl⟩ := List.mem_map.mp ((List.mem_insertionSort _).mp hc)
        rfl) hconstruct
      exact ⟨hsound', hext, hserved, heq.imp fun _ _ => .inl, hlook⟩
  obtain ⟨hsound', hext, hserved, hturns, hlook⟩ := hround
  have hids' : s'.listeners.map Listener.id = s.listeners.map Listener.id :=
    (ids_congr (hturns.imp fun _ _ => Sends.id)).trans hids
  have hext' : s.shared.nextId ≤ s'.shared.nextId := by
    have := hext.nextId
    rw [hs₀, hsh₀] at this
    exact this
  constructor
  -- the invariant: nobody waits for the master object any more
  · refine ⟨hsound'.toNumbered, fun l hl => ?_, fun k' hk' => ?_, .inr ⟨?_, hserved, ?_, ?_⟩⟩
    · have hmem : l.id ∈ s.listeners.map Listener.id := hids' ▸ List.mem_map_of_mem hl
      obtain ⟨l', hl', heq⟩ := List.mem_map.mp hmem
      rw [← heq]
      exact lt_of_lt_of_le (h.listeners l' hl') hext'
    · rw [hlook, hs₀] at hk'
      exact lt_of_lt_of_le (h.lookUps k' (List.mem_of_mem_filter hk')) hext'
    · refine ⟨hsound'.toNumbered, fun c hc hreq hav => ?_⟩
      obtain ⟨p, hp, huuid, hp'⟩ := hsound'.outstanding c hc hreq hav
      exact ⟨p, hp, huuid, (alive_congr hids').mpr ((alive_congr hids).mp hp')⟩
    · rw [hext.uuids, hs₀, hsh₀]
      exact nodup_chunkList m
    · -- the look-up that is answered was the only one for a request that is there
      intro k' hk' halive'
      rw [hlook, hs₀] at hk'
      obtain ⟨hk', hne⟩ := List.mem_filter.mp hk'
      exact of_decide_eq_true hne (hw.once k' hk' k hk ((alive_congr hids').mp halive') halive)
  -- what each request was sent
  · rw [hs₀] at hext hturns
    refine ⟨sh₀, by rw [hsh₀], by rw [hsh₀], hext, ?_⟩
    have hmap := List.forall₂_map_left_iff.mp hturns
    refine List.forall₂_iff_get.mpr ⟨hmap.length_eq, fun i hi hi' => ?_⟩
    have hmem := List.get_mem s.listeners ⟨i, hi⟩
    refine ⟨hw.unset _ hmem, ?_⟩
    rw [← hupdate hmem]
    exact (List.forall₂_iff_get.mp hmap).2 i hi hi'

/-! ### Chunks arrive -/

/-- The request is answered. -/
theorem Numbered.erase (h : Numbered s.shared) (id : ID32) : Numbered (s.erase id).shared where
  fresh p hp := h.fresh p (List.mem_of_mem_filter hp)
  parents p hp := h.parents p (List.mem_of_mem_filter hp)
  unique p hp q hq := h.unique p (List.mem_of_mem_filter hp) q (List.mem_of_mem_filter hq)

theorem Waiting.erase (h : Waiting s) (id : ID32) : Waiting (s.erase id) where
  unset := h.unset
  orphans p hp := h.orphans p (List.mem_of_mem_filter hp)
  asked := h.asked
  once := h.once

/-- The request is answered, for a chunk that is there or a parent that is not. -/
theorem Running.erase (h : Running s) {p : PieceRequest} (hp : p ∈ s.shared.pieceRequests)
    (hend : ¬ s.Alive p.parent ∨ ∃ c ∈ s.shared.list, c.uuid = p.uuid ∧ c.available) :
    Running (s.erase p.id) where
  sound := by
    refine ⟨h.sound.toNumbered.erase _, fun c hc hreq hav => ?_⟩
    obtain ⟨q, hq, huuid, halive⟩ := h.sound.outstanding c hc hreq hav
    refine ⟨q, List.mem_filter.mpr ⟨hq, decide_eq_true fun hid => ?_⟩, huuid, halive⟩
    obtain rfl := h.sound.unique q hq p hp hid
    rcases hend with hdead | ⟨d, hd, huuid', hav'⟩
    · exact hdead halive
    · obtain rfl := List.inj_on_of_nodup_map h.nodup hc hd (huuid.symm.trans huuid'.symm)
      rw [hav] at hav'
      cases hav'
  served := h.served
  nodup := h.nodup
  done := h.done

/-- **A chunk of the list is there.** -/
theorem Running.handleStreamingChunk (h : Running s)
    (hid : ∀ l ∈ s.listeners, l.id < s.shared.nextId) {uuid : UUID} {data : Bytes}
    (hchunk : handleStreamingChunk s uuid data = some s') :
    Running s' ∧ s'.lookUps = s.lookUps ∧
      s'.listeners.map Listener.id = s.listeners.map Listener.id ∧
        ∃ i c, s.shared.list[i]? = some c ∧ c.uuid = uuid ∧ ∃ sh₀ : Shared,
          sh₀ = { s.shared with
            list := s.shared.list.set i { c with available := true, file := data } } ∧
            Extends sh₀ s'.shared ∧
              List.Forall₂ (fun l l' => l' = l ∨ Sends sh₀ l l') s.listeners s'.listeners := by
  rw [Streaming.handleStreamingChunk] at hchunk
  obtain ⟨i, hi⟩ : ∃ i, i = getStreamingChunkIndex s.shared.list uuid := ⟨_, rfl⟩
  rw [← hi] at hchunk
  -- content for a chunk the list does not have would end the run, and did not
  cases hc : s.shared.list[i]? with
  | none =>
    rw [hc] at hchunk
    cases hchunk
  | some c =>
    rw [hc] at hchunk
    have hlt : i < s.shared.list.length := (List.getElem?_eq_some_iff.mp hc).1
    have huuid : c.uuid = uuid := by
      obtain ⟨hlt, rfl⟩ := List.getElem?_eq_some_iff.mp hc
      subst hi
      exact of_decide_eq_true (List.findIdx_getElem (w := hlt))
    -- the list with the chunk filled in, before the listeners are served
    obtain ⟨sh₀, hsh₀⟩ : ∃ sh₀ : Shared, sh₀ = { s.shared with
      list := s.shared.list.set i { c with available := true, file := data } } := ⟨_, rfl⟩
    have hset (j : ℕ) : sh₀.list[j]? =
        if j = i then some { c with available := true, file := data } else s.shared.list[j]? := by
      rw [hsh₀]
      split_ifs with hj
      · rw [hj]
        exact List.getElem?_set_self hlt
      · exact List.getElem?_set_ne (Ne.symm hj)
    -- no outstanding chunk became so by filling one in
    have hsound : Sound s.Alive sh₀ := by
      rw [hsh₀]
      refine ⟨⟨h.sound.fresh, h.sound.parents, h.sound.unique⟩, fun d hd hreq hav => ?_⟩
      rcases List.mem_or_eq_of_mem_set hd with hd | rfl
      · exact h.sound.outstanding d hd hreq hav
      · cases hav
    -- one round over the listeners, which keeps `Sound` and gives each a turn
    have hround := each_serve (s := { s with shared := sh₀ }) (i := i) hsound
      (fun l hl => by rw [hsh₀]; exact hid l hl) (fun l hl => ?_) (by rw [hsh₀]; exact hchunk)
    · obtain ⟨hsound', hext, hserved, hturns, hlook⟩ := hround
      have hids := ids_congr (hturns.imp fun _ _ => Sends.id)
      refine ⟨⟨⟨hsound'.toNumbered, fun d hd hreq hav => ?_⟩, hserved, ?_, fun k hk hk' => ?_⟩,
        hlook, hids, i, c, hc, huuid, sh₀, hsh₀, hext, hturns⟩
      · obtain ⟨p, hp, huuid, hp'⟩ := hsound'.outstanding d hd hreq hav
        exact ⟨p, hp, huuid, (alive_congr hids).mpr hp'⟩
      -- the names in the list are the ones of before
      · have hmap :
            (s.shared.list.set i { c with available := true, file := data }).map Chunk.uuid =
            s.shared.list.map Chunk.uuid := by
          rw [List.map_set]
          refine List.ext_getElem? fun j => ?_
          rw [List.getElem?_set]
          split_ifs with hij hj
          · rw [← hij, List.getElem?_map, hc]
            rfl
          · rw [List.getElem?_eq_none (by omega)]
          · rfl
        rw [hext.uuids, hsh₀, hmap]
        exact h.nodup
      · rw [hlook] at hk
        exact h.done k hk ((alive_congr hids).mp hk')
    · -- a request that did not wait for this chunk still waits for its own
      obtain ⟨p, hp, hwait⟩ := h.served l hl
      by_cases hcurr : p.curr = i
      · exact .inl (by rw [hp]; exact hcurr)
      · refine .inr ⟨p, hp, fun hlt => ?_⟩
        rw [hset, if_neg hcurr]
        exact hwait hlt

/-- **A chunk arrives** that was asked for by a request that is still there. -/
theorem Inv.chunk (h : Inv s) {p : PieceRequest} (hp : p ∈ s.shared.pieceRequests)
    (halive : s.Alive p.parent) {data : Bytes}
    (hchunk : (handleStreamingChunk s p.uuid data).map (fun s => s.erase p.id) = some s') :
    Inv s' := by
  have hr : Running s := h.phase.resolve_left fun hw => hw.orphans p hp halive
  obtain ⟨s₁, hs₁, rfl⟩ := Option.map_eq_some_iff.mp hchunk
  obtain ⟨hr₁, hlook, hids, i, c, hc, huuid, sh₀, hsh₀, hext, -⟩ :=
    hr.handleStreamingChunk h.listeners hs₁
  have hnext : s.shared.nextId ≤ s₁.shared.nextId := by
    have := hext.nextId
    rw [hsh₀] at this
    exact this
  -- the chunk is there now
  obtain ⟨c', hc', heq⟩ := hext.getElem?' (i := i) (c := { c with available := true, file := data })
    (by rw [hsh₀]; exact List.getElem?_set_self (List.getElem?_eq_some_iff.mp hc).1)
  obtain ⟨hav, -, -, huuid', -⟩ := unmarked_eq heq
  have hmem : p ∈ s₁.shared.pieceRequests := hext.pieceRequests p (by rw [hsh₀]; exact hp)
  have hr₂ := hr₁.erase hmem (.inr ⟨c', List.mem_of_getElem? hc', huuid'.trans huuid, hav⟩)
  refine ⟨hr₁.sound.toNumbered.erase _, fun l hl => ?_, fun k hk => ?_, .inr hr₂⟩
  · have hmem : l.id ∈ s.listeners.map Listener.id := hids ▸ List.mem_map_of_mem hl
    obtain ⟨l', hl', heq⟩ := List.mem_map.mp hmem
    rw [← heq]
    exact lt_of_lt_of_le (h.listeners l' hl') hnext
  · have hk' : k ∈ s₁.lookUps := hk
    rw [hlook] at hk'
    exact lt_of_lt_of_le (h.lookUps k hk') hnext

/-- An answer for a request whose parent is gone. -/
theorem Inv.orphan (h : Inv s) {p : PieceRequest} (hp : p ∈ s.shared.pieceRequests)
    (hdead : ¬ s.Alive p.parent) : Inv (s.erase p.id) :=
  ⟨h.numbered.erase _, h.listeners, h.lookUps,
    h.phase.imp (fun hw => hw.erase _) fun hr => hr.erase hp (.inl hdead)⟩

/-- A chunk goes to the key manager. -/
theorem Inv.decrypting (h : Inv s) {id : ID32} :
    Inv { s with shared := { s.shared with pieceRequests := s.shared.pieceRequests.map fun q =>
      if q.id = id then { q with decrypting := true } else q } } := by
  obtain ⟨f, hf⟩ : ∃ f : PieceRequest → PieceRequest, f = fun q =>
    if q.id = id then { q with decrypting := true } else q := ⟨_, rfl⟩
  have hsame (q : PieceRequest) : (f q).id = q.id ∧ (f q).uuid = q.uuid ∧
      (f q).parent = q.parent := by
    rw [hf]
    dsimp only
    split_ifs <;> exact ⟨rfl, rfl, rfl⟩
  rw [← hf]
  have hnumbered : Numbered { s.shared with pieceRequests := s.shared.pieceRequests.map f } := by
    constructor
    · intro q hq
      obtain ⟨q₀, hq₀, rfl⟩ := List.mem_map.mp hq
      rw [(hsame q₀).1]
      exact h.numbered.fresh q₀ hq₀
    · intro q hq
      obtain ⟨q₀, hq₀, rfl⟩ := List.mem_map.mp hq
      rw [(hsame q₀).2.2]
      exact h.numbered.parents q₀ hq₀
    · intro q hq q' hq' heq
      obtain ⟨q₀, hq₀, rfl⟩ := List.mem_map.mp hq
      obtain ⟨q₁, hq₁, rfl⟩ := List.mem_map.mp hq'
      rw [(hsame q₀).1, (hsame q₁).1] at heq
      rw [h.numbered.unique q₀ hq₀ q₁ hq₁ heq]
  refine ⟨hnumbered, h.listeners, h.lookUps, ?_⟩
  rcases h.phase with hw | hr
  · refine .inl ⟨hw.unset, fun q hq => ?_, hw.asked, hw.once⟩
    obtain ⟨q₀, hq₀, rfl⟩ := List.mem_map.mp hq
    rw [(hsame q₀).2.2]
    exact hw.orphans q₀ hq₀
  · refine .inr ⟨⟨hnumbered, fun c hc hreq hav => ?_⟩, hr.served, hr.nodup, hr.done⟩
    obtain ⟨q, hq, huuid, halive⟩ := hr.sound.outstanding c hc hreq hav
    refine ⟨f q, List.mem_map_of_mem hq, (hsame q).2.1.trans huuid, ?_⟩
    rw [(hsame q).2.2]
    exact halive

/-! ### What the handlers do -/

/-- An answer nobody waits for changes nothing. -/
theorem eq_or_of_elim {α : Type} {o : Option α} {f : α → Option Stream}
    (h : o.elim (some s) f = some s') : s' = s ∨ ∃ x, o = some x ∧ f x = some s' := by
  cases o with
  | none => exact .inl (Option.some.inj h).symm
  | some x => exact .inr ⟨x, rfl, h⟩

theorem handlePiece_cases {p : PieceRequest} {data : Bytes}
    (h : handlePiece s p data = some s') :
    s.Alive p.parent ∧ p.aesKey = none ∧
        (handleStreamingChunk s p.uuid data).map (fun s => s.erase p.id) = some s' ∨
      s' = { s with shared := { s.shared with
        pieceRequests := s.shared.pieceRequests.map fun q =>
          if q.id = p.id then { q with decrypting := true } else q } } ∨
      ¬ s.Alive p.parent ∧ s' = s.erase p.id := by
  rw [handlePiece] at h
  split_ifs at h with halive
  · cases hkey : p.aesKey with
    | none =>
      rw [hkey] at h
      exact .inl ⟨halive, rfl, h⟩
    | some key =>
      rw [hkey] at h
      exact .inr (.inl (Option.some.inj h).symm)
  · exact .inr (.inr ⟨halive, (Option.some.inj h).symm⟩)

theorem handlePieceAfterDecrypt_cases {p : PieceRequest} {data : Bytes}
    (h : handlePieceAfterDecrypt s p data = some s') :
    s.Alive p.parent ∧
        (handleStreamingChunk s p.uuid data).map (fun s => s.erase p.id) = some s' ∨
      ¬ s.Alive p.parent ∧ s' = s.erase p.id := by
  rw [handlePieceAfterDecrypt] at h
  split_ifs at h with halive
  · exact .inl ⟨halive, h⟩
  · exact .inr ⟨halive, (Option.some.inj h).symm⟩

theorem handleFailedMaster_cases {k : LookUp} (h : handleFailedMaster s k = some s') :
    s' = failAll (s.lookedUp k.id) ∨ ¬ s.Alive k.id ∧ s' = s.lookedUp k.id := by
  rw [handleFailedMaster] at h
  split_ifs at h with halive
  · exact .inl (Option.some.inj h).symm
  · exact .inr ⟨halive, (Option.some.inj h).symm⟩

theorem handleMasterObject_cases {k : LookUp} {key : Option AesKey} {m : MasterJson}
    (h : handleMasterObject codec s k key m = some s') :
    s.Alive k.id ∧ constructStreamingState codec (s.lookedUp k.id) k.id key m = some s' ∨
      handleFailedMaster s k = some s' := by
  rw [handleMasterObject] at h
  split_ifs at h with halive
  · exact .inl ⟨halive.1, h⟩
  · exact .inr h

/-! ### Every step -/

theorem Inv.lookedUp (h : Inv s) {id : ID32} (hdead : ¬ s.Alive id) : Inv (s.lookedUp id) := by
  have hmem {k : LookUp} (hk : k ∈ (s.lookedUp id).lookUps) : k ∈ s.lookUps :=
    List.mem_of_mem_filter hk
  refine ⟨h.numbered, h.listeners, fun k hk => h.lookUps k (hmem hk), ?_⟩
  rcases h.phase with hw | hr
  · refine .inl ⟨hw.unset, hw.orphans, ?_, fun k hk k' hk' => hw.once k (hmem hk) k' (hmem hk')⟩
    rcases hw.asked with hnil | ⟨k, hk, halive⟩
    · exact .inl hnil
    · refine .inr ⟨k, List.mem_filter.mpr ⟨hk, decide_eq_true fun hid => hdead ?_⟩, halive⟩
      exact hid ▸ halive
  · exact .inr ⟨hr.sound, hr.served, hr.nodup, fun k hk => hr.done k (hmem hk)⟩

theorem Inv.encrypted (h : Inv s) (k : LookUp) (hk : k ∈ s.lookUps) :
    Inv (postKeyManagerDecryptMaster s k) := by
  rw [postKeyManagerDecryptMaster]
  split_ifs with halive
  · have hw : Waiting s := h.phase.resolve_right fun hr => hr.done k hk halive
    have hmap {k' : LookUp} (hk' : k' ∈ s.lookUps.map fun k' =>
        if k'.id = k.id then ⟨k.id, true⟩ else k') : ∃ k₀ ∈ s.lookUps, k₀.id = k'.id := by
      obtain ⟨k₀, hk₀, rfl⟩ := List.mem_map.mp hk'
      refine ⟨k₀, hk₀, ?_⟩
      split_ifs with hid
      · exact hid
      · rfl
    refine ⟨h.numbered, h.listeners, fun k' hk' => ?_, .inl ⟨hw.unset, hw.orphans, .inr ?_,
      fun k₁ hk₁ k₂ hk₂ halive₁ halive₂ => ?_⟩⟩
    · obtain ⟨k₀, hk₀, hid⟩ := hmap hk'
      exact hid ▸ h.lookUps k₀ hk₀
    · exact ⟨⟨k.id, true⟩, List.mem_map.mpr ⟨k, hk, if_pos rfl⟩, halive⟩
    · obtain ⟨k₁', hk₁', hid₁⟩ := hmap hk₁
      obtain ⟨k₂', hk₂', hid₂⟩ := hmap hk₂
      rw [← hid₁, ← hid₂]
      exact hw.once k₁' hk₁' k₂' hk₂' (hid₁.symm ▸ halive₁) (hid₂.symm ▸ halive₂)
  · exact h.lookedUp halive

/-- The look-ups of a state whose requests all fail. -/
theorem Inv.failed (h : Inv s) (id : ID32) : Inv (Streaming.failAll (s.lookedUp id)) :=
  .of_nil h.numbered (fun k hk => h.lookUps k (List.mem_of_mem_filter hk)) rfl

theorem Inv.masterFailed (h : Inv s) {k : LookUp} (hfail : handleFailedMaster s k = some s') :
    Inv s' := by
  rcases handleFailedMaster_cases hfail with rfl | ⟨halive, rfl⟩
  · exact h.failed k.id
  · exact h.lookedUp halive

/-- **Step lemma.** -/
theorem inv_step {e : Event} (h : Inv s) (hfree : Free s e) (hstep : step codec s e = some s') :
    Inv s' := by
  have hfind {k : LookUp} {id : ID32} (hk : s.findLookUp id = some k) : k ∈ s.lookUps :=
    List.mem_of_find?_eq_some hk
  cases e with
  | get range => exact (h.get hstep).1
  | clean id => exact h.clean hfree hstep
  | encryptedMaster id =>
    obtain rfl := Option.some.inj hstep
    cases hk : s.findLookUp id with
    | none => exact h
    | some k => exact h.encrypted k (hfind hk)
  | master id key m =>
    obtain rfl | ⟨k, hk, hmaster⟩ := eq_or_of_elim hstep
    · exact h
    · rcases handleMasterObject_cases hmaster with ⟨halive, hconstruct⟩ | hfail
      · exact (h.construct (hfind hk) halive hconstruct).1
      · exact h.masterFailed hfail
  | masterFailed id =>
    obtain rfl | ⟨k, -, hfail⟩ := eq_or_of_elim hstep
    · exact h
    · exact h.masterFailed hfail
  | piece id data =>
    obtain rfl | ⟨p, hp, hpiece⟩ := eq_or_of_elim hstep
    · exact h
    · have hmem : p ∈ s.shared.pieceRequests := List.mem_of_find?_eq_some hp
      rcases handlePiece_cases hpiece with ⟨halive, -, hchunk⟩ | rfl | ⟨hdead, rfl⟩
      · exact h.chunk hmem halive hchunk
      · exact h.decrypting
      · exact h.orphan hmem hdead
  | decryptedPiece id data =>
    obtain rfl | ⟨p, hp, hpiece⟩ := eq_or_of_elim hstep
    · exact h
    · have hmem : p ∈ s.shared.pieceRequests := List.mem_of_find?_eq_some hp
      rcases handlePieceAfterDecrypt_cases hpiece with ⟨halive, hchunk⟩ | ⟨hdead, rfl⟩
      · exact h.chunk hmem halive hchunk
      · exact h.orphan hmem hdead
  | pieceFailed id =>
    obtain rfl := Option.some.inj hstep
    cases hp : s.shared.pieceRequests.find? fun p => p.id = id with
    | none => exact h
    | some p =>
      show Inv (handleFailedPiece s p)
      rw [handleFailedPiece]
      split_ifs with halive
      · exact .of_nil (h.numbered.erase _) h.lookUps rfl
      · exact h.orphan (List.mem_of_find?_eq_some hp) halive

/-- The condition holds along the run. -/
def FreeRun (codec : Codec) (es : List Event) : Prop := Run.Along (step codec) Free .init es

instance (codec : Codec) (es : List Event) : Decidable (FreeRun codec es) :=
  inferInstanceAs (Decidable (Run.Along _ _ _ _))

theorem inv_run {es : List Event} (hfree : FreeRun codec es)
    (hrun : Run.run (step codec) .init es = some s) : Inv s :=
  Run.invariant_of_run Inv (fun _ _ _ h hok hs => inv_step h hok hs) inv_init hfree hrun

/-- **The streams survive** in every run in which no request is cancelled, while others remain,
when something it asked for is on the way. -/
theorem survives_run (codec : Codec) (es : List Event) (s : Stream) (hfree : FreeRun codec es)
    (hrun : Run.run (step codec) .init es = some s) : Survives s :=
  (inv_run hfree hrun).survives

/-- A master object with two pieces of two bytes. -/
def twoPieces : MasterJson where
  size := 4
  version := 1
  contentType := "video/mp2t"
  pieces := AList.insert 10 ⟨2, 2, none⟩ (AList.insert 9 ⟨0, 2, none⟩ ∅)
  content := none
  lastUpdated := 0
  expirationDate := 0
  protocolVersion := 1

/-- Two requests, and the first one asks for both chunks. -/
def twoRequests : List Event := [.get (-1, -1), .get (-1, -1), .master 0 none twoPieces]

/-- The first request is cancelled when it has got its chunks. -/
theorem survives_after : ∃ s, Run.run (step .plain) .init
    (twoRequests ++ [.piece 3 [12, 13], .piece 2 [10, 11], .clean 0]) = some s ∧ Survives s := by
  have hsome : (Run.run (step .plain) .init
      (twoRequests ++ [.piece 3 [12, 13], .piece 2 [10, 11], .clean 0])).isSome := by decide
  obtain ⟨s, hs⟩ := Option.isSome_iff_exists.mp hsome
  exact ⟨s, hs, survives_run .plain _ s (by decide) hs⟩

/-- **The first request is cancelled when they are on the way.** The other one waits for ever. -/
theorem stream_not_survives : ¬ ∀ (codec : Codec) (es : List Event) (s : Stream),
    Run.run (step codec) .init es = some s → Survives s := by
  intro h
  have hrun : ∀ s ∈ Run.run (step .plain) .init (twoRequests ++ [.clean 0]),
      (∃ l ∈ s.listeners, l.streaming.isSome) ∧ (∃ c ∈ s.shared.list, c.requested ∧
        c.available = false) ∧ ∀ p ∈ s.shared.pieceRequests, ¬ s.Alive p.parent := by
    decide
  have hsome : (Run.run (step .plain) .init (twoRequests ++ [.clean 0])).isSome := by decide
  obtain ⟨s, hs⟩ := Option.isSome_iff_exists.mp hsome
  obtain ⟨⟨l, hl, hset⟩, ⟨c, hc, hreq, hav⟩, hdead⟩ := hrun s hs
  obtain ⟨p, hp, -, halive⟩ := (h .plain _ s hs).outstanding l hl hset c hc hreq hav
  exact hdead p hp halive

end Streaming

end Metax
