import Metax.Copying.Handlers

/-!
# Asking for the pieces

The loop over the pieces keeps what is known of a request that waits for nothing yet (`Spread`),
whether it comes to its end or not. At its end every piece is counted in `units` and listed under
its new uuid (`Asked`).

The new uuids are taken from the generator one after the other, and the log of a copy is compared
with what the generator yields from there on.
-/

namespace Metax

namespace Copying

variable {intact : Prop} {random : ℕ → UUID} {dataCopyCount : UInt16} {now : ℕ} {s t : Copying}
  {rid id ims : ID32} {r r' q : Request} {e : Entry} {l : List Entry} {m : MasterJson} {b : Bool}
  {ps : List (Option UUID × Piece)}

/-! ### Before anything was copied -/

/-- An entry from before anything was copied. -/
def Entry.Early : Entry → Prop
  | .respond _ _ | .saveStorage _ _ _ | .saveRouter _ _ _ _ | .pieceCopied _ _ | .failed => False
  | _ => True

/-- What is not in a log from before anything was copied. -/
structure Untouched (l : List Entry) : Prop where
  answers_eq : answers l = []
  failed : .failed ∉ l
  pieceCopied : ∀ i u, .pieceCopied i u ∉ l
  saved : ∀ c, ¬ Saved c l
  sound : ∀ random ims, Sound random ims l

theorem untouched (h : ∀ e ∈ l, e.Early) : Untouched l := by
  have hfailed : .failed ∉ l := fun hmem => h _ hmem
  have hrespond : ∀ i a, .respond i a ∉ l := fun i a hmem => h _ hmem
  refine ⟨List.filter_eq_nil_iff.mpr fun e he => ?_, hfailed, fun i u hmem => h _ hmem, ?_,
    fun random ims => ⟨?_, ?_, ?_⟩⟩
  · have hearly := h e he
    cases e with
    | respond => exact hearly.elim
    | _ => exact Bool.false_ne_true
  · rintro c ⟨i, u, hmem | ⟨n, hmem⟩⟩
    · exact h _ hmem
    · exact h _ hmem
  · exact fun i a b t ht => absurd (ht.subset List.mem_cons_self) (hrespond i _)
  · exact fun t ht => absurd (ht.subset List.mem_cons_self) hfailed
  · intro l' t heq
    rw [heq] at hfailed
    exact absurd (List.mem_append_right l' List.mem_cons_self) hfailed

/-- The request of the IMS when nothing was copied yet. -/
structure Request.IsFresh (q : Request) : Prop extends q.IsMain where
  updated : q.updated = 0
  data_eq : q.data = none
  saved : q.savedUnits = []

/-- The pieces are being asked for. `r` is the request, which is written back at the end. -/
structure Spread (rid ims : ID32) (s : Copying) (r : Request) : Prop where
  main : s.requests.lookup rid ≠ none
  fresh : r.IsFresh
  parts : ∀ i c, i ≠ rid → s.requests.lookup i = some c →
    c.IsPart rid ∧ c.cmd = .copy ∧ c.updated = 0
  mainPost : s.posted.lookup rid = none
  partPost : ∀ i p, i ≠ rid → s.posted.lookup i = some p → p.IsPart
  ims_eq : s.imsReqIds.lookup rid = some ims
  early : ∀ e ∈ s.log, e.Early

theorem Spread.untouched (h : Spread rid ims s r) : Untouched s.log :=
  Copying.untouched h.early

/-- The request may be written back at any time. -/
theorem Spread.core (h : Spread rid ims s r) : Core random rid ims (s.setRequest rid r) := by
  have hnone := h.untouched
  have hmain : ∀ q, (s.setRequest rid r).requests.lookup rid = some q → q = r := by
    intro q hq
    rw [setRequest, AList.lookup_insert] at hq
    exact (Option.some.inj hq).symm
  have hparts : ∀ i c, i ≠ rid → (s.setRequest rid r).requests.lookup i = some c →
      s.requests.lookup i = some c := by
    intro i c hi hc
    rwa [setRequest, AList.lookup_insert_ne hi] at hc
  refine ⟨?_, ?_, ?_, h.partPost, ?_, ?_, hnone.sound random ims⟩
  · intro q hq
    rw [hmain q hq]
    exact h.fresh.toIsMain
  · exact fun i c hi hc => (h.parts i c hi (hparts i c hi hc)).1
  · intro p hp
    have hposted : s.posted.lookup rid = some p := hp
    rw [h.mainPost] at hposted
    cases hposted
  · exact fun q _ i u hu => absurd hu (hnone.pieceCopied i u)
  · exact fun q _ i c hi hc _ hupdated => absurd (h.parts i c hi (hparts i c hi hc)).2.2 hupdated

/-- Nothing is saved unless a piece was asked for. -/
theorem Spread.base (h : Spread rid ims s r)
    (halone : intact → ∀ i, i ≠ rid → s.requests.lookup i = none) :
    Base intact random rid ims (s.setRequest rid r) where
  toCore := h.core
  master hintact hpiece := by
    obtain ⟨i, c, hi, hc, -⟩ := hpiece
    rw [setRequest, AList.lookup_insert_ne hi, halone hintact i hi] at hc
    cases hc
  data _ q hq c hc := by
    rw [setRequest, AList.lookup_insert] at hq
    rw [← Option.some.inj hq, h.fresh.data_eq] at hc
    cases hc
  encrypting _ c hc := by
    have hposted : s.posted.lookup rid = some (.encrypt c) := hc
    rw [h.mainPost] at hposted
    cases hposted
  saved _ c hc := absurd hc (h.untouched.saved c)

theorem Spread.toReported (h : Spread rid ims s r) : (s.setRequest rid r).Reported rid ims :=
  .inl ⟨h.ims_eq, h.untouched.answers_eq⟩

/-! ### A piece -/

/-- The request of a piece is posted under the next number of the counter. -/
structure AskedOnce (rid : ID32) (u new : UUID) (s t : Copying) (r r' : Request) : Prop where
  free : s.requests.lookup s.requestCounter = none
  requests_eq : t.requests = s.requests.insert s.requestCounter (pieceRequest rid r u new)
  log_eq : t.log = .copyStorage s.requestCounter u new :: s.log
  posted_eq : t.posted = s.posted.insert s.requestCounter .copyStorage
  ims_eq : t.imsReqIds = s.imsReqIds
  drawn_eq : t.drawn = s.drawn
  counter_eq : t.requestCounter = Deletion.nextCounter s.requestCounter
  request_eq : r' = { r with
    units := insert s.requestCounter r.units
    backupUnits := insert s.requestCounter r.backupUnits }

/-- Nothing but the counter has moved. -/
structure Thrown (s t : Copying) (r r' : Request) : Prop where
  requests_eq : t.requests = s.requests
  log_eq : t.log = s.log
  posted_eq : t.posted = s.posted
  ims_eq : t.imsReqIds = s.imsReqIds
  request_eq : r' = r

/-- What becomes of a piece. -/
theorem handleCopyOfEachPiece_cases {old : Option UUID} {new : UUID}
    (ht : handleCopyOfEachPiece rid s r old new = (t, r', b)) :
    b = true ∧ (∃ u, old = some u ∧ AskedOnce rid u new s t r r') ∨
      b = false ∧ (old = none ∨ s.requests.lookup s.requestCounter ≠ none) ∧ Thrown s t r r' := by
  unfold handleCopyOfEachPiece at ht
  by_cases hfree : s.requests.lookup s.requestCounter = none
  · have hget : s.getRequestId =
        ({ s with requestCounter := Deletion.nextCounter s.requestCounter },
          some s.requestCounter) := by
      rw [getRequestId, if_pos hfree]
    rw [hget] at ht
    cases old with
    | none =>
      obtain ⟨rfl, rfl, rfl⟩ : _ ∧ _ ∧ _ := by simpa only [Prod.mk.injEq] using ht
      exact .inr ⟨rfl, .inl rfl, rfl, rfl, rfl, rfl, rfl⟩
    | some u =>
      obtain ⟨rfl, rfl, rfl⟩ : _ ∧ _ ∧ _ := by simpa only [Prod.mk.injEq] using ht
      exact .inl ⟨rfl, u, rfl, hfree, rfl, rfl, rfl, rfl, rfl, rfl, rfl⟩
  · have hget : s.getRequestId =
        ({ s with requestCounter := Deletion.nextCounter s.requestCounter }, none) := by
      rw [getRequestId, if_neg hfree]
    rw [hget] at ht
    obtain ⟨rfl, rfl, rfl⟩ : _ ∧ _ ∧ _ := by simpa only [Prod.mk.injEq] using ht
    exact .inr ⟨rfl, .inr hfree, rfl, rfl, rfl, rfl, rfl⟩

/-- One round of the loop: a piece is asked for and the loop goes on, or it is broken off. -/
theorem copyPieces_cons_cases {old : Option UUID} {p : Piece}
    (ht : Copying.copyPieces random rid s r ((old, p) :: ps) = (t, r', b)) :
    (∃ u s₁ r₁, old = some u ∧
      AskedOnce rid u (random s.drawn) { s with drawn := s.drawn + 1 } s₁ r r₁ ∧
      Copying.copyPieces random rid s₁ (r₁.setPiece (random s.drawn) p) ps = (t, r', b)) ∨
    b = false ∧ (old = none ∨ s.requests.lookup s.requestCounter ≠ none) ∧
      Thrown { s with drawn := s.drawn + 1 } t r r' := by
  obtain ⟨y, hy⟩ : ∃ y, handleCopyOfEachPiece rid { s with drawn := s.drawn + 1 } r old
      (random s.drawn) = y := ⟨_, rfl⟩
  obtain ⟨s₁, r₁, b₁⟩ := y
  rw [Copying.copyPieces, hy] at ht
  obtain ⟨rfl, u, hold, hasked⟩ | ⟨rfl, hbroken, hthrown⟩ := handleCopyOfEachPiece_cases hy
  · exact .inl ⟨u, s₁, r₁, hold, hasked, ht⟩
  · obtain ⟨rfl, rfl, rfl⟩ : _ ∧ _ ∧ _ := by simpa only [Prod.mk.injEq] using ht
    exact .inr ⟨rfl, hbroken, hthrown⟩

theorem Spread.thrown (h : Spread rid ims s r) (hthrown : Thrown s t r r') :
    Spread rid ims t r' := by
  obtain ⟨hrequests, hlog, hposted, hims, rfl⟩ := hthrown
  exact ⟨hrequests ▸ h.main, h.fresh, hrequests ▸ h.parts, hposted ▸ h.mainPost,
    hposted ▸ h.partPost, hims ▸ h.ims_eq, hlog ▸ h.early⟩

theorem Spread.askedOnce {u new : UUID} (h : Spread rid ims s r)
    (hasked : AskedOnce rid u new s t r r') : Spread rid ims t r' := by
  have hrid : rid ≠ s.requestCounter := fun heq => h.main (heq ▸ hasked.free)
  refine ⟨?_, ?_, ?_, ?_, ?_, ?_, ?_⟩
  · rw [hasked.requests_eq, AList.lookup_insert_ne hrid]
    exact h.main
  · rw [hasked.request_eq]
    exact { h.fresh with }
  · intro i c hi hc
    rw [hasked.requests_eq] at hc
    obtain ⟨-, rfl⟩ | ⟨-, hc⟩ := Ledger.eq_or_of_lookup_insert hc
    · exact ⟨⟨rfl, rfl⟩, rfl, rfl⟩
    · exact h.parts i c hi hc
  · rw [hasked.posted_eq, AList.lookup_insert_ne hrid]
    exact h.mainPost
  · intro i p hi hp
    rw [hasked.posted_eq] at hp
    obtain ⟨-, rfl⟩ | ⟨-, hp⟩ := Ledger.eq_or_of_lookup_insert hp
    · trivial
    · exact h.partPost i p hi hp
  · rw [hasked.ims_eq]
    exact h.ims_eq
  · intro e he
    rw [hasked.log_eq] at he
    obtain rfl | he := List.mem_cons.mp he
    · trivial
    · exact h.early e he

/-- A new name is listed. -/
theorem Spread.setPiece (h : Spread rid ims s r) (new : UUID) (p : Piece) :
    Spread rid ims s (r.setPiece new p) :=
  { h with fresh := { h.fresh with } }

/-- A uuid is drawn. -/
theorem Spread.draw (h : Spread rid ims s r) (n : ℕ) : Spread rid ims { s with drawn := n } r :=
  { h with }

/-! ### The loop -/

/-- The loop ends with its request ready to be written back. -/
theorem Spread.copyPieces (h : Spread rid ims s r)
    (ht : Copying.copyPieces random rid s r ps = (t, r', b)) : Spread rid ims t r' := by
  induction ps generalizing s r with
  | nil =>
    obtain ⟨rfl, rfl, -⟩ : _ ∧ _ ∧ _ := by simpa only [Copying.copyPieces, Prod.mk.injEq] using ht
    exact h
  | cons x ps ih =>
    obtain ⟨old, p⟩ := x
    obtain ⟨u, s₁, r₁, -, hasked, ht⟩ | ⟨-, -, hthrown⟩ := copyPieces_cons_cases ht
    · exact ih (((h.draw _).askedOnce hasked).setPiece _ p) ht
    · exact (h.draw _).thrown hthrown

theorem drawnFrom_succ (k n : ℕ) :
    drawnFrom random k (n + 1) = random k :: drawnFrom random (k + 1) n := by
  rw [drawnFrom, List.range_succ_eq_map, List.map_cons, List.map_map, Nat.add_zero, drawnFrom]
  refine congrArg _ (List.map_congr_left fun i _ => ?_)
  rw [Function.comp_apply, Nat.succ_eq_add_one, Nat.add_right_comm, Nat.add_assoc]

theorem length_drawnFrom (k n : ℕ) : (drawnFrom random k n).length = n := by
  rw [drawnFrom, List.length_map, List.length_range]

/-- The pieces are listed under the new uuids. -/
structure Lists (new : List UUID) (pieces : List Piece) (m m' : MasterJson) : Prop where
  size : m'.size = m.size
  contentType : m'.contentType = m.contentType
  content : m'.content = m.content
  lookup : new.Nodup → (∀ u ∈ new, m.pieces.lookup u = none) → ∀ u p,
    m'.pieces.lookup u = some p ↔ (u, p) ∈ new.zip pieces ∨ m.pieces.lookup u = some p

theorem Lists.nil (m : MasterJson) : Lists [] [] m m :=
  ⟨rfl, rfl, rfl, fun _ _ _ _ =>
    ⟨.inr, fun h => h.elim (fun hmem => absurd hmem List.not_mem_nil) id⟩⟩

theorem Lists.cons {n : UUID} {p : Piece} {new : List UUID} {pieces : List Piece} {m' : MasterJson}
    (h : Lists new pieces { m with pieces := m.pieces.insert n p } m') :
    Lists (n :: new) (p :: pieces) m m' where
  size := h.size
  contentType := h.contentType
  content := h.content
  lookup hnodup hnone u p' := by
    obtain ⟨hn, hnew⟩ := List.nodup_cons.mp hnodup
    have hother : ∀ v ∈ new, (m.pieces.insert n p).lookup v = none := by
      intro v hv
      have hne : v ≠ n := fun heq => hn (heq ▸ hv)
      rw [AList.lookup_insert_ne hne]
      exact hnone v (List.mem_cons_of_mem n hv)
    rw [h.lookup hnew hother u p', List.zip_cons_cons, List.mem_cons, Prod.mk.injEq]
    change _ ∨ (m.pieces.insert n p).lookup u = some p' ↔ _
    rw [Ledger.lookup_insert_ite]
    split_ifs with heq
    · -- the uuid was drawn just now, and nothing is listed under it
      rw [heq, hnone n List.mem_cons_self, Option.some_inj]
      constructor
      · rintro (hmem | rfl)
        · exact .inl (.inr hmem)
        · exact .inl (.inl ⟨rfl, rfl⟩)
      · rintro ((⟨-, rfl⟩ | hmem) | hno)
        · exact .inr rfl
        · exact .inl hmem
        · cases hno
    · simp only [heq, false_and, false_or]

/-- What there is for a piece at the end of the loop. -/
def Posted (s t : Copying) (r : Request) (x : (Option UUID × Piece) × UUID) : Prop :=
  ∃ i u, x.1.1 = some u ∧ .copyStorage i u x.2 ∈ t.log ∧ i ∈ r.units ∧
    s.requests.lookup i = none ∧
      ∃ c, t.requests.lookup i = some c ∧ c.copyUuid = x.2 ∧ c.updated = 0

/-- **Every piece was asked for.** -/
structure Asked (random : ℕ → UUID) (ps : List (Option UUID × Piece)) (s t : Copying)
    (r r' : Request) : Prop where
  names : ∃ us : List (UUID × Piece), ps = us.map fun x => (some x.1, x.2)
  pieces : ∀ x ∈ ps.zip (drawnFrom random s.drawn ps.length), Posted s t r' x
  kept : ∀ i c, s.requests.lookup i = some c → t.requests.lookup i = some c
  log_sub : s.log ⊆ t.log
  units : r.units ⊆ r'.units
  backup : r.backupUnits ⊆ r'.backupUnits
  master : ∀ m, r.masterJson = some m → ∃ m', r'.masterJson = some m' ∧
    Lists (drawnFrom random s.drawn ps.length) (ps.map Prod.snd) m m'

theorem asked_of_copyPieces
    (ht : Copying.copyPieces random rid s r ps = (t, r', true)) : Asked random ps s t r r' := by
  -- the pieces are taken one after the other, each under the next drawn name
  induction ps generalizing s r with
  | nil =>
    obtain ⟨rfl, rfl, -⟩ : _ ∧ _ ∧ _ := by simpa only [Copying.copyPieces, Prod.mk.injEq] using ht
    exact ⟨⟨[], rfl⟩, fun x hx => absurd hx List.not_mem_nil, fun _ _ hc => hc, List.Subset.refl _,
      Finset.Subset.refl _, Finset.Subset.refl _, fun m hm => ⟨m, hm, .nil m⟩⟩
  | cons x ps ih =>
    obtain ⟨old, p⟩ := x
    obtain ⟨u, s₁, r₁, rfl, hasked, ht⟩ | ⟨hb, -⟩ := copyPieces_cons_cases ht
    -- the first one was asked for, and so were the rest
    · have hrest := ih ht
      have hdrawn : s₁.drawn = s.drawn + 1 := hasked.drawn_eq
      have hfree : s.requests.lookup s.requestCounter = none := hasked.free
      have hlookup : s₁.requests.lookup s.requestCounter =
          some (pieceRequest rid r u (random s.drawn)) := by
        rw [hasked.requests_eq, AList.lookup_insert]
      have hothers : ∀ i, i ≠ s.requestCounter → s₁.requests.lookup i = s.requests.lookup i := by
        intro i hi
        rw [hasked.requests_eq]
        exact AList.lookup_insert_ne hi
      have hunits : (r₁.setPiece (random s.drawn) p).units = insert s.requestCounter r.units := by
        rw [hasked.request_eq]
        rfl
      have hmem : s.requestCounter ∈ r'.units :=
        hrest.units (hunits ▸ Finset.mem_insert_self _ _)
      have hlog : s₁.log = .copyStorage s.requestCounter u (random s.drawn) :: s.log :=
        hasked.log_eq
      obtain ⟨us, rfl⟩ := hrest.names
      refine ⟨⟨(u, p) :: us, rfl⟩, ?_, ?_, ?_, ?_, ?_, ?_⟩
      · intro x hx
        rw [List.length_cons, drawnFrom_succ, List.zip_cons_cons] at hx
        -- the first piece is under the id that was free; the others keep theirs
        obtain rfl | hx := List.mem_cons.mp hx
        · refine ⟨s.requestCounter, u, rfl, hrest.log_sub ?_, hmem, hfree, _,
            hrest.kept _ _ hlookup, rfl, rfl⟩
          rw [hlog]
          exact List.mem_cons_self
        · obtain ⟨i, v, hv, hposted, hi, hnone, c, hc⟩ := hrest.pieces x (hdrawn ▸ hx)
          refine ⟨i, v, hv, hposted, hi, ?_, c, hc⟩
          rw [← hothers i fun heq => ?_]
          · exact hnone
          · rw [heq, hlookup] at hnone
            cases hnone
      · intro i c hc
        refine hrest.kept i c ((hothers i fun heq => ?_).trans hc)
        rw [heq, hfree] at hc
        cases hc
      · refine List.Subset.trans ?_ hrest.log_sub
        rw [hlog]
        exact List.subset_cons_self _ _
      · exact fun i hi => hrest.units (hunits ▸ Finset.mem_insert_of_mem hi)
      · refine fun i hi => hrest.backup ?_
        rw [hasked.request_eq]
        exact Finset.mem_insert_of_mem hi
      -- the new master object lists the first name and then the others
      · intro m hm
        have hm₁ : (r₁.setPiece (random s.drawn) p).masterJson =
            some { m with pieces := m.pieces.insert (random s.drawn) p } := by
          rw [hasked.request_eq, Request.setPiece, hm]
          rfl
        obtain ⟨m', hm', hlists⟩ := hrest.master _ hm₁
        refine ⟨m', hm', ?_⟩
        rw [List.length_cons, drawnFrom_succ, List.map_cons, ← hdrawn]
        exact hlists.cons
    -- a piece whose name cannot be read ends the loop, and did not
    · cases hb

/-! ### The loop goes through, or it is broken off -/

theorem askable_congr (hcounter : t.requestCounter = s.requestCounter)
    (hfree : ∀ i, t.requests.lookup i = none ↔ s.requests.lookup i = none) :
    t.Askable ps ↔ s.Askable ps := by
  constructor
  · rintro ⟨hnames, hnodup, hall⟩
    rw [hcounter] at hnodup hall
    exact ⟨hnames, hnodup, fun i hi => (hfree i).mp (hall i hi)⟩
  · rintro ⟨hnames, hnodup, hall⟩
    rw [← hcounter] at hnodup hall
    exact ⟨hnames, hnodup, fun i hi => (hfree i).mpr (hall i hi)⟩

/-- The loop goes through when the pieces can be asked for. -/
theorem copyPieces_of_askable (h : s.Askable ps)
    (ht : Copying.copyPieces random rid s r ps = (t, r', b)) : b = true := by
  induction ps generalizing s r with
  | nil =>
    obtain ⟨-, -, rfl⟩ : _ ∧ _ ∧ _ := by simpa only [Copying.copyPieces, Prod.mk.injEq] using ht
    rfl
  | cons x ps ih =>
    obtain ⟨old, p⟩ := x
    obtain ⟨hnames, hnodup, hall⟩ := h
    rw [List.length_cons, numbers] at hnodup hall
    obtain ⟨hfirst, hnodup'⟩ := List.nodup_cons.mp hnodup
    obtain ⟨u, s₁, r₁, rfl, hasked, ht⟩ | ⟨-, hbroken, -⟩ := copyPieces_cons_cases ht
    · have hcounter : s₁.requestCounter = Deletion.nextCounter s.requestCounter := hasked.counter_eq
      refine ih ⟨fun x hx => hnames x (List.mem_cons_of_mem _ hx), ?_, fun i hi => ?_⟩ ht
      · rw [hcounter]
        exact hnodup'
      · rw [hcounter] at hi
        have hne : i ≠ s.requestCounter := fun heq => hfirst (heq ▸ hi)
        rw [hasked.requests_eq]
        exact (AList.lookup_insert_ne hne).trans (hall i (List.mem_cons_of_mem _ hi))
    · obtain rfl | htaken := hbroken
      · exact absurd rfl (hnames _ List.mem_cons_self)
      · exact absurd (hall _ List.mem_cons_self) htaken

/-- The loop ends at once when the first piece can not be asked for. -/
theorem copyPieces_of_not_askable (h : ¬ s.Askable (ps.take 1))
    (ht : Copying.copyPieces random rid s r ps = (t, r', b)) :
    b = false ∧ t.requests = s.requests := by
  cases ps with
  | nil =>
    refine absurd ⟨fun x hx => absurd hx List.not_mem_nil, List.nodup_nil, fun i hi => ?_⟩ h
    exact absurd hi List.not_mem_nil
  | cons x ps =>
    obtain ⟨old, p⟩ := x
    obtain ⟨u, s₁, r₁, rfl, hasked, -⟩ | ⟨hb, -, hthrown⟩ := copyPieces_cons_cases ht
    · refine absurd ⟨fun x hx => ?_, List.nodup_singleton _, fun i hi => ?_⟩ h
      · rw [List.take_succ_cons, List.take_zero, List.mem_singleton] at hx
        rw [hx]
        exact Option.some_ne_none u
      · obtain rfl := List.mem_singleton.mp hi
        exact hasked.free
    · exact ⟨hb, hthrown.requests_eq⟩

end Copying

end Metax
