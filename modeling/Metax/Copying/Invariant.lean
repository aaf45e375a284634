import Metax.Copying.Law

/-!
# What a copy waits for

While the request has not been answered, every piece was copied or is still counted in `units`, and
the new master object is on its way only when nothing is (`Opened`). Afterwards there is nothing
left to respond to (`Closed`). At any time `saved_units` has what was copied (`Core`), so that a
failure deletes it all.

The log has what was done, with one entry for each request that went out and each answer that came
in. `Frame` and `CoreFrame` say what a step may do that is none of this.
-/

namespace Metax

namespace Copying

variable {intact : Prop} {random : ℕ → UUID} {dataCopyCount : UInt16} {now : ℕ} {s t : Copying}
  {rid id ims : ID32} {r q : Request} {e : Entry} {l l' : List Entry} {m : MasterJson}
  {c : Content} {p : Post}

/-! ### The log -/

/-- An entry that says nothing new of the copy. -/
def Entry.Plain : Entry → Prop
  | .respond _ _ | .saveStorage _ _ _ | .saveRouter _ _ _ _ | .gotMaster _ | .pieceCopied _ _
  | .failed => False
  | _ => True

/-- What was saved stays saved. -/
theorem Saved.mono (h : Saved c l) (hl : l ⊆ l') : Saved c l' := by
  obtain ⟨id, u, hmem | ⟨n, hmem⟩⟩ := h
  · exact ⟨id, u, .inl (hl hmem)⟩
  · exact ⟨id, u, .inr ⟨n, hl hmem⟩⟩

/-- And what was a copy stays one. -/
theorem IsCopy.mono (h : IsCopy random l m) (hl : l ⊆ l') : IsCopy random l' m := by
  obtain ⟨old, k, n, hmem, hcopy⟩ := h
  exact ⟨old, k, n, hl hmem, hcopy⟩

/-- Only the messages that save something count. -/
theorem saved_cons (he : ∀ id u, e ≠ .saveStorage id u (some c))
    (he' : ∀ id u n, e ≠ .saveRouter id u (some c) n) : Saved c (e :: l) ↔ Saved c l := by
  refine ⟨fun h => ?_, fun h => h.mono (List.subset_cons_self e l)⟩
  obtain ⟨id, u, hmem | ⟨n, hmem⟩⟩ := h
  · exact ⟨id, u, .inl ((List.mem_cons.mp hmem).resolve_left fun heq => he id u heq.symm)⟩
  · exact ⟨id, u, .inr ⟨n, (List.mem_cons.mp hmem).resolve_left fun heq => he' id u n heq.symm⟩⟩

theorem Entry.Plain.saved_cons (he : e.Plain) : Saved c (e :: l) ↔ Saved c l := by
  refine Copying.saved_cons (fun id u heq => ?_) fun id u n heq => ?_
  · rw [heq] at he
    exact he
  · rw [heq] at he
    exact he

theorem Entry.Plain.answers_cons (he : e.Plain) : answers (e :: l) = answers l := by
  cases e with
  | respond => exact he.elim
  | _ => rfl

theorem Entry.Plain.ne_failed (he : e.Plain) : e ≠ .failed := by
  intro heq
  rw [heq] at he
  exact he

theorem Entry.Plain.pieceCopied_mem (he : e.Plain) {u : UUID} :
    .pieceCopied id u ∈ e :: l ↔ .pieceCopied id u ∈ l := by
  refine ⟨fun h => (List.mem_cons.mp h).resolve_left fun heq => ?_, List.mem_cons_of_mem e⟩
  rw [← heq] at he
  exact he

/-- What is demanded of the successes and failures in a log. -/
structure Sound (random : ℕ → UUID) (ims : ID32) (l : List Entry) : Prop where
  succeeded : ∀ i a b t, .respond i (.copySucceeded a b) :: t <:+ l → Complete random t
  told : ∀ t, .failed :: t <:+ l → answers t = [] → ∃ a err, .respond ims (.copyFailed a err) ∈ l
  undone : ∀ l' t, l = l' ++ .failed :: t → ∀ id u, .pieceCopied id u ∈ t →
    ∃ id', .deleteStorage id' u ∈ l'

/-- Anything but a failure, and a success only when everything was copied. -/
theorem Sound.cons (h : Sound random ims l)
    (he : ∀ i a b, e = .respond i (.copySucceeded a b) → Complete random l)
    (hfailed : e ≠ .failed) : Sound random ims (e :: l) where
  succeeded i a b t ht := by
    obtain heq | ht := List.suffix_cons_iff.mp ht
    · obtain ⟨hhead, rfl⟩ := List.cons.inj heq
      exact he i a b hhead.symm
    · exact h.succeeded i a b t ht
  told t ht hquiet := by
    obtain heq | ht := List.suffix_cons_iff.mp ht
    · exact absurd (List.cons.inj heq).1.symm hfailed
    · obtain ⟨a, err, hmem⟩ := h.told t ht hquiet
      exact ⟨a, err, List.mem_cons_of_mem e hmem⟩
  undone l' t heq i u hu := by
    cases l' with
    | nil => exact absurd (List.cons.inj heq).1 hfailed
    | cons e' l'' =>
      obtain ⟨rfl, htail⟩ := List.cons.inj heq
      obtain ⟨id', hid'⟩ := h.undone l'' t htail i u hu
      exact ⟨id', List.mem_cons_of_mem e hid'⟩

/-- A plain entry has no part in what the invariant says of the log. -/
theorem Entry.Plain.sound (he : e.Plain) (h : Sound random ims l) : Sound random ims (e :: l) := by
  refine h.cons (fun i a b heq => ?_) he.ne_failed
  rw [heq] at he
  exact he.elim

/-! ### The invariant -/

/-- The request of the IMS. -/
structure Request.IsMain (q : Request) : Prop where
  typ : q.typ = .ims
  cmd : q.cmd = .copy
  st : q.st ≠ .requested

/-- A request for a piece. -/
structure Request.IsPart (rid : ID32) (r : Request) : Prop where
  typ : r.typ = .kernel
  parent : r.parentReqId = some rid

/-- What the new master object waits for. -/
def Post.IsMain : Post → Prop
  | .encrypt _ | .saveStorage | .saveRouter => True
  | _ => False

/-- What a piece waits for. -/
def Post.IsPart : Post → Prop
  | .copyStorage | .copyRouter | .deleteStorage | .deleteRouter => True
  | _ => False

/-- What is true at any time but while the master object is read. -/
structure Core (random : ℕ → UUID) (rid ims : ID32) (s : Copying) : Prop where
  main : ∀ q, s.requests.lookup rid = some q → q.IsMain
  parts : ∀ id r, id ≠ rid → s.requests.lookup id = some r → r.IsPart rid
  mainPost : ∀ p, s.posted.lookup rid = some p → p.IsMain
  partPost : ∀ id p, id ≠ rid → s.posted.lookup id = some p → p.IsPart
  copied : ∀ q, s.requests.lookup rid = some q →
    ∀ id u, .pieceCopied id u ∈ s.log → u ∈ q.savedUnits
  counted : ∀ q, s.requests.lookup rid = some q → ∀ id r, id ≠ rid →
    s.requests.lookup id = some r → r.cmd = .copy → r.updated ≠ 0 → r.copyUuid ∈ q.savedUnits
  sound : Sound random ims s.log

/-- A piece is being copied, or still may be. -/
def HasPiece (s : Copying) (rid : ID32) : Prop :=
  ∃ i r, i ≠ rid ∧ s.requests.lookup i = some r ∧ r.cmd = .copy

/-- What is true at any time once the pieces are asked for. The new master object lists every piece
if the asking was not broken off (`intact`). -/
structure Base (intact : Prop) (random : ℕ → UUID) (rid ims : ID32) (s : Copying) : Prop
    extends Core random rid ims s where
  master : intact → s.HasPiece rid → ∀ q, s.requests.lookup rid = some q → ∀ m ∈ q.masterJson,
    IsCopy random s.log m
  data : intact → ∀ q, s.requests.lookup rid = some q → ∀ c ∈ q.data, IsCopy random s.log c.master
  encrypting : intact → ∀ c, s.posted.lookup rid = some (.encrypt c) → IsCopy random s.log c.master
  saved : intact → ∀ c, Saved c s.log → IsCopy random s.log c.master

/-- The piece `x` was asked for under its new uuid, and was copied, or is still counted. -/
def Owed (s : Copying) (units : Finset ID32) (rid : ID32) (x : (Option UUID × Piece) × UUID) :
    Prop :=
  ∃ id u, x.1.1 = some u ∧ .copyStorage id u x.2 ∈ s.log ∧
    (.pieceCopied id x.2 ∈ s.log ∨ id ≠ rid ∧ id ∈ units ∧
      ∃ r, s.requests.lookup id = some r ∧ r.copyUuid = x.2 ∧ r.updated = 0)

/-- The pieces are copied, or the new master object is saved. -/
structure Copies (random : ℕ → UUID) (rid : ID32) (s : Copying) (q : Request) (m : MasterJson) :
    Prop where
  request : s.requests.lookup rid = some q
  updated : q.updated = 0
  backup : rid ∈ q.backupUnits
  master : q.masterJson = some m
  pieces : ∃ old k n, .gotMaster old ∈ s.log ∧ IsCopyOf old (drawnFrom random k n) m ∧
    ∀ ps, old.pieces = some ps → ∀ x ∈ ps.zip (drawnFrom random k n), Owed s q.units rid x
  units : s.posted.lookup rid ≠ none → q.units = ∅
  encrypting : ∀ c, s.posted.lookup rid = some (.encrypt c) → c.master = m
  saving : s.posted.lookup rid = some .saveStorage ∨ s.posted.lookup rid = some .saveRouter →
    ∃ c, q.data = some c ∧ c.master = m ∧ Saved c s.log

/-- The request has not been answered. -/
structure Opened (random : ℕ → UUID) (rid ims : ID32) (s : Copying) : Prop where
  ims_eq : s.imsReqIds.lookup rid = some ims
  quiet : answers s.log = []
  copies : ∀ id r, id ≠ rid → s.requests.lookup id = some r → r.cmd = .copy
  under : ∃ q m, Copies random rid s q m

/-- The request has been answered. -/
structure Closed (rid ims : ID32) (s : Copying) : Prop where
  ims_eq : s.imsReqIds.lookup rid = none
  once : (∃ a b, answers s.log = [.respond ims (.copySucceeded a b)]) ∨
    ∃ a err, answers s.log = [.respond ims (.copyFailed a err)]

/-- **The invariant**, once the pieces are asked for. -/
structure Under (intact : Prop) (random : ℕ → UUID) (rid ims : ID32) (s : Copying) : Prop
    extends Base intact random rid ims s where
  phase : Opened random rid ims s ∨ Closed rid ims s

/-! ### What changes nothing -/

/-- A request is written back, and what was copied or is to be saved is as before. -/
structure Request.Akin (r' r : Request) : Prop where
  typ : r'.typ = r.typ
  cmd : r'.cmd = r.cmd
  st : r.st ≠ .requested → r'.st ≠ .requested
  parent : r'.parentReqId = r.parentReqId
  copyUuid_eq : r'.copyUuid = r.copyUuid
  counted : r.typ = .kernel → r.cmd = .copy → r'.updated = r.updated
  master : r'.masterJson = r.masterJson
  data_eq : r'.data = r.data
  saved : r'.savedUnits = r.savedUnits

/-- A request is written back with nothing changed that matters here. -/
structure Request.Same (rid : ID32) (r' r : Request) : Prop extends Request.Akin r' r where
  updated_eq : r'.updated = r.updated
  units_eq : r'.units = r.units
  backup : rid ∈ r.backupUnits → rid ∈ r'.backupUnits

/-- Requests that are written back, and frames, can be put in sequence. -/
theorem Request.Akin.refl (r : Request) : r.Akin r :=
  ⟨rfl, rfl, id, rfl, rfl, fun _ _ => rfl, rfl, rfl, rfl⟩

theorem Request.Same.refl (rid : ID32) (r : Request) : r.Same rid r := ⟨.refl r, rfl, rfl, id⟩

/-- Nothing is said in the log and nothing is new but posts for pieces. -/
structure CoreFrame (rid : ID32) (s t : Copying) : Prop where
  log : ∃ l, t.log = l ++ s.log ∧ ∀ e ∈ l, e.Plain
  old : ∀ id r', t.requests.lookup id = some r' → ∃ r, s.requests.lookup id = some r ∧ r'.Akin r
  mainPost : ∀ p, t.posted.lookup rid = some p → s.posted.lookup rid = some p
  partPost : ∀ id p, id ≠ rid → t.posted.lookup id = some p →
    s.posted.lookup id = some p ∨ p.IsPart

/-- While the request is not answered, it has to stay, and so has what was not copied yet. -/
def Needed (s : Copying) (rid id : ID32) (r : Request) : Prop :=
  id = rid ∨ r.updated = 0 ∧ .pieceCopied id r.copyUuid ∉ s.log

/-- Besides, what is needed stays while the request is not answered. -/
structure Frame (rid : ID32) (s t : Copying) : Prop extends CoreFrame rid s t where
  ims_eq : t.imsReqIds.lookup rid = s.imsReqIds.lookup rid
  kept : s.imsReqIds.lookup rid ≠ none → ∀ id r, s.requests.lookup id = some r →
    s.Needed rid id r → ∃ r', t.requests.lookup id = some r' ∧ r'.Same rid r

/-- What plain entries leave as it is. -/
structure Quiet (l l' : List Entry) : Prop where
  sub : l ⊆ l'
  answers_eq : answers l' = answers l
  failed : .failed ∈ l' → .failed ∈ l
  pieceCopied : ∀ id u, .pieceCopied id u ∈ l' → .pieceCopied id u ∈ l
  saved : ∀ c, Saved c l' → Saved c l
  sound : ∀ random ims, Sound random ims l → Sound random ims l'

theorem quiet_append (h : ∀ e ∈ l', e.Plain) : Quiet l (l' ++ l) := by
  induction l' with
  | nil => exact ⟨List.Subset.refl l, rfl, id, fun _ _ => id, fun _ => id, fun _ _ => id⟩
  | cons e l' ih =>
    have he : e.Plain := h e List.mem_cons_self
    have hrest := ih fun e' he' => h e' (List.mem_cons_of_mem e he')
    rw [List.cons_append]
    constructor
    · exact List.Subset.trans hrest.sub (List.subset_cons_self e _)
    · rw [he.answers_cons, hrest.answers_eq]
    · exact fun hmem => hrest.failed ((List.mem_cons.mp hmem).resolve_left he.ne_failed.symm)
    · exact fun i u hmem => hrest.pieceCopied i u (he.pieceCopied_mem.mp hmem)
    · exact fun c hsaved => hrest.saved c (he.saved_cons.mp hsaved)
    · exact fun random ims hsound => he.sound (hrest.sound random ims hsound)

theorem CoreFrame.quiet (h : CoreFrame rid s t) : Quiet s.log t.log := by
  obtain ⟨l, hl, hplain⟩ := h.log
  rw [hl]
  exact quiet_append hplain

/-- **A frame keeps the invariant**, part by part. -/
theorem Core.frame (h : Core random rid ims s) (hf : CoreFrame rid s t) :
    Core random rid ims t := by
  have hquiet : Quiet s.log t.log := hf.quiet
  constructor
  · intro q hq
    obtain ⟨q', hq', hakin⟩ := hf.old rid q hq
    have hmain := h.main q' hq'
    exact ⟨hakin.typ.trans hmain.typ, hakin.cmd.trans hmain.cmd, hakin.st hmain.st⟩
  · intro i r hi hr
    obtain ⟨r', hr', hakin⟩ := hf.old i r hr
    have hpart := h.parts i r' hi hr'
    exact ⟨hakin.typ.trans hpart.typ, hakin.parent.trans hpart.parent⟩
  · exact fun p hp => h.mainPost p (hf.mainPost p hp)
  · intro i p hi hp
    obtain hold | hpart := hf.partPost i p hi hp
    · exact h.partPost i p hi hold
    · exact hpart
  · intro q hq i u hu
    obtain ⟨q', hq', hakin⟩ := hf.old rid q hq
    rw [hakin.saved]
    exact h.copied q' hq' i u (hquiet.pieceCopied i u hu)
  · intro q hq i r hi hr hcmd hupdated
    obtain ⟨q', hq', hakin⟩ := hf.old rid q hq
    obtain ⟨r', hr', hakin'⟩ := hf.old i r hr
    rw [hakin.saved, hakin'.copyUuid_eq]
    have hcmd' := hakin'.cmd.symm.trans hcmd
    refine h.counted q' hq' i r' hi hr' hcmd' fun hzero => hupdated ?_
    exact (hakin'.counted (h.parts i r' hi hr').typ hcmd').trans hzero
  · exact hquiet.sound random ims h.sound

theorem HasPiece.congr (h : t.HasPiece rid)
    (hothers : ∀ i, i ≠ rid → t.requests.lookup i = s.requests.lookup i) : s.HasPiece rid := by
  obtain ⟨i, r, hi, hr, hcmd⟩ := h
  exact ⟨i, r, hi, hothers i hi ▸ hr, hcmd⟩

/-- No piece comes up in a frame. -/
theorem HasPiece.frame (h : t.HasPiece rid) (hf : CoreFrame rid s t) : s.HasPiece rid := by
  obtain ⟨i, r', hi, hr', hcmd⟩ := h
  obtain ⟨r, hr, hakin⟩ := hf.old i r' hr'
  exact ⟨i, r, hi, hr, hakin.cmd.symm.trans hcmd⟩

theorem Base.frame (h : Base intact random rid ims s) (hf : CoreFrame rid s t) :
    Base intact random rid ims t := by
  have hquiet : Quiet s.log t.log := hf.quiet
  refine ⟨h.toCore.frame hf, ?_, ?_, ?_, ?_⟩
  · intro hintact hpiece q hq m hm
    obtain ⟨q', hq', hakin⟩ := hf.old rid q hq
    rw [hakin.master] at hm
    exact (h.master hintact (hpiece.frame hf) q' hq' m hm).mono hquiet.sub
  · intro hintact q hq c hc
    obtain ⟨q', hq', hakin⟩ := hf.old rid q hq
    rw [hakin.data_eq] at hc
    exact (h.data hintact q' hq' c hc).mono hquiet.sub
  · exact fun hintact c hc => (h.encrypting hintact c (hf.mainPost _ hc)).mono hquiet.sub
  · exact fun hintact c hc => (h.saved hintact c (hquiet.saved c hc)).mono hquiet.sub

/-- The copy goes on with the request it had. -/
theorem Copies.frame (h : Copies random rid s q m) (hf : Frame rid s t)
    (hims : s.imsReqIds.lookup rid ≠ none) : ∃ q', Copies random rid t q' m := by
  have hsub : s.log ⊆ t.log := hf.quiet.sub
  obtain ⟨q', hq', hsame⟩ := hf.kept hims rid q h.request (.inl rfl)
  have hsome : ∀ p, t.posted.lookup rid = some p → s.posted.lookup rid ≠ none := by
    intro p hp hnone
    rw [hf.mainPost p hp] at hnone
    cases hnone
  refine ⟨q', hq', hsame.updated_eq.trans h.updated, ?_, hsame.master.trans h.master, ?_, ?_, ?_,
    ?_⟩
  · exact hsame.backup h.backup
  · obtain ⟨old, k, n, hgot, hcopy, howed⟩ := h.pieces
    refine ⟨old, k, n, hsub hgot, hcopy, fun ps hps x hx => ?_⟩
    obtain ⟨i, u, hu, hasked, hdone⟩ := howed ps hps x hx
    refine ⟨i, u, hu, hsub hasked, ?_⟩
    by_cases hcopied : .pieceCopied i x.2 ∈ s.log
    · exact .inl (hsub hcopied)
    · obtain ⟨hi, hmem, r, hr, hnew, hzero⟩ := hdone.resolve_left hcopied
      obtain ⟨r', hr', hsame'⟩ := hf.kept hims i r hr (.inr ⟨hzero, hnew ▸ hcopied⟩)
      rw [hsame.units_eq]
      exact .inr ⟨hi, hmem, r', hr', hsame'.copyUuid_eq.trans hnew, hsame'.updated_eq.trans hzero⟩
  · intro hposted
    obtain ⟨p, hp⟩ := Option.ne_none_iff_exists'.mp hposted
    rw [hsame.units_eq]
    exact h.units (hsome p hp)
  · exact fun c hc => h.encrypting c (hf.mainPost _ hc)
  · intro hsaving
    rw [hsame.data_eq]
    obtain ⟨c, hc, hm, hsaved⟩ := h.saving (hsaving.imp (hf.mainPost _) (hf.mainPost _))
    exact ⟨c, hc, hm, hsaved.mono hsub⟩

/-- **Nothing that matters has changed.** -/
theorem Under.frame (h : Under intact random rid ims s) (hf : Frame rid s t) :
    Under intact random rid ims t := by
  have hquiet : Quiet s.log t.log := hf.quiet
  refine ⟨h.toBase.frame hf.toCoreFrame, ?_⟩
  obtain hopen | hclosed := h.phase
  · have hims : s.imsReqIds.lookup rid ≠ none := by
      rw [hopen.ims_eq]
      exact Option.some_ne_none ims
    obtain ⟨q, m, hcopies⟩ := hopen.under
    obtain ⟨q', hcopies'⟩ := hcopies.frame hf hims
    refine .inl ⟨hf.ims_eq.trans hopen.ims_eq, hquiet.answers_eq.trans hopen.quiet,
      fun i r hi hr => ?_, q', m, hcopies'⟩
    obtain ⟨r', hr', hakin⟩ := hf.old i r hr
    exact hakin.cmd.trans (hopen.copies i r' hi hr')
  · refine .inr ⟨hf.ims_eq.trans hclosed.ims_eq, ?_⟩
    rw [hquiet.answers_eq]
    exact hclosed.once

theorem Request.Akin.trans {r r' r'' : Request} (h : r''.Akin r') (h' : r'.Akin r) :
    r''.Akin r where
  typ := h.typ.trans h'.typ
  cmd := h.cmd.trans h'.cmd
  st hst := h.st (h'.st hst)
  parent := h.parent.trans h'.parent
  copyUuid_eq := h.copyUuid_eq.trans h'.copyUuid_eq
  counted htyp hcmd :=
    (h.counted (h'.typ.trans htyp) (h'.cmd.trans hcmd)).trans (h'.counted htyp hcmd)
  master := h.master.trans h'.master
  data_eq := h.data_eq.trans h'.data_eq
  saved := h.saved.trans h'.saved

theorem Request.Same.trans {r r' r'' : Request} (h : r''.Same rid r') (h' : r'.Same rid r) :
    r''.Same rid r where
  toAkin := h.toAkin.trans h'.toAkin
  updated_eq := h.updated_eq.trans h'.updated_eq
  units_eq := h.units_eq.trans h'.units_eq
  backup hmem := h.backup (h'.backup hmem)

/-- To do nothing is a frame. -/
theorem CoreFrame.refl (rid : ID32) (s : Copying) : CoreFrame rid s s :=
  ⟨⟨[], rfl, fun _ he => absurd he List.not_mem_nil⟩, fun _ r hr => ⟨r, hr, .refl r⟩,
    fun _ hp => hp, fun _ _ _ hp => .inl hp⟩

theorem Frame.refl (rid : ID32) (s : Copying) : Frame rid s s :=
  ⟨.refl rid s, rfl, fun _ _ r hr _ => ⟨r, hr, .refl rid r⟩⟩

theorem CoreFrame.trans {u : Copying} (h : CoreFrame rid s t) (h' : CoreFrame rid t u) :
    CoreFrame rid s u where
  log := by
    obtain ⟨l, hl, hplain⟩ := h.log
    obtain ⟨l', hl', hplain'⟩ := h'.log
    refine ⟨l' ++ l, by rw [hl', hl, List.append_assoc], fun e he => ?_⟩
    exact (List.mem_append.mp he).elim (hplain' e) (hplain e)
  old i r'' hr'' := by
    obtain ⟨r', hr', hakin'⟩ := h'.old i r'' hr''
    obtain ⟨r, hr, hakin⟩ := h.old i r' hr'
    exact ⟨r, hr, hakin'.trans hakin⟩
  mainPost p hp := h.mainPost p (h'.mainPost p hp)
  partPost i p hi hp := (h'.partPost i p hi hp).elim (h.partPost i p hi) .inr

theorem Frame.trans {u : Copying} (h : Frame rid s t) (h' : Frame rid t u) : Frame rid s u where
  toCoreFrame := h.toCoreFrame.trans h'.toCoreFrame
  ims_eq := h'.ims_eq.trans h.ims_eq
  kept hims i r hr hneeded := by
    obtain ⟨r', hr', hsame⟩ := h.kept hims i r hr hneeded
    have hneeded' : t.Needed rid i r' := by
      refine hneeded.imp_right fun hzero =>
        ⟨hsame.updated_eq.trans hzero.1, fun hcopied => hzero.2 ?_⟩
      rw [hsame.copyUuid_eq] at hcopied
      exact h.quiet.pieceCopied i _ hcopied
    obtain ⟨r'', hr'', hsame'⟩ := h'.kept (by rwa [h.ims_eq]) i r' hr' hneeded'
    exact ⟨r'', hr'', hsame'.trans hsame⟩

/-- Plain entries and answers are frames. -/
theorem frame_write (he : e.Plain) : Frame rid s (s.write e) :=
  { Frame.refl rid s with log := ⟨[e], rfl, fun _ he' => List.mem_singleton.mp he' ▸ he⟩ }

/-- A piece waits for something. -/
theorem frame_post (hid : id ≠ rid) (hp : p.IsPart) (he : e.Plain) :
    Frame rid s (s.post id p e) := by
  refine { frame_write (s := s) he with
    mainPost := fun p' hp' => ?_
    partPost := fun i p' hi hp' => ?_ }
  · rwa [post, AList.lookup_insert_ne hid.symm] at hp'
  · obtain ⟨-, rfl⟩ | ⟨-, hp'⟩ := Ledger.eq_or_of_lookup_insert hp'
    · exact .inr hp
    · exact .inl hp'

theorem frame_answered (i : ID32) : Frame rid s (s.answered i) := by
  have hposts : ∀ j p, (s.answered i).posted.lookup j = some p → s.posted.lookup j = some p := by
    intro j p hp
    obtain ⟨-, hp⟩ := Ledger.of_lookup_erase hp
    exact hp
  exact { Frame.refl rid s with
    mainPost := hposts rid
    partPost := fun j p _ hp => .inl (hposts j p hp) }

/-- A request is written back that is akin to what it was. -/
theorem coreFrame_setRequest {r' : Request} (hr : s.requests.lookup id = some r)
    (hakin : r'.Akin r) : CoreFrame rid s (s.setRequest id r') := by
  exact { CoreFrame.refl rid s with
    old := Ledger.exists_of_lookup_insert .refl hr hakin }

/-- Once the request was answered, only what is in its fields of `Akin` matters. -/
theorem frame_setRequest {r' : Request} (hr : s.requests.lookup id = some r) (hakin : r'.Akin r)
    (hsame : s.imsReqIds.lookup rid ≠ none → r'.Same rid r) : Frame rid s (s.setRequest id r') := by
  refine ⟨coreFrame_setRequest hr hakin, rfl, fun hims i x hx _ => ?_⟩
  exact Ledger.exists_lookup_insert_rel (R := fun r r' => r'.Same rid r) (.refl rid) hr
    (hsame hims) hx

/-- A request goes that is not needed any more. -/
theorem frame_eraseRequest (h : s.imsReqIds.lookup rid ≠ none →
    ∀ r, s.requests.lookup id = some r → ¬ s.Needed rid id r) :
    Frame rid s (s.eraseRequest id) := by
  refine { Frame.refl rid s with old := fun i x hx => ?_, kept := fun hims i x hx hneeded => ?_ }
  · obtain ⟨-, hx⟩ := Ledger.of_lookup_erase hx
    exact ⟨x, hx, .refl x⟩
  · rw [eraseRequest, Ledger.lookup_erase_ite]
    split_ifs with hi
    · rw [hi] at hx hneeded
      exact absurd hneeded (h hims x hx)
    · exact ⟨x, hx, .refl rid x⟩

/-- The counter moves. -/
theorem frame_counter (n : ID32) : Frame rid s { s with requestCounter := n } :=
  { Frame.refl rid s with }

end Copying

end Metax
