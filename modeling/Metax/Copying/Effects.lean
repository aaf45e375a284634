import Metax.Copying.Invariant

/-!
# What keeps the invariant

A piece that was copied is in `saved_units` from then on, the new master object is encrypted and
sent when nothing is left in `units`, and a failure deletes what is in `saved_units`.

The first copy of a piece may be the one that completes the request: then the new master object is
handed to the key manager or saved at once. A failure is reported after the pieces in `saved_units`
were asked to be deleted (`Base.failed`), a success when a copy of the master object is confirmed
(`Base.succeeded`).
-/

namespace Metax

namespace Copying

variable {intact : Prop} {random : ℕ → UUID} {dataCopyCount : UInt16} {now : ℕ} {s t : Copying}
  {rid id ims : ID32} {r q : Request} {e : Entry} {l l' : List Entry} {m : MasterJson}
  {c : Content} {p : Post}

/-! ### A piece was copied -/

theorem mem_insertUnit {u v : UUID} {us : List UUID} : v ∈ insertUnit u us ↔ v = u ∨ v ∈ us := by
  rw [insertUnit]
  split_ifs with hany
  · refine ⟨.inr, fun h => h.elim (fun heq => ?_) id⟩
    obtain ⟨w, hw, hwu⟩ := List.any_eq_true.mp hany
    rw [heq, ← of_decide_eq_true hwu]
    exact hw
  · rw [List.mem_append, List.mem_singleton]
    exact or_comm

theorem sound_pieceCopied {u : UUID} (h : Sound random ims l) :
    Sound random ims (.pieceCopied id u :: l) :=
  h.cons (fun _ _ _ heq => Entry.noConfusion heq) fun heq => Entry.noConfusion heq

theorem saved_pieceCopied {u : UUID} : Saved c (.pieceCopied id u :: l) ↔ Saved c l :=
  saved_cons (fun _ _ heq => Entry.noConfusion heq) fun _ _ _ heq => Entry.noConfusion heq

/-- The request counts that a piece was copied. -/
structure Request.Counts (q' q : Request) (id : ID32) (u : UUID) : Prop where
  typ : q'.typ = q.typ
  cmd : q'.cmd = q.cmd
  st : q'.st = q.st
  updated_eq : q'.updated = q.updated
  master : q'.masterJson = q.masterJson
  data_eq : q'.data = q.data
  backup : q'.backupUnits = q.backupUnits
  units_eq : ∀ i, i ≠ id → i ∈ q.units → i ∈ q'.units
  empty : q.units = ∅ → q'.units = ∅
  saved : ∀ v, v = u ∨ v ∈ q.savedUnits → v ∈ q'.savedUnits

/-- **A piece was copied.** -/
theorem Under.pieceCopied (h : Under intact random rid ims s) (hid : id ≠ rid)
    (hr : s.requests.lookup id = some r) (hq : s.requests.lookup rid = some q) {r' q' : Request}
    (hpart : r'.typ = r.typ ∧ r'.parentReqId = r.parentReqId ∧ r'.cmd = r.cmd ∧
      r'.copyUuid = r.copyUuid) (hcounts : q'.Counts q id r.copyUuid)
    (hlog : t.log = .pieceCopied id r.copyUuid :: s.log) (hims : t.imsReqIds = s.imsReqIds)
    (hposted : t.posted = s.posted) (hmain' : t.requests.lookup rid = some q')
    (hpart' : t.requests.lookup id = some r')
    (hothers : ∀ i, i ≠ rid → i ≠ id → t.requests.lookup i = s.requests.lookup i) :
    Under intact random rid ims t := by
  have hsub : s.log ⊆ t.log := by
    rw [hlog]
    exact List.subset_cons_self _ _
  have hfailed : .failed ∈ t.log → .failed ∈ s.log := by
    rw [hlog]
    exact fun hmem => (List.mem_cons.mp hmem).resolve_left fun heq => Entry.noConfusion heq
  have hmain : ∀ x, t.requests.lookup rid = some x → x = q' := fun x hx =>
    Option.some.inj (hx.symm.trans hmain')
  obtain ⟨htyp, hparent, hcmd, hcopyUuid⟩ := hpart
  -- a request is the part that was copied, another part, or the request itself
  have hcases : ∀ i x, i ≠ rid → t.requests.lookup i = some x →
      i = id ∧ x = r' ∨ i ≠ id ∧ s.requests.lookup i = some x := by
    intro i x hi hx
    by_cases heq : i = id
    · rw [heq] at hx
      exact .inl ⟨heq, Option.some.inj (hx.symm.trans hpart')⟩
    · exact .inr ⟨heq, hothers i hi heq ▸ hx⟩
  refine ⟨⟨?_, ?_, ?_, ?_, ?_⟩, ?_⟩
  -- `Core`: the copy is counted in `saved_units`
  · constructor
    · intro x hx
      rw [hmain x hx]
      have hold := h.main q hq
      exact ⟨hcounts.typ.trans hold.typ, hcounts.cmd.trans hold.cmd,
        fun hst => hold.st (hcounts.st.symm.trans hst)⟩
    · intro i x hi hx
      obtain ⟨-, rfl⟩ | ⟨-, hold⟩ := hcases i x hi hx
      · have hold := h.parts id r hid hr
        exact ⟨htyp.trans hold.typ, hparent.trans hold.parent⟩
      · exact h.parts i x hi hold
    · rw [hposted]
      exact h.mainPost
    · rw [hposted]
      exact h.partPost
    · intro x hx i u hu
      rw [hlog] at hu
      rw [hmain x hx]
      refine hcounts.saved u ((List.mem_cons.mp hu).imp (fun heq => ?_) (h.copied q hq i u))
      exact (Entry.pieceCopied.inj heq).2
    · intro x hx i y hi hy hcopy hupdated
      rw [hmain x hx]
      obtain ⟨-, rfl⟩ | ⟨-, hold⟩ := hcases i y hi hy
      · exact hcounts.saved _ (.inl hcopyUuid)
      · exact hcounts.saved _ (.inr (h.counted q hq i y hi hold hcopy hupdated))
    · rw [hlog]
      exact sound_pieceCopied h.sound
  · intro hintact hpiece x hx m hm
    rw [hmain x hx, hcounts.master] at hm
    refine (h.master hintact ?_ q hq m hm).mono hsub
    obtain ⟨i, x, hi, hx, hcopy⟩ := hpiece
    obtain ⟨-, rfl⟩ | ⟨-, hold⟩ := hcases i x hi hx
    · exact ⟨id, r, hid, hr, hcmd.symm.trans hcopy⟩
    · exact ⟨i, x, hi, hold, hcopy⟩
  · intro hintact x hx c hc
    rw [hmain x hx, hcounts.data_eq] at hc
    exact (h.data hintact q hq c hc).mono hsub
  · rw [hposted]
    exact fun hintact c hc => (h.encrypting hintact c hc).mono hsub
  · intro hintact c hc
    rw [hlog, saved_pieceCopied] at hc
    exact (h.saved hintact c hc).mono hsub
  · have hanswers : answers t.log = answers s.log := by
      rw [hlog]
      rfl
    -- open as before, with one unit less; or closed as before
    obtain hopen | hclosed := h.phase
    · obtain ⟨q₀, m, hcopies⟩ := hopen.under
      obtain rfl : q₀ = q := Option.some.inj (hcopies.request.symm.trans hq)
      refine .inl ⟨by rw [hims, hopen.ims_eq], hanswers.trans hopen.quiet,
        fun i x hi hx => ?_, q', m, ?_⟩
      · obtain ⟨-, rfl⟩ | ⟨-, hold⟩ := hcases i x hi hx
        · exact hcmd.trans (hopen.copies id r hid hr)
        · exact hopen.copies i x hi hold
      · refine ⟨hmain', hcounts.updated_eq.trans hcopies.updated, ?_, ?_, ?_, ?_, ?_, ?_⟩
        · rw [hcounts.backup]
          exact hcopies.backup
        · exact hcounts.master.trans hcopies.master
        · obtain ⟨old, k, n, hgot, hcopy, howed⟩ := hcopies.pieces
          refine ⟨old, k, n, hsub hgot, hcopy, fun ps hps x hx => ?_⟩
          obtain ⟨i, u, hu, hasked, hdone⟩ := howed ps hps x hx
          refine ⟨i, u, hu, hsub hasked, ?_⟩
          obtain hdone | ⟨hi, hmem, y, hy, hnew, hzero⟩ := hdone
          · exact .inl (hsub hdone)
          · by_cases heq : i = id
            · -- the one that was copied just now
              rw [heq, hr] at hy
              rw [heq, ← hnew, ← Option.some.inj hy, hlog]
              exact .inl List.mem_cons_self
            · have hunits : i ∈ q'.units := hcounts.units_eq i heq hmem
              exact .inr ⟨hi, hunits, y, (hothers i hi heq).trans hy, hnew, hzero⟩
        · rw [hposted]
          exact fun hne => hcounts.empty (hcopies.units hne)
        · rw [hposted]
          exact hcopies.encrypting
        · rw [hposted, hcounts.data_eq]
          intro hsaving
          obtain ⟨c, hc, hm, hsaved⟩ := hcopies.saving hsaving
          exact ⟨c, hc, hm, hsaved.mono hsub⟩
    · refine .inr ⟨by rw [hims, hclosed.ims_eq], ?_⟩
      rw [hanswers]
      exact hclosed.once

/-! ### The new master object is sent -/

/-- A message that saves something. -/
def Entry.Saves (e : Entry) (d : Option Content) : Prop :=
  ∃ id u, e = .saveStorage id u d ∨ ∃ n, e = .saveRouter id u d n

/-- A post for the new master object. -/
def Post.IsSave (p : Post) : Prop := p = .saveStorage ∨ p = .saveRouter

/-- What is known of a message that saves. -/
structure Entry.SavesOnly (e : Entry) (d : Option Content) : Prop where
  ne_respond : ∀ i a, e ≠ .respond i a
  ne_failed : e ≠ .failed
  ne_pieceCopied : ∀ i u, e ≠ .pieceCopied i u
  saved : ∀ c l, Saved c (e :: l) ↔ d = some c ∨ Saved c l

theorem Entry.Saves.only {d : Option Content} (h : e.Saves d) : e.SavesOnly d := by
  obtain ⟨id, u, rfl | ⟨n, rfl⟩⟩ := h
  · refine ⟨fun _ _ heq => Entry.noConfusion heq, fun heq => Entry.noConfusion heq,
      fun _ _ heq => Entry.noConfusion heq, fun c l => ⟨?_, ?_⟩⟩
    · rintro ⟨i, v, hmem | ⟨n, hmem⟩⟩
      · refine (List.mem_cons.mp hmem).imp (fun heq => ?_) fun hmem => ⟨i, v, .inl hmem⟩
        exact (Entry.saveStorage.inj heq).2.2.symm
      · exact .inr ⟨i, v, .inr ⟨n, (List.mem_cons.mp hmem).resolve_left
          fun heq => Entry.noConfusion heq⟩⟩
    · rintro (rfl | hsaved)
      · exact ⟨id, u, .inl List.mem_cons_self⟩
      · exact hsaved.mono (List.subset_cons_self _ l)
  · refine ⟨fun _ _ heq => Entry.noConfusion heq, fun heq => Entry.noConfusion heq,
      fun _ _ heq => Entry.noConfusion heq, fun c l => ⟨?_, ?_⟩⟩
    · rintro ⟨i, v, hmem | ⟨n', hmem⟩⟩
      · exact .inr ⟨i, v, .inl ((List.mem_cons.mp hmem).resolve_left
          fun heq => Entry.noConfusion heq)⟩
      · refine (List.mem_cons.mp hmem).imp (fun heq => ?_) fun hmem => ⟨i, v, .inr ⟨n', hmem⟩⟩
        exact (Entry.saveRouter.inj heq).2.2.1.symm
    · rintro (rfl | hsaved)
      · exact ⟨id, u, .inr ⟨n, List.mem_cons_self⟩⟩
      · exact hsaved.mono (List.subset_cons_self _ l)

/-- **The new master object is sent** to be saved. -/
theorem Under.postSave {d : Option Content} {q' : Request} (h : Under intact random rid ims s)
    (hq : s.requests.lookup rid = some q) (hq' : { q' with data := q.data }.Same rid q)
    (hdata : q'.data = d) (he : e.Saves d) (hp : p.IsSave)
    (hcopy : intact → ∀ c ∈ d, IsCopy random s.log c.master)
    (hready : s.imsReqIds.lookup rid ≠ none →
      q.units = ∅ ∧ ∃ c, d = some c ∧ q.masterJson = some c.master)
    (hlog : t.log = e :: s.log) (hims : t.imsReqIds = s.imsReqIds)
    (hposted : t.posted = s.posted.insert rid p) (hmain' : t.requests.lookup rid = some q')
    (hothers : ∀ i, i ≠ rid → t.requests.lookup i = s.requests.lookup i) :
    Under intact random rid ims t := by
  have honly := he.only
  have hsub : s.log ⊆ t.log := by
    rw [hlog]
    exact List.subset_cons_self _ _
  have hfailed : .failed ∈ t.log → .failed ∈ s.log := by
    rw [hlog]
    exact fun hmem => (List.mem_cons.mp hmem).resolve_left honly.ne_failed.symm
  have hmain : ∀ x, t.requests.lookup rid = some x → x = q' := fun x hx =>
    Option.some.inj (hx.symm.trans hmain')
  have hpost : t.posted.lookup rid = some p := by
    rw [hposted, AList.lookup_insert]
  have hcopied : ∀ i u, .pieceCopied i u ∈ t.log → .pieceCopied i u ∈ s.log := by
    intro i u hmem
    rw [hlog] at hmem
    exact (List.mem_cons.mp hmem).resolve_left (honly.ne_pieceCopied i u).symm
  -- what is posted now is no encryption, so nothing is said of one
  have hnot : ∀ c, p ≠ .encrypt c := by
    intro c heq
    obtain hsave | hsave := hp
    · exact Post.noConfusion (heq.symm.trans hsave)
    · exact Post.noConfusion (heq.symm.trans hsave)
  refine ⟨⟨?_, ?_, ?_, ?_, ?_⟩, ?_⟩
  -- `Core`: only the request and what is posted for it have changed
  · constructor
    · intro x hx
      rw [hmain x hx]
      have hold := h.main q hq
      exact ⟨hq'.typ.trans hold.typ, hq'.cmd.trans hold.cmd, hq'.st hold.st⟩
    · intro i x hi hx
      exact h.parts i x hi (hothers i hi ▸ hx)
    · intro p' hp'
      rw [← Option.some.inj (hpost.symm.trans hp')]
      obtain rfl | rfl := hp
      · trivial
      · trivial
    · intro i p' hi hp'
      rw [hposted, AList.lookup_insert_ne hi] at hp'
      exact h.partPost i p' hi hp'
    · intro x hx i u hu
      rw [hmain x hx]
      have hsaved : q'.savedUnits = q.savedUnits := hq'.saved
      rw [hsaved]
      exact h.copied q hq i u (hcopied i u hu)
    · intro x hx i y hi hy hcmd hupdated
      rw [hmain x hx]
      have hsaved : q'.savedUnits = q.savedUnits := hq'.saved
      rw [hsaved]
      exact h.counted q hq i y hi (hothers i hi ▸ hy) hcmd hupdated
    · rw [hlog]
      exact h.sound.cons (fun i a b heq => absurd heq (honly.ne_respond i _)) honly.ne_failed
  -- the master object stays a copy of what was read
  · intro hintact hpiece x hx m hm
    rw [hmain x hx] at hm
    have hmaster : q'.masterJson = q.masterJson := hq'.master
    rw [hmaster] at hm
    exact (h.master hintact (hpiece.congr hothers) q hq m hm).mono hsub
  · intro hintact x hx c hc
    rw [hmain x hx, hdata] at hc
    exact (hcopy hintact c hc).mono hsub
  · intro _ c hc
    exact absurd (Option.some.inj (hpost.symm.trans hc)) (hnot c)
  -- what was saved so far, and what is saved now
  · intro hintact c hc
    rw [hlog, honly.saved] at hc
    obtain hd | hc := hc
    · exact (hcopy hintact c hd).mono hsub
    · exact (h.saved hintact c hc).mono hsub
  · have hanswers : answers t.log = answers s.log := by
      rw [hlog]
      refine List.filter_cons_of_neg fun hanswer => ?_
      cases e with
      | respond i a => exact honly.ne_respond i a rfl
      | _ => cases hanswer
    -- open as before, with nothing left in `units`; or closed as before
    obtain hopen | hclosed := h.phase
    · have hims' : s.imsReqIds.lookup rid ≠ none := by
        rw [hopen.ims_eq]
        exact Option.some_ne_none ims
      obtain ⟨hunits, c, hd, hmaster⟩ := hready hims'
      obtain ⟨q₀, m, hcopies⟩ := hopen.under
      obtain rfl : q₀ = q := Option.some.inj (hcopies.request.symm.trans hq)
      obtain rfl : c.master = m := Option.some.inj (hmaster.symm.trans hcopies.master)
      refine .inl ⟨by rw [hims, hopen.ims_eq], hanswers.trans hopen.quiet,
        fun i x hi hx => ?_, q', c.master, ?_⟩
      · exact hopen.copies i x hi (hothers i hi ▸ hx)
      · refine ⟨hmain', hq'.updated_eq.trans hcopies.updated, ?_, hq'.master.trans hcopies.master,
          ?_, fun _ => hq'.units_eq.trans hunits, ?_, fun _ => ?_⟩
        · exact hq'.backup hcopies.backup
        -- no piece is owed any more, so each has been copied
        · obtain ⟨old, k, n, hgot, hcopy', howed⟩ := hcopies.pieces
          refine ⟨old, k, n, hsub hgot, hcopy', fun ps hps x hx => ?_⟩
          obtain ⟨i, u, hu, hasked, hdone⟩ := howed ps hps x hx
          refine ⟨i, u, hu, hsub hasked, ?_⟩
          obtain hdone | ⟨-, hmem, -⟩ := hdone
          · exact .inl (hsub hdone)
          · rw [hunits] at hmem
            exact absurd hmem (Finset.notMem_empty i)
        · exact fun c' hc' => absurd (Option.some.inj (hpost.symm.trans hc')) (hnot c')
        · refine ⟨c, hdata.trans hd, rfl, ?_⟩
          rw [hlog, honly.saved]
          exact .inl hd
    · refine .inr ⟨by rw [hims, hclosed.ims_eq], ?_⟩
      rw [hanswers]
      exact hclosed.once

/-- **The new master object is sent** to be encrypted. -/
theorem Under.postEncrypt {key : AesKey} (h : Under intact random rid ims s)
    (hq : s.requests.lookup rid = some q) (hm : q.masterJson = some m)
    (hcopy : intact → IsCopy random s.log m)
    (hready : s.imsReqIds.lookup rid ≠ none → q.units = ∅) :
    Under intact random rid ims
      (s.post rid (.encrypt (.encrypted key m)) (.encrypt rid key m)) := by
  have hplain : (Entry.encrypt rid key m).Plain := trivial
  have hwritten : Under intact random rid ims (s.write (.encrypt rid key m)) :=
    h.frame (frame_write hplain)
  obtain ⟨t, ht⟩ : ∃ t, t = s.post rid (.encrypt (.encrypted key m)) (.encrypt rid key m) :=
    ⟨_, rfl⟩
  have hpost : t.posted.lookup rid = some (.encrypt (.encrypted key m)) := by
    rw [ht, post, AList.lookup_insert]
  rw [← ht]
  -- only `posted` and the log have changed, and the log by an entry that says nothing of copies
  have hrequests : t.requests = s.requests := by rw [ht, post]
  have hlog : t.log = (s.write (.encrypt rid key m)).log := by rw [ht, post, write]
  have hims : t.imsReqIds = s.imsReqIds := by rw [ht, post]
  have hothers : ∀ i, i ≠ rid → t.posted.lookup i = s.posted.lookup i := by
    intro i hi
    rw [ht, post, AList.lookup_insert_ne hi]
  -- `Core`, in its order
  refine ⟨⟨⟨?_, ?_, ?_, ?_, ?_, ?_, ?_⟩, ?_, ?_, ?_, ?_⟩, ?_⟩
  · rw [hrequests]
    exact h.main
  · rw [hrequests]
    exact h.parts
  · intro p hp
    rw [← Option.some.inj (hpost.symm.trans hp)]
    trivial
  · intro i p hi hp
    exact h.partPost i p hi (hothers i hi ▸ hp)
  · rw [hrequests, hlog]
    exact hwritten.copied
  · rw [hrequests]
    exact h.counted
  · rw [hlog]
    exact hwritten.sound
  · intro hintact hpiece
    rw [hrequests, hlog]
    exact hwritten.master hintact (hpiece.congr fun i _ => congrArg (AList.lookup i) hrequests)
  · rw [hrequests, hlog]
    exact hwritten.data
  -- what is posted for encryption is the new master object
  · intro hintact c hc
    rw [← Post.encrypt.inj (Option.some.inj (hpost.symm.trans hc)), hlog]
    exact (hcopy hintact).mono (List.subset_cons_self _ _)
  · rw [hlog]
    exact hwritten.saved
  -- open, with the encryption now posted and no copy pending; or closed as before
  · obtain hopen | hclosed := hwritten.phase
    · have hims' : s.imsReqIds.lookup rid ≠ none := by
        rw [show s.imsReqIds.lookup rid = some ims from hopen.ims_eq]
        exact Option.some_ne_none ims
      obtain ⟨q₀, m₀, hcopies⟩ := hopen.under
      obtain rfl : q₀ = q := Option.some.inj (hcopies.request.symm.trans hq)
      obtain rfl : m = m₀ := Option.some.inj (hm.symm.trans hcopies.master)
      refine .inl ⟨hims ▸ hopen.ims_eq, hlog ▸ hopen.quiet,
        hrequests ▸ hopen.copies, q₀, m, hrequests ▸ hcopies.request, hcopies.updated,
        hcopies.backup, hcopies.master, ?_, fun _ => hready hims', ?_, ?_⟩
      · simp only [Owed, hlog, hrequests]
        exact hcopies.pieces
      · intro c hc
        rw [← Post.encrypt.inj (Option.some.inj (hpost.symm.trans hc))]
        rfl
      · rintro (hsave | hsave)
        · exact Post.noConfusion (Option.some.inj (hpost.symm.trans hsave))
        · exact Post.noConfusion (Option.some.inj (hpost.symm.trans hsave))
    · refine .inr ⟨hims ▸ hclosed.ims_eq, ?_⟩
      rw [hlog]
      exact hclosed.once

theorem Under.saveMasterObject (h : Under intact random rid ims s)
    (hq : s.requests.lookup rid = some q)
    (hcopy : intact → IsCopy random s.log c.master)
    (hready : s.imsReqIds.lookup rid ≠ none → q.units = ∅ ∧ q.masterJson = some c.master) :
    Under intact random rid ims (s.saveMasterObject dataCopyCount rid q c) := by
  have hcopy' : intact → ∀ d ∈ some c, IsCopy random s.log d.master := by
    rintro hintact d hd
    rw [← Option.some.inj hd]
    exact hcopy hintact
  have hready' : s.imsReqIds.lookup rid ≠ none →
      q.units = ∅ ∧ ∃ d, some c = some d ∧ q.masterJson = some d.master :=
    fun hims => ⟨(hready hims).1, c, rfl, (hready hims).2⟩
  have hothers : ∀ r i, i ≠ rid →
      (s.setRequest rid r).requests.lookup i = s.requests.lookup i :=
    fun r i hi => AList.lookup_insert_ne hi
  rw [Copying.saveMasterObject]
  split_ifs
  · refine h.postSave hq ?_ ?_ ⟨rid, _, .inl rfl⟩ (.inl rfl) hcopy' hready' rfl rfl rfl
      (AList.lookup_insert _) (hothers _)
    · exact .refl rid q
    · rfl
  · refine h.postSave hq ?_ ?_ ⟨rid, _, .inr ⟨_, rfl⟩⟩ (.inr rfl) hcopy' hready' rfl rfl rfl
      (AList.lookup_insert _) (hothers _)
    · exact .refl rid q
    · rfl

/-- **Nothing is left in `units`.** -/
theorem Under.handleCopyOfMasterObject (h : Under intact random rid ims s)
    (hq : s.requests.lookup rid = some q)
    (hcopy : intact → ∀ m ∈ q.masterJson, IsCopy random s.log m)
    (hready : s.imsReqIds.lookup rid ≠ none → q.units = ∅)
    (ht : s.handleCopyOfMasterObject dataCopyCount rid q = some t) :
    Under intact random rid ims t := by
  rw [Copying.handleCopyOfMasterObject, pocoAssert_eq_some, Option.map_eq_some_iff] at ht
  obtain ⟨-, m, hm, ht⟩ := ht
  cases hkey : q.aesKey with
  | none =>
    rw [hkey] at ht
    rw [← ht]
    exact h.saveMasterObject hq (fun hintact => hcopy hintact m hm) fun hims => ⟨hready hims, hm⟩
  | some key =>
    rw [hkey] at ht
    rw [← ht]
    exact h.postEncrypt hq hm (fun hintact => hcopy hintact m hm) hready

/-- The other requests are as before, and what was copied is so. -/
theorem lookup_handleCopyOfMasterObject (hid : id ≠ rid)
    (ht : s.handleCopyOfMasterObject dataCopyCount rid q = some t) :
    t.requests.lookup id = s.requests.lookup id ∧ s.log ⊆ t.log := by
  rw [Copying.handleCopyOfMasterObject, pocoAssert_eq_some, Option.map_eq_some_iff] at ht
  obtain ⟨-, m, -, ht⟩ := ht
  rw [← ht]
  split
  · rw [Copying.saveMasterObject]
    split_ifs
    · exact ⟨AList.lookup_insert_ne hid, List.subset_cons_self _ _⟩
    · exact ⟨AList.lookup_insert_ne hid, List.subset_cons_self _ _⟩
  · exact ⟨rfl, List.subset_cons_self _ _⟩

/-! ### The backup units -/

/-- The request keeps itself in `backup_units` until it is answered. -/
theorem frame_removeFromBackupUnits (hq : s.requests.lookup rid = some q)
    (hneeded : s.imsReqIds.lookup rid ≠ none → id ≠ rid ∧ rid ∈ q.backupUnits) :
    Frame rid s (s.removeFromBackupUnits rid q id) := by
  rw [removeFromBackupUnits]
  split_ifs with hempty
  · refine frame_eraseRequest fun hims => ?_
    obtain ⟨hid, hmem⟩ := hneeded hims
    have hstays : rid ∈ q.backupUnits.erase id := Finset.mem_erase.mpr ⟨hid.symm, hmem⟩
    exact absurd (Finset.eq_empty_iff_forall_notMem.mp hempty rid) (not_not_intro hstays)
  · refine frame_setRequest hq { Request.Akin.refl q with } fun hims => ?_
    exact { Request.Same.refl rid q with
      backup := fun hmem => Finset.mem_erase.mpr ⟨(hneeded hims).1.symm, hmem⟩ }

theorem Under.needed (h : Under intact random rid ims s) (hid : id ≠ rid)
    (hq : s.requests.lookup rid = some q) :
    s.imsReqIds.lookup rid ≠ none → id ≠ rid ∧ rid ∈ q.backupUnits := by
  intro hims
  obtain hopen | hclosed := h.phase
  · obtain ⟨q₀, m, hcopies⟩ := hopen.under
    obtain rfl : q₀ = q := Option.some.inj (hcopies.request.symm.trans hq)
    exact ⟨hid, hcopies.backup⟩
  · exact absurd hclosed.ims_eq hims

theorem lookup_removeFromBackupUnits (hid : id ≠ rid) {i : ID32} :
    (s.removeFromBackupUnits rid q i).requests.lookup id = s.requests.lookup id ∧
      (s.removeFromBackupUnits rid q i).log = s.log := by
  rw [removeFromBackupUnits]
  split_ifs
  · exact ⟨AList.lookup_erase_ne hid, rfl⟩
  · exact ⟨AList.lookup_insert_ne hid, rfl⟩

/-! ### A copy of a piece is confirmed -/

/-- The request of a piece goes that was copied. -/
theorem Under.eraseCopied (h : Under intact random rid ims s) (hid : id ≠ rid)
    (hr : s.requests.lookup id = some r) (hcopied : .pieceCopied id r.copyUuid ∈ s.log) :
    Under intact random rid ims (s.eraseRequest id) := by
  refine h.frame (frame_eraseRequest fun _ x hx => ?_)
  obtain rfl : r = x := Option.some.inj (hr.symm.trans hx)
  exact fun hneeded => hneeded.elim hid fun hnot => hnot.2 hcopied

theorem Under.postRouterCopyRequest (h : Under intact random rid ims s) (hid : id ≠ rid)
    (ht : s.postRouterCopyRequest id r = some t) : Under intact random rid ims t := by
  rw [Copying.postRouterCopyRequest, pocoAssert_eq_some] at ht
  rw [← Option.some.inj ht.2]
  exact h.frame (frame_post hid trivial trivial)

/-- After the first copy of a piece. -/
theorem Under.afterFirstCopy (h : Under intact random rid ims s) (hid : id ≠ rid)
    (hr : s.requests.lookup id = some r) (hcopied : .pieceCopied id r.copyUuid ∈ s.log)
    (ht : (if dataCopyCount = 1 then some (s.eraseRequest id)
      else if r.isLocal then s.postRouterCopyRequest id r else some s) = some t) :
    Under intact random rid ims t := by
  split_ifs at ht
  · rw [← Option.some.inj ht]
    exact h.eraseCopied hid hr hcopied
  · exact h.postRouterCopyRequest hid ht
  · rwa [← Option.some.inj ht]

/-- It is counted and written down that the piece of the request `id` was copied. -/
structure Confirmed (id : ID32) (r r' : Request) (s t : Copying) : Prop where
  part : r'.typ = r.typ ∧ r'.parentReqId = r.parentReqId ∧ r'.cmd = r.cmd ∧ r'.copyUuid = r.copyUuid
  requests_eq : t.requests = s.requests.insert id r'
  log_eq : t.log = .pieceCopied id r.copyUuid :: s.log
  ims_eq : t.imsReqIds = s.imsReqIds
  posted_eq : t.posted = s.posted

theorem Confirmed.lookup_part {r' : Request} (h : Confirmed id r r' s t) :
    t.requests.lookup id = some r' := by
  rw [h.requests_eq, AList.lookup_insert]

theorem Confirmed.lookup_of_ne {r' : Request} (h : Confirmed id r r' s t) {i : ID32} (hi : i ≠ id) :
    t.requests.lookup i = s.requests.lookup i := by
  rw [h.requests_eq, AList.lookup_insert_ne hi]

theorem Confirmed.mem {r' : Request} (h : Confirmed id r r' s t) :
    .pieceCopied id r'.copyUuid ∈ t.log := by
  rw [h.log_eq, h.part.2.2.2]
  exact List.mem_cons_self

/-- The first copy of a piece: the unit is struck, and the last one lets the new master object
go. -/
theorem Under.firstCopy {s₁ : Copying} {r' : Request} (h : Under intact random rid ims s)
    (hid : id ≠ rid) (hr : s.requests.lookup id = some r) (hcmd : r.cmd = .copy)
    (hq : s.requests.lookup rid = some q) (hc : Confirmed id r r' s s₁)
    (ht : s₁.handleFirstCopySuccessForPiece dataCopyCount id r' rid q = some t) :
    Under intact random rid ims t := by
  rw [handleFirstCopySuccessForPiece, pocoAssert_eq_some, removeIdFromParentUnits] at ht
  obtain ⟨-, ht⟩ := ht
  rw [Option.bind_eq_some_iff] at ht
  obtain ⟨s₃, hs₃, ht⟩ := ht
  obtain ⟨q', hq'⟩ : ∃ x, x = { q with
      savedUnits := insertUnit r'.copyUuid q.savedUnits
      units := q.units.erase id } := ⟨_, rfl⟩
  obtain ⟨s₂, hs₂⟩ : ∃ x, x = s₁.setRequest rid q' := ⟨_, rfl⟩
  have hcounts : q'.Counts q id r.copyUuid := by
    rw [hq']
    refine ⟨rfl, rfl, rfl, rfl, rfl, rfl, rfl, fun i hi hmem => ?_, fun hempty => ?_,
      fun v hv => ?_⟩
    · exact Finset.mem_erase.mpr ⟨hi, hmem⟩
    · rw [hempty, Finset.erase_empty]
    · rw [mem_insertUnit, hc.part.2.2.2]
      exact hv
  have hmain₂ : s₂.requests.lookup rid = some q' := by
    rw [hs₂, setRequest, AList.lookup_insert]
  have hothers₂ : ∀ i, i ≠ rid → s₂.requests.lookup i = s₁.requests.lookup i := by
    intro i hi
    rw [hs₂, setRequest, AList.lookup_insert_ne hi]
  have hpart₂ : s₂.requests.lookup id = some r' := (hothers₂ id hid).trans hc.lookup_part
  have hlog₂ : s₂.log = s₁.log := by rw [hs₂, setRequest]
  have hunder : Under intact random rid ims s₂ := by
    refine h.pieceCopied hid hr hq hc.part hcounts (hlog₂.trans hc.log_eq) ?_ ?_ hmain₂ hpart₂ ?_
    · rw [hs₂, setRequest, hc.ims_eq]
    · rw [hs₂, setRequest, hc.posted_eq]
    · exact fun i hi hi' => (hothers₂ i hi).trans (hc.lookup_of_ne hi')
  rw [← hq', ← hs₂] at hs₃
  split_ifs at hs₃ with hempty
  · obtain ⟨hpart₃, hsub⟩ := lookup_handleCopyOfMasterObject hid hs₃
    have hpiece : s₂.HasPiece rid := ⟨id, r', hid, hpart₂, hc.part.2.2.1.trans hcmd⟩
    have hunder₃ := hunder.handleCopyOfMasterObject hmain₂
      (fun hintact => hunder.master hintact hpiece q' hmain₂) (fun _ => hempty) hs₃
    exact hunder₃.afterFirstCopy hid (hpart₃.trans hpart₂) (hsub (hlog₂ ▸ hc.mem)) ht
  · rw [← Option.some.inj hs₃] at ht
    exact hunder.afterFirstCopy hid hpart₂ (hlog₂ ▸ hc.mem) ht

/-- A later copy: the piece is in `saved_units` already. -/
theorem Under.laterCopy {r' : Request} (h : Under intact random rid ims s) (hid : id ≠ rid)
    (hr : s.requests.lookup id = some r) (hq : s.requests.lookup rid = some q)
    (hsaved : r.copyUuid ∈ q.savedUnits) (hc : Confirmed id r r' s t) :
    Under intact random rid ims t := by
  have hcounts : q.Counts q id r.copyUuid :=
    ⟨rfl, rfl, rfl, rfl, rfl, rfl, rfl, fun _ _ hmem => hmem, fun hempty => hempty,
      fun v hv => hv.elim (fun heq => heq ▸ hsaved) fun hold => hold⟩
  exact h.pieceCopied hid hr hq hc.part hcounts hc.log_eq hc.ims_eq hc.posted_eq
    ((hc.lookup_of_ne hid.symm).trans hq) hc.lookup_part fun i _ hi => hc.lookup_of_ne hi

/-- **A copy of a piece is confirmed**, be it the first or a later one. -/
theorem Under.handleCopySuccessForPiece (h : Under intact random rid ims s) (hid : id ≠ rid)
    (hr : s.requests.lookup id = some r)
    (ht : s.handleCopySuccessForPiece dataCopyCount id r = some t) :
    Under intact random rid ims t := by
  rw [Copying.handleCopySuccessForPiece, pocoAssert_eq_some] at ht
  obtain ⟨⟨-, hcmd⟩, ht⟩ := ht
  obtain ⟨r', hr'⟩ : ∃ x, x = { r with updated := r.updated + 1 } := ⟨_, rfl⟩
  obtain ⟨s₁, hs₁⟩ : ∃ x, x = (s.setRequest id r').write (.pieceCopied id r'.copyUuid) := ⟨_, rfl⟩
  have hc : Confirmed id r r' s s₁ := by
    rw [hs₁, hr']
    exact ⟨⟨rfl, rfl, rfl, rfl⟩, rfl, rfl, rfl, rfl⟩
  have hparent : r'.parentReqId = some rid := hc.part.2.1.trans (h.parts id r hid hr).parent
  rw [← hr'] at ht
  dsimp only at ht
  rw [← hs₁, hparent, Option.bind_some, hc.lookup_of_ne hid.symm, Option.bind_eq_some_iff] at ht
  obtain ⟨q, hq, ht⟩ := ht
  by_cases hfirst : r'.updated = 1
  · rw [if_pos hfirst] at ht
    exact h.firstCopy hid hr hcmd hq hc ht
  · have hnonzero : r.updated ≠ 0 := by
      intro hzero
      rw [hr', hzero] at hfirst
      exact hfirst rfl
    have hunder := h.laterCopy hid hr hq (h.counted q hq id r hid hr hcmd hnonzero) hc
    have hq₁ := (hc.lookup_of_ne hid.symm).trans hq
    rw [if_neg hfirst] at ht
    split_ifs at ht
    · rw [← Option.some.inj ht]
      obtain ⟨hpart₂, hlog₂⟩ := lookup_removeFromBackupUnits (s := s₁) (q := q) (i := id) hid
      have hframe := frame_removeFromBackupUnits hq₁ (hunder.needed hid hq₁)
      exact (hunder.frame hframe).eraseCopied hid (hpart₂.trans hc.lookup_part) (hlog₂ ▸ hc.mem)
    · rwa [← Option.some.inj ht]

/-! ### A failure -/

/-- The deletions of `us` are posted. -/
structure Deletes (rid : ID32) (us : List UUID) (s t : Copying) : Prop where
  log : ∃ l, t.log = l ++ s.log ∧ (∀ e ∈ l, ∃ i u, e = .deleteStorage i u) ∧
    ∀ u ∈ us, ∃ i, .deleteStorage i u ∈ l
  ims_eq : t.imsReqIds = s.imsReqIds
  kept : ∀ i r, s.requests.lookup i = some r →
    t.requests.lookup i = some r ∧ t.posted.lookup i = s.posted.lookup i
  added : ∀ i r, t.requests.lookup i = some r →
    s.requests.lookup i = some r ∨ r.IsPart rid ∧ r.cmd = .del
  posted : ∀ i p, t.posted.lookup i = some p → s.posted.lookup i = some p ∨ p = .deleteStorage

theorem Deletes.refl (rid : ID32) (s : Copying) : Deletes rid [] s s where
  log := ⟨[], rfl, fun _ he => absurd he List.not_mem_nil, fun _ hu => absurd hu List.not_mem_nil⟩
  ims_eq := rfl
  kept _ _ hr := ⟨hr, rfl⟩
  added _ _ hr := .inl hr
  posted _ _ hp := .inl hp

theorem deletes_of_deletePieces {us : List UUID} (ht : s.deletePieces now rid us = some t) :
    Deletes rid us s t := by
  induction us generalizing s with
  | nil =>
    rw [← Option.some.inj ht]
    exact .refl rid s
  | cons u us ih =>
    rw [deletePieces, getRequestId] at ht
    split_ifs at ht with hfree
    -- the deletion of the first piece, under the next id
    obtain ⟨d, hd⟩ : ∃ x, x = deleteRequest u rid now := ⟨_, rfl⟩
    obtain ⟨n, hn⟩ : ∃ x, x = s.requestCounter := ⟨_, rfl⟩
    rw [← hn] at hfree
    dsimp only at ht
    rw [← hd, ← hn] at ht
    -- and those of the others
    have hrest := ih ht
    have hpart : d.IsPart rid := by
      rw [hd]
      exact ⟨rfl, rfl⟩
    have huuid : d.uuid = u := by
      rw [hd]
      rfl
    obtain ⟨l, hl, hdels, hall⟩ := hrest.log
    refine ⟨⟨l ++ [.deleteStorage n u], ?_, ?_, ?_⟩, hrest.ims_eq, ?_, ?_, ?_⟩
    -- the log of the rest, and the entry of the first one
    · rw [hl, List.append_assoc]
      refine congrArg (l ++ ·) ?_
      rw [postStorageDeleteRequest, post, setRequest, huuid]
      rfl
    · intro e he
      obtain he | he := List.mem_append.mp he
      · exact hdels e he
      · exact ⟨n, u, List.mem_singleton.mp he⟩
    · intro v hv
      obtain rfl | hv := List.mem_cons.mp hv
      · exact ⟨n, List.mem_append_right l List.mem_cons_self⟩
      · obtain ⟨i, hi⟩ := hall v hv
        exact ⟨i, List.mem_append_left _ hi⟩
    -- what was there keeps its place, since the id is a new one
    · intro i r hr
      have hi : i ≠ n := by
        intro heq
        rw [heq, hfree] at hr
        cases hr
      obtain ⟨hr', hposted⟩ := hrest.kept i r ((AList.lookup_insert_ne hi).trans hr)
      exact ⟨hr', hposted.trans (AList.lookup_insert_ne hi)⟩
    · intro i r hr
      refine (hrest.added i r hr).elim (fun hold => ?_) .inr
      obtain ⟨-, rfl⟩ | ⟨-, hold⟩ := Ledger.eq_or_of_lookup_insert hold
      · refine .inr ⟨hpart, ?_⟩
        rw [hd]
        rfl
      · exact .inl hold
    · intro i p hp
      refine (hrest.posted i p hp).elim (fun hold => ?_) .inr
      obtain ⟨-, rfl⟩ | ⟨-, hold⟩ := Ledger.eq_or_of_lookup_insert hold
      · exact .inr rfl
      · exact .inl hold

/-- What was written in front of an entry, and what behind it. -/
theorem eq_or_of_append_eq {l l' k k' : List Entry} (hl : e ∉ l) (h : k ++ e :: k' = l ++ e :: l') :
    k = l ∧ k' = l' ∨ ∃ j, k = l ++ e :: j ∧ j ++ e :: k' = l' := by
  induction l generalizing k with
  | nil =>
    cases k with
    | nil => exact .inl ⟨rfl, (List.cons.inj h).2⟩
    | cons x k =>
      obtain ⟨rfl, htail⟩ := List.cons.inj h
      exact .inr ⟨k, rfl, htail⟩
  | cons y l ih =>
    cases k with
    | nil => exact absurd (List.mem_cons.mpr (.inl (List.cons.inj h).1)) hl
    | cons x k =>
      obtain ⟨rfl, htail⟩ := List.cons.inj h
      obtain ⟨rfl, rfl⟩ | ⟨j, rfl, hj⟩ := ih (fun hmem => hl (List.mem_cons_of_mem x hmem)) htail
      · exact .inl ⟨rfl, rfl⟩
      · exact .inr ⟨j, rfl, hj⟩

/-- A failure after which everything that was copied is deleted, and which is reported if nothing
was. -/
theorem Sound.failed {k : List Entry} (h : Sound random ims l) (hk : .failed ∉ k)
    (hfails : ∀ i a b, .respond i (.copySucceeded a b) ∉ k)
    (hreported : answers l = [] → ∃ a err, .respond ims (.copyFailed a err) ∈ k)
    (hundone : ∀ i u, .pieceCopied i u ∈ l → ∃ i', .deleteStorage i' u ∈ k) :
    Sound random ims (k ++ .failed :: l) where
  succeeded i a b t ht := by
    obtain ⟨j, hj⟩ := ht
    obtain ⟨j', rfl, hj'⟩ | ⟨j', rfl, hj'⟩ := List.append_eq_append_iff.mp hj
    · cases j' with
      | nil => exact Entry.noConfusion (List.cons.inj hj').1
      | cons x j' =>
        obtain ⟨rfl, -⟩ := List.cons.inj hj'
        exact absurd (List.mem_append_right j List.mem_cons_self) (hfails i a b)
    · cases j' with
      | nil => exact Entry.noConfusion (List.cons.inj hj').1
      | cons x j' =>
        obtain ⟨rfl, htail⟩ := List.cons.inj hj'
        exact h.succeeded i a b t ⟨j', htail.symm⟩
  told t ht hquiet := by
    obtain ⟨j, hj⟩ := ht
    obtain ⟨rfl, rfl⟩ | ⟨j', rfl, hj'⟩ := eq_or_of_append_eq hk hj
    · obtain ⟨a, err, hmem⟩ := hreported hquiet
      exact ⟨a, err, List.mem_append_left _ hmem⟩
    · obtain ⟨a, err, hmem⟩ := h.told t ⟨j', hj'⟩ hquiet
      exact ⟨a, err, List.mem_append_right k (List.mem_cons_of_mem _ hmem)⟩
  undone l' t heq i u hu := by
    obtain ⟨rfl, rfl⟩ | ⟨j, rfl, hj⟩ := eq_or_of_append_eq hk heq.symm
    · exact hundone i u hu
    · obtain ⟨i', hi'⟩ := h.undone j t hj.symm i u hu
      exact ⟨i', List.mem_append_right k (List.mem_cons_of_mem _ hi')⟩

/-- The request was not answered yet, or it was. -/
def Reported (rid ims : ID32) (s : Copying) : Prop :=
  s.imsReqIds.lookup rid = some ims ∧ answers s.log = [] ∨ Closed rid ims s

theorem Under.toReported (h : Under intact random rid ims s) : s.Reported rid ims :=
  h.phase.imp (fun hopen => ⟨hopen.ims_eq, hopen.quiet⟩) id

/-- What is said of a failure before anything is deleted. -/
theorem exists_report (h : s.Reported rid ims) {u : UUID} {err : String}
    (ht : t = ((s.write .failed).imsReqIds.lookup rid).elim (s.write .failed) fun i =>
      (s.write .failed).respond rid i (.copyFailed u err)) :
    t.requests = s.requests ∧ t.posted = s.posted ∧ Closed rid ims t ∧
      ∃ k, t.log = k ++ .failed :: s.log ∧ (∀ e ∈ k, e = .respond ims (.copyFailed u err)) ∧
        (answers s.log = [] → .respond ims (.copyFailed u err) ∈ k) := by
  have hims : (s.write .failed).imsReqIds = s.imsReqIds := rfl
  obtain ⟨hopen, hquiet⟩ | hclosed := h
  · rw [hims, hopen, Option.elim_some] at ht
    rw [ht]
    refine ⟨rfl, rfl, ⟨AList.lookup_erase rid _, .inr ⟨u, err, ?_⟩⟩, [_], rfl, ?_, ?_⟩
    · change Entry.respond ims (.copyFailed u err) :: answers s.log = _
      rw [hquiet]
    · exact fun e he => List.mem_singleton.mp he
    · exact fun _ => List.mem_cons_self
  · rw [hims, hclosed.ims_eq, Option.elim_none] at ht
    rw [ht]
    refine ⟨rfl, rfl, ⟨hclosed.ims_eq, hclosed.once⟩, [], rfl, ?_, fun hquiet => ?_⟩
    · exact fun e he => absurd he List.not_mem_nil
    · obtain ⟨a, b, honce⟩ | ⟨a, err', honce⟩ := hclosed.once
      · rw [hquiet] at honce
        cases honce
      · rw [hquiet] at honce
        cases honce

/-- **A failure.** What was copied is deleted, and nothing is left to respond to. -/
theorem Base.failed {err : String} (h : Base intact random rid ims s)
    (hq : s.requests.lookup rid = some q) (hreported : s.Reported rid ims)
    (ht : s.sendImsCopyFailedResponse now rid q err = some t) :
    Under intact random rid ims t ∧ t.imsReqIds.lookup rid = none ∧
      ∀ i r, s.requests.lookup i = some r → t.requests.lookup i = some r := by
  rw [sendImsCopyFailedResponse, pocoAssert_eq_some] at ht
  obtain ⟨-, ht⟩ := ht
  dsimp only at ht
  -- the response comes first, if there is somebody to respond to, and then the deletions
  obtain ⟨s₁, hs₁⟩ : ∃ x, x = ((s.write .failed).imsReqIds.lookup rid).elim (s.write .failed)
      fun i => (s.write .failed).respond rid i (.copyFailed q.uuid err) := ⟨_, rfl⟩
  rw [← hs₁] at ht
  obtain ⟨hrequests, hposted, hclosed, k, hk, hresponds, hresponded⟩ := exists_report hreported hs₁
  have hdels := deletes_of_deletePieces ht
  obtain ⟨l, hl, hdeletes, hall⟩ := hdels.log
  have hlog : t.log = (l ++ k) ++ .failed :: s.log := by rw [hl, hk, List.append_assoc]
  have hentries : ∀ e ∈ l ++ k, (∃ i u, e = .deleteStorage i u) ∨
      e = .respond ims (.copyFailed q.uuid err) :=
    fun e he => (List.mem_append.mp he).imp (hdeletes e) (hresponds e)
  -- nothing is written but deletions and that one response
  have hnot : ∀ e, (∀ i u, e ≠ .deleteStorage i u) →
      (∀ i a, e ≠ .respond i (.copyFailed q.uuid a)) → e ∉ l ++ k := by
    intro e hdelete hrespond he
    obtain ⟨i, u, heq⟩ | heq := hentries e he
    · exact hdelete i u heq
    · exact hrespond ims err heq
  have hkept : ∀ i r, s.requests.lookup i = some r →
      t.requests.lookup i = some r ∧ t.posted.lookup i = s.posted.lookup i := by
    intro i r hr
    obtain ⟨hr', hposted'⟩ := hdels.kept i r (hrequests ▸ hr)
    exact ⟨hr', hposted'.trans (by rw [hposted])⟩
  have hmain : ∀ x, t.requests.lookup rid = some x → x = q := fun x hx =>
    Option.some.inj (hx.symm.trans (hkept rid q hq).1)
  have hadded : ∀ i r, t.requests.lookup i = some r →
      s.requests.lookup i = some r ∨ r.IsPart rid ∧ r.cmd = .del :=
    fun i r hr => (hdels.added i r hr).imp_left fun hold => hrequests ▸ hold
  have hsub : s.log ⊆ t.log := by
    rw [hlog]
    exact List.Subset.trans (List.subset_cons_self _ _) (List.subset_append_right _ _)
  have hold : ∀ e ∈ t.log, (∀ i u, e ≠ .deleteStorage i u) →
      (∀ i a, e ≠ .respond i (.copyFailed q.uuid a)) → e ≠ .failed → e ∈ s.log := by
    intro e he hdelete hrespond hfailed
    rw [hlog] at he
    have he' := (List.mem_append.mp he).resolve_left (hnot e hdelete hrespond)
    exact (List.mem_cons.mp he').resolve_left hfailed
  have hcopied : ∀ i u, .pieceCopied i u ∈ t.log → .pieceCopied i u ∈ s.log := by
    intro i u hmem
    exact hold _ hmem (fun _ _ heq => Entry.noConfusion heq) (fun _ _ heq => Entry.noConfusion heq)
      fun heq => Entry.noConfusion heq
  -- a copy that has failed is closed: `Base` has to be kept, and nothing is left to respond to
  refine ⟨⟨⟨⟨?_, ?_, ?_, ?_, ?_, ?_, ?_⟩, ?_, ?_, ?_, ?_⟩, .inr ⟨?_, ?_⟩⟩, ?_,
    fun i r hr => (hkept i r hr).1⟩
  · intro x hx
    rw [hmain x hx]
    exact h.main q hq
  · exact fun i r hi hr => (hadded i r hr).elim (h.parts i r hi) fun hnew => hnew.1
  · intro p hp
    rw [(hkept rid q hq).2] at hp
    exact h.mainPost p hp
  · intro i p hi hp
    obtain hold | rfl := hdels.posted i p hp
    · rw [hposted] at hold
      exact h.partPost i p hi hold
    · trivial
  · intro x hx i u hu
    rw [hmain x hx]
    exact h.copied q hq i u (hcopied i u hu)
  · intro x hx i r hi hr hcmd hupdated
    rw [hmain x hx]
    obtain hold | ⟨-, hdel⟩ := hadded i r hr
    · exact h.counted q hq i r hi hold hcmd hupdated
    · rw [hdel] at hcmd
      cases hcmd
  -- the order of the log: the report, and a deletion for everything that was copied
  · rw [hlog]
    refine h.sound.failed ?_ ?_ ?_ ?_
    · exact hnot _ (fun _ _ heq => Entry.noConfusion heq) fun _ _ heq => Entry.noConfusion heq
    · refine fun i a b => hnot _ (fun _ _ heq => Entry.noConfusion heq) fun j c heq => ?_
      exact Answer.noConfusion (Entry.respond.inj heq).2
    · exact fun hquiet => ⟨_, _, List.mem_append_right l (hresponded hquiet)⟩
    · intro i u hu
      obtain ⟨i', hi'⟩ := hall u (h.copied q hq i u hu)
      exact ⟨i', List.mem_append_left k hi'⟩
  -- the master object and its data are what they were, since the log only grows
  · intro hintact hpiece x hx m hm
    rw [hmain x hx] at hm
    refine (h.master hintact ?_ q hq m hm).mono hsub
    obtain ⟨i, r, hi, hr, hcmd⟩ := hpiece
    obtain hkept' | ⟨-, hdel⟩ := hadded i r hr
    · exact ⟨i, r, hi, hkept', hcmd⟩
    · rw [hdel] at hcmd
      cases hcmd
  · intro hintact x hx c hc
    rw [hmain x hx] at hc
    exact (h.data hintact q hq c hc).mono hsub
  · intro hintact c hc
    rw [(hkept rid q hq).2] at hc
    exact (h.encrypting hintact c hc).mono hsub
  · rintro hintact c ⟨i, u, hmem | ⟨n, hmem⟩⟩
    · have hmem' := hold _ hmem (fun _ _ heq => Entry.noConfusion heq)
        (fun _ _ heq => Entry.noConfusion heq) fun heq => Entry.noConfusion heq
      exact (h.saved hintact c ⟨i, u, .inl hmem'⟩).mono hsub
    · have hmem' := hold _ hmem (fun _ _ heq => Entry.noConfusion heq)
        (fun _ _ heq => Entry.noConfusion heq) fun heq => Entry.noConfusion heq
      exact (h.saved hintact c ⟨i, u, .inr ⟨n, hmem'⟩⟩).mono hsub
  · rw [hdels.ims_eq]
    exact hclosed.ims_eq
  · have hanswers : answers t.log = answers s₁.log := by
      rw [hl]
      refine (quiet_append fun e he => ?_).answers_eq
      obtain ⟨i, u, rfl⟩ := hdeletes e he
      trivial
    rw [hanswers]
    exact hclosed.once
  · rw [hdels.ims_eq]
    exact hclosed.ims_eq

/-! ### The new master object is confirmed -/

/-- A success is reported when everything was copied. -/
theorem Base.succeeded {i : ID32} {u v : UUID} (h : Base intact random rid ims s)
    (hcomplete : Complete random s.log) :
    Base intact random rid ims (s.respond rid i (.copySucceeded u v)) := by
  obtain ⟨t, ht⟩ : ∃ t, t = s.respond rid i (.copySucceeded u v) := ⟨_, rfl⟩
  have hlog : t.log = .respond i (.copySucceeded u v) :: s.log := by rw [ht, respond]
  have hrequests : t.requests = s.requests := by rw [ht, respond]
  have hposted : t.posted = s.posted := by rw [ht, respond]
  have hsub : s.log ⊆ t.log := by
    rw [hlog]
    exact List.subset_cons_self _ _
  rw [← ht]
  refine ⟨⟨hrequests ▸ h.main, hrequests ▸ h.parts, hposted ▸ h.mainPost, hposted ▸ h.partPost, ?_,
    hrequests ▸ h.counted, ?_⟩, ?_, ?_, ?_, ?_⟩
  · intro q hq j w hw
    rw [hlog] at hw
    exact h.copied q (hrequests ▸ hq) j w
      ((List.mem_cons.mp hw).resolve_left fun heq => Entry.noConfusion heq)
  · rw [hlog]
    exact h.sound.cons (fun _ _ _ _ => hcomplete) fun heq => Entry.noConfusion heq
  · intro hintact hpiece q hq m hm
    have hpiece' := hpiece.congr fun i _ => congrArg (AList.lookup i) hrequests
    exact (h.master hintact hpiece' q (hrequests ▸ hq) m hm).mono hsub
  · exact fun hintact q hq c hc => (h.data hintact q (hrequests ▸ hq) c hc).mono hsub
  · exact fun hintact c hc => (h.encrypting hintact c (hposted ▸ hc)).mono hsub
  · intro hintact c hc
    rw [hlog, saved_cons (fun _ _ heq => Entry.noConfusion heq)
      fun _ _ _ heq => Entry.noConfusion heq] at hc
    exact (h.saved hintact c hc).mono hsub

/-- What is saved again is what was saved. -/
theorem Under.backupData {n : UInt16} (h : Under intact random rid ims s)
    (hq : s.requests.lookup rid = some q)
    (hready : s.imsReqIds.lookup rid ≠ none →
      q.units = ∅ ∧ ∃ c, q.data = some c ∧ q.masterJson = some c.master) :
    Under intact random rid ims (s.backupData rid q n) :=
  h.postSave hq (.refl rid q) rfl ⟨rid, _, .inr ⟨_, rfl⟩⟩ (.inr rfl)
    (fun hintact => h.data hintact q hq) hready rfl rfl rfl hq fun _ _ => rfl

/-- Once the request was answered it may go. -/
theorem Under.eraseMain (h : Under intact random rid ims s) (hims : s.imsReqIds.lookup rid = none) :
    Under intact random rid ims (s.eraseRequest rid) :=
  h.frame (frame_eraseRequest fun hne => absurd hims hne)

/-- The first copy of the new master object. -/
theorem Under.firstMasterCopy {s₁ : Copying} (h : Under intact random rid ims s)
    (hbase : Base intact random rid ims s₁) (hq : s₁.requests.lookup rid = some q)
    (hlog : s₁.log = .masterCopied rid :: s.log) (hims : s₁.imsReqIds = s.imsReqIds)
    (hcomplete : s.imsReqIds.lookup rid ≠ none → Complete random (.masterCopied rid :: s.log))
    (ht : s₁.handleFirstCopySuccessForMasterObject dataCopyCount rid q = some t) :
    Under intact random rid ims t := by
  rw [handleFirstCopySuccessForMasterObject, pocoAssert_eq_some, Option.map_eq_some_iff] at ht
  obtain ⟨-, i, hi, ht⟩ := ht
  rw [hims] at hi
  obtain ⟨s₂, hs₂⟩ : ∃ x, x = s₁.respond rid i (.copySucceeded q.uuid q.copyUuid) := ⟨_, rfl⟩
  have hnone : s₂.imsReqIds.lookup rid = none := by
    rw [hs₂, respond]
    exact AList.lookup_erase rid _
  have hmain : s₂.requests.lookup rid = some q := by
    rw [hs₂, respond]
    exact hq
  have hunder : Under intact random rid ims s₂ := by
    obtain hopen | hclosed := h.phase
    · obtain rfl : ims = i := Option.some.inj (hopen.ims_eq.symm.trans hi)
      refine ⟨?_, .inr ⟨hnone, .inl ⟨q.uuid, q.copyUuid, ?_⟩⟩⟩
      · rw [hs₂]
        refine hbase.succeeded ?_
        rw [hlog]
        exact hcomplete (by rw [hi]; exact Option.some_ne_none ims)
      · have hplain : (Entry.masterCopied rid).Plain := trivial
        have hquiet : answers s₁.log = [] := by
          rw [hlog, hplain.answers_cons, hopen.quiet]
        rw [hs₂, respond, ← hquiet]
        rfl
    · rw [hclosed.ims_eq] at hi
      cases hi
  dsimp only at ht
  rw [← hs₂] at ht
  split_ifs at ht
  · rw [← ht]
    exact hunder.eraseMain hnone
  · rw [← ht]
    exact hunder.backupData hmain fun hne => absurd hnone hne
  · rwa [← ht]

/-- **A copy of the new master object is confirmed**, be it the first or a later one. -/
theorem Under.handleCopySuccessForMasterObject (h : Under intact random rid ims s)
    (hq : s.requests.lookup rid = some q)
    (hcomplete : s.imsReqIds.lookup rid ≠ none → Complete random (.masterCopied rid :: s.log))
    (ht : s.handleCopySuccessForMasterObject dataCopyCount rid q = some t) :
    Under intact random rid ims t := by
  rw [Copying.handleCopySuccessForMasterObject, pocoAssert_eq_some] at ht
  obtain ⟨⟨htyp, -⟩, ht⟩ := ht
  obtain ⟨q', hq'⟩ : ∃ x, x = { q with updated := q.updated + 1 } := ⟨_, rfl⟩
  obtain ⟨s₁, hs₁⟩ : ∃ x, x = (s.setRequest rid q').write (.masterCopied rid) := ⟨_, rfl⟩
  have hakin : q'.Akin q := by
    rw [hq']
    exact { Request.Akin.refl q with
      counted := fun hkernel _ => RequestType.noConfusion (htyp.symm.trans hkernel) }
  have hplain : (Entry.masterCopied rid).Plain := trivial
  have hmain : s₁.requests.lookup rid = some q' := by
    rw [hs₁]
    exact AList.lookup_insert _
  rw [← hq'] at ht
  dsimp only at ht
  rw [← hs₁] at ht
  by_cases hfirst : q'.updated = 1
  · rw [if_pos hfirst] at ht
    refine h.firstMasterCopy ?_ hmain ?_ ?_ hcomplete ht
    · rw [hs₁]
      exact h.toBase.frame ((coreFrame_setRequest hq hakin).trans (frame_write hplain).toCoreFrame)
    · rw [hs₁]
      rfl
    · rw [hs₁]
      rfl
  · -- it was answered at the first one
    have hnone : s.imsReqIds.lookup rid = none := by
      obtain hopen | hclosed := h.phase
      · obtain ⟨q₀, m, hcopies⟩ := hopen.under
        obtain rfl : q₀ = q := Option.some.inj (hcopies.request.symm.trans hq)
        rw [hq', hcopies.updated] at hfirst
        exact absurd rfl hfirst
      · exact hclosed.ims_eq
    have hunder : Under intact random rid ims s₁ := by
      rw [hs₁]
      refine h.frame ((frame_setRequest hq hakin fun hne => absurd hnone hne).trans ?_)
      exact frame_write hplain
    have hnone₁ : s₁.imsReqIds.lookup rid = none := by
      rw [hs₁]
      exact hnone
    rw [if_neg hfirst] at ht
    split_ifs at ht
    · rw [← Option.some.inj ht]
      exact hunder.frame (frame_removeFromBackupUnits hmain fun hne => absurd hnone₁ hne)
    · rwa [← Option.some.inj ht]

end Copying

end Metax
