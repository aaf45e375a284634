import Metax.Copying.Pieces

/-!
# The law holds

Until the master object is read there is one thing the request waits for: an answer to itself or to
its helper (`Reading`). Then all pieces are asked for, or the copy has failed, and `Under` holds
from then on.

`Inv.step` goes through the events, and the law is read off the invariant (`copy_lawful`).
-/

namespace Metax

namespace Copying

variable {intact : Prop} {random : ℕ → UUID} {dataCopyCount : UInt16} {now : ℕ} {s t : Copying}
  {rid id ims : ID32} {r r' q : Request} {e : Entry} {l : List Entry} {m : MasterJson}
  {old : Master}
  {ps : List (Option UUID × Piece)} {p : Post}

/-! ### The master object is read -/

/-- Everything but the pieces is taken over. -/
structure IsTemplate (old : Master) (m : MasterJson) : Prop where
  size : old.size = some m.size
  contentType : m.contentType = old.contentType
  content : old.content = m.content.map some
  pieces : m.pieces = ∅

/-- The new master object is a copy of the old one when every piece was asked for. -/
theorem Asked.isCopyOf (h : Asked random ps s t r r') (hpieces : old.pieces = some ps)
    (hm : r.masterJson = some m) (htemplate : IsTemplate old m) : ∃ m', r'.masterJson = some m' ∧
      IsCopyOf old (drawnFrom random s.drawn ps.length) m' := by
  obtain ⟨m', hm', hlists⟩ := h.master m hm
  obtain ⟨us, hus⟩ := h.names
  have hsnd : ps.map Prod.snd = us.map Prod.snd := by
    rw [hus, List.map_map]
    rfl
  refine ⟨m', hm', ⟨?_, ?_, ?_, us, hus ▸ hpieces, ?_, fun hnodup u p => ?_⟩⟩
  · rw [htemplate.size, hlists.size]
  · rw [hlists.contentType, htemplate.contentType]
  · rw [htemplate.content, hlists.content]
  · rw [length_drawnFrom, hus, List.length_map]
  · have hnone : ∀ v, m.pieces.lookup v = none := by
      intro v
      rw [htemplate.pieces, AList.lookup_empty]
    rw [hlists.lookup hnodup (fun v _ => hnone v), hnone, hsnd]
    exact or_iff_left fun heq => Option.some_ne_none p heq.symm

theorem isCopy_of_copyPieces (ht : Copying.copyPieces random rid s r ps = (t, r', true))
    (hgot : .gotMaster old ∈ s.log) (hpieces : old.pieces = some ps) (hm : r.masterJson = some m)
    (htemplate : IsTemplate old m) : ∀ m' ∈ r'.masterJson, IsCopy random t.log m' := by
  have hasked : Asked random ps s t r r' := asked_of_copyPieces ht
  obtain ⟨m₁, hm₁, hcopy⟩ := hasked.isCopyOf hpieces hm htemplate
  intro m' hm'
  rw [← Option.some.inj (hm₁.symm.trans hm')]
  exact ⟨old, _, _, hasked.log_sub hgot, hcopy⟩

/-- **Every piece was asked for**, and the request is written back. -/
theorem Spread.under (h : Spread rid ims s r)
    (ht : Copying.copyPieces random rid s r ps = (t, r', true)) (hgot : .gotMaster old ∈ s.log)
    (hpieces : old.pieces = some ps) (hm : r.masterJson = some m) (htemplate : IsTemplate old m)
    (hbackup : rid ∈ r.backupUnits) : Under intact random rid ims (t.setRequest rid r') := by
  have hend : Spread rid ims t r' := h.copyPieces ht
  have hasked : Asked random ps s t r r' := asked_of_copyPieces ht
  obtain ⟨m', hm', hcopy⟩ := hasked.isCopyOf hpieces hm htemplate
  have hnone := hend.untouched
  have hgot' : .gotMaster old ∈ t.log := hasked.log_sub hgot
  have hmain : (t.setRequest rid r').requests.lookup rid = some r' := AList.lookup_insert _
  have hothers : ∀ i, i ≠ rid → (t.setRequest rid r').requests.lookup i = t.requests.lookup i :=
    fun i hi => AList.lookup_insert_ne hi
  have hposted : ∀ p, (t.setRequest rid r').posted.lookup rid ≠ some p := by
    intro p hp
    have hposted : t.posted.lookup rid = some p := hp
    rw [hend.mainPost] at hposted
    cases hposted
  refine ⟨⟨hend.core, ?_, ?_, fun _ c hc => absurd hc (hposted _), fun _ c hc => absurd hc ?_⟩,
    .inl ⟨hend.ims_eq, hnone.answers_eq, ?_, r', m', hmain, hend.fresh.updated,
      hasked.backup hbackup, hm', ?_, fun hne => ?_, fun c hc => absurd hc (hposted _), ?_⟩⟩
  · intro _ _ q hq
    have hcopies : ∀ m' ∈ r'.masterJson, IsCopy random t.log m' :=
      isCopy_of_copyPieces ht hgot hpieces hm htemplate
    rw [← Option.some.inj (hmain.symm.trans hq)]
    exact hcopies
  · intro _ q hq c hc
    rw [← Option.some.inj (hmain.symm.trans hq), hend.fresh.data_eq] at hc
    cases hc
  · exact hnone.saved c
  · intro i c hi hc
    rw [hothers i hi] at hc
    exact (hend.parts i c hi hc).2.1
  · refine ⟨old, s.drawn, ps.length, hgot', hcopy, fun ps' hps' x hx => ?_⟩
    obtain rfl : ps = ps' := Option.some.inj (hpieces.symm.trans hps')
    obtain ⟨i, u, hu, hlog, hunits, hfree, c, hc, huuid, hzero⟩ := hasked.pieces x hx
    have hi : i ≠ rid := fun heq => h.main (heq ▸ hfree)
    exact ⟨i, u, hu, hlog, .inr ⟨hi, hunits, c, (hothers i hi).trans hc, huuid, hzero⟩⟩
  · obtain ⟨p, hp⟩ := Option.ne_none_iff_exists'.mp hne
    exact absurd hp (hposted p)
  · rintro (hp | hp)
    · exact absurd hp (hposted _)
    · exact absurd hp (hposted _)

/-- What comes of a master object: the pieces are asked for, or the request is written back and has
failed. -/
def Outcome (intact : Prop) (random : ℕ → UUID) (rid ims : ID32) (x : Copying × Bool) : Prop :=
  x.2 = true ∧ Under intact random rid ims x.1 ∨
    x.2 = false ∧ ∃ s q, x.1 = s.setRequest rid q ∧ Spread rid ims s q ∧
      (intact → ∀ i, i ≠ rid → s.requests.lookup i = none)

theorem Spread.generateCopyRequestForPieces (h : Spread rid ims s r)
    (halone : ∀ i, i ≠ rid → s.requests.lookup i = none) (hgot : .gotMaster old ∈ s.log)
    (hm : r.masterJson = some m) (htemplate : IsTemplate old m) (hbackup : rid ∈ r.backupUnits)
    (hunits : r.units = ∅)
    (hok : intact → ∀ ps ∈ old.pieces, s.Askable ps ∨ ¬ s.Askable (ps.take 1)) :
    Outcome intact random rid ims
      (s.generateCopyRequestForPieces random dataCopyCount rid r old) := by
  unfold Copying.generateCopyRequestForPieces
  cases hpieces : old.pieces with
  | none => exact .inr ⟨rfl, s, r, rfl, h, fun _ => halone⟩
  | some ps =>
    cases ps with
    | nil =>
      have hunder : Under intact random rid ims (s.setRequest rid r) :=
        h.under rfl hgot hpieces hm htemplate hbackup
      have hlookup : (s.setRequest rid r).requests.lookup rid = some r := AList.lookup_insert _
      have hdone : Copying.copyPieces random rid s r [] = (s, r, true) := rfl
      have hcopy : ∀ m ∈ r.masterJson, IsCopy random s.log m :=
        isCopy_of_copyPieces hdone hgot hpieces hm htemplate
      dsimp only
      cases hsent : (s.setRequest rid r).handleCopyOfMasterObject dataCopyCount rid r with
      | none => exact .inr ⟨rfl, s, r, rfl, h, fun _ => halone⟩
      | some t =>
        exact .inl ⟨rfl, hunder.handleCopyOfMasterObject hlookup (fun _ => hcopy)
          (fun _ => hunits) hsent⟩
    | cons x ps =>
      obtain ⟨y, hy⟩ : ∃ y, Copying.copyPieces random rid s r (x :: ps) = y := ⟨_, rfl⟩
      obtain ⟨s', r', b⟩ := y
      dsimp only
      rw [hy]
      cases b with
      | true => exact .inl ⟨rfl, h.under hy hgot hpieces hm htemplate hbackup⟩
      | false =>
        refine .inr ⟨rfl, s', r', rfl, h.copyPieces hy, fun hintact => ?_⟩
        -- what breaks off the loop is its first piece
        obtain haskable | hfirst := hok hintact _ hpieces
        · cases copyPieces_of_askable haskable hy
        · rw [(copyPieces_of_not_askable hfirst hy).2]
          exact halone

/-- The request itself may be written at any time. -/
theorem Spread.setMain (h : Spread rid ims s r) (q : Request) :
    Spread rid ims (s.setRequest rid q) r where
  main := by
    rw [setRequest, AList.lookup_insert]
    exact Option.some_ne_none q
  fresh := h.fresh
  parts i c hi hc := by
    rw [setRequest, AList.lookup_insert_ne hi] at hc
    exact h.parts i c hi hc
  mainPost := h.mainPost
  partPost := h.partPost
  ims_eq := h.ims_eq
  early := h.early

/-- The master object is looked into. Without a size, or with a content that is no text, nothing is
asked for. -/
theorem Spread.processCopyRequest (h : Spread rid ims s r)
    (halone : ∀ i, i ≠ rid → s.requests.lookup i = none) (hgot : .gotMaster old ∈ s.log)
    (hunits : r.units = ∅) (hok : intact → (s.setRequest rid r).Unbroken old) :
    Outcome intact random rid ims
      ((s.setRequest rid r).processCopyRequest random dataCopyCount rid r old) := by
  have hset : Spread rid ims (s.setRequest rid r) r := h.setMain r
  have halone' : ∀ i, i ≠ rid → (s.setRequest rid r).requests.lookup i = none := by
    intro i hi
    rw [setRequest, AList.lookup_insert_ne hi]
    exact halone i hi
  have hgoes : ∀ size content, old.size = some size → old.content = content.map some →
      Outcome intact random rid ims
        ((s.setRequest rid r).generateCopyRequestForPieces random dataCopyCount rid { r with
          masterJson := some { createMasterJsonTemplate r size old.contentType with
            content := content }
          backupUnits := insert rid r.backupUnits } old) := by
    intro size content hsize hcontent
    refine Spread.generateCopyRequestForPieces ?_ halone' hgot rfl ⟨hsize, rfl, hcontent, rfl⟩
      (Finset.mem_insert_self rid _) hunits fun hintact => hok hintact ?_ ?_
    · exact { hset with fresh := { h.fresh with } }
    · rw [hsize]
      exact Option.some_ne_none size
    · rw [hcontent]
      cases content with
      | none => exact fun heq => Option.some_ne_none _ heq.symm
      | some text => exact fun heq => Option.some_ne_none text (Option.some.inj heq)
  unfold Copying.processCopyRequest
  cases hsize : old.size with
  | none => exact .inr ⟨rfl, s, r, rfl, h, fun _ => halone⟩
  | some size =>
    cases hcontent : old.content with
    | none => exact hgoes size none hsize hcontent
    | some text =>
      cases text with
      | none =>
        refine .inr ⟨rfl, s.setRequest rid r, _, rfl, ?_, fun _ => halone'⟩
        exact { hset with fresh := { h.fresh with } }
      | some content => exact hgoes size (some content) hsize hcontent

/-- The request alone, which waits for nothing, and nothing was copied yet. -/
structure Idle (rid ims : ID32) (s : Copying) : Prop where
  main : ∃ q, s.requests.lookup rid = some q ∧ q.IsFresh ∧ q.units = ∅
  alone : ∀ i, i ≠ rid → s.requests.lookup i = none
  posted : ∀ i, s.posted.lookup i = none
  ims_eq : s.imsReqIds.lookup rid = some ims
  early : ∀ e ∈ s.log, e.Early

theorem Idle.spread (h : Idle rid ims s) (hq : q.IsFresh) : Spread rid ims s q where
  main hnone := by
    obtain ⟨q', hq', -⟩ := h.main
    rw [hnone] at hq'
    cases hq'
  fresh := hq
  parts i c hi hc := by
    rw [h.alone i hi] at hc
    cases hc
  mainPost := h.posted rid
  partPost i p _ hp := by
    rw [h.posted i] at hp
    cases hp
  ims_eq := h.ims_eq
  early := h.early

theorem Idle.base (h : Idle rid ims s) : Base intact random rid ims s := by
  have hnone := untouched h.early
  refine ⟨⟨fun q hq => ?_, fun i c hi hc => ?_, fun p hp => ?_, fun i p _ hp => ?_,
    fun _ _ i u hu => absurd hu (hnone.pieceCopied i u), fun _ _ i c hi hc => ?_,
    hnone.sound random ims⟩, fun _ hpiece => ?_, fun _ q hq => ?_, fun _ c hc => ?_,
    fun _ c hc => absurd hc (hnone.saved c)⟩
  · obtain ⟨q', hq', hfresh, -⟩ := h.main
    rw [Option.some.inj (hq.symm.trans hq')]
    exact hfresh.toIsMain
  · rw [h.alone i hi] at hc
    cases hc
  · rw [h.posted rid] at hp
    cases hp
  · rw [h.posted i] at hp
    cases hp
  · rw [h.alone i hi] at hc
    cases hc
  · obtain ⟨i, c, hi, hc, -⟩ := hpiece
    rw [h.alone i hi] at hc
    cases hc
  · obtain ⟨q', hq', hfresh, -⟩ := h.main
    rw [Option.some.inj (hq.symm.trans hq'), hfresh.data_eq]
    exact fun c hc => absurd hc.symm (Option.some_ne_none c)
  · rw [h.posted rid] at hc
    cases hc

theorem Idle.toReported (h : Idle rid ims s) : s.Reported rid ims :=
  .inl ⟨h.ims_eq, (untouched h.early).answers_eq⟩

/-- The copy fails before its pieces are all asked for. -/
theorem Base.freshFailed (h : Base intact random rid ims s) (hreported : s.Reported rid ims)
    (hq : s.requests.lookup rid = some q) (hfresh : q.IsFresh)
    (ht : s.handleFailedRequest now rid q = some t) : Under intact random rid ims t := by
  rw [handleFailedRequest, hfresh.cmd] at ht
  dsimp only at ht
  rw [handleFailedCopyRequest, pocoAssert_eq_some, hfresh.typ,
    if_neg fun heq => RequestType.noConfusion heq, if_neg hfresh.st, handleFailedImsCopyRequest,
    if_pos hfresh.updated] at ht
  exact (h.failed hq hreported ht.2).1

/-- Only what is taken counts. -/
theorem unbroken_congr (hcounter : t.requestCounter = s.requestCounter)
    (hfree : ∀ i, t.requests.lookup i = none ↔ s.requests.lookup i = none) :
    t.Unbroken old ↔ s.Unbroken old := by
  simp only [Unbroken, askable_congr hcounter hfree]

theorem unbroken_of_agree (h : s.Unbroken old) (hcounter : t.requestCounter = s.requestCounter)
    (hrequests : t.requests = s.requests) : t.Unbroken old :=
  (unbroken_congr hcounter fun i => by rw [hrequests]).mpr h

/-- The request itself is there. -/
theorem Idle.unbroken_setRequest (h : Idle rid ims s) (q : Request) :
    (s.setRequest rid q).Unbroken old ↔ s.Unbroken old := by
  refine unbroken_congr rfl fun i => ?_
  obtain ⟨q', hq', -⟩ := h.main
  rw [setRequest, Ledger.lookup_insert_ite]
  split_ifs with hi
  · rw [hi, hq']
    simp only [reduceCtorEq]
  · exact Iff.rfl

/-- A master object is read, and there is no way back to `Idle`. -/
theorem Idle.handleUnencryptedMasterObject {master : Option Master} (h : Idle rid ims s)
    (hq : s.requests.lookup rid = some q) (hfresh : q.IsFresh) (hunits : q.units = ∅)
    (hok : intact → ∀ m ∈ master, s.Unbroken m)
    (ht : s.handleUnencryptedMasterObject random dataCopyCount now rid q master = some t) :
    Under intact random rid ims t := by
  unfold Copying.handleUnencryptedMasterObject at ht
  obtain ⟨-, ht⟩ := pocoAssert_eq_some.mp ht
  cases master with
  | none => exact h.base.freshFailed h.toReported hq hfresh ht
  | some old =>
    obtain ⟨q', hq'⟩ : ∃ x, x = { q with oldMasterJson := some old } := ⟨_, rfl⟩
    have hfresh' : q'.IsFresh := by
      rw [hq']
      exact { hfresh with }
    have hspread : Spread rid ims (s.write (.gotMaster old)) q' :=
      { h.spread hfresh' with
        early := fun e he => (List.mem_cons.mp he).elim (fun heq => heq ▸ trivial) (h.early e) }
    have hunits' : q'.units = ∅ := by
      rw [hq']
      exact hunits
    have hok' : intact → ((s.write (.gotMaster old)).setRequest rid q').Unbroken old := by
      intro hintact
      have hset : (s.setRequest rid q').Unbroken old :=
        (h.unbroken_setRequest q').mpr (hok hintact old rfl)
      exact unbroken_of_agree hset rfl rfl
    obtain ⟨x, hx⟩ : ∃ x, Copying.processCopyRequest random dataCopyCount
        ((s.write (.gotMaster old)).setRequest rid q') rid q' old = x := ⟨_, rfl⟩
    have houtcome : Outcome intact random rid ims x := by
      rw [← hx]
      exact hspread.processCopyRequest h.alone List.mem_cons_self hunits' hok'
    dsimp only at ht
    rw [← hq', hx] at ht
    obtain ⟨s', b⟩ := x
    obtain ⟨rfl, hunder⟩ | ⟨rfl, s₁, q₁, rfl, hspread₁, halone₁⟩ := houtcome
    · rwa [← Option.some.inj ht]
    · have hlookup : (s₁.setRequest rid q₁).requests.lookup rid = some q₁ := AList.lookup_insert _
      dsimp only at ht
      rw [hlookup, Option.bind_some] at ht
      exact (hspread₁.base halone₁).freshFailed hspread₁.toReported hlookup hspread₁.fresh ht

/-! ### Waiting for the master object -/

/-- A helper, which gets the master object from the router. -/
structure Request.IsHelper (rid : ID32) (r : Request) : Prop where
  typ : r.typ = .ims
  cmd : r.cmd = .copy
  st : r.st = .requested
  parent : r.parentReqId = some rid

/-- The request waits to read the master object, or for its helper to. -/
inductive Reading (rid ims : ID32) (s : Copying) : Prop
  | main (p : Post) (hposted : s.posted.lookup rid = some p)
      (hp : p = .lookUp ∨ p = .getStorage ∨ p = .decrypt) (h : Idle rid ims (s.answered rid))
  | helper (id : ID32) (r : Request) (hid : id ≠ rid) (hr : s.requests.lookup id = some r)
      (hhelper : r.IsHelper rid) (hposted : s.posted.lookup id = some .getRouter)
      (h : Idle rid ims ((s.answered id).eraseRequest id))

/-- **The invariant.** -/
def Inv (intact : Prop) (random : ℕ → UUID) (rid ims : ID32) (s : Copying) : Prop :=
  Reading rid ims s ∨ Under intact random rid ims s

/-- The request is written back while it waits for nothing. -/
theorem Idle.setMain (h : Idle rid ims s) (hfresh : q.IsFresh) (hunits : q.units = ∅) :
    Idle rid ims (s.setRequest rid q) where
  main := ⟨q, AList.lookup_insert _, hfresh, hunits⟩
  alone i hi := by
    rw [setRequest, AList.lookup_insert_ne hi]
    exact h.alone i hi
  posted := h.posted
  ims_eq := h.ims_eq
  early := h.early

/-- The request waits for its master object. -/
theorem Idle.post (h : Idle rid ims s) (hp : p = .lookUp ∨ p = .getStorage ∨ p = .decrypt)
    (he : e.Early) : Inv intact random rid ims (s.post rid p e) := by
  refine .inl (.main p (AList.lookup_insert _) hp ⟨h.main, h.alone, fun i => ?_, h.ims_eq, ?_⟩)
  · rw [answered, Ledger.lookup_erase_ite]
    split_ifs with hi
    · rfl
    · rw [Copying.post, AList.lookup_insert_ne hi]
      exact h.posted i
  · exact fun e' he' => (List.mem_cons.mp he').elim (fun heq => heq ▸ he) (h.early e')

/-- The storage has the object. -/
theorem Idle.storageAck (h : Idle rid ims s) (hq : s.requests.lookup rid = some q) :
    Inv intact random rid ims (s.handleStoragePositiveResponseForLocalRequest rid q) := by
  obtain ⟨q', hq', hfresh, hunits⟩ := h.main
  obtain rfl : q = q' := Option.some.inj (hq.symm.trans hq')
  rw [handleStoragePositiveResponseForLocalRequest, postStorageGetRequest]
  refine Idle.post (h.setMain ?_ ?_) (.inr (.inl rfl)) trivial
  · exact { hfresh with st := fun heq => RequestState.noConfusion heq }
  · exact hunits

/-- A helper is sent to the router. -/
theorem Idle.helped (h : Idle rid ims s) (hfree : s.requests.lookup id = none)
    (hr : r.IsHelper rid) {n : ID32} {u : UUID} : Inv intact random rid ims
      (({ s with requestCounter := n }.setRequest id r).post id .getRouter (.getRouter id u)) := by
  obtain ⟨t, ht⟩ : ∃ t, t = ({ s with requestCounter := n }.setRequest id r).post id .getRouter
      (.getRouter id u) := ⟨_, rfl⟩
  have hrequests : t.requests = s.requests.insert id r := by
    rw [ht]
    rfl
  have hposted : t.posted = s.posted.insert id .getRouter := by
    rw [ht]
    rfl
  have hid : rid ≠ id := by
    obtain ⟨q, hq, -⟩ := h.main
    rintro rfl
    rw [hfree] at hq
    cases hq
  have hothers : ∀ i, i ≠ id →
      ((t.answered id).eraseRequest id).requests.lookup i = s.requests.lookup i := by
    intro i hi
    rw [eraseRequest, answered, AList.lookup_erase_ne hi, hrequests, AList.lookup_insert_ne hi]
  have hgone : ((t.answered id).eraseRequest id).requests.lookup id = none :=
    AList.lookup_erase id _
  rw [← ht]
  refine .inl (.helper id r hid.symm ?_ hr ?_ ⟨?_, fun i hi => ?_, fun i => ?_, ?_, ?_⟩)
  · rw [hrequests, AList.lookup_insert]
  · rw [hposted, AList.lookup_insert]
  · rw [hothers rid hid]
    exact h.main
  · by_cases hi' : i = id
    · rw [hi', hgone]
    · rw [hothers i hi', h.alone i hi]
  · rw [eraseRequest, answered, Ledger.lookup_erase_ite, hposted]
    split_ifs with hi
    · rfl
    · rw [AList.lookup_insert_ne hi, h.posted i]
  · rw [ht]
    exact h.ims_eq
  · rw [ht]
    exact fun e he => (List.mem_cons.mp he).elim (fun heq => heq ▸ trivial) (h.early e)

/-- The storage does not have the object, and a helper gets it from the router. -/
theorem Idle.storageNack (h : Idle rid ims s) (hq : s.requests.lookup rid = some q)
    (ht : s.handleStorageNegativeResponse dataCopyCount now rid q = some t) :
    Inv intact random rid ims t := by
  obtain ⟨q', hq', hfresh, hunits⟩ := h.main
  obtain rfl : q = q' := Option.some.inj (hq.symm.trans hq')
  obtain ⟨r, hr⟩ : ∃ x, x = { q with isLocal := false } := ⟨_, rfl⟩
  have hset : Idle rid ims (s.setRequest rid r) := by
    rw [hr]
    exact h.setMain { hfresh with } hunits
  have htyp : r.typ = .ims := by
    rw [hr]
    exact hfresh.typ
  rw [handleStorageNegativeResponse, hfresh.cmd] at ht
  dsimp only at ht
  rw [handleStorageNegativeResponseForCopyReq, ← hr, htyp, if_pos rfl, getRequestId] at ht
  split_ifs at ht with hfree
  dsimp only at ht
  rw [postRouterGetRequest, pocoAssert_eq_some] at ht
  rw [← Option.some.inj ht.2]
  exact hset.helped hfree ⟨rfl, rfl, rfl, rfl⟩

/-- The master object has arrived, and is decrypted where there is a key. -/
theorem Idle.gotMasterObject {master : Option Master} {key : Option AesKey} (h : Idle rid ims s)
    (hq : s.requests.lookup rid = some q)
    (hok : intact → key = none → ∀ m ∈ master, s.Unbroken m)
    (ht : s.gotMasterObject random dataCopyCount now rid q master key = some t) :
    Inv intact random rid ims t := by
  obtain ⟨q', hq', hfresh, hunits⟩ := h.main
  obtain rfl : q = q' := Option.some.inj (hq.symm.trans hq')
  obtain ⟨r, hr⟩ : ∃ x, x = { q with aesKey := key } := ⟨_, rfl⟩
  have hfresh' : r.IsFresh := by
    rw [hr]
    exact { hfresh with }
  have hunits' : r.units = ∅ := by
    rw [hr]
    exact hunits
  have hset : Idle rid ims (s.setRequest rid r) := h.setMain hfresh' hunits'
  rw [Copying.gotMasterObject, pocoAssert_eq_some] at ht
  obtain ⟨-, ht⟩ := ht
  dsimp only at ht
  rw [← hr] at ht
  cases key with
  | none =>
    refine .inr (hset.handleUnencryptedMasterObject (AList.lookup_insert _) hfresh' hunits'
      (fun hintact m hm => ?_) ht)
    exact (h.unbroken_setRequest r).mpr (hok hintact rfl m hm)
  | some k =>
    rw [← Option.some.inj ht]
    exact hset.post (.inr (.inr rfl)) trivial

theorem Idle.failed (h : Idle rid ims s) (hq : s.requests.lookup rid = some q)
    (ht : s.handleFailedRequest now rid q = some t) : Under intact random rid ims t := by
  obtain ⟨q', hq', hfresh, -⟩ := h.main
  obtain rfl : q = q' := Option.some.inj (hq.symm.trans hq')
  exact h.base.freshFailed h.toReported hq hfresh ht

/-- The router gives the object up that the helper asks for. -/
theorem Idle.helperFailed (h : Idle rid ims (s.eraseRequest id)) (hid : id ≠ rid)
    (hr : r.IsHelper rid) (ht : s.handleFailedRequest now id r = some t) :
    Under intact random rid ims t := by
  rw [handleFailedRequest, hr.cmd] at ht
  dsimp only at ht
  rw [handleFailedCopyRequest, pocoAssert_eq_some, hr.typ,
    if_neg fun heq => RequestType.noConfusion heq, if_pos hr.st, hr.parent, Option.bind_some,
    Option.bind_eq_some_iff] at ht
  obtain ⟨-, q, hq, ht⟩ := ht
  rw [Option.map_eq_some_iff] at ht
  obtain ⟨s₁, hs₁, rfl⟩ := ht
  have hq' : (s.eraseRequest id).requests.lookup rid = some q := by
    rw [eraseRequest, AList.lookup_erase_ne hid.symm]
    exact hq
  obtain ⟨h₁, hnone, hkept⟩ := h.base.failed hq' h.toReported hs₁
  exact h₁.frame (frame_removeFromBackupUnits (hkept rid q hq') fun hne => absurd hnone hne)

/-! ### Steps -/

/-- An answer to the request itself while it reads. -/
theorem Idle.mainStep {x : Event} (h : Idle rid ims (s.answered rid))
    (hp : p = .lookUp ∨ p = .getStorage ∨ p = .decrypt) (htarget : x.target = some rid)
    (hans : x.answers p = true) (hok : intact → s.Whole x)
    (ht : (s.received x).handle random dataCopyCount now (some p) x = some t) :
    Inv intact random rid ims t := by
  obtain ⟨q, hq, hfresh, hunits⟩ := h.main
  have hwith : ∀ f, (s.answered rid).withRequest rid f = f q := by
    intro f
    rw [withRequest, hq, Option.elim_some]
  have hfailed : ∀ i, i = rid → (s.answered i).withRequest i (fun r =>
      (s.answered i).handleFailedRequest now i r) = some t → Inv intact random rid ims t := by
    rintro i rfl ht
    rw [hwith] at ht
    exact .inr (h.failed hq ht)
  have hnack : ∀ i, i = rid → (s.answered i).withRequest i (fun r =>
      (s.answered i).handleStorageNegativeResponse dataCopyCount now i r) = some t →
        Inv intact random rid ims t := by
    rintro i rfl ht
    rw [hwith] at ht
    exact h.storageNack hq ht
  obtain rfl | rfl | rfl := hp
  · cases x with
    | storageAck i =>
      obtain rfl : i = rid := Option.some.inj htarget
      rw [handle, show s.received (.storageAck i) = s.answered i from rfl, hwith] at ht
      rw [← Option.some.inj ht]
      exact h.storageAck hq
    | storageNack i => exact hnack i (Option.some.inj htarget) ht
    | storageFailed i => exact hfailed i (Option.some.inj htarget) ht
    | _ => cases hans
  · cases x with
    | storageNack i => exact hnack i (Option.some.inj htarget) ht
    | storageGetData i master key =>
      obtain rfl : i = rid := Option.some.inj htarget
      rw [handle, show s.received (.storageGetData i master key) = s.answered i from rfl,
        hwith] at ht
      refine h.gotMasterObject hq (fun hintact hkey m hm => ?_) ht
      rw [hkey] at hok
      exact unbroken_of_agree (hok hintact m hm) rfl rfl
    | storageFailed i => exact hfailed i (Option.some.inj htarget) ht
    | _ => cases hans
  · cases x with
    | decrypted i master =>
      obtain rfl : i = rid := Option.some.inj htarget
      rw [handle, show s.received (.decrypted i master) = s.answered i from rfl, hq,
        Option.bind_some] at ht
      refine .inr (h.handleUnencryptedMasterObject hq hfresh hunits (fun hintact m hm => ?_) ht)
      exact unbroken_of_agree (hok hintact m hm) rfl rfl
    | decryptionFail i err =>
      obtain rfl : i = rid := Option.some.inj htarget
      rw [handle, show s.received (.decryptionFail i err) = s.answered i from rfl, hq,
        Option.bind_some] at ht
      exact .inr (h.base.failed hq h.toReported ht).1
    | _ => cases hans

/-- An answer to the helper. -/
theorem Idle.helperStep {x : Event} (h : Idle rid ims ((s.answered id).eraseRequest id))
    (hid : id ≠ rid) (hr : s.requests.lookup id = some r) (hhelper : r.IsHelper rid)
    (htarget : x.target = some id) (hans : x.answers .getRouter = true) (hok : intact → s.Whole x)
    (ht : (s.received x).handle random dataCopyCount now (some .getRouter) x = some t) :
    Inv intact random rid ims t := by
  have hwith : ∀ f, (s.answered id).withRequest id f = f r := by
    intro f
    rw [withRequest, show (s.answered id).requests.lookup id = some r from hr, Option.elim_some]
  cases x with
  | routerGetData i master key =>
    obtain rfl : i = id := Option.some.inj htarget
    rw [handle, show s.received (.routerGetData i master key) = s.answered i from rfl, hwith,
      processReceivedMasterObjectFromRouter, hhelper.parent] at ht
    obtain ⟨q, hq, -⟩ := h.main
    have hq' : (s.answered i).requests.lookup rid = some q := by
      rwa [eraseRequest, AList.lookup_erase_ne hid.symm] at hq
    dsimp only at ht
    rw [hq'] at ht
    refine h.gotMasterObject hq (fun hintact hkey m hm => ?_) ht
    rw [hkey] at hok
    exact unbroken_of_agree (hok hintact m hm) rfl rfl
  | routerCancel i =>
    obtain rfl : i = id := Option.some.inj htarget
    rw [handle, show s.received (.routerCancel i) = s.answered i from rfl, hwith,
      handleRouterCancel] at ht
    refine .inr (Idle.helperFailed ?_ hid ?_ ht)
    · rw [eraseRequest, setRequest, Ledger.erase_insert]
      exact h
    · exact { hhelper with }
  | _ => cases hans

/-- What is posted for another request than the one that waits. -/
theorem Idle.posted_of_ne (h : Idle rid ims (s.answered rid)) (hid : id ≠ rid) :
    s.posted.lookup id = none := by
  have hnone := h.posted id
  rwa [answered, AList.lookup_erase_ne hid] at hnone

theorem Reading.step {x : Event} (h : Reading rid ims s) (htarget : x.target = some id)
    (hp : s.posted.lookup id = some p) (hans : x.answers p = true) (hok : intact → s.Whole x)
    (ht : (s.received x).handle random dataCopyCount now (some p) x = some t) :
    Inv intact random rid ims t := by
  obtain ⟨p', hp', hwaits, hidle⟩ | ⟨i, r, hi, hr, hhelper, hp', hidle⟩ := h
  · have hid : id = rid := by
      by_contra hne
      rw [hidle.posted_of_ne hne] at hp
      cases hp
    rw [hid, hp'] at hp
    rw [← Option.some.inj hp] at hans ht
    exact hidle.mainStep hwaits (hid ▸ htarget) hans hok ht
  · have hid : id = i := by
      by_contra hne
      have hnone := hidle.posted id
      rw [eraseRequest, answered, AList.lookup_erase_ne hne, hp] at hnone
      cases hnone
    rw [hid, hp'] at hp
    rw [← Option.some.inj hp] at hans ht
    exact hidle.helperStep hi hr hhelper (hid ▸ htarget) hans hok ht

/-- Other requests move the counter. -/
theorem Reading.counter (h : Reading rid ims s) (n : ID32) :
    Reading rid ims { s with requestCounter := n } := by
  obtain ⟨p, hposted, hp, hidle⟩ | ⟨i, r, hi, hr, hhelper, hposted, hidle⟩ := h
  · exact .main p hposted hp { hidle with }
  · exact .helper i r hi hr hhelper hposted { hidle with }

/-- **Step lemma.** -/
theorem Inv.step {x : Event × ℕ} (h : Inv intact random rid ims s) (he : s.Possible x.1)
    (hok : intact → s.Whole x.1) (ht : s.step random dataCopyCount x = some t) :
    Inv intact random rid ims t := by
  obtain hreading | hunder := h
  · obtain ⟨x, now⟩ := x
    rw [Copying.step] at ht
    dsimp only at he hok ht
    cases htarget : x.target with
    | none =>
      cases x with
      | elsewhere n =>
        rw [← Option.some.inj ht]
        exact .inl (hreading.counter n)
      | _ => cases htarget
    | some i =>
      obtain ⟨p, hp, hans⟩ := he i htarget
      rw [htarget, Option.bind_some, hp] at ht
      exact hreading.step htarget hp hans hok ht
  · exact .inr (hunder.step he ht)

/-- A run begins with a request that waits for the storage. -/
theorem inv_start {uuid : UUID} {expireDate : ℕ} {isLocal : Bool} :
    Inv intact random rid ims (start random now rid uuid expireDate isLocal ims) := by
  refine Idle.post ⟨⟨_, AList.lookup_insert _, ?_, rfl⟩, fun i hi => ?_, fun i => ?_,
    AList.lookup_insert _, fun e he => absurd he List.not_mem_nil⟩ (.inl rfl) trivial
  · exact ⟨⟨rfl, rfl, fun heq => RequestState.noConfusion heq⟩, rfl, rfl, rfl⟩
  · rw [setRequest, AList.lookup_insert_ne hi, AList.lookup_empty]
  · exact AList.lookup_empty i

/-- What the invariant says of the log, whatever became of the pieces. -/
theorem Inv.sound (h : Inv intact random rid ims s) : Sound random ims s.log ∧
    (answers s.log = [] ∨ (∃ a b, answers s.log = [.respond ims (.copySucceeded a b)]) ∨
      ∃ a err, answers s.log = [.respond ims (.copyFailed a err)]) ∧
    (intact → ∀ c, Saved c s.log → IsCopy random s.log c.master) := by
  obtain hreading | hunder := h
  · have hearly : ∀ e ∈ s.log, e.Early := by
      obtain ⟨_, _, _, hidle⟩ | ⟨_, _, _, _, _, _, hidle⟩ := hreading
      · exact hidle.early
      · exact hidle.early
    have hnone := untouched hearly
    exact ⟨hnone.sound random ims, .inl hnone.answers_eq, fun _ c hc => absurd hc (hnone.saved c)⟩
  · refine ⟨hunder.sound, ?_, hunder.saved⟩
    obtain hopen | hclosed := hunder.phase
    · exact .inl hopen.quiet
    · exact .inr hclosed.once

/-- The responses and the deletions are as they should be in every run, also where the asking for
the pieces is broken off. -/
theorem sound_of_run {uuid : UUID} {expireDate : ℕ} {isLocal : Bool} {es : List (Event × ℕ)}
    (hpossible : Run.Along (Copying.step random dataCopyCount) (fun s e => s.Possible e.1)
      (start random now rid uuid expireDate isLocal ims) es)
    (hrun : Run.run (Copying.step random dataCopyCount)
      (start random now rid uuid expireDate isLocal ims) es = some t) :
    Sound random ims t.log ∧
      (answers t.log = [] ∨ (∃ a b, answers t.log = [.respond ims (.copySucceeded a b)]) ∨
        ∃ a err, answers t.log = [.respond ims (.copyFailed a err)]) := by
  have hinv : Inv False random rid ims t :=
    Run.invariant_of_run _ (fun _ _ _ h he ht => h.step he False.elim ht) inv_start hpossible hrun
  exact ⟨hinv.sound.1, hinv.sound.2.1⟩

/-- **Every copy is lawful** while no answer breaks off the asking for its pieces, in whatever order
the answers come. -/
theorem copy_lawful (random : ℕ → UUID) (dataCopyCount : UInt16) (now : ℕ) (id : ID32) (uuid : UUID)
    (expireDate : ℕ) (isLocal : Bool) (ims : ID32) (es : List (Event × ℕ)) (t : Copying)
    (hok : Run.Along (Copying.step random dataCopyCount) (fun s e => s.Possible e.1 ∧ s.Whole e.1)
      (start random now id uuid expireDate isLocal ims) es)
    (hrun : Run.run (Copying.step random dataCopyCount)
      (start random now id uuid expireDate isLocal ims) es = some t) :
    Lawful random ims t.log := by
  have hinv : Inv True random id ims t :=
    Run.invariant_of_run _ (fun _ _ _ h he ht => h.step he.1 (fun _ => he.2) ht) inv_start hok hrun
  obtain ⟨hsound, honce, hsaved⟩ := hinv.sound
  exact ⟨hsaved trivial, honce, hsound.succeeded, hsound.told, hsound.undone⟩

/-- An object of two pieces: one is copied in the storage, the other by a peer only. -/
def twoPieces : List (Event × ℕ) :=
  [(.storageAck 0, 0),
    (.storageGetData 0 (some ⟨some 5, "text/plain", none, some [(some 10, ⟨0, 2, none⟩),
      (some 11, ⟨2, 3, none⟩)]⟩) none, 0),
    (.storageNack 1, 0), (.storageCopySucceeded 2, 0), (.routerCopySucceeded 1, 0),
    (.routerCopySucceeded 1, 0), (.storageSaveConfirm 0, 0), (.routerCancel 2, 0)]

theorem copy_lawful_twoPieces : ∃ t, Run.run (Copying.step (BitVec.ofNat 128) 3)
    (start (BitVec.ofNat 128) 0 0 5 0 true 9) twoPieces = some t ∧
      Lawful (BitVec.ofNat 128) 9 t.log ∧ answers t.log = [.respond 9 (.copySucceeded 5 0)] := by
  obtain ⟨t, hrun, hanswers⟩ : ∃ t, Run.run (Copying.step (BitVec.ofNat 128) 3)
      (start (BitVec.ofNat 128) 0 0 5 0 true 9) twoPieces = some t ∧
        answers t.log = [.respond 9 (.copySucceeded 5 0)] := ⟨_, rfl, rfl⟩
  exact ⟨t, hrun, copy_lawful _ 3 0 0 5 0 true 9 twoPieces t (by decide) hrun, hanswers⟩

/-- An object of two pieces, the second of which has a name that is no uuid. -/
def malformed : Master :=
  ⟨some 5, "text/plain", none, some [(some 10, ⟨0, 2, none⟩), (none, ⟨2, 3, none⟩)]⟩

/-- **A copy that is broken off** reports its failure, and saves a new master object with the pieces
that were asked for by then. -/
theorem not_copy_lawful : ¬ ∀ (random : ℕ → UUID) (dataCopyCount : UInt16) (now : ℕ) (id : ID32)
    (uuid : UUID) (expireDate : ℕ) (isLocal : Bool) (ims : ID32) (es : List (Event × ℕ))
    (t : Copying),
    Run.Along (Copying.step random dataCopyCount) (fun s e => s.Possible e.1)
      (start random now id uuid expireDate isLocal ims) es →
    Run.run (Copying.step random dataCopyCount)
      (start random now id uuid expireDate isLocal ims) es = some t →
    Lawful random ims t.log := by
  intro h
  obtain ⟨t, m, hrun, hlog⟩ : ∃ t m, Run.run (Copying.step (BitVec.ofNat 128) 3)
      (start (BitVec.ofNat 128) 0 0 5 0 true 9)
      [(.storageAck 0, 0), (.storageGetData 0 (some malformed) none, 0),
        (.storageCopySucceeded 1, 0)] = some t ∧
      t.log = [.copyRouter 1 10 1, .saveStorage 0 0 (some (.plain m)), .pieceCopied 1 1,
        .respond 9 (.copyFailed 5 "Failed to copy."), .failed, .copyStorage 1 10 1,
        .gotMaster malformed, .getStorage 0 5, .lookUp 0 5] := ⟨_, _, rfl, rfl⟩
  have hsaved : Saved (.plain m) t.log := by
    rw [hlog]
    exact ⟨0, 0, .inl (List.mem_cons_of_mem _ List.mem_cons_self)⟩
  obtain ⟨old, k, n, hgot, hcopy⟩ :=
    (h (BitVec.ofNat 128) 3 0 0 5 0 true 9 _ t (by decide) hrun).saved _ hsaved
  have hold : old = malformed := by
    rw [hlog] at hgot
    simpa using hgot
  obtain ⟨us, hus, -⟩ := hcopy.pieces
  rw [hold, malformed, Option.some_inj] at hus
  -- every name of a piece that was copied is a uuid
  have hname : (none, ⟨2, 3, none⟩) ∈ us.map fun x : UUID × Piece => (some x.1, x.2) := by
    rw [← hus]
    exact List.mem_cons_of_mem _ List.mem_cons_self
  obtain ⟨x, -, hx⟩ := List.mem_map.mp hname
  exact Option.some_ne_none x.1 (Prod.mk.inj hx).1

end Copying

end Metax
