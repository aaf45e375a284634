import Metax.Router.Change

/-!
# The four containers agree

The timeline holds one pointer for each stored tender, and an entry of `m_id_tenders` leads to a
stored tender that has its key as request id. Two kinds of steps break this. A new tender whose
announcement does not parse is stored before the exception and gets no pointer. And a refusal may
hit the wrong tender, when a tender and a synchronization have the same id. All other
steps keep the containers in agreement.

`Change.sound` shows this change by change. A run keeps the agreement if each of its steps meets
`TablesCondition` (`tables_agree`), which is about the input and the containers it meets: nothing is
asked of a message that opens no tender, nor of a refusal that ends its tender.
-/

namespace Metax

namespace Router

namespace Tables

variable {T : Tables} {p q : Pointer} {t t' : Tender} {k : ID32} {i : UUID}

/-- The containers agree. -/
structure Consistent (T : Tables) : Prop where
  timeline : ∀ p, T.timeline.count p = if (T.deref p).isSome then 1 else 0
  ids : ∀ k i, T.idTenders.lookup k = some i →
    ∃ p t, p.id = i ∧ T.deref p = some t ∧ t.requestId = k

/-- What carries the agreement through a run. -/
structure Sound (T : Tables) : Prop extends T.Keyed, T.Consistent where
  key : ∀ p t, T.deref p = some t → t.tenderId = p.id

/-- A write to one pointer is seen through that pointer only. -/
theorem deref_assign : (T.assign p t).deref q = if q = p then some t else T.deref q := by
  cases p with
  | tender i =>
    cases q with
    | tender j => simp [assign, deref, Ledger.lookup_insert_ite]
    | syncTender j => simp [assign, deref]
  | syncTender i =>
    cases q with
    | tender j => simp [assign, deref]
    | syncTender j => simp [assign, deref, Ledger.lookup_insert_ite]

@[simp]
theorem deref_insertId : (T.insertId k i).deref q = T.deref q := by
  cases q <;> rfl

@[simp]
theorem deref_pushTimeline : (T.pushTimeline p).deref q = T.deref q := by
  cases q <;> rfl

/-- A tender is found under its own id, so its pointer is the one that is removed. -/
theorem deref_remove (h : t.tenderId = p.id) :
    (T.remove p t).deref q = if q = p then none else T.deref q := by
  cases p with
  | tender i =>
    change t.tenderId = i at h
    cases q with
    | tender j => simp [remove, deref, Pointer.isSync, h, Ledger.lookup_erase_ite]
    | syncTender j => simp [remove, deref, Pointer.isSync]
  | syncTender i =>
    change t.tenderId = i at h
    cases q with
    | tender j => simp [remove, deref, Pointer.isSync]
    | syncTender j => simp [remove, deref, Pointer.isSync, h, Ledger.lookup_erase_ite]

@[simp]
theorem assign_timeline : (T.assign p t).timeline = T.timeline := by
  cases p <;> rfl

@[simp]
theorem assign_idTenders : (T.assign p t).idTenders = T.idTenders := by
  cases p <;> rfl

/-- A new request is the only one with a new tender. -/
theorem lookup_insertId {j : UUID} {l : ID32} (h : (T.insertId k i).idTenders.lookup l = some j) :
    T.idTenders.lookup l = some j ∨ l = k ∧ j = i := by
  rw [insertId] at h
  dsimp only at h
  split_ifs at h with hsome
  · exact .inl h
  · obtain ⟨hl, rfl⟩ | ⟨-, h⟩ := Ledger.eq_or_of_lookup_insert h
    · exact .inr ⟨hl, rfl⟩
    · exact .inl h

theorem deref_idTenders (ids : Ledger.Table ID32 UUID) :
    ({ T with idTenders := ids } : Tables).deref q = T.deref q := by
  cases q <;> rfl

/-- The null id is not used. -/
theorem ne_null (hne : p.id ≠ 0) : p ≠ .tender 0 := by
  rintro rfl
  exact hne rfl

/-- A tender goes into the container its command says. -/
theorem Keyed.assign (h : T.Keyed) (hne : p ≠ .tender 0) (hcmd : isSyncCommand t.cmd = p.isSync) :
    (T.assign p t).Keyed := by
  constructor
  · have hnull := deref_assign (T := T) (p := p) (t := t) (q := .tender 0)
    rw [if_neg hne.symm] at hnull
    exact hnull.trans h.null
  · intro q t' ht'
    rw [deref_assign] at ht'
    split_ifs at ht' with hq
    · obtain rfl := Option.some.inj ht'
      rw [hq, hcmd]
    · exact h.sync q t' ht'

/-- Only what is stored matters. -/
theorem Keyed.of_deref {T' : Tables} (h : T.Keyed)
    (hle : ∀ q t, T'.deref q = some t → T.deref q = some t) : T'.Keyed := by
  constructor
  · cases hnull : T'.tenders.lookup 0 with
    | none => rfl
    | some t => exact absurd (h.null.symm.trans (hle (.tender 0) t hnull)) (by simp)
  · exact fun q t ht => h.sync q t (hle q t ht)

/-- No stored tender has the null id. -/
theorem Keyed.id_ne {t : Tender} (h : T.Keyed) (ht : T.tenders.lookup i = some t) : i ≠ 0 := by
  rintro rfl
  rw [h.null] at ht
  cases ht

/-- Nor any pointer that leads to one. -/
theorem Keyed.ne_null {t : Tender} (h : T.Keyed) (ht : T.deref p = some t) : p ≠ .tender 0 := by
  rintro rfl
  rw [deref, h.null] at ht
  cases ht

/-- What is left after a removal was there before. -/
theorem deref_of_remove (h : (T.remove p t).deref q = some t') : T.deref q = some t' := by
  cases p with
  | tender i =>
    cases q with
    | tender j =>
      have hj : (T.tenders.erase t.tenderId).lookup j = some t' := h
      obtain ⟨-, hj⟩ := Ledger.of_lookup_erase hj
      exact hj
    | syncTender j => exact h
  | syncTender i =>
    cases q with
    | tender j => exact h
    | syncTender j =>
      have hj : (T.syncTenders.erase t.tenderId).lookup j = some t' := h
      obtain ⟨-, hj⟩ := Ledger.of_lookup_erase hj
      exact hj

/-! ### What the changes keep -/

/-- A new tender, with its entries. -/
theorem Sound.create (h : T.Sound) (hnull : p.id ≠ 0) (hkey : t.tenderId = p.id)
    (hcmd : isSyncCommand t.cmd = p.isSync) (hnew : T.deref p = none) (hid : t.requestId = k) :
    (((T.assign p t).insertId k p.id).pushTimeline p).Sound := by
  have hderef : ∀ q, (((T.assign p t).insertId k p.id).pushTimeline p).deref q =
      if q = p then some t else T.deref q := by
    intro q
    rw [deref_pushTimeline, deref_insertId, deref_assign]
  constructor
  · constructor
    · have hnull' := hderef (.tender 0)
      rw [if_neg (fun hp => hnull (by rw [← hp]; rfl))] at hnull'
      exact hnull'.trans h.null
    · intro q t' ht'
      rw [hderef] at ht'
      split_ifs at ht' with hq
      · obtain rfl := Option.some.inj ht'
        rw [hq, hcmd]
      · exact h.sync q t' ht'
  · constructor
    · intro q
      rw [hderef, pushTimeline, insertId, assign_timeline, List.count_append, h.timeline q]
      by_cases hq : q = p
      · rw [if_pos hq, hq, hnew]
        simp
      · rw [if_neg hq]
        simp [Ne.symm hq]
    · intro l j hl
      rcases lookup_insertId hl with hold | ⟨rfl, rfl⟩
      · rw [assign_idTenders] at hold
        obtain ⟨q, t', hq, ht', hrid⟩ := h.ids l j hold
        refine ⟨q, t', hq, ?_, hrid⟩
        rw [hderef, if_neg (fun hqp => ?_)]
        · exact ht'
        · rw [hqp, hnew] at ht'
          cases ht'
      · exact ⟨p, t, rfl, by rw [hderef, if_pos rfl], hid⟩
  · intro q t' ht'
    rw [hderef] at ht'
    split_ifs at ht' with hq
    · obtain rfl := Option.some.inj ht'
      rw [hq, hkey]
    · exact h.key q t' ht'

/-- A write to a tender that keeps its id, its command's kind and its request. -/
theorem Sound.update {t' : Tender} (h : T.Sound) (ht : T.deref p = some t)
    (hkey : t'.tenderId = t.tenderId) (hcmd : t'.cmd = t.cmd) (hrid : t'.requestId = t.requestId) :
    (T.assign p t').Sound := by
  constructor
  · constructor
    · have hnull := deref_assign (T := T) (p := p) (t := t') (q := .tender 0)
      split_ifs at hnull with hp
      · rw [← hp] at ht
        exact absurd (h.null.symm.trans ht) (by simp)
      · exact hnull.trans h.null
    · intro q t'' ht''
      rw [deref_assign] at ht''
      split_ifs at ht'' with hq
      · obtain rfl := Option.some.inj ht''
        rw [hq, hcmd]
        exact h.sync p t ht
      · exact h.sync q t'' ht''
  · constructor
    · intro q
      rw [deref_assign, assign_timeline, h.timeline q]
      by_cases hq : q = p
      · rw [hq, ht]
        simp
      · rw [if_neg hq]
    · intro l j hl
      rw [assign_idTenders] at hl
      obtain ⟨q, t'', hq, ht'', hrid'⟩ := h.ids l j hl
      by_cases hqp : q = p
      · refine ⟨q, t', hq, by rw [deref_assign, if_pos hqp], ?_⟩
        rw [hqp, ht] at ht''
        obtain rfl := Option.some.inj ht''
        rw [hrid, hrid']
      · exact ⟨q, t'', hq, by rw [deref_assign, if_neg hqp]; exact ht'', hrid'⟩
  · intro q t'' ht''
    rw [deref_assign] at ht''
    split_ifs at ht'' with hq
    · obtain rfl := Option.some.inj ht''
      rw [hq, hkey]
      exact h.key p t ht
    · exact h.key q t'' ht''

/-- The end of a tender. -/
theorem Sound.remove (h : T.Sound) (ht : T.deref p = some t) : (T.remove p t).Sound := by
  have hderef : ∀ q, (T.remove p t).deref q = if q = p then none else T.deref q :=
    fun q => deref_remove (h.key p t ht)
  constructor
  · constructor
    · have hnull := hderef (.tender 0)
      split_ifs at hnull with hp
      · exact hnull
      · exact hnull.trans h.null
    · intro q t' ht'
      rw [hderef] at ht'
      split_ifs at ht'
      exact h.sync q t' ht'
  · constructor
    · intro q
      rw [hderef, Tables.remove, List.count_erase, h.timeline q]
      by_cases hq : q = p
      · rw [if_pos hq, hq, ht]
        simp
      · rw [if_neg hq]
        simp [Ne.symm hq]
    · intro l j hl
      rw [Tables.remove] at hl
      dsimp only at hl
      obtain ⟨hk, hl⟩ := Ledger.of_lookup_erase hl
      obtain ⟨q, t', hq, ht', hrid⟩ := h.ids l j hl
      refine ⟨q, t', hq, ?_, hrid⟩
      rw [hderef, if_neg (fun hqp => ?_)]
      · exact ht'
      · -- the tender that goes has another request id than the one looked up
        rw [hqp, ht] at ht'
        obtain rfl := Option.some.inj ht'
        exact hk hrid.symm
  · intro q t' ht'
    rw [hderef] at ht'
    split_ifs at ht'
    exact h.key q t' ht'

/-- A refused tender loses its request, and the request its entry. -/
theorem Sound.refuse (h : T.Sound) (ht : T.tenders.lookup i = some t)
    (hright : t.requestId = k ∨ T.idTenders.lookup t.requestId ≠ some i) :
    ({ T.assign (.tender i) { t with requestId := noRequest } with
      idTenders := T.idTenders.erase k } : Tables).Sound := by
  have hderef : ∀ q, ({ T.assign (.tender i) { t with requestId := noRequest } with
      idTenders := T.idTenders.erase k } : Tables).deref q =
      if q = .tender i then some { t with requestId := noRequest } else T.deref q := by
    intro q
    rw [deref_idTenders, deref_assign]
  constructor
  · constructor
    · have hnull := hderef (.tender 0)
      split_ifs at hnull with hi
      · have hi' : (0 : UUID) = i := by simpa using hi
        exact absurd ((hi' ▸ h.null).symm.trans ht) (by simp)
      · exact hnull.trans h.null
    · intro q t' ht'
      rw [hderef] at ht'
      split_ifs at ht' with hq
      · obtain rfl := Option.some.inj ht'
        rw [hq]
        exact h.sync (.tender i) t ht
      · exact h.sync q t' ht'
  · constructor
    · intro q
      rw [hderef]
      dsimp only
      rw [assign_timeline, h.timeline q]
      by_cases hq : q = .tender i
      · rw [if_pos hq, hq]
        simp [deref, ht]
      · rw [if_neg hq]
    · intro l j hl
      dsimp only at hl
      obtain ⟨hlk, hl⟩ := Ledger.of_lookup_erase hl
      obtain ⟨q, t', hq, ht', hrid⟩ := h.ids l j hl
      refine ⟨q, t', hq, ?_, hrid⟩
      rw [hderef, if_neg (fun hqi => ?_)]
      · exact ht'
      · rw [hqi] at ht' hq
        obtain rfl := Option.some.inj (ht.symm.trans ht')
        change i = j at hq
        rw [← hrid, ← hq] at hl
        rcases hright with h' | h'
        · exact hlk (hrid.symm.trans h')
        · exact h' hl
  · intro q t' ht'
    rw [hderef] at ht'
    split_ifs at ht' with hq
    · obtain rfl := Option.some.inj ht'
      rw [hq]
      exact h.key (.tender i) t ht
    · exact h.key q t' ht'

end Tables

/-! ### Runs -/

/-- The message opens a new tender. -/
def Tables.Opens (T : Tables) (d : RouterData) : Prop :=
  if isSyncCommand d.cmd then T.syncTenders.lookup d.tenderId = none
  else isInvalidNewTender d.cmd = false ∧ T.tenders.lookup d.tenderId = none

instance (T : Tables) (d : RouterData) : Decidable (T.Opens d) := by
  unfold Tables.Opens
  exact inferInstance

/-- The condition on a step: a message that opens a tender has a payload, and a refusal of a
request hits the tender of that request. -/
def TablesCondition (s : State) (e : Event) : Prop :=
  match e with
  | .link inp fresh =>
    inp.cmd = .receivedData → s.Opens (s.message (.link inp fresh)) →
      (inp.package.payload (s.message (.link inp fresh)).headerSize).isOk
  | e => ∀ k ∈ e.refused, ∀ i ∈ s.idTenders.lookup k, ∀ t ∈ s.tenders.lookup i, t.hopId ≠ 1 →
      t.requestId = k ∨ s.idTenders.lookup t.requestId ≠ some i

instance (s : State) (e : Event) : Decidable (TablesCondition s e) := by
  unfold TablesCondition
  cases e <;> exact inferInstance

/-- No announcement is one of a synchronization. -/
theorem isSyncCommand_of_valid {cmd : Command} (h : isInvalidNewTender cmd = false) :
    isSyncCommand cmd = false := by
  cases hsync : isSyncCommand cmd with
  | false => rfl
  | true =>
    simp only [isSyncCommand, List.mem_cons, List.not_mem_nil, or_false, decide_eq_true_eq] at hsync
    rcases hsync with rfl | rfl <;> cases h

/-- What a handler writes to a stored tender is none of these fields. -/
theorem Update.keeps {maxHops : UInt16} {e : Event} {i : UUID} {t t' : Tender}
    (h : Update maxHops e i t t') :
    t'.tenderId = t.tenderId ∧ t'.cmd = t.cmd ∧ t'.requestId = t.requestId ∧ t'.typ = t.typ := by
  cases h <;> exact ⟨rfl, rfl, rfl, rfl⟩

/-- The keys are as they should be after every change. -/
theorem Change.keyed {T T' : Tables} {maxHops : UInt16} {rid : ID32} {d : RouterData} {e : Event}
    (h : Change T maxHops rid d e T') (hT : T.Keyed) : T'.Keyed := by
  cases h with
  | none => exact hT
  | announced inp fresh t he ht hid hnew =>
    have hassign : (T.assign (.tender fresh.1) t).Keyed :=
      hT.assign (Tables.ne_null fresh.2) (by rw [ht.cmd]; exact isSyncCommand_of_valid ht.valid)
    exact hassign.of_deref fun q t' ht' => by
      rwa [Tables.deref_pushTimeline, Tables.deref_insertId] at ht'
  | opened p inp fresh t he hin ht hd hne hkey hcmd hvalid hnew =>
    have hassign : (T.assign p t).Keyed := hT.assign (Tables.ne_null hne) hcmd
    exact hassign.of_deref fun q t' ht' => by
      rwa [Tables.deref_pushTimeline, Tables.deref_insertId] at ht'
  | orphaned p inp fresh t he hin ht hd hne hkey hcmd hvalid hnew hbad =>
    exact hT.assign (Tables.ne_null hne) hcmd
  | updated i t t' ht h =>
    refine hT.assign (p := .tender i) (hT.ne_null ht) ?_
    rw [h.keeps.2.1]
    exact hT.sync (.tender i) t ht
  | resynced i t ht =>
    exact hT.assign (p := .syncTender i) (hT.ne_null ht) (hT.sync (.syncTender i) t ht)
  | removed p t ht hp hcmd => exact hT.of_deref fun q t' ht' => Tables.deref_of_remove ht'
  | refused k i t he hid ht htyp hprs hhop =>
    have hassign : (T.assign (.tender i) { t with requestId := noRequest }).Keyed :=
      hT.assign (hT.ne_null ht) (hT.sync (.tender i) t ht)
    exact hassign.of_deref fun q t' ht' => by rwa [Tables.deref_idTenders] at ht'

/-- Every step keeps the keys as they should be. -/
theorem keyed_step {s s' : State} {e : Event} (hs : s.Keyed) (hstep : step s e = some s') :
    s'.Keyed :=
  (step_change hs hstep).keyed hs

/-- Each change keeps the agreement; the condition is used for the orphan and for the refusal. -/
theorem Change.sound {s : State} {e : Event} {T' : Tables}
    (h : Change s.toTables s.maxHops s.requestCounter (s.message e) e T') (hs : s.Sound)
    (hok : TablesCondition s e) : T'.Sound := by
  cases h with
  | none => exact hs
  | announced inp fresh t he ht hid hnew =>
    exact hs.create fresh.2 ht.tenderId
      (by rw [ht.cmd]; exact isSyncCommand_of_valid ht.valid) hnew ht.requestId
  | opened p inp fresh t he hin ht hd hne hkey hcmd hvalid hnew =>
    exact hs.create hne hkey hcmd hnew ht.requestId
  | orphaned p inp fresh t he hin ht hd hne hkey hcmd hvalid hnew hbad =>
    -- excluded: the message opens a tender, so its payload parses
    subst he
    have hopens : s.Opens (s.message (.link inp fresh)) := by
      rw [Tables.Opens, ← hd, hkey, hcmd]
      cases p with
      | tender i => exact ⟨hvalid rfl, hnew⟩
      | syncTender i => exact hnew
    have hpayload := hok hin hopens
    cases hp : inp.package.payload (s.message (.link inp fresh)).headerSize with
    | error x =>
      rw [hp] at hpayload
      cases hpayload
    | ok q => exact absurd hp (hbad q)
  | updated i t t' ht h =>
    obtain ⟨hkey, hcmd, hrid, -⟩ := h.keeps
    exact hs.update (p := .tender i) ht hkey hcmd hrid
  | resynced i t ht => exact hs.update (p := .syncTender i) ht rfl rfl rfl
  | removed p t ht hp hcmd => exact hs.remove ht
  | refused k i t he hid ht htyp hprs hhop =>
    refine hs.refuse ht ?_
    have hright : ∀ k ∈ e.refused, ∀ i ∈ s.idTenders.lookup k, ∀ t ∈ s.tenders.lookup i,
        t.hopId ≠ 1 → t.requestId = k ∨ s.idTenders.lookup t.requestId ≠ some i := by
      cases e <;> first | exact hok | cases he
    exact hright k he i hid t ht hhop

/-- **Step lemma.** -/
theorem sound_step {s s' : State} {e : Event} (hs : s.Sound) (hok : TablesCondition s e)
    (hstep : step s e = some s') : s'.Sound :=
  (step_change hs.toKeyed hstep).sound hs hok

/-- They are so at the start. -/
theorem keyed_init : init.Keyed := ⟨rfl, fun p t ht => by cases p <;> cases ht⟩

/-- The keys need no condition on the run. -/
theorem keyed_run {es : List Event} {s : State} (hrun : Run.run step init es = some s) : s.Keyed :=
  Run.invariant_of_run_all (fun s => s.Keyed) (fun _ _ _ hs hstep => keyed_step hs hstep) keyed_init
    hrun

/-- Empty containers agree. -/
theorem sound_init : init.Sound := by
  constructor
  · exact keyed_init
  · exact ⟨fun p => by cases p <;> rfl, fun k i hid => by cases hid⟩
  · intro p t ht
    cases p <;> cases ht

/-- **Run lemma.** -/
theorem sound_run {es : List Event} {s : State} (hok : Run.Along step TablesCondition init es)
    (hrun : Run.run step init es = some s) : s.Sound :=
  Run.invariant_of_run (fun s => s.Sound) (fun _ _ _ hs hok hstep => sound_step hs hok hstep)
    sound_init hok hrun

/-- **The containers agree** after every run whose new tenders have a payload and whose refusals
hit the tender they name. -/
theorem tables_agree (es : List Event) (s : State) (hok : Run.Along step TablesCondition init es)
    (hrun : Run.run step init es = some s) : s.Consistent :=
  (sound_run hok hrun).toConsistent

/-- A request of the kernel, one of a peer, and the end of the first. -/
def twoTenders : List Event :=
  [.config 3,
    .kernel { KernelPackage.new with requestId := 7, cmd := .get } ⟨5, by decide⟩,
    .link ⟨.receivedData, {1}, ⟨RouterData.serialize { RouterData.new with
      tenderId := 9, cmd := .save, hopId := 1 } .empty, []⟩⟩ ⟨6, by decide⟩,
    .timeout (.tender 5)]

/-- Both tenders open and one expires, and the containers agree. -/
theorem tables_agree_twoTenders : (Run.run step init twoTenders).isSome ∧
    ∀ s ∈ Run.run step init twoTenders, s.Consistent :=
  ⟨by decide +kernel, fun s hs => tables_agree twoTenders s (by decide +kernel) hs⟩

/-- A request of a peer that ends with its header. -/
def headerOnly : Event :=
  .link ⟨.receivedData, {1}, ⟨RouterData.encodeHeader { RouterData.new with
    tenderId := 9, cmd := .get, hopId := 2 }, []⟩⟩ ⟨6, by decide⟩

/-- It leaves a tender that never expires. -/
theorem tables_disagree : ¬ ∀ es, ∀ s ∈ Run.run step init es, s.Consistent := by
  intro h
  have hcount : ∀ s ∈ Run.run step init [headerOnly],
      s.timeline.count (.tender 9) = if (s.deref (.tender 9)).isSome then 1 else 0 :=
    fun s hs => (h _ s hs).timeline _
  revert hcount
  decide +kernel

end Router

end Metax
