import Metax.Deletion.Step

/-!
# What a delete request waits for

Until the master object is read there is one thing the request waits for: an answer to itself or to
its helper (`Reading`). From then on the request and each piece wait for an answer of their own
until the router cancels (`Under`), and what is not yet known to be deleted is still counted in
`units` (`Owed`). The request is reported when nothing is left in `units`, or when it ends.

`Common` is what holds at any time once the request has been made, and `Idle` and `Spreading` are
the two states within a step: nothing has happened yet, and the pieces are being asked for.
-/

namespace Metax

namespace Deletion

variable {dataCopyCount : ℕ} {s t : Deletion} {rid id ims : ID32} {uuid : UUID} {keepChunks : Bool}
  {r : Request} {e : Entry} {l : List Entry} {units : Finset ID32}

/-! ### The log -/

/-- The entry is a final response. -/
def Entry.isAnswer : Entry → Bool
  | .respond _ _ => true
  | _ => false

/-- The final responses. -/
def answers (l : List Entry) : List Entry := l.filter Entry.isAnswer

/-- A copy of the object was deleted, the master object was read unless the chunks are kept, and a
copy of every piece of it was deleted. -/
structure Covered (keepChunks : Bool) (rid : ID32) (l : List Entry) : Prop where
  object : .copyDeleted rid ∈ l
  read : keepChunks = false → ∃ m, .gotMaster m ∈ l
  pieces : ∀ m, .gotMaster m ∈ l → ∀ us ∈ m.pieces, ∀ n ∈ us,
    ∃ u ∈ n, ∃ id, .deleteStorage id u ∈ l ∧ .copyDeleted id ∈ l

/-- The same, but for what is still counted in `units`. -/
structure Owed (keepChunks : Bool) (units : Finset ID32) (l : List Entry) : Prop where
  read : keepChunks = false → ∃ m, .gotMaster m ∈ l
  pieces : ∀ m, .gotMaster m ∈ l → ∀ us ∈ m.pieces, ∀ n ∈ us,
    ∃ u ∈ n, ∃ id, .deleteStorage id u ∈ l ∧ (.copyDeleted id ∈ l ∨ id ∈ units)

/-- `deleted` was sent when everything was covered. -/
def Sound (keepChunks : Bool) (rid : ID32) (l : List Entry) : Prop :=
  ∀ i u t, .respond i (.deleted u) :: t <:+ l → Covered keepChunks rid t

/-- When no unit is left nothing is owed. -/
theorem Owed.covered (h : Owed keepChunks units l) (hunits : units = ∅)
    (hrid : .copyDeleted rid ∈ l) : Covered keepChunks rid l where
  object := hrid
  read := h.read
  pieces m hm us hus n hn := by
    obtain ⟨u, hu, id, hid, hdeleted | hcounted⟩ := h.pieces m hm us hus n hn
    · exact ⟨u, hu, id, hid, hdeleted⟩
    · rw [hunits] at hcounted
      exact absurd hcounted (Finset.notMem_empty id)

/-- What was deleted stays deleted; only a master object makes new debts. -/
theorem Owed.cons (h : Owed keepChunks units l) (he : ∀ m, e ≠ .gotMaster m) :
    Owed keepChunks units (e :: l) where
  read hkeep := (h.read hkeep).imp fun m hm => List.mem_cons_of_mem e hm
  pieces m hm us hus n hn := by
    obtain rfl | hm := List.mem_cons.mp hm
    · exact absurd rfl (he m)
    · obtain ⟨u, hu, id, hid, hgone⟩ := h.pieces m hm us hus n hn
      exact ⟨u, hu, id, List.mem_cons_of_mem e hid, hgone.imp_left (List.mem_cons_of_mem e)⟩

/-- A unit is crossed out whose copy was deleted. -/
theorem Owed.erase (h : Owed keepChunks units l) (hid : .copyDeleted id ∈ l) :
    Owed keepChunks (units.erase id) l where
  read := h.read
  pieces m hm us hus n hn := by
    obtain ⟨u, hu, i, hi, hgone⟩ := h.pieces m hm us hus n hn
    refine ⟨u, hu, i, hi, ?_⟩
    by_cases heq : i = id
    · exact .inl (heq ▸ hid)
    · exact hgone.imp_right fun hcounted => Finset.mem_erase.mpr ⟨heq, hcounted⟩

/-- The order matters for the report only. -/
theorem Sound.cons (h : Sound keepChunks rid l) (he : ∀ i u, e ≠ .respond i (.deleted u)) :
    Sound keepChunks rid (e :: l) := by
  intro i u t ht
  obtain heq | ht := List.suffix_cons_iff.mp ht
  · exact absurd (List.cons.inj heq).1.symm (he i u)
  · exact h i u t ht

/-- The report, made when everything was covered. -/
theorem Sound.deleted (h : Sound keepChunks rid l) (hl : Covered keepChunks rid l) {i : ID32}
    {u : UUID} : Sound keepChunks rid (.respond i (.deleted u) :: l) := by
  intro j v t ht
  obtain heq | ht := List.suffix_cons_iff.mp ht
  · exact (List.cons.inj heq).2 ▸ hl
  · exact h j v t ht

/-- A log in which nothing has happened. -/
def Entry.Quiet : Entry → Prop
  | .respond _ _ | .gotMaster _ | .copyDeleted _ => False
  | _ => True

/-- Nothing has happened, so nothing was answered. -/
theorem answers_of_quiet (h : ∀ e ∈ l, e.Quiet) : answers l = [] := by
  refine List.filter_eq_nil_iff.mpr fun e he => ?_
  have hquiet := h e he
  cases e with
  | respond => exact hquiet.elim
  | _ => exact Bool.false_ne_true

/-- Without an answer there is no report to check. -/
theorem sound_of_answers (h : answers l = []) : Sound keepChunks rid l := by
  intro i u t ht
  have hmem : Entry.respond i (.deleted u) ∈ answers l :=
    List.mem_filter.mpr ⟨ht.subset List.mem_cons_self, rfl⟩
  rw [h] at hmem
  cases hmem

/-! ### The requests -/

/-- The request of the IMS. -/
structure Request.IsMain (uuid : UUID) (keepChunks : Bool) (r : Request) : Prop where
  typ : r.typ = .ims
  st : r.st ≠ .requested
  uuid_eq : r.uuid = uuid
  keep : r.keepChunks = keepChunks

/-- A helper, which gets the master object from the router. -/
structure Request.IsHelper (rid : ID32) (r : Request) : Prop where
  typ : r.typ = .ims
  st : r.st = .requested
  parent : r.parentReqId = some rid

/-- The deletion of a piece. -/
structure Request.IsPiece (rid : ID32) (r : Request) : Prop where
  typ : r.typ = .kernel
  parent : r.parentReqId = some rid

/-- A request waits while it deletes, and nothing else does. -/
def Waits (s : Deletion) (id : ID32) : Prop :=
  match s.requests.lookup id with
  | none => s.posted.lookup id = none
  | some r => s.posted.lookup id = some .deleteRouter ∨
    s.posted.lookup id = some .deleteStorage ∧ (r.typ = .ims → r.oldMasterJson ≠ none)

/-- What is true of the requests, the log and the IMS at any time but while there is a helper. -/
structure Common (rid : ID32) (keepChunks : Bool) (ims : ID32) (s : Deletion) : Prop where
  pieces : ∀ id r, id ≠ rid → s.requests.lookup id = some r → r.IsPiece rid
  answered : s.imsReqIds.lookup rid = some ims ∧ answers s.log = [] ∧
      (s.requests.lookup rid).isSome ∨
    s.imsReqIds.lookup rid = none ∧ ∃ a, answers s.log = [.respond ims a]
  sound : Sound keepChunks rid s.log

/-- The delete is under way, or it is over. -/
structure Under (rid : ID32) (uuid : UUID) (keepChunks : Bool) (ims : ID32) (s : Deletion) :
    Prop extends Common rid keepChunks ims s where
  main : ∀ r, s.requests.lookup rid = some r → r.IsMain uuid keepChunks
  owed : ∀ r, s.requests.lookup rid = some r → Owed keepChunks r.units s.log
  object : ∀ r, s.requests.lookup rid = some r → .copyDeleted rid ∈ s.log ∨ rid ∈ r.units ∨
    ∀ id, id ≠ rid → s.requests.lookup id = none

/-- The request alone, which waits for nothing, and nothing has happened yet. -/
structure Idle (rid : ID32) (uuid : UUID) (keepChunks : Bool) (ims : ID32) (s : Deletion) :
    Prop where
  main : ∃ r, s.requests.lookup rid = some r ∧ r.IsMain uuid keepChunks ∧ r.oldMasterJson = none ∧
    r.units = ∅
  alone : ∀ id, id ≠ rid → s.requests.lookup id = none
  posted : ∀ id, s.posted.lookup id = none
  ims_eq : s.imsReqIds.lookup rid = some ims
  quiet : ∀ e ∈ s.log, e.Quiet

/-- The request waits to read the master object, or for its helper to. -/
inductive Reading (rid : ID32) (uuid : UUID) (keepChunks : Bool) (ims : ID32) (s : Deletion) : Prop
  | main (p : Post) (hposted : s.posted.lookup rid = some p)
      (hp : p = .lookUp ∨ p = .getStorage ∨ p = .decrypt ∨ p = .deleteStorage ∧ keepChunks = true)
      (h : Idle rid uuid keepChunks ims (s.answered rid))
  | helper (id : ID32) (r : Request) (hid : id ≠ rid) (hr : s.requests.lookup id = some r)
      (hhelper : r.IsHelper rid) (hposted : s.posted.lookup id = some .getRouter)
      (h : Idle rid uuid keepChunks ims ((s.answered id).eraseRequest id))

/-- **The invariant.** -/
def Inv (rid : ID32) (uuid : UUID) (keepChunks : Bool) (ims : ID32) (s : Deletion) : Prop :=
  Reading rid uuid keepChunks ims s ∨ Under rid uuid keepChunks ims s ∧ ∀ id, s.Waits id

/-! ### What waits -/

/-- A request that is gone must not be waited for. -/
theorem waits_none (hr : s.requests.lookup id = none) :
    s.Waits id ↔ s.posted.lookup id = none := by
  rw [Waits, hr]

/-- One that is there waits for the storage or the router. -/
theorem waits_some (hr : s.requests.lookup id = some r) :
    s.Waits id ↔ s.posted.lookup id = some .deleteRouter ∨
      s.posted.lookup id = some .deleteStorage ∧ (r.typ = .ims → r.oldMasterJson ≠ none) := by
  rw [Waits, hr]

/-- What a request waits for depends on two of its fields only. -/
theorem Waits.congr (h : s.Waits id) (hposted : t.posted.lookup id = s.posted.lookup id)
    (hr : (t.requests.lookup id).map (fun r => (r.typ, r.oldMasterJson)) =
      (s.requests.lookup id).map fun r => (r.typ, r.oldMasterJson)) : t.Waits id := by
  cases hs : s.requests.lookup id with
  | none =>
    rw [hs, Option.map_none, Option.map_eq_none_iff] at hr
    rw [waits_none hs] at h
    rw [waits_none hr, hposted, h]
  | some r =>
    rw [hs, Option.map_some, Option.map_eq_some_iff] at hr
    obtain ⟨q, hq, heq⟩ := hr
    obtain ⟨htyp, hold⟩ := Prod.mk.inj heq
    rw [waits_some hs] at h
    rw [waits_some hq, hposted, htyp, hold]
    exact h

/-- A request that asks the router waits, whatever its type. -/
theorem waits_postRouterDelete (hr : (s.requests.lookup id).isSome) :
    (s.postRouterDeleteRequest dataCopyCount id r).Waits id := by
  obtain ⟨q, hq⟩ := Option.isSome_iff_exists.mp hr
  rw [waits_some (s := s.postRouterDeleteRequest dataCopyCount id r) (r := q) hq]
  exact .inl (AList.lookup_insert _)

/-- A post for one request is none of another's. -/
theorem Waits.post (h : s.Waits id) {i : ID32} (hi : id ≠ i) (p : Post) (e : Entry) :
    (s.post i p e).Waits id :=
  h.congr (AList.lookup_insert_ne hi) rfl

/-- An answer to another request, and a change to another one. -/
theorem Waits.answered (h : s.Waits id) {i : ID32} (hi : id ≠ i) : (s.answered i).Waits id :=
  h.congr (AList.lookup_erase_ne hi) rfl

theorem Waits.setRequest (h : s.Waits id) {i : ID32} (hi : id ≠ i) (r : Request) :
    (s.setRequest i r).Waits id :=
  h.congr rfl (congrArg _ (AList.lookup_insert_ne hi))

theorem Waits.eraseRequest (h : s.Waits id) {i : ID32} (hi : id ≠ i) :
    (s.eraseRequest i).Waits id :=
  h.congr rfl (congrArg _ (AList.lookup_erase_ne hi))

/-! ### What is under way -/

/-- An entry that says nothing new of the delete request. -/
def Entry.Plain : Entry → Prop
  | .respond _ _ | .gotMaster _ => False
  | _ => True

/-- A plain entry is not an answer, has no part in the report, and makes no debts. -/
theorem Entry.Plain.answers (he : e.Plain) : answers (e :: l) = answers l := by
  cases e with
  | respond => exact he.elim
  | _ => rfl

theorem Entry.Plain.sound (he : e.Plain) (h : Sound keepChunks rid l) :
    Sound keepChunks rid (e :: l) :=
  h.cons fun i u heq => by
    rw [heq] at he
    exact he

theorem Entry.Plain.owed (he : e.Plain) (h : Owed keepChunks units l) :
    Owed keepChunks units (e :: l) :=
  h.cons fun m heq => by
    rw [heq] at he
    exact he

/-- The parts of the invariant only look at what is not plain. -/
theorem Common.write (h : Common rid keepChunks ims s) (he : e.Plain) :
    Common rid keepChunks ims (s.write e) where
  pieces := h.pieces
  answered := by
    rw [Deletion.write, he.answers]
    exact h.answered
  sound := he.sound h.sound

theorem Under.write (h : Under rid uuid keepChunks ims s) (he : e.Plain) :
    Under rid uuid keepChunks ims (s.write e) where
  toCommon := h.toCommon.write he
  main := h.main
  owed r hr := he.owed (h.owed r hr)
  object r hr := (h.object r hr).imp_left (List.mem_cons_of_mem e)

/-- Neither does it matter for what is deleted who has been asked. -/
theorem Under.erasePost (h : Under rid uuid keepChunks ims s) (i : ID32) :
    Under rid uuid keepChunks ims (s.answered i) :=
  ⟨⟨h.pieces, h.answered, h.sound⟩, h.main, h.owed, h.object⟩

theorem Under.post (h : Under rid uuid keepChunks ims s) (he : e.Plain) (i : ID32) (p : Post) :
    Under rid uuid keepChunks ims (s.post i p e) :=
  have h := h.write he
  ⟨⟨h.pieces, h.answered, h.sound⟩, h.main, h.owed, h.object⟩

/-- A piece is done with. -/
theorem Under.erasePiece (h : Under rid uuid keepChunks ims s) (hid : id ≠ rid) :
    Under rid uuid keepChunks ims (s.eraseRequest id) := by
  have hmain : (s.eraseRequest id).requests.lookup rid = s.requests.lookup rid :=
    AList.lookup_erase_ne hid.symm
  have hothers : ∀ i r, (s.eraseRequest id).requests.lookup i = some r →
      s.requests.lookup i = some r := by
    intro i r hr
    obtain ⟨-, hr⟩ := Ledger.of_lookup_erase hr
    exact hr
  refine ⟨⟨fun i r hi hr => h.pieces i r hi (hothers i r hr), ?_, h.sound⟩, ?_, ?_, ?_⟩
  · rw [hmain]
    exact h.answered
  · rw [hmain]
    exact h.main
  · rw [hmain]
    exact h.owed
  · intro r hr
    rw [hmain] at hr
    refine (h.object r hr).imp_right (Or.imp_right fun halone i hi => ?_)
    rw [eraseRequest, Ledger.lookup_erase_ite, halone i hi, ite_self]

/-- A request is written back with nothing changed that matters here. -/
structure Request.Same (q r : Request) : Prop where
  typ : q.typ = r.typ
  st : q.st = r.st
  uuid_eq : q.uuid = r.uuid
  keep : q.keepChunks = r.keepChunks
  parent : q.parentReqId = r.parentReqId
  units_eq : q.units = r.units
  master : q.oldMasterJson = r.oldMasterJson

/-- A request that is written back is what it was. -/
theorem Request.IsMain.same (h : r.IsMain uuid keepChunks) {q : Request} (hsame : q.Same r) :
    q.IsMain uuid keepChunks :=
  ⟨hsame.typ.trans h.typ, fun hq => h.st (hsame.st.symm.trans hq), hsame.uuid_eq.trans h.uuid_eq,
    hsame.keep.trans h.keep⟩

theorem Request.IsPiece.same (h : r.IsPiece rid) {q : Request} (hsame : q.Same r) :
    q.IsPiece rid :=
  ⟨hsame.typ.trans h.typ, hsame.parent.trans h.parent⟩

/-- A table is written to at a key that it has. -/
theorem isSome_insert {κ α : Type} [DecidableEq κ] {t : Ledger.Table κ α} {k j : κ} {v : α}
    (hk : (t.lookup k).isSome) : ((t.insert k v).lookup j).isSome = (t.lookup j).isSome := by
  rw [Ledger.lookup_insert_ite]
  split_ifs with h
  · rw [h, hk]
    rfl
  · rfl

/-- The request is written back. -/
theorem Under.setRequest (h : Under rid uuid keepChunks ims s)
    (hr : s.requests.lookup id = some r) {q : Request} (hsame : q.Same r) :
    Under rid uuid keepChunks ims (s.setRequest id q) := by
  have hsome : (s.requests.lookup id).isSome := by
    rw [hr]
    rfl
  have hcases : ∀ i x, (s.setRequest id q).requests.lookup i = some x →
      ∃ y, s.requests.lookup i = some y ∧ (x = y ∨ x.Same y) := by
    intro i x hx
    obtain ⟨hi, rfl⟩ | ⟨hi, hx⟩ := Ledger.eq_or_of_lookup_insert hx
    · exact ⟨r, hi ▸ hr, .inr hsame⟩
    · exact ⟨x, hx, .inl rfl⟩
  refine ⟨⟨fun i x hi hx => ?_, ?_, h.sound⟩, fun x hx => ?_, fun x hx => ?_, fun x hx => ?_⟩
  · obtain ⟨y, hy, rfl | hxy⟩ := hcases i x hx
    · exact h.pieces i x hi hy
    · exact (h.pieces i y hi hy).same hxy
  · rw [Deletion.setRequest, isSome_insert hsome]
    exact h.answered
  · obtain ⟨y, hy, rfl | hxy⟩ := hcases rid x hx
    · exact h.main x hy
    · exact (h.main y hy).same hxy
  · obtain ⟨y, hy, rfl | hxy⟩ := hcases rid x hx
    · exact h.owed x hy
    · rw [hxy.units_eq]
      exact h.owed y hy
  · have halone : (∀ i, i ≠ rid → s.requests.lookup i = none) →
        ∀ i, i ≠ rid → (s.setRequest id q).requests.lookup i = none := by
      intro halone i hi
      rw [← Option.not_isSome_iff_eq_none, Deletion.setRequest, isSome_insert hsome, halone i hi]
      exact Bool.false_ne_true
    obtain ⟨y, hy, rfl | hxy⟩ := hcases rid x hx
    · exact (h.object x hy).imp_right (Or.imp_right halone)
    · rw [hxy.units_eq]
      exact (h.object y hy).imp_right (Or.imp_right halone)

/-- And waits as before, whichever it was. -/
theorem waits_setRequest {i : ID32} (h : s.Waits i) (hr : s.requests.lookup id = some r)
    {q : Request} (htyp : q.typ = r.typ) (hmaster : q.oldMasterJson = r.oldMasterJson) :
    (s.setRequest id q).Waits i := by
  refine h.congr rfl ?_
  rw [setRequest, Ledger.lookup_insert_ite]
  split_ifs with hi
  · rw [hi, hr, Option.map_some, Option.map_some, htyp, hmaster]
  · rfl

/-- **A unit is crossed out**: the request is reported if it was the last one. -/
theorem Under.unitDeleted (h : Under rid uuid keepChunks ims s) {q : Request}
    (hq : s.requests.lookup rid = some q) (hid : .copyDeleted id ∈ s.log)
    (hrequest : (s.requests.lookup id).isSome) :
    Under rid uuid keepChunks ims (s.unitDeleted rid q id) := by
  obtain ⟨p, hp⟩ : ∃ p, p = { q with units := q.units.erase id } := ⟨_, rfl⟩
  have hmain : (s.setRequest rid p).requests.lookup rid = some p := AList.lookup_insert _
  have hothers : ∀ i, i ≠ rid → (s.setRequest rid p).requests.lookup i = s.requests.lookup i :=
    fun i hi => AList.lookup_insert_ne hi
  have hset : Under rid uuid keepChunks ims (s.setRequest rid p) := by
    refine ⟨⟨fun i r hi hr => h.pieces i r hi (hothers i hi ▸ hr), ?_, h.sound⟩, fun r hr => ?_,
      fun r hr => ?_, fun r hr => ?_⟩
    · rw [hmain]
      exact h.answered.imp_left fun h => ⟨h.1, h.2.1, rfl⟩
    all_goals
      obtain rfl : p = r := Option.some.inj (hmain.symm.trans hr)
      subst hp
    · have hq' := h.main q hq
      exact ⟨hq'.typ, hq'.st, hq'.uuid_eq, hq'.keep⟩
    · exact (h.owed q hq).erase hid
    · obtain hdeleted | hcounted | halone := h.object q hq
      · exact .inl hdeleted
      · by_cases hrid : rid = id
        · exact .inl (hrid ▸ hid)
        · exact .inr (.inl (Finset.mem_erase.mpr ⟨hrid, hcounted⟩))
      · exact .inr (.inr fun i hi => (hothers i hi).trans (halone i hi))
  rw [Deletion.unitDeleted, ← hp]
  split_ifs with hunits
  · -- nothing is left to wait for: everything is covered
    have hobject : .copyDeleted rid ∈ s.log := by
      obtain hdeleted | hcounted | halone := hset.object p hmain
      · exact hdeleted
      · rw [hunits] at hcounted
        exact absurd hcounted (Finset.notMem_empty rid)
      · by_cases hrid : id = rid
        · exact hrid ▸ hid
        · rw [← hothers id hrid, halone id hrid] at hrequest
          cases hrequest
    cases hims : (s.setRequest rid p).imsReqIds.lookup rid with
    | none => exact hset
    | some i =>
      have hcovered := (hset.owed p hmain).covered hunits hobject
      obtain ⟨hi, hanswers, -⟩ | ⟨hnone, -⟩ := hset.answered
      · obtain rfl : i = ims := Option.some.inj (hims.symm.trans hi)
        refine ⟨⟨hset.pieces, .inr ⟨AList.lookup_erase rid _, .deleted p.uuid, ?_⟩,
          hset.sound.deleted hcovered⟩, hset.main, fun r hr => ?_, fun r hr => ?_⟩
        · exact congrArg (_ :: ·) hanswers
        · exact (hset.owed r hr).cons fun m => nofun
        · exact (hset.object r hr).imp_left (List.mem_cons_of_mem _)
      · rw [hnone] at hims
        cases hims
  · exact hset

/-- What crossing out a unit leaves as it is. -/
structure Keeps (s t : Deletion) : Prop where
  isSome : ∀ i, (t.requests.lookup i).isSome = (s.requests.lookup i).isSome
  waits : ∀ i, s.Waits i → t.Waits i

/-- Crossing out nothing. -/
theorem Keeps.refl (s : Deletion) : Keeps s s := ⟨fun _ => rfl, fun _ h => h⟩

/-- Crossing out a unit erases no request and ends no waiting. -/
theorem keeps_unitDeleted {q : Request} (hq : s.requests.lookup rid = some q) :
    Keeps s (s.unitDeleted rid q id) := by
  have hsome : (s.requests.lookup rid).isSome := by
    rw [hq]
    rfl
  have hset : Keeps s (s.setRequest rid { q with units := q.units.erase id }) :=
    ⟨fun i => isSome_insert hsome, fun i h => waits_setRequest h hq rfl rfl⟩
  rw [unitDeleted]
  split_ifs
  · split
    · exact hset
    · exact ⟨hset.isSome, fun i h => (hset.waits i h).congr rfl rfl⟩
  · exact hset

/-- A copy was deleted: the unit of its request is crossed out, in the request or in the parent of
the piece. -/
theorem Under.handleDeletedResponse (h : Under rid uuid keepChunks ims s)
    (hr : s.requests.lookup id = some r) (hid : .copyDeleted id ∈ s.log) :
    Under rid uuid keepChunks ims (s.handleDeletedResponse id r) ∧
      Keeps s (s.handleDeletedResponse id r) := by
  have hrequest : (s.requests.lookup id).isSome := by
    rw [hr]
    rfl
  rw [Deletion.handleDeletedResponse]
  by_cases heq : id = rid
  · subst heq
    rw [if_pos (h.main r hr).typ, handleDeletedResponseForImsRequest]
    exact ⟨h.unitDeleted hr hid hrequest, keeps_unitDeleted hr⟩
  · obtain ⟨htyp, hparent⟩ := h.pieces id r heq hr
    rw [if_neg (by rw [htyp]; exact nofun), handleDeletedResponseForKernelRequest, hparent,
      Option.bind_some]
    cases hq : s.requests.lookup rid with
    | none => exact ⟨h, .refl s⟩
    | some q => exact ⟨h.unitDeleted hq hid hrequest, keeps_unitDeleted hq⟩

/-- The number of copies is no part of the invariant. -/
theorem Under.countUpdated (h : Under rid uuid keepChunks ims s) (id : ID32) :
    Under rid uuid keepChunks ims (s.countUpdated id) ∧ Keeps s (s.countUpdated id) := by
  rw [Deletion.countUpdated]
  cases hr : s.requests.lookup id with
  | none => exact ⟨h, .refl s⟩
  | some r =>
    refine ⟨h.setRequest hr ⟨rfl, rfl, rfl, rfl, rfl, rfl, rfl⟩,
      fun i => isSome_insert (by rw [hr]; rfl), fun i hi => waits_setRequest hi hr rfl rfl⟩

/-- **A copy is deleted in the storage**: the peers are told next. -/
theorem Under.handleStorageDeleted (h : Under rid uuid keepChunks ims s)
    (hwaits : ∀ i, i ≠ id → s.Waits i) (hr : s.requests.lookup id = some r)
    (hid : .copyDeleted id ∈ s.log) :
    Inv rid uuid keepChunks ims (s.handleStorageDeleted dataCopyCount id r) := by
  obtain ⟨q, hq⟩ : ∃ q : Request, q = { r with updated := r.updated + 1 } := ⟨_, rfl⟩
  have hsame : q.Same r := by
    rw [hq]
    exact ⟨rfl, rfl, rfl, rfl, rfl, rfl, rfl⟩
  have hlookup : (s.setRequest id q).requests.lookup id = some q := AList.lookup_insert _
  obtain ⟨hunder, hkeeps⟩ := (h.setRequest hr hsame).handleDeletedResponse hlookup hid
  rw [Deletion.handleStorageDeleted, ← hq]
  have hplain : (Entry.deleteRouter id q.uuid q.dataVersion (dataCopyCount - 1)).Plain := trivial
  refine .inr ⟨hunder.post hplain id .deleteRouter, fun i => ?_⟩
  by_cases hi : i = id
  · subst hi
    refine waits_postRouterDelete ?_
    rw [hkeeps.isSome, hlookup]
    rfl
  · exact (hkeeps.waits i ((hwaits i hi).setRequest hi q)).post hi _ _

/-- Another node has deleted its copy. The request goes on waiting, since more nodes may. -/
theorem Under.handleRouterDeleted (h : Under rid uuid keepChunks ims s) (hwaits : ∀ i, s.Waits i)
    (hr : s.requests.lookup id = some r) (hid : .copyDeleted id ∈ s.log) :
    Inv rid uuid keepChunks ims (s.handleRouterDeleted id r) := by
  obtain ⟨hunder, hkeeps⟩ := h.handleDeletedResponse hr hid
  obtain ⟨hcount, hkeeps'⟩ := hunder.countUpdated id
  exact .inr ⟨hcount, fun i => hkeeps'.waits i (hkeeps.waits i (hwaits i))⟩

/-! ### The end of a request -/

/-- Nothing is left but pieces. -/
theorem Common.under (h : Common rid keepChunks ims s) (hr : s.requests.lookup rid = none) :
    Under rid uuid keepChunks ims s where
  toCommon := h
  main r hmain := by
    rw [hr] at hmain
    cases hmain
  owed r hmain := by
    rw [hr] at hmain
    cases hmain
  object r hmain := by
    rw [hr] at hmain
    cases hmain

/-- The request is gone, and it was answered before it went. -/
theorem Common.eraseMain (h : Common rid keepChunks ims s) (hims : s.imsReqIds.lookup rid = none) :
    Common rid keepChunks ims (s.eraseRequest rid) where
  pieces id r hid hr := h.pieces id r hid (AList.lookup_erase_ne hid ▸ hr)
  answered := by
    obtain ⟨hsome, -⟩ | hanswered := h.answered
    · rw [hims] at hsome
      cases hsome
    · exact .inr hanswered
  sound := h.sound

/-- A final response that is not `deleted`. -/
theorem Common.fail (h : Common rid keepChunks ims s) {i : ID32}
    (hi : s.imsReqIds.lookup rid = some i) (u : UUID) (err : String) :
    Common rid keepChunks ims (s.respond rid i (.deleteFail u err)) where
  pieces := h.pieces
  answered := by
    obtain ⟨hims, hanswers, -⟩ | ⟨hnone, -⟩ := h.answered
    · obtain rfl := Option.some.inj (hi.symm.trans hims)
      exact .inr ⟨AList.lookup_erase rid _, _, congrArg (_ :: ·) hanswers⟩
    · rw [hi] at hnone
      cases hnone
  sound := h.sound.cons fun i u => nofun

/-- The failure is the final response if there was none. -/
theorem Common.sendImsDeleteFailedResponse (h : Common rid keepChunks ims s) (r : Request) :
    Common rid keepChunks ims (s.sendImsDeleteFailedResponse rid r) ∧
      (s.sendImsDeleteFailedResponse rid r).imsReqIds.lookup rid = none ∧
      (s.sendImsDeleteFailedResponse rid r).requests = s.requests ∧
      (s.sendImsDeleteFailedResponse rid r).posted = s.posted := by
  rw [Deletion.sendImsDeleteFailedResponse]
  cases hi : s.imsReqIds.lookup rid with
  | none => exact ⟨h, hi, rfl, rfl⟩
  | some i => exact ⟨h.fail hi r.uuid _, AList.lookup_erase rid _, rfl, rfl⟩

/-- **The request fails**, when nothing is posted for it. -/
theorem Common.handleFailedDeleteRequest (h : Common rid keepChunks ims s)
    (hmain : r.IsMain uuid keepChunks) (hposted : s.posted.lookup rid = none)
    (hwaits : ∀ i, i ≠ rid → s.Waits i) (hstep : s.handleFailedDeleteRequest rid r = some t) :
    Inv rid uuid keepChunks ims t := by
  rw [Deletion.handleFailedDeleteRequest, if_pos hmain.typ, if_neg hmain.st] at hstep
  obtain rfl := Option.some.inj hstep
  obtain ⟨hsent, hims, hrequests, hposts⟩ := h.sendImsDeleteFailedResponse r
  have hgone : ((s.sendImsDeleteFailedResponse rid r).eraseRequest rid).requests.lookup rid =
      none := AList.lookup_erase rid _
  refine .inr ⟨(hsent.eraseMain hims).under hgone, fun i => ?_⟩
  by_cases hi : i = rid
  · subst hi
    rw [waits_none hgone, eraseRequest, hposts]
    exact hposted
  · refine Waits.eraseRequest ((hwaits i hi).congr ?_ ?_) hi
    · rw [hposts]
    · rw [hrequests]

/-! ### The master object is read -/

/-- Nothing has happened yet: the parts of the invariant hold with nothing in them. -/
theorem Idle.common (h : Idle rid uuid keepChunks ims s) : Common rid keepChunks ims s where
  pieces id r hid hr := by
    rw [h.alone id hid] at hr
    cases hr
  answered := by
    obtain ⟨r, hr, -⟩ := h.main
    refine .inl ⟨h.ims_eq, answers_of_quiet h.quiet, ?_⟩
    rw [hr]
    rfl
  sound := sound_of_answers (answers_of_quiet h.quiet)

/-- No other request is there to wait. -/
theorem Idle.waits (h : Idle rid uuid keepChunks ims s) (hid : id ≠ rid) : s.Waits id := by
  rw [waits_none (h.alone id hid)]
  exact h.posted id

/-- The request is as it was made. -/
theorem Idle.isMain (h : Idle rid uuid keepChunks ims s) (hr : s.requests.lookup rid = some r) :
    r.IsMain uuid keepChunks ∧ r.oldMasterJson = none ∧ r.units = ∅ := by
  obtain ⟨q, hq, hmain⟩ := h.main
  obtain rfl := Option.some.inj (hr.symm.trans hq)
  exact hmain

/-- It may be written back with nothing changed that matters. -/
theorem Idle.setRequest (h : Idle rid uuid keepChunks ims s) {q : Request}
    (hq : q.IsMain uuid keepChunks) (hmaster : q.oldMasterJson = none) (hunits : q.units = ∅) :
    Idle rid uuid keepChunks ims (s.setRequest rid q) where
  main := ⟨q, AList.lookup_insert _, hq, hmaster, hunits⟩
  alone id hid := (AList.lookup_insert_ne hid).trans (h.alone id hid)
  posted := h.posted
  ims_eq := h.ims_eq
  quiet := h.quiet

/-- **The first question**, to the storage, to the router or to the key manager. -/
theorem Idle.post (h : Idle rid uuid keepChunks ims s) {p : Post}
    (hp : p = .lookUp ∨ p = .getStorage ∨ p = .decrypt ∨ p = .deleteStorage ∧ keepChunks = true)
    (he : e.Quiet) : Inv rid uuid keepChunks ims (s.post rid p e) := by
  refine .inl (.main p (AList.lookup_insert _) hp ⟨h.main, h.alone, fun id => ?_, h.ims_eq, ?_⟩)
  · rw [answered, Deletion.post, Ledger.lookup_erase_ite, Ledger.lookup_insert_ite, h.posted]
    by_cases hid : id = rid
    · rw [if_pos hid]
    · rw [if_neg hid, if_neg hid]
  · exact List.forall_mem_cons.mpr ⟨he, h.quiet⟩

/-- Or there is no way to go on, and the request ends with its failure. -/
theorem Idle.handleFailedDeleteRequest (h : Idle rid uuid keepChunks ims s)
    (hr : r.IsMain uuid keepChunks) (hstep : s.handleFailedDeleteRequest rid r = some t) :
    Inv rid uuid keepChunks ims t :=
  h.common.handleFailedDeleteRequest hr (h.posted rid) (fun _ hi => h.waits hi) hstep

/-- What the loop over the pieces keeps: the request is as it was, and the rest is pieces that
wait. -/
structure Spreading (rid : ID32) (uuid : UUID) (keepChunks : Bool) (ims : ID32) (s : Deletion) :
    Prop extends Common rid keepChunks ims s where
  main : (s.requests.lookup rid).isSome
  posted : s.posted.lookup rid = none
  waits : ∀ id, id ≠ rid → s.Waits id
  ims_eq : s.imsReqIds.lookup rid = some ims

/-- A piece gets a request of its own, which waits for the storage. -/
theorem Spreading.handlePieceDelete (h : Spreading rid uuid keepChunks ims s) (u : UUID) :
    Spreading rid uuid keepChunks ims (s.handlePieceDelete u rid).1 ∧
      (s.handlePieceDelete u rid).1.log = ((s.handlePieceDelete u rid).2.elim s.log fun id =>
        .deleteStorage id u :: s.log) ∧
      ∀ id ∈ (s.handlePieceDelete u rid).2, id ≠ rid := by
  rw [Deletion.handlePieceDelete, getRequestId]
  by_cases hfree : s.requests.lookup s.requestCounter = none
  · obtain ⟨id, hid⟩ : ∃ id, id = s.requestCounter := ⟨_, rfl⟩
    have hne : id ≠ rid := by
      rintro rfl
      have hsome := h.main
      rw [hid, hfree] at hsome
      cases hsome
    rw [if_pos hfree, ← hid]
    rw [← hid] at hfree
    have hmain : ∀ i, i ≠ id → (s.requests.insert id (pieceRequest u rid)).lookup i =
        s.requests.lookup i := fun i hi => AList.lookup_insert_ne hi
    have hplain : (Entry.deleteStorage id u).Plain := trivial
    refine ⟨⟨⟨fun i r hi hr => ?_, ?_, hplain.sound h.sound⟩, ?_, ?_, fun i hi => ?_, h.ims_eq⟩,
      rfl, fun i hi => Option.some.inj hi ▸ hne⟩
    · by_cases heq : i = id
      · subst heq
        obtain rfl := Option.some.inj ((AList.lookup_insert _).symm.trans hr)
        exact ⟨rfl, rfl⟩
      · exact h.pieces i r hi (hmain i heq ▸ hr)
    · obtain ⟨hims, hanswers, hsome⟩ | ⟨hnone, -⟩ := h.answered
      · exact .inl ⟨hims, hplain.answers.trans hanswers, (hmain rid hne.symm).symm ▸ hsome⟩
      · rw [h.ims_eq] at hnone
        cases hnone
    · exact (congrArg Option.isSome (hmain rid hne.symm)).trans h.main
    · exact (AList.lookup_insert_ne hne.symm).trans h.posted
    · by_cases heq : i = id
      · subst heq
        rw [waits_some (r := pieceRequest u rid) (AList.lookup_insert _)]
        exact .inr ⟨AList.lookup_insert _, nofun⟩
      · exact (h.waits i hi).congr (AList.lookup_insert_ne heq) (congrArg _ (hmain i heq))
  · rw [if_neg hfree]
    exact ⟨⟨⟨h.pieces, h.answered, h.sound⟩, h.main, h.posted,
      fun i hi => (h.waits i hi).congr rfl rfl, h.ims_eq⟩, rfl, nofun⟩

/-- **The loop over the pieces**: what it counts is asked for, and all of it when it comes to its
end. -/
theorem Spreading.deletePieces (h : Spreading rid uuid keepChunks ims s) {t : Deletion}
    {q : Request} {b : Bool} {us : List (Option UUID)}
    (hloop : Deletion.deletePieces rid s r us = (t, q, b)) :
    Spreading rid uuid keepChunks ims t ∧
      (∃ units, q = { r with units := units } ∧ r.units ⊆ units) ∧
      (∀ e ∈ t.log, e ∈ s.log ∨ e.Quiet) ∧ (∀ e ∈ s.log, e ∈ t.log) ∧
      (b = true → ∀ n ∈ us, ∃ u ∈ n, ∃ id ∈ q.units, .deleteStorage id u ∈ t.log) := by
  induction us generalizing s r with
  | nil =>
    obtain ⟨rfl, rfl, rfl⟩ : s = t ∧ r = q ∧ true = b := by
      simpa [Deletion.deletePieces] using hloop
    exact ⟨h, ⟨r.units, rfl, subset_rfl⟩, fun e he => .inl he, fun e he => he,
      fun _ n hn => absurd hn List.not_mem_nil⟩
  | cons n us ih =>
    cases n with
    | none =>
      obtain ⟨rfl, rfl, rfl⟩ : s = t ∧ r = q ∧ false = b := by
        simpa [Deletion.deletePieces] using hloop
      exact ⟨h, ⟨r.units, rfl, subset_rfl⟩, fun e he => .inl he, fun e he => he, nofun⟩
    | some u =>
      obtain ⟨hspread, hlog, -⟩ := h.handlePieceDelete u
      rw [Deletion.deletePieces] at hloop
      obtain ⟨⟨m, new⟩, hm⟩ : ∃ x, x = s.handlePieceDelete u rid := ⟨_, rfl⟩
      rw [← hm] at hspread hlog hloop
      cases new with
      | none =>
        obtain ⟨rfl, rfl, rfl⟩ : m = t ∧ r = q ∧ false = b := by simpa using hloop
        have hsame : m.log = s.log := hlog
        refine ⟨hspread, ⟨r.units, rfl, subset_rfl⟩, fun e he => .inl (hsame ▸ he),
          fun e he => hsame ▸ he, nofun⟩
      | some id =>
        obtain ⟨hend, ⟨units, hq, hsub⟩, hquiet, hkept, hasked⟩ := ih hspread hloop
        have hcons : m.log = .deleteStorage id u :: s.log := hlog
        have hid : id ∈ q.units := by
          rw [hq]
          exact hsub (Finset.mem_insert_self id r.units)
        refine ⟨hend, ⟨units, hq, (Finset.subset_insert id r.units).trans hsub⟩, fun e he => ?_,
          fun e he => hkept e (hcons ▸ List.mem_cons_of_mem _ he), fun hb n hn => ?_⟩
        · obtain hold | hnew := hquiet e he
          · rw [hcons] at hold
            obtain rfl | hold := List.mem_cons.mp hold
            · exact .inr trivial
            · exact .inl hold
          · exact .inr hnew
        · obtain rfl | hn := List.mem_cons.mp hn
          · exact ⟨u, rfl, id, hid, hkept _ (hcons ▸ List.mem_cons_self)⟩
          · exact hasked hb n hn

/-- The pieces of a master object: all that it lists is asked for, or it fails. -/
theorem Spreading.removeUnnecessaryUuids (h : Spreading rid uuid keepChunks ims s) {t : Deletion}
    {q : Request} {b : Bool} {m : Master}
    (hremove : Deletion.removeUnnecessaryUuids rid s r m = (t, q, b)) :
    Spreading rid uuid keepChunks ims t ∧
      (∃ v units, q = { r with dataVersion := v, units := units }) ∧
      (∀ e ∈ t.log, e ∈ s.log ∨ e.Quiet) ∧ (∀ e ∈ s.log, e ∈ t.log) ∧
      (b = true →
        (∀ us ∈ m.pieces, ∀ n ∈ us, ∃ u ∈ n, ∃ id ∈ q.units, .deleteStorage id u ∈ t.log) ∧
        (rid ∈ q.units ∨ t.requests = s.requests)) := by
  rw [Deletion.removeUnnecessaryUuids] at hremove
  cases hv : increaseVersion m.version with
  | none =>
    obtain ⟨rfl, rfl, rfl⟩ : s = t ∧ r = q ∧ false = b := by simpa [hv] using hremove
    exact ⟨h, ⟨r.dataVersion, r.units, rfl⟩, fun e he => .inl he, fun e he => he, nofun⟩
  | some v =>
    rw [hv] at hremove
    cases hpieces : m.pieces with
    | none =>
      obtain ⟨rfl, rfl, rfl⟩ : s = t ∧ { r with dataVersion := v } = q ∧ true = b := by
        simpa [hpieces] using hremove
      exact ⟨h, ⟨v, r.units, rfl⟩, fun e he => .inl he, fun e he => he,
        fun _ => ⟨nofun, .inr rfl⟩⟩
    | some us =>
      obtain ⟨⟨t', q', b'⟩, hloop⟩ : ∃ x, x = Deletion.deletePieces rid s
        { r with dataVersion := v } us := ⟨_, rfl⟩
      obtain ⟨hspread, ⟨units, hq, -⟩, hquiet, hkept, hasked⟩ := h.deletePieces hloop.symm
      simp only [hpieces, ← hloop] at hremove
      cases b' with
      | false =>
        obtain ⟨rfl, rfl, rfl⟩ : t' = t ∧ q' = q ∧ false = b := by simpa using hremove
        exact ⟨hspread, ⟨v, units, hq⟩, hquiet, hkept, nofun⟩
      | true =>
        obtain ⟨rfl, rfl, rfl⟩ : t' = t ∧ { q' with units := insert rid q'.units } = q ∧
          true = b := by simpa using hremove
        refine ⟨hspread, ⟨v, insert rid q'.units, ?_⟩, hquiet, hkept, fun _ => ⟨?_, .inl ?_⟩⟩
        · rw [hq]
        · rintro us' ⟨⟩ n hn
          obtain ⟨u, hu, id, hid, hlog⟩ := hasked rfl n hn
          exact ⟨u, hu, id, Finset.mem_insert_of_mem hid, hlog⟩
        · exact Finset.mem_insert_self rid q'.units

/-- The master object was read: the loop over its pieces starts. -/
theorem Idle.spreading (h : Idle rid uuid keepChunks ims s) (m : Master) :
    Spreading rid uuid keepChunks ims (s.write (.gotMaster m)) where
  pieces := h.common.pieces
  answered := h.common.answered
  sound := h.common.sound.cons fun i u => nofun
  main := by
    obtain ⟨r, hr, -⟩ := h.main
    rw [write, hr]
    rfl
  posted := h.posted rid
  waits id hid := (h.waits hid).congr rfl rfl
  ims_eq := h.ims_eq

/-- The request is written back after the loop. -/
theorem Spreading.setMain (h : Spreading rid uuid keepChunks ims s) (q : Request) :
    Common rid keepChunks ims (s.setRequest rid q) where
  pieces id r hid hr := h.pieces id r hid ((AList.lookup_insert_ne hid).symm.trans hr)
  answered := by
    obtain ⟨hims, hanswers, -⟩ | ⟨hnone, -⟩ := h.answered
    · exact .inl ⟨hims, hanswers, congrArg Option.isSome (AList.lookup_insert _)⟩
    · rw [h.ims_eq] at hnone
      cases hnone
  sound := h.sound

/-- **The master object is processed.** -/
theorem Idle.handleUnencryptedMasterObject (h : Idle rid uuid keepChunks ims s)
    (hr : s.requests.lookup rid = some r) {m : Option Master}
    (hstep : s.handleUnencryptedMasterObject dataCopyCount rid r m = some t) :
    Inv rid uuid keepChunks ims t := by
  obtain ⟨hmain, -⟩ := h.isMain hr
  rw [Deletion.handleUnencryptedMasterObject.eq_def, pocoAssert, if_pos hmain.typ] at hstep
  cases m with
  | none => exact h.handleFailedDeleteRequest hmain hstep
  | some m =>
    obtain ⟨⟨t', q, b⟩, hremove⟩ : ∃ x, x = Deletion.removeUnnecessaryUuids rid
      (s.write (.gotMaster m)) { r with oldMasterJson := some m } m := ⟨_, rfl⟩
    obtain ⟨hspread, ⟨v, units, hq⟩, hquiet, hkept, hasked⟩ :=
      (h.spreading m).removeUnnecessaryUuids hremove.symm
    have hqmain : q.IsMain uuid keepChunks := by
      rw [hq]
      exact ⟨hmain.typ, hmain.st, hmain.uuid_eq, hmain.keep⟩
    have hlookup : (t'.setRequest rid q).requests.lookup rid = some q := AList.lookup_insert _
    have hcommon := hspread.setMain q
    have hwaits : ∀ i, i ≠ rid → (t'.setRequest rid q).Waits i := fun i hi =>
      (hspread.waits i hi).setRequest hi q
    simp only [processDeleteRequest, ← hremove] at hstep
    cases b with
    | false => exact hcommon.handleFailedDeleteRequest hqmain hspread.posted hwaits hstep
    | true =>
      obtain ⟨hpieces, hobject⟩ := hasked rfl
      -- the only master object of the log is this one
      have honly : ∀ m', .gotMaster m' ∈ t'.log → m' = m := by
        intro m' hm'
        obtain hold | hnew := hquiet _ hm'
        · obtain heq | hold := List.mem_cons.mp hold
          · exact Entry.gotMaster.inj heq
          · exact (h.quiet _ hold).elim
        · exact hnew.elim
      have hunder : Under rid uuid keepChunks ims (t'.setRequest rid q) := by
        refine ⟨hcommon, fun x hx => ?_, fun x hx => ?_, fun x hx => ?_⟩
        all_goals obtain rfl := Option.some.inj (hlookup.symm.trans hx)
        · exact hqmain
        · refine ⟨fun _ => ⟨m, hkept _ List.mem_cons_self⟩, fun m' hm' us hus n hn => ?_⟩
          obtain rfl := honly m' hm'
          obtain ⟨u, hu, id, hid, hlog⟩ := hpieces us hus n hn
          exact ⟨u, hu, id, hlog, .inr hid⟩
        · refine .inr (hobject.imp_right fun hsame i hi => ?_)
          rw [Deletion.setRequest, AList.lookup_insert_ne hi, hsame]
          exact h.alone i hi
      have hmaster : q.oldMasterJson ≠ none := by
        rw [hq]
        exact Option.some_ne_none m
      obtain rfl := Option.some.inj hstep
      refine .inr ⟨?_, fun i => ?_⟩
      · split
        · have hplain : (Entry.deleteStorage rid q.uuid).Plain := trivial
          exact hunder.post hplain rid .deleteStorage
        · have hplain : (Entry.deleteRouter rid q.uuid q.dataVersion (dataCopyCount - 1)).Plain :=
            trivial
          exact hunder.post hplain rid .deleteRouter
      · by_cases hi : i = rid
        · subst hi
          split
          · have hpost := waits_some (s := (t'.setRequest i q).postStorageDeleteRequest i q) hlookup
            exact hpost.mpr (.inr ⟨AList.lookup_insert _, fun _ => hmaster⟩)
          · exact waits_postRouterDelete (Option.isSome_iff_exists.mpr ⟨q, hlookup⟩)
        · split
          · exact (hwaits i hi).post hi _ _
          · exact (hwaits i hi).post hi _ _

/-- The master object arrives, encrypted or not. -/
theorem Idle.gotMasterObject (h : Idle rid uuid keepChunks ims s)
    (hr : s.requests.lookup rid = some r) {m : Option Master} {encrypted : Bool}
    (hstep : s.gotMasterObject dataCopyCount rid r m encrypted = some t) :
    Inv rid uuid keepChunks ims t := by
  rw [Deletion.gotMasterObject, pocoAssert, if_pos (h.isMain hr).1.typ] at hstep
  split_ifs at hstep
  · obtain rfl := Option.some.inj hstep
    have hquiet : (Entry.decrypt rid).Quiet := trivial
    exact h.post (.inr (.inr (.inl rfl))) hquiet
  · exact h.handleUnencryptedMasterObject hr hstep

/-- It cannot be decrypted. -/
theorem Idle.handleDecryptionFail (h : Idle rid uuid keepChunks ims s)
    (hr : s.requests.lookup rid = some r)
    (hstep : s.handleDecryptionFailForDeleteRequest rid r = some t) :
    Inv rid uuid keepChunks ims t := by
  rw [handleDecryptionFailForDeleteRequest, pocoAssert, if_pos (h.isMain hr).1.typ, h.ims_eq,
    Option.bind_some] at hstep
  obtain rfl := Option.some.inj hstep
  have hgone : (s.requests.erase rid).lookup rid = none := AList.lookup_erase rid _
  refine .inr ⟨((h.common.fail h.ims_eq r.uuid _).eraseMain (AList.lookup_erase rid _)).under
    hgone, fun i => ?_⟩
  by_cases hi : i = rid
  · subst hi
    exact (waits_none hgone).mpr (h.posted i)
  · exact ((h.waits hi).congr rfl rfl).eraseRequest hi

/-! ### The helper -/

/-- The object is not there: a helper asks the router. -/
theorem Idle.handleStorageNegativeResponse (h : Idle rid uuid keepChunks ims s)
    (hr : s.requests.lookup rid = some r)
    (hstep : s.handleStorageNegativeResponseForDeleteReq dataCopyCount rid r = some t) :
    Inv rid uuid keepChunks ims t := by
  obtain ⟨hmain, hmaster, -⟩ := h.isMain hr
  rw [handleStorageNegativeResponseForDeleteReq, if_pos ⟨hmain.typ, hmaster⟩, getRequestId] at hstep
  by_cases hfree : s.requests.lookup s.requestCounter = none
  · obtain ⟨id, hid⟩ : ∃ id, id = s.requestCounter := ⟨_, rfl⟩
    have hne : id ≠ rid := by
      rintro rfl
      rw [← hid, hr] at hfree
      cases hfree
    rw [if_pos hfree, ← hid] at hstep
    rw [← hid] at hfree
    obtain rfl := Option.some.inj hstep
    refine .inl (.helper id { helperRequest r.uuid rid with st := .requested } hne
      (AList.lookup_insert _) ⟨rfl, rfl, rfl⟩ (AList.lookup_insert _) ?_)
    have hrequests : ∀ i, ((s.requests.insert id
        { helperRequest r.uuid rid with st := .requested }).erase id).lookup i =
          s.requests.lookup i := by
      intro i
      by_cases hi : i = id
      · rw [hi, AList.lookup_erase, hfree]
      · rw [AList.lookup_erase_ne hi, AList.lookup_insert_ne hi]
    refine ⟨⟨r, (hrequests rid).trans hr, h.isMain hr⟩,
      fun i hi => (hrequests i).trans (h.alone i hi), fun i => ?_, h.ims_eq,
      List.forall_mem_cons.mpr ⟨trivial, h.quiet⟩⟩
    by_cases hi : i = id
    · rw [hi]
      exact AList.lookup_erase id _
    · exact ((AList.lookup_erase_ne hi).trans (AList.lookup_insert_ne hi)).trans (h.posted i)
  · rw [if_neg hfree] at hstep
    cases hstep

/-- The router does not have the object: the helper and its request end. -/
theorem Request.IsHelper.handleRouterCancel (hhelper : r.IsHelper rid) (hid : id ≠ rid)
    (h : Idle rid uuid keepChunks ims (s.eraseRequest id))
    (hstep : s.handleRouterCancel id r = some t) : Inv rid uuid keepChunks ims t := by
  obtain ⟨q, hq, -⟩ := h.main
  obtain ⟨r', hr'⟩ : ∃ r' : Request, r' = { r with failCount := r.failCount + 1 } := ⟨_, rfl⟩
  have hlookup : (s.setRequest id r').requests.lookup rid = some q :=
    (AList.lookup_insert_ne hid.symm).trans ((AList.lookup_erase_ne hid.symm).symm.trans hq)
  have hparent : r'.parentReqId = some rid := by
    rw [hr']
    exact hhelper.parent
  have hims : (s.setRequest id r').imsReqIds.lookup rid = some ims := h.ims_eq
  rw [Deletion.handleRouterCancel, ← hr', handleFailedDeleteRequest,
    if_pos (by rw [hr']; exact hhelper.typ), if_pos (by rw [hr']; exact hhelper.st),
    hparent] at hstep
  dsimp only at hstep
  rw [hlookup, Option.bind_some, sendImsDeleteFailedResponse, hims] at hstep
  obtain rfl := Option.some.inj hstep
  have hnone : ∀ i, (((s.requests.insert id r').erase rid).erase id).lookup i = none := by
    intro i
    by_cases hi : i = id
    · rw [hi, AList.lookup_erase]
    by_cases hi' : i = rid
    · rw [AList.lookup_erase_ne hi, hi', AList.lookup_erase]
    · rw [AList.lookup_erase_ne hi, AList.lookup_erase_ne hi', AList.lookup_insert_ne hi]
      exact (AList.lookup_erase_ne hi).symm.trans (h.alone i hi')
  have hanswers : answers s.log = [] := answers_of_quiet h.quiet
  refine .inr ⟨Common.under ⟨fun i x _ hx => ?_, .inr ⟨AList.lookup_erase rid _, _,
    congrArg (_ :: ·) hanswers⟩, (sound_of_answers hanswers).cons fun i u => nofun⟩ (hnone rid),
    fun i => (waits_none (hnone i)).mpr (h.posted i)⟩
  cases (hnone i).symm.trans hx

/-! ### Steps -/

/-- What deletes an object of the storage at once has no pieces to wait for. -/
theorem Idle.under (h : Idle rid uuid true ims s) :
    Under rid uuid true ims (s.write (.copyDeleted rid)) where
  toCommon := h.common.write trivial
  main r hr := (h.isMain hr).1
  owed r hr :=
    { read := nofun
      pieces := by
        intro m hm
        obtain heq | hm := List.mem_cons.mp hm
        · cases heq
        · exact (h.quiet _ hm).elim }
  object r hr := .inl List.mem_cons_self

/-- An answer to the request while its master object is not read yet. -/
theorem Idle.handle (h : Idle rid uuid keepChunks ims s) {e : Event} {p : Post}
    (he : e.Answers p) (htarget : e.target = some rid)
    (hp : p = .lookUp ∨ p = .getStorage ∨ p = .decrypt ∨ p = .deleteStorage ∧ keepChunks = true)
    (hstep : s.handle dataCopyCount e = some t) : Inv rid uuid keepChunks ims t := by
  -- the request has no unit and no master object yet
  obtain ⟨r, hr, hmain, hmaster, hunits⟩ := h.main
  cases e with
  | elsewhere => cases htarget
  | storageAck =>
    obtain rfl := (Option.some.inj htarget).symm
    rw [Deletion.handle, withRequest, hr] at hstep
    obtain rfl := Option.some.inj hstep
    rw [handleStoragePositiveResponseForLocalRequest]
    -- the object is deleted with its chunks kept, or the master object is read
    split_ifs with hkeep
    · have hquiet : (Entry.deleteStorage rid r.uuid).Quiet := trivial
      exact h.post (.inr (.inr (.inr ⟨rfl, hmain.keep ▸ hkeep⟩))) hquiet
    · have hsending : Idle rid uuid keepChunks ims (s.setRequest rid { r with st := .sending }) :=
        h.setRequest ⟨hmain.typ, nofun, hmain.uuid_eq, hmain.keep⟩ hmaster hunits
      have hquiet : (Entry.getStorage rid r.uuid).Quiet := trivial
      exact hsending.post (.inr (.inl rfl)) hquiet
  | storageNack =>
    obtain rfl := Option.some.inj htarget
    rw [Deletion.handle, withRequest, hr] at hstep
    exact h.handleStorageNegativeResponse hr hstep
  | storageGetData i m encrypted =>
    obtain rfl := Option.some.inj htarget
    rw [Deletion.handle, withRequest, hr] at hstep
    exact h.gotMasterObject hr hstep
  -- a deletion was posted, so the chunks are kept
  | storageDeleted =>
    obtain rfl := Option.some.inj htarget
    obtain rfl : p = .deleteStorage := he
    obtain rfl : keepChunks = true := by simpa using hp
    rw [Deletion.handle, withRequest, hr] at hstep
    obtain rfl := Option.some.inj hstep
    exact h.under.handleStorageDeleted (fun i hi => (h.waits hi).congr rfl rfl) hr
      List.mem_cons_self
  | storageFailed =>
    obtain rfl := Option.some.inj htarget
    rw [Deletion.handle, withRequest, hr] at hstep
    exact h.handleFailedDeleteRequest hmain hstep
  | decrypted i m =>
    obtain rfl := Option.some.inj htarget
    rw [Deletion.handle, hr, Option.bind_some] at hstep
    exact h.handleUnencryptedMasterObject hr hstep
  | decryptionFail =>
    obtain rfl := Option.some.inj htarget
    rw [Deletion.handle, hr, Option.bind_some] at hstep
    exact h.handleDecryptionFail hr hstep
  -- the router is asked through helpers, and not under this id
  | routerGetData =>
    obtain rfl : p = .getRouter := he
    simp at hp
  | routerDeleted =>
    obtain rfl : p = .deleteRouter := he
    simp at hp
  | routerCancel =>
    obtain rfl | rfl : p = .getRouter ∨ p = .deleteRouter := he
    · simp at hp
    · simp at hp

/-- An answer of the router to the helper. -/
theorem Request.IsHelper.handle (hhelper : r.IsHelper rid) (hid : id ≠ rid)
    (hr : s.requests.lookup id = some r) (h : Idle rid uuid keepChunks ims (s.eraseRequest id))
    {e : Event} (he : e.Answers .getRouter) (htarget : e.target = some id)
    (hstep : s.handle dataCopyCount e = some t) : Inv rid uuid keepChunks ims t := by
  cases e with
  | elsewhere => cases htarget
  | routerGetData i m encrypted =>
    obtain rfl := Option.some.inj htarget
    obtain ⟨q, hq, -⟩ := h.main
    have hlookup : s.requests.lookup rid = some q := (AList.lookup_erase_ne hid.symm).symm.trans hq
    rw [Deletion.handle, withRequest, hr] at hstep
    simp only [Option.elim_some, processReceivedMasterObjectFromRouter, hhelper.parent,
      hlookup] at hstep
    exact h.gotMasterObject hq hstep
  | routerCancel i =>
    obtain rfl := Option.some.inj htarget
    rw [Deletion.handle, withRequest, hr] at hstep
    exact hhelper.handleRouterCancel hid h hstep
  | storageAck => cases he
  | storageNack => obtain he | he | he := he <;> cases he
  | storageGetData => cases he
  | storageDeleted => cases he
  | storageFailed => obtain he | he | he := he <;> cases he
  | decrypted => cases he
  | decryptionFail => cases he
  | routerDeleted => cases he

/-- What was answered is posted no more, but for a delete tender. -/
theorem received_eq {e : Event} (htarget : e.target = some id) (hne : ∀ i, e ≠ .routerDeleted i) :
    s.received e = s.answered id := by
  cases e with
  | elsewhere => cases htarget
  | routerDeleted i => exact absurd rfl (hne i)
  | _ => exact congrArg (Option.elim · s s.answered) htarget

/-- An answer to what deletes. -/
theorem Under.handle (h : Under rid uuid keepChunks ims s) (hwaits : ∀ i, s.Waits i) {e : Event}
    {p : Post} (he : e.Answers p) (htarget : e.target = some id)
    (hposted : s.posted.lookup id = some p)
    (hstep : (s.received e).handle dataCopyCount e = some t) : Inv rid uuid keepChunks ims t := by
  obtain ⟨r, hr⟩ : ∃ r, s.requests.lookup id = some r := by
    cases hr : s.requests.lookup id with
    | none =>
      have hnone := (waits_none hr).mp (hwaits id)
      rw [hposted] at hnone
      cases hnone
    | some r => exact ⟨r, rfl⟩
  have hp : p = .deleteRouter ∨ p = .deleteStorage ∧ (r.typ = .ims → r.oldMasterJson ≠ none) := by
    have hw := (waits_some hr).mp (hwaits id)
    rw [hposted] at hw
    exact hw.imp Option.some.inj (And.imp_left Option.some.inj)
  have hothers : ∀ i, i ≠ id → (s.answered id).Waits i := fun i hi => (hwaits i).answered hi
  have hempty : (s.answered id).posted.lookup id = none := AList.lookup_erase id _
  -- a piece that ends leaves nothing behind
  have hpiece : ∀ u : Deletion, Under rid uuid keepChunks ims u → u.posted.lookup id = none →
      (∀ i, i ≠ id → u.Waits i) → id ≠ rid → Inv rid uuid keepChunks ims (u.eraseRequest id) := by
    intro u hunder hp hw hid
    refine .inr ⟨hunder.erasePiece hid, fun i => ?_⟩
    by_cases hi : i = id
    · subst hi
      exact (waits_none (AList.lookup_erase i _)).mpr hp
    · exact (hw i hi).eraseRequest hi
  cases e with
  | elsewhere => cases htarget
  | storageNack =>
    rw [received_eq htarget fun i => nofun] at hstep
    obtain rfl := (Option.some.inj htarget).symm
    obtain rfl | ⟨rfl, hmaster⟩ := hp
    · obtain he | he | he := he <;> cases he
    have hnot : ¬ (r.typ = .ims ∧ r.oldMasterJson = none) := fun h => hmaster h.1 h.2
    rw [Deletion.handle, withRequest,
      show (s.answered id).requests.lookup id = some r from hr, Option.elim_some,
      handleStorageNegativeResponseForDeleteReq, if_neg hnot] at hstep
    obtain rfl := Option.some.inj hstep
    have hplain : (Entry.deleteRouter id r.uuid r.dataVersion (dataCopyCount - 1)).Plain := trivial
    refine .inr ⟨(h.erasePost id).post hplain id .deleteRouter, fun i => ?_⟩
    by_cases hi : i = id
    · subst hi
      exact waits_postRouterDelete (Option.isSome_iff_exists.mpr ⟨r, hr⟩)
    · exact (hothers i hi).post hi _ _
  | storageDeleted =>
    rw [received_eq htarget fun i => nofun] at hstep
    obtain rfl := (Option.some.inj htarget).symm
    rw [Deletion.handle, withRequest,
      show (s.answered id).requests.lookup id = some r from hr, Option.elim_some] at hstep
    obtain rfl := Option.some.inj hstep
    have hplain : (Entry.copyDeleted id).Plain := trivial
    exact ((h.erasePost id).write hplain).handleStorageDeleted
      (fun i hi => (hothers i hi).congr rfl rfl) hr List.mem_cons_self
  | storageFailed =>
    rw [received_eq htarget fun i => nofun] at hstep
    obtain rfl := (Option.some.inj htarget).symm
    rw [Deletion.handle, withRequest,
      show (s.answered id).requests.lookup id = some r from hr, Option.elim_some] at hstep
    by_cases hid : id = rid
    · subst hid
      exact (h.erasePost id).toCommon.handleFailedDeleteRequest (h.main r hr) hempty hothers hstep
    · rw [handleFailedDeleteRequest, if_neg (by rw [(h.pieces id r hid hr).typ]; exact nofun)]
        at hstep
      obtain rfl := Option.some.inj hstep
      exact hpiece _ (h.erasePost id) hempty hothers hid
  | routerDeleted =>
    obtain rfl := (Option.some.inj htarget).symm
    rw [received, Deletion.handle, withRequest, hr, Option.elim_some] at hstep
    obtain rfl := Option.some.inj hstep
    have hplain : (Entry.copyDeleted id).Plain := trivial
    exact (h.write hplain).handleRouterDeleted (fun i => (hwaits i).congr rfl rfl) hr
      List.mem_cons_self
  | routerCancel =>
    rw [received_eq htarget fun i => nofun] at hstep
    obtain rfl := (Option.some.inj htarget).symm
    obtain ⟨q, hq⟩ : ∃ q : Request, q = { r with failCount := r.failCount + 1 } := ⟨_, rfl⟩
    have hsame : q.Same r := by
      rw [hq]
      exact ⟨rfl, rfl, rfl, rfl, rfl, rfl, rfl⟩
    rw [Deletion.handle, withRequest,
      show (s.answered id).requests.lookup id = some r from hr, Option.elim_some,
      handleRouterCancel, ← hq] at hstep
    have hset := (h.erasePost id).setRequest hr hsame
    have hw : ∀ i, i ≠ id → ((s.answered id).setRequest id q).Waits i := fun i hi =>
      (hothers i hi).setRequest hi q
    by_cases hid : id = rid
    · subst hid
      exact hset.toCommon.handleFailedDeleteRequest ((h.main r hr).same hsame) hempty hw hstep
    · have htyp : ¬ q.typ = .ims := by
        rw [hsame.typ, (h.pieces id r hid hr).typ]
        exact nofun
      rw [handleFailedDeleteRequest, if_neg htyp] at hstep
      obtain rfl := Option.some.inj hstep
      exact hpiece _ hset hempty hw hid
  | storageAck =>
    obtain rfl | ⟨rfl, -⟩ := hp <;> cases he
  | storageGetData =>
    obtain rfl | ⟨rfl, -⟩ := hp <;> cases he
  | decrypted =>
    obtain rfl | ⟨rfl, -⟩ := hp <;> cases he
  | decryptionFail =>
    obtain rfl | ⟨rfl, -⟩ := hp <;> cases he
  | routerGetData =>
    obtain rfl | ⟨rfl, -⟩ := hp <;> cases he

/-- Before the master object is read, only the request or its helper waits. -/
theorem Reading.posted (h : Reading rid uuid keepChunks ims s) {p : Post}
    (hp : s.posted.lookup id = some p) :
    id = rid ∧ (p = .lookUp ∨ p = .getStorage ∨ p = .decrypt ∨ p = .deleteStorage ∧
        keepChunks = true) ∧ Idle rid uuid keepChunks ims (s.answered id) ∨
      id ≠ rid ∧ p = .getRouter ∧ ∃ r, s.requests.lookup id = some r ∧ r.IsHelper rid ∧
        Idle rid uuid keepChunks ims ((s.answered id).eraseRequest id) := by
  cases h with
  | main q hposted hq hidle =>
    have heq : id = rid := by
      by_contra hne
      have hnone := hidle.posted id
      rw [answered, AList.lookup_erase_ne hne, hp] at hnone
      cases hnone
    subst heq
    obtain rfl := Option.some.inj (hp.symm.trans hposted)
    exact .inl ⟨rfl, hq, hidle⟩
  | helper h r hid hr hhelper hposted hidle =>
    have heq : id = h := by
      by_contra hne
      have hnone := hidle.posted id
      rw [eraseRequest, answered, AList.lookup_erase_ne hne, hp] at hnone
      cases hnone
    subst heq
    obtain rfl := Option.some.inj (hp.symm.trans hposted)
    exact .inr ⟨hid, rfl, r, hr, hhelper, hidle⟩

/-- **The step lemma**: every answer keeps the invariant. -/
theorem inv_step (h : Inv rid uuid keepChunks ims s) {e : Event} (hpossible : s.Possible e)
    (hstep : s.step dataCopyCount e = some t) : Inv rid uuid keepChunks ims t := by
  rw [step] at hstep
  cases htarget : e.target with
  | none =>
    -- other requests move the counter
    cases e with
    | elsewhere counter =>
      obtain rfl := Option.some.inj hstep
      obtain (⟨p, hposted, hp, hidle⟩ | ⟨id, r, hid, hr, hhelper, hposted, hidle⟩) |
        ⟨hunder, hwaits⟩ := h
      · exact .inl (.main p hposted hp
          ⟨hidle.main, hidle.alone, hidle.posted, hidle.ims_eq, hidle.quiet⟩)
      · exact .inl (.helper id r hid hr hhelper hposted
          ⟨hidle.main, hidle.alone, hidle.posted, hidle.ims_eq, hidle.quiet⟩)
      · exact .inr ⟨⟨⟨hunder.pieces, hunder.answered, hunder.sound⟩, hunder.main, hunder.owed,
          hunder.object⟩, fun i => (hwaits i).congr rfl rfl⟩
    | _ => cases htarget
  | some id =>
    obtain ⟨p, hp, he⟩ := hpossible id htarget
    obtain hreading | ⟨hunder, hwaits⟩ := h
    · obtain ⟨rfl, hq, hidle⟩ | ⟨hid, rfl, r, hr, hhelper, hidle⟩ := hreading.posted hp
      · have hne : ∀ i, e ≠ .routerDeleted i := by
          rintro i rfl
          obtain rfl : p = .deleteRouter := he
          simp at hq
        rw [received_eq htarget hne] at hstep
        exact hidle.handle he htarget hq hstep
      · have hne : ∀ i, e ≠ .routerDeleted i := by
          rintro i rfl
          cases he
        rw [received_eq htarget hne] at hstep
        exact hhelper.handle (s := s.answered id) hid hr hidle he htarget hstep
    · exact hunder.handle hwaits he htarget hp hstep

/-! ### Runs -/

/-- **At the start** the request asks whether the storage has the object. -/
theorem inv_start : Inv rid uuid keepChunks ims (start rid uuid keepChunks ims) := by
  have hidle : Idle rid uuid keepChunks ims ((start rid uuid keepChunks ims).answered rid) := by
    refine ⟨⟨_, AList.lookup_insert _, ⟨rfl, nofun, rfl, rfl⟩, rfl, rfl⟩,
      fun id hid => AList.lookup_insert_ne hid, fun id => ?_, AList.lookup_insert _,
      List.forall_mem_cons.mpr ⟨trivial, List.forall_mem_nil _⟩⟩
    by_cases hid : id = rid
    · rw [hid]
      exact AList.lookup_erase rid _
    · exact (AList.lookup_erase_ne hid).trans (AList.lookup_insert_ne hid)
  exact .inl (.main .lookUp (AList.lookup_insert _) (.inl rfl) hidle)

end Deletion

end Metax
