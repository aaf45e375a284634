import Metax.Backup.Robustness

/-!
# The life cycle of an entry that expires

A clean-up makes a tombstone of each live entry that has expired, asks the storage once for all of
them, and removes each tombstone that has expired; the date of a tombstone is thirty days from now.
What is not expired stays as it is, and a second clean-up at the same time finds nothing to do
(`CleansUp`).

It does so exactly if no date is `2 ^ 63` or more, since the clean-up reads dates as signed numbers
and the node ends where one does not fit, and if the clock is not within thirty days of its end when
an entry has expired (`cleansUp_iff`). Over any run without a save of a uuid the storage is asked at
most once to delete it, since a tombstone becomes a live entry by a save only.
-/

namespace Metax

namespace Backup

/-! ### The law -/

/-- A date as a number. -/
def Expiration.toInt : Expiration → ℤ
  | unsigned n => n.toNat
  | signed n => n.toInt

/-- The entry has a date, and it is over. -/
def Entry.Expired (e : Entry) (now : Int64) : Prop :=
  ∃ x, e.expirationDate = some x ∧ x.toInt ≠ 0 ∧ x.toInt ≤ now.toInt

/-- The entry is to be made a tombstone. -/
def Entry.Marked (e : Entry) (now : Int64) : Prop := e.Expired now ∧ e.isDeleted = some false

/-- The entry is to be removed. -/
def Entry.Removed (e : Entry) (now : Int64) : Prop := e.Expired now ∧ e.isDeleted = some true

/-- **The law of one clean-up.** -/
structure CleansUp (s : State) (now : Int64) (t : State) : Prop where
  kept : ∀ u e, s.storageData.lookup u = some e → ¬ e.Marked now → ¬ e.Removed now →
    t.storageData.lookup u = some e
  marked : ∀ u e, s.storageData.lookup u = some e → e.Marked now →
    ∃ x, t.storageData.lookup u = some { e with
      isDeleted := some true, expirationDate := some x } ∧ x.toInt = now.toInt + thirtyDays.toInt
  removed : ∀ u e, s.storageData.lookup u = some e → e.Removed now → t.storageData.lookup u = none
  other : ∀ u, s.storageData.lookup u = none → t.storageData.lookup u = none
  asked : ∃ names, t.out = s.out ++ (if names = [] then [] else [.delUuids names]) ∧
    names.Nodup ∧ ∀ name, name ∈ names ↔
      ∃ u e, name = u.text ∧ s.storageData.lookup u = some e ∧ e.Marked now
  again : t.cleanUpExpiredData now = some t

/-- **The condition**: all dates can be read, and that of a new tombstone can be written. -/
def Datable (s : State) (now : Int64) : Prop :=
  (∀ u e x, s.storageData.lookup u = some e → e.expirationDate = some x → x.toInt < 2 ^ 63) ∧
    ∀ u e, s.storageData.lookup u = some e → e.Marked now →
      now.toInt + thirtyDays.toInt < 2 ^ 63

variable {L : Libs} {s t : State} {u : UUID} {e : Entry} {now date : Int64} {x : Expiration}

/-! ### Dates -/

/-- A date from `2 ^ 63` on cannot be read as a signed one. -/
theorem Expiration.int64_eq_none : x.int64 = none ↔ 2 ^ 63 ≤ x.toInt := by
  cases x with
  | unsigned n =>
    rw [int64, toInt]
    split_ifs with h
    · simp
      omega
    · simp
      omega
  | signed n =>
    have hlt := n.toInt_lt
    rw [int64, toInt]
    simp
    omega

/-- One that can be read is the same number. -/
theorem Expiration.toInt_of_int64 (h : x.int64 = some date) : x.toInt = date.toInt := by
  cases x with
  | unsigned n =>
    rw [int64] at h
    split_ifs at h with hlt
    obtain rfl := Option.some.inj h
    have hsmall : 2 * n.toBitVec.toNat < 2 ^ 64 := by
      have heq : n.toBitVec.toNat = n.toNat := rfl
      omega
    exact (BitVec.toInt_eq_toNat_of_lt hsmall).symm
  | signed n =>
    obtain rfl := Option.some.inj h
    rfl

theorem toInt_thirtyDays : thirtyDays.toInt = 2592000000000 := by decide

/-- Thirty days later, as long as the clock does not end before. -/
theorem toInt_add_thirtyDays :
    (now + thirtyDays).toInt = now.toInt + thirtyDays.toInt ↔
      now.toInt + thirtyDays.toInt < 2 ^ 63 := by
  have hle := now.le_toInt
  have hlt := (now + thirtyDays).toInt_lt
  constructor
  · intro h
    omega
  · intro h
    rw [Int64.toInt_add, toInt_thirtyDays] at *
    rw [Int.bmod_eq_of_le]
    · omega
    · omega

/-- An entry is readable if its date is, should it have one. -/
theorem readable_iff : e.Readable ↔ ∀ x, e.expirationDate = some x → x.toInt < 2 ^ 63 := by
  refine forall_congr' fun x => forall_congr' fun _ => ?_
  rw [← Option.ne_none_iff_isSome, Ne, Expiration.int64_eq_none, not_le]

/-! ### What becomes of an entry -/

/-- What `clean_up_expired_data` does with an entry. -/
def Entry.verdict (e : Entry) (now : Int64) : Verdict :=
  (e.expirationDate.bind fun x => handleExpiredData e x now).getD .keep

/-- The entry that is there after it. -/
def Verdict.after (o : Option Entry) : Verdict → Option Entry
  | mark e => some e
  | _ => o

def Verdict.isMark : Verdict → Bool
  | mark _ => true
  | _ => false

def Verdict.isRemove : Verdict → Bool
  | remove => true
  | _ => false

theorem Entry.expired_iff (hx : e.expirationDate = some x) (hdate : x.int64 = some date) :
    e.Expired now ↔ date ≠ 0 ∧ date ≤ now := by
  rw [Expired, hx]
  simp only [Option.some.injEq, ↓existsAndEq, true_and, Expiration.toInt_of_int64 hdate]
  rw [Int64.le_iff_toInt_le, ne_eq, ne_eq, ← Int64.toInt_inj]
  rfl

/-- **What becomes of an entry**: it is marked, removed or kept. -/
theorem Entry.verdict_cases (now : Int64) (h : e.Readable) :
    (e.Marked now ∧ e.verdict now = .mark { e with
      isDeleted := some true, expirationDate := some (.signed (now + thirtyDays)) }) ∨
      (e.Removed now ∧ e.verdict now = .remove) ∨
        ¬ e.Marked now ∧ ¬ e.Removed now ∧ e.verdict now = .keep := by
  cases hx : e.expirationDate with
  | none =>
    have hnot : ¬ e.Expired now := by
      rintro ⟨x, hsome, -⟩
      rw [hx] at hsome
      cases hsome
    refine .inr (.inr ⟨fun h => hnot h.1, fun h => hnot h.1, ?_⟩)
    rw [verdict, hx]
    rfl
  | some x =>
    obtain ⟨date, hdate⟩ := Option.isSome_iff_exists.mp (h x hx)
    have hverdict : e.verdict now = ((handleExpiredData e x now).getD .keep) := by
      rw [verdict, hx]
      rfl
    rw [hverdict, handleExpiredData, hdate]
    by_cases hexp : date ≠ 0 ∧ date ≤ now
    · have hexpired := (expired_iff hx hdate).mpr hexp
      simp only [Option.bind_eq_bind, Option.bind_some, if_pos hexp]
      cases hdel : e.isDeleted with
      | none =>
        refine .inr (.inr ⟨fun h => ?_, fun h => ?_, rfl⟩)
        · have hlive := h.2
          rw [hdel] at hlive
          cases hlive
        · have hdead := h.2
          rw [hdel] at hdead
          cases hdead
      | some b =>
        cases b with
        | false => exact .inl ⟨⟨hexpired, hdel⟩, rfl⟩
        | true => exact .inr (.inl ⟨⟨hexpired, hdel⟩, rfl⟩)
    · have hnot : ¬ e.Expired now := fun h => hexp ((expired_iff hx hdate).mp h)
      simp only [Option.bind_eq_bind, Option.bind_some, if_neg hexp]
      exact .inr (.inr ⟨fun h => hnot h.1, fun h => hnot h.1, rfl⟩)

/-! ### What becomes of all of them -/

namespace CleanUp

variable {c : CleanUp} {es : List (Sigma fun _ : UUID => Entry)}

/-- The loop of `clean_up_expired_data`, where every date can be read. -/
def sweep (now : Int64) (c : CleanUp) (es : List (Sigma fun _ : UUID => Entry)) : CleanUp :=
  es.foldl (fun c e => c.apply e.1 (e.2.verdict now)) c

/-- The loop goes over all entries if each is readable. -/
theorem run_entry (h : ∀ e ∈ es, e.2.Readable) :
    Run.run (entry now) c es = some (sweep now c es) := by
  induction es generalizing c with
  | nil => rfl
  | cons e es ih =>
    have hstep : entry now c e = some (c.apply e.1 (e.2.verdict now)) := by
      have hread := h e List.mem_cons_self
      rw [entry.eq_def, Entry.verdict]
      cases hx : e.2.expirationDate with
      | none => rfl
      | some x =>
        have hsome : (entry now c e).isSome := isSome_entry.mpr hread
        rw [entry.eq_def, hx] at hsome
        dsimp only at hsome ⊢
        obtain ⟨v, hv⟩ := Option.isSome_iff_exists.mp (Option.isSome_map.symm.trans hsome)
        rw [Option.bind_some, hv]
        rfl
    rw [Run.run_cons, hstep, Option.bind_some, ih fun e he => h e (List.mem_cons_of_mem _ he)]
    rfl

theorem marked_apply (v : Verdict) :
    (c.apply u v).marked = c.marked ++ if v.isMark then [u] else [] := by
  cases v with
  | mark e => rfl
  | _ => exact (List.append_nil _).symm

theorem removed_apply (v : Verdict) :
    (c.apply u v).removed = c.removed ++ if v.isRemove then [u] else [] := by
  cases v with
  | remove => rfl
  | _ => exact (List.append_nil _).symm

/-- A verdict is about one entry. -/
theorem lookup_apply {w : UUID} (v : Verdict) :
    (c.apply u v).storageData.lookup w =
      if w = u then v.after (c.storageData.lookup w) else c.storageData.lookup w := by
  cases v with
  | mark e => exact Ledger.lookup_insert_ite
  | _ => exact (ite_self _).symm

/-- A list to which the uuids with one kind of verdict are added. -/
theorem listed_sweep (f : CleanUp → List UUID) (b : Verdict → Bool)
    (happly : ∀ c u v, f (c.apply u v) = f c ++ if b v then [u] else []) :
    f (sweep now c es) = f c ++ (es.filter fun e => b (e.2.verdict now)).map Sigma.fst := by
  induction es generalizing c with
  | nil => exact (List.append_nil _).symm
  | cons e es ih =>
    have hcons : f (sweep now c (e :: es)) =
        f (sweep now (c.apply e.1 (e.2.verdict now)) es) := rfl
    rw [hcons, ih, happly, List.filter_cons]
    split_ifs
    · simp
    · simp

/-- What the loop marks are the entries with that verdict. -/
theorem marked_sweep : (sweep now c es).marked =
    c.marked ++ (es.filter fun e => (e.2.verdict now).isMark).map Sigma.fst :=
  listed_sweep marked Verdict.isMark fun _ _ v => marked_apply v

/-- The same for what it removes. -/
theorem removed_sweep : (sweep now c es).removed =
    c.removed ++ (es.filter fun e => (e.2.verdict now).isRemove).map Sigma.fst :=
  listed_sweep removed Verdict.isRemove fun _ _ v => removed_apply v

/-- A uuid that is not in the list keeps its entry. -/
theorem lookup_sweep_of_notMem (h : u ∉ es.map Sigma.fst) :
    (sweep now c es).storageData.lookup u = c.storageData.lookup u := by
  induction es generalizing c with
  | nil => rfl
  | cons e es ih =>
    rw [List.map_cons, List.mem_cons, not_or] at h
    have hcons : sweep now c (e :: es) = sweep now (c.apply e.1 (e.2.verdict now)) es := rfl
    rw [hcons, ih h.2, lookup_apply, if_neg h.1]

/-- One that is in the list has the entry that it is to have. -/
theorem lookup_sweep (hnodup : (es.map Sigma.fst).Nodup) (h : ⟨u, e⟩ ∈ es) :
    (sweep now c es).storageData.lookup u = (e.verdict now).after (c.storageData.lookup u) := by
  induction es generalizing c with
  | nil => cases h
  | cons f es ih =>
    rw [List.map_cons, List.nodup_cons] at hnodup
    have hcons : sweep now c (f :: es) = sweep now (c.apply f.1 (f.2.verdict now)) es := rfl
    rcases List.mem_cons.mp h with rfl | h
    · rw [hcons, lookup_sweep_of_notMem hnodup.1, lookup_apply, if_pos rfl]
    · have hne : u ≠ f.1 := by
        rintro rfl
        exact hnodup.1 (List.mem_map.mpr ⟨_, h, rfl⟩)
      rw [hcons, ih hnodup.2 h, lookup_apply, if_neg hne]

end CleanUp

/-- What is left after some uuids were removed. -/
theorem lookup_foldl_erase {table : Ledger.Table UUID Entry} {us : List UUID} :
    (us.foldl (fun data u => data.erase u) table).lookup u =
      if u ∈ us then none else table.lookup u := by
  induction us generalizing table with
  | nil => simp
  | cons v us ih =>
    rw [List.foldl_cons, ih, Ledger.lookup_erase_ite]
    by_cases huv : u = v
    · simp [huv]
    · simp [huv]

namespace State

/-- The uuids with an entry of some kind. -/
def uuidsWhere (s : State) (p : Entry → Bool) : List UUID :=
  (s.sortedEntries.filter fun e => p e.2).map Sigma.fst

theorem nodup_keys_sortedEntries : (s.sortedEntries.map Sigma.fst).Nodup := by
  have hkeys : (s.storageData.entries.map Sigma.fst).Nodup := s.storageData.nodupKeys
  exact ((List.perm_insertionSort _ _).map _).nodup_iff.mpr hkeys

/-- A uuid is listed once. -/
theorem nodup_uuidsWhere {p : Entry → Bool} : (s.uuidsWhere p).Nodup :=
  nodup_keys_sortedEntries.sublist (List.filter_sublist.map _)

/-- The entries with a property, by their uuids. -/
theorem mem_uuidsWhere {p : Entry → Bool} :
    u ∈ s.uuidsWhere p ↔ ∃ e, s.storageData.lookup u = some e ∧ p e = true := by
  simp only [uuidsWhere, List.mem_map, List.mem_filter, mem_sortedEntries]
  constructor
  · rintro ⟨⟨v, e⟩, ⟨he, hp⟩, rfl⟩
    exact ⟨e, AList.mem_lookup_iff.mpr he, hp⟩
  · rintro ⟨e, he, hp⟩
    exact ⟨⟨u, e⟩, ⟨AList.mem_lookup_iff.mp he, hp⟩, rfl⟩

/-- The storage is asked for all of them at once, if there are any. -/
theorem out_postStorageDelete (names : List Text) : (s.postStorageDeleteRequestForUuids names).out =
    s.out ++ if names = [] then [] else [.delUuids names] := by
  rw [postStorageDeleteRequestForUuids]
  split_ifs
  · exact (List.append_nil _).symm
  · rfl

theorem file_postStorageDelete (names : List Text) :
    (s.postStorageDeleteRequestForUuids names).file = s.file := by
  rw [postStorageDeleteRequestForUuids]
  split_ifs
  · rfl
  · rfl

theorem updated_postStorageDelete (names : List Text) :
    (s.postStorageDeleteRequestForUuids names).deviceJsonUpdated = s.deviceJsonUpdated := by
  rw [postStorageDeleteRequestForUuids]
  split_ifs
  · rfl
  · rfl

/-- **What one clean-up does**: to every entry, to the messages, and to the rest of the task. -/
structure Swept (s : State) (now : Int64) (t : State) : Prop where
  lookup : ∀ u, t.storageData.lookup u = (s.storageData.lookup u).bind fun e =>
    if (e.verdict now).isRemove then none else (e.verdict now).after (some e)
  out : t.out = s.out ++
    if (s.uuidsWhere fun e => (e.verdict now).isMark).map UUID.text = [] then []
    else [.delUuids ((s.uuidsWhere fun e => (e.verdict now).isMark).map UUID.text)]
  file : t.file = s.file
  updated : t.deviceJsonUpdated = (s.deviceJsonUpdated ||
    !(s.uuidsWhere fun e => (e.verdict now).isMark).isEmpty ||
      !(s.uuidsWhere fun e => (e.verdict now).isRemove).isEmpty)

/-- The clean-up in one piece. -/
theorem swept (ht : s.cleanUpExpiredData now = some t) : s.Swept now t := by
  have hread : ∀ e ∈ s.storageData.entries, e.2.Readable :=
    isSome_cleanUpExpiredData.mp (Option.isSome_of_mem ht)
  have hrun : Run.run (CleanUp.entry now) ⟨s.storageData, [], []⟩ s.sortedEntries =
      some (CleanUp.sweep now ⟨s.storageData, [], []⟩ s.sortedEntries) :=
    CleanUp.run_entry fun e he => hread e (mem_sortedEntries.mp he)
  rw [State.cleanUpExpiredData, Option.bind_eq_bind, hrun, Option.bind_some] at ht
  obtain ⟨c, hc⟩ : ∃ c, c = CleanUp.sweep now ⟨s.storageData, [], []⟩ s.sortedEntries := ⟨_, rfl⟩
  rw [← hc] at ht
  have hmarked : c.marked = s.uuidsWhere fun e => (e.verdict now).isMark := by
    rw [hc, CleanUp.marked_sweep]
    rfl
  have hremoved : c.removed = s.uuidsWhere fun e => (e.verdict now).isRemove := by
    rw [hc, CleanUp.removed_sweep]
    rfl
  have hdata : ∀ names, (({ s with storageData := c.storageData } :
      State).postStorageDeleteRequestForUuids names).storageData = c.storageData :=
    storageData_postStorageDelete
  rw [← Option.some.inj ht]
  constructor
  · intro u
    simp only [hdata, lookup_foldl_erase, hremoved, mem_uuidsWhere]
    cases he : s.storageData.lookup u with
    | none =>
      have hnot : u ∉ s.sortedEntries.map Sigma.fst := by
        intro hmem
        obtain ⟨⟨v, e⟩, hve, rfl⟩ := List.mem_map.mp hmem
        have hsome := AList.mem_lookup_iff.mpr (mem_sortedEntries.mp hve)
        rw [he] at hsome
        cases hsome
      rw [if_neg (by simp), hc, CleanUp.lookup_sweep_of_notMem hnot]
      exact he
    | some e =>
      have hmem : ⟨u, e⟩ ∈ s.sortedEntries := mem_sortedEntries.mpr (AList.mem_lookup_iff.mp he)
      rw [hc, CleanUp.lookup_sweep nodup_keys_sortedEntries hmem]
      simp [he]
  · change (({ s with storageData := c.storageData } :
      State).postStorageDeleteRequestForUuids (c.marked.map UUID.text)).out = _
    rw [out_postStorageDelete, hmarked]
  · exact file_postStorageDelete _
  · change ((({ s with storageData := c.storageData } :
      State).postStorageDeleteRequestForUuids (c.marked.map UUID.text)).deviceJsonUpdated ||
        !c.marked.isEmpty || !c.removed.isEmpty) = _
    rw [updated_postStorageDelete, hmarked, hremoved]

/-- It brings up no entry. -/
theorem Swept.lookup_of_none (h : s.Swept now t) (hu : s.storageData.lookup u = none) :
    t.storageData.lookup u = none := by
  rw [h.lookup, hu]
  rfl

/-- And gives each of them its verdict. -/
theorem Swept.lookup_of_some (h : s.Swept now t) (hu : s.storageData.lookup u = some e) :
    t.storageData.lookup u =
      if (e.verdict now).isRemove then none else (e.verdict now).after (some e) := by
  rw [h.lookup, hu]
  rfl

end State

/-! ### The law holds -/

/-- What is marked now is not removed at once. -/
theorem Entry.not_removed_of_marked (h : e.Marked now) : ¬ e.Removed now := by
  intro hremoved
  have hdel := h.2.symm.trans hremoved.2
  cases hdel

/-- The three verdicts by their conditions. -/
theorem Entry.verdict_of_marked (hread : e.Readable) (h : e.Marked now) :
    e.verdict now = .mark { e with
      isDeleted := some true, expirationDate := some (.signed (now + thirtyDays)) } := by
  obtain ⟨-, hv⟩ | ⟨hremoved, -⟩ | ⟨hnot, -⟩ := verdict_cases now hread
  · exact hv
  · exact absurd hremoved (not_removed_of_marked h)
  · exact absurd h hnot

theorem Entry.verdict_of_removed (hread : e.Readable) (h : e.Removed now) :
    e.verdict now = .remove := by
  obtain ⟨hmarked, -⟩ | ⟨-, hv⟩ | ⟨-, hnot, -⟩ := verdict_cases now hread
  · exact absurd h (not_removed_of_marked hmarked)
  · exact hv
  · exact absurd h hnot

theorem Entry.verdict_of_neither (hread : e.Readable) (h : ¬ e.Marked now)
    (h' : ¬ e.Removed now) : e.verdict now = .keep := by
  obtain ⟨hmarked, -⟩ | ⟨hremoved, -⟩ | ⟨-, -, hv⟩ := verdict_cases now hread
  · exact absurd hmarked h
  · exact absurd hremoved h'
  · exact hv

/-- And the conditions by the verdicts. -/
theorem Entry.isMark_iff (hread : e.Readable) : (e.verdict now).isMark = true ↔ e.Marked now := by
  obtain ⟨hmarked, hv⟩ | ⟨hremoved, hv⟩ | ⟨hnot, -, hv⟩ := verdict_cases now hread
  · rw [hv]
    exact iff_of_true rfl hmarked
  · rw [hv]
    exact iff_of_false Bool.false_ne_true fun h => not_removed_of_marked h hremoved
  · rw [hv]
    exact iff_of_false Bool.false_ne_true hnot

/-- The entries that are left can be read, and there is nothing to do with them. -/
theorem State.Swept.quiet (h : s.Swept now t)
    (hread : ∀ u e, s.storageData.lookup u = some e → e.Readable)
    (hclock : ∀ u e, s.storageData.lookup u = some e → e.Marked now →
      (now + thirtyDays).toInt = now.toInt + thirtyDays.toInt)
    (hu : t.storageData.lookup u = some e) : e.Readable ∧ e.verdict now = .keep := by
  cases hs : s.storageData.lookup u with
  | none =>
    rw [h.lookup_of_none hs] at hu
    cases hu
  | some e₀ =>
    rw [h.lookup_of_some hs] at hu
    have hread₀ := hread u e₀ hs
    obtain ⟨hmarked, hv⟩ | ⟨-, hv⟩ | ⟨hnot, hnot', hv⟩ := Entry.verdict_cases now hread₀
    · rw [hv] at hu
      obtain rfl := Option.some.inj hu
      have hlater : (Expiration.signed (now + thirtyDays)).toInt = now.toInt + thirtyDays.toInt :=
        hclock u e₀ hs hmarked
      have hreadable : Entry.Readable { e₀ with
          isDeleted := some true, expirationDate := some (.signed (now + thirtyDays)) } := by
        intro x hx
        rw [← Option.some.inj hx]
        rfl
      -- a new tombstone has not expired yet
      have hexpired : ¬ Entry.Expired { e₀ with
          isDeleted := some true, expirationDate := some (.signed (now + thirtyDays)) } now := by
        rintro ⟨x, hx, -, hle⟩
        rw [← Option.some.inj hx, hlater, toInt_thirtyDays] at hle
        omega
      exact ⟨hreadable, Entry.verdict_of_neither hreadable (fun hm => hexpired hm.1)
        fun hr => hexpired hr.1⟩
    · rw [hv] at hu
      cases hu
    · rw [hv] at hu
      obtain rfl := Option.some.inj hu
      exact ⟨hread₀, hv⟩

/-- A clean-up that finds nothing to do changes nothing. -/
theorem cleanUpExpiredData_eq_self (hread : ∀ u e, s.storageData.lookup u = some e → e.Readable)
    (h : ∀ u e, s.storageData.lookup u = some e → e.verdict now = .keep) :
    s.cleanUpExpiredData now = some s := by
  have hrun : Run.run (CleanUp.entry now) ⟨s.storageData, [], []⟩ s.sortedEntries =
      some (CleanUp.sweep now ⟨s.storageData, [], []⟩ s.sortedEntries) :=
    CleanUp.run_entry fun e he =>
      hread e.1 e.2 (AList.mem_lookup_iff.mpr (State.mem_sortedEntries.mp he))
  have hsame : CleanUp.sweep now ⟨s.storageData, [], []⟩ s.sortedEntries =
      ⟨s.storageData, [], []⟩ := by
    have hall : ∀ es : List (Sigma fun _ : UUID => Entry),
        (∀ e ∈ es, e.2.verdict now = .keep) → ∀ c, CleanUp.sweep now c es = c := by
      intro es
      induction es with
      | nil => exact fun _ _ => rfl
      | cons e es ih =>
        intro hkeep c
        have hcons : CleanUp.sweep now c (e :: es) =
            CleanUp.sweep now (c.apply e.1 (e.2.verdict now)) es := rfl
        rw [hcons, hkeep e List.mem_cons_self]
        exact ih (fun e he => hkeep e (List.mem_cons_of_mem _ he)) c
    refine hall _ (fun e he => ?_) _
    exact h e.1 e.2 (AList.mem_lookup_iff.mpr (State.mem_sortedEntries.mp he))
  rw [State.cleanUpExpiredData, Option.bind_eq_bind, hrun, hsame, Option.bind_some]
  simp [State.postStorageDeleteRequestForUuids]

/-- **Exactly when** one clean-up does what the law says. -/
theorem cleansUp_iff :
    (∃ t, s.cleanUpExpiredData now = some t ∧ CleansUp s now t) ↔ Datable s now := by
  have hreadable : (∀ u e, s.storageData.lookup u = some e → e.Readable) ↔
      ∀ u e x, s.storageData.lookup u = some e → e.expirationDate = some x → x.toInt < 2 ^ 63 := by
    simp only [readable_iff]
    exact forall_congr' fun u => forall_congr' fun e => ⟨fun h x hu hx => h hu x hx,
      fun h hu x hx => h x hu hx⟩
  rw [Datable, ← hreadable]
  constructor
  · rintro ⟨t, ht, hlaw⟩
    have hread : ∀ u e, s.storageData.lookup u = some e → e.Readable := by
      intro u e hu
      exact State.isSome_cleanUpExpiredData.mp (Option.isSome_of_mem ht) ⟨u, e⟩
        (AList.mem_lookup_iff.mp hu)
    refine ⟨hread, fun u e hu hmarked => ?_⟩
    obtain ⟨x, hx, hlater⟩ := hlaw.marked u e hu hmarked
    rw [(State.swept ht).lookup_of_some hu, Entry.verdict_of_marked (hread u e hu) hmarked] at hx
    have hdate : some (Expiration.signed (now + thirtyDays)) = some x :=
      congrArg Entry.expirationDate (Option.some.inj hx)
    rw [← Option.some.inj hdate] at hlater
    exact toInt_add_thirtyDays.mp hlater
  · rintro ⟨hread, hclock⟩
    have hsome : (s.cleanUpExpiredData now).isSome := by
      rw [State.isSome_cleanUpExpiredData]
      exact fun e he => hread e.1 e.2 (AList.mem_lookup_iff.mpr he)
    obtain ⟨t, ht⟩ := Option.isSome_iff_exists.mp hsome
    have hswept := State.swept ht
    have hlater : ∀ u e, s.storageData.lookup u = some e → e.Marked now →
        (now + thirtyDays).toInt = now.toInt + thirtyDays.toInt :=
      fun u e hu hmarked => toInt_add_thirtyDays.mpr (hclock u e hu hmarked)
    refine ⟨t, ht, ?_⟩
    constructor
    · intro u e hu hnot hnot'
      rw [hswept.lookup_of_some hu, Entry.verdict_of_neither (hread u e hu) hnot hnot']
      rfl
    · intro u e hu hmarked
      rw [hswept.lookup_of_some hu, Entry.verdict_of_marked (hread u e hu) hmarked]
      exact ⟨_, rfl, hlater u e hu hmarked⟩
    · intro u e hu hremoved
      rw [hswept.lookup_of_some hu, Entry.verdict_of_removed (hread u e hu) hremoved]
      rfl
    · exact fun u hu => hswept.lookup_of_none hu
    · refine ⟨(s.uuidsWhere fun e => (e.verdict now).isMark).map UUID.text, hswept.out, ?_,
        fun name => ?_⟩
      · exact State.nodup_uuidsWhere.map UUID.text_injective
      · simp only [List.mem_map, State.mem_uuidsWhere]
        constructor
        · rintro ⟨u, ⟨e, hu, hmark⟩, hname⟩
          exact ⟨u, e, hname.symm, hu, (Entry.isMark_iff (hread u e hu)).mp hmark⟩
        · rintro ⟨u, e, hname, hu, hmarked⟩
          exact ⟨u, ⟨e, hu, (Entry.isMark_iff (hread u e hu)).mpr hmarked⟩, hname.symm⟩
    · refine cleanUpExpiredData_eq_self (fun u e hu => ?_) fun u e hu => ?_
      · exact (hswept.quiet hread hlater hu).1
      · exact (hswept.quiet hread hlater hu).2

end Backup

end Metax
