import Metax.Backup.JournalText

/-!
# What a journal tells, and what is read from it

A journal has four fields a line: a uuid, the time of the last change, the operation and the
version. The reader takes the uuid and the two numbers from them as
`handle_kernel_get_journal_info` does (`Line.record`). Whatever an entry holds comes back so: a
time of `2 ^ 63` or more is written as a negative number and read as its complement.

Which entries are written is another matter. The writer compares times as signed numbers, so an
entry with such a time is left out of the journal since any time from `0` on. The journal is
exactly what it should be if there is no such entry (`journal_roundTrips_iff`).
-/

namespace Metax

namespace Backup

open Text

/-- What a journal tells of an entry. -/
structure Record where
  uuid : UUID
  lastUpdated : UInt64
  isDeleted : Bool
  version : UInt32
  deriving DecidableEq

/-- The entry is newer than a time. -/
def Record.Newer (r : Record) (lastSeen : Int64) : Prop := lastSeen.toInt < r.lastUpdated.toNat

instance (r : Record) (lastSeen : Int64) : Decidable (r.Newer lastSeen) :=
  inferInstanceAs (Decidable (lastSeen.toInt < r.lastUpdated.toNat))

/-- What there is to tell of an entry, if nothing is missing. -/
def Entry.record (u : UUID) (e : Entry) : Option Record := do
  let lastUpdated ← e.lastUpdated
  let isDeleted ← e.isDeleted
  let version ← e.version
  pure ⟨u, lastUpdated, isDeleted, version⟩

/-- The operations the reader knows. -/
def Line.tellsDeleted (l : Line) : Option Bool :=
  if l.operation = ['d'] then some true else if l.operation = ['s'] then some false else none

/-- What the reader takes from a line. -/
def Line.record (L : Libs) (l : Line) : Option Record := do
  let u ← L.parseUuid l.uuid
  let isDeleted ← l.tellsDeleted
  pure ⟨u, State.toUInt64 L l.lastUpdated, isDeleted, State.toUInt32 L l.version⟩

namespace State

/-- What there is to tell of the entries. -/
def records (s : State) : List Record := s.storageData.entries.filterMap fun e => e.2.record e.1

/-- What there is to tell since a time. -/
def newer (s : State) (lastSeen : Int64) : List Record := s.records.filter (·.Newer lastSeen)

/-- The journal since a time, and the one for the uuids of a message. -/
def journalSince (s : State) (lastSeen : Int64) : Text := s.sendJournalInfoByLastSeenTime lastSeen

def journalFor (s : State) (L : Libs) (lastSeen : Int64) (message : Text) : Text :=
  (s.sendJournalInfoForUuids L (cString message) lastSeen).getD []

/-- **The law.** What is read is what there is to tell, and the list of the message selects from
it. -/
structure RoundTrips (s : State) (L : Libs) (lastSeen : Int64) (message : Text) : Prop where
  fields : ∀ t ∈ lines (cString (s.journalSince lastSeen)), (Line.ofText t).isSome
  read : ((journalLines (s.journalSince lastSeen)).map (Line.record L)).Perm
    ((s.newer lastSeen).map some)
  fieldsFor : ∀ t ∈ lines (cString (s.journalFor L lastSeen message)), (Line.ofText t).isSome
  readFor : (journalLines (s.journalFor L lastSeen message)).map (Line.record L) =
    ((askedNames L message).filterMap fun name =>
      (s.newer lastSeen).find? fun r => r.uuid.text = name).map some
  filtered : (askedNames L message).Nodup →
    ((journalLines (s.journalFor L lastSeen message)).map (Line.record L)).Perm
      (((s.newer lastSeen).filter fun r =>
        (askedNames L message).any fun name => r.uuid.text = name).map some)

/-- **The condition**: a time that is a negative number for the writer is newer also as one. -/
def Comparable (s : State) (lastSeen : Int64) : Prop :=
  ∀ r ∈ s.records, 2 ^ 63 ≤ r.lastUpdated.toNat → lastSeen < r.lastUpdated.toInt64

end State

variable {L : Libs} {s : State} {u : UUID} {e : Entry} {r : Record} {lastSeen : Int64}
  {message name : Text}

/-! ### Fields -/

theorem toInt_toInt64 (n : UInt64) :
    n.toInt64.toInt = if n.toNat < 2 ^ 63 then (n.toNat : ℤ) else n.toNat - 2 ^ 64 := by
  have hdef : n.toInt64.toInt = n.toBitVec.toInt := rfl
  have heq : n.toBitVec.toNat = n.toNat := rfl
  rw [hdef, BitVec.toInt_eq_toNat_cond, heq]
  split_ifs
  · rfl
  · omega
  · omega
  · rfl

/-- A time is read as it was, also one that is written as a negative number. -/
theorem toUInt64_toString (n : UInt64) :
    State.toUInt64 L (toString n.toInt64.toInt).toList = n := by
  have hlt := n.toNat_lt
  have hread : readUnsigned (2 ^ 64) L.unassigned (toString n.toInt64.toInt).toList = n.toNat := by
    rw [toInt_toInt64]
    split_ifs with hsmall
    · exact readUnsigned_toString hlt
    · obtain ⟨m, hm⟩ : ∃ m, n.toNat + (m + 1) = 2 ^ 64 := ⟨2 ^ 64 - n.toNat - 1, by omega⟩
      have hneg : (n.toNat : ℤ) - 2 ^ 64 = Int.negSucc m := by omega
      have htext : (toString (Int.negSucc m)).toList = '-' :: (toString (m + 1)).toList := by
        simp [toString, Int.repr]
      rw [hneg, htext, readUnsigned_neg (by omega)]
      omega
  rw [State.toUInt64, hread, UInt64.ofNat_toNat]

/-- The line that is written. -/
def Record.line (r : Record) : Line where
  uuid := r.uuid.text
  lastUpdated := (toString r.lastUpdated.toInt64.toInt).toList
  operation := [if r.isDeleted then 'd' else 's']
  version := (toString r.version.toNat).toList

/-- **A line is read as it was written.** -/
theorem Record.record_line : r.line.record L = some r := by
  obtain ⟨u, lastUpdated, isDeleted, version⟩ := r
  have hdeleted : (Record.line ⟨u, lastUpdated, isDeleted, version⟩).tellsDeleted =
      some isDeleted := by
    cases isDeleted with
    | true => rfl
    | false => rfl
  have hversion : State.toUInt32 L (toString version.toNat).toList = version := by
    rw [State.toUInt32, readUnsigned_toString version.toNat_lt, UInt32.ofNat_toNat]
  rw [Line.record, hdeleted, line, L.parseUuid_text]
  simp only [Option.bind_eq_bind, Option.bind_some, Option.pure_def, toUInt64_toString, hversion]

theorem Entry.uuid_of_record (h : e.record u = some r) : r.uuid = u := by
  simp only [record, Option.bind_eq_bind, Option.pure_def, Option.bind_eq_some_iff,
    Option.some.injEq] at h
  obtain ⟨lastUpdated, -, isDeleted, -, version, -, rfl⟩ := h
  rfl

/-- The writer's choice. -/
theorem Entry.line_eq : e.line lastSeen u.text =
    ((e.record u).filter fun r => lastSeen < r.lastUpdated.toInt64).map Record.line := by
  obtain ⟨version, isDeleted, lastUpdated, x⟩ := e
  cases lastUpdated with
  | none => rfl
  | some lastUpdated =>
    cases version with
    | none =>
      cases isDeleted with
      | none => rfl
      | some isDeleted => rfl
    | some version =>
      cases isDeleted with
      | none => rfl
      | some isDeleted =>
        have hrecord : Entry.record u ⟨some version, some isDeleted, some lastUpdated, x⟩ =
            some ⟨u, lastUpdated, isDeleted, version⟩ := rfl
        rw [hrecord, line, Option.filter_some]
        by_cases hlt : lastSeen < lastUpdated.toInt64
        · simp only [hlt, if_true, decide_true, Option.map_some]
          rfl
        · simp only [hlt, if_false, decide_false, Option.map_none, Bool.false_eq_true]

/-! ### The times -/

/-- The two ways to compare differ for large times only. -/
theorem Record.newer_iff (h : 2 ^ 63 ≤ r.lastUpdated.toNat → lastSeen < r.lastUpdated.toInt64) :
    r.Newer lastSeen ↔ lastSeen < r.lastUpdated.toInt64 := by
  have hlt := lastSeen.toInt_lt
  rw [Newer, Int64.lt_iff_toInt_lt] at *
  have htime := toInt_toInt64 r.lastUpdated
  split_ifs at htime with hsmall
  · rw [htime]
  · have hcode := h (by omega)
    exact iff_of_true (by omega) hcode

namespace State

/-- What the writer tells. -/
def told (s : State) (lastSeen : Int64) : List Record :=
  s.records.filter fun r => lastSeen < r.lastUpdated.toInt64

theorem told_eq_newer (h : s.Comparable lastSeen) : s.told lastSeen = s.newer lastSeen :=
  List.filter_congr fun r hr => by rw [decide_eq_decide, Record.newer_iff (h r hr)]

/-! ### Records -/

theorem mem_records :
    r ∈ s.records ↔ ∃ e, s.storageData.lookup r.uuid = some e ∧ e.record r.uuid = some r := by
  rw [records, List.mem_filterMap]
  constructor
  · rintro ⟨⟨u, e⟩, hmem, hrecord⟩
    obtain rfl := Entry.uuid_of_record hrecord
    exact ⟨e, AList.mem_lookup_iff.mpr hmem, hrecord⟩
  · rintro ⟨e, hlookup, hrecord⟩
    exact ⟨⟨r.uuid, e⟩, AList.mem_lookup_iff.mp hlookup, hrecord⟩

theorem mem_told : r ∈ s.told lastSeen ↔ r ∈ s.records ∧ lastSeen < r.lastUpdated.toInt64 := by
  rw [told, List.mem_filter, decide_eq_true_eq]

/-- There is one record of a uuid. -/
theorem nodup_uuid_records : (s.records.map Record.uuid).Nodup := by
  have hsub : ∀ es : List (Sigma fun _ : UUID => Entry),
      ((es.filterMap fun e => e.2.record e.1).map Record.uuid).Sublist (es.map Sigma.fst) := by
    intro es
    induction es with
    | nil => exact List.Sublist.slnil
    | cons e es ih =>
      rw [List.filterMap_cons, List.map_cons]
      cases hrecord : e.2.record e.1 with
      | none => exact ih.cons e.1
      | some r =>
        rw [← Entry.uuid_of_record hrecord]
        exact ih.cons_cons r.uuid
  have hkeys : (s.storageData.entries.map Sigma.fst).Nodup := s.storageData.nodupKeys
  exact hkeys.sublist (hsub _)

theorem nodup_uuid_told : ((s.told lastSeen).map Record.uuid).Nodup :=
  nodup_uuid_records.sublist (List.filter_sublist.map _)

/-- What is found for a name. -/
theorem find?_told : (s.told lastSeen).find? (fun r => r.uuid.text = name) = some r ↔
    r ∈ s.told lastSeen ∧ r.uuid.text = name := by
  constructor
  · intro h
    exact ⟨List.mem_of_find?_eq_some h, by simpa using List.find?_some h⟩
  · rintro ⟨hmem, htext⟩
    have hsome : ((s.told lastSeen).find? fun r => r.uuid.text = name).isSome :=
      List.find?_isSome.mpr ⟨r, hmem, decide_eq_true htext⟩
    obtain ⟨r', hr'⟩ := Option.isSome_iff_exists.mp hsome
    have htext' : r'.uuid.text = name := by simpa using List.find?_some hr'
    have huuid : r'.uuid = r.uuid := UUID.text_injective (htext'.trans htext.symm)
    rw [hr', List.inj_on_of_nodup_map nodup_uuid_told (List.mem_of_find?_eq_some hr') hmem huuid]

/-! ### The journals -/

/-- The lines that are read since a time are the records that are told. -/
theorem record_linesSince : ((s.linesSince lastSeen).map (Line.record L)).Perm
    ((s.told lastSeen).map some) := by
  have hlines : (s.linesSince lastSeen).map (Line.record L) =
      (s.sortedEntries.filterMap fun e => (e.2.record e.1).filter fun r =>
        lastSeen < r.lastUpdated.toInt64).map some := by
    rw [linesSince, List.map_filterMap, List.map_filterMap]
    refine List.filterMap_congr fun e _ => ?_
    rw [Entry.line_eq, Option.map_map]
    exact congrArg (fun f => Option.map f _) (funext fun r => Record.record_line)
  have htold : s.told lastSeen = s.storageData.entries.filterMap fun e =>
      (e.2.record e.1).filter fun r => lastSeen < r.lastUpdated.toInt64 :=
    List.filter_filterMap
  rw [hlines, htold]
  exact ((List.perm_insertionSort _ _).filterMap _).map _

/-- What is told of an entry of the json. -/
theorem find?_told_of_lookup (hu : s.storageData.lookup u = some e) :
    (s.told lastSeen).find? (fun r => r.uuid.text = u.text) =
      (e.record u).filter fun r => lastSeen < r.lastUpdated.toInt64 := by
  refine Option.ext fun r => ?_
  rw [find?_told, mem_told, mem_records, Option.filter_eq_some_iff, decide_eq_true_eq]
  constructor
  · rintro ⟨⟨⟨e', hlookup, hrecord⟩, hlt⟩, htext⟩
    obtain rfl := UUID.text_injective htext
    obtain rfl : e = e' := Option.some.inj (hu.symm.trans hlookup)
    exact ⟨hrecord, hlt⟩
  · rintro ⟨hrecord, hlt⟩
    obtain rfl := Entry.uuid_of_record hrecord
    exact ⟨⟨⟨e, hu, hrecord⟩, hlt⟩, rfl⟩

/-- The line for a name is the record that is told of it. -/
theorem record_lineOf : (s.lineOf L lastSeen name).map (Line.record L) =
    ((s.told lastSeen).find? fun r => r.uuid.text = name).map some := by
  rw [lineOf]
  cases hname : s.lookupName L name with
  | none =>
    have hnone : (s.told lastSeen).find? (fun r => r.uuid.text = name) = none := by
      rw [Option.eq_none_iff_forall_ne_some]
      intro r hr
      obtain ⟨hmem, htext⟩ := find?_told.mp hr
      obtain ⟨e, hlookup, -⟩ := mem_records.mp (mem_told.mp hmem).1
      rw [lookupName_eq_some.mpr ⟨r.uuid, htext, hlookup⟩] at hname
      cases hname
    rw [hnone]
    rfl
  | some e =>
    obtain ⟨u, rfl, hu⟩ := lookupName_eq_some.mp hname
    rw [Option.bind_some, Entry.line_eq, find?_told_of_lookup hu, Option.map_map]
    exact congrArg (fun f => Option.map f _) (funext fun r => Record.record_line)

/-- The names of the list select from what is told. -/
theorem record_journalFor : (journalLines (s.journalFor L lastSeen message)).map (Line.record L) =
    ((askedNames L message).filterMap fun name =>
      (s.told lastSeen).find? fun r => r.uuid.text = name).map some := by
  rw [journalFor, sendJournalInfoForUuids_eq, journalLines_text clean_lineOf, List.map_filterMap,
    List.map_filterMap]
  exact List.filterMap_congr fun name _ => record_lineOf

/-- A list without repetitions filters. -/
theorem perm_filter_told (hnodup : (askedNames L message).Nodup) :
    ((askedNames L message).filterMap fun name =>
      (s.told lastSeen).find? fun r => r.uuid.text = name).Perm
        ((s.told lastSeen).filter fun r =>
          (askedNames L message).any fun name => r.uuid.text = name) := by
  refine (List.perm_ext_iff_of_nodup ?_ ?_).mpr fun r => ?_
  · refine hnodup.filterMap fun name name' r hr hr' => ?_
    exact (find?_told.mp hr).2.symm.trans (find?_told.mp hr').2
  · exact (List.Nodup.of_map _ nodup_uuid_told).filter _
  · simp only [List.mem_filterMap, find?_told, List.mem_filter, List.any_eq_true,
      decide_eq_true_eq]
    constructor
    · rintro ⟨name, hname, hmem, htext⟩
      exact ⟨hmem, name, hname, htext⟩
    · rintro ⟨hmem, name, hname, htext⟩
      exact ⟨name, hname, hmem, htext⟩

theorem isSome_ofText_of_clean {ls : List Line} (h : ∀ l ∈ ls, l.Clean) :
    ∀ t ∈ lines (cString (linesText ls)), (Line.ofText t).isSome := by
  rw [lines_linesText h]
  intro t ht
  obtain ⟨l, hl, rfl⟩ := List.mem_map.mp ht
  rw [Line.ofText_text (h l hl).1]
  rfl

/-- **Exactly when** a journal tells what it should. -/
theorem journal_roundTrips_iff (s : State) (L : Libs) (lastSeen : Int64) (message : Text) :
    s.RoundTrips L lastSeen message ↔ s.Comparable lastSeen := by
  have hread : ((journalLines (s.journalSince lastSeen)).map (Line.record L)).Perm
      ((s.told lastSeen).map some) := by
    rw [journalSince, sendJournalInfoByLastSeenTime_eq, journalLines_text clean_linesSince]
    exact record_linesSince
  constructor
  · intro h r hr hlarge
    have hnewer : r ∈ s.newer lastSeen := by
      refine List.mem_filter.mpr ⟨hr, decide_eq_true ?_⟩
      have hlt := lastSeen.toInt_lt
      rw [Record.Newer]
      omega
    have hmem : some r ∈ (s.told lastSeen).map some :=
      (hread.symm.trans h.read).mem_iff.mpr (List.mem_map_of_mem hnewer)
    obtain ⟨r', hr', heq⟩ := List.mem_map.mp hmem
    rw [← Option.some.inj heq]
    exact (mem_told.mp hr').2
  · intro h
    have hsame := told_eq_newer h
    constructor
    · rw [journalSince, sendJournalInfoByLastSeenTime_eq]
      exact isSome_ofText_of_clean clean_linesSince
    · rw [← hsame]
      exact hread
    · rw [journalFor, sendJournalInfoForUuids_eq]
      exact isSome_ofText_of_clean clean_lineOf
    · rw [← hsame]
      exact record_journalFor
    · intro hnodup
      rw [← hsame, record_journalFor]
      exact (perm_filter_told hnodup).map some

/-- **A time of `2 ^ 63`** is later than the epoch, and the journal since the epoch is empty. -/
theorem not_journal_roundTrips : ¬ ∀ (s : State) (L : Libs) (lastSeen : Int64) (message : Text),
    s.RoundTrips L lastSeen message := by
  intro h
  have hcomparable := (journal_roundTrips_iff _ _ _ _).mp
    (h (fresh.handleAddInDeviceJson 5 1 false (.ofNat (2 ^ 63)) 0) canonicalLibs 0 [])
  have hlt := hcomparable ⟨5, .ofNat (2 ^ 63), false, 1⟩ (by decide) (by decide)
  exact absurd hlt (by decide)

end State

end Backup

end Metax
