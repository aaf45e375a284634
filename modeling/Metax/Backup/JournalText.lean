import Metax.Backup.StaleJournal

/-!
# Journals from one node to another

A journal is written by one node and read by another. What is read are the lines that were written
(`journalLines_text`), one for each entry that is newer than the time the journal is asked for
(`mem_journalLines`, `mem_journalLines_uuids`).

The node that compares a journal with its json ends up with what a line tells of, or it requests the
uuid of the line (`getJournalInfo_holds`): every uuid the json has is treated so, and a saved one
also where unknown uuids are fetched. Nothing the json holds is lost on the way.

Texts are taken apart as the C++ streams do it (`Metax.Library.Text`); what is written has no
character that would be taken for a separator.
-/

namespace Metax

namespace Backup

open Text

variable {L : Libs} {s t : State} {u : UUID} {e : Entry} {version : UInt32} {syncClass : UInt32}
  {now lastSeen : Int64} {requestId : ID32} {message name : Text}

/-! ### Lines as they are written -/

/-- A line as it is written, without the line break. -/
def Line.text (l : Line) : Text := cat ' ' [l.uuid, l.lastUpdated, l.operation, l.version]

/-- The line for an entry, if it is newer than a time. -/
def Entry.line (e : Entry) (lastSeen : Int64) (name : Text) : Option Line :=
  match e.lastUpdated, e.version, e.isDeleted with
  | some lastUpdated, some version, some isDeleted =>
    if lastSeen < lastUpdated.toInt64 then
      some ⟨name, (toString lastUpdated.toInt64.toInt).toList, [if isDeleted then 'd' else 's'],
        (toString version.toNat).toList⟩
    else none
  | _, _, _ => none

/-- The text of some lines. -/
def linesText (ls : List Line) : Text := ls.flatMap fun l => l.text ++ ['\n']

theorem constructJournalInfoLine_eq :
    State.constructJournalInfoLine e lastSeen name = linesText (e.line lastSeen name).toList := by
  obtain ⟨version, isDeleted, lastUpdated, x⟩ := e
  cases lastUpdated with
  | none => rfl
  | some lastUpdated =>
    cases version with
    | none => rfl
    | some version =>
      cases isDeleted with
      | none => rfl
      | some isDeleted =>
        simp only [State.constructJournalInfoLine, Entry.line]
        split_ifs
        · simp only [Option.toList_some, linesText, List.flatMap_singleton, Line.text]
        · simp only [Option.toList_some, linesText, List.flatMap_singleton, Line.text]
        · rfl

/-- What a line for an entry has in its fields. -/
theorem Entry.line_eq_some {l : Line} (h : e.line lastSeen name = some l) :
    ∃ version isDeleted, e.version = some version ∧ e.isDeleted = some isDeleted ∧
      l.uuid = name ∧ (∃ n : ℤ, l.lastUpdated = (toString n).toList) ∧
        l.operation = [if isDeleted then 'd' else 's'] ∧
          l.version = (toString version.toNat).toList := by
  rw [line] at h
  split at h
  · rename_i lastUpdated version isDeleted _ hversion hdeleted
    split at h
    · obtain rfl := Option.some.inj h
      exact ⟨version, isDeleted, hversion, hdeleted, rfl, ⟨_, rfl⟩, rfl, rfl⟩
    · cases h
  · cases h

/-- A character that no field of a line contains. -/
def Line.Lacks (c : Char) (l : Line) : Prop :=
  c ∉ l.uuid ∧ c ∉ l.lastUpdated ∧ c ∉ l.operation ∧ c ∉ l.version

theorem notMem_toString {n : ℕ} {c : Char} (h : c.isDigit = false) : c ∉ (toString n).toList := by
  intro hc
  rw [Nat.toString_eq_ofList_toDigits, String.toList_ofList] at hc
  exact ne_of_isDigit (Nat.isDigit_of_mem_toDigits (by omega) (by omega) hc) h rfl

theorem notMem_toString_int {n : ℤ} {c : Char} (h : c.isDigit = false) (hminus : c ≠ '-') :
    c ∉ (toString n).toList := by
  cases n with
  | ofNat n => exact notMem_toString h
  | negSucc n =>
    have htext : (toString (Int.negSucc n)).toList = '-' :: (toString (n + 1)).toList := by
      simp [toString, Int.repr]
    rw [htext, List.mem_cons, not_or]
    exact ⟨hminus, notMem_toString h⟩

/-- The fields of a line for a uuid are a uuid, numbers and an operation. -/
theorem Entry.lacks_line {c : Char} {l : Line} (hl : e.line lastSeen u.text = some l)
    (hdigit : c.isDigit = false) (hminus : c ≠ '-') (hhex : ∀ m < 16, c ≠ m.digitChar)
    (hop : c ≠ 'd' ∧ c ≠ 's') : l.Lacks c := by
  obtain ⟨version, isDeleted, -, -, huuid, ⟨n, htime⟩, hoperation, hversion⟩ := line_eq_some hl
  rw [Line.Lacks, huuid, htime, hoperation, hversion, List.mem_singleton]
  refine ⟨UUID.notMem_text hminus hhex, notMem_toString_int hdigit hminus, ?_,
    notMem_toString hdigit⟩
  cases isDeleted with
  | false => exact hop.2
  | true => exact hop.1

/-- The separators of a journal. -/
def Line.Clean (l : Line) : Prop := l.Lacks ' ' ∧ l.Lacks '\n' ∧ l.Lacks '\x00'

theorem Entry.clean_line {l : Line} (hl : e.line lastSeen u.text = some l) : l.Clean :=
  ⟨lacks_line hl rfl (by decide) (by decide) (by decide),
    lacks_line hl rfl (by decide) (by decide) (by decide),
    lacks_line hl rfl (by decide) (by decide) (by decide)⟩

/-! ### Lines as they are read -/

theorem Line.text_eq (l : Line) : l.text =
    l.uuid ++ ' ' :: (l.lastUpdated ++ ' ' :: (l.operation ++ ' ' :: l.version)) := by
  simp [text, cat, List.intercalate]

theorem Line.notMem_text {c : Char} {l : Line} (h : l.Lacks c) (hc : c ≠ ' ') : c ∉ l.text := by
  simp only [text_eq, List.mem_append, List.mem_cons, not_or]
  exact ⟨h.1, hc, h.2.1, hc, h.2.2.1, hc, h.2.2.2⟩

theorem Line.ofText_text {l : Line} (h : l.Lacks ' ') : ofText l.text = some l := by
  have htokens : tokens ' ' l.text = [l.uuid, l.lastUpdated, l.operation, l.version] := by
    refine tokens_cat ?_ ?_
    · simp only [List.forall_mem_cons]
      exact ⟨h.1, h.2.1, h.2.2.1, h.2.2.2, List.forall_mem_nil _⟩
    · exact fun hnil => by simpa [cat, List.intercalate] using congrArg List.length hnil
  simp only [ofText, htokens]

/-- The texts of the lines are found again. -/
theorem lines_linesText {ls : List Line} (h : ∀ l ∈ ls, l.Clean) :
    lines (cString (linesText ls)) = ls.map Line.text := by
  have hparts : linesText ls = (ls.map Line.text).flatMap (· ++ ['\n']) := by
    rw [linesText, List.flatMap_map]
  have hnull : '\x00' ∉ linesText ls := by
    intro hmem
    obtain ⟨l, hl, hc⟩ := List.mem_flatMap.mp hmem
    rcases List.mem_append.mp hc with hc | hc
    · exact Line.notMem_text (h l hl).2.2 (by decide) hc
    · exact absurd (List.mem_singleton.mp hc) (by decide)
  have hbreak : ∀ t ∈ ls.map Line.text, '\n' ∉ t := by
    intro t ht
    obtain ⟨l, hl, rfl⟩ := List.mem_map.mp ht
    exact Line.notMem_text (h l hl).2.1 (by decide)
  rw [cString_eq_self hnull, hparts, lines_flatMap hbreak]

/-- **The lines that are written are the lines that are read.** -/
theorem journalLines_text {ls : List Line} (h : ∀ l ∈ ls, l.Clean) :
    journalLines (linesText ls) = ls := by
  rw [journalLines, lines_linesText h, List.filterMap_map]
  calc ls.filterMap (Line.ofText ∘ Line.text) = ls.filterMap some :=
        List.filterMap_congr fun l hl => Line.ofText_text (h l hl).1
    _ = ls := List.filterMap_some

theorem linesText_filterMap {α : Type} (f : α → Option Line) (l : List α) :
    l.flatMap (fun a => linesText (f a).toList) = linesText (l.filterMap f) := by
  induction l with
  | nil => rfl
  | cons a l ih =>
    rw [List.flatMap_cons, ih, List.filterMap_cons]
    cases f a with
    | none => rfl
    | some line => simp [linesText]

/-- The lines of the journal since a time. -/
def State.linesSince (s : State) (lastSeen : Int64) : List Line :=
  s.sortedEntries.filterMap fun e => e.2.line lastSeen e.1.text

theorem State.sendJournalInfoByLastSeenTime_eq :
    s.sendJournalInfoByLastSeenTime lastSeen = linesText (s.linesSince lastSeen) := by
  rw [sendJournalInfoByLastSeenTime, linesSince, ← linesText_filterMap]
  exact List.flatMap_congr fun e _ => constructJournalInfoLine_eq

theorem State.clean_linesSince : ∀ l ∈ s.linesSince lastSeen, l.Clean := by
  intro l hl
  obtain ⟨e, -, he⟩ := List.mem_filterMap.mp hl
  exact Entry.clean_line he

/-- The journal since a time has a line for every newer entry. -/
theorem mem_journalLines {l : Line} (hu : s.storageData.lookup u = some e)
    (hl : e.line lastSeen u.text = some l) :
    l ∈ journalLines (s.sendJournalInfoByLastSeenTime lastSeen) := by
  rw [State.sendJournalInfoByLastSeenTime_eq, journalLines_text State.clean_linesSince]
  refine List.mem_filterMap.mpr ⟨⟨u, e⟩, ?_, hl⟩
  exact (List.mem_insertionSort _).mpr (AList.mem_lookup_iff.mp hu)

/-- The names a message asks for. -/
def State.askedNames (L : Libs) (message : Text) : List Text :=
  (L.uuidsMember (cString message)).elim [] fun names => names.elim [] (tokens ',')

/-- The line for a name, if the json has it. -/
def State.lineOf (s : State) (L : Libs) (lastSeen : Int64) (name : Text) : Option Line :=
  (s.lookupName L name).bind fun e => e.line lastSeen name

theorem State.sendJournalInfoForUuids_eq :
    (s.sendJournalInfoForUuids L (cString message) lastSeen).getD [] =
      linesText ((askedNames L message).filterMap (s.lineOf L lastSeen)) := by
  rw [← linesText_filterMap, sendJournalInfoForUuids, askedNames]
  cases L.uuidsMember (cString message) with
  | none => rfl
  | some names =>
    cases names with
    | none => rfl
    | some names =>
      refine List.flatMap_congr fun name _ => ?_
      rw [lineOf]
      cases s.lookupName L name with
      | none => rfl
      | some e => exact constructJournalInfoLine_eq

/-- The json has names of uuids only. -/
theorem State.lookupName_eq_some :
    s.lookupName L name = some e ↔ ∃ u : UUID, u.text = name ∧ s.storageData.lookup u = some e := by
  constructor
  · intro h
    rw [lookupName] at h
    split at h
    · rename_i v _
      split_ifs at h with htext
      exact ⟨v, htext, h⟩
    · cases h
  · rintro ⟨u, rfl, hu⟩
    exact lookupName_text.trans hu

theorem State.clean_lineOf : ∀ l ∈ (askedNames L message).filterMap (s.lineOf L lastSeen),
    l.Clean := by
  intro l hl
  obtain ⟨name, -, hline⟩ := List.mem_filterMap.mp hl
  obtain ⟨e, he, hline⟩ := Option.bind_eq_some_iff.mp hline
  obtain ⟨v, rfl, -⟩ := lookupName_eq_some.mp he
  exact Entry.clean_line hline

/-- The journal for some uuids has a line for every newer entry among them. -/
theorem mem_journalLines_uuids {l : Line} (hu : s.storageData.lookup u = some e)
    (hl : e.line lastSeen u.text = some l) (hname : u.text ∈ State.askedNames L message) :
    l ∈ journalLines ((s.sendJournalInfoForUuids L (cString message) lastSeen).getD []) := by
  rw [State.sendJournalInfoForUuids_eq, journalLines_text State.clean_lineOf]
  refine List.mem_filterMap.mpr ⟨u.text, hname, ?_⟩
  exact Option.bind_eq_some_iff.mpr ⟨e, State.lookupName_text.trans hu, hl⟩

/-! ### What is held -/

/-- The json has the uuid in this version or a later one, or its tombstone. -/
def State.Holds (s : State) (u : UUID) (version : UInt32) : Prop :=
  ∃ e ∈ s.storageData.lookup u, e.isDeleted = some true ∨ ∃ v ∈ e.version, version ≤ v

/-- The json knows the uuid. -/
def State.Knows (s : State) (u : UUID) : Prop := (s.storageData.lookup u).isSome

/-- A deletion keeps what is held, as a tombstone. -/
theorem State.holds_delete {v : UUID} {dv : UInt32} {lu : UInt64} (h : s.Holds u version) :
    (s.handleKernelDeleteFromDeviceJson v dv lu now).Holds u version := by
  rw [handleKernelDeleteFromDeviceJson]
  split
  · exact h
  · by_cases hv : u = v
    · rw [hv]
      exact ⟨_, AList.lookup_insert _, .inl rfl⟩
    · obtain ⟨e, he, hholds⟩ := h
      exact ⟨e, (AList.lookup_insert_ne hv).trans he, hholds⟩

theorem State.knows_delete {v : UUID} {dv : UInt32} {lu : UInt64} (h : s.Knows u) :
    (s.handleKernelDeleteFromDeviceJson v dv lu now).Knows u := by
  rw [handleKernelDeleteFromDeviceJson]
  split
  · exact h
  · rw [Knows, set_storageData, Ledger.lookup_insert_ite]
    split_ifs
    · rfl
    · exact h

/-- What is deleted here leaves a tombstone. -/
theorem State.holds_of_delete {dv : UInt32} {lu : UInt64} (h : s.Knows u) :
    (s.handleKernelDeleteFromDeviceJson u dv lu now).Holds u version := by
  obtain ⟨e, he⟩ := Option.isSome_iff_exists.mp h
  rw [handleKernelDeleteFromDeviceJson, he]
  exact ⟨_, AList.lookup_insert _, .inl rfl⟩

/-- The loop ends up with the uuid in this version, or requests it. -/
def Journal.Gets (j : Journal) (u : UUID) (version : UInt32) : Prop :=
  j.task.Holds u version ∨ u.text ∈ j.requested

/-- The line tells of a version of a uuid. -/
structure Line.TellsOf (L : Libs) (u : UUID) (version : UInt32) (isDeleted : Bool) (l : Line) :
    Prop where
  uuid : l.uuid = u.text
  operation : l.operation = [if isDeleted then 'd' else 's']
  version : State.toUInt32 L l.version = version

/-- The line for an entry tells of it. -/
theorem Entry.tellsOf_line {l : Line} (hl : e.line lastSeen u.text = some l) :
    ∃ version isDeleted, e.version = some version ∧ e.isDeleted = some isDeleted ∧
      l.TellsOf L u version isDeleted := by
  obtain ⟨version, isDeleted, hversion, hdeleted, huuid, -, hoperation, hnumber⟩ := line_eq_some hl
  refine ⟨version, isDeleted, hversion, hdeleted, huuid, hoperation, ?_⟩
  rw [hnumber, State.toUInt32, readUnsigned_toString version.toNat_lt, UInt32.ofNat_toNat]

namespace Journal

variable {j j' : Journal} {l : Line} {ls : List Line} {isDeleted : Bool}

theorem knows_round (hround : Round L syncClass now j l j') (h : j.task.Knows u) :
    j'.task.Knows u := by
  cases hround with
  | deleted v hv hop => exact State.knows_delete h
  | saved v requested hv hop hrequest => exact h

/-- A round loses nothing. -/
theorem holds_round (hround : Round L syncClass now j l j') (h : j.task.Holds u version) :
    j'.task.Holds u version := by
  cases hround with
  | deleted v hv hop => exact State.holds_delete h
  | saved v requested hv hop hrequest => exact h

theorem gets_round (hround : Round L syncClass now j l j') (h : j.Gets u version) :
    j'.Gets u version := by
  refine h.imp (holds_round hround) fun hmem => ?_
  cases hround with
  | deleted v hv hop => exact hmem
  | saved v requested hv hop hrequest =>
    rcases request_cases hrequest with rfl | ⟨c, rfl⟩
    · exact hmem
    · exact (AList.mem_insert _).mpr (.inr hmem)

/-- An update is requested, unless the json has this version. -/
theorem gets_of_request {requested : Ledger.Table Text Char} (hname : l.uuid = u.text)
    (hrequest : j.request L syncClass l = some requested)
    (hknown : j.task.Knows u ∨ syncClass = 1) :
    j.task.Holds u (State.toUInt32 L l.version) ∨ u.text ∈ requested := by
  simp only [request, hname, State.lookupName_text] at hrequest
  cases hlookup : j.task.storageData.lookup u with
  | none =>
    have hclass : syncClass = 1 := by
      refine hknown.resolve_left fun h => ?_
      rw [State.Knows, hlookup] at h
      cases h
    simp only [hlookup, if_pos hclass, Option.pure_def, Option.some.injEq] at hrequest
    rw [← hrequest]
    exact .inr ((AList.mem_insert _).mpr (.inl rfl))
  | some e =>
    simp only [hlookup, State.shouldGetUpdate, Option.bind_eq_bind, Option.pure_def,
      Option.bind_eq_some_iff, Option.some.injEq] at hrequest
    obtain ⟨update, ⟨ov, hov, hupdate⟩, rfl⟩ := hrequest
    by_cases hlt : ov < State.toUInt32 L l.version
    · rw [if_pos hlt, Option.some.injEq] at hupdate
      subst hupdate
      exact .inr ((AList.mem_insert _).mpr (.inl rfl))
    · exact .inl ⟨e, hlookup, .inr ⟨ov, hov, UInt32.not_lt.mp hlt⟩⟩

/-- The round on a line that tells of a uuid. -/
theorem gets_of_tellsOf (hround : Round L syncClass now j l j')
    (hl : l.TellsOf L u version isDeleted)
    (hknown : j.task.Knows u ∨ syncClass = 1 ∧ isDeleted = false) : j'.Gets u version := by
  cases hround with
  | deleted v hv hop =>
    have hdeleted : isDeleted = true := by
      have hop' := hop.symm.trans hl.operation
      cases isDeleted with
      | true => rfl
      | false => exact absurd hop' (by decide)
    obtain rfl : v = u := by
      rw [hl.uuid, L.parseUuid_text] at hv
      exact (Option.some.inj hv).symm
    refine .inl (State.holds_of_delete (hknown.resolve_right fun h => ?_))
    rw [hdeleted] at h
    cases h.2
  | saved v requested hv hop hrequest =>
    have hgets := gets_of_request hl.uuid hrequest (hknown.imp_right And.left)
    rw [hl.version] at hgets
    exact hgets

/-- **The whole loop**: it ends up with what a line tells of, or requests it. -/
theorem gets_of_run (hrun : Run.run (process L syncClass now) j ls = some j') (hmem : l ∈ ls)
    (hl : l.TellsOf L u version isDeleted)
    (hknown : j.task.Knows u ∨ syncClass = 1 ∧ isDeleted = false) : j'.Gets u version := by
  obtain ⟨pre, post, rfl⟩ := List.append_of_mem hmem
  obtain ⟨m, hpre, hrest⟩ := Run.run_append_eq_some.mp hrun
  obtain ⟨m', hline, hpost⟩ := Run.run_cons_eq_some.mp hrest
  have hknown' : m.task.Knows u ∨ syncClass = 1 ∧ isDeleted = false :=
    hknown.imp_left fun h => Run.invariant_of_run_all (fun j => j.task.Knows u)
      (fun _ _ _ h hstep => knows_round (process_round hstep) h) h hpre
  have hgets : m'.Gets u version := gets_of_tellsOf (process_round hline) hl hknown'
  exact Run.invariant_of_run_all (fun j => j.Gets u version)
    (fun _ _ _ h hstep => gets_round (process_round hstep) h) hgets hpost

end Journal

/-- **A journal is compared**: the names that are requested are sent last, nothing that is held is
lost, and every line is made up for. -/
theorem State.getJournalInfo_holds
    (h : s.handleKernelGetJournalInfo L requestId syncClass message now = some t) :
    ∃ names, t.out.getLast? = some (.sendUuids requestId names) ∧
      (∀ u version, s.Holds u version → t.Holds u version) ∧
      ∀ l ∈ journalLines message, ∀ u version isDeleted, l.TellsOf L u version isDeleted →
        s.Knows u ∨ syncClass = 1 ∧ isDeleted = false → t.Holds u version ∨ u.text ∈ names := by
  simp only [handleKernelGetJournalInfo, Option.bind_eq_bind, Option.pure_def,
    Option.bind_eq_some_iff, Option.some.injEq] at h
  obtain ⟨j, hrun, rfl⟩ := h
  have hdata : ((j.task.postStorageDeleteRequestForUuids j.deleted).send
      (.sendUuids requestId j.requested)).storageData = j.task.storageData := by
    rw [send_storageData, postStorageDeleteRequestForUuids]
    split_ifs <;> rfl
  have hholds (u : UUID) (version : UInt32) :
      ((j.task.postStorageDeleteRequestForUuids j.deleted).send
        (.sendUuids requestId j.requested)).Holds u version ↔ j.task.Holds u version := by
    rw [Holds, Holds, hdata]
  have hprocess := Journal.run_process hrun
  refine ⟨j.requested, ?_, fun u version hs => ?_, fun l hl u version isDeleted htells hknown => ?_⟩
  · rw [send_out, List.getLast?_concat]
  · rw [hholds]
    exact Run.invariant_of_run_all (fun j => j.task.Holds u version)
      (fun _ _ _ h hstep => Journal.holds_round (Journal.process_round hstep) h) hs hprocess
  · rw [hholds]
    exact Journal.gets_of_run hprocess hl htells hknown

end Backup

end Metax
