import Metax.Backup.Task

/-!
# What a stale journal does

A journal of a peer may tell of versions that are older than those of this node. `Newer` compares
an entry of the device json with a line, version first and time second, as `should_get_update`
does. An entry that is newer than all lines about its uuid should stay: it is kept in the json, the
storage is not asked to delete it and the peer is not asked for it.

Lines about saved uuids are compared with the json, lines about deleted ones are not. A newer entry
is kept exactly when no line tells of its deletion and, where unknown uuids are fetched, no line
spells the uuid in another way than the json does (`kept_iff`).
-/

namespace Metax

namespace Backup

open Text

variable {L : Libs} {syncClass : UInt32} {now : Int64} {u : UUID} {e : Entry}

namespace Line

/-- The line is about a uuid. -/
def Names (L : Libs) (u : UUID) (l : Line) : Prop := L.parseUuid l.uuid = some u

/-- The line is older than an entry: version first, time second. -/
def Older (L : Libs) (e : Entry) (l : Line) : Prop :=
  ∃ version lastUpdated, e.version = some version ∧ e.lastUpdated = some lastUpdated ∧
    (State.toUInt32 L l.version < version ∨ State.toUInt32 L l.version = version ∧
      (State.toUInt64 L l.lastUpdated).toInt64 < lastUpdated.toInt64)

/-- The line does not tell of a deletion and, where unknown names are requested, has the name of
the json. -/
def Harmless (syncClass : UInt32) (u : UUID) (l : Line) : Prop :=
  l.operation = ['s'] ∧ (syncClass = 1 → l.uuid = u.text)

/-- An older line asks for nothing. -/
theorem Older.shouldGetUpdate {l : Line} (h : l.Older L e) :
    State.shouldGetUpdate L e l.version l.lastUpdated = some false := by
  obtain ⟨version, lastUpdated, hversion, hlast, hlt⟩ := h
  simp only [State.shouldGetUpdate, hversion, hlast, Option.bind_eq_bind, Option.bind_some,
    Option.pure_def]
  rcases hlt with hlt | ⟨heq, hlt⟩
  · rw [if_neg (UInt32.not_lt.mpr (UInt32.le_of_lt hlt)), if_neg (UInt32.ne_of_lt hlt).symm]
  · have hnot : ¬ lastUpdated.toInt64 < (State.toUInt64 L l.lastUpdated).toInt64 :=
      Int64.not_lt.mpr (Int64.le_of_lt hlt)
    rw [heq, if_neg (UInt32.lt_irrefl version), if_pos rfl]
    exact congrArg some (decide_eq_false hnot)

end Line

/-- The lines of a message. -/
def journalLines (message : Text) : List Line := (lines (cString message)).filterMap Line.ofText

/-- The message asks the storage to delete a uuid, or the peer to send it. -/
def Message.AsksFor (L : Libs) (u : UUID) : Message → Prop
  | delUuids names => ∃ name ∈ names, L.parseUuid name = some u
  | sendUuids _ names => ∃ name ∈ names, L.parseUuid name = some u
  | _ => False

/-- One round of the loop on a line. -/
inductive Journal.Round (L : Libs) (syncClass : UInt32) (now : Int64) (j : Journal) (l : Line) :
    Journal → Prop
  | deleted (v : UUID) (hv : L.parseUuid l.uuid = some v) (hop : l.operation = ['d']) :
    Round L syncClass now j l
      { j with
        task := (j.task.handleKernelDeleteFromDeviceJson v (State.toUInt32 L l.version)
          (State.toUInt64 L l.lastUpdated) now).send
            (.notifyDelete v (State.toUInt64 L l.version).toUInt32)
        deleted := j.deleted ++ [l.uuid] }
  | saved (v : UUID) (requested : Ledger.Table Text Char) (hv : L.parseUuid l.uuid = some v)
    (hop : l.operation = ['s']) (hrequest : j.request L syncClass l = some requested) :
    Round L syncClass now j l
      { j with task := j.task.send (.deleteFromCache v), requested := requested }

namespace Journal

variable {j j' : Journal} {l : Line} {ls : List Line} {ts : List Text}

theorem process_round (h : j.process L syncClass now l = some j') :
    Round L syncClass now j l j' := by
  rw [process] at h
  split_ifs at h with hd hs
  · simp only [delete, State.updateInfoForDeletedUuid, State.postKernelNotifyDelete,
      Option.bind_eq_bind, Option.pure_def, Option.bind_eq_some_iff, Option.some.injEq] at h
    obtain ⟨task, ⟨v, hv, rfl⟩, task', ⟨v', hv', rfl⟩, rfl⟩ := h
    obtain rfl : v = v' := Option.some.inj (hv.symm.trans hv')
    exact .deleted v hv hd
  · simp only [save, State.postStorageRemoveFromCacheRequest, Option.bind_eq_bind,
      Option.pure_def, Option.bind_eq_some_iff, Option.some.injEq] at h
    obtain ⟨requested, hrequest, task, ⟨v, hv, rfl⟩, rfl⟩ := h
    exact .saved v requested hv hs hrequest

/-- Every line of a text that is processed to its end is a line. -/
theorem run_process (h : Run.run (line L syncClass now) j ts = some j') :
    Run.run (process L syncClass now) j (ts.filterMap Line.ofText) = some j' := by
  induction ts generalizing j with
  | nil => exact h
  | cons t ts ih =>
    obtain ⟨m, hm, hrest⟩ := Run.run_cons_eq_some.mp h
    obtain ⟨l, hl, hprocess⟩ := Option.bind_eq_some_iff.mp hm
    rw [List.filterMap_cons_some hl]
    exact Run.run_cons_eq_some.mpr ⟨m, hprocess, ih hrest⟩

/-- The names that are requested are names of lines. -/
theorem request_cases {requested : Ledger.Table Text Char}
    (h : j.request L syncClass l = some requested) :
    requested = j.requested ∨ ∃ c, requested = j.requested.insert l.uuid c := by
  simp only [request] at h
  split at h
  · rw [Option.pure_def, Option.some.injEq] at h
    split_ifs at h
    · exact .inr ⟨'s', h.symm⟩
    · exact .inl h.symm
  · simp only [Option.bind_eq_bind, Option.pure_def, Option.bind_eq_some_iff,
      Option.some.injEq] at h
    obtain ⟨update, -, rfl⟩ := h
    cases update with
    | false => exact .inl rfl
    | true => exact .inr ⟨'u', rfl⟩

/-! ### Lines that leave an entry alone -/

/-- What the loop has made of a uuid so far: the entry is unchanged, and nothing is asked for. -/
structure Kept (L : Libs) (u : UUID) (e : Entry) (j : Journal) : Prop where
  lookup : j.task.storageData.lookup u = some e
  deleted : ∀ name ∈ j.deleted, L.parseUuid name ≠ some u
  requested : ∀ name ∈ j.requested, L.parseUuid name ≠ some u

/-- The storage is going to be asked to delete the uuid, or the peer to send it. -/
def Touched (L : Libs) (u : UUID) (j : Journal) : Prop :=
  (∃ name ∈ j.deleted, L.parseUuid name = some u) ∨
    ∃ name ∈ j.requested, L.parseUuid name = some u

theorem Kept.not_touched (h : j.Kept L u e) : ¬ j.Touched L u := by
  rintro (⟨name, hname, hu⟩ | ⟨name, hname, hu⟩)
  · exact h.deleted name hname hu
  · exact h.requested name hname hu

/-- A name of another uuid adds nothing. -/
theorem Kept.insert {name : Text} {c : Char} (h : j.Kept L u e)
    (hname : L.parseUuid name ≠ some u) :
    ∀ n ∈ j.requested.insert name c, L.parseUuid n ≠ some u := by
  intro n hn
  rcases (AList.mem_insert _).mp hn with rfl | hn
  · exact hname
  · exact h.requested n hn

/-- A line about another uuid, or an older line that does not tell of a deletion. -/
theorem Kept.round (h : j.Kept L u e) (hround : Round L syncClass now j l j')
    (hl : l.Names L u → l.Older L e ∧ l.Harmless syncClass u) : j'.Kept L u e := by
  cases hround with
  | deleted v hv hop =>
    have hvu : L.parseUuid l.uuid ≠ some u := by
      intro hu
      have hs := (hl hu).2.1
      rw [hop] at hs
      exact absurd hs (by decide)
    have hne : u ≠ v := by
      rintro rfl
      exact hvu hv
    constructor
    · rw [State.send_storageData, State.handleKernelDeleteFromDeviceJson]
      split
      · exact h.lookup
      · rw [State.set_storageData, AList.lookup_insert_ne hne]
        exact h.lookup
    · intro name hname
      rcases List.mem_append.mp hname with hname | hname
      · exact h.deleted name hname
      · rwa [List.mem_singleton.mp hname]
    · exact h.requested
  | saved v requested hv hop hrequest =>
    refine ⟨h.lookup, h.deleted, ?_⟩
    by_cases hu : L.parseUuid l.uuid = some u
    · obtain ⟨holder, -, hname⟩ := hl hu
      -- the json has the uuid under its text, and under no other name
      have hrequested : requested = j.requested := by
        simp only [request, State.lookupName, hu] at hrequest
        by_cases htext : u.text = l.uuid
        · simp only [if_pos htext, h.lookup, holder.shouldGetUpdate, Option.bind_eq_bind,
            Option.bind_some, Option.pure_def, Bool.false_eq_true, if_false] at hrequest
          exact (Option.some.inj hrequest).symm
        · have hclass : syncClass ≠ 1 := fun h1 => htext (hname h1).symm
          simp only [if_neg htext, if_neg hclass, Option.pure_def] at hrequest
          exact (Option.some.inj hrequest).symm
      rw [hrequested]
      exact h.requested
    · rcases request_cases hrequest with rfl | ⟨c, rfl⟩
      · exact h.requested
      · exact h.insert hu

/-! ### Lines that do not -/

theorem Touched.round (h : j.Touched L u) (hround : Round L syncClass now j l j') :
    j'.Touched L u := by
  cases hround with
  | deleted v hv hop =>
    refine h.imp_left ?_
    rintro ⟨name, hname, hu⟩
    exact ⟨name, List.mem_append_left _ hname, hu⟩
  | saved v requested hv hop hrequest =>
    refine h.imp_right ?_
    rintro ⟨name, hname, hu⟩
    refine ⟨name, ?_, hu⟩
    rcases request_cases hrequest with rfl | ⟨c, rfl⟩
    · exact hname
    · exact (AList.mem_insert _).mpr (.inr hname)

/-- A deletion, or a name the json does not have. -/
theorem touched_of_harm (hround : Round L syncClass now j l j') (hu : l.Names L u)
    (hl : ¬ l.Harmless syncClass u) : j'.Touched L u := by
  cases hround with
  | deleted v hv hop => exact .inl ⟨l.uuid, by simp, hu⟩
  | saved v requested hv hop hrequest =>
    have hname : syncClass = 1 ∧ u.text ≠ l.uuid := by
      rw [Line.Harmless, not_and] at hl
      have := hl hop
      rw [Classical.not_imp] at this
      exact ⟨this.1, fun h => this.2 h.symm⟩
    refine .inr ⟨l.uuid, ?_, hu⟩
    rw [Line.Names] at hu
    simp only [request, State.lookupName, hu, if_neg hname.2, if_pos hname.1, Option.pure_def,
      Option.some.injEq] at hrequest
    rw [← hrequest]
    exact (AList.mem_insert _).mpr (.inl rfl)

/-- **The whole loop**: a newer entry is kept exactly if all lines about it are harmless. -/
theorem kept_iff_harmless (hrun : Run.run (process L syncClass now) j ls = some j')
    (hj : j.Kept L u e) (holder : ∀ l ∈ ls, l.Names L u → l.Older L e) :
    j'.Kept L u e ↔ ∀ l ∈ ls, l.Names L u → l.Harmless syncClass u := by
  constructor
  · intro hkept l hl hu
    by_contra hharm
    obtain ⟨pre, post, rfl⟩ := List.append_of_mem hl
    obtain ⟨m, -, hrest⟩ := Run.run_append_eq_some.mp hrun
    obtain ⟨m', hline, hpost⟩ := Run.run_cons_eq_some.mp hrest
    have htouched : m'.Touched L u := touched_of_harm (process_round hline) hu hharm
    have htouched' : j'.Touched L u := Run.invariant_of_run_all (Touched L u)
      (fun _ _ _ h hstep => h.round (process_round hstep)) htouched hpost
    exact hkept.not_touched htouched'
  · intro hharmless
    have halong : Run.Along (process L syncClass now)
        (fun _ l => l.Names L u → l.Older L e ∧ l.Harmless syncClass u) j ls :=
      Run.along_of_forall fun l hl hu => ⟨holder l hl hu, hharmless l hl hu⟩
    exact Run.invariant_of_run (Kept L u e)
      (fun _ _ _ h hok hstep => h.round (process_round hstep) hok) hj halong hrun

/-- The loop itself asks for nothing. -/
theorem out_of_run {s : State} (hrun : Run.run (process L syncClass now) ⟨s, [], ∅⟩ ls = some j) :
    ∃ sent, j.task.out = s.out ++ sent ∧ ∀ m ∈ sent, ¬ m.AsksFor L u := by
  refine Run.invariant_of_run_all
    (fun j => ∃ sent, j.task.out = s.out ++ sent ∧ ∀ m ∈ sent, ¬ m.AsksFor L u) ?_ ?_ hrun
  · rintro j l j' ⟨sent, hout, hsent⟩ hstep
    have hone : ∃ m, j'.task.out = j.task.out ++ [m] ∧ ¬ m.AsksFor L u := by
      cases process_round hstep with
      | deleted v hv hop =>
        refine ⟨.notifyDelete v (State.toUInt64 L l.version).toUInt32, ?_, id⟩
        rw [State.send_out, State.handleKernelDeleteFromDeviceJson]
        split <;> rfl
      | saved v requested hv hop hrequest => exact ⟨.deleteFromCache v, State.send_out _ _, id⟩
    obtain ⟨m, hm, hasks⟩ := hone
    refine ⟨sent ++ [m], by rw [hm, hout, List.append_assoc], fun m' hm' => ?_⟩
    rcases List.mem_append.mp hm' with hm' | hm'
    · exact hsent m' hm'
    · rwa [List.mem_singleton.mp hm']
  · exact ⟨[], (List.append_nil _).symm, List.forall_mem_nil _⟩

end Journal

variable {s t : State} {requestId : ID32} {message : Text}

/-- After a journal a uuid is kept as it was: its entry is unchanged, and nothing that was sent
asks to delete or to send it. -/
def Keeps (L : Libs) (u : UUID) (s t : State) : Prop :=
  t.storageData.lookup u = s.storageData.lookup u ∧
    ∀ m ∈ t.out.drop s.out.length, ¬ m.AsksFor L u

/-- What the loop leaves is what the handler sends. -/
theorem keeps_iff_kept {j : Journal} {ls : List Line} (he : s.storageData.lookup u = some e)
    (hrun : Run.run (Journal.process L syncClass now) ⟨s, [], ∅⟩ ls = some j) :
    Keeps L u s ((j.task.postStorageDeleteRequestForUuids j.deleted).send
      (.sendUuids requestId j.requested)) ↔ j.Kept L u e := by
  obtain ⟨sent, hout, hsent⟩ := Journal.out_of_run (u := u) hrun
  obtain ⟨posted, hposted, hdata, hasks⟩ : ∃ posted,
      (j.task.postStorageDeleteRequestForUuids j.deleted).out = j.task.out ++ posted ∧
        (j.task.postStorageDeleteRequestForUuids j.deleted).storageData = j.task.storageData ∧
        ((∀ m ∈ posted, ¬ m.AsksFor L u) ↔ ∀ name ∈ j.deleted, L.parseUuid name ≠ some u) := by
    rw [State.postStorageDeleteRequestForUuids]
    split_ifs with hnil
    · exact ⟨[], (List.append_nil _).symm, rfl, by simp [hnil]⟩
    · exact ⟨[.delUuids j.deleted], rfl, rfl, by simp [Message.AsksFor]⟩
  have hdrop : ((j.task.postStorageDeleteRequestForUuids j.deleted).send
      (.sendUuids requestId j.requested)).out.drop s.out.length =
        sent ++ (posted ++ [.sendUuids requestId j.requested]) := by
    rw [State.send_out, hposted, hout, List.append_assoc, List.append_assoc, List.drop_left]
  rw [Keeps, State.send_storageData, hdata, hdrop, he]
  simp only [List.forall_mem_append, List.forall_mem_singleton, hasks]
  constructor
  · rintro ⟨hlookup, -, hdeleted, hrequested⟩
    refine ⟨hlookup, hdeleted, fun name hname hu => hrequested ⟨name, hname, hu⟩⟩
  · rintro ⟨hlookup, hdeleted, hrequested⟩
    refine ⟨hlookup, hsent, hdeleted, ?_⟩
    rintro ⟨name, hname, hu⟩
    exact hrequested name hname hu

/-- **A newer entry is kept exactly when the journal does not tell of its deletion** and, where
unknown uuids are fetched, has no other spelling of it. -/
theorem keeps_iff_harmless
    (h : s.handleKernelGetJournalInfo L requestId syncClass message now = some t)
    (he : s.storageData.lookup u = some e)
    (holder : ∀ l ∈ journalLines message, l.Names L u → l.Older L e) :
    Keeps L u s t ↔ ∀ l ∈ journalLines message, l.Names L u → l.Harmless syncClass u := by
  simp only [State.handleKernelGetJournalInfo, Option.bind_eq_bind, Option.pure_def,
    Option.bind_eq_some_iff, Option.some.injEq] at h
  obtain ⟨j, hrun, rfl⟩ := h
  have hrun' := Journal.run_process hrun
  rw [keeps_iff_kept he hrun']
  refine Journal.kept_iff_harmless hrun' ⟨he, ?_, ?_⟩ holder
  · exact List.forall_mem_nil _
  · exact fun name hname => absurd hname (AList.notMem_empty name)

/-- The parsers on texts as this node writes them. -/
def canonicalLibs : Libs where
  parseUuid := UUID.ofText
  parseUuid_text := UUID.ofText_text
  uuidsMember := fun _ => none
  unassigned := 0

/-- A node that holds version 3 of a uuid. -/
def holder : State where
  storageData := (∅ : Ledger.Table UUID Entry).insert 5 ⟨some 3, some false, some 900, none⟩
  deviceJsonUpdated := false
  file := ∅
  out := []

/-- A journal that tells of version 2 of that uuid. -/
def staleJournal (operation : Char) : Text :=
  cat ' ' [UUID.text 5, "800".toList, [operation], "2".toList] ++ ['\n']

theorem journalLines_staleJournal : journalLines (staleJournal 's') =
    [⟨UUID.text 5, "800".toList, ['s'], "2".toList⟩] ∧
      journalLines (staleJournal 'd') = [⟨UUID.text 5, "800".toList, ['d'], "2".toList⟩] := by
  decide

theorem older_staleJournal (operation : Text) :
    Line.Older canonicalLibs ⟨some 3, some false, some 900, none⟩
      ⟨UUID.text 5, "800".toList, operation, "2".toList⟩ :=
  ⟨3, 900, rfl, rfl, .inl (show State.toUInt32 canonicalLibs "2".toList < 3 by decide)⟩

theorem keeps_stale_save : ∃ t, holder.handleKernelGetJournalInfo canonicalLibs 1 1
    (staleJournal 's') 0 = some t ∧ Keeps canonicalLibs 5 holder t := by
  obtain ⟨t, ht⟩ := Option.isSome_iff_exists.mp (show (holder.handleKernelGetJournalInfo
    canonicalLibs 1 1 (staleJournal 's') 0).isSome by decide)
  refine ⟨t, ht, (keeps_iff_harmless ht rfl ?_).mpr ?_⟩
  · rw [journalLines_staleJournal.1, List.forall_mem_singleton]
    exact fun _ => older_staleJournal ['s']
  · rw [journalLines_staleJournal.1, List.forall_mem_singleton]
    exact fun _ => ⟨rfl, fun _ => rfl⟩

/-- The same line with a deletion marks version 3 as deleted. -/
theorem not_keeps : ¬ ∀ (L : Libs) (s t : State) (u : UUID) (e : Entry) (requestId : ID32)
    (syncClass : UInt32) (message : Text) (now : Int64),
    s.handleKernelGetJournalInfo L requestId syncClass message now = some t →
      s.storageData.lookup u = some e → (∀ l ∈ journalLines message, l.Names L u → l.Older L e) →
        Keeps L u s t := by
  intro h
  obtain ⟨t, ht⟩ := Option.isSome_iff_exists.mp (show (holder.handleKernelGetJournalInfo
    canonicalLibs 1 1 (staleJournal 'd') 0).isSome by decide)
  have hdeleted : (holder.handleKernelGetJournalInfo canonicalLibs 1 1 (staleJournal 'd') 0).bind
      (fun t => t.storageData.lookup 5) =
        some ⟨some 2, some true, some 800, some (.signed thirtyDays)⟩ := by
    decide
  have hkeeps := h canonicalLibs holder t 5 _ 1 1 (staleJournal 'd') 0 ht rfl (by
    rw [journalLines_staleJournal.2, List.forall_mem_singleton]
    exact fun _ => older_staleJournal ['d'])
  rw [ht, Option.bind_some, hkeeps.1] at hdeleted
  exact absurd hdeleted (by decide)

end Backup

end Metax
