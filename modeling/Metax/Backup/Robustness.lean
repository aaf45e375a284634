import Metax.Backup.StaleJournal

/-!
# Which inputs the backup task survives

The texts of a journal and the fields of a saved object come from peers. A journal is read line by
line with assertions and parsers that throw; a date is stored as an unsigned number and read as a
signed one by the clean-up, possibly months and a restart later.

`Robust` says that a run never ends the node, that no malformed line has an effect, and that a
journal changes only entries its well-formed lines are about. A run is robust exactly when all lines
of its journals are well-formed and no clean-up meets a date of `2 ^ 63` or more (`robust_iff`).
-/

namespace Metax

namespace Backup

open Text

variable {L : Libs} {syncClass : UInt32} {now : Int64} {s t : State} {u : UUID}

/-! ### Entries as the task writes them -/

/-- The entry has a version and a time. -/
def Entry.Complete (e : Entry) : Prop := e.version.isSome ∧ e.lastUpdated.isSome

/-- All entries have. -/
def CompleteTable (table : Ledger.Table UUID Entry) : Prop :=
  ∀ u, ∀ e ∈ table.lookup u, e.Complete

/-- A table of complete entries stays one when a complete entry is added, or entries go. -/
theorem CompleteTable.empty : CompleteTable ∅ := by
  intro u e he
  rw [AList.lookup_empty] at he
  cases he

theorem CompleteTable.insert {table : Ledger.Table UUID Entry} {e : Entry}
    (h : CompleteTable table) (he : e.Complete) : CompleteTable (table.insert u e) := by
  exact Ledger.forall_lookup_insert h he

theorem CompleteTable.erase {table : Ledger.Table UUID Entry} (h : CompleteTable table) :
    CompleteTable (table.erase u) := by
  intro v e he
  exact h v e (Ledger.of_lookup_erase he).2

theorem CompleteTable.eraseAll {table : Ledger.Table UUID Entry} (h : CompleteTable table)
    (us : List UUID) : CompleteTable (us.foldl (fun data u => data.erase u) table) := by
  induction us generalizing table with
  | nil => exact h
  | cons u us ih => exact ih h.erase

theorem CompleteTable.of_mem {table : Ledger.Table UUID Entry} (h : CompleteTable table)
    {e : Sigma fun _ : UUID => Entry} (he : e ∈ table.entries) : e.2.Complete :=
  h e.1 e.2 (AList.mem_lookup_iff.mpr he)

namespace State

/-- The json and its file are complete. -/
structure Complete (s : State) : Prop where
  storageData : CompleteTable s.storageData
  file : CompleteTable s.file

/-- A backup starts without entries. -/
theorem complete_fresh : fresh.Complete := ⟨.empty, .empty⟩

/-- Messages and files are no entries. -/
theorem Complete.send (h : s.Complete) (m : Message) : (s.send m).Complete := ⟨h.1, h.2⟩

theorem Complete.set {e : Entry} (h : s.Complete) (he : e.Complete) : (s.set u e).Complete :=
  ⟨h.1.insert he, h.2⟩

theorem Complete.saveDeviceJson (h : s.Complete) : s.saveDeviceJson.Complete := by
  rw [State.saveDeviceJson]
  split_ifs
  · exact ⟨h.1, h.1⟩
  · exact h

/-- What was in the file was complete when it was written. -/
theorem Complete.parseDeviceJson (h : s.Complete) : s.parseDeviceJson.Complete := by
  refine ⟨?_, h.2⟩
  have hall : ∀ e ∈ s.file.entries, e.2.Complete := fun e he => h.2.of_mem he
  rw [State.parseDeviceJson]
  dsimp only
  revert hall
  induction s.file.entries with
  | nil => exact fun _ => .empty
  | cons e es ih =>
    intro hall
    obtain ⟨he, hes⟩ := List.forall_mem_cons.mp hall
    exact (ih hes).insert he

/-- **A delete** writes a complete entry, whether there was one or not. -/
theorem Complete.handleKernelDeleteFromDeviceJson {version : UInt32} {lastUpdated : UInt64}
    (h : s.Complete) :
    (s.handleKernelDeleteFromDeviceJson u version lastUpdated now).Complete := by
  rw [State.handleKernelDeleteFromDeviceJson]
  split
  · exact h
  · exact h.set ⟨rfl, rfl⟩

/-- So does an object of the user. -/
theorem Complete.handleAddForUserManager {version : UInt32} {lastUpdated : UInt64}
    (h : s.Complete) : (s.handleAddForUserManager u version lastUpdated).Complete := by
  rw [State.handleAddForUserManager]
  split_ifs
  · exact h
  · exact h.set ⟨rfl, rfl⟩

theorem Complete.handleStorageGetUuid {requestId : ID32} {data : Package} (h : s.Complete) :
    (s.handleStorageGetUuid requestId u data).Complete := by
  rw [State.handleStorageGetUuid]
  repeat' split
  all_goals first | exact h | exact h.send _

theorem Complete.postStorageDeleteRequestForUuids {names : List Text} (h : s.Complete) :
    (s.postStorageDeleteRequestForUuids names).Complete := by
  rw [State.postStorageDeleteRequestForUuids]
  split_ifs
  · exact h
  · exact h.send _

end State

/-! ### Lines -/

namespace Line

/-- A line as the task reads it: a uuid, two numbers and one of the operations. A uuid is what the
library's parser accepts (`Poco::UUID::parse`), in whatever spelling. -/
structure WellFormed (L : Libs) (l : Line) : Prop where
  uuid : (L.parseUuid l.uuid).isSome
  lastUpdated : (number? (2 ^ 64) l.lastUpdated).isSome
  operation : l.operation = ['d'] ∨ l.operation = ['s']
  version : (number? (2 ^ 32) l.version).isSome

instance (l : Line) : Decidable (l.WellFormed L) :=
  decidable_of_iff ((L.parseUuid l.uuid).isSome ∧ (number? (2 ^ 64) l.lastUpdated).isSome ∧
    (l.operation = ['d'] ∨ l.operation = ['s']) ∧ (number? (2 ^ 32) l.version).isSome)
    ⟨fun ⟨h₁, h₂, h₃, h₄⟩ => ⟨h₁, h₂, h₃, h₄⟩, fun ⟨h₁, h₂, h₃, h₄⟩ => ⟨h₁, h₂, h₃, h₄⟩⟩

end Line

/-- A text that is a well-formed line. -/
def IsLine (L : Libs) (t : Text) : Prop := ∃ l ∈ Line.ofText t, l.WellFormed L

namespace Journal

variable {j j' : Journal} {l : Line} {ls : List Line} {ts : List Text} {t : Text}

/-- The task complete, as it is in every state. -/
theorem Round.complete (h : Round L syncClass now j l j') (hj : j.task.Complete) :
    j'.task.Complete := by
  cases h with
  | deleted v hv hop => exact hj.handleKernelDeleteFromDeviceJson.send _
  | saved v requested hv hop hrequest => exact hj.send _

/-- A line that is processed is one round of the loop. -/
theorem line_round (h : line L syncClass now j t = some j') :
    ∃ l ∈ Line.ofText t, Round L syncClass now j l j' := by
  obtain ⟨l, hl, hprocess⟩ := Option.bind_eq_some_iff.mp h
  exact ⟨l, hl, process_round hprocess⟩

/-- A line that is processed is answered: it has an effect. -/
theorem Round.ne (h : Round L syncClass now j l j') : j' ≠ j := by
  have hone : ∃ m, j'.task.out = j.task.out ++ [m] := by
    cases h with
    | deleted v hv hop =>
      refine ⟨.notifyDelete v (State.toUInt64 L l.version).toUInt32, ?_⟩
      rw [State.send_out, State.handleKernelDeleteFromDeviceJson]
      split <;> rfl
    | saved v requested hv hop hrequest => exact ⟨.deleteFromCache v, rfl⟩
  rintro rfl
  obtain ⟨m, hm⟩ := hone
  exact absurd hm (by simp)

/-- A complete entry can be compared with any line. -/
theorem isSome_shouldGetUpdate {e : Entry} {version lastUpdated : Text} (he : e.Complete) :
    (State.shouldGetUpdate L e version lastUpdated).isSome := by
  obtain ⟨hversion, hlast⟩ := he
  obtain ⟨ov, hov⟩ := Option.isSome_iff_exists.mp hversion
  obtain ⟨ou, hou⟩ := Option.isSome_iff_exists.mp hlast
  simp only [State.shouldGetUpdate, hov, hou, Option.bind_eq_bind, Option.bind_some,
    Option.pure_def]
  split_ifs <;> rfl

theorem lookupName_complete {name : Text} {e : Entry} (hs : s.Complete)
    (h : s.lookupName L name = some e) : e.Complete := by
  rw [State.lookupName] at h
  split at h
  · split_ifs at h
    exact hs.storageData _ e h
  · cases h

/-- A well-formed line is processed. -/
theorem isSome_line (hj : j.task.Complete) (ht : IsLine L t) :
    (line L syncClass now j t).isSome := by
  obtain ⟨l, hl, hwell⟩ := ht
  obtain ⟨v, hv⟩ := Option.isSome_iff_exists.mp hwell.uuid
  rw [line, hl, Option.bind_some, process]
  split_ifs with hd hs
  · simp only [delete, State.updateInfoForDeletedUuid, State.postKernelNotifyDelete, hv,
      Option.bind_eq_bind, Option.bind_some, Option.pure_def, Option.isSome_some]
  · have hrequest : (j.request L syncClass l).isSome := by
      rw [request]
      split
      · rfl
      · rename_i e he
        obtain ⟨b, hb⟩ := Option.isSome_iff_exists.mp
          (isSome_shouldGetUpdate (lookupName_complete hj he))
        rw [hb]
        rfl
    obtain ⟨requested, hrequested⟩ := Option.isSome_iff_exists.mp hrequest
    simp only [save, State.postStorageRemoveFromCacheRequest, hv, hrequested, Option.bind_eq_bind,
      Option.bind_some, Option.pure_def, Option.isSome_some]
  · exact absurd hwell.operation (not_or.mpr ⟨hd, hs⟩)

/-- A malformed line leaves the loop as it is. -/
def Ignores (L : Libs) (syncClass : UInt32) (now : Int64) (j : Journal) (t : Text) : Prop :=
  ¬ IsLine L t → ∀ j' ∈ line L syncClass now j t, j' = j

/-- A line survives and is ignored if malformed exactly if it is well formed: a malformed one that
does not throw is not ignored. -/
theorem isSome_and_ignores_iff_line (hj : j.task.Complete) :
    (line L syncClass now j t).isSome ∧ Ignores L syncClass now j t ↔ IsLine L t := by
  constructor
  · rintro ⟨hsome, hignores⟩
    obtain ⟨j', hj'⟩ := Option.isSome_iff_exists.mp hsome
    obtain ⟨l, -, hround⟩ := line_round hj'
    by_contra hnot
    exact hround.ne (hignores hnot j' hj')
  · exact fun ht => ⟨isSome_line hj ht, fun hnot => absurd ht hnot⟩

/-- **The whole loop** gets to its end and ignores malformed lines exactly if there are none. -/
theorem isSome_and_ignores_iff (hj : j.task.Complete) :
    (Run.run (line L syncClass now) j ts).isSome ∧
      Run.Along (line L syncClass now) (Ignores L syncClass now) j ts ↔ ∀ t ∈ ts, IsLine L t := by
  have hrun : (Run.run (line L syncClass now) j ts).isSome ∧
      Run.Along (line L syncClass now) (Ignores L syncClass now) j ts ↔
        Run.Along (line L syncClass now) (fun _ t => IsLine L t) j ts := by
    refine Run.isSome_and_along_iff (fun j => j.task.Complete) ?_ ?_ hj
    · intro m t m' hm hstep
      obtain ⟨l, -, hround⟩ := line_round hstep
      exact hround.complete hm
    · exact fun m t hm => isSome_and_ignores_iff_line hm
  constructor
  · exact fun h => Run.forall_of_along (hrun.mp h) h.1
  · exact fun h => hrun.mpr (Run.along_of_forall h)

/-- Only entries the lines are about change. -/
theorem Round.lookup_eq (h : Round L syncClass now j l j') (hu : ¬ l.Names L u) :
    j'.task.storageData.lookup u = j.task.storageData.lookup u := by
  cases h with
  | deleted v hv hop =>
    have hne : u ≠ v := by
      rintro rfl
      exact hu hv
    rw [State.send_storageData, State.handleKernelDeleteFromDeviceJson]
    split
    · rfl
    · rw [State.set_storageData, AList.lookup_insert_ne hne]
  | saved v requested hv hop hrequest => rfl

theorem lookup_of_run (hrun : Run.run (line L syncClass now) j ts = some j')
    (hu : ∀ t ∈ ts, ∀ l ∈ Line.ofText t, ¬ l.Names L u) :
    j'.task.storageData.lookup u = j.task.storageData.lookup u := by
  have halong : Run.Along (line L syncClass now)
      (fun _ t => ∀ l ∈ Line.ofText t, ¬ l.Names L u) j ts := Run.along_of_forall hu
  refine Run.invariant_of_run (fun m => m.task.storageData.lookup u = j.task.storageData.lookup u)
    ?_ rfl halong hrun
  intro m t m' hm ht hstep
  obtain ⟨l, hl, hround⟩ := line_round hstep
  rw [hround.lookup_eq (ht l hl), hm]

/-- The run lemma of the lines. -/
theorem complete_of_run (hrun : Run.run (line L syncClass now) j ts = some j')
    (hj : j.task.Complete) : j'.task.Complete := by
  refine Run.invariant_of_run_all (fun m => m.task.Complete) ?_ hj hrun
  intro m t m' hm hstep
  obtain ⟨l, -, hround⟩ := line_round hstep
  exact hround.complete hm

end Journal

/-! ### Expired entries -/

/-- An entry whose date the clean-up can read. -/
def Entry.Readable (e : Entry) : Prop := ∀ x ∈ e.expirationDate, x.int64.isSome

instance (e : Entry) : Decidable e.Readable :=
  inferInstanceAs (Decidable (∀ x ∈ e.expirationDate, x.int64.isSome))

namespace CleanUp

variable {c c' : CleanUp} {e : Sigma fun _ : UUID => Entry}

/-- The clean-up throws at an entry that is not readable. -/
theorem isSome_entry : (entry now c e).isSome ↔ e.2.Readable := by
  rw [entry, Entry.Readable]
  cases e.2.expirationDate with
  | none => simp
  | some x =>
    simp only [Option.isSome_map, Option.mem_def, Option.some.injEq, forall_eq', handleExpiredData]
    cases x.int64 with
    | none => simp
    | some date =>
      simp only [Option.bind_eq_bind, Option.bind_some, Option.isSome_some, iff_true]
      split_ifs
      · split <;> rfl
      · rfl

theorem complete_entry (h : entry now c e = some c') (hc : CompleteTable c.storageData)
    (he : e.2.Complete) : CompleteTable c'.storageData := by
  rw [entry] at h
  split at h
  · rwa [← Option.some.inj h]
  · rename_i x hx
    obtain ⟨v, hv, rfl⟩ := Option.map_eq_some_iff.mp h
    cases v with
    | keep => exact hc
    | remove => exact hc
    | mark e' =>
      refine hc.insert ?_
      -- the marked entry has the version and the time it had
      have hsame : e'.version = e.2.version ∧ e'.lastUpdated = e.2.lastUpdated := by
        simp only [handleExpiredData, Option.bind_eq_bind, Option.bind_eq_some_iff] at hv
        obtain ⟨date, -, hv⟩ := hv
        split_ifs at hv
        · split at hv
          · cases hv
          · cases hv
          · cases hv
            exact ⟨rfl, rfl⟩
        · cases hv
      exact ⟨hsame.1 ▸ he.1, hsame.2 ▸ he.2⟩

end CleanUp

namespace State

theorem mem_sortedEntries {e : Sigma fun _ : UUID => Entry} :
    e ∈ s.sortedEntries ↔ e ∈ s.storageData.entries :=
  List.mem_insertionSort _

/-- So it comes to its end if all of them are. -/
theorem isSome_cleanUpExpiredData :
    (s.cleanUpExpiredData now).isSome ↔ ∀ e ∈ s.storageData.entries, e.2.Readable := by
  have hrun : (Run.run (CleanUp.entry now) ⟨s.storageData, [], []⟩ s.sortedEntries).isSome ↔
      ∀ e ∈ s.sortedEntries, e.2.Readable :=
    Run.isSome_run_iff_forall fun _ _ => CleanUp.isSome_entry
  have hsome : (s.cleanUpExpiredData now).isSome ↔
      (Run.run (CleanUp.entry now) ⟨s.storageData, [], []⟩ s.sortedEntries).isSome := by
    rw [State.cleanUpExpiredData, Option.bind_eq_bind]
    cases Run.run (CleanUp.entry now) ⟨s.storageData, [], []⟩ s.sortedEntries with
    | none => exact Iff.rfl
    | some c => exact iff_of_true rfl rfl
  rw [hsome, hrun]
  exact forall_congr' fun e => by rw [mem_sortedEntries]

theorem Complete.cleanUpExpiredData (h : s.Complete) (ht : s.cleanUpExpiredData now = some t) :
    t.Complete := by
  simp only [State.cleanUpExpiredData, Option.bind_eq_bind, Option.pure_def,
    Option.bind_eq_some_iff, Option.some.injEq] at ht
  obtain ⟨c, hrun, rfl⟩ := ht
  have hc : CompleteTable c.storageData := by
    have halong : Run.Along (CleanUp.entry now) (fun _ e => e.2.Complete)
        ⟨s.storageData, [], []⟩ s.sortedEntries :=
      Run.along_of_forall fun e he => h.storageData.of_mem (mem_sortedEntries.mp he)
    exact Run.invariant_of_run (fun c => CompleteTable c.storageData)
      (fun _ _ _ hc he hstep => CleanUp.complete_entry hstep hc he) h.storageData halong hrun
  have hposted : (({ s with storageData := c.storageData } :
      State).postStorageDeleteRequestForUuids (c.marked.map UUID.text)).Complete :=
    Complete.postStorageDeleteRequestForUuids ⟨hc, h.file⟩
  exact ⟨hposted.storageData.eraseAll c.removed, hposted.file⟩

/-- The end of `handle_kernel_get_journal_info` sends and changes nothing else. -/
theorem handleKernelGetJournalInfo_eq_some {requestId : ID32} {message : Text} :
    s.handleKernelGetJournalInfo L requestId syncClass message now = some t ↔
      ∃ j, Run.run (Journal.line L syncClass now) ⟨s, [], ∅⟩ (lines (cString message)) = some j ∧
        (j.task.postStorageDeleteRequestForUuids j.deleted).send
          (.sendUuids requestId j.requested) = t := by
  simp only [State.handleKernelGetJournalInfo, Option.bind_eq_bind, Option.pure_def,
    Option.bind_eq_some_iff, Option.some.injEq]

theorem storageData_postStorageDelete (names : List Text) :
    (s.postStorageDeleteRequestForUuids names).storageData = s.storageData := by
  rw [postStorageDeleteRequestForUuids]
  split_ifs <;> rfl

/-! ### Runs -/

/-- Every state of a run is complete. -/
theorem complete_step {e : Event} (h : s.Complete) (ht : s.step L e = some t) : t.Complete := by
  cases e with
  | sendJournalInfo requestId time message =>
    obtain rfl := Option.some.inj ht
    cases message with
    | none => exact h.send _
    | some message => exact h.send _
  | del uuid version lastUpdated now =>
    obtain rfl := Option.some.inj ht
    exact h.handleKernelDeleteFromDeviceJson
  | save uuid version isDeleted lastUpdated expireDate =>
    obtain rfl := Option.some.inj ht
    exact h.set ⟨rfl, rfl⟩
  | getJournalInfo requestId syncClass message now =>
    obtain ⟨j, hrun, rfl⟩ := handleKernelGetJournalInfo_eq_some.mp ht
    exact (Journal.complete_of_run hrun h).postStorageDeleteRequestForUuids.send _
  | dumpUserInfo requestId newKey =>
    obtain rfl := Option.some.inj ht
    have hmarked : ({ s with deviceJsonUpdated := s.deviceJsonUpdated || newKey } :
        State).Complete := ⟨h.storageData, h.file⟩
    exact hmarked.saveDeviceJson.send _
  | userManagerSave uuid version lastUpdated =>
    obtain rfl := Option.some.inj ht
    exact h.handleAddForUserManager
  | getUuid requestId uuid data =>
    obtain rfl := Option.some.inj ht
    exact h.handleStorageGetUuid
  | timeout =>
    obtain rfl := Option.some.inj ht
    exact h.saveDeviceJson
  | cleanUp now => exact h.cleanUpExpiredData ht
  | restart =>
    obtain rfl := Option.some.inj ht
    exact h.parseDeviceJson

/-- What an input may not do: a malformed line has no effect, and entries no well-formed line is
about stay unchanged. -/
def Tolerates (L : Libs) (s : State) : Event → Prop
  | .getJournalInfo requestId syncClass message now =>
    Run.Along (Journal.line L syncClass now) (Journal.Ignores L syncClass now) ⟨s, [], ∅⟩
        (lines (cString message)) ∧
      ∀ t ∈ s.step L (.getJournalInfo requestId syncClass message now), ∀ u,
        (∀ l ∈ journalLines message, l.WellFormed L → ¬ l.Names L u) →
          t.storageData.lookup u = s.storageData.lookup u
  | _ => True

/-- **Robustness**: no input of the run ends the node, and none does what it may not do. -/
def Robust (L : Libs) (s : State) (es : List Event) : Prop :=
  (Run.run (step · L) s es).isSome ∧ Run.Along (step · L) (Tolerates L) s es

/-- The condition: the lines of a journal are well-formed, and a clean-up meets dates it can
read. -/
def Sane (L : Libs) (s : State) : Event → Prop
  | .getJournalInfo _ _ message _ => ∀ t ∈ lines (cString message), IsLine L t
  | .cleanUp _ => ∀ e ∈ s.storageData.entries, e.2.Readable
  | _ => True

/-- A journal of well-formed lines changes the entries they are about. -/
theorem lookup_of_journal {requestId : ID32} {message : Text}
    (hlines : ∀ t ∈ lines (cString message), IsLine L t)
    (ht : s.handleKernelGetJournalInfo L requestId syncClass message now = some t)
    (hu : ∀ l ∈ journalLines message, l.WellFormed L → ¬ l.Names L u) :
    t.storageData.lookup u = s.storageData.lookup u := by
  obtain ⟨j, hrun, rfl⟩ := handleKernelGetJournalInfo_eq_some.mp ht
  rw [send_storageData, storageData_postStorageDelete]
  refine Journal.lookup_of_run hrun fun t ht l hl => ?_
  obtain ⟨l', hl', hwell⟩ := hlines t ht
  obtain rfl : l = l' := Option.some.inj (hl.symm.trans hl')
  exact hu l (List.mem_filterMap.mpr ⟨t, ht, hl⟩) hwell

/-- One input. -/
theorem isSome_and_tolerates_iff {e : Event} (h : s.Complete) :
    (s.step L e).isSome ∧ s.Tolerates L e ↔ s.Sane L e := by
  cases e with
  | getJournalInfo requestId syncClass message now =>
    have hloop : (Run.run (Journal.line L syncClass now) ⟨s, [], ∅⟩
        (lines (cString message))).isSome ∧ Run.Along (Journal.line L syncClass now)
          (Journal.Ignores L syncClass now) ⟨s, [], ∅⟩ (lines (cString message)) ↔
            ∀ t ∈ lines (cString message), IsLine L t :=
      Journal.isSome_and_ignores_iff h
    have hsome : (s.step L (.getJournalInfo requestId syncClass message now)).isSome ↔
        (Run.run (Journal.line L syncClass now) ⟨s, [], ∅⟩ (lines (cString message))).isSome := by
      simp only [Option.isSome_iff_exists]
      constructor
      · rintro ⟨t, ht⟩
        obtain ⟨j, hrun, -⟩ := handleKernelGetJournalInfo_eq_some.mp ht
        exact ⟨j, hrun⟩
      · rintro ⟨j, hrun⟩
        exact ⟨_, handleKernelGetJournalInfo_eq_some.mpr ⟨j, hrun, rfl⟩⟩
    rw [Sane, hsome]
    constructor
    · rintro ⟨hrun, hignores, -⟩
      exact hloop.mp ⟨hrun, hignores⟩
    · intro hlines
      obtain ⟨hrun, hignores⟩ := hloop.mpr hlines
      exact ⟨hrun, hignores, fun t ht u hu => lookup_of_journal hlines ht hu⟩
  | cleanUp now => exact (and_iff_left trivial).trans isSome_cleanUpExpiredData
  | _ => exact iff_of_true ⟨rfl, trivial⟩ trivial

/-- **The task is robust** in a run exactly when every input meets the condition. -/
theorem robust_iff (es : List Event) :
    Robust L fresh es ↔ Run.Along (step · L) (Sane L) fresh es :=
  Run.isSome_and_along_iff Complete (fun _ _ _ h ht => complete_step h ht)
    (fun _ _ h => isSome_and_tolerates_iff h) complete_fresh

/-- A line that is no journal line ends the node. -/
theorem not_robust : ¬ ∀ (L : Libs) (es : List Event), Robust L fresh es := by
  intro h
  have hsome := (h canonicalLibs [.getJournalInfo 1 0 ("hello".toList) 0]).1
  revert hsome
  decide

/-- So does the date of an object that was saved, once the timer expires. -/
example : Run.run (step · canonicalLibs) fresh
    [.save 5 1 false 800 (.ofNat (2 ^ 63)), .timeout, .restart, .cleanUp 0] = none := by
  decide

end State

end Backup

end Metax
