import Metax.Backup.Expiry

/-!
# How often an expired entry is asked to be deleted

A clean-up asks the storage to delete the uuids of the entries it makes tombstones. A tombstone
becomes a live entry by a save only, so between two saves of a uuid the clean-ups ask at most once
for it, whatever journals, deletions and other clean-ups come in between.

The tombstone is in the file after the next save of the json only. A restart before that brings the
live entry back, and so it counts as a save of it here (`Event.Between`).

`Dead` is the invariant between two saves, and `Written` says that the file follows the json: a
restart reads the one and goes on as the other.
-/

namespace Metax

namespace Backup

/-! ### Runs between two saves -/

/-- How often a message asks the storage to delete a uuid. -/
def Message.asks (u : UUID) : Message → ℕ
  | delUuids names => names.count u.text
  | _ => 0

namespace Event

/-- A clean-up. -/
def isCleanUp : Event → Bool
  | cleanUp _ => true
  | _ => false

/-- The input saves no entry of the uuid, neither by a save nor by a restart from a file that is
older than the json. -/
def Between (u : UUID) (s : State) : Event → Prop
  | save uuid _ _ _ _ => uuid ≠ u
  | userManagerSave uuid _ _ => uuid ≠ u
  | restart => s.deviceJsonUpdated = false
  | _ => True

instance (u : UUID) (s : State) : (e : Event) → Decidable (e.Between u s)
  | save uuid _ _ _ _ => inferInstanceAs (Decidable (uuid ≠ u))
  | userManagerSave uuid _ _ => inferInstanceAs (Decidable (uuid ≠ u))
  | restart => inferInstanceAs (Decidable (s.deviceJsonUpdated = false))
  | sendJournalInfo _ _ _ | del _ _ _ _ | getJournalInfo _ _ _ _ | dumpUserInfo _ _
  | getUuid _ _ _ | timeout | cleanUp _ => inferInstanceAs (Decidable True)

end Event

/-- The entry after it was written to a file and read back. -/
def Entry.reread (e : Entry) : Entry :=
  { e with expirationDate := e.expirationDate.map Expiration.reread }

namespace State

/-- How often the messages sent since another state ask for a uuid. -/
def asksSince (s t : State) (u : UUID) : ℕ :=
  ((t.out.drop s.out.length).map (Message.asks u)).sum

/-- How often the clean-ups of a run ask the storage to delete a uuid. -/
def asked (L : Libs) (u : UUID) : State → List Event → ℕ
  | _, [] => 0
  | s, e :: es => ((s.step L e).map fun t =>
      (if e.isCleanUp then s.asksSince t u else 0) + asked L u t es).getD 0

/-- The node starts with a device json in its file. -/
def start (file : Ledger.Table UUID Entry) : State := parseDeviceJson ⟨∅, false, file, []⟩

/-- There is no live entry of the uuid. -/
def Dead (u : UUID) (s : State) : Prop := ∀ e ∈ s.storageData.lookup u, e.isDeleted ≠ some false

/-- Unless the json has changed since, its entries are in the file. -/
def Written (s : State) : Prop := s.deviceJsonUpdated = false →
  ∀ u, (s.file.lookup u).map Entry.isDeleted = (s.storageData.lookup u).map Entry.isDeleted

variable {L : Libs} {s t : State} {u : UUID} {now : Int64}

/-! ### Tombstones stay tombstones -/

/-- An object is dead as long as its entry stays marked, or absent. -/
theorem Dead.of_lookup (h : s.Dead u) (heq : t.storageData.lookup u = s.storageData.lookup u) :
    t.Dead u := by
  rw [Dead, heq]
  exact h

theorem Dead.of_isDeleted (h : s.Dead u) (heq : (t.storageData.lookup u).map Entry.isDeleted =
    (s.storageData.lookup u).map Entry.isDeleted) : t.Dead u := by
  intro e he hlive
  rw [he, Option.map_some, hlive] at heq
  obtain ⟨e', he', hdel⟩ := Option.map_eq_some_iff.mp heq.symm
  exact h e' he' hdel

/-- An entry that is written must not be alive. -/
theorem Dead.set {v : UUID} {e : Entry} (h : s.Dead u) (he : u = v → e.isDeleted ≠ some false) :
    (s.set v e).Dead u := by
  intro e' he'
  obtain ⟨huv, rfl⟩ | ⟨huv, he'⟩ := Ledger.eq_or_of_lookup_insert he'
  · exact he huv
  · exact h e' he'

/-- Deleting it again does not bring it back. -/
theorem Dead.delete {v : UUID} {version : UInt32} {lastUpdated : UInt64} (h : s.Dead u) :
    (s.handleKernelDeleteFromDeviceJson v version lastUpdated now).Dead u := by
  rw [handleKernelDeleteFromDeviceJson]
  split
  · exact h
  · refine h.set fun _ hlive => ?_
    cases hlive

/-- Nor does a journal that is asked for. -/
theorem Dead.journal {requestId : ID32} {syncClass : UInt32} {message : Text} (h : s.Dead u)
    (ht : s.handleKernelGetJournalInfo L requestId syncClass message now = some t) : t.Dead u := by
  obtain ⟨j, hrun, rfl⟩ := handleKernelGetJournalInfo_eq_some.mp ht
  have hdead : j.task.Dead u := by
    refine Run.invariant_of_run_all (fun j : Journal => j.task.Dead u) ?_ h hrun
    intro j line j' hj hline
    obtain ⟨l, -, hround⟩ := Journal.line_round hline
    cases hround with
    | deleted v hv hop => exact hj.delete
    | saved v requested hv hop hrequest => exact hj
  exact hdead.of_lookup (congrArg _ (storageData_postStorageDelete _))

/-- A clean-up makes no tombstone a live entry. -/
theorem Dead.cleanUp (h : s.Dead u) (ht : s.cleanUpExpiredData now = some t) : t.Dead u := by
  have hswept := swept ht
  intro e he
  rw [hswept.lookup] at he
  obtain ⟨e₀, he₀, hafter⟩ := Option.bind_eq_some_iff.mp he
  have hread : e₀.Readable := isSome_cleanUpExpiredData.mp (Option.isSome_of_mem ht) ⟨u, e₀⟩
    (AList.mem_lookup_iff.mp he₀)
  obtain ⟨hmarked, -⟩ | ⟨-, hv⟩ | ⟨-, -, hv⟩ := Entry.verdict_cases now hread
  · exact absurd hmarked.2 (h e₀ he₀)
  · rw [hv] at hafter
    cases hafter
  · rw [hv] at hafter
    obtain rfl := Option.some.inj hafter
    exact h e₀ he₀

/-! ### The file -/

theorem lookup_parseDeviceJson :
    s.parseDeviceJson.storageData.lookup u = (s.file.lookup u).map Entry.reread := by
  rw [parseDeviceJson]
  dsimp only
  obtain ⟨entries, hnodup⟩ := s.file
  induction entries with
  | nil => rfl
  | cons e es ih =>
    have hes : es.NodupKeys := (List.nodupKeys_cons.mp hnodup).2
    obtain ⟨v, e⟩ := e
    rw [List.foldr_cons, Ledger.lookup_insert_ite]
    by_cases hu : u = v
    · subst hu
      rw [if_pos rfl]
      exact congrArg (Option.map Entry.reread) (List.dlookup_cons_eq es u e).symm
    · rw [if_neg hu, ih hes]
      exact congrArg (Option.map Entry.reread) (List.dlookup_cons_ne es ⟨v, e⟩ hu).symm

/-- A restart reads from the file what was marked. -/
theorem isDeleted_parseDeviceJson : (s.parseDeviceJson.storageData.lookup u).map Entry.isDeleted =
    (s.file.lookup u).map Entry.isDeleted := by
  rw [lookup_parseDeviceJson, Option.map_map]
  rfl

theorem Written.parseDeviceJson : s.parseDeviceJson.Written :=
  fun _ _ => isDeleted_parseDeviceJson.symm

/-- A change is noted, so that it will be written. -/
theorem Written.set {v : UUID} {e : Entry} : (s.set v e).Written := fun h => by cases h

theorem Written.delete {v : UUID} {version : UInt32} {lastUpdated : UInt64} (h : s.Written) :
    (s.handleKernelDeleteFromDeviceJson v version lastUpdated now).Written := by
  rw [handleKernelDeleteFromDeviceJson]
  split
  · exact h
  · exact .set

/-- After it was written nothing is left to note. -/
theorem Written.saveDeviceJson (h : s.Written) : s.saveDeviceJson.Written := by
  rw [State.saveDeviceJson]
  split_ifs
  · exact fun _ _ => rfl
  · exact h

theorem Written.post {names : List Text} (h : s.Written) :
    (s.postStorageDeleteRequestForUuids names).Written := by
  rw [postStorageDeleteRequestForUuids]
  split_ifs
  · exact h
  · exact h

theorem Written.journal {requestId : ID32} {syncClass : UInt32} {message : Text} (h : s.Written)
    (ht : s.handleKernelGetJournalInfo L requestId syncClass message now = some t) : t.Written := by
  obtain ⟨j, hrun, rfl⟩ := handleKernelGetJournalInfo_eq_some.mp ht
  have hwritten : j.task.Written := by
    refine Run.invariant_of_run_all (fun j : Journal => j.task.Written) ?_ h hrun
    intro j line j' hj hline
    obtain ⟨l, -, hround⟩ := Journal.line_round hline
    cases hround with
    | deleted v hv hop => exact hj.delete
    | saved v requested hv hop hrequest => exact hj
  exact hwritten.post

/-- A clean-up that does not say that the json has changed has not changed it. -/
theorem Written.cleanUp (h : s.Written) (ht : s.cleanUpExpiredData now = some t) : t.Written := by
  have hswept := swept ht
  intro hupdated v
  rw [hswept.updated] at hupdated
  simp only [Bool.or_eq_false_iff, Bool.not_eq_false', List.isEmpty_iff] at hupdated
  obtain ⟨⟨hsame, hmarked⟩, hremoved⟩ := hupdated
  rw [hswept.file, h hsame v]
  cases hv : s.storageData.lookup v with
  | none => rw [hswept.lookup_of_none hv]
  | some e =>
    have hmark : ¬ (e.verdict now).isMark = true := fun hm =>
      List.not_mem_nil (hmarked ▸ mem_uuidsWhere.mpr ⟨e, hv, hm⟩)
    have hremove : ¬ (e.verdict now).isRemove = true := fun hr =>
      List.not_mem_nil (hremoved ▸ mem_uuidsWhere.mpr ⟨e, hv, hr⟩)
    rw [hswept.lookup_of_some hv, if_neg hremove]
    cases hverdict : e.verdict now with
    | keep => rfl
    | mark e' =>
      rw [hverdict] at hmark
      exact absurd rfl hmark
    | remove => rfl

/-- **The file is up to date** unless a change is noted. -/
theorem written_step {e : Event} (h : s.Written) (ht : s.step L e = some t) : t.Written := by
  cases e with
  | sendJournalInfo requestId time message =>
    obtain rfl := Option.some.inj ht
    cases message with
    | none => exact h
    | some message => exact h
  | del uuid version lastUpdated now =>
    obtain rfl := Option.some.inj ht
    exact h.delete
  | save uuid version isDeleted lastUpdated expireDate =>
    obtain rfl := Option.some.inj ht
    exact .set
  | getJournalInfo requestId syncClass message now => exact h.journal ht
  | dumpUserInfo requestId newKey =>
    obtain rfl := Option.some.inj ht
    have hmarked : ({ s with deviceJsonUpdated := s.deviceJsonUpdated || newKey } :
        State).Written := fun hupdated => h (Bool.or_eq_false_iff.mp hupdated).1
    exact hmarked.saveDeviceJson
  | userManagerSave uuid version lastUpdated =>
    obtain rfl := Option.some.inj ht
    rw [handleAddForUserManager]
    split_ifs
    · exact h
    · exact .set
  | getUuid requestId uuid data =>
    obtain rfl := Option.some.inj ht
    rw [handleStorageGetUuid]
    repeat' split
    all_goals exact h
  | timeout =>
    obtain rfl := Option.some.inj ht
    exact h.saveDeviceJson
  | cleanUp now => exact h.cleanUp ht
  | restart =>
    obtain rfl := Option.some.inj ht
    exact .parseDeviceJson

/-- **A dead object stays dead** as long as it is not saved. -/
theorem dead_step {e : Event} (hwritten : s.Written) (h : s.Dead u) (he : e.Between u s)
    (ht : s.step L e = some t) : t.Dead u := by
  cases e with
  | sendJournalInfo requestId time message =>
    obtain rfl := Option.some.inj ht
    cases message with
    | none => exact h
    | some message => exact h
  | del uuid version lastUpdated now =>
    obtain rfl := Option.some.inj ht
    exact h.delete
  | save uuid version isDeleted lastUpdated expireDate =>
    obtain rfl := Option.some.inj ht
    exact h.set fun heq => absurd heq.symm he
  | getJournalInfo requestId syncClass message now => exact h.journal ht
  | dumpUserInfo requestId newKey =>
    obtain rfl := Option.some.inj ht
    refine h.of_lookup ?_
    rw [handleKernelDumpUserInfo, send_storageData, saveDeviceJson]
    split_ifs
    · rfl
    · rfl
  | userManagerSave uuid version lastUpdated =>
    obtain rfl := Option.some.inj ht
    rw [handleAddForUserManager]
    split_ifs
    · exact h
    · exact h.set fun heq => absurd heq.symm he
  | getUuid requestId uuid data =>
    obtain rfl := Option.some.inj ht
    rw [handleStorageGetUuid]
    repeat' split
    all_goals exact h
  | timeout =>
    obtain rfl := Option.some.inj ht
    refine h.of_lookup ?_
    rw [saveDeviceJson]
    split_ifs
    · rfl
    · rfl
  | cleanUp now => exact h.cleanUp ht
  | restart =>
    obtain rfl := Option.some.inj ht
    exact h.of_isDeleted (isDeleted_parseDeviceJson.trans (hwritten he u))

/-! ### What a clean-up asks for -/

/-- The uuids of new tombstones are asked for once, and no others. -/
theorem asksSince_cleanUp (ht : s.cleanUpExpiredData now = some t) : s.asksSince t u =
    if u ∈ s.uuidsWhere fun e => (e.verdict now).isMark then 1 else 0 := by
  have hswept := swept ht
  obtain ⟨us, hus⟩ : ∃ us, us = s.uuidsWhere fun e => (e.verdict now).isMark := ⟨_, rfl⟩
  have hnodup : us.Nodup := hus ▸ nodup_uuidsWhere
  rw [asksSince, hswept.out, List.drop_left, ← hus]
  have hcount : (us.map UUID.text).count u.text = if u ∈ us then 1 else 0 := by
    rw [List.count_map_of_injective us UUID.text UUID.text_injective]
    exact List.Nodup.count hnodup
  rw [← hcount]
  split_ifs with hnil
  · rw [hnil]
    rfl
  · rw [List.map_singleton, List.sum_singleton]
    rfl

/-- One clean-up asks for an object once. -/
theorem asksSince_le_one (ht : s.cleanUpExpiredData now = some t) : s.asksSince t u ≤ 1 := by
  rw [asksSince_cleanUp ht]
  split_ifs
  · rfl
  · exact Nat.zero_le 1

/-- One that is asked for was live, and is a tombstone now. -/
theorem dead_of_asks (ht : s.cleanUpExpiredData now = some t) (h : s.asksSince t u ≠ 0) :
    ¬ s.Dead u ∧ t.Dead u := by
  have hswept := swept ht
  rw [asksSince_cleanUp ht] at h
  split_ifs at h with hu
  · obtain ⟨e, he, hmark⟩ := mem_uuidsWhere.mp hu
    have hread : e.Readable := isSome_cleanUpExpiredData.mp (Option.isSome_of_mem ht) ⟨u, e⟩
      (AList.mem_lookup_iff.mp he)
    have hmarked := (Entry.isMark_iff hread).mp hmark
    refine ⟨fun hdead => hdead e he hmarked.2, fun e' he' => ?_⟩
    rw [hswept.lookup_of_some he, Entry.verdict_of_marked hread hmarked] at he'
    rw [← Option.some.inj he']
    exact fun hlive => by cases hlive
  · exact absurd rfl h

/-! ### Whole runs -/

variable {es : List Event} {e : Event}

/-- How often it was asked for in a run, event by event. -/
theorem asked_cons (ht : s.step L e = some t) : asked L u s (e :: es) =
    (if e.isCleanUp then s.asksSince t u else 0) + asked L u t es := by
  rw [asked, ht]
  rfl

theorem asked_of_none (ht : s.step L e = none) : asked L u s (e :: es) = 0 := by
  rw [asked, ht]
  rfl

/-- No clean-up asks for a uuid without a live entry. -/
theorem asked_of_dead (hwritten : s.Written) (h : s.Dead u)
    (hes : Run.Along (step · L) (fun s e => e.Between u s) s es) : asked L u s es = 0 := by
  induction es generalizing s with
  | nil => rfl
  | cons e es ih =>
    cases ht : s.step L e with
    | none => exact asked_of_none ht
    | some t =>
      rw [asked_cons ht, ih (written_step hwritten ht) (dead_step hwritten h hes.1 ht)
        (hes.2 t ht), Nat.add_zero]
      cases e with
      | cleanUp now =>
        by_contra hasks
        exact (dead_of_asks ht hasks).1 h
      | _ => rfl

/-- **Between two saves** the clean-ups ask at most once for a uuid. -/
theorem asked_le_one (hwritten : s.Written)
    (hes : Run.Along (step · L) (fun s e => e.Between u s) s es) : asked L u s es ≤ 1 := by
  induction es generalizing s with
  | nil => exact Nat.zero_le 1
  | cons e es ih =>
    cases ht : s.step L e with
    | none =>
      rw [asked_of_none ht]
      exact Nat.zero_le 1
    | some t =>
      have hwritten' := written_step hwritten ht
      rw [asked_cons ht]
      by_cases hasks : e.isCleanUp = true ∧ s.asksSince t u ≠ 0
      · obtain ⟨hclean, hne⟩ := hasks
        cases e with
        | cleanUp now =>
          -- from here on there is a tombstone
          rw [asked_of_dead hwritten' (dead_of_asks ht hne).2 (hes.2 t ht)]
          exact asksSince_le_one ht
        | _ => cases hclean
      · have hzero : (if e.isCleanUp then s.asksSince t u else 0) = 0 := by
          split_ifs with hclean
          · exact not_not.mp (not_and.mp hasks hclean)
          · rfl
        rw [hzero, Nat.zero_add]
        exact ih hwritten' (hes.2 t ht)

/-- **The life cycle of an entry that expires.** A clean-up does what it should exactly if it can
read the dates and write the new ones; and in every run from a device json in the file no two
clean-ups between two saves of a uuid ask the storage to delete it. -/
theorem expiry_lifeCycle (L : Libs) :
    (∀ (s : State) (now : Int64),
      (∃ t, s.cleanUpExpiredData now = some t ∧ CleansUp s now t) ↔ Datable s now) ∧
    ∀ (file : Ledger.Table UUID Entry) (u : UUID) (pre es : List Event) (s : State),
      Run.run (step · L) (start file) pre = some s →
        Run.Along (step · L) (fun s e => e.Between u s) s es → asked L u s es ≤ 1 := by
  refine ⟨fun s now => cleansUp_iff, fun file u pre es s hpre hes => ?_⟩
  have hwritten : s.Written := Run.invariant_of_run_all Written
    (fun _ _ _ h ht => written_step h ht) Written.parseDeviceJson hpre
  exact asked_le_one hwritten hes

/-- An object that was saved and expires, the clean-up twice, and a restart with a third one. -/
theorem expiry_lifeCycle_restarted :
    asked canonicalLibs 5 ((start ∅).handleAddInDeviceJson 5 1 false 800 10)
      [.cleanUp 20, .cleanUp 21, .timeout, .restart, .cleanUp 30] ≤ 1 :=
  (expiry_lifeCycle canonicalLibs).2 ∅ 5 [.save 5 1 false 800 10] _ _ rfl (by decide)

/-- A date that is no signed number ends the node. -/
theorem not_cleansUp : ¬ ∀ (s : State) (now : Int64),
    ∃ t, s.cleanUpExpiredData now = some t ∧ CleansUp s now t := by
  intro h
  obtain ⟨t, ht, -⟩ := h (fresh.handleAddInDeviceJson 5 1 false 800 (.ofNat (2 ^ 63))) 0
  have hnone : (fresh.handleAddInDeviceJson 5 1 false 800 (.ofNat (2 ^ 63))).cleanUpExpiredData 0 =
      none := by
    decide
  rw [ht] at hnone
  cases hnone

end State

end Backup

end Metax
