import Metax.Sync.Kernel

/-!
# The law of a synchronization session

A session begins with the journal of a peer. The backup task says later which names are missing, and
these the peer is asked for. From the beginning on the peer can send `get_uuid` messages, with
whatever uuids. `SessionLaw` is what the session should do: exactly the messages that are awaited
are stored and entered into the journal, each once; the router is told once that the session is
finished, and the request is removed, when all names have arrived; every other message changes
nothing.

The names that are missing are both the test whether a message is awaited and the test whether the
session is finished, and a message is stored before the test. As long as the names are not known a
message finds no names at all. The law holds exactly when no message comes before the names are
known, something is requested, and every message is one of the missing names as long as there are
any (`sessionLaw_iff`).
-/

namespace Metax

namespace Sync

open Ledger (Table)

variable {s t : State} {rid : ID32} {journal : Text} {R : Table Text Char} {m : UuidMessage}
  {early ms : List UuidMessage}

/-! ### The law -/

/-- The messages that are awaited when they arrive. -/
def accepted : Table Text Char → List UuidMessage → List UuidMessage
  | _, [] => []
  | R, m :: ms =>
    if m.uuid.text ∈ R then m :: accepted (R.erase m.uuid.text) ms else accepted R ms

/-- Every name has arrived. -/
def Complete (R : Table Text Char) (ms : List UuidMessage) : Prop :=
  ∀ name ∈ R.keys, ∃ m ∈ ms, m.uuid.text = name

instance (R : Table Text Char) (ms : List UuidMessage) : Decidable (Complete R ms) :=
  have (name : Text) : Decidable (∃ m ∈ ms, m.uuid.text = name) := List.decidableBEx _ _
  List.decidableBAll _ _

namespace Output

/-- What is stored. -/
def stored : Output → Option (UUID × Package)
  | storageSave uuid data => some (uuid, data)
  | _ => none

/-- What is entered into the journal. -/
def journaled : Output → Option (UUID × UInt32 × UInt64 × UInt64)
  | journalSave uuid version lastUpdated expireDate =>
    some (uuid, version, lastUpdated, expireDate)
  | _ => none

end Output

/-- What was sent for the messages of a session. -/
structure Served (rid : ID32) (R : Table Text Char) (ms : List UuidMessage) (sent : List Output) :
    Prop where
  stored : sent.filterMap Output.stored = (accepted R ms).map fun m => (m.uuid, m.data)
  journaled : sent.filterMap Output.journaled =
    (accepted R ms).map fun m => (m.uuid, m.dataVersion, m.lastUpdated, m.expireDate)
  finished : sent.count (.routerSyncFinished rid) = if Complete R ms then 1 else 0

namespace State

/-- A session: the journal is received, messages come while the backup task compares it, the missing
names are requested, and more messages come. -/
def session (rid : ID32) (journal : Text) (R : Table Text Char) (early ms : List UuidMessage) :
    List Event :=
  .routerJournalInfo rid (some journal) :: (early.map (.routerGetUuid rid) ++
    .backupSendUuids rid R :: ms.map (.routerGetUuid rid))

/-- The message is awaited. -/
def Awaits (s : State) (rid : ID32) (m : UuidMessage) : Prop :=
  ∃ r ∈ s.requests.lookup rid, ∃ names ∈ r.masterJson, m.uuid.text ∈ names

/-- A message that is not awaited changes nothing. -/
def Ignores (rid : ID32) (s : State) (m : UuidMessage) : Prop :=
  ¬ s.Awaits rid m → s.handleRouterGetUuid rid m = some s

/-- **The law of a session**. -/
def SessionLaw (s : State) (rid : ID32) (journal : Text) (R : Table Text Char)
    (early ms : List UuidMessage) : Prop :=
  (∃ t, Run.run step s (session rid journal R early ms) = some t ∧
    Served rid R (early ++ ms) (t.out.drop s.out.length) ∧
      (t.requests.lookup rid = none ↔ Complete R (early ++ ms))) ∧
    Run.Along step (fun s e => ∀ m, e = .routerGetUuid rid m → s.Ignores rid m) s
      (session rid journal R early ms)

end State

/-- As long as names are missing, every message is one of them. -/
def InOrder : Table Text Char → List UuidMessage → Prop
  | _, [] => True
  | R, m :: ms => R.keys = [] ∨ m.uuid.text ∈ R ∧ InOrder (R.erase m.uuid.text) ms

/-! ### One message -/

theorem mem_of_keys_eq_nil (h : R.keys = []) (name : Text) : name ∉ R := by
  intro hmem
  have hkeys : name ∈ R.keys := hmem
  rw [h] at hkeys
  cases hkeys

theorem accepted_of_keys_eq_nil (h : R.keys = []) : accepted R ms = [] := by
  induction ms with
  | nil => rfl
  | cons m ms ih => rw [accepted, if_neg (mem_of_keys_eq_nil h _), ih]

theorem mem_keys_of_erase {name name' : Text} :
    name ∈ (R.erase name').keys ↔ name ≠ name' ∧ name ∈ R.keys :=
  AList.mem_erase

theorem complete_cons (hm : m.uuid.text ∈ R) :
    Complete R (m :: ms) ↔ Complete (R.erase m.uuid.text) ms := by
  constructor
  · intro h name hname
    obtain ⟨hne, hmem⟩ := mem_keys_of_erase.mp hname
    obtain ⟨m', hm', htext⟩ := h name hmem
    rcases List.mem_cons.mp hm' with rfl | hm'
    · exact absurd htext.symm hne
    · exact ⟨m', hm', htext⟩
  · intro h name hname
    by_cases hne : name = m.uuid.text
    · exact ⟨m, List.mem_cons_self, hne.symm⟩
    · obtain ⟨m', hm', htext⟩ := h name (mem_keys_of_erase.mpr ⟨hne, hname⟩)
      exact ⟨m', List.mem_cons_of_mem _ hm', htext⟩

namespace State

/-- The request of a session whose names are missing. -/
def Waits (s : State) (rid : ID32) (R : Table Text Char) : Prop :=
  s.requests.lookup rid = some ⟨.getJournalInfo, 0, some R⟩

/-- Outputs that are neither stored nor journaled nor the end of a session. -/
def Aside (rid : ID32) (sent : List Output) : Prop :=
  ∀ o ∈ sent, o.stored = none ∧ o.journaled = none ∧ o ≠ .routerSyncFinished rid

/-- What stands between the storage and the journal: the user manager and the listeners. -/
theorem exists_aside (s : State) (rid : ID32) (m : UuidMessage) (u : UUID) :
    ∃ told, (if u = s.userJsonUuid then s.send (.userManagerSaveData m.data) else s).notifyUpdate
      m.uuid m.dataVersion = { s with out := s.out ++ told } ∧ Aside rid told := by
  have hlisteners (s : State) : ∃ told, s.notifyUpdate m.uuid m.dataVersion =
      { s with out := s.out ++ told } ∧ Aside rid told := by
    rw [notifyUpdate]
    split
    · exact ⟨[], by rw [List.append_nil], List.forall_mem_nil _⟩
    · rename_i listeners hl
      refine ⟨_, rfl, fun o ho => ?_⟩
      obtain ⟨p, -, rfl⟩ := List.mem_map.mp ho
      rw [notification]
      split_ifs
      · exact ⟨rfl, rfl, by simp⟩
      · exact ⟨rfl, rfl, by simp⟩
  split_ifs with hu
  · obtain ⟨told, htold, haside⟩ := hlisteners (s.send (.userManagerSaveData m.data))
    refine ⟨.userManagerSaveData m.data :: told, ?_, List.forall_mem_cons.mpr ⟨?_, haside⟩⟩
    · rw [htold]
      simp [send]
    · exact ⟨rfl, rfl, by simp⟩
  · exact hlisteners s

/-- An awaited message is stored, told of and journaled, and the last one ends the session. -/
theorem handle_awaited (h : s.Waits rid R) (hm : m.uuid.text ∈ R) : ∃ t told,
    s.handleRouterGetUuid rid m = some t ∧ Aside rid told ∧
      t.requests = (if (R.erase m.uuid.text).keys = [] then s.requests.erase rid else
        s.requests.insert rid ⟨.getJournalInfo, 0, some (R.erase m.uuid.text)⟩) ∧
      t.out = s.out ++ ([.storageSave m.uuid m.data] ++ told ++
        [.journalSave m.uuid m.dataVersion m.lastUpdated m.expireDate] ++
          if (R.erase m.uuid.text).keys = [] then [.routerSyncFinished rid] else []) := by
  obtain ⟨told, htold, haside⟩ := exists_aside (s.send (.storageSave m.uuid m.data)) rid m 0
  rw [Waits] at h
  simp only [handleRouterGetUuid, h, if_true]
  rw [htold]
  simp only [processRequestedUuidForSync, if_pos hm]
  split_ifs with hlast
  · exact ⟨_, told, rfl, haside, rfl, by simp [send]⟩
  · exact ⟨_, told, rfl, haside, rfl, by simp [send]⟩

/-- Any other message is stored and journaled too, and ends the node. -/
theorem handle_unawaited (h : s.Waits rid R) (hm : m.uuid.text ∉ R) :
    s.handleRouterGetUuid rid m = none := by
  obtain ⟨told, htold, -⟩ := exists_aside (s.send (.storageSave m.uuid m.data)) rid m 0
  rw [Waits] at h
  simp only [handleRouterGetUuid, h, if_true]
  rw [htold]
  simp only [processRequestedUuidForSync, if_neg hm]

/-- A session that is over ignores messages. -/
theorem handle_over (h : s.requests.lookup rid = none) : s.handleRouterGetUuid rid m = some s := by
  simp only [handleRouterGetUuid, h]

theorem run_over (h : s.requests.lookup rid = none) :
    Run.run (handleRouterGetUuid · rid ·) s ms = some s := by
  induction ms with
  | nil => rfl
  | cons m ms ih => exact Run.run_cons_eq_some.mpr ⟨s, handle_over h, ih⟩

theorem awaits_iff (h : s.Waits rid R) : s.Awaits rid m ↔ m.uuid.text ∈ R := by
  rw [Waits] at h
  simp only [Awaits, h, Option.mem_def, Option.some.injEq, exists_eq_left']

/-! ### A session -/

theorem aside_filterMap {told : List Output} (h : Aside rid told) :
    told.filterMap Output.stored = [] ∧ told.filterMap Output.journaled = [] ∧
      told.count (.routerSyncFinished rid) = 0 := by
  refine ⟨?_, ?_, ?_⟩
  · exact List.filterMap_eq_nil_iff.mpr fun o ho => (h o ho).1
  · exact List.filterMap_eq_nil_iff.mpr fun o ho => (h o ho).2.1
  · exact List.count_eq_zero.mpr fun ho => (h _ ho).2.2 rfl

/-- What an awaited message adds to what was sent. -/
theorem served_cons {told rest : List Output} (hm : m.uuid.text ∈ R) (htold : Aside rid told)
    (hrest : Served rid (R.erase m.uuid.text) ms rest) :
    Served rid R (m :: ms) ([.storageSave m.uuid m.data] ++ told ++
      [.journalSave m.uuid m.dataVersion m.lastUpdated m.expireDate] ++ rest) := by
  obtain ⟨hstored, hjournaled, hfinished⟩ := aside_filterMap htold
  constructor
  · rw [accepted, if_pos hm, List.map_cons, ← hrest.stored]
    simp [List.filterMap_cons, hstored, Output.stored]
  · rw [accepted, if_pos hm, List.map_cons, ← hrest.journaled]
    simp [List.filterMap_cons, hjournaled, Output.journaled]
  · simp only [complete_cons hm, ← hrest.finished, List.count_append, hfinished]
    simp

/-- With the last name the router is told. -/
theorem served_last (h : R.keys = []) : Served rid R ms [.routerSyncFinished rid] := by
  have hcomplete : Complete R ms := by
    rw [Complete, h]
    exact List.forall_mem_nil _
  constructor
  · rw [accepted_of_keys_eq_nil h]
    rfl
  · rw [accepted_of_keys_eq_nil h]
    rfl
  · rw [if_pos hcomplete, List.count_singleton_self]

/-- A session that waits for names gets through messages in order, and does what it should. -/
theorem run_waiting (h : s.Waits rid R) (hne : R.keys ≠ []) (hms : InOrder R ms) :
    ∃ t sent, Run.run (handleRouterGetUuid · rid ·) s ms = some t ∧ t.out = s.out ++ sent ∧
      Served rid R ms sent ∧ (t.requests.lookup rid = none ↔ Complete R ms) := by
  induction ms generalizing s R with
  | nil =>
    have hmissing : ¬ Complete R [] := by
      obtain ⟨name, hname⟩ := List.exists_mem_of_ne_nil _ hne
      intro hcomplete
      obtain ⟨m, hm, -⟩ := hcomplete name hname
      cases hm
    refine ⟨s, [], rfl, (List.append_nil _).symm, ⟨rfl, rfl, ?_⟩, iff_of_false ?_ hmissing⟩
    · rw [if_neg hmissing]
      rfl
    · rw [Waits] at h
      rw [h]
      exact Option.some_ne_none _
  | cons m ms ih =>
    obtain ⟨hm, hms⟩ := hms.resolve_left hne
    obtain ⟨s', told, hstep, htold, hrequests, hout⟩ := handle_awaited h hm
    by_cases hlast : (R.erase m.uuid.text).keys = []
    · rw [if_pos hlast] at hrequests hout
      have hover : s'.requests.lookup rid = none := by
        rw [hrequests]
        exact AList.lookup_erase rid _
      refine ⟨s', _, Run.run_cons_eq_some.mpr ⟨s', hstep, run_over hover⟩, hout,
        served_cons hm htold (served_last hlast), iff_of_true hover ((complete_cons hm).mpr ?_)⟩
      rw [Complete, hlast]
      exact List.forall_mem_nil _
    · rw [if_neg hlast] at hrequests hout
      have hwaits : s'.Waits rid (R.erase m.uuid.text) := by
        rw [Waits, hrequests]
        exact AList.lookup_insert _
      obtain ⟨t, rest, hrun, hrest, hserved, hover⟩ := ih hwaits hlast hms
      refine ⟨t, _, Run.run_cons_eq_some.mpr ⟨s', hstep, hrun⟩, ?_,
        served_cons hm htold hserved, ?_⟩
      · rw [hrest, hout, List.append_nil, List.append_assoc]
      · rw [hover, complete_cons hm]

/-- Messages out of order end the node. -/
theorem inOrder_of_run (h : s.Waits rid R)
    (hrun : Run.run (handleRouterGetUuid · rid ·) s ms = some t) : InOrder R ms := by
  induction ms generalizing s R with
  | nil => trivial
  | cons m ms ih =>
    by_cases hm : m.uuid.text ∈ R
    · obtain ⟨s', told, hstep, -, hrequests, -⟩ := handle_awaited h hm
      obtain ⟨s'', hs'', hrest⟩ := Run.run_cons_eq_some.mp hrun
      obtain rfl : s' = s'' := Option.some.inj (hstep.symm.trans hs'')
      refine .inr ⟨hm, ?_⟩
      by_cases hlast : (R.erase m.uuid.text).keys = []
      · cases ms with
        | nil => trivial
        | cons m' ms => exact .inl hlast
      · rw [if_neg hlast] at hrequests
        refine ih ?_ hrest
        rw [Waits, hrequests]
        exact AList.lookup_insert _
    · obtain ⟨s', hs', -⟩ := Run.run_cons_eq_some.mp hrun
      rw [handle_unawaited h hm] at hs'
      cases hs'

/-- A session that is over stays as it is. -/
theorem ignores_over (h : s.requests.lookup rid = none) :
    Run.Along (handleRouterGetUuid · rid ·) (Ignores rid) s ms := by
  induction ms with
  | nil => trivial
  | cons m ms ih =>
    refine ⟨fun _ => handle_over h, fun t ht => ?_⟩
    obtain rfl : s = t := Option.some.inj ((handle_over h).symm.trans ht)
    exact ih

/-- Messages that are not awaited come when the session is over. -/
theorem ignores_waiting (h : s.Waits rid R) (hne : R.keys ≠ []) (hms : InOrder R ms) :
    Run.Along (handleRouterGetUuid · rid ·) (Ignores rid) s ms := by
  induction ms generalizing s R with
  | nil => trivial
  | cons m ms ih =>
    obtain ⟨hm, hms⟩ := hms.resolve_left hne
    refine ⟨fun hnot => absurd ((awaits_iff h).mpr hm) hnot, fun t ht => ?_⟩
    obtain ⟨s', told, hstep, -, hrequests, -⟩ := handle_awaited h hm
    obtain rfl : s' = t := Option.some.inj (hstep.symm.trans ht)
    by_cases hlast : (R.erase m.uuid.text).keys = []
    · rw [if_pos hlast] at hrequests
      refine ignores_over ?_
      rw [hrequests]
      exact AList.lookup_erase rid _
    · rw [if_neg hlast] at hrequests
      refine ih ?_ hlast hms
      rw [Waits, hrequests]
      exact AList.lookup_insert _

/-- The names are not known yet. -/
theorem lookup_journal (s : State) (rid : ID32) (journal : Text) :
    (s.handleRouterGetJournalInfo rid (some journal)).requests.lookup rid =
      some ⟨.getJournalInfo, 0, none⟩ := AList.lookup_insert _

/-- A message that comes before the names are known ends the node. -/
theorem handle_early (h : s.requests.lookup rid = some ⟨.getJournalInfo, 0, none⟩) :
    s.handleRouterGetUuid rid m = none := by
  simp only [handleRouterGetUuid, h, if_true, processRequestedUuidForSync]

/-- The session waits for the names that are requested. -/
theorem waits_handleBackupSendUuids (s : State) (rid : ID32) (journal : Text)
    (R : Table Text Char) :
    ((s.handleRouterGetJournalInfo rid (some journal)).handleBackupSendUuids rid R).Waits rid R ∧
      ((s.handleRouterGetJournalInfo rid (some journal)).handleBackupSendUuids rid R).out =
        s.out ++ [.backupJournal rid s.syncClass journal] ++
          if R.keys = [] then [.routerSyncFinished rid] else [.routerSendUuids rid R.keys] := by
  simp only [handleBackupSendUuids, lookup_journal, postRouterSendUuidsRequest]
  split_ifs
  · exact ⟨AList.lookup_insert _, rfl⟩
  · exact ⟨AList.lookup_insert _, rfl⟩

/-- A session without early messages. -/
theorem run_session (s : State) (rid : ID32) (journal : Text) (R : Table Text Char)
    (ms : List UuidMessage) : Run.run step s (session rid journal R [] ms) =
      Run.run (handleRouterGetUuid · rid ·)
        ((s.handleRouterGetJournalInfo rid (some journal)).handleBackupSendUuids rid R) ms :=
  Run.run_map (Event.routerGetUuid rid) ms

/-- Nothing comes before the names are known, or the node ends. -/
theorem early_of_run (hrun : Run.run step s (session rid journal R early ms) = some t) :
    early = [] := by
  cases early with
  | nil => rfl
  | cons m early =>
    obtain ⟨s₁, hs₁, hrest⟩ := Run.run_cons_eq_some.mp hrun
    obtain ⟨s₂, hs₂, -⟩ := Run.run_cons_eq_some.mp hrest
    obtain rfl := Option.some.inj hs₁
    cases (handle_early (lookup_journal s rid journal)).symm.trans hs₂

/-- A session without names is not removed. -/
theorem not_removed (h : s.Waits rid R) (hempty : R.keys = [])
    (hrun : Run.run (handleRouterGetUuid · rid ·) s ms = some t) :
    t.requests.lookup rid ≠ none := by
  cases ms with
  | nil =>
    obtain rfl := Option.some.inj hrun
    rw [Waits] at h
    rw [h]
    exact Option.some_ne_none _
  | cons m ms =>
    obtain ⟨s', hs', -⟩ := Run.run_cons_eq_some.mp hrun
    rw [handle_unawaited h (mem_of_keys_eq_nil hempty _)] at hs'
    cases hs'

/-- What was sent when the session began. -/
theorem served_begin {sent : List Output} (h : Served rid R ms sent) (sc : UInt32)
    (journal : Text) :
    Served rid R ms ([.backupJournal rid sc journal] ++ [.routerSendUuids rid R.keys] ++ sent) := by
  have haside : Aside rid [.backupJournal rid sc journal, .routerSendUuids rid R.keys] := by
    simp [Aside, Output.stored, Output.journaled]
  obtain ⟨hstored, hjournaled, hfinished⟩ := aside_filterMap haside
  constructor
  · rw [List.singleton_append, List.filterMap_append, hstored, List.nil_append, h.stored]
  · rw [List.singleton_append, List.filterMap_append, hjournaled, List.nil_append, h.journaled]
  · rw [List.singleton_append, List.count_append, hfinished, Nat.zero_add, h.finished]

/-- **The law holds exactly when no message comes before the names are known, something is
requested, and the messages come in order**: each of them, as long as names are missing, is one of
the missing names. -/
theorem sessionLaw_iff (s : State) (rid : ID32) (journal : Text) (R : Table Text Char)
    (early ms : List UuidMessage) :
    s.SessionLaw rid journal R early ms ↔ early = [] ∧ R.keys ≠ [] ∧ InOrder R ms := by
  obtain ⟨hwaits, hbegun⟩ := waits_handleBackupSendUuids s rid journal R
  constructor
  · rintro ⟨⟨t, hrun, hserved, hover⟩, -⟩
    obtain rfl := early_of_run hrun
    rw [run_session] at hrun
    refine ⟨rfl, fun hempty => not_removed hwaits hempty hrun (hover.mpr ?_),
      inOrder_of_run hwaits hrun⟩
    rw [Complete, hempty]
    exact List.forall_mem_nil _
  · rintro ⟨rfl, hne, hms⟩
    obtain ⟨t, sent, hrun, hout, hserved, hover⟩ := run_waiting hwaits hne hms
    refine ⟨⟨t, (run_session s rid journal R ms).trans hrun, ?_, hover⟩, ?_⟩
    · rw [hout, hbegun, if_neg hne, List.append_assoc, List.append_assoc, List.drop_left]
      exact served_begin hserved s.syncClass journal
    · refine Run.along_cons (fun _ he => by cases he) rfl (Run.along_cons (fun _ he => by cases he)
        rfl ((Run.along_map (Event.routerGetUuid rid) ms).mpr ?_))
      refine (ignores_waiting hwaits hne hms).mono fun s m hignores m' he => ?_
      obtain ⟨-, rfl⟩ := Event.routerGetUuid.inj he
      exact hignores

/-- A peer that sends a uuid nobody asked for ends the node. -/
theorem not_sessionLaw : ¬ ∀ (s : State) (rid : ID32) (journal : Text) (R : Table Text Char)
    (early ms : List UuidMessage), s.SessionLaw rid journal R early ms := by
  intro h
  obtain ⟨⟨t, hrun, -, -⟩, -⟩ := h ⟨∅, ∅, 9, false, 0, []⟩ 1 []
    ((∅ : Table Text Char).insert (UUID.text 5) 'u') [] [⟨6, .empty, 1, 800, 0⟩]
  have hnone : Run.run step ⟨∅, ∅, 9, false, 0, []⟩ (session 1 []
      ((∅ : Table Text Char).insert (UUID.text 5) 'u') [] [⟨6, .empty, 1, 800, 0⟩]) = none := by
    decide
  rw [hnone] at hrun
  cases hrun

end State

end Sync

end Metax
