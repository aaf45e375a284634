import Metax.Sync.Cluster

/-!
# What a finished session achieves

When a session is finished, the node that pulled should hold every uuid that the journal of its
source held at the start, in that version or a later one, or its tombstone (`Session.Covered`).

The journal tells of entries that are newer than the time the source was last seen, and this is the
time of the change: what a source learned late from a third node is as old as it was there. A
session achieves what it should along every run in which the journal tells of all that the node
lacks, the node knows or fetches every uuid, the source does not answer with an older version than
it told of, and nothing covered is replaced by an older version while the session is open
(`completes_run`).
-/

namespace Metax

namespace Sync

open Ledger (Table All)

variable {N : Type} {L : Backup.Libs}

/-- The entry has a version to hold, and the json holds it. -/
def CoversEntry (b : Backup.State) (u : UUID) (e : Backup.Entry) : Prop :=
  ∀ version ∈ e.version, b.Holds u version

instance (b : Backup.State) (u : UUID) (version : UInt32) : Decidable (b.Holds u version) :=
  inferInstanceAs (Decidable (∃ e ∈ b.storageData.lookup u,
    e.isDeleted = some true ∨ ∃ v ∈ e.version, version ≤ v))

instance (b : Backup.State) (u : UUID) : Decidable (b.Knows u) :=
  inferInstanceAs (Decidable (_ = true))

instance (b : Backup.State) (u : UUID) (e : Backup.Entry) : Decidable (CoversEntry b u e) :=
  inferInstanceAs (Decidable (∀ version ∈ e.version, b.Holds u version))

/-- What a finished session should achieve. -/
def Session.Covered (x : Session N) (r : Replica N) : Prop :=
  All (CoversEntry r.backup) x.held

instance (x : Session N) (r : Replica N) : Decidable (x.Covered r) :=
  inferInstanceAs (Decidable (All (CoversEntry r.backup) x.held))

/-- The entry is newer than a time, and has what a line of a journal needs. -/
def NewerThan (lastSeen : Int64) (e : Backup.Entry) : Prop :=
  (∃ lastUpdated ∈ e.lastUpdated, lastSeen < lastUpdated.toInt64) ∧ e.version.isSome ∧
    e.isDeleted.isSome

instance (lastSeen : Int64) (e : Backup.Entry) : Decidable (NewerThan lastSeen e) :=
  inferInstanceAs (Decidable ((∃ lastUpdated ∈ e.lastUpdated, lastSeen < lastUpdated.toInt64) ∧
    e.version.isSome ∧ e.isDeleted.isSome))

namespace Cluster

variable [DecidableEq N] (L) (c : Cluster N)

/-- **The law**: when a session ends that is finished, all is covered. -/
def Completes : ClusterEvent N → Prop
  | .finish key => ∀ x ∈ c.sessions.lookup key, x.phase = .finished → x.Covered (c.nodes key.1)
  | _ => True

/-- What is covered in an open session of a node is not replaced by an older version. -/
def KeepsCover (n : N) (uuid : UUID) (version : UInt32) (isDeleted : Bool) : Prop :=
  All (fun key x => key.1 = n → ∀ e ∈ x.held.lookup uuid, ∀ v ∈ e.version,
    (c.nodes n).backup.Holds uuid v → isDeleted = true ∨ v ≤ version) c.sessions

/-- When a session starts, every entry is covered, or the journal that is asked for tells of it. -/
def TellsAll (n source : N) (message : Option Text) (now : Int64) : Prop :=
  All (fun u e => CoversEntry (c.nodes n).backup u e ∨
    NewerThan (getPeerLastSeen ((c.nodes n).peersRating.lookup source) now).toInt64 e ∧
      ∀ m ∈ message, u.text ∈ Backup.State.askedNames L m) (c.nodes source).backup.storageData

/-- When the journal is compared, every uuid is known, or it is a saved one and fetched. -/
def FetchesAll (key : N × ID32) : Prop :=
  ∀ x ∈ c.sessions.lookup key, All (fun u e => (c.nodes key.1).backup.Knows u ∨
    (c.nodes key.1).kernel.syncClass = 1 ∧ e.isDeleted = some false) x.held

/-- The source still has what it told of, in that version or a later one. -/
def AnswersWell (key : N × ID32) (name : Text) : Prop :=
  ∀ x ∈ c.sessions.lookup key, All (fun u e => L.parseUuid name = some u → ∀ v ∈ e.version,
    ∀ e' ∈ (c.nodes x.source).backup.storageData.lookup u, ∀ v' ∈ e'.version, v ≤ v') x.held

/-- The condition on an event. -/
def Orderly : ClusterEvent N → Prop
  | .save n uuid version isDeleted _ _ => c.KeepsCover n uuid version isDeleted
  | .start n source _ message now => c.TellsAll L n source message now
  | .compare key _ => c.FetchesAll key
  | .answer key name _ => c.AnswersWell L key name
  | .receive key m => c.KeepsCover key.1 m.uuid m.dataVersion false
  | _ => True

instance (n : N) (uuid : UUID) (version : UInt32) (isDeleted : Bool) :
    Decidable (c.KeepsCover n uuid version isDeleted) :=
  inferInstanceAs (Decidable (All (fun key x => key.1 = n → ∀ e ∈ x.held.lookup uuid,
    ∀ v ∈ e.version, (c.nodes n).backup.Holds uuid v → isDeleted = true ∨ v ≤ version) c.sessions))

instance (n source : N) (message : Option Text) (now : Int64) :
    Decidable (c.TellsAll L n source message now) :=
  inferInstanceAs (Decidable (All (fun u e => CoversEntry (c.nodes n).backup u e ∨
    NewerThan (getPeerLastSeen ((c.nodes n).peersRating.lookup source) now).toInt64 e ∧
      ∀ m ∈ message, u.text ∈ Backup.State.askedNames L m) (c.nodes source).backup.storageData))

instance (key : N × ID32) : Decidable (c.FetchesAll key) :=
  inferInstanceAs (Decidable (∀ x ∈ c.sessions.lookup key, All (fun u e =>
    (c.nodes key.1).backup.Knows u ∨
      (c.nodes key.1).kernel.syncClass = 1 ∧ e.isDeleted = some false) x.held))

instance (key : N × ID32) (name : Text) : Decidable (c.AnswersWell L key name) :=
  inferInstanceAs (Decidable (∀ x ∈ c.sessions.lookup key, All (fun u e =>
    L.parseUuid name = some u → ∀ v ∈ e.version,
      ∀ e' ∈ (c.nodes x.source).backup.storageData.lookup u, ∀ v' ∈ e'.version, v ≤ v') x.held))

instance : ∀ e : ClusterEvent N, Decidable (c.Orderly L e)
  | .save n uuid version isDeleted _ _ =>
    inferInstanceAs (Decidable (c.KeepsCover n uuid version isDeleted))
  | .start n source _ message now => inferInstanceAs (Decidable (c.TellsAll L n source message now))
  | .compare key _ => inferInstanceAs (Decidable (c.FetchesAll key))
  | .answer key name _ => inferInstanceAs (Decidable (c.AnswersWell L key name))
  | .receive key m => inferInstanceAs (Decidable (c.KeepsCover key.1 m.uuid m.dataVersion false))
  | .del _ _ _ _ _ | .connect _ _ _ | .received _ _ _ | .disconnect _ _ | .finish _ | .fail _ =>
    .isTrue trivial

end Cluster

/-! ### What the json holds -/

section Holds

variable {b : Backup.State} {u uuid : UUID} {version v : UInt32} {isDeleted : Bool}
  {lastUpdated expireDate : UInt64}

/-- A saved uuid is held, unless the version is older. -/
theorem holds_add (h : b.Holds u v) (hnew : u = uuid → isDeleted = true ∨ v ≤ version) :
    (b.handleAddInDeviceJson uuid version isDeleted lastUpdated expireDate).Holds u v := by
  by_cases hu : u = uuid
  · subst hu
    refine ⟨_, AList.lookup_insert _, ?_⟩
    rcases hnew rfl with rfl | hle
    · exact .inl rfl
    · exact .inr ⟨version, rfl, hle⟩
  · obtain ⟨e, he, hholds⟩ := h
    exact ⟨e, (AList.lookup_insert_ne hu).trans he, hholds⟩

/-- A version that arrives is held. -/
theorem holds_of_add (h : v ≤ version) :
    (b.handleAddInDeviceJson uuid version isDeleted lastUpdated expireDate).Holds uuid v :=
  ⟨_, AList.lookup_insert _, .inr ⟨version, rfl, h⟩⟩

theorem holds_congr {b' : Backup.State} (h : b'.storageData = b.storageData) :
    b'.Holds u v ↔ b.Holds u v := by
  rw [Backup.State.Holds, Backup.State.Holds, h]

end Holds

/-! ### The kernel of a node -/

namespace Replica

variable {r r' : Replica N} {rid : ID32} {text : Text} {names R : Table Text Char}
  {m : UuidMessage} {out : List Output}

theorem kernelStep_eq_some {e : Event} (h : r.kernelStep e = some (r', out)) :
    ∃ k, State.step { r.kernel with out := [] } e = some k ∧ out = k.out ∧
      r' = { r with kernel := k, backup := enter r.backup k.out } := by
  simp only [kernelStep, Option.map_eq_some_iff, Prod.mk.injEq] at h
  obtain ⟨k, hk, hr, hout⟩ := h
  exact ⟨k, hk, hout.symm, hr.symm⟩

/-- A journal opens a request. -/
theorem kernelStep_journal :
    r.kernelStep (.routerJournalInfo rid (some text)) = some ({ r with kernel :=
      { r.kernel with
        requests := r.kernel.requests.insert rid ⟨.getJournalInfo, 0, none⟩
        out := [.backupJournal rid r.kernel.syncClass text] } },
          [.backupJournal rid r.kernel.syncClass text]) := rfl

/-- The names that are missing are written into the request. -/
theorem kernelStep_sendUuids
    (h : r.kernel.requests.lookup rid = some ⟨.getJournalInfo, 0, none⟩) :
    ∃ k out, r.kernelStep (.backupSendUuids rid names) = some ({ r with kernel := k }, out) ∧
      (.routerSyncFinished rid ∈ out ↔ names.keys = []) ∧
        k.requests = r.kernel.requests.insert rid ⟨.getJournalInfo, 0, some names⟩ := by
  simp only [kernelStep, State.step, State.handleBackupSendUuids, h, Option.map_some,
    State.postRouterSendUuidsRequest]
  split_ifs with hlast
  · exact ⟨_, _, rfl, iff_of_true List.mem_cons_self hlast, rfl⟩
  · refine ⟨_, _, rfl, iff_of_false (fun hmem => ?_) hlast, rfl⟩
    exact absurd (List.mem_singleton.mp hmem) (by simp)

/-- An awaited message is entered, and the last one ends the session. -/
theorem kernelStep_getUuid (h : r.kernel.Waits rid R)
    (hstep : r.kernelStep (.routerGetUuid rid m) = some (r', out)) :
    m.uuid.text ∈ R ∧
      r'.backup = r.backup.handleAddInDeviceJson m.uuid m.dataVersion false m.lastUpdated
        m.expireDate ∧
      (.routerSyncFinished rid ∈ out ↔ (R.erase m.uuid.text).keys = []) ∧
      r'.kernel.requests = if (R.erase m.uuid.text).keys = [] then r.kernel.requests.erase rid
        else r.kernel.requests.insert rid ⟨.getJournalInfo, 0, some (R.erase m.uuid.text)⟩ := by
  obtain ⟨k, hk, rfl, rfl⟩ := kernelStep_eq_some hstep
  have hwaits : State.Waits { r.kernel with out := [] } rid R := h
  have hk' : State.handleRouterGetUuid { r.kernel with out := [] } rid m = some k := hk
  by_cases hm : m.uuid.text ∈ R
  · obtain ⟨k', told, hk₁, haside, hrequests, hout⟩ := State.handle_awaited hwaits hm
    obtain rfl : k' = k := Option.some.inj (hk₁.symm.trans hk')
    obtain ⟨-, hjournaled, hfinished⟩ := State.aside_filterMap haside
    refine ⟨hm, ?_, ?_, hrequests⟩
    · have hentered : k'.out.filterMap Output.journaled =
          [(m.uuid, m.dataVersion, m.lastUpdated, m.expireDate)] := by
        rw [hout]
        split_ifs <;> simp [List.filterMap_cons, hjournaled, Output.journaled]
      simp only [enter, hentered, List.foldl_cons, List.foldl_nil]
    · have htold : .routerSyncFinished rid ∉ told := fun hmem => (haside _ hmem).2.2 rfl
      simp only [hout, List.mem_append, List.mem_singleton, List.not_mem_nil, reduceCtorEq, htold,
        or_false, false_or]
      split_ifs with hlast
      · exact iff_of_true List.mem_cons_self hlast
      · exact iff_of_false List.not_mem_nil hlast
  · rw [State.handle_unawaited hwaits hm] at hk'
    cases hk'

theorem updateLastReceivedTime_frame [DecidableEq N] (r : Replica N) (peer : N) (now : Int64) :
    (r.updateLastReceivedTime peer now).backup = r.backup ∧
      (r.updateLastReceivedTime peer now).kernel = r.kernel := by
  rw [updateLastReceivedTime]
  split <;> exact ⟨rfl, rfl⟩

theorem updatePeerLastSeen_frame [DecidableEq N] (r : Replica N) (peer : N) :
    (r.updatePeerLastSeen peer).backup = r.backup ∧
      (r.updatePeerLastSeen peer).kernel = r.kernel := by
  rw [updatePeerLastSeen]
  split
  · exact ⟨rfl, rfl⟩
  · split_ifs <;> exact ⟨rfl, rfl⟩

/-- A compared journal loses nothing, and is made up for. -/
theorem compareJournal_eq_some {now : Int64}
    (h : r.compareJournal L rid text now = some (r', names)) : r'.kernel = r.kernel ∧
      (∀ u v, r.backup.Holds u v → r'.backup.Holds u v) ∧
        ∀ l ∈ Backup.journalLines text, ∀ u version isDeleted, l.TellsOf L u version isDeleted →
          r.backup.Knows u ∨ r.kernel.syncClass = 1 ∧ isDeleted = false →
            r'.backup.Holds u version ∨ u.text ∈ names := by
  simp only [compareJournal, Option.bind_eq_bind, Option.bind_eq_some_iff] at h
  obtain ⟨b, hb, h⟩ := h
  obtain ⟨names', hlast, hholds, hlines⟩ := Backup.State.getJournalInfo_holds hb
  rw [hlast] at h
  obtain ⟨rfl, rfl⟩ := Prod.mk.inj (Option.some.inj h)
  exact ⟨rfl, hholds, hlines⟩

end Replica

/-! ### Sessions -/

/-- How an entry that is not covered is on its way. -/
def Phase.Pending (L : Backup.Libs) (kernel : State) (rid : ID32) (u : UUID) (e : Backup.Entry) :
    Phase → Prop
  | .journal text => ∃ l ∈ Backup.journalLines text, ∃ version isDeleted,
      e.version = some version ∧ e.isDeleted = some isDeleted ∧ l.TellsOf L u version isDeleted
  | .transfer _ _ => ∃ R, kernel.Waits rid R ∧ u.text ∈ R
  | .finished => False

/-- The messages on their way. -/
def Phase.messages : Phase → List UuidMessage
  | .transfer _ inFlight => inFlight
  | _ => []

/-- The names are being answered. -/
def Phase.Transfers : Phase → Prop
  | .transfer _ _ => True
  | _ => False

/-- Everything the source held is covered or on its way, and what is on its way is not older than
the source told. -/
structure Session.Sound (L : Backup.Libs) (r : Replica N) (rid : ID32) (x : Session N) : Prop where
  covered : ∀ u e, x.held.lookup u = some e →
    CoversEntry r.backup u e ∨ x.phase.Pending L r.kernel rid u e
  inFlight : ∀ m ∈ x.phase.messages, ∀ e ∈ x.held.lookup m.uuid, ∀ v ∈ e.version,
    v ≤ m.dataVersion
  waits : x.phase.Transfers → ∃ R, r.kernel.Waits rid R

namespace Session

variable {r r' : Replica N} {rid : ID32} {x : Session N}

/-- A session is not concerned by changes that leave its request alone and keep what is covered. -/
theorem Sound.mono (h : x.Sound L r rid)
    (hholds : ∀ u, ∀ e ∈ x.held.lookup u, ∀ v ∈ e.version, r.backup.Holds u v →
      r'.backup.Holds u v)
    (hwaits : ∀ R, r.kernel.Waits rid R → r'.kernel.Waits rid R) : x.Sound L r' rid := by
  constructor
  · intro u e he
    refine (h.covered u e he).imp (fun hc v hv => hholds u e he v hv (hc v hv)) fun hp => ?_
    revert hp
    cases x.phase with
    | journal text => exact id
    | transfer asked inFlight => exact fun ⟨R, hR, hu⟩ => ⟨R, hwaits R hR, hu⟩
    | finished => exact id
  · exact h.inFlight
  · intro ht
    obtain ⟨R, hR⟩ := h.waits ht
    exact ⟨R, hwaits R hR⟩

/-- The link plays no role. -/
theorem Sound.setSyncFinished [DecidableEq N] {peer : N} {isSyncFinished : Bool}
    (h : x.Sound L r rid) : x.Sound L (r.setSyncFinished peer isSyncFinished) rid := by
  rw [Replica.setSyncFinished]
  split
  · exact h
  · exact h.mono (fun _ _ _ _ _ hh => hh) fun _ hR => hR

/-- A finished session has achieved what it should. -/
theorem Sound.finished (h : x.Sound L r rid) (hx : x.phase = .finished) : x.Covered r := by
  refine Ledger.all_iff.mpr fun u e he => (h.covered u e he).resolve_right fun hp => ?_
  rw [hx] at hp
  exact hp

/-- A session of which all is covered is sound when it is finished. -/
theorem Sound.of_covered (h : ∀ u e, x.held.lookup u = some e → CoversEntry r.backup u e)
    (hx : x.phase = .finished) : x.Sound L r rid := by
  refine ⟨fun u e he => .inl (h u e he), ?_, ?_⟩
  · rw [hx]
    exact List.forall_mem_nil _
  · rw [hx]
    exact False.elim

end Session

namespace Cluster

variable [DecidableEq N] {c c' : Cluster N} {n : N} {r : Replica N} {key : N × ID32} {x : Session N}

/-- Every open session is sound. -/
def Sound (L : Backup.Libs) (c : Cluster N) : Prop :=
  ∀ n rid x, c.sessions.lookup (n, rid) = some x → x.Sound L (c.nodes n) rid

theorem sound_init (nodes : N → Replica N) : (init nodes).Sound L := by
  intro n rid x hx
  rw [init, AList.lookup_empty] at hx
  cases hx

theorem Sound.setNode (h : c.Sound L)
    (hr : ∀ rid x, c.sessions.lookup (n, rid) = some x → x.Sound L (c.nodes n) rid →
      x.Sound L r rid) : (c.setNode n r).Sound L := by
  intro n' rid x hx
  by_cases hn : n' = n
  · subst hn
    simp only [Cluster.setNode, Function.update_self]
    exact hr rid x hx (h n' rid x hx)
  · simp only [Cluster.setNode, Function.update_of_ne hn]
    exact h n' rid x hx

theorem Sound.setSession (h : c.Sound L) (hx : x.Sound L (c.nodes key.1) key.2) :
    (c.setSession key x).Sound L := by
  intro n rid y hy
  obtain ⟨hkey, rfl⟩ | ⟨hkey, hy⟩ := Ledger.eq_or_of_lookup_insert hy
  · rw [← hkey] at hx
    exact hx
  · exact h n rid y hy

/-- A session and its node go on together. -/
theorem Sound.advance (h : c.Sound L) (hx : x.Sound L r key.2)
    (hr : ∀ rid y, rid ≠ key.2 → c.sessions.lookup (key.1, rid) = some y →
      y.Sound L (c.nodes key.1) rid → y.Sound L r rid) :
    ((c.setNode key.1 r).setSession key x).Sound L := by
  intro n rid y hy
  obtain ⟨rfl, rfl⟩ | ⟨hkey, hy⟩ := Ledger.eq_or_of_lookup_insert hy
  · simp only [Cluster.setSession, Cluster.setNode, Function.update_self]
    exact hx
  by_cases hn : n = key.1
  · subst hn
    simp only [Cluster.setSession, Cluster.setNode, Function.update_self]
    have hrid : rid ≠ key.2 := by
      rintro rfl
      exact hkey rfl
    exact hr rid y hrid hy (h key.1 rid y hy)
  · simp only [Cluster.setSession, Cluster.setNode, Function.update_of_ne hn]
    exact h n rid y hy

theorem Sound.erase (h : c.Sound L) :
    Sound L { c with sessions := c.sessions.erase key } := by
  intro n rid y hy
  obtain ⟨hkey, hy⟩ := Ledger.of_lookup_erase hy
  exact h n rid y hy

/-- A change that the json and the kernel do not see. -/
theorem Sound.setNode_link (h : c.Sound L) (hbackup : r.backup = (c.nodes n).backup)
    (hkernel : r.kernel = (c.nodes n).kernel) : (c.setNode n r).Sound L := by
  refine h.setNode fun rid x _ hx => hx.mono (fun u e _ v _ hh => ?_) fun R hR => ?_
  · rwa [hbackup]
  · rwa [hkernel]

end Cluster

/-! ### Steps -/

section Steps

theorem State.Waits.unique {k : State} {rid : ID32} {R R' : Table Text Char} (h : k.Waits rid R)
    (h' : k.Waits rid R') : R = R' := by
  have hrequest := Option.some.inj (h.symm.trans h')
  rw [Request.mk.injEq] at hrequest
  exact Option.some.inj hrequest.2.2

theorem State.Waits.insert_ne {k : State} {rid rid' : ID32} {R : Table Text Char} {q : Request}
    {requests : Table ID32 Request} (h : k.Waits rid R) (hne : rid ≠ rid')
    (hrequests : requests = k.requests.insert rid' q) : requests.lookup rid =
      some ⟨.getJournalInfo, 0, some R⟩ := by
  rw [hrequests, AList.lookup_insert_ne hne]
  exact h

theorem State.Waits.erase_ne {k : State} {rid rid' : ID32} {R : Table Text Char}
    {requests : Table ID32 Request} (h : k.Waits rid R) (hne : rid ≠ rid')
    (hrequests : requests = k.requests.erase rid') : requests.lookup rid =
      some ⟨.getJournalInfo, 0, some R⟩ := by
  rw [hrequests, AList.lookup_erase_ne hne]
  exact h

/-- The line for a newer entry. -/
theorem NewerThan.exists_line {lastSeen : Int64} {e : Backup.Entry} (h : NewerThan lastSeen e)
    (name : Text) : ∃ l, e.line lastSeen name = some l := by
  obtain ⟨⟨lastUpdated, hlast, hlt⟩, hversion, hdeleted⟩ := h
  obtain ⟨version, hversion⟩ := Option.isSome_iff_exists.mp hversion
  obtain ⟨isDeleted, hdeleted⟩ := Option.isSome_iff_exists.mp hdeleted
  rw [Option.mem_def] at hlast
  refine Option.isSome_iff_exists.mp ?_
  simp only [Backup.Entry.line, hlast, hversion, hdeleted, if_pos hlt, Option.isSome_some]

/-- The journal a source sends tells of every newer entry that is asked for. -/
theorem exists_journal (L : Backup.Libs) (s : Backup.State) (rid : ID32) (lastSeen : Int64)
    (message : Option Text) : ∃ text,
      s.handleKernelSendJournalInfo L rid lastSeen message = s.send (.getJournalInfo rid text) ∧
        ∀ u e, s.storageData.lookup u = some e → NewerThan lastSeen e →
          (∀ m ∈ message, u.text ∈ Backup.State.askedNames L m) →
            ∃ l ∈ Backup.journalLines text, ∃ version isDeleted, e.version = some version ∧
              e.isDeleted = some isDeleted ∧ l.TellsOf L u version isDeleted := by
  cases message with
  | none =>
    refine ⟨_, rfl, fun u e hu hnew _ => ?_⟩
    obtain ⟨l, hl⟩ := hnew.exists_line u.text
    exact ⟨l, Backup.mem_journalLines hu hl, Backup.Entry.tellsOf_line hl⟩
  | some m =>
    refine ⟨_, rfl, fun u e hu hnew hname => ?_⟩
    obtain ⟨l, hl⟩ := hnew.exists_line u.text
    exact ⟨l, Backup.mem_journalLines_uuids hu hl (hname m rfl), Backup.Entry.tellsOf_line hl⟩

/-- What a source answers has the version of its json. -/
theorem exists_served (s : Backup.State) (rid : ID32) (u : UUID) (data : Package) : ∃ sent,
    s.handleStorageGetUuid rid u data = { s with out := s.out ++ sent } ∧
      ∀ m ∈ sent.filterMap uuidMessage, m.uuid = u ∧
        ∃ e ∈ s.storageData.lookup u, e.version = some m.dataVersion := by
  have hnone : ∃ sent, s = { s with out := s.out ++ sent } ∧
      ∀ m ∈ sent.filterMap uuidMessage, m.uuid = u ∧
        ∃ e ∈ s.storageData.lookup u, e.version = some m.dataVersion :=
    ⟨[], by rw [List.append_nil], List.forall_mem_nil _⟩
  rw [Backup.State.handleStorageGetUuid]
  split
  · exact hnone
  · rename_i e he
    have hone {version : UInt32} {lastUpdated expireDate : UInt64}
        (hversion : e.version = some version) : ∀ m ∈
          [Backup.Message.getUuid rid u data version lastUpdated expireDate].filterMap uuidMessage,
          m.uuid = u ∧ ∃ e ∈ s.storageData.lookup u, e.version = some m.dataVersion := by
      intro m hm
      obtain rfl := List.mem_singleton.mp hm
      exact ⟨rfl, e, he, hversion⟩
    split
    · rename_i hversion _ _
      exact ⟨_, rfl, hone hversion⟩
    · rename_i hversion _ _
      split
      · exact ⟨_, rfl, hone hversion⟩
      · exact hnone
    · exact hnone

end Steps

namespace Cluster

variable [DecidableEq N] {c c' : Cluster N} {n source : N} {key : N × ID32}

theorem Sound.save {uuid : UUID} {version : UInt32} {isDeleted : Bool}
    {lastUpdated expireDate : UInt64} (h : c.Sound L)
    (hok : c.KeepsCover n uuid version isDeleted) :
    (c.setNode n { c.nodes n with
      backup := (c.nodes n).backup.handleAddInDeviceJson uuid version isDeleted lastUpdated
        expireDate }).Sound L := by
  refine h.setNode fun rid x hlookup hx => hx.mono (fun u e he v hv hh => ?_) fun R hR => hR
  refine holds_add hh fun hu => ?_
  subst hu
  exact Ledger.all_iff.mp hok (n, rid) x hlookup rfl e he v hv hh

theorem Sound.del {uuid : UUID} {version : UInt32} {lastUpdated : UInt64} {now : Int64}
    (h : c.Sound L) :
    (c.setNode n { c.nodes n with
      backup := (c.nodes n).backup.handleKernelDeleteFromDeviceJson uuid version lastUpdated
        now }).Sound L := by
  refine h.setNode fun rid x _ hx => hx.mono (fun u e _ v _ hh => ?_) fun R hR => hR
  exact Backup.State.holds_delete hh

theorem Sound.start {rid : ID32} {message : Option Text} {now : Int64} (h : c.Sound L)
    (hok : c.TellsAll L n source message now)
    (hstep : c.start L n source rid message now = some c') : c'.Sound L := by
  obtain ⟨text, hsend, htells⟩ := exists_journal L (c.nodes source).backup rid
    (getPeerLastSeen ((c.nodes n).peersRating.lookup source) now).toInt64 message
  simp only [Cluster.start, hsend, Backup.State.send_out, List.getLast?_concat] at hstep
  split_ifs at hstep
  obtain rfl := Option.some.inj hstep
  -- what the source sends changes no json
  have hsource : ((c.setNode source { c.nodes source with
      backup := (c.nodes source).backup.send (.getJournalInfo rid text) }).Sound L) :=
    h.setNode fun _ _ _ hx => hx.mono (fun u e _ v _ hh => hh) fun R hR => hR
  have hsame (n' : N) : ((c.setNode source { c.nodes source with
      backup := (c.nodes source).backup.send (.getJournalInfo rid text) }).nodes
        n').backup.storageData = (c.nodes n').backup.storageData := by
    by_cases hn : n' = source
    · subst hn
      simp only [Cluster.setNode, Function.update_self, Backup.State.send_storageData]
    · simp only [Cluster.setNode, Function.update_of_ne hn]
  refine hsource.setSession ⟨fun u e he => ?_, List.forall_mem_nil _, False.elim⟩
  rcases Ledger.all_iff.mp hok u e he with hcovers | ⟨hnew, hname⟩
  · exact .inl fun v hv => (holds_congr (hsame n)).mpr (hcovers v hv)
  · exact .inr (htells u e he hnew hname)

theorem Sound.compare {now : Int64} (h : c.Sound L) (hok : c.FetchesAll key)
    (hstep : c.compare L key now = some c') : c'.Sound L := by
  simp only [Cluster.compare, Option.bind_eq_bind, Option.bind_eq_some_iff] at hstep
  obtain ⟨x, hx, hstep⟩ := hstep
  have hsound := h key.1 key.2 x hx
  split at hstep
  · rename_i text hphase
    -- each entry of the peer is covered, or a line of its journal tells of it
    have hpending (u : UUID) (e : Backup.Entry) (he : x.held.lookup u = some e) :
        CoversEntry (c.nodes key.1).backup u e ∨ ∃ l ∈ Backup.journalLines text,
          ∃ version isDeleted, e.version = some version ∧ e.isDeleted = some isDeleted ∧
            l.TellsOf L u version isDeleted := by
      have hcovered := hsound.covered u e he
      rwa [hphase] at hcovered
    split_ifs at hstep with htext
    · -- without lines all is covered
      simp only [Option.bind_eq_some_iff, Prod.exists] at hstep
      obtain ⟨r, out, hr, hstep⟩ := hstep
      obtain ⟨k, hk, rfl, rfl⟩ := Replica.kernelStep_eq_some hr
      obtain rfl := Option.some.inj hk
      obtain rfl := Option.some.inj hstep
      subst htext
      have hcovered (u : UUID) (e : Backup.Entry) (he : x.held.lookup u = some e) :
          CoversEntry (c.nodes key.1).backup u e := by
        refine (hpending u e he).resolve_right ?_
        rintro ⟨l, hl, -⟩
        cases hl
      refine h.advance (.of_covered hcovered rfl) fun rid y _ _ hy => ?_
      exact hy.mono (fun u e _ v _ hh => hh) fun R hR => hR
    · -- the journal opens the request that the answer of the backup task is for
      rw [Replica.kernelStep_journal] at hstep
      simp only [Option.bind_some, Option.bind_eq_some_iff, Prod.exists] at hstep
      obtain ⟨r, names, hcompare, r', out, hsend, hstep⟩ := hstep
      obtain ⟨hkernel, hholds, hlines⟩ := Replica.compareJournal_eq_some hcompare
      have hopen : r.kernel.requests.lookup key.2 = some ⟨.getJournalInfo, 0, none⟩ := by
        rw [hkernel]
        exact AList.lookup_insert _
      obtain ⟨k, out', hk, hlast, hrequests⟩ := Replica.kernelStep_sendUuids hopen
      obtain ⟨rfl, rfl⟩ := Prod.mk.inj (Option.some.inj (hk.symm.trans hsend))
      -- what a line tells of is held already, or it is asked for
      have hgets (u : UUID) (e : Backup.Entry) (he : x.held.lookup u = some e) :
          CoversEntry r.backup u e ∨ u.text ∈ names := by
        rcases hpending u e he with
          hcovers | ⟨l, hl, version, isDeleted, hversion, hdeleted, htells⟩
        · exact .inl fun v hv => hholds u v (hcovers v hv)
        · have hknown := Ledger.all_iff.mp (hok x hx) u e he
          have hknown' := hknown.imp_right fun ⟨hclass, hsaved⟩ =>
            (⟨hclass, Option.some.inj (hdeleted.symm.trans hsaved)⟩ : _ ∧ isDeleted = false)
          refine (hlines l hl u version isDeleted htells hknown').imp_left fun hh v hv => ?_
          obtain rfl : version = v := Option.some.inj (hversion.symm.trans hv)
          exact hh
      -- the other sessions lose nothing: the backup has more than before
      have hothers (rid : ID32) (y : Session N) (hrid : rid ≠ key.2)
          (hy : y.Sound L (c.nodes key.1) rid) : y.Sound L { r with kernel := k } rid := by
        refine hy.mono (fun u e _ v _ hh => hholds u v hh) fun R hR => ?_
        have hR' : State.Waits r.kernel rid R := by
          rw [hkernel]
          exact hR.insert_ne hrid rfl
        exact hR'.insert_ne hrid hrequests
      -- nothing to ask for: all is covered; otherwise the answers are waited for
      split_ifs at hstep with hfinished
      · obtain rfl := Option.some.inj hstep
        have hcovered (u : UUID) (e : Backup.Entry) (he : x.held.lookup u = some e) :
            CoversEntry r.backup u e :=
          (hgets u e he).resolve_right (mem_of_keys_eq_nil (hlast.mp hfinished) _)
        exact h.advance (.of_covered hcovered rfl) fun rid y hrid _ hy => hothers rid y hrid hy
      · obtain rfl := Option.some.inj hstep
        have hwaits : State.Waits k key.2 names := by
          rw [State.Waits, hrequests]
          exact AList.lookup_insert _
        refine h.advance ?_ fun rid y hrid _ hy => (hothers rid y hrid hy).setSyncFinished
        refine Session.Sound.setSyncFinished ⟨fun u e he => ?_, List.forall_mem_nil _,
          fun _ => ⟨names, hwaits⟩⟩
        exact (hgets u e he).imp_right fun hu => ⟨names, hwaits, hu⟩
  · cases hstep

theorem Sound.answer {name : Text} {data : Package} (h : c.Sound L)
    (hok : c.AnswersWell L key name) (hstep : c.answer L key name data = some c') :
    c'.Sound L := by
  simp only [Cluster.answer, Option.bind_eq_bind, Option.bind_eq_some_iff] at hstep
  obtain ⟨x, hx, hstep⟩ := hstep
  have hsound := h key.1 key.2 x hx
  split at hstep
  · rename_i asked inFlight hphase
    split_ifs at hstep
    simp only [Option.bind_eq_some_iff] at hstep
    obtain ⟨u, hu, hstep⟩ := hstep
    obtain rfl := Option.some.inj hstep
    obtain ⟨sent, hsent, hserved⟩ := exists_served (c.nodes x.source).backup key.2 u data
    rw [hsent, List.drop_left]
    have hsource : (c.setNode x.source { c.nodes x.source with
        backup := { (c.nodes x.source).backup with
          out := (c.nodes x.source).backup.out ++ sent } }).Sound L :=
      h.setNode fun _ _ _ hy => hy.mono (fun _ _ _ _ _ hh => hh) fun _ hR => hR
    have hx' := hsource key.1 key.2 x hx
    refine hsource.setSession ⟨fun v e he => ?_, fun m hm e he v hv => ?_, fun _ => ?_⟩
    · have hcovered := hx'.covered v e he
      rwa [hphase] at hcovered
    · rcases List.mem_append.mp hm with hm | hm
      · have hinFlight := hx'.inFlight m
        rw [hphase] at hinFlight
        exact hinFlight hm e he v hv
      · obtain ⟨rfl, e', he', hversion⟩ := hserved m hm
        exact Ledger.all_iff.mp (hok x hx) m.uuid e he hu v hv e' he' m.dataVersion hversion
    · exact hx'.waits (by rw [hphase]; trivial)
  · cases hstep

theorem Sound.receive {m : UuidMessage} (h : c.Sound L)
    (hok : c.KeepsCover key.1 m.uuid m.dataVersion false)
    (hstep : c.receive key m = some c') : c'.Sound L := by
  simp only [Cluster.receive, Option.bind_eq_bind, Option.bind_eq_some_iff] at hstep
  obtain ⟨x, hx, hstep⟩ := hstep
  have hsound := h key.1 key.2 x hx
  split at hstep
  · rename_i asked inFlight hphase
    split_ifs at hstep with hm
    simp only [Option.bind_eq_some_iff, Prod.exists] at hstep
    obtain ⟨r, out, hr, hstep⟩ := hstep
    obtain rfl := Option.some.inj hstep
    obtain ⟨R, hR⟩ := hsound.waits (by rw [hphase]; trivial)
    obtain ⟨hmem, hbackup, hlast, hrequests⟩ := Replica.kernelStep_getUuid hR hr
    -- what is held stays held: the new version of the object covers what the sessions have of it
    have hholds (rid : ID32) (y : Session N) (hy : c.sessions.lookup (key.1, rid) = some y)
        (u : UUID) (e : Backup.Entry) (he : e ∈ y.held.lookup u) (v : UInt32) (hv : v ∈ e.version)
        (hh : (c.nodes key.1).backup.Holds u v) : r.backup.Holds u v := by
      rw [hbackup]
      refine holds_add hh fun hu => ?_
      subst hu
      exact Ledger.all_iff.mp hok (key.1, rid) y hy rfl e he v hv hh
    -- the object that arrives is covered now; the others are still asked for
    have hgets (u : UUID) (e : Backup.Entry) (he : x.held.lookup u = some e) :
        CoversEntry r.backup u e ∨ u.text ∈ R.erase m.uuid.text := by
      have hcovered := hsound.covered u e he
      rw [hphase] at hcovered
      rcases hcovered with hcovers | ⟨R', hR', hu⟩
      · exact .inl fun v hv => hholds key.2 x hx u e he v hv (hcovers v hv)
      · obtain rfl := hR.unique hR'
        by_cases hmu : u = m.uuid
        · subst hmu
          refine .inl fun v hv => ?_
          have hinFlight := hsound.inFlight m
          rw [hphase] at hinFlight
          rw [hbackup]
          exact holds_of_add (hinFlight hm e he v hv)
        · have hne : u.text ≠ m.uuid.text := fun htext => hmu (UUID.text_injective htext)
          exact .inr (AList.mem_erase.mpr ⟨hne, hu⟩)
    -- other sessions wait for what they waited for
    have hothers (rid : ID32) (y : Session N) (hrid : rid ≠ key.2)
        (hy : c.sessions.lookup (key.1, rid) = some y) (hsy : y.Sound L (c.nodes key.1) rid) :
        y.Sound L r rid := by
      refine hsy.mono (hholds rid y hy) fun R' hR' => ?_
      split_ifs at hrequests
      · exact hR'.erase_ne hrid hrequests
      · exact hR'.insert_ne hrid hrequests
    refine h.advance ?_ hothers
    simp only [hlast]
    -- with the last object all is covered
    split_ifs at hrequests ⊢ with hkeys
    · refine .of_covered (fun u e he => ?_) rfl
      exact (hgets u e he).resolve_right (mem_of_keys_eq_nil hkeys _)
    · have hwaits : State.Waits r.kernel key.2 (R.erase m.uuid.text) := by
        rw [State.Waits, hrequests]
        exact AList.lookup_insert _
      refine ⟨fun u e he => (hgets u e he).imp_right fun hu => ⟨_, hwaits, hu⟩,
        fun m' hm' e he v hv => ?_, fun _ => ⟨_, hwaits⟩⟩
      have hinFlight := hsound.inFlight m'
      rw [hphase] at hinFlight
      exact hinFlight (List.mem_of_mem_erase hm') e he v hv
  · cases hstep

theorem Sound.closeSession {x : Session N} (h : c.Sound L) : (c.closeSession key x).Sound L :=
  (h.setNode fun _ _ _ hy => hy.setSyncFinished).erase

theorem Sound.fail (h : c.Sound L) (hstep : c.fail key = some c') : c'.Sound L := by
  simp only [Cluster.fail, Option.bind_eq_bind, Option.bind_eq_some_iff, Prod.exists] at hstep
  obtain ⟨x, hx, r, out, hr, hstep⟩ := hstep
  obtain rfl := Option.some.inj hstep
  obtain ⟨k, hk, rfl, rfl⟩ := Replica.kernelStep_eq_some hr
  obtain rfl := Option.some.inj hk
  have hopen : Sound L { c with sessions := c.sessions.erase key } := h.erase
  refine Sound.setNode (hopen.setNode fun rid y hy hsy => ?_) fun _ _ _ hy => hy.setSyncFinished
  obtain ⟨hkey, hy⟩ := Ledger.of_lookup_erase hy
  refine hsy.mono (fun _ _ _ _ _ hh => hh) fun R hR => hR.erase_ne (fun hrid => ?_) rfl
  exact hkey (Prod.ext rfl hrid)

/-- **Step lemma.** -/
theorem sound_step {e : ClusterEvent N} (h : c.Sound L) (hok : c.Orderly L e)
    (hstep : c.step L e = some c') : c'.Sound L := by
  cases e with
  | save n uuid version isDeleted lastUpdated expireDate =>
    obtain rfl := Option.some.inj hstep
    exact h.save hok
  | del n uuid version lastUpdated now =>
    obtain rfl := Option.some.inj hstep
    exact h.del
  | connect n peer now =>
    obtain rfl := Option.some.inj hstep
    exact h.setNode_link rfl rfl
  | received n peer now =>
    obtain rfl := Option.some.inj hstep
    obtain ⟨hbackup, hkernel⟩ := Replica.updateLastReceivedTime_frame (c.nodes n) peer now
    exact h.setNode_link hbackup hkernel
  | disconnect n peer =>
    obtain rfl := Option.some.inj hstep
    obtain ⟨hbackup, hkernel⟩ := Replica.updatePeerLastSeen_frame (c.nodes n) peer
    exact h.setNode_link hbackup hkernel
  | start n source requestId message now => exact h.start hok hstep
  | compare key now => exact h.compare hok hstep
  | answer key name data => exact h.answer hok hstep
  | receive key m => exact h.receive hok hstep
  | finish key =>
    simp only [step, Cluster.finish, Option.bind_eq_bind, Option.bind_eq_some_iff] at hstep
    obtain ⟨x, hx, hstep⟩ := hstep
    split at hstep
    · obtain rfl := Option.some.inj hstep
      exact h.closeSession
    · cases hstep
  | fail key => exact h.fail hstep

/-- Sound sessions achieve what they should. -/
theorem Sound.completes {e : ClusterEvent N} (h : c.Sound L) : c.Completes e := by
  cases e with
  | finish key => exact fun x hx hphase => (h key.1 key.2 x hx).finished hphase
  | _ => trivial

/-- **Finished sessions achieve what they should**, along every orderly run of any nodes. -/
theorem completes_run (L : Backup.Libs) (nodes : N → Replica N) (es : List (ClusterEvent N))
    (hok : Run.Along (step L) (Orderly L) (init nodes) es) :
    Run.Along (step L) Completes (init nodes) es :=
  Run.Along.of_invariant (Sound L) (fun _ _ _ h hok hstep => sound_step h hok hstep)
    (fun _ _ h _ => h.completes) (sound_init nodes) hok

/-- A node pulls uuid 5 from the one that saved it. -/
def pull (a b : N) : List (ClusterEvent N) :=
  [.save b 5 1 false 500 0, .connect a b 1100, .start a b 7 none 1100, .compare (a, 7) 1110,
    .answer (a, 7) (UUID.text 5) .empty, .receive (a, 7) ⟨5, .empty, 1, 500, 0⟩, .finish (a, 7)]

theorem completes_pull : Run.Along (step Backup.canonicalLibs) Completes
    (init fun _ : Fin 3 => .fresh 1) (pull 1 2) :=
  completes_run _ _ _ (by decide +kernel)

/-- The same after another node has seen the node that pulls, and before it pulls from it again. -/
def late (z a b : N) : List (ClusterEvent N) :=
  [.connect z a 600, .start z a 6 none 650, .compare (z, 6) 660, .finish (z, 6),
    .received z a 1000, .disconnect z a] ++ pull a b ++
  [.connect z a 1200, .start z a 8 none 1200, .compare (z, 8) 1210]

/-- **What is learned late is not passed on**: it is as old as it was at the node that saved it. -/
theorem not_completes : ¬ ∀ (L : Backup.Libs) (syncClass : Fin 3 → UInt32)
    (es : List (ClusterEvent (Fin 3))),
    Run.Along (step L) Completes (init fun n => .fresh (syncClass n)) es := by
  intro h
  have hlate := h Backup.canonicalLibs (fun _ => 1) (late 0 1 2 ++ [.finish (0, 8)])
  obtain ⟨c, hc⟩ := Option.isSome_iff_exists.mp (show (Run.run (step Backup.canonicalLibs)
    (init fun _ : Fin 3 => .fresh 1) (late 0 1 2)).isSome by decide +kernel)
  have hmissing : ∀ c ∈ Run.run (step Backup.canonicalLibs) (init fun _ : Fin 3 => .fresh 1)
      (late 0 1 2),
      ∃ x ∈ c.sessions.lookup (0, 8), x.phase = .finished ∧ ¬ x.Covered (c.nodes 0) := by
    decide +kernel
  obtain ⟨x, hx, hphase, hnot⟩ := hmissing c hc
  exact hnot (((Run.along_append.mp hlate).2 c hc).1 x hx hphase)

end Cluster

end Sync

end Metax
