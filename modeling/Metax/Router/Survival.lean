import Metax.Router.GetReply

/-!
# Which inputs the router survives

The handlers assert what they expect of their inputs and of the tenders these name, and a failed
assertion ends the node. `Survives` is the condition on an input and the state it meets under which
no assertion fails: a run goes on exactly as long as its steps meet it (`survives_iff`).

A neighbour can break it: with the command `max_command`, with an answer to an announcement the
kernel is still working on, with a message for the kernel behind a refused announcement, with the
end of a synchronization for a tender that was never entered into the timeline.

The condition is met by an input or not, whatever else happens: nothing in it is about what the
handler computes. It is proved handler by handler, with the rules of `Exit.Lives`, in states whose
pointers are in order (`Pointed`), as they are in every state that is reached (`pointed_step`).
-/

namespace Metax

namespace Router

open Exit (assert)

namespace Tables

/-- What holds of the containers in every state. -/
structure Pointed (T : Tables) : Prop extends T.Keyed where
  key : ∀ p t, T.deref p = some t → t.tenderId = p.id
  nodup : T.timeline.Nodup
  pointed : ∀ p ∈ T.timeline, (T.deref p).isSome
  winners : ∀ p t, T.deref p = some t → t.winners = []

variable {T : Tables} {p : Pointer} {t : Tender} {k : ID32} {i : UUID}

/-- A tender stored under its own pointer. -/
theorem Pointed.assign (h : T.Pointed) (hne : p ≠ .tender 0) (hcmd : isSyncCommand t.cmd = p.isSync)
    (hkey : t.tenderId = p.id) (hwinners : t.winners = []) : (T.assign p t).Pointed where
  toKeyed := h.toKeyed.assign hne hcmd
  key q t' ht' := by
    rw [deref_assign] at ht'
    split_ifs at ht' with hq
    · obtain rfl := Option.some.inj ht'
      rw [hq, hkey]
    · exact h.key q t' ht'
  nodup := by
    rw [assign_timeline]
    exact h.nodup
  pointed q hq := by
    rw [assign_timeline] at hq
    rw [deref_assign]
    split_ifs
    · rfl
    · exact h.pointed q hq
  winners q t' ht' := by
    rw [deref_assign] at ht'
    split_ifs at ht' with hq
    · obtain rfl := Option.some.inj ht'
      exact hwinners
    · exact h.winners q t' ht'

/-- A new tender is entered once. -/
theorem Pointed.enter (h : T.Pointed) (hp : p ∉ T.timeline) (hstored : (T.deref p).isSome) :
    ((T.insertId k i).pushTimeline p).Pointed where
  toKeyed := h.toKeyed.of_deref fun q t' ht' => by rwa [deref_pushTimeline, deref_insertId] at ht'
  key q t' ht' := by
    rw [deref_pushTimeline, deref_insertId] at ht'
    exact h.key q t' ht'
  nodup := h.nodup.append (List.nodup_singleton p) (by simpa using hp)
  pointed q hq := by
    rw [deref_pushTimeline, deref_insertId]
    rcases List.mem_append.mp hq with hq | hq
    · exact h.pointed q hq
    · obtain rfl := List.mem_singleton.mp hq
      exact hstored
  winners q t' ht' := by
    rw [deref_pushTimeline, deref_insertId] at ht'
    exact h.winners q t' ht'

/-- A tender that goes takes its pointer with it. -/
theorem Pointed.remove (h : T.Pointed) (ht : T.deref p = some t) : (T.remove p t).Pointed where
  toKeyed := h.toKeyed.of_deref fun q t' ht' => deref_of_remove ht'
  key q t' ht' := h.key q t' (deref_of_remove ht')
  nodup := h.nodup.erase p
  pointed q hq := by
    have hq' := (List.Nodup.mem_erase_iff h.nodup).mp hq
    rw [deref_remove (h.key p t ht), if_neg hq'.1]
    exact h.pointed q hq'.2
  winners q t' ht' := h.winners q t' (deref_of_remove ht')

/-- The request ids do not matter here. -/
theorem Pointed.idTenders (h : T.Pointed) (ids : Ledger.Table ID32 UUID) :
    ({ T with idTenders := ids } : Tables).Pointed where
  toKeyed := h.toKeyed.of_deref fun q t' ht' => by rwa [deref_idTenders] at ht'
  key q t' ht' := by
    rw [deref_idTenders] at ht'
    exact h.key q t' ht'
  nodup := h.nodup
  pointed q hq := by
    rw [deref_idTenders]
    exact h.pointed q hq
  winners q t' ht' := by
    rw [deref_idTenders] at ht'
    exact h.winners q t' ht'

/-- A pointer that leads nowhere is not in the timeline. -/
theorem Pointed.notMem (h : T.Pointed) (hnew : T.deref p = none) : p ∉ T.timeline := by
  intro hp
  have hstored := h.pointed p hp
  rw [hnew] at hstored
  cases hstored

end Tables

section Invariant

variable {T T' : Tables} {s s' : State} {e : Event}

/-- No update gives a tender winners: the handler that would is never called. -/
theorem Update.winners {maxHops : UInt16} {i : UUID} {t t' : Tender}
    (h : Update maxHops e i t t') : t'.winners = t.winners := by
  cases h <;> rfl

/-- Every change keeps the pointers in order. -/
theorem Change.pointed {maxHops : UInt16} {rid : ID32} {d : RouterData}
    (h : Change T maxHops rid d e T') (hT : T.Pointed) : T'.Pointed := by
  -- a tender and its entries
  have hcreate : ∀ {p t k}, p.id ≠ 0 → isSyncCommand t.cmd = p.isSync → t.tenderId = p.id →
      t.winners = [] → T.deref p = .none →
      (((T.assign p t).insertId k p.id).pushTimeline p).Pointed := by
    intro p t k hne hcmd hkey hwinners hnew
    refine (hT.assign (Tables.ne_null hne) hcmd hkey hwinners).enter ?_ ?_
    · rw [Tables.assign_timeline]
      exact hT.notMem hnew
    · rw [Tables.deref_assign, if_pos rfl]
      rfl
  cases h with
  | none => exact hT
  | announced inp fresh t he ht hid hnew =>
    exact hcreate fresh.2 (by rw [ht.cmd]; exact isSyncCommand_of_valid ht.valid) ht.tenderId
      ht.winners hnew
  | opened p inp fresh t he hin ht hd hne hkey hcmd hvalid hnew =>
    exact hcreate hne hcmd hkey ht.winners hnew
  | orphaned p inp fresh t he hin ht hd hne hkey hcmd hvalid hnew hbad =>
    exact hT.assign (Tables.ne_null hne) hcmd hkey ht.winners
  | updated i t t' ht h =>
    obtain ⟨hkey, hcmd, -, -⟩ := h.keeps
    refine hT.assign (p := .tender i) (hT.ne_null ht) ?_ ?_ ?_
    · rw [hcmd]
      exact hT.sync (.tender i) t ht
    · rw [hkey]
      exact hT.key (.tender i) t ht
    · rw [h.winners]
      exact hT.winners (.tender i) t ht
  | resynced i t ht =>
    exact hT.assign (p := .syncTender i) (hT.ne_null ht) (hT.sync (.syncTender i) t ht)
      (hT.key (.syncTender i) t ht) (hT.winners (.syncTender i) t ht)
  | removed p t ht hp hcmd => exact hT.remove ht
  | refused k i t he hid ht htyp hprs hhop =>
    refine Tables.Pointed.idTenders (hT.assign (p := .tender i) (hT.ne_null ht) ?_ ?_ ?_) _
    · exact hT.sync (.tender i) t ht
    · exact hT.key (.tender i) t ht
    · exact hT.winners (.tender i) t ht

end Invariant

/-- Hence every step does. -/
theorem pointed_step {s s' : State} {e : Event} (hs : s.Pointed) (hstep : step s e = some s') :
    s'.Pointed :=
  (step_change hs.toKeyed hstep).pointed hs

/-- There are no pointers at the start. -/
theorem pointed_init : init.Pointed := by
  refine ⟨keyed_init, ?_, List.nodup_nil, nofun, ?_⟩
  · intro p t ht
    cases p <;> cases ht
  · intro p t ht
    cases p <;> cases ht

/-! ### The condition -/

namespace Tables

/-- The tender of a request, if there is one, is as it should be. -/
def Finds (T : Tables) (k : ID32) (P : UUID → Tender → Prop) : Prop :=
  ∀ i ∈ T.idTenders.lookup k, ∀ t ∈ T.tenders.lookup i, P i t

/-- The same for a synchronization. -/
def FindsSync (T : Tables) (k : ID32) (P : UUID → Tender → Prop) : Prop :=
  ∀ i ∈ T.idTenders.lookup k, ∀ t ∈ T.syncTenders.lookup i, P i t

/-- A request can be announced: its ids are not in use. -/
def Announceable (T : Tables) (inp : KernelPackage) (fresh : RandomUUID) : Prop :=
  T.idTenders.lookup inp.requestId = none ∧ T.tenders.lookup fresh.1 = none

/-- A request can be refused: it goes back into the network from the one peer it came from, or its
tender can be cleaned up. -/
def Refusable (T : Tables) (k : ID32) : Prop :=
  T.Finds k fun i t => if t.hopId = 1 then .tender i ∈ T.timeline
    else t.prs.card = 1 ∧ t.typ = .remote

end Tables

/-- Data can be sent for the tender: a peer has asked or answered. -/
def Tender.Sendable (t : Tender) : Prop := (t.st = .confirmed ∨ t.st = .received) ∧ t.prs.Nonempty

/-- The commands of the kernel that announce a tender. -/
def isKernelAnnouncement (cmd : Command) : Bool :=
  cmd ∈ [.get, .update, .del, .copy, .save, .onUpdateRegister, .onUpdateUnregister, .saveStream,
    .recordingStart, .recordingStop, .notifyUpdate, .notifyDelete, .findPeer]

/-- Inputs of the kernel that are survived. -/
def SurvivesKernel (T : Tables) (inp : KernelPackage) (fresh : RandomUUID) : Prop :=
  if isKernelAnnouncement inp.cmd then T.Announceable inp fresh
  else if inp.cmd = .refuse then T.Refusable inp.requestId
  else if inp.cmd = .clearRequest then
    ∀ i ∈ T.idTenders.lookup inp.requestId, T.tenders.lookup i ≠ none
  else if inp.cmd ∈ [.auth, .saveOffer] then
    T.Finds inp.requestId fun _ t =>
      if isFirstCommandOfMultiwinnerTender t.cmd then t.st = .announced → t.typ = .remote
      else t.Sendable
  else if inp.cmd ∈ [.authData, .saveData] then
    T.Finds inp.requestId fun _ t => isFirstCommandOfMultiwinnerTender t.cmd ∨ t.Sendable
  else if inp.cmd ∈ [.updated, .getData, .deleted, .copySucceeded, .saveConfirm] then
    T.Finds inp.requestId fun _ t => t.typ = .remote ∧ t.prs.Nonempty
  else if inp.cmd ∈ [.sendJournalInfo, .sendUuids] then
    T.FindsSync inp.requestId fun _ t => t.prs.Nonempty
  else if inp.cmd = .syncFinished then
    T.FindsSync inp.requestId fun i t => t.prs.Nonempty ∧ .syncTender i ∈ T.timeline
  else if inp.cmd = .getUuid then T.Finds inp.requestId fun _ t => t.prs.Nonempty
  else if inp.cmd ∈ [.peerFound, .sendToPeer, .sendToPeerConfirm, .deliverFail, .noPermissions,
      .saveStreamOffer, .streamAuth, .livestreamContent, .getLivestreamContent,
      .cancelLivestreamGet, .recordingStarted, .recordingStopped, .recordingFail, .getJournalInfo,
      .onUpdateRegistered, .onUpdateRegisterFail, .onUpdateUnregisterFail,
      .onUpdateUnregistered] then T.Finds inp.requestId fun _ t => t.Sendable
  else True

/-- Does a message for the tender go to the kernel, rather than back to the tender's peers? -/
def ForKernel (d : RouterData) (t : Tender) : Prop :=
  t.typ = .internal ∨ d.cmd ∈ [.livestreamContent, .sendToPeer, .cancelLivestreamGet] ∧
    t.st = .confirmed ∨ d.cmd = .sendUuids

instance (d : RouterData) (t : Tender) : Decidable (ForKernel d t) :=
  inferInstanceAs (Decidable (_ ∨ _))

/-- Messages for a stored tender that are survived. -/
def SurvivesExisting (T : Tables) (d : RouterData) (inp : LinkInput) (t : Tender) : Prop :=
  if isKnownAnnouncement d.cmd then True
  else if d.cmd = .syncFinished then .tender d.tenderId ∈ T.timeline
  else t.isCanceled ∨ (ForKernel d t → Parses inp inp.header.headerSize →
      inp.header.tenderId ≠ 0 ∧ (d.cmd = .getData ∧ t.st = .confirmed ∨ T.Knows t)) ∧
    (¬ ForKernel d t → inp.header.tenderId ≠ 0 ∧
      (t.requestId = noRequest ∨ isFirstCommandOfMultiwinnerTender t.cmd))

/-- Messages that are survived. `d` is what `m_router_data` holds of the message. -/
def SurvivesMessage (T : Tables) (d : RouterData) (inp : LinkInput) : Prop :=
  isOwnSyncTender d.cmd ∨ d.cmd ≠ .maxCommand ∧
    match T.tenders.lookup d.tenderId with
    | none => isFirstCommandOfMultiwinnerTender d.cmd → d.hopId ≠ 1 → Parses inp d.headerSize →
        inp.peers.card = 1
    | some t => SurvivesExisting T d inp t

/-- Negative acknowledgements that are survived. -/
def SurvivesNack (T : Tables) (inp : LinkInput) : Prop :=
  inp.header.tenderId ≠ 0 ∧
    ∀ t ∈ T.tenders.lookup inp.header.tenderId, .tender inp.header.tenderId ∈ T.timeline

/-- **The condition** on an input and the state it meets. -/
def Survives (s : State) : Event → Prop
  | .config _ => True
  | .kernel inp fresh => s.isConfigured → SurvivesKernel s.toTables inp fresh
  | .backup inp fresh => s.isConfigured → inp.cmd ∈ [.update, .save] → s.Announceable inp fresh
  | .storage inp => s.isConfigured →
      if inp.cmd ∈ [.getData, .deleted] then s.Finds inp.requestId fun _ t => t.Sendable
      else inp.cmd = .refuse → s.Refusable inp.requestId
  | .storageWriter inp => s.isConfigured → inp.cmd ∈ [.saveConfirm, .updated] →
      s.Finds inp.requestId fun _ t => t.Sendable
  | .link inp fresh =>
      if inp.cmd = .nack then SurvivesNack s.toTables inp
      else inp.cmd = .receivedData → SurvivesMessage s.toTables (s.message (.link inp fresh)) inp
  | .timeout p => p ∈ s.timeline → ∀ t ∈ s.deref p, p.isSync → t.prs.Nonempty

/-! ### The handlers of the kernel and the storages -/

section Kernel

variable {s : State} {t : Tender} {k : ID32} {p : Pointer}

/-- The two assertions of an announcement are about the ids it brings. -/
theorem announce_lives {cmds : List Command} {copyFields : KernelPackage → Tender → Tender}
    {inp : KernelPackage} {fresh : RandomUUID} (hcmd : inp.cmd ∈ cmds) :
    (announce cmds copyFields s inp fresh).Lives ↔ s.Announceable inp fresh := by
  simp [announce, hcmd, Tables.Announceable]

/-- A request that is not known, or whose tender is gone, does no harm. -/
theorem withTender_lives {f : UUID → Tender → Outcome} {P : UUID → Tender → Prop}
    (h : ∀ i t, s.idTenders.lookup k = some i → s.tenders.lookup i = some t →
      ((f i t).Lives ↔ P i t)) : (withTender s k f).Lives ↔ s.Finds k P := by
  rw [withTender, Tables.Finds]
  cases hid : s.idTenders.lookup k with
  | none => simp
  | some i =>
    cases ht : s.tenders.lookup i with
    | none => simp [ht]
    | some t => simp [ht, h i t hid ht]

/-- What is asked of the tender of a request, once that is found. -/
theorem Tables.finds_iff {T : Tables} {i : UUID} {P : UUID → Tender → Prop}
    (hid : T.idTenders.lookup k = some i) (ht : T.tenders.lookup i = some t) :
    T.Finds k P ↔ P i t := by
  simp [Tables.Finds, hid, ht]

/-- The same for the tenders of synchronizations. -/
theorem withSyncTender_lives {f : UUID → Tender → Outcome} {P : UUID → Tender → Prop}
    (h : ∀ i t, s.syncTenders.lookup i = some t → ((f i t).Lives ↔ P i t)) :
    (withSyncTender s k f).Lives ↔ s.FindsSync k P := by
  rw [withSyncTender, Tables.FindsSync]
  cases hid : s.idTenders.lookup k with
  | none => simp
  | some i =>
    cases ht : s.syncTenders.lookup i with
    | none => simp [ht]
    | some t => simp [ht, h i t ht]

/-- Data has to have a peer to go to. -/
theorem sendTenderData_lives {cmd : Command} {q : Payload} :
    (sendTenderData s t cmd q).Lives ↔ t.prs.Nonempty := by
  unfold sendTenderData
  split_ifs with h
  · simp [h]
  · simp [h]

/-- So has a message of a synchronization. -/
theorem postSyncRequestToLinkPeer_lives {cmd : Command} :
    (postSyncRequestToLinkPeer s t cmd).Lives ↔ t.prs.Nonempty := by
  unfold postSyncRequestToLinkPeer
  split_ifs with h
  · simp [h]
  · simp [h]

/-- What is cleaned up has to be in the timeline. -/
theorem cleanUpTenderInfo_lives : (cleanUpTenderInfo s p t).Lives ↔ p ∈ s.timeline := by
  rw [cleanUpTenderInfo, Exit.lives_andThen_of fun _ => Exit.lives_done, cleanUpTenderFromTimeline]
  simp

/-- A synchronization is asserted to be one, besides. -/
theorem cleanUpSyncTenderInfo_lives :
    (cleanUpSyncTenderInfo s p t).Lives ↔ isSyncCommand t.cmd ∧ p ∈ s.timeline := by
  rw [cleanUpSyncTenderInfo, Exit.lives_assert, Exit.lives_andThen_of, cleanUpTenderFromTimeline]
  · simp
  · intro s
    exact Exit.lives_ite.mpr ⟨fun _ => Exit.lives_done, fun _ => Exit.lives_done⟩

/-- The command that is asserted is the one that decided for this clean-up. -/
theorem cleanUpTender_lives : (cleanUpTender s p t).Lives ↔ p ∈ s.timeline := by
  rw [cleanUpTender, Exit.lives_andThen_of fun _ => Exit.lives_done, Exit.lives_ite,
    cleanUpSyncTenderInfo_lives, cleanUpTenderInfo_lives]
  by_cases hcmd : isSyncCommand t.cmd = true
  · simp [hcmd]
  · simp [hcmd]

/-- Data is sent for a tender that a peer confirmed or that came from one. -/
theorem handleKernelDataTransfer_lives {inp : KernelPackage} :
    (handleKernelDataTransfer s inp).Lives ↔ s.Finds inp.requestId fun _ t => t.Sendable :=
  withTender_lives fun _ _ _ _ => by rw [Exit.lives_assert, sendTenderData_lives, Tender.Sendable]

/-- The storages send under the same assertions as the kernel. -/
theorem handleStorageDataTransfer_lives {inp : StoragePackage} :
    (handleStorageDataTransfer s inp).Lives ↔ s.Finds inp.requestId fun _ t => t.Sendable :=
  withTender_lives fun _ _ _ _ => by rw [Exit.lives_assert, sendTenderData_lives, Tender.Sendable]

/-- The two ways of a refused tender have different assertions. -/
theorem handleRefuse_lives {q : Payload} : (handleRefuse s k q).Lives ↔ s.Refusable k := by
  refine withTender_lives fun i t _ _ => ?_
  rw [Exit.lives_ite, cleanUpTender_lives, Exit.lives_andThen_of fun _ => Exit.lives_done,
    broadcastTenderToPeers]
  by_cases hhop : t.hopId = 1
  · simp [hhop]
  · simp [hhop]

/-- An offer for a multi-winner tender is looked at only while that is announced. -/
theorem handleKernelOffer_lives {inp : KernelPackage} :
    (handleKernelOffer s inp).Lives ↔ s.Finds inp.requestId fun _ t =>
      if isFirstCommandOfMultiwinnerTender t.cmd then t.st = .announced → t.typ = .remote
      else t.Sendable := by
  refine withTender_lives fun i t hid ht => ?_
  by_cases hmulti : isFirstCommandOfMultiwinnerTender t.cmd = true
  · rw [if_pos hmulti, if_pos hmulti, handleKernelOfferForMultiwinnerTender, Exit.lives_ite,
      Exit.lives_assert]
    simp
  · rw [if_neg hmulti, if_neg hmulti, handleKernelDataTransfer_lives, Tables.finds_iff hid ht]

/-- No tender has winners, so the assertion about them is never reached. -/
theorem handleKernelAcceptForMultiwinnerTender_lives {inp : KernelPackage} (hs : s.Pointed) :
    (handleKernelAcceptForMultiwinnerTender s inp).Lives ↔ s.Finds inp.requestId fun _ t =>
      isFirstCommandOfMultiwinnerTender t.cmd ∨ t.Sendable := by
  refine withTender_lives fun i t hid ht => ?_
  have hwinners : t.winners = [] := hs.winners (.tender i) t ht
  by_cases hmulti : isFirstCommandOfMultiwinnerTender t.cmd = true
  · simp [hmulti, sendAcceptToWinnerPeers, hwinners]
  · rw [if_neg hmulti, handleKernelDataTransfer_lives, Tables.finds_iff hid ht, or_iff_right hmulti]

/-- A confirmation goes to the peer of a remote tender. -/
theorem handleKernelConfirmForMultiwinnerTender_lives {inp : KernelPackage} :
    (handleKernelConfirmForMultiwinnerTender s inp).Lives ↔
      s.Finds inp.requestId fun _ t => t.typ = .remote ∧ t.prs.Nonempty :=
  withTender_lives fun _ _ _ _ => by rw [Exit.lives_assert, sendTenderData_lives]

theorem handleKernelGetUuidRequest_lives {inp : KernelPackage} :
    (handleKernelGetUuidRequest s inp).Lives ↔ s.Finds inp.requestId fun _ t => t.prs.Nonempty :=
  withTender_lives fun _ _ _ _ => sendTenderData_lives

/-- The request has to lead to a tender of `m_tenders`: one of a synchronization aborts the node. -/
theorem handleKernelClearRequest_lives {inp : KernelPackage} :
    (handleKernelClearRequest s inp).Lives ↔
      ∀ i ∈ s.idTenders.lookup inp.requestId, s.tenders.lookup i ≠ none := by
  rw [handleKernelClearRequest]
  cases hid : s.idTenders.lookup inp.requestId with
  | none => simp
  | some i =>
    cases ht : s.tenders.lookup i with
    | none => simp [ht]
    | some t => simp [ht]

theorem handleSyncDataTransfer_lives {inp : KernelPackage} :
    (handleSyncDataTransfer s inp).Lives ↔
      s.FindsSync inp.requestId fun _ t => t.prs.Nonempty := by
  refine withSyncTender_lives fun i t _ => ?_
  rw [Exit.lives_andThen, Exit.lives_ite, postSyncRequestToLinkPeer_lives]
  simp only [sendTenderData_lives]
  constructor
  · rintro ⟨⟨hstart, -⟩, hsend⟩
    by_cases hcmd : inp.cmd = .sendUuids
    · exact hstart hcmd
    · exact hsend s (if_neg hcmd)
  · exact fun h => ⟨⟨fun _ => h, fun _ => Exit.lives_done⟩, fun _ _ => h⟩

/-- The two messages to the peer come first, then the clean-up. -/
theorem handleKernelSyncFinished_lives {inp : KernelPackage} (hs : s.Pointed) :
    (handleKernelSyncFinished s inp).Lives ↔
      s.FindsSync inp.requestId fun i t => t.prs.Nonempty ∧ .syncTender i ∈ s.timeline := by
  refine withSyncTender_lives fun i t ht => ?_
  have hcmd : isSyncCommand t.cmd = true := hs.sync (.syncTender i) t ht
  rw [postSyncRequestToLinkPeer]
  split_ifs with hprs
  · rw [Exit.done_andThen, sendTenderData, dif_pos hprs, Exit.done_andThen,
      cleanUpSyncTenderInfo_lives]
    simp [hcmd, hprs, State.emit]
  · simp [hprs]

/-- The commands that announce, as `process_kernel_input` tells them apart. -/
theorem processKernelInput_announces {inp : KernelPackage} {fresh : RandomUUID}
    (hann : isKernelAnnouncement inp.cmd = true) :
    (processKernelInput s inp fresh).Lives ↔ s.Announceable inp fresh := by
  rw [processKernelInput]
  by_cases hget : inp.cmd = .get
  · rw [if_pos hget]
    exact announce_lives (by simp [hget])
  rw [if_neg hget]
  by_cases hsave : inp.cmd ∈ [.update, .del, .copy, .save]
  · rw [if_pos hsave]
    have hcmds : ∀ cmd ∈ [Command.update, .del, .copy, .save],
        cmd ∈ [Command.save, .update, .notifyUpdate, .notifyDelete, .del, .copy] := by decide
    exact announce_lives (hcmds _ hsave)
  rw [if_neg hsave]
  by_cases hreg : inp.cmd = .onUpdateRegister
  · rw [if_pos hreg]
    exact announce_lives (by simp [hreg])
  rw [if_neg hreg]
  by_cases hunreg : inp.cmd = .onUpdateUnregister
  · rw [if_pos hunreg]
    exact announce_lives (by simp [hunreg])
  rw [if_neg hunreg]
  by_cases hstream : inp.cmd = .saveStream
  · rw [if_pos hstream]
    exact announce_lives (by simp [hstream])
  rw [if_neg hstream]
  by_cases hstart : inp.cmd = .recordingStart
  · rw [if_pos hstart]
    exact announce_lives (by simp [hstart])
  rw [if_neg hstart]
  by_cases hstop : inp.cmd = .recordingStop
  · rw [if_pos hstop]
    exact announce_lives (by simp [hstop])
  rw [if_neg hstop]
  by_cases hfind : inp.cmd ∈ [.notifyUpdate, .notifyDelete, .findPeer]
  · rw [if_pos hfind]
    have hcmds : ∀ cmd ∈ [Command.notifyUpdate, .notifyDelete, .findPeer],
        cmd ∈ [Command.findPeer, .notifyUpdate, .notifyDelete] := by decide
    exact announce_lives (hcmds _ hfind)
  -- no other command announces
  simp only [isKernelAnnouncement, List.mem_cons, List.not_mem_nil, or_false, decide_eq_true_eq]
    at hann hsave hfind
  tauto

/-- All commands of the kernel, each with the assertions of its handler. -/
theorem processKernelInput_lives {inp : KernelPackage} {fresh : RandomUUID} (hs : s.Pointed) :
    (processKernelInput s inp fresh).Lives ↔ SurvivesKernel s.toTables inp fresh := by
  rw [SurvivesKernel]
  by_cases hann : isKernelAnnouncement inp.cmd = true
  · rw [if_pos hann]
    exact processKernelInput_announces hann
  · rw [if_neg hann]
    simp only [isKernelAnnouncement, List.mem_cons, List.not_mem_nil, or_false,
      decide_eq_true_eq, not_or] at hann
    obtain ⟨hget, hupdate, hdel, hcopy, hsave, hreg, hunreg, hstream, hstart, hstop, hnotify,
      hnotify', hfind⟩ := hann
    rw [processKernelInput, if_neg hget, if_neg (by simp [hupdate, hdel, hcopy, hsave]),
      if_neg hreg, if_neg hunreg, if_neg hstream, if_neg hstart, if_neg hstop,
      if_neg (by simp [hnotify, hnotify', hfind])]
    refine Exit.lives_ite_congr handleRefuse_lives ?_
    refine Exit.lives_ite_congr handleKernelClearRequest_lives ?_
    refine Exit.lives_ite_congr handleKernelOffer_lives ?_
    refine Exit.lives_ite_congr (handleKernelAcceptForMultiwinnerTender_lives hs) ?_
    refine Exit.lives_ite_congr handleKernelConfirmForMultiwinnerTender_lives ?_
    refine Exit.lives_ite_congr handleSyncDataTransfer_lives ?_
    refine Exit.lives_ite_congr (handleKernelSyncFinished_lives hs) ?_
    refine Exit.lives_ite_congr handleKernelGetUuidRequest_lives ?_
    exact Exit.lives_ite_congr handleKernelDataTransfer_lives (iff_of_true Exit.lives_done trivial)

end Kernel

/-! ### The handlers of the link -/

section Link

variable {s : State} {inp : LinkInput} {fresh : RandomUUID} {t : Tender}

/-- A payload that does not parse is an exception, and the task goes on after it. -/
theorem postNewTenderToKernel_lives {k : ID32} : (postNewTenderToKernel s inp k).Lives := by
  unfold postNewTenderToKernel
  dsimp only
  split
  · exact Exit.lives_threw
  · exact Exit.lives_done

/-- So there is no way to abort on a new tender here. -/
theorem processNewTender_lives {p : Pointer} : (processNewTender s p inp).Lives :=
  (Exit.lives_andThen_of fun _ => Exit.lives_done).mpr postNewTenderToKernel_lives

/-- Announcements of several winners are passed on, which asserts that they came from one peer. -/
theorem handleNewRemoteTender_lives (hne : s.routerData.tenderId ≠ 0)
    (hmax : s.routerData.cmd ≠ .maxCommand)
    (hnew : s.tenders.lookup s.routerData.tenderId = none) :
    (handleNewRemoteTender s inp).Lives ↔
      (isFirstCommandOfMultiwinnerTender s.routerData.cmd → s.routerData.hopId ≠ 1 →
        Parses inp s.routerData.headerSize → inp.peers.card = 1) := by
  rw [handleNewRemoteTender, Exit.assert_of_pos hne, Exit.assert_of_pos hmax,
    Exit.assert_of_pos hnew]
  by_cases hinvalid : isInvalidNewTender s.routerData.cmd = true
  · rw [if_pos hinvalid]
    refine iff_of_true Exit.lives_done fun hmulti => ?_
    simp only [isFirstCommandOfMultiwinnerTender, List.mem_cons, List.not_mem_nil, or_false,
      decide_eq_true_eq] at hmulti
    rcases hmulti with h | h | h | h | h | h <;> rw [h] at hinvalid <;> cases hinvalid
  · rw [if_neg hinvalid, Parses, processNewTender, postNewTenderToKernel]
    dsimp only
    cases hq : inp.package.payload s.routerData.headerSize with
    | error x => simp [State.assign, hq, Except.isOk, Except.toBool]
    | ok q =>
      simp only [State.assign, hq, Exit.done_andThen, State.enter, State.emit]
      rw [Exit.lives_ite, forwardRemoteTender]
      simp [hq, State.newTender, Except.isOk, Except.toBool]

/-- The kernel has to know the request of a tender it gets a response for; only a payload that
parses gets to the assertion. -/
theorem sendResponseToKernel_lives :
    (sendResponseToKernel s inp).Lives ↔ (Parses inp inp.header.headerSize →
      ∃ t ∈ s.tenders.lookup inp.header.tenderId,
        inp.header.cmd = .getData ∧ t.st = .confirmed ∨ s.Knows t) := by
  rw [sendResponseToKernel, Parses]
  cases hq : inp.package.payload inp.header.headerSize with
  | error x => simp [Except.isOk, Except.toBool]
  | ok q =>
    cases ht : s.tenders.lookup inp.header.tenderId with
    | none => simp [Except.isOk, Except.toBool]
    | some t =>
      simp only [Exit.lives_ite, Exit.lives_done, implies_true, true_and, Exit.lives_assert,
        and_true, Except.isOk, Except.toBool, forall_const, Option.mem_some_iff, exists_eq_left',
        Tables.Knows]
      tauto

/-- A response that is passed on has no request here, or one that several may answer. -/
theorem bypassTenderResponse_lives :
    (bypassTenderResponse s inp).Lives ↔ ∃ t ∈ s.tenders.lookup inp.header.tenderId,
      t.requestId = noRequest ∨ isFirstCommandOfMultiwinnerTender t.cmd := by
  rw [bypassTenderResponse]
  cases ht : s.tenders.lookup inp.header.tenderId with
  | none => simp
  | some t => simp

/-- The header names the tender the message was looked up under, or none. -/
theorem exists_lookup_header (hs : s.Keyed) (hd : Decoded inp s.routerData)
    (ht : s.tenders.lookup s.routerData.tenderId = some t) {P : Tender → Prop} :
    (∃ t' ∈ s.tenders.lookup inp.header.tenderId, P t') ↔ inp.header.tenderId ≠ 0 ∧ P t := by
  constructor
  · rintro ⟨t', ht', hP⟩
    obtain rfl := hs.lookup_header hd ht ht'
    exact ⟨hs.id_ne ht', hP⟩
  · rintro ⟨hne, hP⟩
    refine ⟨t, ?_, hP⟩
    rw [← hd.tenderId hne]
    exact ht

/-- A message for a stored tender, by what is done with it. -/
theorem processExistingTender_lives (hs : s.Keyed) (hd : Decoded inp s.routerData)
    (hmax : s.routerData.cmd ≠ .maxCommand)
    (ht : s.tenders.lookup s.routerData.tenderId = some t) :
    (processExistingTender s t inp).Lives ↔ SurvivesExisting s.toTables s.routerData inp t := by
  rw [processExistingTender, Exit.assert_of_pos hmax, Exit.assert_of_pos (hs.id_ne ht),
    SurvivesExisting]
  refine Exit.lives_ite_congr (iff_of_true Exit.lives_done trivial) ?_
  refine Exit.lives_ite_congr cleanUpTenderInfo_lives ?_
  rw [processExistingTenderData, Exit.lives_ite]
  have hkernel : (sendResponseToKernel s inp).Lives ↔ (Parses inp inp.header.headerSize →
      inp.header.tenderId ≠ 0 ∧ (s.routerData.cmd = .getData ∧ t.st = .confirmed ∨ s.Knows t)) := by
    rw [sendResponseToKernel_lives, exists_lookup_header hs hd ht, hd.cmd]
  have hpeers : (bypassTenderResponse s inp).Lives ↔ inp.header.tenderId ≠ 0 ∧
      (t.requestId = noRequest ∨ isFirstCommandOfMultiwinnerTender t.cmd) := by
    rw [bypassTenderResponse_lives, exists_lookup_header hs hd ht]
  by_cases hcanceled : t.isCanceled = true
  · simp [hcanceled]
  rw [or_iff_right hcanceled]
  cases htyp : t.typ with
  | internal =>
    have hfor : ForKernel s.routerData t := .inl htyp
    constructor
    · rintro ⟨-, h⟩
      exact ⟨fun _ => hkernel.mp (h hcanceled), fun hnot => absurd hfor hnot⟩
    · rintro ⟨h, -⟩
      exact ⟨fun hc => absurd hc hcanceled, fun _ => hkernel.mpr (h hfor)⟩
  | remote =>
    have hfor : ForKernel s.routerData t ↔
        s.routerData.cmd ∈ [.livestreamContent, .sendToPeer, .cancelLivestreamGet] ∧
          t.st = .confirmed ∨ s.routerData.cmd = .sendUuids := by
      rw [ForKernel, htyp]
      exact or_iff_right TenderType.remote_ne_internal
    dsimp only
    rw [hfor, processRemoteTender, Exit.lives_ite, hkernel, hpeers]
    constructor
    · rintro ⟨-, h⟩
      exact h hcanceled
    · exact fun h => ⟨fun hc => absurd hc hcanceled, fun _ => h⟩

/-- The messages of a synchronization are safe. -/
theorem handleSyncTenders_lives (hown : isOwnSyncTender s.routerData.cmd = true) :
    (handleSyncTenders s inp).Lives := by
  rw [handleSyncTenders, Exit.lives_andThen_of fun _ => Exit.lives_done]
  split
  · rename_i hnew
    refine Exit.lives_ite.mpr ⟨fun _ => Exit.lives_done, fun hcmd => ?_⟩
    rw [Exit.lives_assert, Exit.lives_assert]
    refine ⟨?_, hnew, processNewTender_lives⟩
    simp only [isOwnSyncTender, List.mem_cons, List.not_mem_nil, or_false, decide_eq_true_eq,
      not_or] at hown hcmd ⊢
    tauto
  · exact postNewTenderToKernel_lives

/-- Every message, whether its tender is stored or not. -/
theorem handleRouterData_lives (hs : s.Keyed) (hd : Decoded inp s.routerData)
    (hne : s.routerData.tenderId ≠ 0) :
    (handleRouterData s inp).Lives ↔ SurvivesMessage s.toTables s.routerData inp := by
  rw [handleRouterData, SurvivesMessage]
  dsimp only
  by_cases hown : isOwnSyncTender s.routerData.cmd = true
  · rw [if_pos hown]
    exact iff_of_true (handleSyncTenders_lives hown) (.inl hown)
  · rw [if_neg hown, or_iff_right hown, Exit.lives_assert, Exit.lives_assert,
      Exit.lives_andThen_of fun _ => Exit.lives_done, and_iff_right hne]
    refine and_congr_right fun hmax => ?_
    cases ht : s.tenders.lookup s.routerData.tenderId with
    | none => exact handleNewRemoteTender_lives hne hmax ht
    | some t => exact processExistingTender_lives hs hd hmax ht

/-- A negative acknowledgement cleans the tender up that its message names. -/
theorem handleLinkNack_lives : (handleLinkNack s inp).Lives ↔ SurvivesNack s.toTables inp := by
  have hkey : (s.extractHeader inp).routerData.tenderId = inp.header.tenderId := by
    simp only [State.extractHeader, RouterData.decodeInto_eq]
    rfl
  rw [handleLinkNack, SurvivesNack, Exit.lives_assert, hkey]
  refine and_congr_right fun _ => ?_
  change (match s.tenders.lookup inp.header.tenderId with
    | none => Exit.done (s.extractHeader inp)
    | some t => cleanUpTender (s.extractHeader inp) (.tender inp.header.tenderId) t).Lives ↔ _
  cases ht : s.tenders.lookup inp.header.tenderId with
  | none => simp
  | some t =>
    simp only [cleanUpTender_lives, Option.mem_some_iff, forall_eq']
    exact Iff.rfl

end Link

/-! ### Every step -/

/-- An expired synchronization has to have a peer to tell; a pointer leads somewhere in any case. -/
theorem handleExpiredTenders_lives {s : State} {p : Pointer} (hs : s.Pointed) :
    (handleExpiredTenders s p).Lives ↔
      (p ∈ s.timeline → ∀ t ∈ s.deref p, p.isSync → t.prs.Nonempty) := by
  rw [handleExpiredTenders, Exit.lives_ite]
  simp only [Exit.lives_done, implies_true, and_true]
  refine forall_congr' fun hp => ?_
  cases ht : s.deref p with
  | none =>
    have hstored := hs.pointed p hp
    rw [ht] at hstored
    cases hstored
  | some t =>
    have hcmd : isSyncCommand t.cmd = p.isSync := hs.sync p t ht
    simp only [Option.mem_some_iff, forall_eq', processExpiredTender]
    by_cases hsync : p.isSync = true
    · rw [if_pos (hcmd.trans hsync), handleExpiredSyncTender]
      have hcancel : ∀ l,
          p ∈ ((if t.isCanceled then s else cancelRequest s t.requestId).emit l).timeline := by
        intro l
        unfold cancelRequest
        split_ifs <;> exact hp
      rw [postSyncRequestToLinkPeer]
      by_cases hprs : t.prs.Nonempty
      · rw [dif_pos hprs, Exit.done_andThen, cleanUpSyncTenderInfo_lives]
        exact iff_of_true ⟨hcmd.trans hsync, hcancel _⟩ fun _ => hprs
      · rw [dif_neg hprs]
        exact iff_of_false Exit.not_lives_aborted fun h => hprs (h hsync)
    · rw [if_neg (by rw [hcmd]; exact hsync), cleanUpTender_lives]
      exact iff_of_true hp fun h => absurd h hsync

/-- Nothing is asserted before the configuration has come. -/
theorem whenConfigured_lives {s : State} {o : Outcome} :
    (whenConfigured s o).Lives ↔ (s.isConfigured → o.Lives) := by
  rw [whenConfigured, Exit.lives_ite]
  exact and_iff_left fun _ => Exit.lives_done

/-- The backup announces saves and updates, and is ignored otherwise. -/
theorem backup_lives {s : State} {inp : KernelPackage} {fresh : RandomUUID} :
    (processBackupInput s inp fresh).Lives ↔
      (inp.cmd ∈ [.update, .save] → s.Announceable inp fresh) := by
  rw [processBackupInput, Exit.lives_ite, and_iff_left fun _ => Exit.lives_done]
  refine forall_congr' fun hcmd => announce_lives ?_
  have hcmds : ∀ cmd ∈ [Command.update, .save],
      cmd ∈ [Command.save, .update, .notifyUpdate, .notifyDelete, .del, .copy] := by decide
  exact hcmds _ hcmd

/-- **Step lemma.** In a state with its pointers in order, no assertion fails exactly under the
condition. -/
theorem outcome_lives {s : State} {e : Event} (hs : s.Pointed) :
    (outcome s e).Lives ↔ Survives s e := by
  cases e with
  | config maxHops => exact iff_of_true Exit.lives_done trivial
  | kernel inp fresh =>
    exact whenConfigured_lives.trans (forall_congr' fun _ => processKernelInput_lives hs)
  | backup inp fresh =>
    exact whenConfigured_lives.trans (forall_congr' fun _ => backup_lives)
  | storage inp =>
    refine whenConfigured_lives.trans (forall_congr' fun _ => ?_)
    refine Exit.lives_ite_congr handleStorageDataTransfer_lives ?_
    rw [Exit.lives_ite, and_iff_left fun _ => Exit.lives_done]
    exact forall_congr' fun _ => handleRefuse_lives
  | storageWriter inp =>
    refine whenConfigured_lives.trans (forall_congr' fun _ => ?_)
    rw [processStorageWriterInput, Exit.lives_ite, and_iff_left fun _ => Exit.lives_done]
    exact forall_congr' fun _ => handleStorageDataTransfer_lives
  | link inp fresh =>
    refine Exit.lives_ite_congr handleLinkNack_lives ?_
    rw [Exit.lives_ite, and_iff_left fun _ => ?_]
    · refine forall_congr' fun _ => ?_
      exact handleRouterData_lives hs.toKeyed (decoded_nameTender _ inp fresh)
        (nameTender_tenderId _ fresh)
    · exact Exit.lives_ite.mpr ⟨fun _ => Exit.lives_done, fun _ => Exit.lives_done⟩
  | timeout p => exact handleExpiredTenders_lives hs

/-- **The router survives** a run of inputs exactly when each of them meets the condition. -/
theorem survives_iff (es : List Event) :
    (Run.run step init es).isSome ↔ Run.Along step Survives init es :=
  Run.isSome_run_iff (fun s => s.Pointed) (fun _ _ _ => pointed_step)
    (fun _ _ hs => Exit.isSome_state.trans (outcome_lives hs)) pointed_init

/-- A message with the command `max_command` ends the node. -/
theorem not_survives : ¬ ∀ (es : List Event) (inp : LinkInput) (fresh : RandomUUID),
    ∀ s ∈ Run.run step init es, (step s (.link inp fresh)).isSome := by
  intro h
  have hsome := h [] ⟨.receivedData, {1}, ⟨RouterData.serialize { RouterData.new with
    tenderId := 9, cmd := .maxCommand } .empty, []⟩⟩ ⟨6, by decide⟩ init rfl
  revert hsome
  decide +kernel

end Router

end Metax
