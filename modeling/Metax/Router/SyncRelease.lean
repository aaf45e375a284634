import Metax.Router.TenderTables

/-!
# How the router releases the kernel

While the node synchronizes, the kernel refuses get requests. It is released by the message
`sync_finished`, which the router sends when the last tender goes out of `m_sync_tenders`: that
happens in one place only, and a step that leaves the table empty has sent the message
(`step_releases`).

The table is emptied by the clean-up of tenders, and a tender is cleaned up when it expires, if the
timeline has a pointer to it. `SyncTimed` says that it has; a synchronization whose first message is
malformed breaks it, and nothing else does (`syncTimed_step`).
-/

namespace Metax

namespace Router

open Exit (assert)

/-! ### The message -/

/-- The kernel is told that the synchronizations are finished. -/
def Emission.IsRelease : Emission → Prop
  | .kernel p => p.cmd = .syncFinished
  | _ => False

instance (m : Emission) : Decidable m.IsRelease :=
  match m with
  | .kernel p => inferInstanceAs (Decidable (p.cmd = .syncFinished))
  | .link _ => .isFalse id
  | .notification _ _ => .isFalse id

/-- A synchronization is going on, or the kernel has been told that none is. -/
def Releases (s : State) : Prop := s.syncTenders.entries ≠ [] ∨ ∃ m ∈ s.out, m.IsRelease

/-- However the handler ends. -/
abbrev EndsReleasing (o : Outcome) : Prop := o.Ends Releases Releases

section Primitives

variable {s : State} {o : Outcome} {f : State → Outcome}

/-- A message that was sent stays sent. -/
theorem Releases.emit (h : Releases s) (m : Emission) : Releases (s.emit m) := by
  rcases h with h | ⟨m', hm', hrelease⟩
  · exact .inl h
  · exact .inr ⟨m', List.mem_append_left _ hm', hrelease⟩

/-- The same for a message to each of several peers. -/
theorem Releases.foldl_emit {α : Type} (f : α → Emission) (l : List α) (h : Releases s) :
    Releases (l.foldl (fun s a => s.emit (f a)) s) := by
  induction l generalizing s with
  | nil => exact h
  | cons a l ih => exact ih (h.emit (f a))

/-- A stored tender leaves the table with an entry. -/
theorem Releases.assign (h : Releases s) (p : Pointer) (t : Tender) : Releases (s.assign p t) := by
  cases p with
  | tender i => exact h
  | syncTender i =>
    refine .inl fun hempty => ?_
    have hlookup : (s.syncTenders.insert i t).lookup i = some t := AList.lookup_insert _
    have hmem : (s.syncTenders.insert i t).entries = [] := hempty
    rw [AList.lookup, hmem] at hlookup
    cases hlookup

/-- The other containers have no part in it. -/
theorem Releases.enter (h : Releases s) (p : Pointer) (rid : ID32) (i : UUID) :
    Releases (s.enter p rid i) := h

/-- Two handlers in turn, if the second one keeps the property. -/
theorem endsReleasing_andThen (ho : EndsReleasing o) (hf : ∀ s, Releases s → EndsReleasing (f s)) :
    EndsReleasing (o.andThen f) :=
  Exit.ends_andThen.mpr (ho.mono hf fun _ h => h)

/-- An assertion that fails ends the node, and there is nothing to show. -/
theorem endsReleasing_assert {c : Prop} [Decidable c] (ho : EndsReleasing o) :
    EndsReleasing (assert c o) :=
  Exit.ends_assert.mpr fun _ => ho

/-- Both branches have to release. -/
theorem endsReleasing_ite {c : Prop} [Decidable c] {o' : Outcome} (ho : EndsReleasing o)
    (ho' : EndsReleasing o') : EndsReleasing (if c then o else o') :=
  Exit.ends_ite.mpr ⟨fun _ => ho, fun _ => ho'⟩

end Primitives

section Handlers

variable {s : State}

/-! ### The handlers of the kernel and the storages -/

/-- An announcement stores a tender and sends a message, and neither loses an entry. -/
theorem announce_releases (h : Releases s) (cmds : List Command)
    (copyFields : KernelPackage → Tender → Tender) (inp : KernelPackage) (fresh : RandomUUID) :
    EndsReleasing (announce cmds copyFields s inp fresh) :=
  endsReleasing_assert (endsReleasing_assert (endsReleasing_assert
    (((h.assign _ _).enter _ _ _).emit _)))

/-- A handler behind a look-up of its tender: without one it does nothing. -/
theorem withTender_releases {k : ID32} {f : UUID → Tender → Outcome} (h : Releases s)
    (hf : ∀ i t, EndsReleasing (f i t)) : EndsReleasing (withTender s k f) := by
  unfold withTender
  split
  · exact h
  · split
    · exact h
    · exact hf _ _

/-- The same for the tenders of synchronizations. -/
theorem withSyncTender_releases {k : ID32} {f : UUID → Tender → Outcome} (h : Releases s)
    (hf : ∀ i t, EndsReleasing (f i t)) : EndsReleasing (withSyncTender s k f) := by
  unfold withSyncTender
  split
  · exact h
  · split
    · exact h
    · exact hf _ _

/-- Sending data only adds a message. -/
theorem sendTenderData_releases (h : Releases s) (t : Tender) (cmd : Command) (p : Payload) :
    EndsReleasing (sendTenderData s t cmd p) :=
  sendTenderData_ends fun _ l => h.emit (.link l)

/-- So does a message to the peer of a synchronization. -/
theorem postSyncRequestToLinkPeer_releases (h : Releases s) (t : Tender) (cmd : Command) :
    EndsReleasing (postSyncRequestToLinkPeer s t cmd) :=
  postSyncRequestToLinkPeer_ends fun l => h.emit (.link l)

/-- **The one place where the table loses an entry.** -/
theorem cleanUpSyncTenderInfo_releases (h : Releases s) (p : Pointer) (t : Tender) :
    EndsReleasing (cleanUpSyncTenderInfo s p t) := by
  refine endsReleasing_assert (endsReleasing_andThen (endsReleasing_assert h) fun s _ => ?_)
  refine Exit.ends_ite.mpr ⟨fun _ => .inr ?_, fun hsome => .inl hsome⟩
  exact ⟨_, List.mem_append_right _ (List.mem_singleton_self _), rfl⟩

/-- The clean-up of another tender does not touch `m_sync_tenders`. -/
theorem cleanUpTenderInfo_releases (h : Releases s) (p : Pointer) (t : Tender) :
    EndsReleasing (cleanUpTenderInfo s p t) :=
  endsReleasing_andThen (endsReleasing_assert h) fun _ hs => hs

/-- Canceling a request only adds a message. -/
theorem cancelRequest_releases (h : Releases s) (k : ID32) : Releases (cancelRequest s k) := by
  unfold cancelRequest
  split_ifs
  · exact h
  · exact h.emit _

/-- Either clean-up releases, with or without the message to the kernel after it. -/
theorem cleanUpTender_releases (h : Releases s) (p : Pointer) (t : Tender) :
    EndsReleasing (cleanUpTender s p t) := by
  refine endsReleasing_andThen (endsReleasing_ite (cleanUpSyncTenderInfo_releases h p t)
    (cleanUpTenderInfo_releases h p t)) fun s hs => ?_
  rw [EndsReleasing, Exit.ends_done]
  split_ifs
  · exact hs
  · exact cancelRequest_releases hs _

/-- The handlers of the kernel, in the order of `process_kernel_input`; each stores a tender or
sends messages. -/
theorem handleKernelDataTransfer_releases (h : Releases s) (inp : KernelPackage) :
    EndsReleasing (handleKernelDataTransfer s inp) :=
  withTender_releases h fun _ _ =>
    endsReleasing_assert (sendTenderData_releases (h.assign _ _) _ _ _)

theorem handleStorageDataTransfer_releases (h : Releases s) (inp : StoragePackage) :
    EndsReleasing (handleStorageDataTransfer s inp) :=
  withTender_releases h fun _ _ =>
    endsReleasing_assert (sendTenderData_releases (h.assign _ _) _ _ _)

theorem handleKernelOffer_releases (h : Releases s) (inp : KernelPackage) :
    EndsReleasing (handleKernelOffer s inp) := by
  refine withTender_releases h fun i t =>
    endsReleasing_ite ?_ (handleKernelDataTransfer_releases h inp)
  exact endsReleasing_ite h (endsReleasing_assert (h.assign (.tender i) _))

theorem handleKernelAcceptForMultiwinnerTender_releases (h : Releases s) (inp : KernelPackage) :
    EndsReleasing (handleKernelAcceptForMultiwinnerTender s inp) := by
  refine withTender_releases h fun i t =>
    endsReleasing_ite ?_ (handleKernelDataTransfer_releases h inp)
  refine endsReleasing_ite h (endsReleasing_assert ?_)
  exact (h.assign (.tender i) _).foldl_emit _ _

theorem handleKernelConfirmForMultiwinnerTender_releases (h : Releases s) (inp : KernelPackage) :
    EndsReleasing (handleKernelConfirmForMultiwinnerTender s inp) :=
  withTender_releases h fun _ _ =>
    endsReleasing_assert (sendTenderData_releases (h.assign _ _) _ _ _)

theorem handleSyncDataTransfer_releases (h : Releases s) (inp : KernelPackage) :
    EndsReleasing (handleSyncDataTransfer s inp) := by
  refine withSyncTender_releases h fun i t => endsReleasing_andThen ?_ fun s hs => ?_
  · exact endsReleasing_ite (postSyncRequestToLinkPeer_releases h t _) h
  · exact sendTenderData_releases hs t _ _

theorem handleKernelGetUuidRequest_releases (h : Releases s) (inp : KernelPackage) :
    EndsReleasing (handleKernelGetUuidRequest s inp) :=
  withTender_releases h fun _ _ => sendTenderData_releases (h.assign _ _) _ _ _

/-- The one that cleans a synchronization up: two messages to the peer and the clean-up. -/
theorem handleKernelSyncFinished_releases (h : Releases s) (inp : KernelPackage) :
    EndsReleasing (handleKernelSyncFinished s inp) := by
  refine withSyncTender_releases h fun i t => ?_
  refine endsReleasing_andThen (postSyncRequestToLinkPeer_releases h t _) fun s hs => ?_
  refine endsReleasing_andThen (sendTenderData_releases hs t _ _) fun s hs => ?_
  exact cleanUpSyncTenderInfo_releases hs _ t

theorem handleKernelClearRequest_releases (h : Releases s) (inp : KernelPackage) :
    EndsReleasing (handleKernelClearRequest s inp) := by
  unfold handleKernelClearRequest
  split
  · exact h
  · split
    · trivial
    · exact h.assign (.tender _) _

theorem broadcastTenderToPeers_releases (h : Releases s) (i : UUID) (t : Tender) (p : Payload) :
    EndsReleasing (broadcastTenderToPeers s i t p) :=
  endsReleasing_assert (endsReleasing_assert ((h.emit _).assign (.tender i) _))

/-- A refused tender is cleaned up, or announced to the other peers. -/
theorem handleRefuse_releases (h : Releases s) (k : ID32) (p : Payload) :
    EndsReleasing (handleRefuse s k p) := by
  refine withTender_releases h fun i t => endsReleasing_ite (cleanUpTender_releases h _ t) ?_
  exact endsReleasing_andThen (broadcastTenderToPeers_releases h i t p) fun _ hs => hs

/-- Every package of the kernel. -/
theorem processKernelInput_releases (h : Releases s) (inp : KernelPackage) (fresh : RandomUUID) :
    EndsReleasing (processKernelInput s inp fresh) := by
  unfold processKernelInput
  refine endsReleasing_ite (announce_releases h _ _ inp fresh) ?_
  refine endsReleasing_ite (announce_releases h _ _ inp fresh) ?_
  refine endsReleasing_ite (announce_releases h _ _ inp fresh) ?_
  refine endsReleasing_ite (announce_releases h _ _ inp fresh) ?_
  refine endsReleasing_ite (announce_releases h _ _ inp fresh) ?_
  refine endsReleasing_ite (announce_releases h _ _ inp fresh) ?_
  refine endsReleasing_ite (announce_releases h _ _ inp fresh) ?_
  refine endsReleasing_ite (announce_releases h _ _ inp fresh) ?_
  refine endsReleasing_ite (handleRefuse_releases h _ _) ?_
  refine endsReleasing_ite (handleKernelClearRequest_releases h inp) ?_
  refine endsReleasing_ite (handleKernelOffer_releases h inp) ?_
  refine endsReleasing_ite (handleKernelAcceptForMultiwinnerTender_releases h inp) ?_
  refine endsReleasing_ite (handleKernelConfirmForMultiwinnerTender_releases h inp) ?_
  refine endsReleasing_ite (handleSyncDataTransfer_releases h inp) ?_
  refine endsReleasing_ite (handleKernelSyncFinished_releases h inp) ?_
  refine endsReleasing_ite (handleKernelGetUuidRequest_releases h inp) ?_
  exact endsReleasing_ite (handleKernelDataTransfer_releases h inp) h

/-! ### The handlers of the link -/

variable {inp : LinkInput}

/-- The handlers of the link: a new tender is a message for the kernel, if its payload can be read.
-/
theorem postNewTenderToKernel_releases (h : Releases s) (k : ID32) :
    EndsReleasing (postNewTenderToKernel s inp k) :=
  postNewTenderToKernel_ends (fun p => h.emit (.kernel p)) fun _ => h

/-- Its tender is stored first, which is an entry more. -/
theorem processNewTender_releases (h : Releases s) (p : Pointer) :
    EndsReleasing (processNewTender s p inp) := by
  refine endsReleasing_andThen (postNewTenderToKernel_releases ?_ _) fun _ hs => hs
  exact h.assign p _

theorem forwardRemoteTender_releases (h : Releases s) (t : Tender) :
    EndsReleasing (forwardRemoteTender s t inp) :=
  forwardRemoteTender_ends (fun l => h.emit (.link l)) h

/-- The kernel gets an announcement and the other peers do, or nobody. -/
theorem handleNewRemoteTender_releases (h : Releases s) :
    EndsReleasing (handleNewRemoteTender s inp) := by
  refine endsReleasing_assert (endsReleasing_assert (endsReleasing_assert ?_))
  refine endsReleasing_ite h (endsReleasing_andThen (processNewTender_releases h _) fun s' hs => ?_)
  exact endsReleasing_ite (forwardRemoteTender_releases hs _) hs

/-- A response is a message for the kernel and a counter in its tender. -/
theorem sendResponseToKernel_releases (h : Releases s) :
    EndsReleasing (sendResponseToKernel s inp) := by
  unfold sendResponseToKernel
  dsimp only
  split
  · exact h
  · split
    · trivial
    · refine endsReleasing_ite h (endsReleasing_assert (endsReleasing_assert ?_))
      exact (h.emit _).assign (.tender _) _

/-- One for another node is a message on the link. -/
theorem bypassTenderResponse_releases (h : Releases s) :
    EndsReleasing (bypassTenderResponse s inp) := by
  unfold bypassTenderResponse
  dsimp only
  split
  · trivial
  · exact endsReleasing_assert ((h.emit _).assign (.tender _) _)

theorem processExistingTenderData_releases (h : Releases s) (t : Tender) :
    EndsReleasing (processExistingTenderData s t inp) := by
  refine endsReleasing_ite h ?_
  cases t.typ with
  | internal => exact sendResponseToKernel_releases h
  | remote =>
    exact endsReleasing_ite (sendResponseToKernel_releases h) (bypassTenderResponse_releases h)

/-- A response for a known tender; the clean-up in it is that of an ordinary tender. -/
theorem processExistingTender_releases (h : Releases s) (t : Tender) :
    EndsReleasing (processExistingTender s t inp) := by
  refine endsReleasing_assert (endsReleasing_assert (endsReleasing_ite h ?_))
  exact endsReleasing_ite (cleanUpTenderInfo_releases h _ t)
    (processExistingTenderData_releases h t)

/-- A message of a synchronization stores its tender, known or not. -/
theorem handleSyncTenders_releases (h : Releases s) : EndsReleasing (handleSyncTenders s inp) := by
  refine endsReleasing_andThen ?_ fun _ hs => hs
  split
  · refine endsReleasing_ite h (endsReleasing_assert (endsReleasing_assert ?_))
    exact processNewTender_releases h _
  · exact postNewTenderToKernel_releases (h.assign (.syncTender _) _) _

/-- Every message that has a tender. -/
theorem handleRouterData_releases (h : Releases s) : EndsReleasing (handleRouterData s inp) := by
  refine endsReleasing_ite (handleSyncTenders_releases h) ?_
  refine endsReleasing_assert (endsReleasing_assert (endsReleasing_andThen ?_ fun _ hs => hs))
  split
  · exact handleNewRemoteTender_releases h
  · exact processExistingTender_releases h _

/-- A request the link could not deliver is cleaned up. -/
theorem handleLinkNack_releases (h : Releases s) : EndsReleasing (handleLinkNack s inp) := by
  refine endsReleasing_assert ?_
  split
  · exact h
  · exact cleanUpTender_releases (s := s.extractHeader inp) h _ _

/-- Every package of the link. -/
theorem processLinkInput_releases (h : Releases s) (fresh : RandomUUID) :
    EndsReleasing (processLinkInput s inp fresh) := by
  refine endsReleasing_ite (handleLinkNack_releases h) (endsReleasing_ite ?_ ?_)
  · exact handleRouterData_releases (s := (s.extractHeader inp).nameTender fresh) h
  · exact endsReleasing_ite (h.emit _) h

/-! ### Every step -/

/-- An expired synchronization tells its peer and is cleaned up. -/
theorem handleExpiredTenders_releases (h : Releases s) (p : Pointer) :
    EndsReleasing (handleExpiredTenders s p) := by
  refine endsReleasing_ite ?_ h
  split
  · trivial
  · rename_i t ht
    refine endsReleasing_ite ?_ (cleanUpTender_releases
      (s := { s with responses := s.responses.erase t.tenderId }) h p t)
    refine endsReleasing_andThen (postSyncRequestToLinkPeer_releases ?_ t _) fun s hs => ?_
    · split_ifs
      · exact h
      · exact cancelRequest_releases h _
    · exact cleanUpSyncTenderInfo_releases hs p t

/-- Every event. -/
theorem perform_releases (h : Releases s) (e : Event) : EndsReleasing (perform s e) := by
  cases e with
  | config maxHops => exact h
  | kernel inp fresh => exact endsReleasing_ite (processKernelInput_releases h inp fresh) h
  | backup inp fresh =>
    exact endsReleasing_ite (endsReleasing_ite (announce_releases h _ _ inp fresh) h) h
  | storage inp =>
    refine endsReleasing_ite (endsReleasing_ite (handleStorageDataTransfer_releases h inp) ?_) h
    exact endsReleasing_ite (handleRefuse_releases h _ _) h
  | storageWriter inp =>
    exact endsReleasing_ite (endsReleasing_ite (handleStorageDataTransfer_releases h inp) h) h
  | link inp fresh => exact processLinkInput_releases h fresh
  | timeout p => exact handleExpiredTenders_releases h p

/-- **The release.** A step that leaves no synchronization where there was one tells the kernel. -/
theorem step_releases {s' : State} {e : Event} (h : step s e = some s')
    (hsome : s.syncTenders.entries ≠ []) : Releases s' :=
  (perform_releases (s := { s with out := [] }) (.inl hsome) e).of_state h

end Handlers

/-! ### Synchronizations expire -/

/-- Every synchronization is stored under its tender's id. -/
structure Tables.SyncKeyed (T : Tables) : Prop extends T.Keyed where
  named : ∀ i t, T.syncTenders.lookup i = some t → t.tenderId = i

/-- Every synchronization has a pointer in the timeline, so it expires. -/
def Tables.SyncTimed (T : Tables) : Prop :=
  Ledger.All (fun i _ => .syncTender i ∈ T.timeline) T.syncTenders

instance (T : Tables) : Decidable T.SyncTimed :=
  inferInstanceAs (Decidable (Ledger.All (fun i _ => .syncTender i ∈ T.timeline) T.syncTenders))

/-- The first message of a synchronization has a payload. -/
def SyncOpens (s : State) (e : Event) : Prop :=
  match e with
  | .link inp fresh =>
    inp.cmd = .receivedData → isSyncCommand (s.message (.link inp fresh)).cmd →
      s.syncTenders.lookup (s.message (.link inp fresh)).tenderId = none →
        (inp.package.payload (s.message (.link inp fresh)).headerSize).isOk
  | _ => True

/-- A tender that is not stored. -/
def decidableNotStored (s : State) (i : UUID) : Decidable (s.syncTenders.lookup i = none) :=
  decidable_of_iff ((s.syncTenders.lookup i).isNone = true) Option.isNone_iff_eq_none

instance (s : State) (e : Event) : Decidable (SyncOpens s e) :=
  match e with
  | .link inp fresh =>
    have := decidableNotStored s (s.message (.link inp fresh)).tenderId
    inferInstanceAs (Decidable (inp.cmd = .receivedData →
      isSyncCommand (s.message (.link inp fresh)).cmd →
        s.syncTenders.lookup (s.message (.link inp fresh)).tenderId = none →
          (inp.package.payload (s.message (.link inp fresh)).headerSize).isOk))
  | .config _ => .isTrue trivial
  | .kernel _ _ => .isTrue trivial
  | .backup _ _ => .isTrue trivial
  | .storage _ => .isTrue trivial
  | .storageWriter _ => .isTrue trivial
  | .timeout _ => .isTrue trivial

/-- A step keeps synchronizations under their ids. -/
theorem Change.syncKeyed {s : State} {e : Event} {T' : Tables}
    (h : Change s.toTables s.maxHops s.requestCounter (s.message e) e T') (hs : s.SyncKeyed) :
    T'.SyncKeyed := by
  refine ⟨h.keyed hs.toKeyed, ?_⟩
  -- a synchronization that is stored under its id
  have hinsert : ∀ {j : UUID} {t : Tender}, t.tenderId = j →
      ∀ i t', (s.syncTenders.insert j t).lookup i = some t' → t'.tenderId = i := by
    intro j t hkey i t' ht'
    obtain ⟨rfl, rfl⟩ | ⟨-, ht'⟩ := Ledger.eq_or_of_lookup_insert ht'
    · exact hkey
    · exact hs.named i t' ht'
  cases h with
  | none | announced | updated | refused => exact hs.named
  | opened p inp fresh t he hin ht hd hne hkey hcmd hvalid hnew =>
    cases p with
    | tender j => exact hs.named
    | syncTender j => exact hinsert hkey
  | orphaned p inp fresh t he hin ht hd hne hkey hcmd hvalid hnew hbad =>
    cases p with
    | tender j => exact hs.named
    | syncTender j => exact hinsert hkey
  | resynced j t ht => exact hinsert (t := { t with st := .confirmed }) (hs.named j t ht)
  | removed p t ht hp hcmd =>
    cases p with
    | tender j => exact hs.named
    | syncTender j => exact fun i t' ht' => hs.named i t' (Ledger.of_lookup_erase ht').2

/-- A step keeps every synchronization in the timeline, unless its first message is malformed. -/
theorem Change.syncTimed {s : State} {e : Event} {T' : Tables}
    (h : Change s.toTables s.maxHops s.requestCounter (s.message e) e T') (hkeyed : s.SyncKeyed)
    (hs : s.SyncTimed) (hok : SyncOpens s e) : T'.SyncTimed := by
  have htimed := Ledger.all_iff.mp hs
  refine Ledger.all_iff.mpr ?_
  cases h with
  | none => exact htimed
  | announced inp fresh t he ht hid hnew =>
    exact fun i t' ht' => List.mem_append_left _ (htimed i t' ht')
  | opened p inp fresh t he hin ht hd hne hkey hcmd hvalid hnew =>
    intro i t' ht'
    cases p with
    | tender j => exact List.mem_append_left _ (htimed i t' ht')
    | syncTender j =>
      have ht'' : (s.syncTenders.insert j t).lookup i = some t' := ht'
      obtain ⟨hij, rfl⟩ | ⟨hij, ht''⟩ := Ledger.eq_or_of_lookup_insert ht''
      · rw [hij]
        exact List.mem_append_right _ (List.mem_singleton_self _)
      · exact List.mem_append_left _ (htimed i t' ht'')
  | orphaned p inp fresh t he hin ht hd hne hkey hcmd hvalid hnew hbad =>
    cases p with
    | tender j => exact htimed
    | syncTender j =>
      -- excluded: the message opens a synchronization, so its payload parses
      subst he
      have hpayload : (inp.package.payload (s.message (.link inp fresh)).headerSize).isOk := by
        refine hok hin ?_ ?_
        · rw [← hd]
          exact hcmd
        · rw [← hd, hkey]
          exact hnew
      cases hp : inp.package.payload (s.message (.link inp fresh)).headerSize with
      | error x =>
        rw [hp] at hpayload
        cases hpayload
      | ok q => exact absurd hp (hbad q)
  | updated i t t' ht h => exact htimed
  | resynced j t ht =>
    intro i t' ht'
    have ht'' : (s.syncTenders.insert j { t with st := .confirmed }).lookup i = some t' := ht'
    obtain ⟨hij, rfl⟩ | ⟨hij, ht''⟩ := Ledger.eq_or_of_lookup_insert ht''
    · rw [hij]
      exact htimed j t ht
    · exact htimed i t' ht''
  | removed p t ht hp hcmd =>
    intro i t' ht'
    cases p with
    | tender j =>
      have hne : Pointer.syncTender i ≠ .tender j := by
        intro hp
        cases hp
      exact (List.mem_erase_of_ne hne).mpr (htimed i t' ht')
    | syncTender j =>
      have hj : t.tenderId = j := hkeyed.named j t ht
      have ht'' : (s.syncTenders.erase t.tenderId).lookup i = some t' := ht'
      rw [hj] at ht''
      obtain ⟨hij, ht''⟩ := Ledger.of_lookup_erase ht''
      refine (List.mem_erase_of_ne ?_).mpr (htimed i t' ht'')
      rw [Ne, Pointer.syncTender.injEq]
      exact hij
  | refused k i t he hid ht htyp hprs hhop => exact htimed

/-- **Step lemma** on the ids. -/
theorem syncKeyed_step {s s' : State} {e : Event} (hs : s.SyncKeyed)
    (hstep : step s e = some s') : s'.SyncKeyed :=
  (step_change hs.toKeyed hstep).syncKeyed hs

/-- **Step lemma** on the timeline. -/
theorem syncTimed_step {s s' : State} {e : Event} (hkeyed : s.SyncKeyed) (hs : s.SyncTimed)
    (hok : SyncOpens s e) (hstep : step s e = some s') : s'.SyncTimed :=
  (step_change hkeyed.toKeyed hstep).syncTimed hkeyed hs hok

/-- A router starts without tenders. -/
theorem syncKeyed_init : init.SyncKeyed := ⟨keyed_init, fun i t ht => by cases ht⟩

end Router

end Metax
