import Metax.Router.Change

/-!
# What one step sends

`Sent` lists what the router hands to the link, with where it comes from: a request of its own,
data of its own for a peer, an announcement passed on, an answer passed back. Every emission of a
step is one of these (`step_sent`), and apart from `m_router_data` and the containers a step
leaves the router as it is.

The kinds of emissions say as much about the tender they are sent for as the network has to know
later: that it is stored, under which request, for how many hops, and where it came from. Messages
to the kernel and notifications are listed without any of this.
-/

namespace Metax

namespace Router

open Exit (assert)

/-- An event that does not come from the link and does not configure the router. -/
def Event.IsLocal : Event → Prop
  | .config _ => False
  | .link _ _ => False
  | _ => True

/-- A local event that is no refusal. -/
def Event.IsOwn (e : Event) : Prop := e.IsLocal ∧ e.refused = none

/-- The request an event may send data for. -/
def Event.request : Event → Option ID32
  | .kernel inp _ => if inp.cmd ∈ [.refuse, .clearRequest] then none else some inp.requestId
  | .storage inp => some inp.requestId
  | .storageWriter inp => some inp.requestId
  | _ => none

/-- A local event is not a message. -/
theorem Event.IsLocal.ne_link {e : Event} (h : e.IsLocal) (inp : LinkInput) (fresh : RandomUUID) :
    e ≠ .link inp fresh := by
  rintro rfl
  exact h

/-- Where an emission of a step comes from. -/
inductive Sent (T : Tables) (maxHops : UInt16) (d : RouterData) (e : Event) : Emission → Prop
  /-- A request of the kernel is announced. -/
  | announced (inp : KernelPackage) (fresh : RandomUUID) (t : Tender)
      (he : e = .kernel inp fresh ∨ e = .backup inp fresh) (ht : t.Announced maxHops inp fresh) :
      Sent T maxHops d e (.link (t.link .broadcast ∅ inp.payload))
  /-- The kernel or a storage sends data for a stored tender. -/
  | transferred (p : Pointer) (t : Tender) (ht : T.deref p = some t) (hprs : t.prs.Nonempty)
      (he : e.IsOwn) (k : ID32) (hrequest : e.request = some k)
      (hk : T.idTenders.lookup k = some p.id) (d' : RouterData) (hid : d'.tenderId = t.tenderId)
      (hwinners : d'.winnersId = []) (q : Payload) : Sent T maxHops d e
        (.link ⟨.send, {t.prs.min' hprs}, 0, false, d'.serialize q⟩)
  /-- The kernel sends data to the winners of a tender. -/
  | accepted (i : UUID) (t : Tender) (ht : T.tenders.lookup i = some t) (hwinners : t.winners ≠ [])
      (l : LinkPackage) : Sent T maxHops d e (.link l)
  /-- The link is told about a synchronization. -/
  | synchronized (cmd : Command) (hcmd : cmd ∈ [.syncStarted, .syncFinished]) (he : e.IsOwn)
      (peers : Finset ID32) :
      Sent T maxHops d e (.link ⟨cmd, peers, 0, false, []⟩)
  /-- The kernel refused an announcement, which goes on through the network. -/
  | refused (k : ID32) (i : UUID) (t : Tender) (he : e.refused = some k)
      (hid : T.idTenders.lookup k = some i) (ht : T.tenders.lookup i = some t)
      (htyp : t.typ = .remote) (hhop : t.hopId ≠ 1)
      (hprs : t.prs.card = 1) (q : Payload) :
      Sent T maxHops d e (.link (t.link .broadcastExcept t.prs q))
  /-- An announcement is passed on while the kernel works on it. -/
  | forwarded (inp : LinkInput) (fresh : RandomUUID) (t : Tender) (he : e = .link inp fresh)
      (hin : inp.cmd = .receivedData) (hd : t.toRouterData = d) (hpeers : t.prs = inp.peers)
      (hmulti : isFirstCommandOfMultiwinnerTender d.cmd) (hhop : d.hopId ≠ 1)
      (hnew : T.tenders.lookup d.tenderId = none) (hprs : inp.peers.card = 1) (q : Payload)
      (hq : inp.package.payload d.headerSize = .ok q) :
      Sent T maxHops d e (.link (t.link .broadcastExcept t.prs q))
  /-- A message is passed on to the peers its tender came from. -/
  | bypassed (inp : LinkInput) (fresh : RandomUUID) (t : Tender) (he : e = .link inp fresh)
      (hin : inp.cmd = .receivedData) (ht : T.tenders.lookup inp.header.tenderId = some t)
      (hsync : isOwnSyncTender inp.header.cmd = false)
      (hdup : isKnownAnnouncement inp.header.cmd = false)
      (hfinished : inp.header.cmd ≠ .syncFinished)
      (hopen : t.isCanceled = false) (htyp : t.typ = .remote)
      (hfor : ¬ (inp.header.cmd ∈ [.livestreamContent, .sendToPeer, .cancelLivestreamGet] ∧
        t.st = .confirmed ∨ inp.header.cmd = .sendUuids))
      (hrid : t.requestId = noRequest ∨ isFirstCommandOfMultiwinnerTender t.cmd) :
      Sent T maxHops d e (.link ⟨.send, t.prs, 0, false,
        RouterData.updateHopId inp.package.message (inp.header.hopId - 1)⟩)
  | kernel (p : KernelPackage) : Sent T maxHops d e (.kernel p)
  | notification (cmd : Command) (message : Bytes) : Sent T maxHops d e (.notification cmd message)

/-- What the handlers leave alone, and what they send. -/
structure Effect (T : Tables) (maxHops : UInt16) (d : RouterData) (e : Event) (s s' : State) :
    Prop where
  out : ∀ m ∈ s'.out, m ∈ s.out ∨ Sent T maxHops d e m
  maxHops : s'.maxHops = s.maxHops
  isConfigured : s'.isConfigured = s.isConfigured
  routerData : s'.routerData = s.routerData

/-- A handler that ends, normally or not, with these effects. -/
abbrev Effects (T : Tables) (maxHops : UInt16) (d : RouterData) (e : Event) (s : State)
    (o : Outcome) : Prop :=
  o.Ends (Effect T maxHops d e s) (Effect T maxHops d e s)

section Effect

variable {T : Tables} {maxHops : UInt16} {d : RouterData} {e : Event} {s s' s'' : State}

/-- To do nothing has no effect. -/
theorem Effect.refl (s : State) : Effect T maxHops d e s s :=
  ⟨fun _ h => .inl h, rfl, rfl, rfl⟩

/-- One emission more, of a listed kind. -/
theorem Effect.emit {m : Emission} (h : Effect T maxHops d e s s') (hm : Sent T maxHops d e m) :
    Effect T maxHops d e s (s'.emit m) where
  out m' hm' := by
    rcases List.mem_append.mp hm' with hm' | hm'
    · exact h.out m' hm'
    · obtain rfl := List.mem_singleton.mp hm'
      exact .inr hm
  maxHops := h.maxHops
  isConfigured := h.isConfigured
  routerData := h.routerData

/-- Writing to the containers has no other effect. -/
theorem Effect.tables (h : Effect T maxHops d e s s') (T' : Tables) :
    Effect T maxHops d e s { s' with toTables := T' } :=
  ⟨h.out, h.maxHops, h.isConfigured, h.routerData⟩

/-- Two handlers in turn: the second one goes on from the effects of the first. -/
theorem Effects.andThen {o : Outcome} {f : State → Outcome} (h : Effects T maxHops d e s o)
    (hf : ∀ s', Effect T maxHops d e s s' → Effects T maxHops d e s (f s')) :
    Effects T maxHops d e s (o.andThen f) :=
  Exit.ends_andThen.mpr (h.mono hf fun _ h => h)

end Effect

/-! ### The handlers of the kernel and the storages -/

section Kernel

variable {s : State} {d : RouterData} {e : Event}

/-- An announcement is the only emission of its handler. -/
theorem announce_effects {cmds : List Command} {copyFields : KernelPackage → Tender → Tender}
    {inp : KernelPackage} {fresh : RandomUUID} (he : e = .kernel inp fresh ∨ e = .backup inp fresh)
    (hcmds : ∀ cmd ∈ cmds, isInvalidNewTender cmd = false)
    (hcopy : ∀ t, t.Announced s.maxHops inp fresh →
      (copyFields inp t).Announced s.maxHops inp fresh) :
    Effects s.toTables s.maxHops d e s (announce cmds copyFields s inp fresh) := by
  simp only [Effects, announce, Exit.ends_assert, Exit.ends_done]
  intro hcmd hid hnew
  refine (Effect.tables (.refl s) _).emit (.announced inp fresh _ he (hcopy _ ?_))
  constructor <;> first | rfl | exact hcmds _ hcmd

/-- The tender that is sent for is the stored one, which the kinds of emissions refer to. -/
theorem withTender_effects {k : ID32} {f : UUID → Tender → Outcome}
    (h : ∀ i t, s.idTenders.lookup k = some i → s.tenders.lookup i = some t →
      Effects s.toTables s.maxHops d e s (f i t)) :
    Effects s.toTables s.maxHops d e s (withTender s k f) := by
  unfold withTender
  split
  · exact Effect.refl s
  · rename_i i hid
    split
    · exact Effect.refl s
    · rename_i t ht
      exact h i t hid ht

/-- Data goes to the first peer of the tender as it is stored. -/
theorem sendTenderData_effects {s' : State} {p : Pointer} {t t' : Tender} {cmd : Command}
    {q : Payload} (h : Effect s.toTables s.maxHops d e s s') (he : e.IsOwn) {k : ID32}
    (hrequest : e.request = some k) (hk : s.idTenders.lookup k = some p.id)
    (ht : s.deref p = some t) (hkey : t'.tenderId = t.tenderId) (hprs : t'.prs = t.prs) :
    Effects s.toTables s.maxHops d e s (sendTenderData s' t' cmd q) := by
  unfold sendTenderData
  split_ifs with hne
  · have hne' : t.prs.Nonempty := hprs ▸ hne
    have hmin : t'.prs.min' hne = t.prs.min' hne' := by congr
    refine h.emit ?_
    rw [hmin]
    exact .transferred p t ht hne' he k hrequest hk
      { t'.writeRouterData with hopId := t'.hopId - 1, cmd := cmd } hkey rfl q
  · trivial

/-- A message about a synchronization is for the link itself. -/
theorem postSyncRequestToLinkPeer_effects {s' : State} {t : Tender} {cmd : Command}
    (hcmd : cmd ∈ [.syncStarted, .syncFinished]) (he : e.IsOwn)
    (h : Effect s.toTables s.maxHops d e s s') :
    Effects s.toTables s.maxHops d e s (postSyncRequestToLinkPeer s' t cmd) := by
  unfold postSyncRequestToLinkPeer
  split_ifs
  · exact h.emit (.synchronized cmd hcmd he _)
  · trivial

/-- Data of the kernel is transferred for the request it names. -/
theorem handleKernelDataTransfer_effects {inp : KernelPackage}
    (he : e.IsOwn) (hrequest : e.request = some inp.requestId) :
    Effects s.toTables s.maxHops d e s (handleKernelDataTransfer s inp) := by
  refine withTender_effects fun i t hid ht => Exit.ends_assert.mpr fun _ => ?_
  exact sendTenderData_effects (p := .tender i) ((Effect.refl s).tables _) he hrequest hid ht rfl
    rfl

theorem handleStorageDataTransfer_effects {inp : StoragePackage}
    (he : e.IsOwn) (hrequest : e.request = some inp.requestId) :
    Effects s.toTables s.maxHops d e s (handleStorageDataTransfer s inp) := by
  refine withTender_effects fun i t hid ht => Exit.ends_assert.mpr fun _ => ?_
  exact sendTenderData_effects (p := .tender i) ((Effect.refl s).tables _) he hrequest hid ht rfl
    rfl

/-- An offer for a multi-winner tender sends nothing. -/
theorem handleKernelOffer_effects {inp : KernelPackage} (he : e.IsOwn)
    (hrequest : e.request = some inp.requestId) :
    Effects s.toTables s.maxHops d e s (handleKernelOffer s inp) := by
  refine withTender_effects fun i t _ ht => ?_
  refine Exit.ends_ite.mpr ⟨fun _ => ?_, fun _ => handleKernelDataTransfer_effects he hrequest⟩
  refine Exit.ends_ite.mpr ⟨fun _ => .refl s, fun _ => Exit.ends_assert.mpr fun _ => ?_⟩
  exact ⟨fun _ h => .inl h, rfl, rfl, rfl⟩

/-- The messages to the winners, one after the other. -/
theorem foldl_emit_effect {s' : State} {α : Type} (f : α → LinkPackage) (l : List α) {i : UUID}
    {t : Tender} (ht : s.tenders.lookup i = some t) (hwinners : t.winners ≠ [])
    (h : Effect s.toTables s.maxHops d e s s') : Effect s.toTables s.maxHops d e s
      (l.foldl (fun s a => s.emit (.link (f a))) s') := by
  induction l generalizing s' with
  | nil => exact h
  | cons a l ih => exact ih (h.emit (.accepted i t ht hwinners _))

theorem handleKernelAcceptForMultiwinnerTender_effects {inp : KernelPackage}
    (he : e.IsOwn) (hrequest : e.request = some inp.requestId) :
    Effects s.toTables s.maxHops d e s (handleKernelAcceptForMultiwinnerTender s inp) := by
  refine withTender_effects fun i t _ ht => ?_
  refine Exit.ends_ite.mpr ⟨fun _ => ?_, fun _ => handleKernelDataTransfer_effects he hrequest⟩
  refine Exit.ends_ite.mpr ⟨fun _ => .refl s, fun hwinners => Exit.ends_assert.mpr fun _ => ?_⟩
  exact foldl_emit_effect _ _ ht hwinners ((Effect.refl s).tables _)

/-- A confirmation is a transfer. -/
theorem handleKernelConfirmForMultiwinnerTender_effects {inp : KernelPackage}
    (he : e.IsOwn) (hrequest : e.request = some inp.requestId) :
    Effects s.toTables s.maxHops d e s (handleKernelConfirmForMultiwinnerTender s inp) := by
  refine withTender_effects fun i t hid ht => Exit.ends_assert.mpr fun _ => ?_
  exact sendTenderData_effects (p := .tender i) ((Effect.refl s).tables _) he hrequest hid ht rfl
    rfl

theorem handleKernelGetUuidRequest_effects {inp : KernelPackage}
    (he : e.IsOwn) (hrequest : e.request = some inp.requestId) :
    Effects s.toTables s.maxHops d e s (handleKernelGetUuidRequest s inp) := by
  refine withTender_effects fun i t hid ht => ?_
  exact sendTenderData_effects (p := .tender i) ((Effect.refl s).tables _) he hrequest hid ht rfl
    rfl

/-- To clear a request is silent. -/
theorem handleKernelClearRequest_effects {inp : KernelPackage} :
    Effects s.toTables s.maxHops d e s (handleKernelClearRequest s inp) := by
  unfold handleKernelClearRequest
  split
  · exact Effect.refl s
  · split
    · trivial
    · exact (Effect.refl s).tables _

/-- As `withTender_effects`, for `m_sync_tenders`. -/
theorem withSyncTender_effects {k : ID32} {f : UUID → Tender → Outcome}
    (h : ∀ i t, s.idTenders.lookup k = some i → s.syncTenders.lookup i = some t →
      Effects s.toTables s.maxHops d e s (f i t)) :
    Effects s.toTables s.maxHops d e s (withSyncTender s k f) := by
  unfold withSyncTender
  split
  · exact Effect.refl s
  · rename_i i hid
    split
    · exact Effect.refl s
    · rename_i t ht
      exact h i t hid ht

end Kernel

/-! ### Cleaning up -/

section CleanUp

variable {T : Tables} {maxHops : UInt16} {s s' : State} {d : RouterData} {e : Event}

/-- A clean-up sends nothing to other nodes. -/
theorem cleanUpTenderInfo_effects {p : Pointer} {t : Tender} (h : Effect T maxHops d e s s') :
    Effects T maxHops d e s (cleanUpTenderInfo s' p t) := by
  rw [Effects, cleanUpTenderInfo, cleanUpTenderFromTimeline, Exit.ends_andThen, Exit.ends_assert]
  exact fun _ => ⟨h.out, h.maxHops, h.isConfigured, h.routerData⟩

/-- After the last synchronization it tells the kernel. -/
theorem cleanUpSyncTenderInfo_effects {p : Pointer} {t : Tender} (h : Effect T maxHops d e s s') :
    Effects T maxHops d e s (cleanUpSyncTenderInfo s' p t) := by
  rw [Effects, cleanUpSyncTenderInfo, cleanUpTenderFromTimeline, Exit.ends_assert,
    Exit.ends_andThen, Exit.ends_assert]
  intro _ _
  exact Exit.ends_ite.mpr ⟨fun _ => (h.tables _).emit (.kernel _), fun _ => h.tables _⟩

/-- A canceled request is a message to the kernel. -/
theorem cancelRequest_effect {k : ID32} (h : Effect T maxHops d e s s') :
    Effect T maxHops d e s (cancelRequest s' k) := by
  unfold cancelRequest
  split_ifs
  · exact h
  · exact h.emit (.kernel _)

/-- Both clean-ups, with what follows them. -/
theorem cleanUpTender_effects {p : Pointer} {t : Tender} (h : Effect T maxHops d e s s') :
    Effects T maxHops d e s (cleanUpTender s' p t) := by
  have hinfo : Effects T maxHops d e s
      (if isSyncCommand t.cmd then cleanUpSyncTenderInfo s' p t else cleanUpTenderInfo s' p t) :=
    Exit.ends_ite.mpr
      ⟨fun _ => cleanUpSyncTenderInfo_effects h, fun _ => cleanUpTenderInfo_effects h⟩
  refine hinfo.andThen fun s'' hs'' => ?_
  rw [Effects, Exit.ends_done]
  split_ifs
  · exact hs''
  · exact cancelRequest_effect hs''

/-- A refused announcement goes on, from the tender as it is stored. -/
theorem handleRefuse_effects {k : ID32} {q : Payload} (he : e.refused = some k) :
    Effects s.toTables s.maxHops d e s (handleRefuse s k q) := by
  refine withTender_effects fun i t hid ht => ?_
  refine Exit.ends_ite.mpr ⟨fun _ => cleanUpTender_effects (.refl s), fun hhop => ?_⟩
  rw [Exit.ends_andThen, broadcastTenderToPeers, Exit.ends_assert, Exit.ends_assert]
  intro hprs htyp
  exact (((Effect.refl s).emit (.refused k i t he hid ht htyp hhop hprs q)).tables _).tables _

theorem handleSyncDataTransfer_effects {inp : KernelPackage} (he : e.IsOwn)
    (hrequest : e.request = some inp.requestId) :
    Effects s.toTables s.maxHops d e s (handleSyncDataTransfer s inp) := by
  refine withSyncTender_effects fun i t hid ht => ?_
  have hstart : Effects s.toTables s.maxHops d e s
      (if inp.cmd = .sendUuids then postSyncRequestToLinkPeer s t .syncStarted else .done s) :=
    Exit.ends_ite.mpr ⟨fun _ => postSyncRequestToLinkPeer_effects (by decide) he (.refl s),
      fun _ => .refl s⟩
  exact hstart.andThen fun s' hs' =>
    sendTenderData_effects (p := .syncTender i) hs' he hrequest hid ht rfl rfl

/-- The link and the peer are told, in this order. -/
theorem handleKernelSyncFinished_effects {inp : KernelPackage}
    (he : e.IsOwn) (hrequest : e.request = some inp.requestId) :
    Effects s.toTables s.maxHops d e s (handleKernelSyncFinished s inp) := by
  refine withSyncTender_effects fun i t hid ht => ?_
  refine (postSyncRequestToLinkPeer_effects (by decide) he (.refl s)).andThen fun s' hs' => ?_
  refine (sendTenderData_effects (p := .syncTender i) hs' he hrequest hid ht rfl rfl).andThen
    fun s'' hs'' => ?_
  exact cleanUpSyncTenderInfo_effects hs''

/-- Nothing but the end of a synchronization is sent when a tender expires. -/
theorem handleExpiredTenders_effects {p : Pointer} (he : e.IsOwn) :
    Effects s.toTables s.maxHops d e s (handleExpiredTenders s p) := by
  refine Exit.ends_ite.mpr ⟨fun _ => ?_, fun _ => .refl s⟩
  split
  · trivial
  · rename_i t ht
    refine Exit.ends_ite.mpr ⟨fun _ => ?_, fun _ => ?_⟩
    · have hcancel : Effect s.toTables s.maxHops d e s
          (if t.isCanceled then s else cancelRequest s t.requestId) := by
        split_ifs
        · exact .refl s
        · exact cancelRequest_effect (.refl s)
      refine (postSyncRequestToLinkPeer_effects (by decide) he hcancel).andThen fun s' hs' => ?_
      exact cleanUpSyncTenderInfo_effects hs'
    · exact cleanUpTender_effects ⟨fun _ h => .inl h, rfl, rfl, rfl⟩

end CleanUp

/-! ### The handlers of the link -/

section Link

variable {s : State} {inp : LinkInput} {fresh : RandomUUID}

/-- The kernel gets a new tender and no other node does. -/
theorem postNewTenderToKernel_effects {T : Tables} {maxHops : UInt16} {d : RouterData} {e : Event}
    {s' : State} {k : ID32} (h : Effect T maxHops d e s s') :
    Effects T maxHops d e s (postNewTenderToKernel s' inp k) :=
  postNewTenderToKernel_ends (fun _ => h.emit (.kernel _)) fun _ => h

theorem processNewTender_effects {T : Tables} {maxHops : UInt16} {d : RouterData} {e : Event}
    {p : Pointer} : Effects T maxHops d e s (processNewTender s p inp) := by
  refine (postNewTenderToKernel_effects ?_).andThen fun s' hs' => ?_
  · exact ⟨fun _ h => .inl h, rfl, rfl, rfl⟩
  · exact hs'.tables _

/-- Only the announcement of a multi-winner tender goes on at once. -/
theorem handleNewRemoteTender_effects (hin : inp.cmd = .receivedData) :
    Effects s.toTables s.maxHops s.routerData (.link inp fresh) s
      (handleNewRemoteTender s inp) := by
  rw [Effects, handleNewRemoteTender, Exit.ends_assert, Exit.ends_assert, Exit.ends_assert]
  intro _ _ hnew
  refine Exit.ends_ite.mpr
    ⟨fun _ => .refl s, fun _ => processNewTender_effects.andThen fun s' hs' => ?_⟩
  refine Exit.ends_ite.mpr ⟨fun hmulti => ?_, fun _ => hs'⟩
  unfold forwardRemoteTender
  split
  · exact hs'
  · rename_i q hq
    rw [Exit.ends_assert, Exit.ends_assert]
    intro hprs _
    rw [hs'.routerData] at hq
    exact hs'.emit (.forwarded inp fresh (s.newTender inp) rfl hin rfl rfl hmulti.1 hmulti.2 hnew
      hprs q hq)

/-- A response for the kernel goes no further. -/
theorem sendResponseToKernel_effects {T : Tables} {maxHops : UInt16} {d : RouterData} {e : Event} :
    Effects T maxHops d e s (sendResponseToKernel s inp) := by
  unfold sendResponseToKernel
  dsimp only
  split
  · exact Effect.refl s
  · split
    · trivial
    · refine Exit.ends_ite.mpr ⟨fun _ => Effect.refl s, fun _ => ?_⟩
      rw [Exit.ends_assert, Exit.ends_assert]
      exact fun _ _ => ((Effect.refl s).emit (.kernel _)).tables _

/-- A response for another node goes to the peers of its tender. -/
theorem bypassTenderResponse_effects {d : RouterData} (hin : inp.cmd = .receivedData)
    (hsync : isOwnSyncTender inp.header.cmd = false)
    (hdup : isKnownAnnouncement inp.header.cmd = false)
    (hfinished : inp.header.cmd ≠ .syncFinished)
    (hopen : ∀ t, s.tenders.lookup inp.header.tenderId = some t →
      t.isCanceled = false ∧ t.typ = .remote ∧
        ¬ (inp.header.cmd ∈ [.livestreamContent, .sendToPeer, .cancelLivestreamGet] ∧
          t.st = .confirmed ∨ inp.header.cmd = .sendUuids)) :
    Effects s.toTables s.maxHops d (.link inp fresh) s (bypassTenderResponse s inp) := by
  unfold bypassTenderResponse
  dsimp only
  split
  · trivial
  · rename_i t ht
    rw [Effects, Exit.ends_assert, Exit.ends_done]
    intro hrid
    obtain ⟨hcanceled, htyp, hfor⟩ := hopen t ht
    exact ((Effect.refl s).emit (.bypassed inp fresh t rfl hin ht hsync hdup hfinished hcanceled
      htyp hfor hrid)).tables _

/-- For a stored tender that is the only message that can be sent. -/
theorem processExistingTender_effects {d : RouterData} {t : Tender} (hs : s.Keyed)
    (hd : Decoded inp s.routerData) (hin : inp.cmd = .receivedData)
    (hsync : isOwnSyncTender s.routerData.cmd = false)
    (ht : s.tenders.lookup s.routerData.tenderId = some t) :
    Effects s.toTables s.maxHops d (.link inp fresh) s (processExistingTender s t inp) := by
  rw [Effects, processExistingTender, Exit.ends_assert, Exit.ends_assert]
  intro _ _
  refine Exit.ends_ite.mpr ⟨fun _ => .refl s, fun hdup => Exit.ends_ite.mpr ⟨fun _ => ?_,
    fun hfinished => ?_⟩⟩
  · exact cleanUpTenderInfo_effects (.refl s)
  · rw [hd.cmd] at hsync hdup hfinished
    refine Exit.ends_ite.mpr ⟨fun _ => .refl s, fun hopen => ?_⟩
    cases htyp : t.typ with
    | internal => exact sendResponseToKernel_effects
    | remote =>
      refine Exit.ends_ite.mpr ⟨fun _ => sendResponseToKernel_effects, fun hfor => ?_⟩
      rw [hd.cmd] at hfor
      refine bypassTenderResponse_effects hin hsync (Bool.eq_false_of_not_eq_true hdup) hfinished
        fun t' ht' => ?_
      obtain rfl := hs.lookup_header hd ht ht'
      exact ⟨Bool.eq_false_of_not_eq_true hopen, htyp, hfor⟩

/-- A request of a synchronization stays in this node. -/
theorem handleNewSyncTender_effects {d : RouterData} {e : Event} :
    Effects s.toTables s.maxHops d e s (handleNewSyncTender s inp) := by
  refine Exit.ends_ite.mpr ⟨fun _ => .refl s, fun _ => ?_⟩
  rw [Exit.ends_assert, Exit.ends_assert]
  exact fun _ _ => processNewTender_effects

/-- What is left behind when a message was handled: `m_router_data` is reset, unless there was an
exception. -/
theorem handleRouterData_effects (hs : s.Keyed) (hd : Decoded inp s.routerData)
    (hin : inp.cmd = .receivedData) :
    (handleRouterData s inp).Ends
      (fun s' => ∃ s'', Effect s.toTables s.maxHops s.routerData (.link inp fresh) s s'' ∧
        s' = s''.resetRouterData)
      (Effect s.toTables s.maxHops s.routerData (.link inp fresh) s) := by
  have hreset : ∀ {o : Outcome}, Effects s.toTables s.maxHops s.routerData (.link inp fresh) s o →
      o.Ends (fun s' => ∃ s'', Effect s.toTables s.maxHops s.routerData (.link inp fresh) s s'' ∧
        s'.resetRouterData = s''.resetRouterData)
      (Effect s.toTables s.maxHops s.routerData (.link inp fresh) s) :=
    fun h => h.mono (fun s' hs' => ⟨s', hs', rfl⟩) fun _ h => h
  refine Exit.ends_ite.mpr ⟨fun _ => ?_, fun hown => ?_⟩
  · refine Exit.ends_andThen.mpr ?_
    cases hsync : s.syncTenders.lookup s.routerData.tenderId with
    | none => exact hreset handleNewSyncTender_effects
    | some t => exact hreset (postNewTenderToKernel_effects ((Effect.refl s).tables _))
  · rw [Exit.ends_assert, Exit.ends_assert]
    intro _ _
    refine Exit.ends_andThen.mpr ?_
    have hremote : isOwnSyncTender s.routerData.cmd = false := Bool.eq_false_of_not_eq_true hown
    cases ht : s.tenders.lookup s.routerData.tenderId with
    | none => exact hreset (handleNewRemoteTender_effects hin)
    | some t => exact hreset (processExistingTender_effects hs hd hin hremote ht)

end Link

/-! ### Every step -/

section Step

variable {s : State} {d : RouterData} {e : Event}

/-- Requests to save are announcements. -/
theorem handleKernelSaveRequest_effects {inp : KernelPackage} {fresh : RandomUUID}
    (he : e = .kernel inp fresh ∨ e = .backup inp fresh) :
    Effects s.toTables s.maxHops d e s (handleKernelSaveRequest s inp fresh) := by
  refine announce_effects he (by decide) fun t ht => ?_
  exact ⟨ht.tenderId, ht.cmd, ht.valid, ht.uuid, ht.hopId, ht.requestId, ht.typ, ht.st, ht.prs,
    ht.winners, ht.open'⟩

/-- So are searches for a peer. -/
theorem handleKernelFindPeer_effects {inp : KernelPackage} {fresh : RandomUUID}
    (he : e = .kernel inp fresh ∨ e = .backup inp fresh) :
    Effects s.toTables s.maxHops d e s (handleKernelFindPeer s inp fresh) := by
  refine announce_effects he (by decide) fun t ht => ?_
  exact ⟨ht.tenderId, ht.cmd, ht.valid, ht.uuid, ht.hopId, ht.requestId, ht.typ, ht.st, ht.prs,
    ht.winners, ht.open'⟩

/-- Every package of the kernel. -/
theorem processKernelInput_effects {inp : KernelPackage} {fresh : RandomUUID} :
    Effects s.toTables s.maxHops d (.kernel inp fresh) s (processKernelInput s inp fresh) := by
  have he : Event.kernel inp fresh = .kernel inp fresh ∨
      Event.kernel inp fresh = .backup inp fresh :=
    .inl rfl
  unfold processKernelInput
  refine Exit.ends_ite.mpr ⟨fun _ => announce_effects he (by decide) fun t ht => ht, fun _ => ?_⟩
  refine Exit.ends_ite.mpr ⟨fun _ => handleKernelSaveRequest_effects he, fun _ => ?_⟩
  refine Exit.ends_ite.mpr ⟨fun _ => announce_effects he (by decide) fun t ht => ht, fun _ => ?_⟩
  refine Exit.ends_ite.mpr ⟨fun _ => announce_effects he (by decide) fun t ht => ht, fun _ => ?_⟩
  refine Exit.ends_ite.mpr ⟨fun _ => announce_effects he (by decide) fun t ht => ht, fun _ => ?_⟩
  refine Exit.ends_ite.mpr ⟨fun _ => announce_effects he (by decide) fun t ht => ht, fun _ => ?_⟩
  refine Exit.ends_ite.mpr ⟨fun _ => announce_effects he (by decide) fun t ht => ht, fun _ => ?_⟩
  refine Exit.ends_ite.mpr ⟨fun _ => handleKernelFindPeer_effects he, fun _ => ?_⟩
  refine Exit.ends_ite.mpr ⟨fun h => handleRefuse_effects (if_pos h), fun hrefuse => ?_⟩
  have hlocal : (Event.kernel inp fresh).IsOwn := ⟨trivial, if_neg hrefuse⟩
  refine Exit.ends_ite.mpr ⟨fun _ => handleKernelClearRequest_effects, fun hclear => ?_⟩
  have hrequest : (Event.kernel inp fresh).request = some inp.requestId :=
    if_neg (by simp [hrefuse, hclear])
  refine Exit.ends_ite.mpr ⟨fun _ => handleKernelOffer_effects hlocal hrequest, fun _ => ?_⟩
  refine Exit.ends_ite.mpr
    ⟨fun _ => handleKernelAcceptForMultiwinnerTender_effects hlocal hrequest, fun _ => ?_⟩
  refine Exit.ends_ite.mpr
    ⟨fun _ => handleKernelConfirmForMultiwinnerTender_effects hlocal hrequest, fun _ => ?_⟩
  refine Exit.ends_ite.mpr ⟨fun _ => handleSyncDataTransfer_effects hlocal hrequest, fun _ => ?_⟩
  refine Exit.ends_ite.mpr ⟨fun _ => handleKernelSyncFinished_effects hlocal hrequest, fun _ => ?_⟩
  refine Exit.ends_ite.mpr
    ⟨fun _ => handleKernelGetUuidRequest_effects hlocal hrequest, fun _ => ?_⟩
  refine Exit.ends_ite.mpr ⟨fun _ => handleKernelDataTransfer_effects hlocal hrequest, fun _ => ?_⟩
  exact Effect.refl s

/-- Nothing is sent before the configuration has come. -/
theorem whenConfigured_effects {o : Outcome} (h : Effects s.toTables s.maxHops d e s o) :
    Effects s.toTables s.maxHops d e s (whenConfigured s o) :=
  Exit.ends_ite.mpr ⟨fun _ => h, fun _ => .refl s⟩

/-- Every event but those of the link and the configuration. -/
theorem perform_effects (he : e.IsLocal) : Effects s.toTables s.maxHops d e s (perform s e) := by
  cases e with
  | config maxHops => exact he.elim
  | kernel inp fresh => exact whenConfigured_effects processKernelInput_effects
  | backup inp fresh =>
    refine whenConfigured_effects (Exit.ends_ite.mpr ⟨fun _ => ?_, fun _ => .refl s⟩)
    exact handleKernelSaveRequest_effects (.inr rfl)
  | storage inp =>
    refine whenConfigured_effects (Exit.ends_ite.mpr ⟨fun hcmd => ?_, fun _ => ?_⟩)
    · refine handleStorageDataTransfer_effects ⟨trivial, if_neg fun hrefuse => ?_⟩ rfl
      rw [hrefuse] at hcmd
      exact absurd hcmd (by decide)
    · refine Exit.ends_ite.mpr ⟨fun h => ?_, fun _ => .refl s⟩
      exact handleRefuse_effects (if_pos h)
  | storageWriter inp =>
    refine whenConfigured_effects (Exit.ends_ite.mpr ⟨fun _ => ?_, fun _ => .refl s⟩)
    exact handleStorageDataTransfer_effects ⟨trivial, rfl⟩ rfl
  | link inp fresh => exact he.elim
  | timeout p => exact handleExpiredTenders_effects ⟨trivial, rfl⟩

/-- What a message or a negative acknowledgement leaves behind. -/
theorem processLinkInput_effects (hs : s.Keyed) (inp : LinkInput) (fresh : RandomUUID) :
    (processLinkInput s inp fresh).Ends
      (fun s' => (∀ m ∈ s'.out, m ∈ s.out ∨
        Sent s.toTables s.maxHops (s.message (.link inp fresh)) (.link inp fresh) m) ∧
          s'.maxHops = s.maxHops)
      (fun s' => (∀ m ∈ s'.out, m ∈ s.out ∨
        Sent s.toTables s.maxHops (s.message (.link inp fresh)) (.link inp fresh) m) ∧
          s'.maxHops = s.maxHops) := by
  unfold processLinkInput
  refine Exit.ends_ite.mpr ⟨fun _ => ?_, fun _ => Exit.ends_ite.mpr ⟨fun hin => ?_, fun _ => ?_⟩⟩
  · rw [handleLinkNack, Exit.ends_assert]
    intro _
    split
    · exact ⟨fun _ h => .inl h, rfl⟩
    · rename_i t _
      have hclean : Effects s.toTables s.maxHops (s.message (.link inp fresh)) (.link inp fresh)
          (s.extractHeader inp) (cleanUpTender (s.extractHeader inp)
            (.tender (s.extractHeader inp).routerData.tenderId) t) :=
        cleanUpTender_effects (.refl _)
      exact hclean.mono (fun s' h => ⟨h.out, h.maxHops⟩) fun s' h => ⟨h.out, h.maxHops⟩
  · refine (handleRouterData_effects (s := (s.extractHeader inp).nameTender fresh) hs
      (decoded_nameTender s inp fresh) hin).mono ?_ fun s' h => ⟨h.out, h.maxHops⟩
    rintro s' ⟨s'', h, rfl⟩
    exact ⟨h.out, h.maxHops⟩
  · refine Exit.ends_ite.mpr ⟨fun _ => ?_, fun _ => ⟨fun _ h => .inl h, rfl⟩⟩
    refine ⟨fun m hm => ?_, rfl⟩
    rcases List.mem_append.mp hm with hm | hm
    · exact .inl hm
    · obtain rfl := List.mem_singleton.mp hm
      exact .inr (.notification _ _)

/-- **What a step sends**, and where it comes from. -/
theorem step_sent {s' : State} (hs : s.Keyed) (h : step s e = some s') :
    ∀ m ∈ s'.out, Sent s.toTables s.maxHops (s.message e) e m := by
  have hsent : ∀ m ∈ s'.out, m ∈ [] ∨ Sent s.toTables s.maxHops (s.message e) e m := by
    by_cases he : e.IsLocal
    · have hlocal := perform_effects (s := { s with out := [] }) (d := s.message e) he
      exact (Exit.Ends.of_state hlocal h).out
    · cases e with
      | config maxHops =>
        obtain rfl : _ = s' := Option.some.inj h
        exact fun _ hm => .inl hm
      | link inp fresh =>
        have hlink := processLinkInput_effects (s := { s with out := [] }) hs inp fresh
        exact (Exit.Ends.of_state hlink h).1
      | _ => exact absurd trivial he
  exact fun m hm => (hsent m hm).resolve_left List.not_mem_nil

/-- The hop limit is set by the configuration only. -/
theorem step_maxHops {s' : State} (hs : s.Keyed) (h : step s e = some s')
    (he : ∀ maxHops, e ≠ .config maxHops) : s'.maxHops = s.maxHops := by
  by_cases hlocal : e.IsLocal
  · have heffects := perform_effects (s := { s with out := [] }) (d := s.message e) hlocal
    exact (Exit.Ends.of_state heffects h).maxHops
  · cases e with
    | config maxHops => exact absurd rfl (he maxHops)
    | link inp fresh =>
      have hlink := processLinkInput_effects (s := { s with out := [] }) hs inp fresh
      exact (Exit.Ends.of_state hlink h).2
    | _ => exact absurd trivial hlocal

/-- Only messages touch `m_router_data`. -/
theorem step_routerData {s' : State} (h : step s e = some s')
    (he : ∀ inp fresh, e ≠ .link inp fresh) : s'.routerData = s.routerData := by
  by_cases hlocal : e.IsLocal
  · have heffects := perform_effects (s := { s with out := [] }) (d := s.message e) hlocal
    exact (Exit.Ends.of_state heffects h).routerData
  · cases e with
    | config maxHops =>
      obtain rfl : _ = s' := Option.some.inj h
      rfl
    | link inp fresh => exact absurd rfl (he inp fresh)
    | _ => exact absurd trivial hlocal

end Step

end Router

end Metax
