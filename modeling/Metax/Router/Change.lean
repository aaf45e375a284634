import Metax.Router.Step

/-!
# What one step can do to the tenders

`Change` lists the ways in which a step changes the four containers, with what is known of the
tender where it does; `Update` lists the ways in which a stored tender is written to. Every step
makes one such change (`step_change`), so an invariant of the containers is checked once for each
way and not once for each handler.

A handler has one lemma here, named after it, which is about its end: an assertion that fails leaves
no containers to speak of, and an exception leaves them as the change says as well (`Changes`). The
lemmas come in the order in which the router gets its inputs, those of the kernel and the storages
first, then those of the link, then the timeline, and `perform_changes` puts them together.

What is true of a tender when it is stored is part of the change: a tender of this node is
`Announced`, one of a peer is `Opened`, and an orphan is one whose payload could not be read.
-/

namespace Metax

namespace Router

open Exit (assert)

namespace Pointer

/-- The key a pointer stands for. -/
def id : Pointer → UUID
  | .tender i => i
  | .syncTender i => i

/-- Does the pointer lead into `m_sync_tenders`? -/
def isSync : Pointer → Bool
  | .tender _ => false
  | .syncTender _ => true

end Pointer

namespace Tables

/-- Erase a tender from all containers. -/
def remove (T : Tables) (p : Pointer) (t : Tender) : Tables where
  tenders := if p.isSync then T.tenders else T.tenders.erase t.tenderId
  syncTenders := if p.isSync then T.syncTenders.erase t.tenderId else T.syncTenders
  idTenders := T.idTenders.erase t.requestId
  timeline := T.timeline.erase p

end Tables

/-- A tender made for a request of the kernel. -/
structure Tender.Announced (maxHops : UInt16) (inp : KernelPackage) (fresh : RandomUUID)
    (t : Tender) :
    Prop where
  tenderId : t.tenderId = fresh.1
  cmd : t.cmd = inp.cmd
  valid : isInvalidNewTender inp.cmd = false
  uuid : t.uuid = inp.uuid
  hopId : t.hopId = maxHops
  requestId : t.requestId = inp.requestId
  typ : t.typ = .internal
  st : t.st = .announced
  prs : t.prs = ∅
  winners : t.winners = []
  open' : t.isCanceled = false

/-- `d` is what the router makes of a message: it may have named the tender, and there may be
winners of earlier messages among the winners. -/
structure Decoded (inp : LinkInput) (d : RouterData) : Prop where
  header :
    { d with tenderId := inp.header.tenderId, winnersId := inp.header.winnersId } = inp.header
  tenderId : inp.header.tenderId ≠ 0 → d.tenderId = inp.header.tenderId

/-- A tender made for a message of a peer. -/
structure Tender.Opened (rid : ID32) (inp : LinkInput) (t : Tender) : Prop where
  decoded : Decoded inp t.toRouterData
  requestId : t.requestId = rid
  typ : t.typ = .remote
  st : t.st = .received
  prs : t.prs = inp.peers
  winners : t.winners = []
  open' : t.isCanceled = false

/-- What a handler writes to a tender that is stored in `m_tenders`. -/
inductive Update (maxHops : UInt16) (e : Event) (i : UUID) (t : Tender) : Tender → Prop
  /-- The kernel or a storage sends data for it. -/
  | transferred (uuid : UUID) (dataVersion : UInt32) (hst : t.st = .confirmed ∨ t.st = .received)
      (hprs : t.prs.Nonempty) : Update maxHops e i t
        { t with st := .confirmed, hopId := maxHops, uuid := uuid, dataVersion := dataVersion }
  /-- The kernel sends the data of a multi-winner tender to its winners. -/
  | accepted (hwinners : t.winners ≠ []) : Update maxHops e i t
      { t with st := .confirmed, hopId := maxHops }
  /-- The kernel answers a peer, or offers to. -/
  | replied (htyp : t.typ = .remote) : Update maxHops e i t { t with hopId := maxHops }
  /-- The kernel asks for the next object of a synchronization. -/
  | described (uuid : UUID) (dataVersion : UInt32) (lastUpdated expireDate : UInt64)
      (hprs : t.prs.Nonempty) : Update maxHops e i t
        { t with uuid := uuid, dataVersion := dataVersion, lastUpdated := lastUpdated,
                 expireDate := expireDate }
  /-- The kernel has no use for it any more. -/
  | canceled : Update maxHops e i t { t with isCanceled := true }
  /-- A message of a peer was handed to the kernel. -/
  | answered (inp : LinkInput) (fresh : RandomUUID) (he : e = .link inp fresh)
      (hcmd : inp.cmd = .receivedData) (hkey : i = inp.header.tenderId)
      (hdup : isKnownAnnouncement inp.header.cmd = false)
      (hopen : t.isCanceled = false) (hrid : t.requestId ≠ noRequest)
      (hdata : ¬ (inp.header.cmd = .getData ∧ t.st = .confirmed)) : Update maxHops e i t
        { t with prs := t.prs ∪ inp.peers, st := .confirmed,
                 receivedResponseCnt := t.receivedResponseCnt + 1 }
  /-- A message of a peer was passed on to other peers. -/
  | bypassed (inp : LinkInput) (fresh : RandomUUID) (he : e = .link inp fresh)
      (hcmd : inp.cmd = .receivedData) (hkey : i = inp.header.tenderId)
      (hdup : isKnownAnnouncement inp.header.cmd = false)
      (hopen : t.isCanceled = false) (htyp : t.typ = .remote)
      (hrid : t.requestId = noRequest ∨ isFirstCommandOfMultiwinnerTender t.cmd) :
      Update maxHops e i t
        { t with
          hopId := inp.header.hopId
          prs := if inp.header.cmd ∈ [.saveStreamOffer, .peerFound, .sendToPeer] then inp.peers
            else t.prs }

/-- The request an event refuses. -/
def Event.refused : Event → Option ID32
  | .kernel inp _ => if inp.cmd = .refuse then some inp.requestId else none
  | .storage inp => if inp.cmd = .refuse then some inp.requestId else none
  | _ => none

/-- What a step does to the containers. -/
inductive Change (T : Tables) (maxHops : UInt16) (rid : ID32) (d : RouterData) (e : Event) :
    Tables → Prop
  | none : Change T maxHops rid d e T
  /-- A request of the kernel. -/
  | announced (inp : KernelPackage) (fresh : RandomUUID) (t : Tender)
      (he : e = .kernel inp fresh ∨ e = .backup inp fresh) (ht : t.Announced maxHops inp fresh)
      (hid : T.idTenders.lookup inp.requestId = .none) (hnew : T.tenders.lookup fresh.1 = .none) :
      Change T maxHops rid d e
        (((T.assign (.tender fresh.1) t).insertId inp.requestId fresh.1).pushTimeline
          (.tender fresh.1))
  /-- An announcement of a peer. -/
  | opened (p : Pointer) (inp : LinkInput) (fresh : RandomUUID) (t : Tender)
      (he : e = .link inp fresh) (hin : inp.cmd = .receivedData) (ht : t.Opened rid inp)
      (hd : t.toRouterData = d) (hne : p.id ≠ 0) (hkey : t.tenderId = p.id)
      (hcmd : isSyncCommand t.cmd = p.isSync)
      (hvalid : p.isSync = false → isInvalidNewTender t.cmd = false) (hnew : T.deref p = .none) :
      Change T maxHops rid d e (((T.assign p t).insertId rid p.id).pushTimeline p)
  /-- An announcement of a peer whose payload is malformed. -/
  | orphaned (p : Pointer) (inp : LinkInput) (fresh : RandomUUID) (t : Tender)
      (he : e = .link inp fresh) (hin : inp.cmd = .receivedData) (ht : t.Opened rid inp)
      (hd : t.toRouterData = d) (hne : p.id ≠ 0) (hkey : t.tenderId = p.id)
      (hcmd : isSyncCommand t.cmd = p.isSync)
      (hvalid : p.isSync = false → isInvalidNewTender t.cmd = false) (hnew : T.deref p = .none)
      (hbad : ∀ q, inp.package.payload d.headerSize ≠ .ok q) :
      Change T maxHops rid d e (T.assign p t)
  | updated (i : UUID) (t t' : Tender) (ht : T.tenders.lookup i = some t)
      (h : Update maxHops e i t t') : Change T maxHops rid d e (T.assign (.tender i) t')
  /-- A copy of a synchronization request. -/
  | resynced (i : UUID) (t : Tender) (ht : T.syncTenders.lookup i = some t) :
      Change T maxHops rid d e (T.assign (.syncTender i) { t with st := .confirmed })
  | removed (p : Pointer) (t : Tender) (ht : T.deref p = some t) (hp : p ∈ T.timeline)
      (hcmd : isSyncCommand t.cmd = p.isSync) : Change T maxHops rid d e (T.remove p t)
  /-- The kernel refused it: it goes on as a tender of the network only. -/
  | refused (k : ID32) (i : UUID) (t : Tender) (he : e.refused = some k)
      (hid : T.idTenders.lookup k = some i) (ht : T.tenders.lookup i = some t)
      (htyp : t.typ = .remote) (hprs : t.prs.card = 1) (hhop : t.hopId ≠ 1) :
      Change T maxHops rid d e
        { T.assign (.tender i) { t with requestId := noRequest } with
          idTenders := T.idTenders.erase k }

/-! ### The handlers of the kernel and the storages -/

/-- A handler that ends, normally or not, in a change of the containers. -/
abbrev Changes (T : Tables) (maxHops : UInt16) (rid : ID32) (d : RouterData) (e : Event)
    (o : Outcome) : Prop :=
  o.Ends (fun s => Change T maxHops rid d e s.toTables) fun s => Change T maxHops rid d e s.toTables

/-- To reset the member does not touch the containers. -/
theorem Changes.andThen_reset {T : Tables} {maxHops : UInt16} {rid : ID32} {d : RouterData}
    {e : Event} {o : Outcome} (h : Changes T maxHops rid d e o) :
    Changes T maxHops rid d e (o.andThen fun s => .done s.resetRouterData) :=
  Exit.ends_andThen.mpr (h.mono (fun _ hs => hs) fun _ hs => hs)

section Kernel

variable {s : State} {rid : ID32} {d : RouterData} {e : Event}

/-- An announcement opens at most one tender of this node, for a command that may open one. -/
theorem announce_changes {cmds : List Command} {copyFields : KernelPackage → Tender → Tender}
    {inp : KernelPackage} {fresh : RandomUUID} (he : e = .kernel inp fresh ∨ e = .backup inp fresh)
    (hcmds : ∀ cmd ∈ cmds, isInvalidNewTender cmd = false)
    (hcopy : ∀ t, t.Announced s.maxHops inp fresh →
      (copyFields inp t).Announced s.maxHops inp fresh) :
    Changes s.toTables s.maxHops rid d e (announce cmds copyFields s inp fresh) := by
  simp only [Changes, announce, Exit.ends_assert, Exit.ends_done]
  intro hcmd hid hnew
  refine .announced inp fresh _ he (hcopy _ ?_) hid hnew
  constructor <;> first | rfl | exact hcmds _ hcmd

/-- A handler that looks its tender up by request id has to be checked only on a tender that both
tables know. -/
theorem withTender_changes {k : ID32} {f : UUID → Tender → Outcome}
    (h : ∀ i t, s.idTenders.lookup k = some i → s.tenders.lookup i = some t →
      Changes s.toTables s.maxHops rid d e (f i t)) :
    Changes s.toTables s.maxHops rid d e (withTender s k f) := by
  unfold withTender
  split
  · exact Change.none
  · rename_i i hid
    split
    · exact Change.none
    · rename_i t ht
      exact h i t hid ht

/-- To send data for a tender is one package on the link; it presupposes a peer to send to. -/
theorem sendTenderData_ends {t : Tender} {cmd : Command} {p : Payload} {D X : State → Prop}
    (h : t.prs.Nonempty → ∀ l, D (s.emit (.link l))) : (sendTenderData s t cmd p).Ends D X := by
  unfold sendTenderData
  split_ifs with hprs
  · exact h hprs _
  · trivial

/-- So is a message of a synchronization. -/
theorem postSyncRequestToLinkPeer_ends {t : Tender} {cmd : Command} {D X : State → Prop}
    (h : ∀ l, D (s.emit (.link l))) : (postSyncRequestToLinkPeer s t cmd).Ends D X := by
  unfold postSyncRequestToLinkPeer
  split_ifs
  · exact h _
  · trivial

/-- Data of the kernel confirms the tender it is sent for. -/
theorem handleKernelDataTransfer_changes {inp : KernelPackage} :
    Changes s.toTables s.maxHops rid d e (handleKernelDataTransfer s inp) := by
  refine withTender_changes fun i t hid ht => ?_
  refine Exit.ends_assert.mpr fun hst => sendTenderData_ends fun hprs l => ?_
  exact .updated i t _ ht (.transferred _ _ hst hprs)

/-- Data that a storage sends does the same, with the fields of its own package. -/
theorem handleStorageDataTransfer_changes {inp : StoragePackage} :
    Changes s.toTables s.maxHops rid d e (handleStorageDataTransfer s inp) := by
  refine withTender_changes fun i t hid ht => ?_
  refine Exit.ends_assert.mpr fun hst => sendTenderData_ends fun hprs l => ?_
  exact .updated i t _ ht (.transferred _ _ hst hprs)

/-- An offer for a tender of a peer renews its hop count; other offers are data. -/
theorem handleKernelOffer_changes {inp : KernelPackage} :
    Changes s.toTables s.maxHops rid d e (handleKernelOffer s inp) := by
  refine withTender_changes fun i t hid ht => ?_
  refine Exit.ends_ite.mpr ⟨fun _ => ?_, fun _ => handleKernelDataTransfer_changes⟩
  refine Exit.ends_ite.mpr ⟨fun _ => .none, fun _ => Exit.ends_assert.mpr fun htyp => ?_⟩
  exact .updated i t _ ht (.replied htyp)

/-- Messages, however many, leave the containers as they are. -/
theorem foldl_emit_toTables {α : Type} (f : α → Emission) (l : List α) (s : State) :
    (l.foldl (fun s a => s.emit (f a)) s).toTables = s.toTables := by
  induction l generalizing s with
  | nil => rfl
  | cons a l ih => exact ih (s.emit (f a))

/-- An accept goes to winners, or it is data like any other. -/
theorem handleKernelAcceptForMultiwinnerTender_changes {inp : KernelPackage} :
    Changes s.toTables s.maxHops rid d e (handleKernelAcceptForMultiwinnerTender s inp) := by
  refine withTender_changes fun i t hid ht => ?_
  refine Exit.ends_ite.mpr ⟨fun _ => ?_, fun _ => handleKernelDataTransfer_changes⟩
  refine Exit.ends_ite.mpr ⟨fun _ => .none, fun hwinners => Exit.ends_assert.mpr fun _ => ?_⟩
  rw [Exit.ends_done, foldl_emit_toTables]
  exact .updated i t _ ht (.accepted hwinners)

/-- A confirmation answers a tender of a peer. -/
theorem handleKernelConfirmForMultiwinnerTender_changes {inp : KernelPackage} :
    Changes s.toTables s.maxHops rid d e (handleKernelConfirmForMultiwinnerTender s inp) := by
  refine withTender_changes fun i t hid ht => ?_
  refine Exit.ends_assert.mpr fun htyp => sendTenderData_ends fun _ l => ?_
  exact .updated i t _ ht (.replied htyp)

/-- The next object of a synchronization is written into the tender it is asked for on. -/
theorem handleKernelGetUuidRequest_changes {inp : KernelPackage} :
    Changes s.toTables s.maxHops rid d e (handleKernelGetUuidRequest s inp) := by
  refine withTender_changes fun i t hid ht => sendTenderData_ends fun hprs l => ?_
  exact .updated i t _ ht (.described _ _ _ _ hprs)

/-- A request the kernel has no use for is marked; it stays until it expires. -/
theorem handleKernelClearRequest_changes {inp : KernelPackage} :
    Changes s.toTables s.maxHops rid d e (handleKernelClearRequest s inp) := by
  unfold handleKernelClearRequest
  split
  · exact Change.none
  · rename_i i hid
    split
    · trivial
    · rename_i t ht
      exact .updated i t _ ht .canceled

/-! ### Cleaning up -/

/-- Cleaning up removes a tender the timeline still has a pointer to. -/
theorem cleanUpTenderInfo_changes {p : Pointer} {t : Tender} (ht : s.deref p = some t)
    (hp : p.isSync = false) (hcmd : isSyncCommand t.cmd = false) :
    Changes s.toTables s.maxHops rid d e (cleanUpTenderInfo s p t) := by
  rw [Changes, cleanUpTenderInfo, cleanUpTenderFromTimeline, Exit.ends_andThen, Exit.ends_assert]
  intro hmem
  have hremoved : Change s.toTables s.maxHops rid d e (s.toTables.remove p t) :=
    .removed p t ht hmem (hcmd.trans hp.symm)
  rw [Tables.remove, hp] at hremoved
  exact hremoved

/-- For a synchronization there may be a message to the kernel as well, and the tables do not see
it. -/
theorem cleanUpSyncTenderInfo_changes {p : Pointer} {t : Tender} (ht : s.deref p = some t)
    (hp : p.isSync = true) :
    Changes s.toTables s.maxHops rid d e (cleanUpSyncTenderInfo s p t) := by
  rw [Changes, cleanUpSyncTenderInfo, cleanUpTenderFromTimeline, Exit.ends_assert,
    Exit.ends_andThen, Exit.ends_assert]
  intro hcmd hmem
  have hremoved : Change s.toTables s.maxHops rid d e (s.toTables.remove p t) :=
    .removed p t ht hmem (hcmd.trans hp.symm)
  rw [Tables.remove, hp] at hremoved
  exact Exit.ends_ite.mpr ⟨fun _ => hremoved, fun _ => hremoved⟩

/-- The kernel is told that a request is over; the tables stay. -/
theorem cancelRequest_toTables {k : ID32} : (cancelRequest s k).toTables = s.toTables := by
  unfold cancelRequest
  split_ifs <;> rfl

/-- Both kinds are one removal under the pointer they were found by. -/
theorem cleanUpTender_changes {p : Pointer} {t : Tender} (ht : s.deref p = some t)
    (hcmd : isSyncCommand t.cmd = p.isSync) :
    Changes s.toTables s.maxHops rid d e (cleanUpTender s p t) := by
  have hinfo : Changes s.toTables s.maxHops rid d e
      (if isSyncCommand t.cmd then cleanUpSyncTenderInfo s p t else cleanUpTenderInfo s p t) := by
    refine Exit.ends_ite.mpr ⟨fun h => ?_, fun h => ?_⟩
    · exact cleanUpSyncTenderInfo_changes ht (hcmd.symm.trans h)
    · have hfalse := Bool.eq_false_of_not_eq_true h
      exact cleanUpTenderInfo_changes ht (hcmd.symm.trans hfalse) hfalse
  refine Exit.ends_andThen.mpr (hinfo.mono (fun s' hs' => ?_) fun _ h => h)
  rw [Exit.ends_done]
  split_ifs
  · exact hs'
  · rw [cancelRequest_toTables]
    exact hs'

/-- A refused tender is removed after its last hop, and before it goes on without its request. -/
theorem handleRefuse_changes {k : ID32} {p : Payload} (he : e.refused = some k)
    (hcmd : ∀ i t, s.tenders.lookup i = some t → isSyncCommand t.cmd = false) :
    Changes s.toTables s.maxHops rid d e (handleRefuse s k p) := by
  refine withTender_changes fun i t hid ht => ?_
  refine Exit.ends_ite.mpr ⟨fun _ => cleanUpTender_changes ht (hcmd i t ht), fun hhop => ?_⟩
  rw [Exit.ends_andThen, broadcastTenderToPeers, Exit.ends_assert, Exit.ends_assert]
  intro hprs htyp
  exact .refused k i t he hid ht htyp hprs hhop

end Kernel

/-! ### The handlers of the link -/

/-- What is known of `m_tenders`: no tender has the null id, and none is a synchronization. -/
structure Tables.Keyed (T : Tables) : Prop where
  null : T.tenders.lookup 0 = none
  sync : ∀ p t, T.deref p = some t → isSyncCommand t.cmd = p.isSync

namespace Decoded

variable {inp : LinkInput} {d : RouterData}

/-- Whatever name the router gave the tender, the command is the header's. -/
theorem cmd (h : Decoded inp d) : d.cmd = inp.header.cmd := by
  rw [← h.header]

/-- So is the hop count. -/
theorem hopId (h : Decoded inp d) : d.hopId = inp.header.hopId := by
  rw [← h.header]

end Decoded

/-- A stored tender the header names is the one the message was looked up under: a message
without a tender id cannot name a stored tender. -/
theorem Tables.Keyed.lookup_header {T : Tables} {inp : LinkInput} {d : RouterData} {t t' : Tender}
    (h : T.Keyed) (hd : Decoded inp d) (ht : T.tenders.lookup d.tenderId = some t)
    (ht' : T.tenders.lookup inp.header.tenderId = some t') : t' = t := by
  have hne : inp.header.tenderId ≠ 0 := by
    intro hnull
    rw [hnull, h.null] at ht'
    cases ht'
  rw [← hd.tenderId hne, ht] at ht'
  exact (Option.some.inj ht').symm

section Link

variable {s : State} {rid : ID32} {d : RouterData} {inp : LinkInput} {fresh : RandomUUID}

/-- Reading a header and naming its tender decodes the message. -/
theorem decoded_nameTender (s : State) (inp : LinkInput) (fresh : RandomUUID) :
    Decoded inp ((s.extractHeader inp).nameTender fresh).routerData := by
  have hd : (s.extractHeader inp).routerData =
      { inp.header with winnersId := s.routerData.winnersId ++ inp.header.winnersId } :=
    s.routerData.decodeInto_eq inp.package
  rw [State.nameTender, named]
  split_ifs with hnull
  · rw [hd] at hnull ⊢
    exact ⟨rfl, fun h => absurd hnull h⟩
  · rw [hd]
    exact ⟨rfl, fun _ => rfl⟩

/-- No tender is nameless afterwards. -/
theorem nameTender_tenderId (s : State) (fresh : RandomUUID) :
    (s.nameTender fresh).routerData.tenderId ≠ 0 := by
  rw [State.nameTender, named]
  split_ifs with hnull
  · exact fresh.2
  · exact hnull

/-- A new tender goes to the kernel as one message, unless its payload cannot be read. -/
theorem postNewTenderToKernel_ends {k : ID32} {D X : State → Prop}
    (hdone : ∀ p, D (s.emit (.kernel p)))
    (hthrew : (∀ q, inp.package.payload s.routerData.headerSize ≠ .ok q) → X s) :
    (postNewTenderToKernel s inp k).Ends D X := by
  unfold postNewTenderToKernel
  dsimp only
  split
  · rename_i x hx
    refine hthrew fun q hq => ?_
    rw [hx] at hq
    cases hq
  · exact hdone _

/-- Forwarding is one message as well, and may fail for the same reason. -/
theorem forwardRemoteTender_ends {t : Tender} {D X : State → Prop}
    (hdone : ∀ l, D (s.emit (.link l))) (hthrew : X s) :
    (forwardRemoteTender s t inp).Ends D X := by
  unfold forwardRemoteTender
  split
  · exact hthrew
  · rw [Exit.ends_assert, Exit.ends_assert]
    exact fun _ _ => hdone _

/-- The tender the router makes of a message is the one the message describes. -/
theorem newTender_opened (hd : Decoded inp s.routerData) :
    (s.newTender inp).Opened s.requestCounter inp := by
  constructor <;> first | rfl | exact hd

/-- A message of a peer opens a tender, or leaves an orphan if its payload is malformed: the tender
is stored before the payload is read and enters the other containers after. -/
theorem processNewTender_changes {p : Pointer} (hd : Decoded inp s.routerData)
    (hin : inp.cmd = .receivedData) (hne : s.routerData.tenderId ≠ 0)
    (hkey : s.routerData.tenderId = p.id) (hcmd : isSyncCommand s.routerData.cmd = p.isSync)
    (hvalid : p.isSync = false → isInvalidNewTender s.routerData.cmd = false)
    (hnew : s.deref p = none) :
    Changes s.toTables s.maxHops s.requestCounter s.routerData (.link inp fresh)
      (processNewTender s p inp) := by
  refine Exit.ends_andThen.mpr (postNewTenderToKernel_ends (fun q => ?_) fun hbad => ?_)
  · have hopened : Change s.toTables s.maxHops s.requestCounter s.routerData (.link inp fresh)
        (((s.toTables.assign p (s.newTender inp)).insertId s.requestCounter p.id).pushTimeline p) :=
      .opened p inp fresh _ rfl hin (newTender_opened hd) rfl (hkey ▸ hne) hkey hcmd hvalid hnew
    rw [← hkey] at hopened
    exact hopened
  · exact .orphaned p inp fresh _ rfl hin (newTender_opened hd) rfl (hkey ▸ hne) hkey hcmd hvalid
      hnew hbad

/-- An announcement opens its tender; another message for an unknown tender is ignored. -/
theorem handleNewRemoteTender_changes (hd : Decoded inp s.routerData)
    (hin : inp.cmd = .receivedData) (hown : isOwnSyncTender s.routerData.cmd = false) :
    Changes s.toTables s.maxHops s.requestCounter s.routerData (.link inp fresh)
      (handleNewRemoteTender s inp) := by
  rw [Changes, handleNewRemoteTender, Exit.ends_assert, Exit.ends_assert, Exit.ends_assert]
  intro hne _ hnew
  refine Exit.ends_ite.mpr ⟨fun _ => .none, fun hvalid => Exit.ends_andThen.mpr ?_⟩
  have hsync : isSyncCommand s.routerData.cmd = false := by
    simp only [isOwnSyncTender, List.mem_cons, not_or, decide_eq_false_iff_not] at hown
    simp only [isSyncCommand, List.mem_cons, not_or, decide_eq_false_iff_not]
    exact ⟨hown.1, hown.2.1, List.not_mem_nil⟩
  have hprocess : Changes s.toTables s.maxHops s.requestCounter s.routerData (.link inp fresh)
      (processNewTender s (.tender s.routerData.tenderId) inp) :=
    processNewTender_changes hd hin hne rfl hsync
      (fun _ => Bool.eq_false_of_not_eq_true hvalid) hnew
  refine Exit.Ends.mono hprocess (fun s' hs' => ?_) fun _ h => h
  exact Exit.ends_ite.mpr ⟨fun _ => forwardRemoteTender_ends (fun _ => hs') hs', fun _ => hs'⟩

/-- A response the kernel gets is counted in the tender it answers. -/
theorem sendResponseToKernel_changes (hcmd : inp.cmd = .receivedData)
    (hdup : isKnownAnnouncement inp.header.cmd = false)
    (hopen : ∀ t, s.tenders.lookup inp.header.tenderId = some t → t.isCanceled = false) :
    Changes s.toTables s.maxHops rid d (.link inp fresh) (sendResponseToKernel s inp) := by
  unfold sendResponseToKernel
  dsimp only
  split
  · exact Change.none
  · split
    · trivial
    · rename_i t ht
      refine Exit.ends_ite.mpr ⟨fun _ => Change.none, fun hdata => ?_⟩
      rw [Exit.ends_assert, Exit.ends_assert]
      intro hrid _
      exact .updated _ t _ ht (.answered inp fresh rfl hcmd rfl hdup (hopen t ht) hrid hdata)

/-- A response for another node is passed on, and its tender keeps the new hop count. -/
theorem bypassTenderResponse_changes (hd : Decoded inp s.routerData)
    (hcmd : inp.cmd = .receivedData) (hdup : isKnownAnnouncement inp.header.cmd = false)
    (hopen : ∀ t, s.tenders.lookup inp.header.tenderId = some t →
      t.isCanceled = false ∧ t.typ = .remote) :
    Changes s.toTables s.maxHops rid d (.link inp fresh) (bypassTenderResponse s inp) := by
  unfold bypassTenderResponse
  dsimp only
  split
  · trivial
  · rename_i t ht
    rw [Changes, Exit.ends_assert, Exit.ends_done]
    intro hrid
    have hupdate : Change s.toTables s.maxHops rid d (.link inp fresh) _ :=
      .updated _ t _ ht (.bypassed inp fresh rfl hcmd rfl hdup (hopen t ht).1 (hopen t ht).2 hrid)
    rw [← hd.cmd] at hupdate
    by_cases hrewrite : s.routerData.cmd ∈ [.saveStreamOffer, .peerFound, .sendToPeer]
    · rw [if_pos hrewrite] at hupdate ⊢
      exact hupdate
    · rw [if_neg hrewrite] at hupdate ⊢
      exact hupdate

/-- A response goes one of the two ways, unless the tender is canceled. -/
theorem processExistingTenderData_changes {t : Tender} (hs : s.Keyed)
    (hd : Decoded inp s.routerData) (hcmd : inp.cmd = .receivedData)
    (hdup : isKnownAnnouncement inp.header.cmd = false)
    (ht : s.tenders.lookup s.routerData.tenderId = some t) :
    Changes s.toTables s.maxHops rid d (.link inp fresh) (processExistingTenderData s t inp) := by
  have hsame : ∀ t', s.tenders.lookup inp.header.tenderId = some t' → t' = t :=
    fun t' ht' => hs.lookup_header hd ht ht'
  unfold processExistingTenderData
  refine Exit.ends_ite.mpr ⟨fun _ => Change.none, fun hopen => ?_⟩
  have hopen' : t.isCanceled = false := Bool.eq_false_of_not_eq_true hopen
  have hresponse : Changes s.toTables s.maxHops rid d (.link inp fresh)
      (sendResponseToKernel s inp) :=
    sendResponseToKernel_changes hcmd hdup fun t' ht' => hsame t' ht' ▸ hopen'
  cases htyp : t.typ with
  | internal => exact hresponse
  | remote =>
    refine Exit.ends_ite.mpr ⟨fun _ => hresponse, fun _ => ?_⟩
    exact bypassTenderResponse_changes hd hcmd hdup fun t' ht' => hsame t' ht' ▸ ⟨hopen', htyp⟩

/-- A known announcement is a copy and is dropped; anything else is a response, and a refusal among
them removes the tender. -/
theorem processExistingTender_changes {t : Tender} (hs : s.Keyed) (hd : Decoded inp s.routerData)
    (hcmd : inp.cmd = .receivedData) (ht : s.tenders.lookup s.routerData.tenderId = some t) :
    Changes s.toTables s.maxHops rid d (.link inp fresh) (processExistingTender s t inp) := by
  rw [Changes, processExistingTender, Exit.ends_assert, Exit.ends_assert]
  intro _ _
  refine Exit.ends_ite.mpr ⟨fun _ => .none, fun hdup => ?_⟩
  refine Exit.ends_ite.mpr ⟨fun _ => ?_, fun _ => ?_⟩
  · exact cleanUpTenderInfo_changes (p := .tender s.routerData.tenderId) ht rfl
      (hs.sync (.tender s.routerData.tenderId) t ht)
  · have hdup' := Bool.eq_false_of_not_eq_true hdup
    rw [hd.cmd] at hdup'
    exact processExistingTenderData_changes hs hd hcmd hdup' ht

/-- A message of a synchronization opens its tender or confirms it. -/
theorem handleSyncTenders_changes (hd : Decoded inp s.routerData)
    (hin : inp.cmd = .receivedData) (hne : s.routerData.tenderId ≠ 0) :
    Changes s.toTables s.maxHops s.requestCounter s.routerData (.link inp fresh)
      (handleSyncTenders s inp) := by
  refine Changes.andThen_reset ?_
  split
  · rename_i hnone
    unfold handleNewSyncTender
    refine Exit.ends_ite.mpr ⟨fun _ => .none, fun _ => ?_⟩
    rw [Exit.ends_assert, Exit.ends_assert]
    intro hmem hnew
    refine processNewTender_changes (p := .syncTender s.routerData.tenderId) hd hin hne rfl ?_
      (fun h => absurd h (by simp [Pointer.isSync])) hnew
    simp only [List.mem_cons, List.not_mem_nil, or_false] at hmem
    rcases hmem with h | h <;> rw [h] <;> rfl
  · rename_i t ht
    exact postNewTenderToKernel_ends (fun _ => .resynced _ t ht) fun _ => .resynced _ t ht

/-- What the router does with a message that has a tender. -/
theorem handleRouterData_changes (hs : s.Keyed) (hd : Decoded inp s.routerData)
    (hne : s.routerData.tenderId ≠ 0) (hcmd : inp.cmd = .receivedData) :
    Changes s.toTables s.maxHops s.requestCounter s.routerData (.link inp fresh)
      (handleRouterData s inp) := by
  refine Exit.ends_ite.mpr ⟨fun _ => handleSyncTenders_changes hd hcmd hne, fun hown => ?_⟩
  rw [Exit.ends_assert, Exit.ends_assert]
  intro _ _
  refine Exit.ends_andThen.mpr ?_
  split
  · exact (handleNewRemoteTender_changes hd hcmd (Bool.eq_false_of_not_eq_true hown)).mono
      (fun _ h => h) fun _ h => h
  · rename_i t ht
    exact (processExistingTender_changes hs hd hcmd ht).mono (fun _ h => h) fun _ h => h

/-- What it does with any package of the link. -/
theorem processLinkInput_changes (hs : s.Keyed) :
    Changes s.toTables s.maxHops s.requestCounter
      ((s.extractHeader inp).nameTender fresh).routerData (.link inp fresh)
      (processLinkInput s inp fresh) := by
  unfold processLinkInput
  refine Exit.ends_ite.mpr ⟨fun _ => ?_, fun _ => Exit.ends_ite.mpr ⟨fun hcmd => ?_, fun _ => ?_⟩⟩
  · rw [handleLinkNack, Exit.ends_assert]
    intro _
    split
    · exact Change.none
    · rename_i t ht
      exact cleanUpTender_changes (s := s.extractHeader inp) ht (hs.sync (.tender _) t ht)
  · have hd := decoded_nameTender s inp fresh
    have hne := nameTender_tenderId (s.extractHeader inp) fresh
    exact handleRouterData_changes (s := (s.extractHeader inp).nameTender fresh) hs hd hne hcmd
  · exact Exit.ends_ite.mpr ⟨fun _ => Change.none, fun _ => Change.none⟩

end Link

/-! ### Every step -/

section Step

variable {s : State} {rid : ID32} {d : RouterData} {e : Event}

/-- As `withTender_changes`, for `m_sync_tenders`. -/
theorem withSyncTender_changes {k : ID32} {f : UUID → Tender → Outcome}
    (h : ∀ i t, s.syncTenders.lookup i = some t → Changes s.toTables s.maxHops rid d e (f i t)) :
    Changes s.toTables s.maxHops rid d e (withSyncTender s k f) := by
  unfold withSyncTender
  split
  · exact Change.none
  · split
    · exact Change.none
    · rename_i t ht
      exact h _ t ht

/-- Data of a synchronization is sent, and no container is written to. -/
theorem handleSyncDataTransfer_changes {inp : KernelPackage} :
    Changes s.toTables s.maxHops rid d e (handleSyncDataTransfer s inp) := by
  refine withSyncTender_changes fun i t ht => Exit.ends_andThen.mpr (Exit.ends_ite.mpr ⟨?_, ?_⟩)
  · exact fun _ => postSyncRequestToLinkPeer_ends fun l => sendTenderData_ends fun _ l => .none
  · exact fun _ => sendTenderData_ends fun _ l => .none

/-- The end of a synchronization removes its tender. -/
theorem handleKernelSyncFinished_changes {inp : KernelPackage} :
    Changes s.toTables s.maxHops rid d e (handleKernelSyncFinished s inp) := by
  refine withSyncTender_changes fun i t ht => Exit.ends_andThen.mpr ?_
  refine postSyncRequestToLinkPeer_ends fun l => Exit.ends_andThen.mpr ?_
  exact sendTenderData_ends fun _ l => cleanUpSyncTenderInfo_changes (p := .syncTender i) ht rfl

/-- A request to save is announced with the version and the dates of its object. -/
theorem handleKernelSaveRequest_changes {inp : KernelPackage} {fresh : RandomUUID}
    (he : e = .kernel inp fresh ∨ e = .backup inp fresh) :
    Changes s.toTables s.maxHops rid d e (handleKernelSaveRequest s inp fresh) := by
  refine announce_changes he (by decide) fun t ht => ?_
  exact ⟨ht.tenderId, ht.cmd, ht.valid, ht.uuid, ht.hopId, ht.requestId, ht.typ, ht.st, ht.prs,
    ht.winners, ht.open'⟩

/-- A search for a peer is announced with the key it looks for. -/
theorem handleKernelFindPeer_changes {inp : KernelPackage} {fresh : RandomUUID}
    (he : e = .kernel inp fresh ∨ e = .backup inp fresh) :
    Changes s.toTables s.maxHops rid d e (handleKernelFindPeer s inp fresh) := by
  refine announce_changes he (by decide) fun t ht => ?_
  exact ⟨ht.tenderId, ht.cmd, ht.valid, ht.uuid, ht.hopId, ht.requestId, ht.typ, ht.st, ht.prs,
    ht.winners, ht.open'⟩

/-- The tenders of `m_tenders` have no command of a synchronization. -/
theorem Tables.Keyed.sync_tender {T : Tables} (h : T.Keyed) {i : UUID} {t : Tender}
    (ht : T.tenders.lookup i = some t) : isSyncCommand t.cmd = false := h.sync (.tender i) t ht

/-- What the router does with any package of the kernel. -/
theorem processKernelInput_changes (hs : s.Keyed) {inp : KernelPackage} {fresh : RandomUUID} :
    Changes s.toTables s.maxHops rid d (.kernel inp fresh) (processKernelInput s inp fresh) := by
  have he : Event.kernel inp fresh = .kernel inp fresh ∨
      Event.kernel inp fresh = .backup inp fresh :=
    .inl rfl
  unfold processKernelInput
  refine Exit.ends_ite.mpr ⟨fun _ => announce_changes he (by decide) fun t ht => ht, fun _ => ?_⟩
  refine Exit.ends_ite.mpr ⟨fun _ => handleKernelSaveRequest_changes he, fun _ => ?_⟩
  refine Exit.ends_ite.mpr ⟨fun _ => announce_changes he (by decide) fun t ht => ht, fun _ => ?_⟩
  refine Exit.ends_ite.mpr ⟨fun _ => announce_changes he (by decide) fun t ht => ht, fun _ => ?_⟩
  refine Exit.ends_ite.mpr ⟨fun _ => announce_changes he (by decide) fun t ht => ht, fun _ => ?_⟩
  refine Exit.ends_ite.mpr ⟨fun _ => announce_changes he (by decide) fun t ht => ht, fun _ => ?_⟩
  refine Exit.ends_ite.mpr ⟨fun _ => announce_changes he (by decide) fun t ht => ht, fun _ => ?_⟩
  refine Exit.ends_ite.mpr ⟨fun _ => handleKernelFindPeer_changes he, fun _ => ?_⟩
  refine Exit.ends_ite.mpr
    ⟨fun h => handleRefuse_changes (if_pos h) fun i t ht => hs.sync_tender ht, fun _ => ?_⟩
  refine Exit.ends_ite.mpr ⟨fun _ => handleKernelClearRequest_changes, fun _ => ?_⟩
  refine Exit.ends_ite.mpr ⟨fun _ => handleKernelOffer_changes, fun _ => ?_⟩
  refine Exit.ends_ite.mpr ⟨fun _ => handleKernelAcceptForMultiwinnerTender_changes, fun _ => ?_⟩
  refine Exit.ends_ite.mpr ⟨fun _ => handleKernelConfirmForMultiwinnerTender_changes, fun _ => ?_⟩
  refine Exit.ends_ite.mpr ⟨fun _ => handleSyncDataTransfer_changes, fun _ => ?_⟩
  refine Exit.ends_ite.mpr ⟨fun _ => handleKernelSyncFinished_changes, fun _ => ?_⟩
  refine Exit.ends_ite.mpr ⟨fun _ => handleKernelGetUuidRequest_changes, fun _ => ?_⟩
  refine Exit.ends_ite.mpr ⟨fun _ => handleKernelDataTransfer_changes, fun _ => ?_⟩
  exact Change.none

/-- A router without its configuration ignores its inputs. -/
theorem whenConfigured_changes {o : Outcome} (h : Changes s.toTables s.maxHops rid d e o) :
    Changes s.toTables s.maxHops rid d e (whenConfigured s o) :=
  Exit.ends_ite.mpr ⟨fun _ => h, fun _ => Change.none⟩

/-- A tender that expires is removed under the pointer the timeline had for it, after the messages
to the kernel and to the peer. -/
theorem handleExpiredTenders_changes (hs : s.Keyed) {p : Pointer} :
    Changes s.toTables s.maxHops rid d e (handleExpiredTenders s p) := by
  refine Exit.ends_ite.mpr ⟨fun _ => ?_, fun _ => Change.none⟩
  split
  · trivial
  · rename_i t ht
    refine Exit.ends_ite.mpr ⟨fun hcmd => ?_, fun _ => ?_⟩
    · refine Exit.ends_andThen.mpr (postSyncRequestToLinkPeer_ends fun l => ?_)
      have hsame : ((if t.isCanceled then s else cancelRequest s t.requestId).emit
          (.link l)).toTables = s.toTables := by
        split_ifs
        · rfl
        · exact cancelRequest_toTables
      have hmaxHops : ((if t.isCanceled then s else cancelRequest s t.requestId).emit
          (.link l)).maxHops = s.maxHops := by
        unfold cancelRequest
        split_ifs <;> rfl
      have hclean : Changes _ _ rid d e _ := cleanUpSyncTenderInfo_changes (t := t) (p := p)
        (by rw [hsame]; exact ht) ((hs.sync p t ht).symm.trans hcmd)
      rw [hsame, hmaxHops] at hclean
      exact hclean
    · exact cleanUpTender_changes (s := { s with responses := s.responses.erase t.tenderId }) ht
        (hs.sync p t ht)

/-- What a message decodes to in `m_router_data`. -/
def State.message (s : State) : Event → RouterData
  | .link inp fresh => ((s.extractHeader inp).nameTender fresh).routerData
  | _ => s.routerData

/-- Every event is one change. -/
theorem perform_changes (hs : s.Keyed) (e : Event) :
    Changes s.toTables s.maxHops s.requestCounter (s.message e) e (perform s e) := by
  cases e with
  | config maxHops => exact Change.none
  | kernel inp fresh => exact whenConfigured_changes (processKernelInput_changes hs)
  | backup inp fresh =>
    refine whenConfigured_changes (Exit.ends_ite.mpr ⟨fun _ => ?_, fun _ => Change.none⟩)
    exact handleKernelSaveRequest_changes (.inr rfl)
  | storage inp =>
    refine whenConfigured_changes (Exit.ends_ite.mpr ⟨fun _ => ?_, fun _ => ?_⟩)
    · exact handleStorageDataTransfer_changes
    · refine Exit.ends_ite.mpr ⟨fun h => ?_, fun _ => Change.none⟩
      exact handleRefuse_changes (if_pos h) fun i t ht => hs.sync_tender ht
  | storageWriter inp =>
    refine whenConfigured_changes (Exit.ends_ite.mpr ⟨fun _ => ?_, fun _ => Change.none⟩)
    exact handleStorageDataTransfer_changes
  | link inp fresh => exact processLinkInput_changes hs
  | timeout p => exact handleExpiredTenders_changes hs

/-- **What a step does.** Every step of a router whose tenders are keyed makes one change. -/
theorem step_change {s' : State} (hs : s.Keyed) (h : step s e = some s') :
    Change s.toTables s.maxHops s.requestCounter (s.message e) e s'.toTables := by
  have hchanges := perform_changes (s := { s with out := [] }) hs e
  exact Exit.Ends.of_state (D := fun s' => Change _ _ _ _ e s'.toTables) hchanges h

end Step

end Router

end Metax
