import Metax.Protocol.RoundTrip
import Metax.Router.Sending
import Metax.Router.Survival

/-!
# The announcement of a multi-winner tender

What a router does with the announcement of a tender that has several winners: its kernel's, the
first copy that arrives, and the copies of one it knows. The first copy is given to the kernel at
once and passed on to the other peers, unless it has one hop left.

The results are equations: in a state that meets what they ask for a step ends in exactly this state
with exactly these messages (`step_first`, `step_floods`). The flood of the whole network is put
together from them (`Metax.Network.FloodCoverage`).
-/

namespace Metax

namespace Router

variable {s s' : State} {d : RouterData} {q : Payload} {peer : ID32} {beyond : Bytes}
  {fresh : RandomUUID}

/-- A header as a router writes it for an announcement: no version, no winners. -/
structure Heading (d : RouterData) : Prop where
  version : d.version = 0
  winners : d.winnersId = []
  tenderId : d.tenderId ≠ 0
  multi : isFirstCommandOfMultiwinnerTender d.cmd = true

/-- The message `d`, `q` arrives from a peer. -/
def copyFrom (d : RouterData) (q : Payload) (peer : ID32) (beyond : Bytes) : LinkInput :=
  ⟨.receivedData, {peer}, ⟨d.serialize q, beyond⟩⟩

/-- What the kernel is told about an announcement. -/
def toldOf (d : RouterData) (q : Payload) (rid : ID32) : KernelPackage where
  requestId := rid
  cmd := d.cmd
  uuid := d.uuid
  maxResponseCnt := 1
  dataVersion := d.dataVersion
  lastUpdated := d.lastUpdated
  expireDate := d.expireDate
  payload := q

/-- The package an announcement is passed on with. -/
def passedOn (d : RouterData) (q : Payload) (peer : ID32) : LinkPackage where
  cmd := .broadcastExcept
  peers := {peer}
  cmdRating := getCommandRating d.cmd
  shouldBlockBySync := d.cmd = .get
  message := { d with hopId := d.hopId - 1 }.serialize q

theorem multi_cases {cmd : Command} (h : isFirstCommandOfMultiwinnerTender cmd = true) :
    cmd ∈ [.save, .update, .notifyUpdate, .notifyDelete, .del, .copy] := of_decide_eq_true h

/-- The commands of multi-winner tenders are announcements of no synchronization. -/
theorem valid_of_multi {cmd : Command} (h : isFirstCommandOfMultiwinnerTender cmd = true) :
    isInvalidNewTender cmd = false ∧ isOwnSyncTender cmd = false ∧ isSyncCommand cmd = false ∧
      cmd ≠ .maxCommand ∧ cmd ≠ .syncFinished := by
  have hcmd := multi_cases h
  simp only [List.mem_cons, List.not_mem_nil, or_false] at hcmd
  rcases hcmd with rfl | rfl | rfl | rfl | rfl | rfl <;> decide

section

variable (hd : Heading d)

include hd

/-- What is written in a header is read from it. -/
theorem Heading.header : (copyFrom d q peer beyond).header = d :=
  RouterData.ofPackage_serialize d q beyond (by rw [hd.winners]; simp)

/-- And the payload behind it. -/
theorem Heading.payload :
    (copyFrom d q peer beyond).package.payload d.headerSize = .ok q :=
  RouterData.payload_serialize d q beyond (by rw [hd.winners]; simp)

/-- The hop count is free, so a copy that goes on has such a header too. -/
theorem Heading.hopId (x : UInt16) : Heading { d with hopId := x } :=
  ⟨hd.version, hd.winners, hd.tenderId, hd.multi⟩

/-- The tender a copy is about. -/
theorem Heading.message :
    (s.message (.link (copyFrom d q peer beyond) fresh)).tenderId = d.tenderId := by
  have hheader : (copyFrom d q peer beyond).header = d := hd.header
  have hdecoded := decoded_nameTender s (copyFrom d q peer beyond) fresh
  exact (hdecoded.tenderId (hheader.symm ▸ hd.tenderId)).trans (congrArg _ hheader)

/-- The member `m_router_data` is the message. -/
theorem Heading.received (hs : s.routerData.winnersId = []) :
    (s.received (copyFrom d q peer beyond) fresh).routerData = d := by
  have hdecoded : s.routerData.decodeInto (copyFrom d q peer beyond).package = d := by
    have hheader : RouterData.ofPackage (copyFrom d q peer beyond).package = d := hd.header
    rw [RouterData.decodeInto_eq, hheader, hs, List.nil_append]
  rw [State.received, State.nameTender, State.extractHeader]
  dsimp only
  rw [hdecoded, named, if_neg hd.tenderId]

end

theorem received_toTables (s : State) (inp : LinkInput) (fresh : RandomUUID) :
    (s.received inp fresh).toTables = s.toTables := rfl

theorem received_requestCounter (s : State) (inp : LinkInput) (fresh : RandomUUID) :
    (s.received inp fresh).requestCounter = s.requestCounter := rfl

theorem received_out (s : State) (inp : LinkInput) (fresh : RandomUUID) :
    (s.received inp fresh).out = [] := rfl

/-! ### The first copy -/

/-- The kernel is told, since the payload parses. -/
theorem postNewTenderToKernel_eq {inp : LinkInput} (rid : ID32)
    (h : inp.package.payload s.routerData.headerSize = .ok q) :
    postNewTenderToKernel s inp rid = .done (s.emit (.kernel (toldOf s.routerData q rid))) := by
  simp only [postNewTenderToKernel, h]
  rfl

/-- A router after it stored a tender and told its kernel. -/
def State.opened (s : State) (p : Pointer) (inp : LinkInput) (q : Payload) : State :=
  (({ s.assign p (s.newTender inp) with requestCounter := nextRequestId s.requestCounter }).emit
    (.kernel (toldOf s.routerData q s.requestCounter))).enter p s.requestCounter
      s.routerData.tenderId

/-- The tender is stored and entered. -/
theorem processNewTender_eq {inp : LinkInput} {p : Pointer}
    (h : inp.package.payload s.routerData.headerSize = .ok q) :
    processNewTender s p inp = .done (s.opened p inp q) := by
  have hpost := postNewTenderToKernel_eq (s := { s.assign p (s.newTender inp) with
    requestCounter := nextRequestId s.requestCounter }) s.requestCounter h
  rw [processNewTender, hpost]
  rfl

/-- It can be found under its id. -/
theorem opened_lookup {inp : LinkInput} {i : UUID} :
    ((s.opened (.tender i) inp q).tenders.lookup i).isSome := by
  have hstored : (s.opened (.tender i) inp q).deref (.tender i) = some (s.newTender inp) := by
    rw [State.opened, State.enter_toTables, Tables.deref_pushTimeline, Tables.deref_insertId,
      State.emit_toTables, State.assign_toTables, Tables.deref_assign, if_pos rfl]
  exact Option.isSome_of_mem hstored

/-- The package a copy is passed on with: all peers but the one it came from. -/
theorem link_newTender {inp : LinkInput} (hd : Heading s.routerData) (hpeers : inp.peers = {peer}) :
    (s.newTender inp).link .broadcastExcept (s.newTender inp).prs q =
      passedOn s.routerData q peer := by
  have hheader : (s.newTender inp).writeRouterData = s.routerData := by
    have hversion := hd.version
    have hwinners := hd.winners
    rw [Tender.writeRouterData, State.newTender]
    generalize s.routerData = d at *
    obtain ⟨version, _, _, _, _, _, _, _, winners⟩ := d
    simp only at hversion hwinners
    rw [hversion, hwinners]
    rfl
  rw [Tender.link, hheader, passedOn]
  simp only [State.newTender, hpeers]

/-- Passing on is that one package. -/
theorem forwardRemoteTender_eq {inp : LinkInput} {t : Tender}
    (h : inp.package.payload s.routerData.headerSize = .ok q) (hprs : t.prs.card = 1)
    (htyp : t.typ = .remote) :
    forwardRemoteTender s t inp = .done (s.emit (.link (t.link .broadcastExcept t.prs q))) := by
  simp only [forwardRemoteTender, h]
  rw [Exit.assert_of_pos hprs, Exit.assert_of_pos htyp]

/-- The handling of the first copy. -/
theorem handleRouterData_first {inp : LinkInput} (hd : Heading s.routerData) (hout : s.out = [])
    (hnew : s.tenders.lookup s.routerData.tenderId = none) (hpeers : inp.peers = {peer})
    (hpayload : inp.package.payload s.routerData.headerSize = .ok q) :
    ∃ s', handleRouterData s inp = .done s' ∧
      (s'.tenders.lookup s.routerData.tenderId).isSome ∧ s'.routerData.winnersId = [] ∧
      s'.out = .kernel (toldOf s.routerData q s.requestCounter) ::
        if s.routerData.hopId = 1 then [] else [.link (passedOn s.routerData q peer)] := by
  obtain ⟨hvalid, hsync, -, hmax, -⟩ := valid_of_multi hd.multi
  rw [handleRouterData, if_neg (by rw [hsync]; decide), Exit.assert_of_pos hd.tenderId,
    Exit.assert_of_pos hmax]
  simp only [hnew]
  rw [handleNewRemoteTender, Exit.assert_of_pos hd.tenderId, Exit.assert_of_pos hmax,
    Exit.assert_of_pos hnew, if_neg (by rw [hvalid]; decide), processNewTender_eq hpayload,
    Exit.done_andThen]
  by_cases hhop : s.routerData.hopId = 1
  · rw [if_neg fun h => h.2 hhop, Exit.done_andThen]
    refine ⟨_, rfl, opened_lookup, rfl, ?_⟩
    rw [if_pos hhop]
    exact congrArg (· ++ _) hout
  · have hprs : (s.newTender inp).prs.card = 1 :=
      (congrArg Finset.card hpeers).trans (Finset.card_singleton peer)
    have hforward := forwardRemoteTender_eq
      (s := s.opened (.tender s.routerData.tenderId) inp q) hpayload hprs rfl
    rw [if_pos ⟨hd.multi, hhop⟩, hforward, Exit.done_andThen]
    refine ⟨_, rfl, opened_lookup, rfl, ?_⟩
    rw [if_neg hhop, link_newTender hd hpeers]
    simp only [State.resetRouterData, State.emit, State.opened, State.enter, State.assign, hout,
      List.nil_append, List.singleton_append]

/-- **The first copy** is given to the kernel, and passed on if it has more than one hop left. -/
theorem step_first (hd : Heading d) (hs : s.routerData.winnersId = [])
    (hnew : s.tenders.lookup d.tenderId = none) :
    ∃ s', step s (.link (copyFrom d q peer beyond) fresh) = some s' ∧
      (s'.tenders.lookup d.tenderId).isSome ∧ s'.routerData.winnersId = [] ∧
      s'.out = .kernel (toldOf d q s.requestCounter) ::
        if d.hopId = 1 then [] else [.link (passedOn d q peer)] := by
  have hreceived : (s.received (copyFrom d q peer beyond) fresh).routerData = d := hd.received hs
  have hpayload : (copyFrom d q peer beyond).package.payload d.headerSize = .ok q := hd.payload
  have htables := received_toTables s (copyFrom d q peer beyond) fresh
  have hcounter := received_requestCounter s (copyFrom d q peer beyond) fresh
  have hout := received_out s (copyFrom d q peer beyond) fresh
  rw [step, outcome_receivedData rfl]
  generalize s.received (copyFrom d q peer beyond) fresh = r at *
  rw [← hreceived] at hd hpayload ⊢
  rw [← hcounter]
  rw [← htables, ← hreceived] at hnew
  obtain ⟨s', hstep, hs'⟩ := handleRouterData_first hd hout hnew rfl hpayload
  rw [hstep]
  exact ⟨s', rfl, hs'⟩

/-! ### The other copies -/

/-- A write to any tender keeps the others. -/
theorem stored_assign {T : Tables} {p p' : Pointer} {t : Tender} (h : (T.deref p).isSome) :
    ((T.assign p' t).deref p).isSome := by
  rw [Tables.deref_assign]
  split_ifs
  · rfl
  · exact h

/-- The tender of a copy stays in the tables. -/
theorem processExistingTender_stored {inp : LinkInput} {t : Tender} {p : Pointer}
    (hmulti : isFirstCommandOfMultiwinnerTender s.routerData.cmd = true) (ht : (s.deref p).isSome) :
    (processExistingTender s t inp).Ends (fun s' => (s'.deref p).isSome)
      fun s' => (s'.deref p).isSome := by
  obtain ⟨-, -, -, -, hfinished⟩ := valid_of_multi hmulti
  have hresponse : (sendResponseToKernel s inp).Ends (fun s' => (s'.deref p).isSome)
      fun s' => (s'.deref p).isSome := by
    rw [sendResponseToKernel]
    dsimp only
    split
    · exact ht
    · split
      · trivial
      · refine Exit.ends_ite.mpr ⟨fun _ => ht, fun _ => ?_⟩
        rw [Exit.ends_assert, Exit.ends_assert]
        exact fun _ _ => stored_assign ht
  have hbypass : (bypassTenderResponse s inp).Ends (fun s' => (s'.deref p).isSome)
      fun s' => (s'.deref p).isSome := by
    rw [bypassTenderResponse]
    dsimp only
    split
    · trivial
    · rw [Exit.ends_assert]
      exact fun _ => stored_assign ht
  rw [processExistingTender, Exit.ends_assert, Exit.ends_assert]
  intro _ _
  refine Exit.ends_ite.mpr ⟨fun _ => ht, fun _ => ?_⟩
  rw [if_neg hfinished, processExistingTenderData]
  refine Exit.ends_ite.mpr ⟨fun _ => ht, fun _ => ?_⟩
  cases t.typ with
  | remote => exact Exit.ends_ite.mpr ⟨fun _ => hresponse, fun _ => hbypass⟩
  | internal => exact hresponse

section

variable (hd : Heading d)

include hd

/-- **Another copy** leaves the tender where it is. -/
theorem stored_known (ht : (s.tenders.lookup d.tenderId).isSome)
    (hstep : step s (.link (copyFrom d q peer beyond) fresh) = some s') :
    (s'.tenders.lookup d.tenderId).isSome := by
  obtain ⟨-, hsync, -, -, -⟩ := valid_of_multi hd.multi
  have hheader : (copyFrom d q peer beyond).header = d := hd.header
  obtain ⟨hcmd, hkey⟩ := received_header s fresh hheader hd.tenderId
  have htables := received_toTables s (copyFrom d q peer beyond) fresh
  rw [step, outcome_receivedData rfl] at hstep
  generalize s.received (copyFrom d q peer beyond) fresh = r at *
  obtain ⟨t, ht⟩ := Option.isSome_iff_exists.mp ht
  have hlook : r.tenders.lookup r.routerData.tenderId = some t := by
    rw [hkey, htables]
    exact ht
  have hstored : (r.deref (.tender d.tenderId)).isSome := by
    rw [← hkey]
    exact Option.isSome_of_mem hlook
  rw [handleRouterData, if_neg (by rw [hcmd, hsync]; decide)] at hstep
  simp only [hlook] at hstep
  have hends : (Exit.assert (r.routerData.tenderId ≠ 0) <|
      Exit.assert (r.routerData.cmd ≠ .maxCommand) <|
        (processExistingTender r t (copyFrom d q peer beyond)).andThen fun s =>
          .done s.resetRouterData).Ends (fun s' => (s'.deref (.tender d.tenderId)).isSome)
      fun s' => (s'.deref (.tender d.tenderId)).isSome := by
    rw [Exit.ends_assert, Exit.ends_assert, Exit.ends_andThen]
    exact fun _ _ => processExistingTender_stored (hcmd ▸ hd.multi) hstored
  exact hends.of_state hstep

/-- What is sent because of it, if the command is not one whose copies are dropped, is a copy with
one hop less. -/
theorem sent_known (hs : s.Pointed) (ht : (s.tenders.lookup d.tenderId).isSome)
    (hstep : step s (.link (copyFrom d q peer beyond) fresh) = some s') {l : LinkPackage}
    (hl : .link l ∈ s'.out) : isKnownAnnouncement d.cmd = false ∧
      l.message = { d with hopId := d.hopId - 1 }.serialize q := by
  have hheader : (copyFrom d q peer beyond).header = d := hd.header
  have hsent := step_sent hs.toKeyed hstep (.link l) hl
  cases hsent with
  | announced inp fresh t he ht => exact absurd he (by simp)
  | transferred p t ht hprs he => exact he.1.elim
  | accepted i t ht hwinners l => exact absurd (hs.winners (.tender i) t ht) hwinners
  | synchronized cmd hcmd he peers => exact he.1.elim
  | refused k i t he => cases he
  | forwarded inp fresh' t he hin hd' hpeers hmulti hhop hnew =>
    rw [hd.message] at hnew
    rw [hnew] at ht
    cases ht
  | bypassed inp fresh t he hin ht hsync hdup =>
    obtain ⟨rfl, -⟩ := Event.link.inj he
    rw [hheader] at hdup ⊢
    exact ⟨hdup, RouterData.updateHopId_serialize d q _⟩

end

/-! ### The announcement itself -/

/-- The kernel, or its backup, asks for a multi-winner tender. -/
def Event.Floods (e : Event) (inp : KernelPackage) (fresh : RandomUUID) : Prop :=
  (e = .kernel inp fresh ∧ isFirstCommandOfMultiwinnerTender inp.cmd = true) ∨
    (e = .backup inp fresh ∧ inp.cmd ∈ [.save, .update])

/-- The header of its announcement; the dates of a notification stay at zero. -/
def announcedHeader (inp : KernelPackage) (fresh : RandomUUID) : RouterData :=
  { RouterData.new with
    tenderId := fresh.1
    cmd := inp.cmd
    uuid := inp.uuid
    dataVersion := inp.dataVersion
    lastUpdated := if inp.cmd ∈ [.notifyUpdate, .notifyDelete] then 0 else inp.lastUpdated
    expireDate := if inp.cmd ∈ [.notifyUpdate, .notifyDelete] then 0 else inp.expireDate }

/-- A tender was stored and its message is broadcast. -/
structure Broadcasts (i : UUID) (message : Bytes) (s s' : State) : Prop where
  stored : (s'.tenders.lookup i).isSome
  routerData : s'.routerData = s.routerData
  out : ∃ l, s'.out = [.link l] ∧ l.cmd = .broadcast ∧ l.message = message

/-- What a handler of the kernel's requests ends in. -/
theorem announce_broadcasts {cmds : List Command} {copyFields : KernelPackage → Tender → Tender}
    {inp : KernelPackage} (hheader : ∀ t : Tender, t.toRouterData = { RouterData.new with
      tenderId := fresh.1, cmd := inp.cmd, uuid := inp.uuid, hopId := s.maxHops } →
        { (copyFields inp t).writeRouterData with hopId := (copyFields inp t).hopId - 1 } = d)
    (hstep : (announce cmds copyFields { s with out := [] } inp fresh).state = some s') :
    Broadcasts fresh.1 (d.serialize inp.payload) s s' := by
  have hends : (announce cmds copyFields { s with out := [] } inp fresh).Ends
      (Broadcasts fresh.1 (d.serialize inp.payload) s)
      (Broadcasts fresh.1 (d.serialize inp.payload) s) := by
    rw [announce, Exit.ends_assert, Exit.ends_assert, Exit.ends_assert]
    intro _ _ _
    dsimp only
    rw [Exit.ends_done, postLinkKernelTender]
    have hstored : ∀ t, (((s.toTables.assign (.tender fresh.1) t).insertId inp.requestId
        fresh.1).pushTimeline (.tender fresh.1)).deref (.tender fresh.1) = some t := by
      intro t
      rw [Tables.deref_pushTimeline, Tables.deref_insertId, Tables.deref_assign, if_pos rfl]
    refine ⟨?_, rfl, _, rfl, ?_, ?_⟩
    · exact Option.isSome_of_mem (hstored _)
    · rfl
    · exact congrArg (RouterData.serialize · inp.payload) (hheader _ rfl)
  exact hends.of_state hstep

section

variable {e : Event} {inp : KernelPackage} (he : e.Floods inp fresh)

include he

/-- What floods is the announcement of a multi-winner tender. -/
theorem Event.Floods.multi : isFirstCommandOfMultiwinnerTender inp.cmd = true := by
  rcases he with ⟨-, h⟩ | ⟨-, h⟩
  · exact h
  · simp only [List.mem_cons, List.not_mem_nil, or_false] at h
    rcases h with h | h <;> rw [h] <;> rfl

/-- Its header is as a router writes it. -/
theorem Event.Floods.heading : Heading (announcedHeader inp fresh) :=
  ⟨rfl, rfl, fresh.2, he.multi⟩

/-- **The announcement** goes to all peers. -/
theorem step_floods (hconf : s.isConfigured) (hstep : step s e = some s') :
    Broadcasts fresh.1
      ({ announcedHeader inp fresh with hopId := s.maxHops - 1 }.serialize inp.payload) s s' := by
  have hsave : (handleKernelSaveRequest { s with out := [] } inp fresh).state = some s' →
      inp.cmd ∉ [.notifyUpdate, .notifyDelete] → Broadcasts fresh.1
        ({ announcedHeader inp fresh with hopId := s.maxHops - 1 }.serialize inp.payload) s s' := by
    intro hstate hcmd
    refine announce_broadcasts ?_ hstate
    intro t ht
    rw [Tender.writeRouterData, announcedHeader, if_neg hcmd, if_neg hcmd]
    simp only [ht]
  have hnotify : (handleKernelFindPeer { s with out := [] } inp fresh).state = some s' →
      inp.cmd ∈ [.notifyUpdate, .notifyDelete] → Broadcasts fresh.1
        ({ announcedHeader inp fresh with hopId := s.maxHops - 1 }.serialize inp.payload) s s' := by
    intro hstate hcmd
    refine announce_broadcasts ?_ hstate
    intro t ht
    rw [Tender.writeRouterData, announcedHeader, if_pos hcmd, if_pos hcmd]
    simp only [ht]
    rfl
  rcases he with ⟨rfl, hmulti⟩ | ⟨rfl, hcmd⟩
  · rw [step, outcome, perform, whenConfigured, if_pos (by exact hconf)] at hstep
    have hcmd := multi_cases hmulti
    simp only [List.mem_cons, List.not_mem_nil, or_false] at hcmd
    rcases hcmd with h | h | h | h | h | h
    · exact hsave (by simpa [processKernelInput, h] using hstep) (by simp [h])
    · exact hsave (by simpa [processKernelInput, h] using hstep) (by simp [h])
    · exact hnotify (by simpa [processKernelInput, h] using hstep) (by simp [h])
    · exact hnotify (by simpa [processKernelInput, h] using hstep) (by simp [h])
    · exact hsave (by simpa [processKernelInput, h] using hstep) (by simp [h])
    · exact hsave (by simpa [processKernelInput, h] using hstep) (by simp [h])
  · rw [step, outcome, perform, whenConfigured, if_pos (by exact hconf), processBackupInput,
      if_pos (by simpa [or_comm] using hcmd)] at hstep
    refine hsave hstep fun h => ?_
    simp only [List.mem_cons, List.not_mem_nil, or_false] at hcmd h
    rcases hcmd with hcmd | hcmd <;> rw [hcmd] at h <;> exact absurd h (by decide)

end

end Router

end Metax
