import Metax.Router.Announcement

/-!
# Data for a tender that is known

A router that gets data for a tender it has hands the data to its kernel or passes it back to the
peers of the tender. Both are given here exactly, with the condition on the tender.

The two results are what the network does with the data of a tender (`Metax.Network.ReplyRouting`).
-/

namespace Metax

namespace Router

variable {s : State} {d : RouterData} {q : Payload} {peer : ID32} {beyond : Bytes}
  {fresh : RandomUUID}

/-- A header as a router writes it for data of a tender. -/
structure DataHeader (d : RouterData) : Prop where
  winners : d.winnersId = []
  tenderId : d.tenderId ≠ 0
  cmd : isOwnSyncTender d.cmd = false ∧ d.cmd ≠ .maxCommand ∧ d.cmd ≠ .syncFinished
  data : isInvalidNewTender d.cmd = true

/-- The tender is open and data for it goes on, to one peer only. -/
def State.Relays (s : State) (d : RouterData) (next : ID32) : Prop :=
  ∃ t ∈ s.tenders.lookup d.tenderId, t.isCanceled = false ∧ ¬ ForKernel d t ∧
    (t.requestId = noRequest ∨ isFirstCommandOfMultiwinnerTender t.cmd = true) ∧ t.prs = {next}

/-- The tender is open and data for it is for the kernel, which knows it. -/
def State.Takes (s : State) (d : RouterData) : Prop :=
  ∃ t ∈ s.tenders.lookup d.tenderId, t.isCanceled = false ∧ ForKernel d t ∧
    ¬ (d.cmd = .getData ∧ t.st = .confirmed) ∧ t.requestId ≠ noRequest ∧
    (s.idTenders.lookup t.requestId).isSome

/-- No data is dropped as a copy. -/
theorem isKnownAnnouncement_of_data (h : isInvalidNewTender d.cmd = true) :
    isKnownAnnouncement d.cmd = false := by
  cases hknown : isKnownAnnouncement d.cmd with
  | false => rfl
  | true =>
    simp only [isKnownAnnouncement, List.mem_cons, List.not_mem_nil, or_false, decide_eq_true_eq]
      at hknown
    rcases hknown with h' | h' | h' | h' | h' | h' | h' <;> rw [h'] at h <;> cases h

section

variable (hd : DataHeader d)

include hd

/-- What is written in a header is read from it. -/
theorem DataHeader.header : (copyFrom d q peer beyond).header = d :=
  RouterData.ofPackage_serialize d q beyond (by rw [hd.winners]; simp)

/-- And the payload behind it. -/
theorem DataHeader.payload : (copyFrom d q peer beyond).package.payload d.headerSize = .ok q :=
  RouterData.payload_serialize d q beyond (by rw [hd.winners]; simp)

/-- Data for a known tender is looked at by `process_existing_tender_data`. -/
theorem outcome_data {t : Tender} (ht : s.tenders.lookup d.tenderId = some t) :
    outcome s (.link (copyFrom d q peer beyond) fresh) =
      (processExistingTenderData (s.received (copyFrom d q peer beyond) fresh) t
        (copyFrom d q peer beyond)).andThen fun s => .done s.resetRouterData := by
  obtain ⟨hsync, hmax, hfinished⟩ := hd.cmd
  have hheader : (copyFrom d q peer beyond).header = d := hd.header
  obtain ⟨hcmd, hkey⟩ := received_header s fresh hheader hd.tenderId
  have htables := received_toTables s (copyFrom d q peer beyond) fresh
  rw [outcome_receivedData rfl]
  generalize s.received (copyFrom d q peer beyond) fresh = r at *
  have hlook : r.tenders.lookup r.routerData.tenderId = some t := by
    rw [hkey, htables]
    exact ht
  have hne : r.routerData.tenderId ≠ 0 := hkey ▸ hd.tenderId
  have hmax' : r.routerData.cmd ≠ .maxCommand := hcmd ▸ hmax
  rw [handleRouterData, if_neg (by rw [hcmd, hsync]; decide), Exit.assert_of_pos hne,
    Exit.assert_of_pos hmax']
  simp only [hlook]
  rw [processExistingTender, Exit.assert_of_pos hmax', Exit.assert_of_pos hne,
    if_neg (by rw [hcmd, isKnownAnnouncement_of_data hd.data]; decide),
    if_neg (by rw [hcmd]; exact hfinished)]

/-- **Data that goes on** is sent to the peer of the tender with one hop less. -/
theorem step_relay {next : ID32} (h : s.Relays d next) : ∃ s',
    step s (.link (copyFrom d q peer beyond) fresh) = some s' ∧
      s'.out = [.link ⟨.send, {next}, 0, false,
        { d with hopId := d.hopId - 1 }.serialize q⟩] := by
  obtain ⟨t, ht, hopen, hfor, hrid, hprs⟩ := h
  have hheader : (copyFrom d q peer beyond).header = d := hd.header
  have hmessage : RouterData.updateHopId (copyFrom d q peer beyond).package.message (d.hopId - 1) =
      { d with hopId := d.hopId - 1 }.serialize q := RouterData.updateHopId_serialize d q _
  rw [ForKernel, not_or] at hfor
  have hcmd := (received_header s fresh hheader hd.tenderId).1
  have htables := received_toTables s (copyFrom d q peer beyond) fresh
  have hout := received_out s (copyFrom d q peer beyond) fresh
  rw [step, outcome_data hd ht]
  generalize s.received (copyFrom d q peer beyond) fresh = r at *
  have htyp : t.typ = .remote := by
    cases h : t.typ with
    | remote => rfl
    | internal => exact absurd h hfor.1
  have hlook : r.tenders.lookup d.tenderId = some t := by
    rw [htables]
    exact ht
  rw [processExistingTenderData, if_neg (by rw [hopen]; decide), htyp]
  simp only [processRemoteTender]
  rw [hcmd, if_neg hfor.2, bypassTenderResponse]
  dsimp only
  rw [hheader]
  simp only [hlook]
  rw [Exit.assert_of_pos hrid, hmessage, hprs]
  refine ⟨_, rfl, ?_⟩
  exact congrArg (· ++ _) hout

/-- **Data for the kernel** is handed to it. -/
theorem step_take (h : s.Takes d) : ∃ s' rid,
    step s (.link (copyFrom d q peer beyond) fresh) = some s' ∧
      s'.out = [.kernel { KernelPackage.new with
        cmd := d.cmd, uuid := d.uuid, requestId := rid, dataVersion := d.dataVersion,
        payload := q }] := by
  obtain ⟨t, ht, hopen, hfor, hdata, hrid, hid⟩ := h
  have hheader : (copyFrom d q peer beyond).header = d := hd.header
  have hpayload : (copyFrom d q peer beyond).package.payload d.headerSize = .ok q := hd.payload
  have hcmd := (received_header s fresh hheader hd.tenderId).1
  have htables := received_toTables s (copyFrom d q peer beyond) fresh
  have hout := received_out s (copyFrom d q peer beyond) fresh
  rw [step, outcome_data hd ht]
  generalize s.received (copyFrom d q peer beyond) fresh = r at *
  have hlook : r.tenders.lookup d.tenderId = some t := by
    rw [htables]
    exact ht
  have hid' : r.idTenders.lookup t.requestId ≠ none := by
    rw [htables]
    exact Option.isSome_iff_ne_none.mp hid
  have hresponse : ∃ s', sendResponseToKernel r (copyFrom d q peer beyond) = .done s' ∧
      s'.out = [.kernel { KernelPackage.new with
        cmd := d.cmd, uuid := d.uuid, requestId := t.requestId, dataVersion := d.dataVersion,
        payload := q }] := by
    rw [sendResponseToKernel]
    dsimp only
    rw [hheader]
    simp only [hpayload, hlook]
    rw [if_neg hdata, Exit.assert_of_pos hrid, Exit.assert_of_pos hid']
    exact ⟨_, rfl, congrArg (· ++ _) hout⟩
  obtain ⟨s', hdone, hs'⟩ := hresponse
  have hexisting : processExistingTenderData r t (copyFrom d q peer beyond) = .done s' := by
    rw [processExistingTenderData, if_neg (by rw [hopen]; decide)]
    cases htyp : t.typ with
    | internal => exact hdone
    | remote =>
      simp only [processRemoteTender]
      rw [hcmd, if_pos (hfor.resolve_left (by rw [htyp]; exact TenderType.remote_ne_internal)),
        hdone]
  rw [hexisting]
  exact ⟨_, t.requestId, rfl, hs'⟩

end

end Router

end Metax
