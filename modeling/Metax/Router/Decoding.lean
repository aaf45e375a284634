import Metax.Router.Duplicates
import Metax.Router.Sending

/-!
# What a message leaves in `m_router_data`

The router decodes every message into one member object. Header extraction appends the winners
to those the object has, so the object has to be without winners when the next message comes. It
is reset at the end of `handle_link_data`, which an exception skips, and a negative
acknowledgement does not reset it at all.

Whether the payload is looked at is what matters: it is when the kernel is to get it
(`NeedsPayload`), and then a payload that does not parse skips the reset. Messages decode
independently of each other throughout a run exactly when no input that skips the reset declares
winners (`decoded_independently_iff`).
-/

namespace Metax

namespace Router

/-- The next message decodes as it would in a router that has handled nothing before. -/
def Independent (s : State) : Prop := ∀ p, s.routerData.decodeInto p = .ofPackage p

/-- Does the router extract the payload of the message `d`? -/
def NeedsPayload (T : Tables) (d : RouterData) : Prop :=
  if isOwnSyncTender d.cmd then d.cmd ≠ .getUuid ∨ (T.syncTenders.lookup d.tenderId).isSome
  else match T.tenders.lookup d.tenderId with
    | none => isInvalidNewTender d.cmd = false
    | some t => isKnownAnnouncement d.cmd = false ∧ d.cmd ≠ .syncFinished ∧ t.isCanceled = false ∧
      (t.typ = .internal ∨ d.cmd ∈ [.livestreamContent, .sendToPeer, .cancelLivestreamGet] ∧
        t.st = .confirmed ∨ d.cmd = .sendUuids)

/-- The handling of this input ends without a reset: it is a negative acknowledgement, or a message
whose payload is needed and does not parse. -/
def SkipsReset (s : State) (inp : LinkInput) (fresh : RandomUUID) : Prop :=
  inp.cmd = .nack ∨
    inp.cmd = .receivedData ∧ NeedsPayload s.toTables (s.message (.link inp fresh)) ∧
    ¬ Parses inp inp.header.headerSize

/-- The condition on a step: an input that skips the reset declares no winners. -/
def LeavesNoWinners (s : State) : Event → Prop
  | .link inp fresh => SkipsReset s inp fresh → inp.header.winnersId = []
  | _ => True

section

variable {s s' : State} {inp : LinkInput} {fresh : RandomUUID}

/-- Only the winners are appended to, so they alone can be left over. -/
theorem independent_iff : Independent s ↔ s.routerData.winnersId = [] := by
  constructor
  · intro h
    have hempty := h ⟨[], []⟩
    rw [RouterData.decodeInto_eq] at hempty
    have hwinners := congrArg RouterData.winnersId hempty
    simpa using hwinners
  · intro h p
    rw [RouterData.decodeInto_eq, h, List.nil_append]

/-- The payload is looked for behind the header, which is as long here as in a new object. -/
theorem headerSize_of_winners {d d' : RouterData} (h : d.winnersId = d'.winnersId) :
    d.headerSize = d'.headerSize := by
  rw [RouterData.headerSize, RouterData.headerSize, h]

/-- A payload that throws does not parse. -/
theorem not_parses_of_error {o : ℕ} {x : PackageError} (h : inp.package.payload o = .error x) :
    ¬ Parses inp o := by
  rw [Parses, h]
  simp [Except.isOk, Except.toBool]

/-- One that is read does. -/
theorem parses_of_ok {o : ℕ} {q : Payload} (h : inp.package.payload o = .ok q) : Parses inp o := by
  rw [Parses, h]
  rfl

/-- The payload is extracted here: there is an exception exactly when it does not parse. -/
def Extracts (inp : LinkInput) (o : Outcome) : Prop :=
  o.Ends (fun _ => Parses inp inp.header.headerSize) fun _ => ¬ Parses inp inp.header.headerSize

/-- The payload is not looked at here. -/
def Skips (o : Outcome) : Prop := o.Ends (fun _ => True) fun _ => False

/-- The kernel gets the payload, so it is extracted here. -/
theorem postNewTenderToKernel_extracts {k : ID32}
    (hd : s.routerData.headerSize = inp.header.headerSize) :
    Extracts inp (postNewTenderToKernel s inp k) := by
  unfold postNewTenderToKernel
  dsimp only
  split
  · rename_i x hx
    exact not_parses_of_error (hd ▸ hx)
  · rename_i q hq
    exact parses_of_ok (hd ▸ hq)

/-- Hence for every new tender. -/
theorem processNewTender_extracts {p : Pointer}
    (hd : s.routerData.headerSize = inp.header.headerSize) :
    Extracts inp (processNewTender s p inp) := by
  refine Exit.ends_andThen.mpr ?_
  exact (postNewTenderToKernel_extracts
    (s := { s.assign p (s.newTender inp) with requestCounter := nextRequestId s.requestCounter })
    hd).mono (fun _ h => h) fun _ h => h

/-- And for every response to the kernel. -/
theorem sendResponseToKernel_extracts : Extracts inp (sendResponseToKernel s inp) := by
  unfold sendResponseToKernel
  dsimp only
  split
  · rename_i x hx
    exact not_parses_of_error hx
  · rename_i q hq
    split
    · trivial
    · refine Exit.ends_ite.mpr ⟨fun _ => parses_of_ok hq, fun _ => ?_⟩
      rw [Exit.ends_assert, Exit.ends_assert]
      exact fun _ _ => parses_of_ok hq

/-- An announcement that is passed on as well has been extracted before. -/
theorem handleNewRemoteTender_extracts (hd : s.routerData.headerSize = inp.header.headerSize)
    (hvalid : isInvalidNewTender s.routerData.cmd = false) :
    Extracts inp (handleNewRemoteTender s inp) := by
  rw [Extracts, handleNewRemoteTender, Exit.ends_assert, Exit.ends_assert, Exit.ends_assert]
  intro _ _ _
  rw [if_neg (by rw [hvalid]; exact Bool.false_ne_true)]
  have hkeeps : (processNewTender s (.tender s.routerData.tenderId) inp).Ends
      (fun s' => s'.routerData = s.routerData) fun s' => s'.routerData = s.routerData := by
    have heffects : Effects s.toTables s.maxHops s.routerData (.config 0) s
        (processNewTender s (.tender s.routerData.tenderId) inp) := processNewTender_effects
    exact heffects.mono (fun _ h => h.routerData) fun _ h => h.routerData
  refine Exit.ends_andThen.mpr ?_
  refine ((processNewTender_extracts hd).and hkeeps).mono (fun s' hs' => ?_) fun _ h => h.1
  refine Exit.ends_ite.mpr ⟨fun _ => ?_, fun _ => hs'.1⟩
  -- the payload parses behind the same header a second time
  unfold forwardRemoteTender
  split
  · rename_i x hx
    rw [hs'.2, hd] at hx
    exact absurd hs'.1 (not_parses_of_error hx)
  · rw [Exit.ends_assert, Exit.ends_assert]
    exact fun _ _ => hs'.1

/-- A message that is passed on keeps its bytes. -/
theorem bypassTenderResponse_skips : Skips (bypassTenderResponse s inp) := by
  unfold bypassTenderResponse
  dsimp only
  split
  · trivial
  · rw [Skips, Exit.ends_assert]
    exact fun _ => trivial

/-- Nothing is read where a tender is cleaned up. -/
theorem cleanUpTenderInfo_skips {p : Pointer} {t : Tender} : Skips (cleanUpTenderInfo s p t) := by
  rw [Skips, cleanUpTenderInfo, cleanUpTenderFromTimeline, Exit.ends_andThen, Exit.ends_assert]
  exact fun _ => trivial

/-- For a stored tender the payload is extracted when the kernel gets it. -/
theorem processExistingTender_extracts {t : Tender}
    (hdup : isKnownAnnouncement s.routerData.cmd = false)
    (hfinished : s.routerData.cmd ≠ .syncFinished)
    (hopen : t.isCanceled = false)
    (hkernel : t.typ = .internal ∨
      s.routerData.cmd ∈ [.livestreamContent, .sendToPeer, .cancelLivestreamGet] ∧
        t.st = .confirmed ∨ s.routerData.cmd = .sendUuids) :
    Extracts inp (processExistingTender s t inp) := by
  rw [Extracts, processExistingTender, Exit.ends_assert, Exit.ends_assert]
  intro _ _
  rw [if_neg (by rw [hdup]; exact Bool.false_ne_true), if_neg hfinished, processExistingTenderData,
    if_neg (by rw [hopen]; exact Bool.false_ne_true)]
  cases htyp : t.typ with
  | internal => exact sendResponseToKernel_extracts
  | remote =>
    have hlive := hkernel.resolve_left (by rw [htyp]; exact TenderType.remote_ne_internal)
    dsimp only
    rw [processRemoteTender, if_pos hlive]
    exact sendResponseToKernel_extracts

/-- Otherwise nobody looks at it. -/
theorem processExistingTender_skips {t : Tender}
    (hskip : ¬ (isKnownAnnouncement s.routerData.cmd = false ∧ s.routerData.cmd ≠ .syncFinished ∧
      t.isCanceled = false ∧ (t.typ = .internal ∨
        s.routerData.cmd ∈ [.livestreamContent, .sendToPeer, .cancelLivestreamGet] ∧
          t.st = .confirmed ∨ s.routerData.cmd = .sendUuids))) :
    Skips (processExistingTender s t inp) := by
  rw [Skips, processExistingTender, Exit.ends_assert, Exit.ends_assert]
  intro _ _
  refine Exit.ends_ite.mpr ⟨fun _ => trivial, fun hdup => Exit.ends_ite.mpr ⟨fun _ => ?_,
    fun hfinished => Exit.ends_ite.mpr ⟨fun _ => trivial, fun hopen => ?_⟩⟩⟩
  · exact cleanUpTenderInfo_skips
  · have hnot := fun h => hskip ⟨Bool.eq_false_of_not_eq_true hdup, hfinished,
      Bool.eq_false_of_not_eq_true hopen, h⟩
    cases htyp : t.typ with
    | internal => exact absurd (.inl htyp) hnot
    | remote =>
      refine Exit.ends_ite.mpr ⟨fun hlive => absurd (.inr hlive) hnot, fun _ => ?_⟩
      exact bypassTenderResponse_skips

/-- A synchronization extracts the payload except at a request for an object that comes first. -/
theorem handleSyncTenders_extracts (hd : s.routerData.headerSize = inp.header.headerSize)
    (hneeds : s.routerData.cmd ≠ .getUuid ∨ (s.syncTenders.lookup s.routerData.tenderId).isSome)
    (hown : isOwnSyncTender s.routerData.cmd = true) :
    Extracts inp (handleSyncTenders s inp) := by
  refine Exit.ends_andThen.mpr ?_
  split
  · rename_i hnone
    rw [hnone] at hneeds
    have huuid := hneeds.resolve_right (by simp)
    have hfinished : s.routerData.cmd ≠ .syncFinished := by
      intro h
      rw [h] at hown
      cases hown
    unfold handleNewSyncTender
    rw [if_neg (by simpa using ⟨hfinished, huuid⟩), Exit.ends_assert, Exit.ends_assert]
    exact fun _ _ => (processNewTender_extracts hd).mono (fun _ h => h) fun _ h => h
  · rename_i t _
    exact (postNewTenderToKernel_extracts
      (s := s.assign (.syncTender s.routerData.tenderId) { t with st := .confirmed }) hd).mono
        (fun _ h => h) fun _ h => h

/-- `NeedsPayload` says where the payload is extracted. -/
theorem handleRouterData_extracts (hd : s.routerData.headerSize = inp.header.headerSize)
    (hneeds : NeedsPayload s.toTables s.routerData) : Extracts inp (handleRouterData s inp) := by
  rw [NeedsPayload] at hneeds
  refine Exit.ends_ite.mpr ⟨fun hown => ?_, fun hown => ?_⟩
  · rw [if_pos hown] at hneeds
    exact handleSyncTenders_extracts hd hneeds hown
  · rw [if_neg hown] at hneeds
    rw [Exit.ends_assert, Exit.ends_assert]
    intro _ _
    refine Exit.ends_andThen.mpr ?_
    cases hlook : s.tenders.lookup s.routerData.tenderId with
    | none =>
      simp only [hlook] at hneeds ⊢
      exact (handleNewRemoteTender_extracts hd hneeds).mono (fun _ h => h) fun _ h => h
    | some t =>
      simp only [hlook] at hneeds ⊢
      obtain ⟨hdup, hfinished, hopen, hkernel⟩ := hneeds
      exact (processExistingTender_extracts hdup hfinished hopen hkernel).mono (fun _ h => h)
        fun _ h => h

/-- And where it is not. -/
theorem handleRouterData_skips (hneeds : ¬ NeedsPayload s.toTables s.routerData) :
    Skips (handleRouterData s inp) := by
  rw [NeedsPayload] at hneeds
  refine Exit.ends_ite.mpr ⟨fun hown => ?_, fun hown => ?_⟩
  · rw [if_pos hown, not_or] at hneeds
    refine Exit.ends_andThen.mpr ?_
    have hnone : s.syncTenders.lookup s.routerData.tenderId = none :=
      Option.not_isSome_iff_eq_none.mp hneeds.2
    simp only [hnone]
    unfold handleNewSyncTender
    rw [if_pos (by simp [not_not.mp hneeds.1])]
    trivial
  · rw [if_neg hown] at hneeds
    rw [Exit.ends_assert, Exit.ends_assert]
    intro _ _
    refine Exit.ends_andThen.mpr ?_
    cases hlook : s.tenders.lookup s.routerData.tenderId with
    | none =>
      simp only [hlook] at hneeds ⊢
      rw [handleNewRemoteTender, Exit.ends_assert, Exit.ends_assert, Exit.ends_assert]
      intro _ _ _
      rw [if_pos (by simpa using hneeds)]
      trivial
    | some t =>
      simp only [hlook] at hneeds ⊢
      exact (processExistingTender_skips hneeds).mono (fun _ _ => trivial) fun _ h => h

/-- Nothing left behind: the winners of a message are those of its header. -/
theorem message_winners (h : s.routerData.winnersId = []) :
    (s.message (.link inp fresh)).winnersId = inp.header.winnersId := by
  have hd : (s.extractHeader inp).routerData =
      { inp.header with winnersId := s.routerData.winnersId ++ inp.header.winnersId } :=
    s.routerData.decodeInto_eq inp.package
  simp only [State.message, State.nameTender, named]
  split_ifs
  · rw [hd, h]
    exact List.nil_append _
  · rw [hd, h]
    exact List.nil_append _

/-- What the handling of a message leaves behind. -/
theorem handleRouterData_leaves (hs : s.Keyed) (h : s.routerData.winnersId = [])
    (hin : inp.cmd = .receivedData) :
    (handleRouterData (s.received inp fresh) inp).Ends
      (fun s' => s'.routerData.winnersId = [] ↔ LeavesNoWinners s (.link inp fresh))
      (fun s' => s'.routerData.winnersId = [] ↔ LeavesNoWinners s (.link inp fresh)) := by
  have hwinners : (s.message (.link inp fresh)).winnersId = inp.header.winnersId :=
    message_winners h
  have hsize : (s.received inp fresh).routerData.headerSize = inp.header.headerSize :=
    headerSize_of_winners hwinners
  have heffects : (handleRouterData (s.received inp fresh) inp).Ends (fun s' => ∃ s'',
      Effect s.toTables s.maxHops _ (.link inp fresh) (s.received inp fresh) s'' ∧
        s' = s''.resetRouterData)
      (Effect s.toTables s.maxHops _ (.link inp fresh) (s.received inp fresh)) :=
    handleRouterData_effects hs (decoded_nameTender { s with out := [] } inp fresh) hin
  have hskips : SkipsReset s inp fresh ↔ NeedsPayload s.toTables (s.message (.link inp fresh)) ∧
      ¬ Parses inp inp.header.headerSize := by
    simp [SkipsReset, hin]
  by_cases hneeds : NeedsPayload s.toTables (s.message (.link inp fresh))
  · refine (heffects.and (handleRouterData_extracts hsize hneeds)).mono ?_ ?_
    · rintro s' ⟨⟨s'', -, rfl⟩, hparses⟩
      refine iff_of_true rfl fun hskip => absurd hparses (hskips.mp hskip).2
    · rintro s' ⟨heffect, hbad⟩
      have hleft : s'.routerData.winnersId = inp.header.winnersId := by
        rw [heffect.routerData]
        exact hwinners
      rw [hleft]
      exact ⟨fun h _ => h, fun h => h (hskips.mpr ⟨hneeds, hbad⟩)⟩
  · refine (heffects.and (handleRouterData_skips hneeds)).mono ?_ fun _ h => h.2.elim
    rintro s' ⟨⟨s'', -, rfl⟩, -⟩
    exact iff_of_true rfl fun hskip => absurd (hskips.mp hskip).1 hneeds

/-- A negative acknowledgement is decoded and never reset. -/
theorem handleLinkNack_leaves : (handleLinkNack s inp).Ends
    (fun s' => s'.routerData = s.routerData.decodeInto inp.package)
    (fun s' => s'.routerData = s.routerData.decodeInto inp.package) := by
  rw [handleLinkNack, Exit.ends_assert]
  intro _
  split
  · rfl
  · rename_i t _
    have hclean : Effects s.toTables s.maxHops s.routerData (.link inp ⟨1, by decide⟩)
        (s.extractHeader inp) (cleanUpTender (s.extractHeader inp)
          (.tender (s.extractHeader inp).routerData.tenderId) t) := cleanUpTender_effects (.refl _)
    exact hclean.mono (fun _ h => h.routerData) fun _ h => h.routerData

/-- **Step lemma.** A step from a router in which nothing was left behind. -/
theorem step_leavesNoWinners {e : Event} (hs : s.Keyed) (h : s.routerData.winnersId = [])
    (hstep : step s e = some s') : s'.routerData.winnersId = [] ↔ LeavesNoWinners s e := by
  by_cases hlink : ∃ inp fresh, e = .link inp fresh
  · obtain ⟨inp, fresh, rfl⟩ := hlink
    have hperform : (processLinkInput { s with out := [] } inp fresh).state = some s' := hstep
    by_cases hnack : inp.cmd = .nack
    · rw [processLinkInput, if_pos hnack] at hperform
      have hleft := Exit.Ends.of_state handleLinkNack_leaves hperform
      have hskips : SkipsReset s inp fresh := .inl hnack
      rw [hleft, RouterData.decodeInto_eq]
      dsimp only
      rw [h, List.nil_append]
      exact ⟨fun h _ => h, fun h => h hskips⟩
    · by_cases hin : inp.cmd = .receivedData
      · have houtcome : (handleRouterData (s.received inp fresh) inp).state = some s' := by
          rw [← outcome_receivedData hin]
          exact hstep
        exact Exit.Ends.of_state (D := fun s' => s'.routerData.winnersId = [] ↔ _)
          (handleRouterData_leaves hs h hin) houtcome
      · -- a notification
        rw [processLinkInput, if_neg hnack, if_neg hin] at hperform
        have hleft : s'.routerData = s.routerData := by
          split_ifs at hperform
          · rw [← Option.some.inj hperform]
            rfl
          · rw [← Option.some.inj hperform]
        refine iff_of_true (hleft ▸ h) ?_
        rintro (hskip | ⟨hskip, -⟩)
        · exact absurd hskip hnack
        · exact absurd hskip hin
  · have hne : ∀ inp fresh, e ≠ .link inp fresh := fun inp fresh he => hlink ⟨inp, fresh, he⟩
    rw [step_routerData hstep hne]
    refine iff_of_true h ?_
    cases e with
    | link inp fresh => exact absurd rfl (hne inp fresh)
    | _ => trivial

end

/-- **Messages are decoded independently** throughout a run exactly when no input that skips the
reset declares winners. -/
theorem decoded_independently_iff (es : List Event) (hrun : (Run.run step init es).isSome) :
    Run.Along step (fun s e => ∀ s' ∈ step s e, Independent s') init es ↔
      Run.Along step LeavesNoWinners init es := by
  refine Run.along_iff_of_exact (fun s => s.Keyed) Independent (fun s e s' => keyed_step) ?_
    keyed_init (fun _ => rfl) hrun
  intro s e s' hs h hstep
  rw [independent_iff] at h ⊢
  exact step_leavesNoWinners hs h hstep

/-- The link could not deliver an answer for tender `9` that names these winners. -/
def nackFor (winners : List UInt32) : Event :=
  .link ⟨.nack, {1}, ⟨RouterData.encodeHeader { RouterData.new with
    tenderId := 9, cmd := .saveData, winnersId := winners }, []⟩⟩ ⟨6, uuid_six_ne_zero⟩

/-- One that declares no winners does no harm. -/
theorem decoded_independently_nack : Run.Along step
    (fun s e => ∀ s' ∈ step s e, Independent s') init [nackFor []] :=
  (decoded_independently_iff [nackFor []] (by decide +kernel)).mpr
    ⟨fun _ => by decide +kernel, fun _ _ => trivial⟩

/-- A winner of an acknowledgement shows up in the next message. -/
theorem not_decoded_independently :
    ¬ ∀ (es es' : List Event) (p : Received), ∀ s ∈ Run.run step init es,
      ∀ s' ∈ Run.run step init es', s.routerData.decodeInto p = s'.routerData.decodeInto p := by
  intro h
  have hsame : ∀ s ∈ Run.run step init [nackFor [5]],
      (s.routerData.decodeInto ⟨[], []⟩).winnersId = [] :=
    fun s hs => congrArg RouterData.winnersId (h _ [] ⟨[], []⟩ s hs init rfl)
  revert hsame
  decide +kernel

end Router

end Metax
