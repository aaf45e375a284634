import Metax.Router.TenderTables

/-!
# Second copies of an announcement

A network floods its announcements, so a router gets the same one from several neighbours. Two
lists decide what happens to a message: `is_invalid_new_tender` says which commands open a tender
here, and `process_existing_tender` which ones are dropped when their tender is known. The second
list lacks seven commands of the first, and the requests of a synchronization are not dropped
either; copies of these are treated as answers.

`duplicate_absorbed_iff` says for every command and every state of the tender whether the second
copy is absorbed. Being absorbed is about the containers and about what is sent; the member
`m_router_data` is another matter (`Metax.Router.Decoding`).
-/

namespace Metax

namespace Router

open Exit (assert)

/-- The containers have the same content. -/
structure Tables.Same (T T' : Tables) : Prop where
  deref : ∀ p, T'.deref p = T.deref p
  ids : ∀ k, T'.idTenders.lookup k = T.idTenders.lookup k
  timeline : T'.timeline = T.timeline

theorem Tables.Same.refl (T : Tables) : T.Same T := ⟨fun _ => rfl, fun _ => rfl, rfl⟩

/-- The router goes on, has sent nothing and has not touched a tender. -/
def Outcome.Quiet (T : Tables) (o : Outcome) : Prop :=
  ∃ s', o.state = some s' ∧ T.Same s'.toTables ∧ s'.out = []

/-- The message is absorbed: the tables stay, nothing is sent to peers or to the kernel, and no
assertion fails. -/
def Absorbed (s : State) (e : Event) : Prop := Outcome.Quiet s.toTables (outcome s e)

/-- The message announces a request: its command is one that opens a tender, here or among the
synchronizations. -/
def Announces (cmd : Command) : Prop := isInvalidNewTender cmd = false ∨ isSyncCommand cmd = true

/-- Where a message looks for its tender. -/
def pointerOf (inp : LinkInput) : Pointer :=
  if isSyncCommand inp.header.cmd then .syncTender inp.header.tenderId
  else .tender inp.header.tenderId

/-- Does the payload parse behind a header of this size? -/
def Parses (inp : LinkInput) (offset : ℕ) : Prop := (inp.package.payload offset).isOk

instance (inp : LinkInput) (offset : ℕ) : Decidable (Parses inp offset) :=
  inferInstanceAs (Decidable (_ = true))

/-- When a copy of the announcement of `t` is absorbed. -/
def AbsorbedWhen (s : State) (inp : LinkInput) (fresh : RandomUUID) (t : Tender) : Prop :=
  if isSyncCommand inp.header.cmd then
    t.st = .confirmed ∧ ¬ Parses inp (s.message (.link inp fresh)).headerSize
  else isKnownAnnouncement inp.header.cmd ∨ t.isCanceled ∨
    t.typ = .internal ∧ ¬ Parses inp inp.header.headerSize

section Quiet

variable {T : Tables} {o : Outcome} {s : State} {inp : LinkInput} {fresh : RandomUUID} {t : Tender}

/-- A handler that comes to its end is quiet if its state is. -/
theorem quiet_done : Outcome.Quiet T (.done s) ↔ T.Same s.toTables ∧ s.out = [] := by
  constructor
  · rintro ⟨s', hs', h⟩
    obtain rfl : s = s' := by simpa [Exit.state] using hs'
    exact h
  · exact fun h => ⟨s, rfl, h⟩

/-- So is one that throws. -/
theorem quiet_threw : Outcome.Quiet T (.threw s) ↔ T.Same s.toTables ∧ s.out = [] := quiet_done

/-- An assertion that fails is not quiet. -/
theorem not_quiet_aborted : ¬ Outcome.Quiet T .aborted := by
  rintro ⟨s', hs', -⟩
  cases hs'

/-- Nor is a message. -/
theorem not_quiet_emit {e : Emission} : ¬ Outcome.Quiet T (.done (s.emit e)) := by
  rw [quiet_done]
  rintro ⟨-, hout⟩
  simp [State.emit] at hout

/-- Resetting the member is not seen in the containers. -/
theorem quiet_reset :
    Outcome.Quiet T (o.andThen fun s => .done s.resetRouterData) ↔ Outcome.Quiet T o := by
  cases o with
  | done s => rw [Exit.done_andThen, quiet_done, quiet_done]; rfl
  | threw s => rw [Exit.threw_andThen]
  | aborted => rw [Exit.aborted_andThen]

/-- The state a message is handled in: decoded, with nothing sent yet. -/
def State.received (s : State) (inp : LinkInput) (fresh : RandomUUID) : State :=
  (State.extractHeader { s with out := [] } inp).nameTender fresh

/-- The member `m_router_data` has the command and the tender of the message. -/
theorem received_header (s : State) (fresh : RandomUUID) {d : RouterData}
    (hheader : inp.header = d) (hne : d.tenderId ≠ 0) :
    (s.received inp fresh).routerData.cmd = d.cmd ∧
      (s.received inp fresh).routerData.tenderId = d.tenderId := by
  subst hheader
  have hdecoded : Decoded inp (s.received inp fresh).routerData := decoded_nameTender _ _ _
  exact ⟨hdecoded.cmd, hdecoded.tenderId hne⟩

/-- A message goes to `handle_router_data` decoded. -/
theorem outcome_receivedData (hcmd : inp.cmd = .receivedData) :
    outcome s (.link inp fresh) = handleRouterData (s.received inp fresh) inp := by
  simp [outcome, perform, processLinkInput, handleLinkData, State.received, hcmd]

/-- Passing on sends something, or fails its assertion. -/
theorem not_quiet_bypass (ht : s.tenders.lookup inp.header.tenderId = some t) :
    ¬ Outcome.Quiet T (bypassTenderResponse s inp) := by
  simp only [bypassTenderResponse, ht]
  by_cases hrid : t.requestId = noRequest ∨ isFirstCommandOfMultiwinnerTender t.cmd = true
  · rw [Exit.assert_of_pos hrid, quiet_done]
    rintro ⟨-, hout⟩
    simp [State.emit, State.assign] at hout
  · rw [Exit.assert_of_neg hrid]
    exact not_quiet_aborted

/-- An announcement is no late piece of data, so an answer to the kernel is sent for it whenever
it parses. -/
theorem quiet_sendResponse_iff (hout : s.out = []) (hcmd : inp.header.cmd ≠ .getData)
    (ht : s.tenders.lookup inp.header.tenderId = some t) :
    Outcome.Quiet s.toTables (sendResponseToKernel s inp) ↔
      ¬ Parses inp inp.header.headerSize := by
  rw [Parses]
  cases hp : inp.package.payload inp.header.headerSize with
  | error x =>
    simp only [sendResponseToKernel, hp, quiet_threw]
    exact iff_of_true ⟨.refl _, hout⟩ (by simp [Except.isOk, Except.toBool])
  | ok q =>
    refine iff_of_false ?_ (by simp [Except.isOk, Except.toBool])
    simp only [sendResponseToKernel, hp, ht]
    rw [if_neg fun h => hcmd h.1]
    by_cases hrid : t.requestId ≠ noRequest
    · rw [Exit.assert_of_pos hrid]
      by_cases hid : s.idTenders.lookup t.requestId ≠ none
      · rw [Exit.assert_of_pos hid, quiet_done]
        rintro ⟨-, hsent⟩
        simp [State.emit, State.assign] at hsent
      · rw [Exit.assert_of_neg hid]
        exact not_quiet_aborted
    · rw [Exit.assert_of_neg hrid]
      exact not_quiet_aborted

/-- A copy of an announcement that `m_tenders` knows. -/
theorem quiet_processExistingTender_iff (hout : s.out = [])
    (hd : s.routerData.cmd = inp.header.cmd) (hvalid : isInvalidNewTender inp.header.cmd = false)
    (hne : s.routerData.tenderId ≠ 0) (ht : s.tenders.lookup inp.header.tenderId = some t) :
    Outcome.Quiet s.toTables (processExistingTender s t inp) ↔
      isKnownAnnouncement inp.header.cmd ∨ t.isCanceled ∨
        t.typ = .internal ∧ ¬ Parses inp inp.header.headerSize := by
  -- what the valid commands are not
  have hmax : inp.header.cmd ≠ .maxCommand := by
    rintro h
    rw [h] at hvalid
    cases hvalid
  have hfinished : inp.header.cmd ≠ .syncFinished := by
    rintro h
    rw [h] at hvalid
    cases hvalid
  have hdata : inp.header.cmd ≠ .getData := by
    rintro h
    rw [h] at hvalid
    cases hvalid
  have hlive : ¬ (inp.header.cmd ∈ [.livestreamContent, .sendToPeer, .cancelLivestreamGet] ∧
      t.st = .confirmed ∨ inp.header.cmd = .sendUuids) := by
    rintro (⟨hmem, -⟩ | h)
    · simp only [List.mem_cons, List.not_mem_nil, or_false] at hmem
      rcases hmem with h | h | h <;> rw [h] at hvalid <;> cases hvalid
    · rw [h] at hvalid
      cases hvalid
  simp only [processExistingTender, hd, Exit.assert_of_pos hmax, Exit.assert_of_pos hne]
  by_cases hdup : isKnownAnnouncement inp.header.cmd = true
  · rw [if_pos hdup, quiet_done]
    exact iff_of_true ⟨.refl _, hout⟩ (.inl hdup)
  · rw [if_neg hdup, if_neg hfinished, processExistingTenderData]
    by_cases hcanceled : t.isCanceled = true
    · rw [if_pos hcanceled, quiet_done]
      exact iff_of_true ⟨.refl _, hout⟩ (.inr (.inl hcanceled))
    · rw [if_neg hcanceled]
      cases htyp : t.typ with
      | internal =>
        simp only [quiet_sendResponse_iff hout hdata ht, hdup, hcanceled, Bool.false_eq_true,
          false_or, true_and]
      | remote =>
        simp only [processRemoteTender, hd]
        rw [if_neg hlive]
        refine iff_of_false (not_quiet_bypass ht) ?_
        rintro (h | h | ⟨h, -⟩)
        · exact hdup h
        · exact hcanceled h
        · cases h

/-- A copy of one that `m_sync_tenders` knows: it is handed to the kernel again, unless that fails.
-/
theorem quiet_existingSync_iff {i : UUID} (hout : s.out = []) (hi : s.routerData.tenderId = i)
    (ht : s.syncTenders.lookup i = some t) :
    Outcome.Quiet s.toTables (processExistingSyncTender s t inp) ↔
      t.st = .confirmed ∧ ¬ Parses inp s.routerData.headerSize := by
  have hsize : (s.assign (.syncTender i) { t with st := .confirmed }).routerData.headerSize =
      s.routerData.headerSize := rfl
  simp only [Parses, processExistingSyncTender, hi, postNewTenderToKernel, hsize]
  cases hp : inp.package.payload s.routerData.headerSize with
  | error x =>
    rw [quiet_threw]
    constructor
    · rintro ⟨hsame, -⟩
      have hst := hsame.deref (.syncTender i)
      rw [State.assign, Tables.deref_assign, if_pos rfl] at hst
      have htender : some { t with st := .confirmed } = some t := hst.trans ht
      refine ⟨?_, by simp [Except.isOk, Except.toBool]⟩
      rw [← Option.some.inj htender]
    · rintro ⟨hst, -⟩
      refine ⟨⟨fun p => ?_, fun _ => rfl, rfl⟩, hout⟩
      rw [State.assign, Tables.deref_assign]
      by_cases hp : p = .syncTender i
      · rw [if_pos hp, hp, ← hst]
        exact ht.symm
      · rw [if_neg hp]
  | ok q =>
    exact iff_of_false not_quiet_emit fun h => h.2 (by simp [Except.isOk, Except.toBool])

end Quiet

/-- **Duplicates.** Which copies of an announcement of a known tender are absorbed. -/
theorem duplicate_absorbed_iff (s : State) (inp : LinkInput) (fresh : RandomUUID) (t : Tender)
    (hcmd : inp.cmd = .receivedData) (hannounces : Announces inp.header.cmd)
    (hnull : inp.header.tenderId ≠ 0) (ht : s.deref (pointerOf inp) = some t) :
    Absorbed s (.link inp fresh) ↔ AbsorbedWhen s inp fresh t := by
  obtain ⟨hcmd', hkey⟩ := received_header s fresh rfl hnull
  have hout : (s.received inp fresh).out = [] := rfl
  have htables : (s.received inp fresh).toTables = s.toTables := rfl
  have hmessage : (s.received inp fresh).routerData = s.message (.link inp fresh) := rfl
  rw [Absorbed, outcome_receivedData hcmd, handleRouterData, AbsorbedWhen, ← hmessage, ← htables]
  rw [pointerOf] at ht
  dsimp only
  rw [hcmd', hkey]
  by_cases hsync : isSyncCommand inp.header.cmd = true
  · rw [if_pos hsync] at ht ⊢
    have hown : isOwnSyncTender inp.header.cmd = true := by
      simp only [isSyncCommand, List.mem_cons, List.not_mem_nil, or_false, decide_eq_true_eq]
        at hsync
      rcases hsync with h | h <;> rw [h] <;> rfl
    have hlook : (s.received inp fresh).syncTenders.lookup inp.header.tenderId = some t := ht
    generalize s.received inp fresh = s' at *
    rw [if_pos hown, handleSyncTenders, quiet_reset, hkey]
    simp only [hlook]
    exact quiet_existingSync_iff hout hkey hlook
  · rw [if_neg hsync] at ht ⊢
    have hvalid : isInvalidNewTender inp.header.cmd = false := hannounces.resolve_right hsync
    have hlook : (s.received inp fresh).tenders.lookup inp.header.tenderId = some t := ht
    have hown : ¬ isOwnSyncTender inp.header.cmd = true := by
      intro hown
      simp only [isOwnSyncTender, List.mem_cons, List.not_mem_nil, or_false, decide_eq_true_eq]
        at hown
      rcases hown with h | h | h <;> rw [h] at hvalid <;> cases hvalid
    have hmax : inp.header.cmd ≠ .maxCommand := by
      rintro h
      rw [h] at hvalid
      cases hvalid
    rw [if_neg hown, Exit.assert_of_pos hnull, Exit.assert_of_pos hmax, quiet_reset]
    simp only [hlook]
    exact quiet_processExistingTender_iff hout hcmd' hvalid (hkey ▸ hnull) hlook

/-! ### Two copies of one announcement -/

/-- The announcement of tender `9`, as peer `k` forwards it. -/
def announcement (cmd : Command) (k : ID32) : LinkInput :=
  ⟨.receivedData, {k}, ⟨RouterData.serialize { RouterData.new with
    tenderId := 9, cmd := cmd, hopId := 3 } .empty, []⟩⟩

/-- The router that got it from peer `1`. -/
def afterFirstCopy (cmd : Command) : State :=
  (step init (.link (announcement cmd 1) ⟨6, uuid_six_ne_zero⟩)).getD init

/-- The second copy of a save announcement is absorbed. -/
theorem duplicate_absorbed_save :
    Absorbed (afterFirstCopy .save) (.link (announcement .save 2) ⟨6, by decide⟩) := by
  refine (duplicate_absorbed_iff _ _ _ (((afterFirstCopy .save).deref
    (pointerOf (announcement .save 2))).get (by decide +kernel)) rfl (.inl (by decide +kernel))
    (by decide +kernel) (Option.some_get _).symm).mpr ?_
  rw [AbsorbedWhen, if_neg (by decide +kernel)]
  exact .inl (by decide +kernel)

/-- The second copy of a stream announcement aborts a router whose kernel has not refused it. -/
theorem not_duplicate_absorbed :
    ¬ ∀ (s : State) (inp : LinkInput) (fresh : RandomUUID) (t : Tender),
      inp.cmd = .receivedData → Announces inp.header.cmd → inp.header.tenderId ≠ 0 →
      s.deref (pointerOf inp) = some t → Absorbed s (.link inp fresh) := by
  intro h
  have habsorbed := h (afterFirstCopy .saveStream) (announcement .saveStream 2) ⟨6, by decide⟩
    (((afterFirstCopy .saveStream).deref (pointerOf (announcement .saveStream 2))).get
      (by decide +kernel))
    rfl (.inl (by decide +kernel)) (by decide +kernel) (Option.some_get _).symm
  obtain ⟨s', hs', -⟩ := habsorbed
  have hdead : step (afterFirstCopy .saveStream)
      (.link (announcement .saveStream 2) ⟨6, by decide⟩) = none := by decide +kernel
  rw [step, hs'] at hdead
  cases hdead

end Router

end Metax
