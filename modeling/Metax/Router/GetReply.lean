import Metax.Router.Duplicates

/-!
# Answers to a get request of this node

The state of a tender doubles as a mark that its data was delivered: `send_response_to_kernel`
drops a `get_data` when the tender is confirmed. Every answer confirms the tender, though, so the
first `get_data` is delivered only if no answer of another kind came before it.

So a run delivers what it should exactly if no answer of another kind comes first
(`getReplyLaw_iff`). `own_run` says what a tender of this node is like after any run: who has
answered decides about its state, and nothing else does.
-/

namespace Metax

namespace Router

open Exit (assert)

/-- The tender is stored, and its request was not canceled. -/
def Open (i : UUID) (s : State) : Prop := ∃ t, s.tenders.lookup i = some t ∧ t.isCanceled = false

instance (i : UUID) (s : State) : Decidable (Open i s) :=
  decidable_of_iff (∃ t ∈ s.tenders.lookup i, t.isCanceled = false) Iff.rfl

/-- A message with data for the tender arrives. -/
def IsGetData (i : UUID) (e : Event) : Prop :=
  ∃ inp fresh, e = .link inp fresh ∧ inp.cmd = .receivedData ∧ inp.header.tenderId = i ∧
    inp.header.cmd = .getData

/-- A message arrives that `process_existing_tender` takes for an answer to the tender. -/
def Answers (i : UUID) : Event → Prop
  | .link inp _ => inp.cmd = .receivedData ∧ inp.header.tenderId = i ∧
      isOwnSyncTender inp.header.cmd = false ∧ isKnownAnnouncement inp.header.cmd = false ∧
      inp.header.cmd ≠ .syncFinished ∧ Parses inp inp.header.headerSize
  | _ => False

/-- What `send_response_to_kernel` writes into the package. The other fields are those of the slot
of the queue, in which an exception of an earlier message may have left something. -/
structure Carries (p : KernelPackage) (d : RouterData) (rid : ID32) (q : Payload) :
    Prop where
  cmd : p.cmd = d.cmd
  uuid : p.uuid = d.uuid
  requestId : p.requestId = rid
  dataVersion : p.dataVersion = d.dataVersion
  payload : p.payload = q

/-- The message is handed to the kernel as the answer to the request of its tender, and nothing
else is sent. -/
def Delivered (s : State) : Event → Prop
  | .link inp fresh => ∃ s' t q p, step s (.link inp fresh) = some s' ∧
      s.tenders.lookup inp.header.tenderId = some t ∧
      inp.package.payload inp.header.headerSize = .ok q ∧ s'.out = [.kernel p] ∧
      Carries p inp.header t.requestId q
  | _ => False

/-- Nothing is sent because of the event. -/
def Dropped (s : State) (e : Event) : Prop := ∃ s', step s e = some s' ∧ s'.out = []

/-- **The law.** The first data for the tender is delivered, later data is dropped. -/
def GetReplyLaw (i : UUID) (s₀ : State) (es : List Event) : Prop :=
  ∀ pre e post s, es = pre ++ e :: post → Run.run step s₀ pre = some s → IsGetData i e →
    ((∀ e' ∈ pre, ¬ IsGetData i e') → Delivered s e) ∧
      ((∃ e' ∈ pre, IsGetData i e') → Dropped s e)

/-- The kernel's request of the tender is known to the router. -/
def Tables.Knows (T : Tables) (t : Tender) : Prop :=
  t.requestId ≠ noRequest ∧ T.idTenders.lookup t.requestId ≠ none

instance (T : Tables) (t : Tender) : Decidable (T.Knows t) := instDecidableAnd

/-- The condition on a run: when the first data arrives, it parses, no answer came before it, and
the request is known. -/
def FirstAnswerIsData (i : UUID) (s₀ : State) (es : List Event) : Prop :=
  ∀ pre e post s, es = pre ++ e :: post → Run.run step s₀ pre = some s → IsGetData i e →
    (∀ e' ∈ pre, ¬ IsGetData i e') →
      Answers i e ∧ (∀ e' ∈ pre, ¬ Answers i e') ∧ ∀ t ∈ s.tenders.lookup i, s.Knows t

/-- The tender was made for a request of this node. -/
structure Tender.Own (t : Tender) : Prop where
  typ : t.typ = .internal
  st : t.st = .announced ∨ t.st = .confirmed
  winners : t.winners = []
  open' : t.isCanceled = false

section

variable {s s' : State} {inp : LinkInput} {fresh : RandomUUID} {t t' : Tender} {i : UUID}

/-- An answer to a tender of this node goes to the kernel. -/
theorem outcome_answer (hs : s.Keyed) (ht : s.tenders.lookup inp.header.tenderId = some t)
    (hown : t.Own) (hin : inp.cmd = .receivedData) (hsync : isOwnSyncTender inp.header.cmd = false)
    (hdup : isKnownAnnouncement inp.header.cmd = false)
    (hfinished : inp.header.cmd ≠ .syncFinished) :
    outcome s (.link inp fresh) = assert (inp.header.cmd ≠ .maxCommand)
      ((sendResponseToKernel (s.received inp fresh) inp).andThen
        fun s => .done s.resetRouterData) := by
  have hne : inp.header.tenderId ≠ 0 := hs.id_ne ht
  obtain ⟨hcmd, hkey⟩ := received_header s fresh rfl hne
  have hlook : (s.received inp fresh).tenders.lookup
      (s.received inp fresh).routerData.tenderId = some t := by
    rw [hkey]
    exact ht
  rw [outcome_receivedData hin]
  generalize s.received inp fresh = s₁ at *
  simp only [handleRouterData, hcmd, hkey, hsync, Bool.false_eq_true, if_false,
    Exit.assert_of_pos hne]
  by_cases hmax : inp.header.cmd = .maxCommand
  · rw [Exit.assert_of_neg (not_not.mpr hmax), Exit.assert_of_neg (not_not.mpr hmax)]
  · rw [Exit.assert_of_pos hmax, Exit.assert_of_pos hmax]
    simp only [hlook, processExistingTender, hcmd, hkey, Exit.assert_of_pos hmax,
      Exit.assert_of_pos hne, hdup, Bool.false_eq_true, if_false, if_neg hfinished,
      processExistingTenderData, hown.open', hown.typ]

/-- The kernel gets the answer, unless it is late data. -/
theorem sendResponseToKernel_eq {q : Payload} (ht : s.tenders.lookup inp.header.tenderId = some t)
    (hq : inp.package.payload inp.header.headerSize = .ok q) (hknown : s.Knows t)
    (hdata : ¬ (inp.header.cmd = .getData ∧ t.st = .confirmed)) :
    sendResponseToKernel s inp = .done ((s.emit (.kernel { KernelPackage.new with
      cmd := inp.header.cmd
      uuid := inp.header.uuid
      requestId := t.requestId
      dataVersion := inp.header.dataVersion
      payload := q })).assign (.tender inp.header.tenderId)
        { t with prs := t.prs ∪ inp.peers, st := .confirmed,
                 receivedResponseCnt := t.receivedResponseCnt + 1 }) := by
  simp only [sendResponseToKernel, hq, ht]
  rw [if_neg hdata, Exit.assert_of_pos hknown.1, Exit.assert_of_pos hknown.2]

/-- An answer confirms its tender. -/
theorem answer_confirms (hs : s.Keyed) (ht : s.tenders.lookup inp.header.tenderId = some t)
    (hown : t.Own) (hanswer : Answers inp.header.tenderId (.link inp fresh))
    (hstep : step s (.link inp fresh) = some s')
    (ht' : s'.tenders.lookup inp.header.tenderId = some t') : t'.Own ∧ t'.st = .confirmed := by
  have hends : (outcome s (.link inp fresh)).Ends
      (fun s' => ∀ t', s'.tenders.lookup inp.header.tenderId = some t' →
        t'.Own ∧ t'.st = .confirmed)
      (fun s' => ∀ t', s'.tenders.lookup inp.header.tenderId = some t' →
        t'.Own ∧ t'.st = .confirmed) := by
    obtain ⟨hin, -, hsync, hdup, hfinished, hparses⟩ := hanswer
    rw [outcome_answer hs ht hown hin hsync hdup hfinished, Exit.ends_assert]
    intro _
    refine Exit.ends_andThen.mpr ?_
    unfold sendResponseToKernel
    dsimp only
    split
    · rename_i x hx
      rw [Parses, hx] at hparses
      cases hparses
    · split
      · trivial
      · rename_i t₁ ht₁
        obtain rfl : t₁ = t := Option.some.inj (ht₁.symm.trans ht)
        refine Exit.ends_ite.mpr ⟨fun hlate t' ht' => ?_, fun _ => ?_⟩
        · obtain rfl : t₁ = t' := Option.some.inj (ht₁.symm.trans ht')
          exact ⟨hown, hlate.2⟩
        · rw [Exit.ends_assert, Exit.ends_assert]
          intro _ _ t' ht'
          have hassign := Tables.deref_assign (T := s.toTables) (p := .tender inp.header.tenderId)
            (q := .tender inp.header.tenderId) (t := { t₁ with
              prs := t₁.prs ∪ inp.peers, st := .confirmed,
              receivedResponseCnt := t₁.receivedResponseCnt + 1 })
          rw [if_pos rfl] at hassign
          obtain rfl := Option.some.inj (hassign.symm.trans ht')
          exact ⟨⟨hown.typ, .inr rfl, hown.winners, hown.open'⟩, rfl⟩
  exact Exit.Ends.of_state (D := fun s' => ∀ t',
    s'.tenders.lookup inp.header.tenderId = some t' → t'.Own ∧ t'.st = .confirmed)
    hends hstep t' ht'

/-- A message for the tender that is no answer to it leaves it alone or ends it. -/
theorem notAnswer_keeps (hs : s.Keyed) (ht : s.tenders.lookup inp.header.tenderId = some t)
    (hown : t.Own) (hin : inp.cmd = .receivedData)
    (hanswer : ¬ Answers inp.header.tenderId (.link inp fresh))
    (hstep : step s (.link inp fresh) = some s')
    (ht' : s'.tenders.lookup inp.header.tenderId = some t') : t' = t := by
  have hne : inp.header.tenderId ≠ 0 := hs.id_ne ht
  obtain ⟨hcmd, hkey⟩ := received_header s fresh rfl hne
  have hlook : (s.received inp fresh).tenders.lookup
      (s.received inp fresh).routerData.tenderId = some t := by
    rw [hkey]
    exact ht
  -- a branch that writes no table leaves the tender
  have hkeep : ∀ s' : State, s'.tenders = (s.received inp fresh).tenders →
      ∀ t', s'.tenders.lookup inp.header.tenderId = some t' → t' = t := by
    intro s' hs' t' ht'
    rw [hs', ← hkey, hlook] at ht'
    exact (Option.some.inj ht').symm
  -- through the branches of the handler, in the order of the source
  have hends : (handleRouterData (s.received inp fresh) inp).Ends
      (fun s' => ∀ t', s'.tenders.lookup inp.header.tenderId = some t' → t' = t)
      (fun s' => ∀ t', s'.tenders.lookup inp.header.tenderId = some t' → t' = t) := by
    generalize s.received inp fresh = s₁ at *
    refine Exit.ends_ite.mpr ⟨fun _ => Exit.ends_andThen.mpr ?_, fun hsync => ?_⟩
    · -- a synchronization has its own container
      split
      · refine Exit.ends_ite.mpr ⟨fun _ => hkeep _ rfl, fun _ => ?_⟩
        rw [Exit.ends_assert, Exit.ends_assert]
        intro _ _
        refine Exit.ends_andThen.mpr (postNewTenderToKernel_ends (fun _ => ?_) fun _ => ?_)
        · exact hkeep _ rfl
        · exact hkeep _ rfl
      · exact postNewTenderToKernel_ends (fun _ => hkeep _ rfl) fun _ => hkeep _ rfl
    · rw [Exit.ends_assert, Exit.ends_assert]
      intro _ _
      simp only [hlook]
      refine Exit.ends_andThen.mpr ?_
      rw [processExistingTender, Exit.ends_assert, Exit.ends_assert]
      intro _ _
      refine Exit.ends_ite.mpr ⟨fun _ => hkeep _ rfl, fun hdup => Exit.ends_ite.mpr
        ⟨fun _ => ?_, fun hfinished => ?_⟩⟩
      · rw [cleanUpTenderInfo, cleanUpTenderFromTimeline, Exit.ends_andThen, Exit.ends_assert]
        intro _ t' ht'
        have herased : (s₁.tenders.erase t.tenderId).lookup inp.header.tenderId = some t' := ht'
        obtain ⟨-, herased⟩ := Ledger.of_lookup_erase herased
        exact hkeep s₁ rfl t' herased
      -- this is the branch that takes answers, and what arrives is none
      · rw [processExistingTenderData, if_neg (by simp [hown.open']), hown.typ]
        dsimp only
        unfold sendResponseToKernel
        dsimp only
        split
        · exact hkeep _ rfl
        · rename_i q hq
          rw [hcmd] at hsync hdup hfinished
          exact absurd ⟨hin, rfl, Bool.eq_false_of_not_eq_true hsync,
            Bool.eq_false_of_not_eq_true hdup, hfinished, by rw [Parses, hq]; rfl⟩ hanswer
  have hstate : (handleRouterData (s.received inp fresh) inp).state = some s' := by
    rw [← outcome_receivedData hin]
    exact hstep
  exact Exit.Ends.of_state (D := fun s' => ∀ t',
    s'.tenders.lookup inp.header.tenderId = some t' → t' = t) hends hstate t' ht'

/-- Other events keep the tender's state, as far as announced tenders go. -/
theorem other_keeps {e : Event} (hs : s.Keyed) (ht : s.tenders.lookup i = some t) (hown : t.Own)
    (he : ∀ inp fresh, e = .link inp fresh → inp.cmd = .receivedData → inp.header.tenderId ≠ i)
    (hstep : step s e = some s') (ht' : s'.tenders.lookup i = some t')
    (hopen : t'.isCanceled = false) :
    t'.Own ∧ (t'.st = .announced ↔ t.st = .announced) := by
  have hkeep : t' = t → t'.Own ∧ (t'.st = .announced ↔ t.st = .announced) := by
    rintro rfl
    exact ⟨hown, Iff.rfl⟩
  have hstored : s.deref (.tender i) = some t := ht
  have hstored' : s'.toTables.deref (.tender i) = some t' := ht'
  have hchange := step_change hs hstep
  generalize s'.toTables = T' at hchange hstored'
  have hold : s.deref (.tender i) = some t' → t' = t := fun h =>
    Option.some.inj (h.symm.trans hstored)
  cases hchange with
  | none => exact hkeep (hold hstored')
  | announced inp fresh t₁ he₁ ht₁ hid hnew =>
    rw [Tables.deref_pushTimeline, Tables.deref_insertId, Tables.deref_assign] at hstored'
    split_ifs at hstored' with hp
    · obtain rfl : i = fresh.1 := Pointer.tender.inj hp
      exact absurd (hnew.symm.trans ht) (by simp)
    · exact hkeep (hold hstored')
  | opened p inp fresh t₁ he₁ hin ht₁ hd hne hkey hcmd hvalid hnew =>
    rw [Tables.deref_pushTimeline, Tables.deref_insertId, Tables.deref_assign] at hstored'
    split_ifs at hstored' with hp
    · exact absurd (hnew.symm.trans (hp ▸ hstored)) (by simp)
    · exact hkeep (hold hstored')
  | orphaned p inp fresh t₁ he₁ hin ht₁ hd hne hkey hcmd hvalid hnew hbad =>
    rw [Tables.deref_assign] at hstored'
    split_ifs at hstored' with hp
    · exact absurd (hnew.symm.trans (hp ▸ hstored)) (by simp)
    · exact hkeep (hold hstored')
  | updated j t₁ t₂ ht₁ hupdate =>
    rw [Tables.deref_assign] at hstored'
    split_ifs at hstored' with hp
    · obtain rfl : i = j := Pointer.tender.inj hp
      obtain rfl : t = t₁ := Option.some.inj (ht.symm.trans ht₁)
      obtain rfl := Option.some.inj hstored'
      cases hupdate with
      | transferred uuid dataVersion hst hprs =>
        -- the kernel sends data for tenders that were answered
        refine ⟨⟨hown.typ, .inr rfl, hown.winners, hopen⟩, iff_of_false nofun ?_⟩
        rcases hst with hst | hst
        · rw [hst]
          exact nofun
        · rw [hst]
          exact nofun
      | accepted hwinners => exact absurd hown.winners hwinners
      | replied htyp => exact absurd (hown.typ.symm.trans htyp) nofun
      | described uuid dataVersion lastUpdated expireDate hprs =>
        exact ⟨⟨hown.typ, hown.st, hown.winners, hopen⟩, Iff.rfl⟩
      | canceled => cases hopen
      | answered inp fresh he₁ hcmd hkey hdup hopen₁ hrid hdata =>
        exact absurd hkey.symm (he inp fresh he₁ hcmd)
      | bypassed inp fresh he₁ hcmd hkey hdup hopen₁ htyp hrid =>
        exact absurd hkey.symm (he inp fresh he₁ hcmd)
    · exact hkeep (hold hstored')
  | resynced j t₁ ht₁ =>
    rw [Tables.deref_assign, if_neg nofun] at hstored'
    exact hkeep (hold hstored')
  | removed p t₁ ht₁ hp hcmd => exact hkeep (hold (Tables.deref_of_remove hstored'))
  | refused k j t₁ he₁ hid ht₁ htyp hprs hhop =>
    rw [Tables.deref_idTenders, Tables.deref_assign] at hstored'
    split_ifs at hstored' with hp
    · obtain rfl : i = j := Pointer.tender.inj hp
      obtain rfl : t = t₁ := Option.some.inj (ht.symm.trans ht₁)
      exact absurd (hown.typ.symm.trans htyp) nofun
    · exact hkeep (hold hstored')

/-- **Step lemma.** An open tender of this node stays announced until it is answered. -/
theorem own_step {e : Event} (hs : s.Keyed) (ht : s.tenders.lookup i = some t) (hown : t.Own)
    (hstep : step s e = some s') (ht' : s'.tenders.lookup i = some t')
    (hopen : t'.isCanceled = false) :
    t'.Own ∧ (t'.st = .announced ↔ t.st = .announced ∧ ¬ Answers i e) := by
  by_cases hfor : ∃ inp fresh,
      e = .link inp fresh ∧ inp.cmd = .receivedData ∧ inp.header.tenderId = i
  · obtain ⟨inp, fresh, rfl, hin, rfl⟩ := hfor
    by_cases hanswer : Answers inp.header.tenderId (.link inp fresh)
    · obtain ⟨hown', hst⟩ := answer_confirms hs ht hown hanswer hstep ht'
      refine ⟨hown', iff_of_false ?_ fun h => h.2 hanswer⟩
      rw [hst]
      exact nofun
    · obtain rfl := notAnswer_keeps hs ht hown hin hanswer hstep ht'
      exact ⟨hown, (and_iff_left hanswer).symm⟩
  · have hother : ¬ Answers i e := by
      intro hanswer
      cases e with
      | link inp fresh => exact hfor ⟨inp, fresh, rfl, hanswer.1, hanswer.2.1⟩
      | _ => exact hanswer
    obtain ⟨hown', hst⟩ := other_keeps hs ht hown
      (fun inp fresh he hin hkey => hfor ⟨inp, fresh, he, hin, hkey⟩) hstep ht' hopen
    exact ⟨hown', hst.trans (and_iff_left hother).symm⟩

/-- **Run lemma.** The same for a run in all of whose states the tender is open. -/
theorem own_run {es : List Event} (hs : s.Keyed) (ht : s.tenders.lookup i = some t) (hown : t.Own)
    (hopen : Run.Along step (fun s _ => Open i s) s es) (hend : Open i s')
    (hrun : Run.run step s es = some s') :
    s'.Keyed ∧ ∃ t', s'.tenders.lookup i = some t' ∧ t'.Own ∧
      (t'.st = .announced ↔ t.st = .announced ∧ ∀ e ∈ es, ¬ Answers i e) := by
  induction es generalizing s t with
  | nil =>
    obtain rfl : s = s' := by simpa using hrun
    exact ⟨hs, t, ht, hown, by simp⟩
  | cons e es ih =>
    obtain ⟨m, hm, hrest⟩ := Run.run_cons_eq_some.mp hrun
    have hm' : Open i m := by
      cases es with
      | nil =>
        obtain rfl : m = s' := by simpa using hrest
        exact hend
      | cons e' es => exact (hopen.2 m hm).1
    obtain ⟨t₁, ht₁, hopen₁⟩ := hm'
    obtain ⟨hown₁, hst₁⟩ := own_step hs ht hown hm ht₁ hopen₁
    obtain ⟨hs', t', ht', hown', hst'⟩ := ih (keyed_step hs hm) ht₁ hown₁ (hopen.2 m hm) hrest
    refine ⟨hs', t', ht', hown', ?_⟩
    rw [hst', hst₁, List.forall_mem_cons, and_assoc]

/-- Data for a tender of this node is handled by `send_response_to_kernel`. -/
theorem outcome_getData (hs : s.Keyed) (ht : s.tenders.lookup inp.header.tenderId = some t)
    (hown : t.Own) (hin : inp.cmd = .receivedData) (hcmd : inp.header.cmd = .getData) :
    outcome s (.link inp fresh) =
      (sendResponseToKernel (s.received inp fresh) inp).andThen
        fun s => .done s.resetRouterData := by
  have hmax : inp.header.cmd ≠ .maxCommand := by
    rw [hcmd]
    exact nofun
  rw [outcome_answer hs ht hown hin (by rw [hcmd]; rfl) (by rw [hcmd]; rfl)
    (by rw [hcmd]; exact nofun), Exit.assert_of_pos hmax]

/-- The data of a get is an answer when its payload parses. -/
theorem answers_getData (hin : inp.cmd = .receivedData) (hcmd : inp.header.cmd = .getData) :
    Answers inp.header.tenderId (.link inp fresh) ↔ Parses inp inp.header.headerSize := by
  simp only [Answers, hin, hcmd, true_and]
  exact ⟨fun h => h.2.2.2, fun h => ⟨rfl, rfl, nofun, h⟩⟩

/-- Data for a tender of this node is delivered when the tender is announced and known. -/
theorem delivered_iff {e : Event} (hs : s.Keyed) (ht : s.tenders.lookup i = some t) (hown : t.Own)
    (hdata : IsGetData i e) : Delivered s e ↔ Answers i e ∧ t.st = .announced ∧ s.Knows t := by
  obtain ⟨inp, fresh, rfl, hin, rfl, hcmd⟩ := hdata
  have hlook : (s.received inp fresh).tenders.lookup inp.header.tenderId = some t := ht
  have hstep : step s (.link inp fresh) = ((sendResponseToKernel (s.received inp fresh) inp).andThen
      fun s => .done s.resetRouterData).state := by
    rw [step, outcome_getData hs ht hown hin hcmd]
  rw [answers_getData hin hcmd]
  cases hq : inp.package.payload inp.header.headerSize with
  | error x =>
    refine iff_of_false ?_ ?_
    · rintro ⟨s', t', q, p, -, -, hq', -⟩
      rw [hq] at hq'
      cases hq'
    · rintro ⟨hparses, -⟩
      rw [Parses, hq] at hparses
      cases hparses
  | ok q =>
    have hparses : Parses inp inp.header.headerSize := by
      rw [Parses, hq]
      rfl
    rcases hown.st with hst | hst
    · by_cases hknown : s.Knows t
      · refine iff_of_true ?_ ⟨hparses, hst, hknown⟩
        rw [sendResponseToKernel_eq hlook hq hknown (fun h => by rw [hst] at h; cases h.2)] at hstep
        exact ⟨_, t, q, _, hstep, ht, hq, rfl, ⟨rfl, rfl, rfl, rfl, rfl⟩⟩
      · -- the node aborts
        refine iff_of_false ?_ fun h => hknown h.2.2
        rintro ⟨s', t', q', p, hs', -⟩
        have hdead : sendResponseToKernel (s.received inp fresh) inp = .aborted := by
          simp only [sendResponseToKernel, hq, hlook]
          rw [if_neg (fun h => by rw [hst] at h; cases h.2), Exit.assert_eq_aborted]
          intro hrid
          rw [Exit.assert_eq_aborted]
          exact fun hid => absurd ⟨hrid, hid⟩ hknown
        rw [hstep, hdead] at hs'
        cases hs'
    · refine iff_of_false ?_ ?_
      · rintro ⟨s', t', q', p, hs', -, -, hout, -⟩
        simp only [sendResponseToKernel, hq, hlook] at hstep
        rw [if_pos ⟨hcmd, hst⟩] at hstep
        rw [hstep] at hs'
        rw [← Option.some.inj hs'] at hout
        cases hout
      · rintro ⟨-, hst', -⟩
        rw [hst] at hst'
        cases hst'

/-- Data for a confirmed tender of this node is dropped. -/
theorem dropped_of_confirmed {e : Event} (hs : s.Keyed) (ht : s.tenders.lookup i = some t)
    (hown : t.Own) (hdata : IsGetData i e) (hst : t.st = .confirmed) : Dropped s e := by
  obtain ⟨inp, fresh, rfl, hin, rfl, hcmd⟩ := hdata
  have hlook : (s.received inp fresh).tenders.lookup inp.header.tenderId = some t := ht
  rw [Dropped, step, outcome_getData hs ht hown hin hcmd]
  cases hq : inp.package.payload inp.header.headerSize with
  | error x =>
    simp only [sendResponseToKernel, hq]
    exact ⟨_, rfl, rfl⟩
  | ok q =>
    simp only [sendResponseToKernel, hq, hlook]
    rw [if_pos ⟨hcmd, hst⟩]
    exact ⟨_, rfl, rfl⟩

/-- A get request of the kernel announces a tender. -/
theorem own_of_get {inp : KernelPackage} (hconfigured : s.isConfigured) (hget : inp.cmd = .get)
    (hstep : step s (.kernel inp fresh) = some s') :
    ∃ t, s'.tenders.lookup fresh.1 = some t ∧ t.Own ∧ t.st = .announced := by
  have hends : (handleKernelGet { s with out := [] } inp fresh).Ends
      (fun s' => ∃ t, s'.tenders.lookup fresh.1 = some t ∧ t.Own ∧ t.st = .announced)
      (fun s' => ∃ t, s'.tenders.lookup fresh.1 = some t ∧ t.Own ∧ t.st = .announced) := by
    simp only [handleKernelGet, announce, Exit.ends_assert, Exit.ends_done]
    intro _ _ _
    exact ⟨_, AList.lookup_insert _, ⟨rfl, .inl rfl, rfl, rfl⟩, rfl⟩
  have hperform :
      outcome s (.kernel inp fresh) = handleKernelGet { s with out := [] } inp fresh := by
    simp [outcome, perform, whenConfigured, hconfigured, processKernelInput, hget]
  rw [step, hperform] at hstep
  exact Exit.Ends.of_state (D := fun s' =>
    ∃ t, s'.tenders.lookup fresh.1 = some t ∧ t.Own ∧ t.st = .announced) hends hstep

end

/-- **The law of get replies.** It holds of the run behind a get request of this node, as long as
the tender is open, exactly when the first answer that arrives is data. -/
theorem getReplyLaw_iff (es₀ es : List Event) (s s₀ : State) (inp : KernelPackage)
    (fresh : RandomUUID) (hrun : Run.run step init es₀ = some s) (hconfigured : s.isConfigured)
    (hget : inp.cmd = .get) (hannounce : step s (.kernel inp fresh) = some s₀)
    (hopen : Run.Along step (fun s _ => Open fresh.1 s) s₀ es) :
    GetReplyLaw fresh.1 s₀ es ↔ FirstAnswerIsData fresh.1 s₀ es := by
  obtain ⟨t₀, ht₀, hown₀, hst₀⟩ := own_of_get hconfigured hget hannounce
  have hs₀ : s₀.Keyed := keyed_step (keyed_run hrun) hannounce
  -- the tender in the middle of the run
  have hmid : ∀ {pre e post s}, es = pre ++ e :: post → Run.run step s₀ pre = some s →
      s.Keyed ∧ ∃ t, s.tenders.lookup fresh.1 = some t ∧ t.Own ∧
        (t.st = .announced ↔ ∀ e ∈ pre, ¬ Answers fresh.1 e) := by
    intro pre e post s hsplit hpre
    obtain ⟨hbefore, hnow⟩ := Run.along_append.mp (hsplit ▸ hopen)
    obtain ⟨hs, t, ht, hown, hst⟩ := own_run hs₀ ht₀ hown₀ hbefore (hnow s hpre).1 hpre
    exact ⟨hs, t, ht, hown, hst.trans (and_iff_right hst₀)⟩
  constructor
  · intro hlaw pre e post s hsplit hpre hdata hfirst
    obtain ⟨hs, t, ht, hown, hst⟩ := hmid hsplit hpre
    have hdelivered := (hlaw pre e post s hsplit hpre hdata).1 hfirst
    obtain ⟨hanswer, hannounced, hknown⟩ := (delivered_iff hs ht hown hdata).mp hdelivered
    refine ⟨hanswer, hst.mp hannounced, fun t' ht' => ?_⟩
    obtain rfl : t = t' := Option.some.inj (ht.symm.trans ht')
    exact hknown
  · intro hcondition pre e post s hsplit hpre hdata
    obtain ⟨hs, t, ht, hown, hst⟩ := hmid hsplit hpre
    constructor
    · intro hfirst
      obtain ⟨hanswer, hnone, hknown⟩ := hcondition pre e post s hsplit hpre hdata hfirst
      exact (delivered_iff hs ht hown hdata).mpr ⟨hanswer, hst.mpr hnone, hknown t ht⟩
    · intro hlater
      obtain ⟨pre₁, e₁, post₁, rfl, hdata₁, hfirst⟩ := Run.exists_first hlater
      obtain ⟨s₁, hs₁, -⟩ := Run.run_append_eq_some.mp hpre
      have hsplit₁ : es = pre₁ ++ e₁ :: (post₁ ++ e :: post) := by simp [hsplit]
      have hanswer := (hcondition pre₁ e₁ _ s₁ hsplit₁ hs₁ hdata₁ hfirst).1
      refine dropped_of_confirmed hs ht hown hdata (hown.st.resolve_left fun hannounced => ?_)
      exact hst.mp hannounced e₁ (by simp) hanswer

/-! ### Two answers to one request -/

/-- The request of the kernel whose tender is `5`. -/
def getRequest : KernelPackage := { KernelPackage.new with requestId := 7, cmd := .get }

/-- The configured router, and the same after the request. -/
def configured : State := { init with isConfigured := true }

def requested : State := (step configured (.kernel getRequest ⟨5, uuid_five_ne_zero⟩)).getD init

/-- Peer `k` answers. -/
def answer (cmd : Command) (k : ID32) : Event :=
  .link ⟨.receivedData, {k}, ⟨RouterData.serialize { RouterData.new with
    tenderId := 5, cmd := cmd } .empty, []⟩⟩ ⟨6, uuid_six_ne_zero⟩

/-- The request of the witness opens its tender. -/
theorem step_getRequest :
    step configured (.kernel getRequest ⟨5, by decide⟩) = some requested := by
  obtain ⟨s, hs⟩ := Option.isSome_iff_exists.mp
    (show (step configured (.kernel getRequest ⟨5, by decide⟩)).isSome by decide +kernel)
  rw [requested, hs]
  rfl

/-- The data of a peer. -/
theorem getReplyLaw_once : GetReplyLaw 5 requested [answer .getData 1] := by
  have hopen : Run.Along step (fun s _ => Open 5 s) requested [answer .getData 1] :=
    ⟨by decide +kernel, fun _ _ => trivial⟩
  refine (getReplyLaw_iff [.config 3] _ configured requested getRequest ⟨5, by decide⟩ rfl rfl rfl
    step_getRequest hopen).mpr ?_
  intro pre e post s hsplit hpre hdata hfirst
  rcases pre with _ | ⟨e₁, pre⟩
  · obtain ⟨rfl, -⟩ := List.cons.inj hsplit
    obtain rfl : requested = s := by simpa using hpre
    refine ⟨⟨rfl, ?_, ?_, ?_, ?_, ?_⟩, by simp, ?_⟩ <;> decide +kernel
  · simp at hsplit

/-- Peer `1` has no permission, and the data of peer `2` is dropped. -/
theorem not_getReplyLaw :
    ¬ ∀ (es₀ es : List Event) (s s₀ : State) (inp : KernelPackage) (fresh : RandomUUID),
      Run.run step init es₀ = some s → s.isConfigured → inp.cmd = .get →
      step s (.kernel inp fresh) = some s₀ →
      Run.Along step (fun s _ => Open fresh.1 s) s₀ es → GetReplyLaw fresh.1 s₀ es := by
  intro h
  have hfirst : (step requested (answer .noPermissions 1)).isSome := by decide +kernel
  have hopen : ∀ s ∈ step requested (answer .noPermissions 1), Open 5 s := by decide +kernel
  obtain ⟨s, hs⟩ := Option.isSome_iff_exists.mp hfirst
  have hdata : IsGetData 5 (answer .getData 2) :=
    ⟨_, _, rfl, rfl, by decide +kernel, by decide +kernel⟩
  have hanswer : Answers 5 (answer .noPermissions 1) := by
    refine ⟨rfl, ?_, ?_, ?_, ?_, ?_⟩ <;> decide +kernel
  have hdropped : Dropped s (answer .getData 2) := by
    have hconfig : Run.run step init [.config 3] = some configured := rfl
    have hkeyed : requested.Keyed := keyed_step (keyed_run hconfig) step_getRequest
    obtain ⟨t₀, ht₀, hown₀, -⟩ := own_of_get rfl rfl step_getRequest
    obtain ⟨t, ht, ht'⟩ := hopen s hs
    obtain ⟨hown, hst⟩ := own_step hkeyed ht₀ hown₀ hs ht ht'
    refine dropped_of_confirmed (keyed_step hkeyed hs) ht hown hdata (hown.st.resolve_left ?_)
    exact fun hannounced => (hst.mp hannounced).2 hanswer
  have hlaw := h [.config 3] [answer .noPermissions 1, answer .getData 2] configured requested
    getRequest ⟨5, by decide⟩ rfl rfl rfl step_getRequest
    ⟨by decide +kernel, fun s hs => ⟨hopen s hs, fun _ _ => trivial⟩⟩
  have hdelivered := (hlaw [answer .noPermissions 1] (answer .getData 2) [] s rfl
    (by rw [Run.run_cons, hs]; rfl) hdata).1 ?_
  · obtain ⟨s', t, q, p, hs', -, -, hout, -⟩ := hdelivered
    obtain ⟨s'', hs'', hout'⟩ := hdropped
    obtain rfl : s' = s'' := Option.some.inj (hs'.symm.trans hs'')
    rw [hout'] at hout
    cases hout
  · intro e he
    obtain rfl := List.mem_singleton.mp he
    rintro ⟨inp, fresh, heq, -, -, hcmd⟩
    obtain ⟨rfl, -⟩ := Event.link.inj heq
    revert hcmd
    decide +kernel

end Router

end Metax
