import Metax.Pairing.Data

/-!
# Who is sent the keys

A connection looks whether there is a code, waits for the client, and then compares what the client
says with the code there is by then. A session that ends in between leaves the empty code, and one
that is about to end leaves a code that is no longer valid.

`Secret` is the law: the keys go to clients that presented the code of the open session, and not an
empty one. It holds along every run in which comparisons succeed only with a code, never while a
session is being ended, and no session ends between a successful comparison and the sending of the
keys (`secret_of_guarded`).
-/

namespace Metax

namespace Pairing

namespace Ending

/-- The server is stopped and the code not yet cleared. -/
def Late (e : Ending) : Prop := e = stopped ∨ e = released

instance (e : Ending) : Decidable e.Late := inferInstanceAs (Decidable (_ ∨ _))

end Ending

/-- A session is being ended: its server does not run, its code is there. -/
def State.Late (s : State) : Prop :=
  s.timer.Late ∨ s.linkTask = .cancelling .stopped ∨ s.linkTask = .cancelling .released

instance (s : State) : Decidable s.Late := inferInstanceAs (Decidable (_ ∨ _))

namespace State

variable {s t : State} {e : Event} {c : ConnectionId} {x : Connection}

/-! ### The shared variables -/

/-- How the threads exclude each other. -/
structure Ordered (s : State) : Prop where
  /-- A server runs behind a set pointer. -/
  running : s.serverRuns → s.pairingSocket
  /-- While a session is started, no timer can end it. -/
  starting : s.linkTask = .created ∨ s.linkTask = .coded →
    s.serverRuns ∧ s.timerStarted = false ∧ s.timer ≠ .entered ∧ s.timer ≠ .stopped
  /-- A session has no code at first. -/
  uncoded : s.linkTask = .created → s.issued = none
  /-- A timer that was started is not running yet. -/
  started : s.timerStarted → s.timer = .idle ∧ s.pairingSocket
  /-- Cancelling waits for the timer. -/
  cancelling : ∀ e, s.linkTask = .cancelling e → s.timer = .idle ∧ s.timerStarted = false
  /-- The pointer is set until it is reset. -/
  entered : s.timer = .entered ∨ s.timer = .stopped → s.linkTask = .idle ∧ s.pairingSocket
  /-- The server is stopped before the pointer is reset. -/
  stopped : s.timer = .stopped ∨ s.linkTask = .cancelling .stopped → s.serverRuns = false
  /-- The pointer is set while a session is cancelled. -/
  cancelled : s.linkTask = .cancelling .entered → s.pairingSocket
  /-- A code is that of the open session, or of one that is being ended. -/
  code : s.generatedCode ≠ [] → s.Late ∨ s.serverRuns ∧ s.issued = some s.generatedCode

/-- No thread runs at the start. -/
theorem ordered_init : init.Ordered := by
  constructor <;> simp [init]

/-- What a connection does by itself is not looked at. -/
theorem Ordered.setConnection (h : s.Ordered) : (s.setConnection c x).Ordered :=
  ⟨h.running, h.starting, h.uncoded, h.started, h.cancelling, h.entered, h.stopped,
    h.cancelled, h.code⟩

/-- A session is started with its server, and no timer can end it. -/
theorem Ordered.startPairing (h : s.Ordered) (ht : s.startPairing = some t) : t.Ordered := by
  rw [State.startPairing] at ht
  split_ifs at ht with hc
  cases ht
  obtain ⟨hrunning, hstarting, huncoded, hstarted, hcancelling, hentered, hstopped,
      hcancelled, hcode⟩ := h
  constructor <;> grind [Late, Ending.Late]

theorem Ordered.sendGeneratedCode {code : Bytes} (h : s.Ordered)
    (ht : s.sendGeneratedCode code = some t) : t.Ordered := by
  rw [State.sendGeneratedCode] at ht
  split_ifs at ht with hc
  cases ht
  obtain ⟨hrunning, hstarting, huncoded, hstarted, hcancelling, hentered, hstopped,
      hcancelled, hcode⟩ := h
  constructor <;> grind [Late, Ending.Late]

theorem Ordered.startTimer {started : Bool} (h : s.Ordered) (ht : s.startTimer started = some t) :
    t.Ordered := by
  rw [State.startTimer] at ht
  split_ifs at ht with hc
  cases ht
  obtain ⟨hrunning, hstarting, huncoded, hstarted, hcancelling, hentered, hstopped,
      hcancelled, hcode⟩ := h
  constructor <;> grind [Late, Ending.Late]

/-- The link task stops the timer and begins to end the session. -/
theorem Ordered.cancelPairing (h : s.Ordered) (ht : s.cancelPairing = some t) : t.Ordered := by
  rw [State.cancelPairing] at ht
  split_ifs at ht with hc hs
  all_goals
    cases ht
    obtain ⟨hrunning, hstarting, huncoded, hstarted, hcancelling, hentered, hstopped,
      hcancelled, hcode⟩ := h
    constructor <;> grind [Late, Ending.Late]

/-- The timer begins to end it. -/
theorem Ordered.timerExpires (h : s.Ordered) (ht : s.timerExpires = some t) : t.Ordered := by
  rw [State.timerExpires] at ht
  have hidle : s.timerStarted → s.linkTask = .idle := by
    intro hstarted
    cases hlink : s.linkTask with
    | idle => rfl
    | created => exact absurd hstarted (by simp [(h.starting (.inl hlink)).2.1])
    | coded => exact absurd hstarted (by simp [(h.starting (.inr hlink)).2.1])
    | cancelling e => exact absurd hstarted (by simp [(h.cancelling e hlink).2])
  split_ifs at ht with hc hs
  all_goals
    cases ht
    obtain ⟨hrunning, hstarting, huncoded, hstarted, hcancelling, hentered, hstopped,
      hcancelled, hcode⟩ := h
    constructor <;> grind [Late, Ending.Late]

/-- The statements that end a session, in their order. -/
theorem Ordered.timerStep (h : s.Ordered) :
    (∀ t ∈ s.timerStep .entered .stopped stopServer, t.Ordered) ∧
      (∀ t ∈ s.timerStep .stopped .released releaseSocket, t.Ordered) ∧
        ∀ t ∈ s.timerStep .released .idle clearCode, t.Ordered := by
  refine ⟨fun t ht => ?_, fun t ht => ?_, fun t ht => ?_⟩
  all_goals
    rw [State.timerStep, Option.mem_def] at ht
    split_ifs at ht with hc
    cases ht
    obtain ⟨hrunning, hstarting, huncoded, hstarted, hcancelling, hentered, hstopped,
      hcancelled, hcode⟩ := h
    constructor <;> grind [Late, Ending.Late, stopServer, releaseSocket, clearCode]

/-- It goes on in three steps: the server is stopped, the pointer reset, the code cleared. -/
theorem Ordered.cancelStep (h : s.Ordered) :
    (∀ t ∈ s.cancelStep .entered (.cancelling .stopped) stopServer, t.Ordered) ∧
      (∀ t ∈ s.cancelStep .stopped (.cancelling .released) releaseSocket, t.Ordered) ∧
        ∀ t ∈ s.cancelStep .released .idle clearCode, t.Ordered := by
  refine ⟨fun t ht => ?_, fun t ht => ?_, fun t ht => ?_⟩
  all_goals
    rw [State.cancelStep, Option.mem_def] at ht
    split_ifs at ht with hc
    cases ht
    obtain ⟨hrunning, hstarting, huncoded, hstarted, hcancelling, hentered, hstopped,
      hcancelled, hcode⟩ := h
    constructor <;> grind [Late, Ending.Late, stopServer, releaseSocket, clearCode]

/-- What a step of a connection does: it moves the connection or sends the keys. A connection is
matched by a comparison with the code. -/
inductive ConnectionStep (s : State) (e : Event) : State → Prop
  | moved (c : ConnectionId) (x : Connection)
    (hx : ∀ code, x = .matched code → code = s.generatedCode ∧ e = .compare c ∧
      s.connections.lookup c = some (.presented code)) :
    ConnectionStep s e (s.setConnection c x)
  | sent (c : ConnectionId) (code : Bytes) (hc : s.connections.lookup c = some (.matched code)) :
    ConnectionStep s e
      { s.setConnection c .closed with sent := s.sent ++ [⟨c, code, s.openCode⟩] }

/-- What a connection does, each time as a `ConnectionStep`. -/
theorem accept_cases (ht : s.accept c = some t) : ConnectionStep s e t := by
  rw [accept] at ht
  split_ifs at ht with hc
  cases ht
  exact .moved c .connected (by simp)

theorem checkCode_cases (ht : s.checkCode c = some t) : ConnectionStep s e t := by
  rw [checkCode] at ht
  split_ifs at ht with hc hempty
  · cases ht
    exact .moved c .closed (by simp)
  · cases ht
    exact .moved c .waiting (by simp)

theorem readMessage_cases {message : Received} (ht : s.readMessage c message = some t) :
    ConnectionStep s e t := by
  rw [readMessage] at ht
  split_ifs at ht with hc
  cases ht
  exact .moved c _ (by simp)

/-- To compare the codes is one as well. -/
theorem compare_cases (ht : s.compare c = some t) : ConnectionStep s (.compare c) t := by
  rw [compare] at ht
  split at ht
  · rename_i code hc
    cases ht
    split_ifs with hcode
    · refine .moved c (.matched code) ?_
      rintro code' ⟨⟩
      exact ⟨hcode, rfl, hc⟩
    · exact .moved c .closed (by simp)
  · cases ht

theorem sendUserKeys_cases (ht : s.sendUserKeys c = some t) : ConnectionStep s e t := by
  rw [sendUserKeys] at ht
  split at ht
  · rename_i code hc
    cases ht
    exact .sent c code hc
  · cases ht

theorem fail_cases (ht : s.fail c = some t) : ConnectionStep s e t := by
  rw [fail] at ht
  split_ifs at ht with hc
  cases ht
  exact .moved c .closed (by simp)

/-- A connection does not touch the threads that start and end sessions. -/
theorem Ordered.connection (h : s.Ordered) (ht : ConnectionStep s e t) : t.Ordered := by
  cases ht with
  | moved c x hx => exact h.setConnection
  | sent c code hc =>
    exact ⟨h.running, h.starting, h.uncoded, h.started, h.cancelling, h.entered, h.stopped,
      h.cancelled, h.code⟩

theorem ordered_step (h : s.Ordered) (ht : s.step e = some t) : t.Ordered := by
  cases e with
  | startPairing => exact h.startPairing ht
  | sendGeneratedCode code => exact h.sendGeneratedCode ht
  | startTimer started => exact h.startTimer ht
  | cancelPairing => exact h.cancelPairing ht
  | cancelStop => exact h.cancelStep.1 t ht
  | cancelRelease => exact h.cancelStep.2.1 t ht
  | cancelClear => exact h.cancelStep.2.2 t ht
  | timerExpires => exact h.timerExpires ht
  | timerStop => exact h.timerStep.1 t ht
  | timerRelease => exact h.timerStep.2.1 t ht
  | timerClear => exact h.timerStep.2.2 t ht
  | accept c => exact h.connection (accept_cases (e := .accept c) ht)
  | checkCode c => exact h.connection (checkCode_cases (e := .checkCode c) ht)
  | readMessage c message =>
    exact h.connection (readMessage_cases (e := .readMessage c message) ht)
  | compare c => exact h.connection (compare_cases ht)
  | sendUserKeys c => exact h.connection (sendUserKeys_cases (e := .sendUserKeys c) ht)
  | fail c => exact h.connection (fail_cases (e := .fail c) ht)

/-! ### The law -/

/-- **Secrecy**: the keys were sent to clients that presented the code of the session that was open,
and not the empty one. -/
def Secret (s : State) : Prop := ∀ x ∈ s.sent, x.code ≠ [] ∧ x.openCode = some x.code

/-- The condition on a step: a comparison that succeeds finds a code, and no session that is being
ended; a session does not end between such a comparison and the sending of the keys. -/
def Guarded (s : State) : Event → Prop
  | .compare c => s.connections.lookup c = some (.presented s.generatedCode) →
    s.generatedCode ≠ [] ∧ ¬ s.Late
  | .timerStop | .cancelStop => ∀ c code, s.connections.lookup c ≠ some (.matched code)
  | _ => True

/-- The connections that are about to send presented the code of the open session. -/
structure Valid (s : State) : Prop extends s.Ordered where
  matched : ∀ c code, s.connections.lookup c = some (.matched code) →
    code ≠ [] ∧ s.openCode = some code
  sent : s.Secret

theorem valid_init : init.Valid where
  toOrdered := ordered_init
  matched := by simp [init]
  sent := List.forall_mem_nil _

/-- A step of a session that keeps its code, or that no connection is about to send in. -/
theorem Valid.session (h : s.Valid) (ht : t.Ordered) (hconnections : t.connections = s.connections)
    (hsent : t.sent = s.sent) (hcode : t.openCode = s.openCode ∨
      ∀ c code, s.connections.lookup c ≠ some (.matched code)) : t.Valid where
  toOrdered := ht
  matched c code hc := by
    rw [hconnections] at hc
    rcases hcode with hcode | hcode
    · rw [hcode]
      exact h.matched c code hc
    · exact absurd hc (hcode c code)
  sent := by
    rw [Secret, hsent]
    exact h.sent

/-- Without an open session no connection is about to send. -/
theorem Valid.not_matched (h : s.Valid) (hopen : s.openCode = none) (c : ConnectionId)
    (code : Bytes) : s.connections.lookup c ≠ some (.matched code) := by
  intro hc
  have hcode := (h.matched c code hc).2
  rw [hopen] at hcode
  cases hcode

/-- A step of a connection. -/
theorem Valid.connection (h : s.Valid) (hguard : s.Guarded e) (ht : ConnectionStep s e t) :
    t.Valid := by
  have hordered := h.toOrdered.connection ht
  cases ht with
  | moved c x hx =>
    refine ⟨hordered, fun c' code hc => ?_, h.sent⟩
    obtain ⟨-, hmatched⟩ | ⟨-, hc⟩ := Ledger.eq_or_of_lookup_insert hc
    · -- the connection has just been matched: the code is that of the open session
      obtain ⟨rfl, rfl, hpresented⟩ := hx code hmatched
      obtain ⟨hne, hlate⟩ := hguard hpresented
      obtain ⟨hruns, hissued⟩ := (h.code hne).resolve_left hlate
      exact ⟨hne, by rw [openCode, setConnection, if_pos hruns, hissued]⟩
    · exact h.matched c' code hc
  | sent c code hc =>
    obtain ⟨hne, hopen⟩ := h.matched c code hc
    refine ⟨hordered, fun c' code' hc' => ?_, ?_⟩
    · obtain ⟨-, hend⟩ | ⟨-, hc'⟩ := Ledger.eq_or_of_lookup_insert hc'
      · cases hend
      · exact h.matched c' code' hc'
    · rw [Secret, List.forall_mem_append, List.forall_mem_singleton]
      exact ⟨h.sent, hne, hopen⟩

theorem valid_step (h : s.Valid) (hguard : s.Guarded e) (ht : s.step e = some t) : t.Valid := by
  have hordered := ordered_step h.toOrdered ht
  cases e with
  -- a session opens only when none is running, so that no connection matches its code
  | startPairing =>
    simp only [step, startPairing] at ht
    split_ifs at ht with hc
    cases ht
    have hruns : s.serverRuns = false := by
      cases hr : s.serverRuns with
      | false => rfl
      | true => exact absurd (h.running hr) (by simp [hc.2])
    refine h.session hordered rfl rfl (.inr (h.not_matched ?_))
    rw [openCode, hruns]
    rfl
  | sendGeneratedCode code =>
    simp only [step, sendGeneratedCode] at ht
    split_ifs at ht with hc
    cases ht
    refine h.session hordered rfl rfl (.inr (h.not_matched ?_))
    rw [openCode, h.uncoded hc.1, ite_self]
  | startTimer started =>
    simp only [step, startTimer] at ht
    split_ifs at ht with hc
    cases ht
    exact h.session hordered rfl rfl (.inl rfl)
  | cancelPairing =>
    simp only [step, cancelPairing] at ht
    split_ifs at ht with hc hs
    all_goals
      cases ht
      exact h.session hordered rfl rfl (.inl rfl)
  -- to stop the server while a connection is past its code is what the guard excludes
  | cancelStop =>
    simp only [step, cancelStep] at ht
    split_ifs at ht with hc
    cases ht
    exact h.session hordered rfl rfl (.inr hguard)
  | cancelRelease =>
    simp only [step, cancelStep] at ht
    split_ifs at ht with hc
    cases ht
    exact h.session hordered rfl rfl (.inl rfl)
  -- what follows on the stop closes what is closed already
  | cancelClear =>
    simp only [step, cancelStep] at ht
    split_ifs at ht with hc
    cases ht
    exact h.session hordered rfl rfl (.inl rfl)
  | timerExpires =>
    simp only [step, timerExpires] at ht
    split_ifs at ht with hc hs
    all_goals
      cases ht
      exact h.session hordered rfl rfl (.inl rfl)
  | timerStop =>
    simp only [step, timerStep] at ht
    split_ifs at ht with hc
    cases ht
    exact h.session hordered rfl rfl (.inr hguard)
  | timerRelease =>
    simp only [step, timerStep] at ht
    split_ifs at ht with hc
    cases ht
    exact h.session hordered rfl rfl (.inl rfl)
  | timerClear =>
    simp only [step, timerStep] at ht
    split_ifs at ht with hc
    cases ht
    exact h.session hordered rfl rfl (.inl rfl)
  -- the connections go on, each by its own steps
  | accept c => exact h.connection hguard (accept_cases ht)
  | checkCode c => exact h.connection hguard (checkCode_cases ht)
  | readMessage c message => exact h.connection hguard (readMessage_cases ht)
  | compare c => exact h.connection hguard (compare_cases ht)
  | sendUserKeys c => exact h.connection hguard (sendUserKeys_cases ht)
  | fail c => exact h.connection hguard (fail_cases ht)

/-- **The keys stay secret** in every state of a run whose steps meet the condition. -/
theorem secret_of_guarded (es : List Event) (hguard : Run.Along step Guarded init es) :
    ∀ t ∈ Run.run step init es, t.Secret := by
  intro t ht
  have hvalid : t.Valid := Run.invariant_of_run Valid
    (fun _ _ _ h hok hstep => valid_step h hok hstep) valid_init hguard ht
  exact hvalid.sent

/-! ### Concrete runs -/

/-- A message of a client with a code. -/
def codeMessage (code : Bytes) : Received :=
  ⟨KeyTransfer.encodeHeader ⟨0, .maxCommand, code, [], [], []⟩, []⟩

/-- The code "0000000". -/
def zeros : Bytes := List.replicate 7 48

/-- A client that presents the code in time. -/
def pairedRun : List Event :=
  [.startPairing, .sendGeneratedCode zeros, .startTimer true, .accept 1, .checkCode 1,
    .readMessage 1 (codeMessage zeros), .compare 1, .sendUserKeys 1]

/-- A client that waits for the end of the session and presents the empty code. -/
def patientRun : List Event :=
  [.startPairing, .sendGeneratedCode zeros, .startTimer true, .accept 1, .checkCode 1,
    .timerExpires, .timerStop, .timerRelease, .timerClear, .readMessage 1 (codeMessage []),
    .compare 1, .sendUserKeys 1]

/-- Whether a connection is about to send, looked up entry by entry. -/
theorem forall_entries_iff : (∀ x ∈ s.connections.entries, x.2.isMatched = false) ↔
    ∀ c code, s.connections.lookup c ≠ some (.matched code) := by
  constructor
  · intro h c code hc
    have hfalse : (Connection.matched code).isMatched = false :=
      h ⟨c, .matched code⟩ (AList.mem_lookup_iff.mp hc)
    cases hfalse
  · rintro h ⟨c, x⟩ hx
    cases x with
    | matched code => exact absurd (AList.mem_lookup_iff.mpr hx) (h c code)
    | _ => rfl

instance : DecidablePred (Guarded s)
  | .compare _ => inferInstanceAs (Decidable (_ → _))
  | .timerStop => @decidable_of_iff _ _ forall_entries_iff (List.decidableBAll _ _)
  | .cancelStop => @decidable_of_iff _ _ forall_entries_iff (List.decidableBAll _ _)
  | .startPairing | .sendGeneratedCode _ | .startTimer _ | .cancelPairing | .cancelRelease
  | .cancelClear | .timerExpires | .timerRelease | .timerClear | .accept _ | .checkCode _
  | .readMessage _ _ | .sendUserKeys _ | .fail _ => .isTrue trivial

theorem secret_paired : ∃ t, Run.run step init pairedRun = some t ∧ t.Secret := by
  obtain ⟨t, ht⟩ := Option.isSome_iff_exists.mp
    (show (Run.run step init pairedRun).isSome by decide)
  exact ⟨t, ht, secret_of_guarded pairedRun (by decide) t ht⟩

/-- The patient client is sent the keys. -/
theorem not_secret : ¬ ∀ es : List Event, ∀ t ∈ Run.run step init es, t.Secret := by
  intro h
  obtain ⟨t, ht⟩ := Option.isSome_iff_exists.mp
    (show (Run.run step init patientRun).isSome by decide)
  have hsent : (Run.run step init patientRun).map State.sent = some [⟨1, [], none⟩] := by decide
  rw [ht, Option.map_some, Option.some.injEq] at hsent
  have hsecret := h patientRun t ht ⟨1, [], none⟩ (by rw [hsent]; exact List.mem_singleton_self _)
  exact hsecret.1 rfl

end State

end Pairing

end Metax
