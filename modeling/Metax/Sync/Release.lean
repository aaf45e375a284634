import Metax.Router.SyncRelease
import Metax.Sync.Kernel

/-!
# Gets are released again

While names are missing the kernel refuses get requests (`m_should_block_get_request`). This is the
kernel and the router of a node with the packages between them. Everything else may come in any
order: messages of peers, expirations of tenders, packages of the other tasks and of the rest of the
kernel, answers of the backup task.

A kernel that refuses get requests should be released: when no package is under way, the router
has a synchronization that the timeline will let expire (`WillRelease`). A synchronization whose
first message has no payload never expires, so it must not begin while gets are refused, and none
may be there when the kernel begins to refuse them; nor may the backup task answer so late that the
router has told the kernel before that all is finished. Along every other run gets are released
again (`willRelease_run`).
-/

namespace Metax

namespace Sync

open Router (Releases)

namespace Output

/-- What a package for the router is about. -/
def package : Output → Option (Command × ID32)
  | routerSendUuids requestId _ => some (.sendUuids, requestId)
  | routerSyncFinished requestId => some (.syncFinished, requestId)
  | _ => none

/-- The request of a journal for the backup task. -/
def journal : Output → Option ID32
  | backupJournal requestId _ _ => some requestId
  | _ => none

end Output

/-- The kernel and the router of a node, the packages between them, and the requests the backup task
has journals of. All queues have the oldest element first. -/
structure Node where
  router : Router.State
  kernel : State
  toKernel : List KernelPackage
  toRouter : List (Command × ID32)
  journals : List ID32
  deriving DecidableEq

/-- What happens in a node: an input of the router, which may come from the rest of the kernel, or
one of the two tasks takes a package of the other one, or the backup task answers. The content of a
package for the router plays no role here, so it may be any. -/
inductive NodeEvent
  | router (e : Router.Event)
  | kernelReads
  | routerReads (payload : Payload) (fresh : RandomUUID)
  | backupAnswers (uuids : Ledger.Table Text Char)

/-- The message of a package as a text, a null pointer if there is none. -/
def text (p : Payload) : Option Text :=
  if p.message = [] then none else some (p.message.map fun b => Char.ofNat b.toNat)

theorem message_lt (p : Payload) : p.message.length < 2 ^ 32 := p.size_lt.trans (by decide)

/-- The packages of the router that belong to a synchronization. -/
def event (p : KernelPackage) : Option Event :=
  if p.cmd = .getJournalInfo then some (.routerJournalInfo p.requestId (text p.payload))
  else if p.cmd = .getUuid then some (.routerGetUuid p.requestId
    ⟨p.uuid, ⟨p.payload.message, message_lt p.payload⟩, p.dataVersion, p.lastUpdated,
      p.expireDate⟩)
  else if p.cmd = .cancel then some (.routerFailed p.requestId)
  else if p.cmd = .syncFinished then some .routerSyncFinished
  else none

/-- A package for the kernel among what the router sends. -/
def kernelPackage : Router.Emission → Option KernelPackage
  | .kernel p => some p
  | _ => none

namespace Node

variable (n : Node)

/-- The router handles an input. -/
def routerStep (e : Router.Event) : Option Node :=
  (Router.step n.router e).map fun r =>
    { n with router := r, toKernel := n.toKernel ++ r.out.filterMap kernelPackage }

/-- The kernel handles an input. -/
def kernelStep (e : Event) : Option Node :=
  (State.step { n.kernel with out := [] } e).map fun k =>
    { n with
      kernel := k
      toRouter := n.toRouter ++ k.out.filterMap Output.package
      journals := n.journals ++ k.out.filterMap Output.journal }

/-- The kernel takes a package of the router. -/
def kernelReads : Option Node :=
  match n.toKernel with
  | [] => some n
  | p :: rest =>
    match event p with
    | none => some { n with toKernel := rest }
    | some e => kernelStep { n with toKernel := rest } e

/-- The router takes a package of the kernel. -/
def routerReads (payload : Payload) (fresh : RandomUUID) : Option Node :=
  match n.toRouter with
  | [] => some n
  | (cmd, requestId) :: rest => routerStep { n with toRouter := rest }
      (.kernel { KernelPackage.new with
        cmd := cmd
        requestId := requestId
        payload := payload } fresh)

/-- The backup task answers the oldest journal. -/
def backupAnswers (uuids : Ledger.Table Text Char) : Option Node :=
  match n.journals with
  | [] => some n
  | requestId :: rest => kernelStep { n with journals := rest } (.backupSendUuids requestId uuids)

/-- One event. -/
def step : NodeEvent → Option Node
  | .router e => n.routerStep e
  | .kernelReads => n.kernelReads
  | .routerReads payload fresh => n.routerReads payload fresh
  | .backupAnswers uuids => n.backupAnswers uuids

/-- A node that starts. -/
def start (updateListeners : Ledger.Table UUID (List Text)) (userJsonUuid : UUID)
    (syncClass : UInt32) : Node where
  router := Router.init
  kernel := ⟨∅, updateListeners, userJsonUuid, false, syncClass, []⟩
  toKernel := []
  toRouter := []
  journals := []

/-- **The law.** -/
def WillRelease : Prop :=
  n.toKernel = [] → n.toRouter = [] → n.kernel.shouldBlockGetRequest = true →
    ∃ i t, n.router.syncTenders.lookup i = some t ∧ .syncTender i ∈ n.router.timeline

/-- The message that no synchronization is going on is on its way to the kernel. -/
def Finishing : Prop := ∃ p ∈ n.toKernel, p.cmd = .syncFinished

instance : Decidable n.Finishing := List.decidableBEx _ _

/-- A synchronization is going on and all that are will expire, or the kernel is being told that
none is. -/
def Busy : Prop :=
  (n.router.syncTenders.entries ≠ [] ∧ n.router.SyncTimed) ∨ n.Finishing

instance : Decidable n.Busy := inferInstanceAs (Decidable (_ ∨ _))

/-- The condition on a step: while the kernel refuses gets, and is not being told to let them in
again, the first message of a synchronization has a payload; and the backup task has names to
request only while the router is busy. -/
def Orderly : NodeEvent → Prop
  | .router e => n.kernel.shouldBlockGetRequest = true → ¬ n.Finishing →
      Router.SyncOpens n.router e
  | .backupAnswers uuids => ∀ requestId ∈ n.journals.head?,
      (n.kernel.requests.lookup requestId).isSome → uuids.keys ≠ [] → n.Busy
  | _ => True

instance (e : NodeEvent) : Decidable (n.Orderly e) :=
  match e with
  | .router e => inferInstanceAs (Decidable (n.kernel.shouldBlockGetRequest = true →
      ¬ n.Finishing → Router.SyncOpens n.router e))
  | .backupAnswers uuids => inferInstanceAs (Decidable (∀ requestId ∈ n.journals.head?,
      (n.kernel.requests.lookup requestId).isSome → uuids.keys ≠ [] → n.Busy))
  | .kernelReads => .isTrue trivial
  | .routerReads _ _ => .isTrue trivial

end Node

/-! ### What the kernel does with the flag -/

section Kernel

variable {s t : State} {rid : ID32} {m : UuidMessage}

theorem notifyUpdate_flag {u : UUID} {version : UInt32} :
    (s.notifyUpdate u version).shouldBlockGetRequest = s.shouldBlockGetRequest := by
  unfold State.notifyUpdate
  split <;> rfl

theorem processRequestedUuidForSync_flag {r : Request}
    (h : s.processRequestedUuidForSync rid r m = some t) :
    t.shouldBlockGetRequest = s.shouldBlockGetRequest := by
  unfold State.processRequestedUuidForSync at h
  split at h
  · cases h
  · dsimp only at h
    split_ifs at h
    · obtain rfl := Option.some.inj h
      rfl
    · obtain rfl := Option.some.inj h
      rfl

theorem handleRouterGetUuid_flag (h : s.handleRouterGetUuid rid m = some t) :
    t.shouldBlockGetRequest = s.shouldBlockGetRequest := by
  unfold State.handleRouterGetUuid at h
  split at h
  · obtain rfl := Option.some.inj h
    rfl
  · dsimp only at h
    split_ifs at h
    · exact (processRequestedUuidForSync_flag h).trans notifyUpdate_flag
    · exact (processRequestedUuidForSync_flag h).trans notifyUpdate_flag

/-- The kernel begins to refuse gets at an answer of the backup task. -/
theorem flag_step {e : Event} (h : s.step e = some t) (hflag : t.shouldBlockGetRequest = true) :
    s.shouldBlockGetRequest = true ∨ ∃ rid uuids, e = .backupSendUuids rid uuids ∧
      (s.requests.lookup rid).isSome ∧ uuids.keys ≠ [] := by
  cases e with
  | routerJournalInfo rid message =>
    obtain rfl := Option.some.inj h
    cases message with
    | none => exact .inl hflag
    | some message => exact .inl hflag
  | backupSendUuids rid uuids =>
    obtain rfl := Option.some.inj h
    unfold State.handleBackupSendUuids at hflag
    split at hflag
    · exact .inl hflag
    · rename_i r hr
      by_cases hkeys : uuids.keys = []
      · rw [State.postRouterSendUuidsRequest, if_pos hkeys] at hflag
        exact .inl hflag
      · exact .inr ⟨rid, uuids, rfl, Option.isSome_of_mem hr, hkeys⟩
  | routerGetUuid rid m =>
    rw [← handleRouterGetUuid_flag h]
    exact .inl hflag
  | routerFailed rid =>
    obtain rfl := Option.some.inj h
    exact .inl hflag
  | routerSyncFinished =>
    obtain rfl := Option.some.inj h
    cases hflag

/-- The message of the router ends that. -/
theorem flag_syncFinished (h : s.step .routerSyncFinished = some t) :
    t.shouldBlockGetRequest = false := by
  obtain rfl := Option.some.inj h
  rfl

end Kernel

/-! ### The invariant -/

namespace Node

variable {n n' : Node}

/-- The router is busy while the kernel refuses gets. -/
structure Sound (n : Node) : Prop where
  keyed : n.router.SyncKeyed
  busy : n.kernel.shouldBlockGetRequest = true → n.Busy

theorem Sound.willRelease (h : n.Sound) : n.WillRelease := by
  intro hkernel _ hflag
  rcases h.busy hflag with ⟨hsome, htimed⟩ | ⟨p, hp, -⟩
  · obtain ⟨e, hmem⟩ := List.exists_mem_of_ne_nil _ hsome
    have ht : n.router.syncTenders.lookup e.1 = some e.2 := AList.mem_lookup_iff.mpr hmem
    exact ⟨e.1, e.2, ht, Ledger.all_iff.mp htimed e.1 e.2 ht⟩
  · rw [hkernel] at hp
    cases hp

/-- The router stays busy, or tells the kernel. -/
theorem Busy.routerStep {e : Router.Event} (h : n.Busy) (hkeyed : n.router.SyncKeyed)
    (hok : ¬ n.Finishing → Router.SyncOpens n.router e) (hstep : n.routerStep e = some n') :
    n'.Busy := by
  obtain ⟨r, hr, rfl⟩ := Option.map_eq_some_iff.mp hstep
  by_cases hfinishing : n.Finishing
  · obtain ⟨p, hp, hcmd⟩ := hfinishing
    exact .inr ⟨p, List.mem_append_left _ hp, hcmd⟩
  · obtain ⟨hsome, htimed⟩ := h.resolve_right hfinishing
    rcases Router.step_releases hr hsome with hsome' | ⟨m, hm, hrelease⟩
    · exact .inl ⟨hsome', Router.syncTimed_step hkeyed htimed (hok hfinishing) hr⟩
    · cases m with
      | kernel p =>
        refine .inr ⟨p, List.mem_append_right _ ?_, hrelease⟩
        exact List.mem_filterMap.mpr ⟨.kernel p, hm, rfl⟩
      | link l => exact hrelease.elim
      | notification cmd message => exact hrelease.elim

theorem Sound.routerStep {e : Router.Event} (h : n.Sound) (hok : n.Orderly (.router e))
    (hstep : n.routerStep e = some n') : n'.Sound := by
  obtain ⟨r, hr, rfl⟩ := Option.map_eq_some_iff.mp hstep
  refine ⟨Router.syncKeyed_step h.keyed hr, fun hflag => ?_⟩
  exact (h.busy hflag).routerStep h.keyed (hok hflag) hstep

/-- A step of the kernel in which it does not begin to refuse gets, or the router is busy. -/
theorem Sound.kernelStep {e : Event} (h : n.router.SyncKeyed)
    (hbusy : ∀ k, State.step { n.kernel with out := [] } e = some k →
      k.shouldBlockGetRequest = true → n.Busy) (hstep : n.kernelStep e = some n') : n'.Sound := by
  obtain ⟨k, hk, rfl⟩ := Option.map_eq_some_iff.mp hstep
  exact ⟨h, fun hflag => hbusy k hk hflag⟩

theorem Sound.kernelReads (h : n.Sound) (hstep : n.kernelReads = some n') : n'.Sound := by
  unfold Node.kernelReads at hstep
  split at hstep
  · obtain rfl := Option.some.inj hstep
    exact h
  · rename_i p rest hqueue
    -- without a message that it is finished, what made the router busy is still there
    have hrest (hp : p.cmd ≠ .syncFinished) (hbusy : n.Busy) :
        Busy { n with toKernel := rest } := by
      rcases hbusy with hgoing | ⟨q, hq, hcmd⟩
      · exact .inl hgoing
      · rw [hqueue] at hq
        rcases List.mem_cons.mp hq with rfl | hq
        · exact absurd hcmd hp
        · exact .inr ⟨q, hq, hcmd⟩
    split at hstep
    · rename_i hevent
      obtain rfl := Option.some.inj hstep
      refine ⟨h.keyed, fun hflag => hrest (fun hp => ?_) (h.busy hflag)⟩
      rw [event, hp] at hevent
      cases hevent
    · rename_i e hevent
      refine Sound.kernelStep (n := { n with toKernel := rest }) h.keyed (fun k hk hflag => ?_)
        hstep
      by_cases hp : p.cmd = .syncFinished
      · obtain rfl : .routerSyncFinished = e := by
          rw [event, hp] at hevent
          exact Option.some.inj hevent
        rw [flag_syncFinished hk] at hflag
        cases hflag
      · rcases flag_step hk hflag with hflag | ⟨rid, uuids, rfl, -⟩
        · exact hrest hp (h.busy hflag)
        · -- no package of the router is an answer of the backup task
          unfold event at hevent
          split_ifs at hevent <;> cases hevent

theorem Sound.routerReads {payload : Payload} {fresh : RandomUUID} (h : n.Sound)
    (hstep : n.routerReads payload fresh = some n') : n'.Sound := by
  unfold Node.routerReads at hstep
  split at hstep
  · obtain rfl := Option.some.inj hstep
    exact h
  · rename_i cmd rid rest hqueue
    have hsound : Sound { n with toRouter := rest } := ⟨h.keyed, h.busy⟩
    refine hsound.routerStep ?_ hstep
    exact fun _ _ => trivial

theorem Sound.backupAnswers {uuids : Ledger.Table Text Char} (h : n.Sound)
    (hok : n.Orderly (.backupAnswers uuids)) (hstep : n.backupAnswers uuids = some n') :
    n'.Sound := by
  unfold Node.backupAnswers at hstep
  split at hstep
  · obtain rfl := Option.some.inj hstep
    exact h
  · rename_i rid rest hjournals
    refine Sound.kernelStep (n := { n with journals := rest }) h.keyed (fun k hk hflag => ?_) hstep
    rcases flag_step hk hflag with hflag | ⟨rid', uuids', he, hsome, hkeys⟩
    · exact h.busy hflag
    · rw [Event.backupSendUuids.injEq] at he
      obtain ⟨rfl, rfl⟩ := he
      exact hok rid (by rw [hjournals]; rfl) hsome hkeys

/-- **Step lemma.** -/
theorem sound_step {e : NodeEvent} (h : n.Sound) (hok : n.Orderly e) (hstep : n.step e = some n') :
    n'.Sound := by
  cases e with
  | router e => exact h.routerStep hok hstep
  | kernelReads => exact h.kernelReads hstep
  | routerReads payload fresh => exact h.routerReads hstep
  | backupAnswers uuids => exact h.backupAnswers hok hstep

/-- **Gets are released again** along every orderly run of a node. -/
theorem willRelease_run (updateListeners : Ledger.Table UUID (List Text)) (userJsonUuid : UUID)
    (syncClass : UInt32) (es : List NodeEvent) (n : Node)
    (hrun : Run.run step (start updateListeners userJsonUuid syncClass) es = some n)
    (hok : Run.Along step Orderly (start updateListeners userJsonUuid syncClass) es) :
    n.WillRelease := by
  refine Sound.willRelease (Run.invariant_of_run Sound (fun _ _ _ => sound_step) ?_ hok hrun)
  exact ⟨Router.syncKeyed_init, fun hflag => by cases hflag⟩

/-- A peer's journal, with its payload or without. -/
def journalOf (tender : UUID) (hasPayload : Bool) : NodeEvent :=
  let d := { RouterData.new with tenderId := tender, cmd := .getJournalInfo, hopId := 1 }
  .router (.link ⟨.receivedData, {1}, ⟨if hasPayload then d.serialize ⟨0, [110], by decide⟩
    else d.encodeHeader, []⟩⟩ ⟨6, uuid_six_ne_zero⟩)

/-- A synchronization that asks for one uuid and expires. -/
def session : List NodeEvent :=
  [journalOf 5 true, .kernelReads, .backupAnswers ((∅ : Ledger.Table Text Char).insert ['u'] 's'),
    .routerReads .empty ⟨6, uuid_six_ne_zero⟩, .router (.timeout (.syncTender 5)), .kernelReads,
    .kernelReads]

theorem willRelease_session : ∃ n, Run.run step (start ∅ 9 1) (.router (.config 3) :: session) =
    some n ∧ n.WillRelease := by
  obtain ⟨n, hn⟩ := Option.isSome_iff_exists.mp
    (show (Run.run step (start ∅ 9 1) (.router (.config 3) :: session)).isSome by decide +kernel)
  exact ⟨n, hn, willRelease_run ∅ 9 1 _ n hn (by decide +kernel)⟩

/-- **A malformed journal blocks gets for ever**: its synchronization never expires, so the end of
the next one releases nobody. -/
theorem not_willRelease : ¬ ∀ (updateListeners : Ledger.Table UUID (List Text))
    (userJsonUuid : UUID)
    (syncClass : UInt32) (es : List NodeEvent) (n : Node),
    Run.run step (start updateListeners userJsonUuid syncClass) es = some n → n.WillRelease := by
  intro h
  obtain ⟨n, hn⟩ := Option.isSome_iff_exists.mp (show (Run.run step (start ∅ 9 1)
    (.router (.config 3) :: journalOf 7 false :: session)).isSome by decide +kernel)
  have hstuck : ∀ n ∈ Run.run step (start ∅ 9 1)
      (.router (.config 3) :: journalOf 7 false :: session), n.toKernel = [] ∧ n.toRouter = [] ∧
        n.kernel.shouldBlockGetRequest = true ∧ n.router.timeline = [] := by
    decide +kernel
  obtain ⟨hkernel, hrouter, hflag, htimeline⟩ := hstuck n hn
  obtain ⟨i, t, -, hmem⟩ := h ∅ 9 1 _ n hn hkernel hrouter hflag
  rw [htimeline] at hmem
  cases hmem

/-- So does a second journal for the same synchronization, if the first one asks for nothing and is
answered before. -/
example : ∀ n ∈ Run.run step (start ∅ 9 1) [.router (.config 3), journalOf 5 true, .kernelReads,
    journalOf 5 true, .kernelReads, .backupAnswers ∅, .routerReads .empty ⟨6, uuid_six_ne_zero⟩,
    .kernelReads, .backupAnswers ((∅ : Ledger.Table Text Char).insert ['u'] 's'),
    .routerReads .empty ⟨6, uuid_six_ne_zero⟩],
    n.toKernel = [] ∧ n.toRouter = [] ∧ n.kernel.shouldBlockGetRequest = true ∧
      n.router.timeline = [] := by
  decide +kernel

end Node

end Sync

end Metax
