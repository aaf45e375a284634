import Metax.Messages.Listeners

/-!
# What the log of one kernel is justified by

Other nodes are an `Env` here: whom they look for, what they send, and what they confirm. Whatever
the kernel writes has its cause in this and in what it has written before (`Justified`): the IMS is
given what was sent to a key that is the user's own, or an event of an object that was notified to
this key; it is told that a message was confirmed when one of its messages was; and the router is
given the data of the message for which the peer was found.

Ids are taken to be handed out once, which they are until the counter starts over.

The steps are of two kinds: calm ones, which write nothing that is followed (`Calm`), and those that
open a request, write a followed entry or answer one, which have a lemma each. `Traced.step` goes
through the events.
-/

namespace Metax

namespace Messages

open Ledger (Table)
open Text (cString)
open Deletion (idBound nextCounter_of_lt)

variable {s t t' : Kernel} {e : Entry} {u : UUID} {p own key data : Text} {l es : List Entry}
  {id ims : ID32} {r r' : Request} {cmd : Command} {version : ℕ}

/-- What comes from other nodes: the keys they look for, the data they send here, and their
confirmations. -/
structure Env where
  Known : ID32 → Command → UUID → Text → Prop
  Given : ID32 → Text → Prop
  Acked : ID32 → Prop

/-- What the IMS may be told under an id of the router. -/
def Tells (E : Env) (id : ID32) (cmd : Command) (u : UUID) (data : Text) : Prop :=
  cmd = .findPeer ∧ E.Given id data ∨ cmd = .notifyUpdate ∧ data = eventText "updated" u ∨
    cmd = .notifyDelete ∧ data = eventText "deleted" u

/-- **The cause of an entry**, in the log and outside the node. -/
structure Justified (E : Env) (own : Text) (l : List Entry) (e : Entry) : Prop where
  told : ∀ id v data, e = .ims id .sendToPeer v data → id < idBound ∨
    ∃ cmd u key, E.Known id cmd u key ∧ own = cString key ∧ Tells E id cmd u data
  confirmed : ∀ ims v data, e = .ims ims .sendToPeerConfirm v data → ∃ id userId data,
    .sent id ims userId data ∈ l ∧ E.Acked id
  found : ∀ id v data n, e = .router id .peerFound v data n → ∃ u key,
    E.Known id .findPeer u key ∧ own = cString key
  looksFor : ∀ id v key n, e = .router id .findPeer v key n → ∃ ims data, .sent id ims key data ∈ l
  sends : ∀ id v data n, e = .router id .sendToPeer v data n → ∃ ims userId,
    .sent id ims userId data ∈ l
  confirms : ∀ id v data n, e = .router id .sendToPeerConfirm v data n → ∃ data,
    .ims id .sendToPeer 0 data ∈ l

/-- The commands that are followed. -/
def followed : List Command :=
  [.findPeer, .peerFound, .sendToPeer, .sendToPeerConfirm, .notifyUpdate, .notifyDelete]

/-- An entry that needs no cause. -/
def Entry.Silent : Entry → Prop
  | .ims _ cmd _ _ => cmd ∉ followed
  | .router _ cmd _ _ _ => cmd ∉ followed
  | .sent _ _ _ _ => False
  | .asked _ | .userManager _ | .registered _ _ | .unregistered _ _ | .forgotten _ => True

/-- The kinds of entries, each with the cause it needs; those that are not followed need none. -/
theorem Entry.Silent.justified {E : Env} (h : e.Silent) : Justified E own l e := by
  refine ⟨fun _ _ _ he => ?_, fun _ _ _ he => ?_, fun _ _ _ _ he => ?_, fun _ _ _ _ he => ?_,
    fun _ _ _ _ he => ?_, fun _ _ _ _ he => ?_⟩ <;> subst he <;> exact absurd (by decide) h

section Causes

variable {E : Env} {v : UUID} {x : Text}

theorem justified_sent : Justified E own l (.sent id ims key data) := by
  constructor
  all_goals
    intros
    rename_i he
    cases he

/-- The IMS is told something under an id of the router, or of a message of its own. -/
theorem justified_told (h : id < idBound ∨ ∃ cmd u key, E.Known id cmd u key ∧ own = cString key ∧
    Tells E id cmd u data) : Justified E own l (.ims id .sendToPeer v data) := by
  constructor
  all_goals
    intros
    rename_i he
    cases he
  exact h

/-- Whoever is told that a message was confirmed had sent it. -/
theorem justified_confirmed (h : ∃ id userId data, .sent id ims userId data ∈ l ∧ E.Acked id) :
    Justified E own l (.ims ims .sendToPeerConfirm v x) := by
  constructor
  all_goals
    intros
    rename_i he
    cases he
  exact h

/-- A peer is found if it is looked for here. -/
theorem justified_found (h : ∃ u key, E.Known id .findPeer u key ∧ own = cString key) :
    Justified E own l (.router id .peerFound v x version) := by
  constructor
  all_goals
    intros
    rename_i he
    cases he
  exact h

/-- Whom the node looks for somebody has a message for. -/
theorem justified_looksFor (h : ∃ ims data, .sent id ims key data ∈ l) :
    Justified E own l (.router id .findPeer v key version) := by
  constructor
  all_goals
    intros
    rename_i he
    cases he
  exact h

/-- What the node sends was given to it. -/
theorem justified_sends (h : ∃ ims userId, .sent id ims userId data ∈ l) :
    Justified E own l (.router id .sendToPeer v data version) := by
  constructor
  all_goals
    intros
    rename_i he
    cases he
  exact h

/-- It confirms what it has told the IMS. -/
theorem justified_confirms (h : ∃ data, .ims id .sendToPeer 0 data ∈ l) :
    Justified E own l (.router id .sendToPeerConfirm v x version) := by
  constructor
  all_goals
    intros
    rename_i he
    cases he
  exact h

/-- A notice has its cause in the lists (`Metax.Messages.Listeners`). -/
theorem justified_notice (h : IsNotice cmd) : Justified E own l (.router id cmd v x version) := by
  rcases h with rfl | rfl
  all_goals
    constructor
    all_goals
      intros
      rename_i he
      cases he

end Causes

/-- A cause stays one when the log grows. -/
theorem Justified.mono {E : Env} (h : Justified E own l e) (es : List Entry) :
    Justified E own (es ++ l) e := by
  refine ⟨h.told, fun i v d he => ?_, h.found, fun id v k n he => ?_, fun id v d n he => ?_,
    fun id v d n he => ?_⟩
  · obtain ⟨id, k, d, hsent, hacked⟩ := h.confirmed i v d he
    exact ⟨id, k, d, List.mem_append_right _ hsent, hacked⟩
  · obtain ⟨i, d, hsent⟩ := h.looksFor id v k n he
    exact ⟨i, d, List.mem_append_right _ hsent⟩
  · obtain ⟨i, k, hsent⟩ := h.sends id v d n he
    exact ⟨i, k, List.mem_append_right _ hsent⟩
  · obtain ⟨d, htold⟩ := h.confirms id v d n he
    exact ⟨d, List.mem_append_right _ htold⟩

/-- What waits for the storage or the configuration manager is not followed, and a message waits for
nothing. -/
structure Request.Kept (r : Request) : Prop where
  message : r.cmd = .sendToPeer → r.place = .idle
  other : r.place = .storage ∨ r.place = .config → r.cmd ∉ followed

/-- **The invariant.** -/
structure Traced (E : Env) (own : Text) (s : Kernel) : Prop where
  ownKey : s.ownKey = own
  room : s.requestCounter < idBound
  sentBelow : ∀ id ims k d, .sent id ims k d ∈ s.log → id < s.requestCounter
  noticeBelow : ∀ id cmd u k n, .router id cmd u k n ∈ s.log → IsNotice cmd →
    id < s.requestCounter
  imsBelow : ∀ id ims, s.imsReqIds.lookup id = some ims → id < s.requestCounter
  sentOnce : ∀ id ims k d ims' k' d', .sent id ims k d ∈ s.log → .sent id ims' k' d' ∈ s.log →
    ims = ims' ∧ k = k' ∧ d = d'
  noNotice : ∀ id cmd u k n, .router id cmd u k n ∈ s.log → IsNotice cmd →
    ∀ ims k' d, .sent id ims k' d ∉ s.log
  holds : ∀ id r, s.requests.lookup id = some r → ∀ ims k d, .sent id ims k d ∈ s.log →
    r.data = d ∧ r.place = .idle
  sender : ∀ id r ims, s.requests.lookup id = some r → s.imsReqIds.lookup id = some ims →
    r.cmd = .sendToPeer → ∃ k d, .sent id ims k d ∈ s.log
  checks : ∀ id r, s.requests.lookup id = some r → r.place = .keyManager →
    E.Known id r.cmd r.uuid r.data
  places : ∀ id r, s.requests.lookup id = some r → r.Kept
  log : ∀ e ∈ s.log, Justified E own s.log e

/-! ### Steps that need no cause -/

/-- A request goes on in the node. -/
def Request.Moves (r r' : Request) : Prop :=
  r'.cmd = r.cmd ∧ (r.place = .storage ∨ r.place = .config) ∧ r'.place ≠ .keyManager

theorem onUpdateRegister_notMem : Command.onUpdateRegister ∉ followed := by decide

theorem onUpdateUnregister_notMem : Command.onUpdateUnregister ∉ followed := by decide

/-- Other commands may wait for anything. -/
theorem kept_of_notMem (h : r.cmd ∉ followed) : r.Kept := by
  refine ⟨fun hcmd => absurd ?_ h, fun _ => h⟩
  rw [hcmd]
  decide

/-- What waits for nothing is kept. -/
theorem kept_of_idle (h : r.place = .idle) : r.Kept :=
  ⟨fun _ => h, fun hplace => by rcases hplace with hp | hp <;> cases h.symm.trans hp⟩

/-- The command of a request is for good. -/
theorem Request.Kept.moves (h : r.Kept) (hmoves : r.Moves r') : r'.Kept :=
  kept_of_notMem (hmoves.1 ▸ h.other hmoves.2.1)

/-- A request that waits for nothing does not go on by itself. -/
theorem Request.Moves.ne_idle (h : r.Moves r') : r.place ≠ .idle := by
  rcases h.2.1 with hp | hp <;> rw [hp] <;> decide

/-- A step that writes nothing of importance. -/
structure Calm (s t : Kernel) : Prop where
  own : t.ownKey = s.ownKey
  counter : t.requestCounter = s.requestCounter
  log : ∃ es, t.log = es ++ s.log ∧ ∀ e ∈ es, e.Silent
  imsReqIds : ∀ id ims, t.imsReqIds.lookup id = some ims → s.imsReqIds.lookup id = some ims
  requests : ∀ id r, t.requests.lookup id = some r → s.requests.lookup id = some r ∨
    (∃ r', s.requests.lookup id = some r' ∧ r'.Moves r) ∨
      idBound ≤ id ∧ r.cmd ∉ followed ∧ r.place ≠ .keyManager

/-- Silent entries hide no other one. -/
theorem mem_of_silent (hes : ∀ e ∈ es, e.Silent) (he : ¬ e.Silent) (h : e ∈ es ++ l) : e ∈ l := by
  rcases List.mem_append.mp h with h | h
  · exact absurd (hes e h) he
  · exact h

/-- A message that was taken over is followed. -/
theorem not_silent_sent {k d : Text} : ¬ (Entry.sent id ims k d).Silent :=
  fun h => h

/-- So is a notice. -/
theorem not_silent_notice (h : IsNotice cmd) : ¬ (Entry.router id cmd u p version).Silent := by
  rcases h with rfl | rfl <;> exact fun hsilent => hsilent (by decide)

/-- **A calm step keeps the invariant**, since everything the invariant looks at was there before.
-/
theorem Traced.calm {E : Env} (h : Traced E own s) (hc : Calm s t) : Traced E own t := by
  obtain ⟨es, hlog, hes⟩ := hc.log
  have hsent {id ims : ID32} {k d : Text} (hmem : .sent id ims k d ∈ t.log) :
      .sent id ims k d ∈ s.log := mem_of_silent hes not_silent_sent (hlog ▸ hmem)
  have hnotice {id : ID32} {cmd : Command} {u : UUID} {k : Text} {n : ℕ}
      (hmem : .router id cmd u k n ∈ t.log) (hcmd : IsNotice cmd) :
      .router id cmd u k n ∈ s.log := mem_of_silent hes (not_silent_notice hcmd) (hlog ▸ hmem)
  have hold {e : Entry} (hmem : e ∈ s.log) : e ∈ t.log := hlog ▸ List.mem_append_right es hmem
  refine ⟨hc.own.trans h.ownKey, hc.counter ▸ h.room, fun id i k d hmem => ?_,
    fun id c u k n hmem hcmd => ?_, fun id i hid => ?_, fun id i k d i' k' d' hmem hmem' => ?_,
    fun id c u k n hmem hcmd i k' d hmem' => ?_, fun id r hr i k d hmem => ?_,
    fun id r i hr hid hcmd => ?_, fun id r hr hplace => ?_, fun id r hr => ?_, fun e he => ?_⟩
  · exact hc.counter ▸ h.sentBelow id i k d (hsent hmem)
  · exact hc.counter ▸ h.noticeBelow id c u k n (hnotice hmem hcmd) hcmd
  · exact hc.counter ▸ h.imsBelow id i (hc.imsReqIds id i hid)
  · exact h.sentOnce id i k d i' k' d' (hsent hmem) (hsent hmem')
  · exact h.noNotice id c u k n (hnotice hmem hcmd) hcmd i k' d (hsent hmem')
  · obtain hr | ⟨r', hr', hmoves⟩ | ⟨hbound, -⟩ := hc.requests id r hr
    · exact h.holds id r hr i k d (hsent hmem)
    · exact absurd (h.holds id r' hr' i k d (hsent hmem)).2 hmoves.ne_idle
    · have hbelow := h.sentBelow id i k d (hsent hmem)
      exact absurd (hbelow.trans h.room) (Nat.not_lt.mpr hbound)
  · obtain hr | ⟨r', hr', hmoves⟩ | ⟨-, hcmd', -⟩ := hc.requests id r hr
    · obtain ⟨k, d, hmem⟩ := h.sender id r i hr (hc.imsReqIds id i hid) hcmd
      exact ⟨k, d, hold hmem⟩
    · exact absurd ((h.places id r' hr').message (hmoves.1 ▸ hcmd)) hmoves.ne_idle
    · exact absurd (hcmd ▸ (by decide)) hcmd'
  · obtain hr | ⟨r', -, hmoves⟩ | ⟨-, -, hplace'⟩ := hc.requests id r hr
    · exact h.checks id r hr hplace
    · exact absurd hplace hmoves.2.2
    · exact absurd hplace hplace'
  · obtain hr | ⟨r', hr', hmoves⟩ | ⟨-, hcmd', -⟩ := hc.requests id r hr
    · exact h.places id r hr
    · exact (h.places id r' hr').moves hmoves
    · exact kept_of_notMem hcmd'
  · rw [hlog] at he ⊢
    rcases List.mem_append.mp he with he | he
    · exact (hes e he).justified
    · exact (h.log e he).mono es

/-- An entry with a cause. -/
theorem Traced.write {E : Env} (h : Traced E own s) (he : Justified E own s.log e)
    (hsent : ∀ id ims k d, e ≠ .sent id ims k d)
    (hnotice : ∀ id cmd u k n, e = .router id cmd u k n → ¬ IsNotice cmd) :
    Traced E own (s.write e) := by
  have hold {id ims : ID32} {k d : Text} (hmem : .sent id ims k d ∈ e :: s.log) :
      .sent id ims k d ∈ s.log :=
    (List.mem_cons.mp hmem).resolve_left fun heq => hsent id ims k d heq.symm
  have hold' {id : ID32} {cmd : Command} {u : UUID} {k : Text} {n : ℕ}
      (hmem : .router id cmd u k n ∈ e :: s.log) (hcmd : IsNotice cmd) :
      .router id cmd u k n ∈ s.log :=
    (List.mem_cons.mp hmem).resolve_left fun heq => hnotice id cmd u k n heq.symm hcmd
  refine ⟨h.ownKey, h.room, fun id i k d hmem => h.sentBelow id i k d (hold hmem),
    fun id c u k n hmem hcmd => h.noticeBelow id c u k n (hold' hmem hcmd) hcmd, h.imsBelow,
    fun id i k d i' k' d' hmem hmem' => h.sentOnce id i k d i' k' d' (hold hmem) (hold hmem'),
    fun id c u k n hmem hcmd i k' d hmem' =>
      h.noNotice id c u k n (hold' hmem hcmd) hcmd i k' d (hold hmem'),
    fun id r hr i k d hmem => h.holds id r hr i k d (hold hmem), fun id r i hr hid hcmd => ?_,
    h.checks, h.places, ?_⟩
  · obtain ⟨k, d, hmem⟩ := h.sender id r i hr hid hcmd
    exact ⟨k, d, List.mem_cons_of_mem e hmem⟩
  · refine List.forall_mem_cons.mpr ⟨he.mono [e], fun e' he' => ?_⟩
    exact (h.log e' he').mono [e]

namespace Calm

/-- The ways to be calm: to do nothing, to write a silent entry, to forget, and to let a request go
on. -/
theorem refl : Calm s s :=
  ⟨rfl, rfl, ⟨[], rfl, List.forall_mem_nil _⟩, fun _ _ h => h, fun _ _ h => .inl h⟩

theorem write (h : Calm s t) (he : e.Silent) : Calm s (t.write e) := by
  obtain ⟨es, hlog, hes⟩ := h.log
  exact ⟨h.own, h.counter, ⟨e :: es, congrArg (e :: ·) hlog, List.forall_mem_cons.mpr ⟨he, hes⟩⟩,
    h.imsReqIds, h.requests⟩

theorem router {c : Command} (h : Calm s t) (hc : c ∉ followed) :
    Calm s (t.write (.router id c u p version)) := h.write hc

theorem tell {c : Command} (h : Calm s t) (hc : c ∉ followed) :
    Calm s (t.write (.ims id c u p)) := h.write hc

theorem clear (h : Calm s t) : Calm s (t.postRouterClearRequest id) := h.router (by decide)

theorem eraseRequest (h : Calm s t) : Calm s (t.eraseRequest id) :=
  ⟨h.own, h.counter, h.log, h.imsReqIds,
    fun id' r hr => h.requests id' r (Ledger.of_lookup_erase hr).2⟩

theorem eraseImsReqId (h : Calm s t) : Calm s (t.eraseImsReqId id) :=
  ⟨h.own, h.counter, h.log, fun id' i hi => h.imsReqIds id' i (Ledger.of_lookup_erase hi).2,
    h.requests⟩

/-- A request that goes on has been waiting. -/
theorem setRequest (h : Calm s t) (hr : s.requests.lookup id = some r') (hmoves : r'.Moves r) :
    Calm s (t.setRequest id r) := by
  refine ⟨h.own, h.counter, h.log, h.imsReqIds, fun id' r'' hr'' => ?_⟩
  obtain ⟨rfl, rfl⟩ | ⟨-, hold⟩ := Ledger.eq_or_of_lookup_insert hr''
  · exact .inr (.inl ⟨r', hr, hmoves⟩)
  · exact h.requests id' r'' hold

end Calm

/-! ### Handlers that need no cause -/

section Handlers

variable {err message : Text}

/-- A list changes. -/
theorem calm_relist {T : Table UUID (List Text)} (he : e.Silent) :
    Calm s (Kernel.write { s with updateListeners := T } e) :=
  ⟨rfl, rfl, ⟨[e], rfl, List.forall_mem_singleton.mpr he⟩, fun _ _ h => h, fun _ _ h => .inl h⟩

/-- The lists of listeners are no part of the invariant here. -/
theorem calm_addUpdateListener : Calm s (s.addUpdateListener u p) :=
  calm_relist (e := .registered u p) trivial

theorem calm_removeUpdateListener : Calm s (s.removeUpdateListener u p).1 := by
  by_cases hp : p ∈ s.listeners u
  · rw [removeUpdateListener_of_mem hp]
    exact calm_relist (e := .unregistered u p) trivial
  · rw [removeUpdateListener_of_notMem hp]
    exact .refl

/-- The answers about the lists of listeners, which are not followed. -/
theorem Calm.sendImsOnUpdateRegisterResponse (h : Calm s t)
    (hsend : t.sendImsOnUpdateRegisterResponse id r = some t') : Calm s t' := by
  obtain ⟨i, -, rfl⟩ := Option.map_eq_some_iff.mp hsend
  exact (h.tell (by decide)).eraseImsReqId.eraseRequest

theorem Calm.handleFailedOnUpdateRegisterRequest (h : Calm s t)
    (hsend : t.handleFailedOnUpdateRegisterRequest id err = some t') : Calm s t' := by
  obtain ⟨i, -, rfl⟩ := Option.map_eq_some_iff.mp hsend
  exact (h.tell (by decide)).eraseImsReqId.eraseRequest

theorem Calm.handleFailedOnUpdateUnregisterRequest (h : Calm s t)
    (hsend : t.handleFailedOnUpdateUnregisterRequest id r err = some t') : Calm s t' := by
  obtain ⟨i, -, rfl⟩ := Option.map_eq_some_iff.mp hsend
  exact (h.tell (by decide)).eraseImsReqId.eraseRequest

/-- The object is here: who asked to be told of it is on the list and is told so. -/
theorem calm_handleStoragePositiveResponse
    (h : s.handleStoragePositiveResponse id r = some t) : Calm s t := by
  rw [Kernel.handleStoragePositiveResponse] at h
  split_ifs at h
  · have hadded := calm_addUpdateListener (s := s) (u := r.uuid) (p := r.data)
    exact Option.some.inj h ▸ (hadded.router (by decide)).clear.eraseRequest
  · exact calm_addUpdateListener.sendImsOnUpdateRegisterResponse h

/-- It is not here: another node is refused, and for the IMS the request goes on to other nodes. -/
theorem calm_handleStorageNegativeResponse (hr : s.requests.lookup id = some r)
    (hplace : r.place = .storage) : Calm s (s.handleStorageNegativeResponse id r) := by
  rw [Kernel.handleStorageNegativeResponse]
  split_ifs
  · exact (Calm.refl.router (by decide)).eraseRequest
  · exact Calm.refl.setRequest hr ⟨rfl, .inl hplace, fun h => by cases h⟩

theorem calm_handleRouterOnUpdateRegistered
    (h : s.handleRouterOnUpdateRegistered id = some t) : Calm s t := by
  rw [Kernel.handleRouterOnUpdateRegistered] at h
  split at h
  · dsimp only at h
    split_ifs at h
    · exact Option.some.inj h ▸ Calm.refl.clear.eraseRequest
    · exact Calm.refl.clear.sendImsOnUpdateRegisterResponse h
  · exact Option.some.inj h ▸ .refl

theorem calm_handleRouterOnUpdateRegisterFail
    (h : s.handleRouterOnUpdateRegisterFail id message = some t) : Calm s t := by
  rw [Kernel.handleRouterOnUpdateRegisterFail] at h
  split at h
  · exact Option.some.inj h ▸ .refl
  · split_ifs at h
    · exact Option.some.inj h ▸ Calm.refl.eraseRequest
    · exact Calm.refl.handleFailedOnUpdateRegisterRequest h

theorem calm_handleRouterOnUpdateUnregistered :
    Calm s (s.handleRouterOnUpdateUnregistered id) := by
  rw [Kernel.handleRouterOnUpdateUnregistered]
  split
  · exact (Calm.refl.tell (by decide)).eraseImsReqId.clear.eraseRequest
  · exact .refl

theorem calm_handleRouterOnUpdateUnregisterFail
    (h : s.handleRouterOnUpdateUnregisterFail id message = some t) : Calm s t := by
  rw [Kernel.handleRouterOnUpdateUnregisterFail] at h
  split at h
  · exact Option.some.inj h ▸ .refl
  · exact Calm.refl.clear.handleFailedOnUpdateUnregisterRequest h

/-- Another node is taken off a list, or refused; no request is made for it. -/
theorem calm_handleRouterOnUpdateUnregister :
    Calm s (s.handleRouterOnUpdateUnregister id u key) := by
  have hremoved : Calm s (s.removeUpdateListener u key).1 := calm_removeUpdateListener
  rw [Kernel.handleRouterOnUpdateUnregister]
  by_cases hkey : key = []
  · rw [if_pos hkey]
    exact (Calm.refl.router (by decide)).clear
  · rw [if_neg hkey]
    dsimp only
    split_ifs
    · exact hremoved.router (by decide)
    · exact hremoved.router (by decide)

/-- A failure that the IMS reports is passed on to the router and forgotten here. -/
theorem calm_handleImsFailed : Calm s (s.handleImsFailed id data) := by
  rw [Kernel.handleImsFailed]
  cases s.requests.lookup id with
  | none => exact .refl
  | some r =>
    have hsent : Calm s (if r.cmd = .findPeer then s.write (.router id .deliverFail 0 data 0)
        else s) := by
      split_ifs
      · exact Calm.refl.router (by decide)
      · exact .refl
    dsimp only
    by_cases hu : r.uuid = s.userJsonUuid
    · rw [if_pos hu]
      exact hsent
    · rw [if_neg hu]
      exact hsent.eraseRequest.clear

/-- A failure that the router reports is passed on to the IMS. -/
theorem calm_handleRouterFailed : Calm s (s.handleRouterFailed id data) := by
  rw [Kernel.handleRouterFailed]
  cases s.requests.lookup id with
  | none => exact .refl
  | some r =>
    dsimp only
    split_ifs
    · exact (Calm.refl.tell (by decide)).eraseImsReqId.clear.eraseRequest
    · exact Calm.refl.eraseImsReqId.clear.eraseRequest

/-- A canceled request is forgotten. -/
theorem calm_handleRouterCancel (h : s.handleRouterCancel id = some t) : Calm s t := by
  rw [Kernel.handleRouterCancel] at h
  cases hr : s.requests.lookup id with
  | none =>
    rw [hr] at h
    exact Option.some.inj h ▸ .refl
  | some r =>
    rw [hr] at h
    dsimp only at h
    split at h
    · rw [Kernel.handleFailedRequest] at h
      split at h
      · obtain ⟨i, -, rfl⟩ := Option.map_eq_some_iff.mp h
        exact (Calm.refl.tell (by decide)).eraseImsReqId.eraseRequest
      · exact Calm.refl.handleFailedOnUpdateRegisterRequest h
      · exact Calm.refl.handleFailedOnUpdateUnregisterRequest h
      · exact Option.some.inj h ▸ .refl
    · exact Option.some.inj h ▸ .refl
    · exact Option.some.inj h ▸ Calm.refl.eraseRequest
    · exact Option.some.inj h ▸ Calm.refl.eraseRequest

end Handlers

/-! ### New requests -/

/-- A request with a new id, and what is written with it. -/
structure Opening (E : Env) (own : Text) (s t : Kernel) (r : Request) (es : List Entry) : Prop where
  ownKey : t.ownKey = s.ownKey
  counter : t.requestCounter = s.requestCounter + 1
  log : t.log = es ++ s.log
  requests : t.requests = s.requests.insert s.requestCounter r
  imsReqIds : ∀ id ims, t.imsReqIds.lookup id = some ims → s.imsReqIds.lookup id = some ims ∨
    id = s.requestCounter ∧ (r.cmd = .sendToPeer → ∃ k d, .sent s.requestCounter ims k d ∈ es)
  kept : r.Kept
  unchecked : r.place ≠ .keyManager
  sent : ∀ id ims k d, .sent id ims k d ∈ es → es = [.router id .findPeer 0 k 0, .sent id ims k d] ∧
    id = s.requestCounter ∧ r.data = d ∧ r.place = .idle
  notice : ∀ id cmd u k n, .router id cmd u k n ∈ es → IsNotice cmd → id = s.requestCounter
  justified : ∀ e ∈ es, Justified E own (es ++ s.log) e

/-- **A new request keeps the invariant**, if what is written with it has its cause. Its id has not
been handed out, so no entry of the log is about it. -/
theorem Traced.opening {E : Env} (h : Traced E own s) (hroom : s.requestCounter + 1 < idBound)
    (es : List Entry) (ho : Opening E own s t r es) : Traced E own t := by
  have hbelow {id : ID32} (hid : id < s.requestCounter) : id < t.requestCounter :=
    ho.counter ▸ Nat.lt_succ_of_lt hid
  have hnew : s.requestCounter < t.requestCounter := ho.counter ▸ Nat.lt_succ_self _
  have hsent {id ims : ID32} {k d : Text} (hmem : .sent id ims k d ∈ t.log) :
      .sent id ims k d ∈ es ∨ .sent id ims k d ∈ s.log := List.mem_append.mp (ho.log ▸ hmem)
  have hold {e : Entry} (hmem : e ∈ s.log) : e ∈ t.log := ho.log ▸ List.mem_append_right es hmem
  -- the parts of `Traced`; what is in the new log is in `es` or was there, and the two cannot meet,
  -- since all of `es` is under the new id
  refine ⟨ho.ownKey.trans h.ownKey, ho.counter ▸ hroom, fun id i k d hmem => ?_,
    fun id c u k n hmem hcmd => ?_, fun id i hid => ?_, fun id i k d i' k' d' hmem hmem' => ?_,
    fun id c u k n hmem hcmd i k' d hmem' => ?_, fun id r' hr i k d hmem => ?_,
    fun id r' i hr hid hcmd => ?_, fun id r' hr hplace => ?_, fun id r' hr => ?_, fun e he => ?_⟩
  · rcases hsent hmem with hes | hs
    · exact (ho.sent id i k d hes).2.1 ▸ hnew
    · exact hbelow (h.sentBelow id i k d hs)
  · rcases List.mem_append.mp (ho.log ▸ hmem) with hes | hs
    · exact ho.notice id c u k n hes hcmd ▸ hnew
    · exact hbelow (h.noticeBelow id c u k n hs hcmd)
  · rcases ho.imsReqIds id i hid with hs | ⟨rfl, -⟩
    · exact hbelow (h.imsBelow id i hs)
    · exact hnew
  · rcases hsent hmem with hes | hs <;> rcases hsent hmem' with hes' | hs'
    · rw [(ho.sent id i k d hes).1] at hes'
      simp only [List.mem_cons, List.not_mem_nil, or_false, reduceCtorEq, false_or,
        Entry.sent.injEq, true_and] at hes'
      obtain ⟨rfl, rfl, rfl⟩ := hes'
      exact ⟨rfl, rfl, rfl⟩
    · exact absurd (ho.sent id i k d hes).2.1 (h.sentBelow id i' k' d' hs').ne
    · exact absurd (ho.sent id i' k' d' hes').2.1 (h.sentBelow id i k d hs).ne
    · exact h.sentOnce id i k d i' k' d' hs hs'
  · rcases List.mem_append.mp (ho.log ▸ hmem) with hes | hs <;> rcases hsent hmem' with hes' | hs'
    · rw [(ho.sent id i k' d hes').1] at hes
      simp only [List.mem_cons, List.not_mem_nil, or_false, reduceCtorEq, Entry.router.injEq,
        true_and] at hes
      rw [hes.1] at hcmd
      rcases hcmd with hcmd | hcmd <;> cases hcmd
    · exact absurd (ho.notice id c u k n hes hcmd) (h.sentBelow id i k' d hs').ne
    · exact absurd (ho.sent id i k' d hes').2.1 (h.noticeBelow id c u k n hs hcmd).ne
    · exact h.noNotice id c u k n hs hcmd i k' d hs'
  -- the record of the new request is what was sent for it
  · rw [ho.requests] at hr
    obtain ⟨rfl, rfl⟩ | ⟨hne, hr⟩ := Ledger.eq_or_of_lookup_insert hr
    · rcases hsent hmem with hes | hs
      · exact (ho.sent _ i k d hes).2.2
      · exact absurd (h.sentBelow _ i k d hs) (lt_irrefl _)
    · rcases hsent hmem with hes | hs
      · exact absurd (ho.sent id i k d hes).2.1 hne
      · exact h.holds id r' hr i k d hs
  -- whoever stands behind the new request has sent it
  · rw [ho.requests] at hr
    obtain ⟨rfl, rfl⟩ | ⟨hne, hr⟩ := Ledger.eq_or_of_lookup_insert hr
    · rcases ho.imsReqIds _ i hid with hs | ⟨-, hsender⟩
      · exact absurd (h.imsBelow _ i hs) (lt_irrefl _)
      · obtain ⟨k, d, hes⟩ := hsender hcmd
        exact ⟨k, d, ho.log ▸ List.mem_append_left _ hes⟩
    · rcases ho.imsReqIds id i hid with hs | ⟨heq, -⟩
      · obtain ⟨k, d, hs⟩ := h.sender id r' i hr hs hcmd
        exact ⟨k, d, hold hs⟩
      · exact absurd heq hne
  · rw [ho.requests] at hr
    obtain ⟨rfl, rfl⟩ | ⟨-, hr⟩ := Ledger.eq_or_of_lookup_insert hr
    · exact absurd hplace ho.unchecked
    · exact h.checks id r' hr hplace
  · rw [ho.requests] at hr
    obtain ⟨rfl, rfl⟩ | ⟨-, hr⟩ := Ledger.eq_or_of_lookup_insert hr
    · exact ho.kept
    · exact h.places id r' hr
  · rw [ho.log] at he ⊢
    rcases List.mem_append.mp he with he | he
    · exact ho.justified e he
    · exact (h.log e he).mono es

/-- What other nodes send is what the environment says, and ids are not handed out twice. -/
def Env.Ok (E : Env) (s : Kernel) : Event → Prop
  | .imsRegister _ _ | .imsUnregister _ _ | .imsSend _ _ _ _ | .userManagerRegister _ =>
    s.requestCounter + 1 < idBound
  | .imsConfirm id => ∃ data, .ims id .sendToPeer 0 data ∈ s.log
  | .register id _ _ => idBound ≤ id
  | .findPeer id cmd u key _ => idBound ≤ id ∧ cmd ≠ .sendToPeer ∧ E.Known id cmd u key
  | .peerFound id => ∃ v key n, .router id .findPeer v key n ∈ s.log
  | .sendToPeer id data => E.Given id data ∧ .router id .peerFound 0 [] 0 ∈ s.log
  | .sendToPeerConfirm id => E.Acked id
  | .notify u _ _ => s.requestCounter + (s.listeners u).length < idBound
  | .elsewhere c => s.requestCounter ≤ c ∧ c < idBound
  | .imsFail _ _ | .lookedUp _ _ | .publicKey _ | .checked _ | .unregister _ _ _ | .registered _
  | .registerFail _ _ | .unregistered _ | .unregisterFail _ _ | .deliverFail _ _ | .cancel _ => True

section Opening

variable {E : Env}

/-- A request of another kind. -/
theorem Traced.openImsRequest (h : Traced E own s) (hroom : s.requestCounter + 1 < idBound)
    (hcmd : r.cmd ∉ followed) (hplace : r.place ≠ .keyManager)
    (hopen : s.openImsRequest ims r = some (id, t)) : Traced E own t := by
  obtain ⟨⟨i, k⟩, hget, hk⟩ := Option.map_eq_some_iff.mp hopen
  obtain ⟨-, rfl, rfl⟩ := Kernel.getRequestId_eq_some hget
  obtain ⟨rfl, rfl⟩ := Prod.mk.inj hk
  refine h.opening hroom [] (r := r) ⟨rfl, nextCounter_of_lt hroom, rfl, rfl,
    fun id' ims' hid' => ?_, kept_of_notMem hcmd, hplace, fun _ _ _ _ he => (by cases he),
    fun _ _ _ _ _ he => (by cases he), List.forall_mem_nil _⟩
  obtain ⟨rfl, -⟩ | ⟨-, hold⟩ := Ledger.eq_or_of_lookup_insert hid'
  · exact .inr ⟨rfl, fun h' => absurd (h' ▸ (by decide)) hcmd⟩
  · exact .inl hold

/-- The user manager asks to be told of an object; the request is like that of the IMS. -/
theorem Traced.handleUserManagerOnUpdateRegister (h : Traced E own s)
    (hroom : s.requestCounter + 1 < idBound)
    (hstep : s.handleUserManagerOnUpdateRegister u = some t) : Traced E own t := by
  obtain ⟨⟨i, k⟩, hget, rfl⟩ := Option.map_eq_some_iff.mp hstep
  obtain ⟨-, rfl, rfl⟩ := Kernel.getRequestId_eq_some hget
  exact h.opening hroom [] (r := ⟨u, .onUpdateRegister, .userManager, [], 0, .config⟩)
    ⟨rfl, nextCounter_of_lt hroom, rfl, rfl, fun _ _ hid => .inl hid,
      kept_of_notMem onUpdateRegister_notMem, fun h' => (by cases h'),
      fun _ _ _ _ he => (by cases he), fun _ _ _ _ _ he => (by cases he), List.forall_mem_nil _⟩

/-- A message of the IMS. -/
theorem Traced.handleImsSendToPeerRequest (h : Traced E own s)
    (hroom : s.requestCounter + 1 < idBound)
    (hstep : s.handleImsSendToPeerRequest ims u key data = some t) : Traced E own t := by
  obtain ⟨-, hstep⟩ := pocoAssert_eq_some.mp hstep
  obtain ⟨⟨i, k⟩, hopen, rfl⟩ := Option.map_eq_some_iff.mp hstep
  obtain ⟨⟨i', k'⟩, hget, hk⟩ := Option.map_eq_some_iff.mp hopen
  obtain ⟨-, rfl, rfl⟩ := Kernel.getRequestId_eq_some hget
  obtain ⟨rfl, rfl⟩ := Prod.mk.inj hk
  refine h.opening hroom
    [.router s.requestCounter .findPeer 0 key 0, .sent s.requestCounter ims key data]
    (r := ⟨u, .sendToPeer, .ims, data, 0, .idle⟩)
    ⟨rfl, nextCounter_of_lt hroom, rfl, rfl, fun id' ims' hid' => ?_, kept_of_idle rfl,
      fun h' => (by cases h'), fun id ims' k d he => ?_, fun id c v k n he hc => ?_,
      fun e he => ?_⟩
  · obtain ⟨rfl, rfl⟩ | ⟨-, hold⟩ := Ledger.eq_or_of_lookup_insert hid'
    · exact .inr ⟨rfl, fun _ => ⟨key, data, List.mem_cons_of_mem _ List.mem_cons_self⟩⟩
    · exact .inl hold
  · simp only [List.mem_cons, List.not_mem_nil, or_false, reduceCtorEq, false_or,
      Entry.sent.injEq] at he
    obtain ⟨rfl, rfl, rfl, rfl⟩ := he
    exact ⟨rfl, rfl, rfl, rfl⟩
  · simp only [List.mem_cons, List.not_mem_nil, or_false, reduceCtorEq, Entry.router.injEq] at he
    exact he.1
  · -- both are justified by the message itself
    simp only [List.mem_cons, List.not_mem_nil, or_false] at he
    obtain rfl | rfl := he
    · exact justified_looksFor ⟨ims, data, List.mem_cons_of_mem _ List.mem_cons_self⟩
    · exact justified_sent

/-- A listener is sent a message. -/
theorem Traced.notifyListener (h : Traced E own s) (hroom : s.requestCounter + 1 < idBound)
    (hstep : Kernel.notifyListener u cmd version s p = some t) : Traced E own t := by
  obtain ⟨⟨i, k⟩, hget, rfl⟩ := Option.map_eq_some_iff.mp hstep
  obtain ⟨-, rfl, rfl⟩ := Kernel.getRequestId_eq_some hget
  have hopening {e : Entry} (hsent : ∀ id ims k d, e ≠ .sent id ims k d)
      (hnotice : ∀ id c v k n, e = .router id c v k n → id = s.requestCounter)
      (hjustified : Justified E own (e :: s.log) e) :
      Opening E own s (Kernel.write (Kernel.setRequest
        { s with requestCounter := Deletion.nextCounter s.requestCounter } s.requestCounter
          ⟨u, .sendToPeer, .kernel, eventText (if cmd = .update then "updated" else "deleted") u, 0,
            .idle⟩) e)
        ⟨u, .sendToPeer, .kernel, eventText (if cmd = .update then "updated" else "deleted") u, 0,
          .idle⟩ [e] := by
    refine ⟨rfl, nextCounter_of_lt hroom, rfl, rfl, fun _ _ hid => .inl hid, kept_of_idle rfl,
      fun h' => (by cases h'), fun id ims k d he => ?_, fun id c v k n he _ => ?_, ?_⟩
    · exact absurd (List.mem_singleton.mp he).symm (hsent id ims k d)
    · exact hnotice id c v k n (List.mem_singleton.mp he).symm
    · exact List.forall_mem_singleton.mpr hjustified
  dsimp only
  by_cases hp : p = []
  · rw [if_pos hp]
    exact h.opening hroom _ (hopening (fun _ _ _ _ he => by cases he)
      (fun _ _ _ _ _ he => by cases he) (justified_told (.inl h.room)))
  · rw [if_neg hp]
    have hcmd : (if cmd = .update then Command.notifyUpdate else .notifyDelete) = .notifyUpdate ∨
        (if cmd = .update then Command.notifyUpdate else .notifyDelete) = .notifyDelete := by
      split_ifs
      · exact .inl rfl
      · exact .inr rfl
    exact h.opening hroom _ (hopening (fun _ _ _ _ he => by cases he)
      (fun _ _ _ _ _ he => (Entry.router.inj he).1.symm) (justified_notice hcmd))

/-- All listeners are sent messages. -/
theorem Traced.notifyListeners {ps : List Text} (h : Traced E own s)
    (hroom : s.requestCounter + ps.length < idBound)
    (hstep : ps.foldlM (Kernel.notifyListener u cmd version) s = some t) : Traced E own t := by
  induction ps generalizing s with
  | nil => exact Option.some.inj hstep ▸ h
  | cons p ps ih =>
    rw [List.foldlM_cons] at hstep
    obtain ⟨s', hfirst, hrest⟩ := Option.bind_eq_some_iff.mp hstep
    rw [List.length_cons] at hroom
    have hone : s.requestCounter + 1 < idBound :=
      lt_of_le_of_lt (Nat.add_le_add_left (Nat.le_add_left 1 ps.length) _) hroom
    have hcounter : s'.requestCounter = s.requestCounter + 1 := by
      obtain ⟨⟨i, k⟩, hget, rfl⟩ := Option.map_eq_some_iff.mp hfirst
      obtain ⟨-, rfl, rfl⟩ := Kernel.getRequestId_eq_some hget
      dsimp only
      split_ifs <;> exact nextCounter_of_lt hone
    refine ih (h.notifyListener hone hfirst) ?_ hrest
    rw [hcounter, Nat.add_right_comm, Nat.add_assoc]
    exact hroom

/-- All listeners are told, as long as there are ids for them. -/
theorem Traced.notifyUpdate (h : Traced E own s)
    (hroom : s.requestCounter + (s.listeners u).length < idBound)
    (hstep : s.notifyUpdate u cmd version = some t) : Traced E own t := by
  obtain ⟨-, hstep⟩ := pocoAssert_eq_some.mp hstep
  cases hparr : s.updateListeners.lookup u with
  | none =>
    rw [hparr] at hstep
    exact Option.some.inj hstep ▸ h
  | some parr =>
    rw [Kernel.listeners, hparr, Option.getD_some] at hroom
    rw [hparr] at hstep
    obtain ⟨s', hall, rfl⟩ := Option.map_eq_some_iff.mp hstep
    have hsent := h.notifyListeners hroom hall
    split_ifs
    · exact hsent.calm (calm_relist (e := .forgotten u) trivial)
    · exact hsent

end Opening

/-! ### Steps with a cause -/

section Causes

variable {E : Env}

/-- A request of the router comes. -/
theorem Traced.setRequest (h : Traced E own s) (hid : idBound ≤ id) (hplace : r.place = .keyManager)
    (hcmd : r.cmd ≠ .sendToPeer) (hknown : E.Known id r.cmd r.uuid r.data) :
    Traced E own (s.setRequest id r) := by
  refine ⟨h.ownKey, h.room, h.sentBelow, h.noticeBelow, h.imsBelow, h.sentOnce, h.noNotice,
    fun id' r' hr' i k d hmem => ?_, fun id' r' i hr' hi hcmd' => ?_, fun id' r' hr' hplace' => ?_,
    fun id' r' hr' => ?_, h.log⟩
  · obtain ⟨rfl, rfl⟩ | ⟨-, hold⟩ := Ledger.eq_or_of_lookup_insert hr'
    · exact absurd ((h.sentBelow _ i k d hmem).trans h.room) (Nat.not_lt.mpr hid)
    · exact h.holds id' r' hold i k d hmem
  · obtain ⟨rfl, rfl⟩ | ⟨-, hold⟩ := Ledger.eq_or_of_lookup_insert hr'
    · exact absurd hcmd' hcmd
    · exact h.sender id' r' i hold hi hcmd'
  · obtain ⟨rfl, rfl⟩ | ⟨-, hold⟩ := Ledger.eq_or_of_lookup_insert hr'
    · exact hknown
    · exact h.checks id' r' hold hplace'
  · obtain ⟨rfl, rfl⟩ | ⟨-, hold⟩ := Ledger.eq_or_of_lookup_insert hr'
    · refine ⟨fun hcmd' => absurd hcmd' hcmd, fun hplace' => ?_⟩
      rcases hplace' with hp | hp <;> cases hplace.symm.trans hp
    · exact h.places id' r' hold

/-- The key manager is done with a request. -/
theorem Traced.checked (h : Traced E own s) (hr : s.requests.lookup id = some r) :
    Traced E own (s.setRequest id { r with place := .idle }) := by
  refine ⟨h.ownKey, h.room, h.sentBelow, h.noticeBelow, h.imsBelow, h.sentOnce, h.noNotice,
    fun id' r' hr' i k d hmem => ?_, fun id' r' i hr' hi hcmd => ?_, fun id' r' hr' hplace' => ?_,
    fun id' r' hr' => ?_, h.log⟩
  · obtain ⟨rfl, rfl⟩ | ⟨-, hold⟩ := Ledger.eq_or_of_lookup_insert hr'
    · exact ⟨(h.holds _ r hr i k d hmem).1, rfl⟩
    · exact h.holds id' r' hold i k d hmem
  · obtain ⟨rfl, rfl⟩ | ⟨-, hold⟩ := Ledger.eq_or_of_lookup_insert hr'
    · exact h.sender _ r i hr hi hcmd
    · exact h.sender id' r' i hold hi hcmd
  · obtain ⟨rfl, rfl⟩ | ⟨-, hold⟩ := Ledger.eq_or_of_lookup_insert hr'
    · cases hplace'
    · exact h.checks id' r' hold hplace'
  · obtain ⟨rfl, rfl⟩ | ⟨-, hold⟩ := Ledger.eq_or_of_lookup_insert hr'
    · exact kept_of_idle rfl
    · exact h.places id' r' hold

/-- The key was the user's own, so the IMS may be told of the event. -/
theorem Traced.sendUpdateNotificationToIms {event : String} (h : Traced E own s)
    (hr : s.requests.lookup id = some r) (hplace : r.place = .keyManager)
    (hown : own = cString r.data) (htells : Tells E id r.cmd r.uuid (eventText event r.uuid)) :
    Traced E own (s.sendUpdateNotificationToIms id r event) := by
  rw [Kernel.sendUpdateNotificationToIms]
  split_ifs
  · exact h.calm (Calm.refl.write (e := .userManager r.version) trivial).eraseRequest
  · have hcause := h.checks id r hr hplace
    exact (h.checked hr).write
      (justified_told (.inr ⟨r.cmd, r.uuid, r.data, hcause, hown, htells⟩))
      (fun _ _ _ _ he => by cases he) (fun _ _ _ _ _ he => by cases he)

/-- The key manager says whether a key is the user's own. -/
theorem Traced.handleKeyManagerCheck (h : Traced E own s) (hr : s.requests.lookup id = some r)
    (hplace : r.place = .keyManager) : Traced E own (s.handleKeyManagerCheck id r) := by
  have hcause := h.checks id r hr hplace
  rw [Kernel.handleKeyManagerCheck, h.ownKey]
  by_cases hown : own = cString r.data
  · rw [if_pos hown, Kernel.handleKeyManagerIdFoundRequest]
    split
    next hcmd =>
      refine (h.checked hr).write (justified_found ⟨r.uuid, r.data, hcmd ▸ hcause, hown⟩)
        (fun _ _ _ _ he => by cases he) fun _ _ _ _ _ he => ?_
      obtain ⟨-, rfl, -⟩ := Entry.router.inj he
      decide
    next hcmd => exact h.sendUpdateNotificationToIms hr hplace hown (.inr (.inl ⟨hcmd, rfl⟩))
    next hcmd => exact h.sendUpdateNotificationToIms hr hplace hown (.inr (.inr ⟨hcmd, rfl⟩))
    next => exact h
  · rw [if_neg hown, Kernel.handleKeyManagerIdNotFoundRequest]
    split_ifs
    · exact h.calm (Calm.refl.router (by decide)).eraseRequest
    · exact h.calm Calm.refl.eraseRequest

/-- The own key arrives, and goes to the node where the object is. -/
theorem Traced.handleConfigGetPublicKeyResponse (h : Traced E own s)
    (hr : s.requests.lookup id = some r) (hplace : r.place = .config) :
    Traced E own (s.handleConfigGetPublicKeyResponse id r) := by
  have hcmd := (h.places id r hr).other (.inr hplace)
  have hset : Calm s (s.setRequest id { r with data := s.ownKey, place := .idle }) :=
    Calm.refl.setRequest hr ⟨rfl, .inr hplace, fun hp => by cases hp⟩
  exact h.calm (hset.router hcmd)

/-- A request of another node waits for the storage, with a command that is not followed. -/
theorem Traced.handleRouterOnUpdateRegister (h : Traced E own s) (hid : idBound ≤ id) :
    Traced E own (s.handleRouterOnUpdateRegister id u key) := by
  rw [Kernel.handleRouterOnUpdateRegister]
  split_ifs
  · exact h.calm (Calm.refl.router (by decide)).clear
  · refine h.calm ⟨rfl, rfl, ⟨[], rfl, List.forall_mem_nil _⟩, fun _ _ hi => hi,
      fun id' r' hr' => ?_⟩
    obtain ⟨rfl, rfl⟩ | ⟨-, hold⟩ := Ledger.eq_or_of_lookup_insert hr'
    · exact .inr (.inr ⟨hid, onUpdateRegister_notMem, fun hp => by cases hp⟩)
    · exact .inl hold

/-- The peer is sent the message it was looked for with. -/
theorem Traced.handleRouterPeerFound (h : Traced E own s)
    (hasked : ∃ v key n, .router id .findPeer v key n ∈ s.log)
    (hstep : s.handleRouterPeerFound id = some t) : Traced E own t := by
  obtain ⟨r, hr, rfl⟩ := Option.map_eq_some_iff.mp hstep
  obtain ⟨v, k, n, hmem⟩ := hasked
  obtain ⟨i, d, hsent⟩ := (h.log _ hmem).looksFor id v k n rfl
  obtain ⟨rfl, -⟩ := h.holds id r hr i k d hsent
  refine h.write (justified_sends ⟨i, k, hsent⟩) (fun _ _ _ _ he => by cases he)
    fun _ _ _ _ _ he => ?_
  obtain ⟨-, rfl, -⟩ := Entry.router.inj he
  decide

/-- A message comes to a node that said that it is the one. -/
theorem Traced.handleRouterSendToPeer (h : Traced E own s) (hgiven : E.Given id data)
    (hfound : .router id .peerFound 0 [] 0 ∈ s.log)
    (hstep : s.handleRouterSendToPeer id data = some t) : Traced E own t := by
  rw [Kernel.handleRouterSendToPeer] at hstep
  split at hstep
  · exact Option.some.inj hstep ▸ h
  · obtain ⟨-, hstep⟩ := pocoAssert_eq_some.mp hstep
    obtain ⟨v, k, hknown, hown⟩ := (h.log _ hfound).found id 0 [] 0 rfl
    exact Option.some.inj hstep ▸ h.write
      (justified_told (.inr ⟨.findPeer, v, k, hknown, hown, .inl ⟨rfl, hgiven⟩⟩))
      (fun _ _ _ _ he => by cases he) (fun _ _ _ _ _ he => by cases he)

/-- The IMS confirms what it was told. -/
theorem Traced.handleImsSendToPeerConfirmed (h : Traced E own s)
    (htold : ∃ data, .ims id .sendToPeer 0 data ∈ s.log)
    (hstep : s.handleImsSendToPeerConfirmed id = some t) : Traced E own t := by
  rw [Kernel.handleImsSendToPeerConfirmed] at hstep
  split at hstep
  · exact Option.some.inj hstep ▸ h
  · split_ifs at hstep
    · exact Option.some.inj hstep ▸ h
    · obtain ⟨-, hstep⟩ := pocoAssert_eq_some.mp hstep
      have hwritten := h.write (e := .router id .sendToPeerConfirm 0 [] 0)
        (justified_confirms htold) (fun _ _ _ _ he => by cases he) fun _ _ _ _ _ he => by
          obtain ⟨-, rfl, -⟩ := Entry.router.inj he
          decide
      exact Option.some.inj hstep ▸ hwritten.calm Calm.refl.eraseRequest.clear

/-- The sender of a message is told that it was confirmed. -/
theorem Traced.handleRouterSendToPeerConfirm (h : Traced E own s) (hacked : E.Acked id)
    (hstep : s.handleRouterSendToPeerConfirm id = some t) : Traced E own t := by
  rw [Kernel.handleRouterSendToPeerConfirm] at hstep
  split at hstep
  next r i hr hi =>
    obtain ⟨hcmd, hstep⟩ := pocoAssert_eq_some.mp hstep
    obtain ⟨k, d, hsent⟩ := h.sender id r i hr hi hcmd
    have hwritten := h.write (e := .ims i .sendToPeerConfirm 0 [])
      (justified_confirmed ⟨id, k, d, hsent, hacked⟩) (fun _ _ _ _ he => by cases he)
      (fun _ _ _ _ _ he => by cases he)
    exact Option.some.inj hstep ▸ hwritten.calm Calm.refl.eraseImsReqId.clear.eraseRequest
  next => exact Option.some.inj hstep ▸ h

/-- Ids that other requests take are not handed out here. -/
theorem Traced.elsewhere {c : ID32} (h : Traced E own s) (hc : s.requestCounter ≤ c)
    (hroom : c < idBound) : Traced E own { s with requestCounter := c } :=
  ⟨h.ownKey, hroom, fun id i k d hmem => (h.sentBelow id i k d hmem).trans_le hc,
    fun id c u k n hmem hcmd => (h.noticeBelow id c u k n hmem hcmd).trans_le hc,
    fun id i hi => (h.imsBelow id i hi).trans_le hc, h.sentOnce, h.noNotice, h.holds, h.sender,
    h.checks, h.places, h.log⟩

/-- **A step**, of any kind. -/
theorem Traced.step {e : Event} (h : Traced E own s) (hok : E.Ok s e)
    (hstep : step s e = some t) : Traced E own t := by
  have hasked (i : ID32) : Calm s (s.write (.asked i)) :=
    Calm.refl.write (e := .asked i) trivial
  cases e with
  -- a question of the IMS opens a request or is answered at once
  | imsRegister i u =>
    obtain ⟨⟨id, t'⟩, hopen, rfl⟩ := Option.map_eq_some_iff.mp hstep
    exact (h.calm (hasked i)).openImsRequest hok onUpdateRegister_notMem (fun hp => by cases hp)
      hopen
  | imsUnregister i u =>
    have hstep' : (s.write (.asked i)).handleImsUnregisterOnUpdateRequest i u = some t := hstep
    have hremoved : Calm (s.write (.asked i)) ((s.write (.asked i)).removeUpdateListener u []).1 :=
      calm_removeUpdateListener
    rw [Kernel.handleImsUnregisterOnUpdateRequest] at hstep'
    dsimp only at hstep'
    split_ifs at hstep'
    · exact Option.some.inj hstep' ▸ (h.calm (hasked i)).calm (hremoved.tell (by decide))
    · obtain ⟨⟨id, t'⟩, hopen, rfl⟩ := Option.map_eq_some_iff.mp hstep'
      refine ((h.calm (hasked i)).calm hremoved).openImsRequest ?_ onUpdateUnregister_notMem
        (fun hp => by cases hp) hopen
      rw [hremoved.counter]
      exact hok
  | imsSend i u k d => exact (h.calm (hasked i)).handleImsSendToPeerRequest hok hstep
  | imsConfirm id => exact h.handleImsSendToPeerConfirmed hok hstep
  | imsFail id d => exact Option.some.inj hstep ▸ h.calm calm_handleImsFailed
  -- the answers of storage, configuration and key manager
  | lookedUp id found =>
    obtain ⟨r, hr, hstep⟩ := Option.bind_eq_some_iff.mp hstep
    obtain ⟨hr, hplace⟩ := of_waitingFor hr
    split_ifs at hstep
    · exact h.calm (calm_handleStoragePositiveResponse hstep)
    · exact Option.some.inj hstep ▸ h.calm (calm_handleStorageNegativeResponse hr hplace)
  | publicKey id =>
    obtain ⟨r, hr, rfl⟩ := Option.map_eq_some_iff.mp hstep
    obtain ⟨hr, hplace⟩ := of_waitingFor hr
    exact h.handleConfigGetPublicKeyResponse hr hplace
  | checked id =>
    obtain ⟨r, hr, rfl⟩ := Option.map_eq_some_iff.mp hstep
    obtain ⟨hr, hplace⟩ := of_waitingFor hr
    exact h.handleKeyManagerCheck hr hplace
  -- what comes from the network
  | register id u k => exact Option.some.inj hstep ▸ h.handleRouterOnUpdateRegister hok
  | unregister id u k =>
    exact Option.some.inj hstep ▸ h.calm calm_handleRouterOnUpdateUnregister
  | findPeer id c u k n =>
    obtain ⟨hid, hcmd, hknown⟩ := hok
    exact Option.some.inj hstep ▸ h.setRequest hid rfl hcmd hknown
  | registered id => exact h.calm (calm_handleRouterOnUpdateRegistered hstep)
  | registerFail id m => exact h.calm (calm_handleRouterOnUpdateRegisterFail hstep)
  | unregistered id =>
    exact Option.some.inj hstep ▸ h.calm calm_handleRouterOnUpdateUnregistered
  | unregisterFail id m => exact h.calm (calm_handleRouterOnUpdateUnregisterFail hstep)
  | peerFound id => exact h.handleRouterPeerFound hok hstep
  | sendToPeer id d => exact h.handleRouterSendToPeer hok.1 hok.2 hstep
  | sendToPeerConfirm id => exact h.handleRouterSendToPeerConfirm hok hstep
  | deliverFail id d => exact Option.some.inj hstep ▸ h.calm calm_handleRouterFailed
  | cancel id => exact h.calm (calm_handleRouterCancel hstep)
  | userManagerRegister u => exact h.handleUserManagerOnUpdateRegister hok hstep
  | notify u c n => exact h.notifyUpdate hok hstep
  | elsewhere c => exact Option.some.inj hstep ▸ h.elsewhere hok.1 hok.2

end Causes

/-! ### The log grows -/

section Growth

/-- Nothing is taken out of the log. -/
theorem Calm.log_subset (h : Calm s t) : s.log ⊆ t.log := by
  obtain ⟨es, hlog, -⟩ := h.log
  exact hlog ▸ List.subset_append_right es s.log

/-- To open a request writes nothing. -/
theorem openImsRequest_log (h : s.openImsRequest ims r = some (id, t)) : t.log = s.log := by
  obtain ⟨⟨i, k⟩, hget, hk⟩ := Option.map_eq_some_iff.mp h
  obtain ⟨-, rfl, rfl⟩ := Kernel.getRequestId_eq_some hget
  obtain ⟨rfl, rfl⟩ := Prod.mk.inj hk
  rfl

/-- To tell the listeners only writes. -/
theorem notifyUpdate_log_subset (h : s.notifyUpdate u cmd version = some t) : s.log ⊆ t.log := by
  obtain ⟨-, h⟩ := pocoAssert_eq_some.mp h
  cases hparr : s.updateListeners.lookup u with
  | none =>
    rw [hparr] at h
    exact Option.some.inj h ▸ List.Subset.refl _
  | some parr =>
    rw [hparr] at h
    obtain ⟨m, hall, rfl⟩ := Option.map_eq_some_iff.mp h
    obtain ⟨ids, hsent⟩ := notify_eq_some hall
    have hsubset : s.log ⊆ m.log := hsent.log ▸ List.subset_append_right _ s.log
    split_ifs
    · exact List.Subset.trans hsubset (List.subset_cons_self _ _)
    · exact hsubset

/-- So does the answer to a check. -/
theorem handleKeyManagerCheck_log_subset : s.log ⊆ (s.handleKeyManagerCheck id r).log := by
  have hevent (event : String) : s.log ⊆ (s.sendUpdateNotificationToIms id r event).log := by
    rw [Kernel.sendUpdateNotificationToIms]
    split_ifs <;> exact List.subset_cons_self _ _
  rw [Kernel.handleKeyManagerCheck, Kernel.handleKeyManagerIdFoundRequest,
    Kernel.handleKeyManagerIdNotFoundRequest]
  split_ifs
  · split
    · exact List.subset_cons_self _ _
    · exact hevent "updated"
    · exact hevent "deleted"
    · exact List.Subset.refl _
  · exact List.subset_cons_self _ _
  · exact List.Subset.refl _

/-- What is in the log stays there. -/
theorem log_subset_of_step {e : Event} (hstep : step s e = some t) : s.log ⊆ t.log := by
  cases e with
  | imsRegister i u =>
    obtain ⟨⟨id, t'⟩, hopen, rfl⟩ := Option.map_eq_some_iff.mp hstep
    exact openImsRequest_log hopen ▸ List.subset_cons_self _ _
  -- the entry for the question comes first, and then what the list function writes
  | imsUnregister i u =>
    have hstep' : (s.write (.asked i)).handleImsUnregisterOnUpdateRequest i u = some t := hstep
    have hremoved : Calm (s.write (.asked i)) ((s.write (.asked i)).removeUpdateListener u []).1 :=
      calm_removeUpdateListener
    have hasked : s.log ⊆ (s.write (.asked i)).log := List.subset_cons_self _ _
    have hsubset := List.Subset.trans hasked hremoved.log_subset
    rw [Kernel.handleImsUnregisterOnUpdateRequest] at hstep'
    dsimp only at hstep'
    split_ifs at hstep'
    · exact Option.some.inj hstep' ▸ List.Subset.trans hsubset (List.subset_cons_self _ _)
    · obtain ⟨⟨id, t'⟩, hopen, rfl⟩ := Option.map_eq_some_iff.mp hstep'
      exact openImsRequest_log hopen ▸ hsubset
  -- each branch writes at the head of the log or leaves it
  | imsSend i u k d =>
    obtain ⟨-, hstep⟩ := pocoAssert_eq_some.mp hstep
    obtain ⟨⟨id, t'⟩, hopen, rfl⟩ := Option.map_eq_some_iff.mp hstep
    have hasked : s.log ⊆ t'.log := openImsRequest_log hopen ▸ List.subset_cons_self _ _
    exact List.subset_cons_of_subset _ (List.subset_cons_of_subset _ hasked)
  | imsConfirm id =>
    have hstep' : s.handleImsSendToPeerConfirmed id = some t := hstep
    rw [Kernel.handleImsSendToPeerConfirmed] at hstep'
    split at hstep'
    · exact Option.some.inj hstep' ▸ List.Subset.refl _
    · split_ifs at hstep'
      · exact Option.some.inj hstep' ▸ List.Subset.refl _
      · obtain ⟨-, hstep'⟩ := pocoAssert_eq_some.mp hstep'
        rw [← Option.some.inj hstep']
        exact List.subset_cons_of_subset _ (List.subset_cons_self _ _)
  | imsFail id d => exact Option.some.inj hstep ▸ calm_handleImsFailed.log_subset
  -- the look-up answers a request that waits for it, and no other
  | lookedUp id found =>
    obtain ⟨r, hr, hstep⟩ := Option.bind_eq_some_iff.mp hstep
    obtain ⟨hr, hplace⟩ := of_waitingFor hr
    split_ifs at hstep
    · exact (calm_handleStoragePositiveResponse hstep).log_subset
    · exact Option.some.inj hstep ▸ (calm_handleStorageNegativeResponse hr hplace).log_subset
  | publicKey id =>
    obtain ⟨r, -, rfl⟩ := Option.map_eq_some_iff.mp hstep
    exact List.subset_cons_self _ _
  | checked id =>
    obtain ⟨r, -, rfl⟩ := Option.map_eq_some_iff.mp hstep
    exact handleKeyManagerCheck_log_subset
  | register id u k =>
    rw [← Option.some.inj hstep, Kernel.handleRouterOnUpdateRegister]
    split_ifs
    · exact List.subset_cons_of_subset _ (List.subset_cons_self _ _)
    · exact List.Subset.refl _
  | unregister id u k =>
    exact Option.some.inj hstep ▸ calm_handleRouterOnUpdateUnregister.log_subset
  | findPeer id c u k n => exact Option.some.inj hstep ▸ List.Subset.refl _
  | registered id => exact (calm_handleRouterOnUpdateRegistered hstep).log_subset
  | registerFail id m => exact (calm_handleRouterOnUpdateRegisterFail hstep).log_subset
  | unregistered id =>
    exact Option.some.inj hstep ▸ calm_handleRouterOnUpdateUnregistered.log_subset
  | unregisterFail id m => exact (calm_handleRouterOnUpdateUnregisterFail hstep).log_subset
  -- what the network sends
  | peerFound id =>
    obtain ⟨r, -, rfl⟩ := Option.map_eq_some_iff.mp hstep
    exact List.subset_cons_self _ _
  | sendToPeer id d =>
    have hstep' : s.handleRouterSendToPeer id d = some t := hstep
    rw [Kernel.handleRouterSendToPeer] at hstep'
    split at hstep'
    · exact Option.some.inj hstep' ▸ List.Subset.refl _
    · obtain ⟨-, hstep'⟩ := pocoAssert_eq_some.mp hstep'
      exact Option.some.inj hstep' ▸ List.subset_cons_self _ _
  | sendToPeerConfirm id =>
    have hstep' : s.handleRouterSendToPeerConfirm id = some t := hstep
    rw [Kernel.handleRouterSendToPeerConfirm] at hstep'
    split at hstep'
    · obtain ⟨-, hstep'⟩ := pocoAssert_eq_some.mp hstep'
      rw [← Option.some.inj hstep']
      exact List.subset_cons_of_subset _ (List.subset_cons_self _ _)
    · exact Option.some.inj hstep' ▸ List.Subset.refl _
  | deliverFail id d => exact Option.some.inj hstep ▸ calm_handleRouterFailed.log_subset
  | cancel id => exact (calm_handleRouterCancel hstep).log_subset
  | userManagerRegister u =>
    obtain ⟨⟨i, k⟩, hget, rfl⟩ := Option.map_eq_some_iff.mp hstep
    obtain ⟨-, rfl, rfl⟩ := Kernel.getRequestId_eq_some hget
    exact List.Subset.refl _
  | notify u c n => exact notifyUpdate_log_subset hstep
  | elsewhere c => exact Option.some.inj hstep ▸ List.Subset.refl _

end Growth

/-! ### The start, and more from outside -/

/-- More has come from other nodes. -/
structure Env.Le (E E' : Env) : Prop where
  known : ∀ id cmd u key, E.Known id cmd u key → E'.Known id cmd u key
  given : ∀ id data, E.Given id data → E'.Given id data
  acked : ∀ id, E.Acked id → E'.Acked id

/-- More from other nodes allows more. -/
theorem Tells.of_le {E E' : Env} (hle : E.Le E') (h : Tells E id cmd u data) :
    Tells E' id cmd u data :=
  h.imp_left fun hfind => ⟨hfind.1, hle.given id data hfind.2⟩

/-- A cause outside the node stays one when more comes from there. -/
theorem Justified.of_le {E E' : Env} (hle : E.Le E') (h : Justified E own l e) :
    Justified E' own l e := by
  refine ⟨fun id v d he => ?_, fun i v d he => ?_, fun id v d n he => ?_, h.looksFor, h.sends,
    h.confirms⟩
  · refine (h.told id v d he).imp_right ?_
    rintro ⟨c, u, k, hknown, hown, htells⟩
    exact ⟨c, u, k, hle.known id c u k hknown, hown, htells.of_le hle⟩
  · obtain ⟨id, k, d, hsent, hacked⟩ := h.confirmed i v d he
    exact ⟨id, k, d, hsent, hle.acked id hacked⟩
  · obtain ⟨u, k, hknown, hown⟩ := h.found id v d n he
    exact ⟨u, k, hle.known id .findPeer u k hknown, hown⟩

/-- Hence the invariant stays as well. -/
theorem Traced.of_le {E E' : Env} (h : Traced E own s) (hle : E.Le E') : Traced E' own s :=
  { h with
    checks := fun id r hr hplace => hle.known id r.cmd r.uuid r.data (h.checks id r hr hplace)
    log := fun e he => (h.log e he).of_le hle }

/-- **At the start**, with the trimmed key of the user. -/
theorem traced_init {E : Env} {user : UUID} {pem : Option Text} {c : ID32} (hc : c < idBound) :
    Traced E (KeyManager.trim (pem.getD [])) (Kernel.init user pem c) := by
  refine ⟨rfl, hc, fun _ _ _ _ h => ?_, fun _ _ _ _ _ h => ?_, fun _ _ h => ?_,
    fun _ _ _ _ _ _ _ h => ?_, fun _ _ _ _ _ h => ?_, fun _ _ h => ?_, fun _ _ _ h => ?_,
    fun _ _ h => ?_, fun _ _ h => ?_, fun _ h => ?_⟩ <;> cases h

end Messages

end Metax
