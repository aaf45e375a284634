import Metax.Trust.Durability

/-!
# Only verified peers are heard

With strict verification the router is given data of a peer only after the configuration manager has
verified the device the peer named on this very connection (`received_of_run`), whatever the peers
send and in whatever order the two tasks get to run. The id of a new connection must not be in use
in a question or an answer that is still on its way.

The user key the router is told with a device is the one the peer has sent last. If a peer sends its
device id once it is the key that was verified (`connected_of_run`), otherwise it may be another one
(`exists_connected_otherKey`).
-/

namespace Metax

namespace Trust

open Ledger (Table)
open History
open Link (Keyed)

variable {codec : Codec} {s t : Node} {e : Event} {es : List Event} {file : Option Text}
  {l l' l'' : Link.Balancer} {peer : ID32} {d : Digest} {k : Text} {log : List Entry}

/-! ### Device ids in the link -/

section Link

variable {p q : Link.Peer} {new : ID32 → Bytes → Prop} {i : ID32}

/-- A peer has no device id, the one it had, or a `new` one. -/
structure Moves (new : ID32 → Bytes → Prop) (l l' : Link.Balancer) : Prop where
  strict : l'.strict = l.strict
  peers : ∀ i p, l'.peers.lookup i = some p → p.deviceId = [] ∨
    (∃ q, l.peers.lookup i = some q ∧ q.deviceId = p.deviceId) ∨ new i p.deviceId

/-- What the link does to device ids can be put in sequence. -/
theorem Moves.refl (l : Link.Balancer) : Moves new l l :=
  ⟨rfl, fun _ p hp => .inr (.inl ⟨p, hp, rfl⟩)⟩

/-- A device id that is new in the first step is new in both. -/
theorem Moves.trans (h : Moves new l l') (h' : Moves new l' l'') : Moves new l l'' := by
  refine ⟨h'.strict.trans h.strict, fun i p hp => ?_⟩
  rcases h'.peers i p hp with hnil | ⟨q, hq, hsame⟩ | hnew
  · exact .inl hnil
  · rw [← hsame]
    exact h.peers i q hq
  · exact .inr (.inr hnew)

/-- A peer is written back. -/
theorem moves_setPeer (hp : q.deviceId = [] ∨
    (∃ p, l.peers.lookup q.id = some p ∧ p.deviceId = q.deviceId) ∨ new q.id q.deviceId) :
    Moves new l (l.setPeer q) :=
  ⟨rfl, Ledger.forall_lookup_insert (fun _ p hp => .inr (.inl ⟨p, hp, rfl⟩)) hp⟩

/-- The link only marks a peer it sends away. -/
theorem moves_sendShutdownMessageToPeer : Moves new l (Link.sendShutdownMessageToPeer l p) :=
  moves_setPeer (.inl rfl)

/-- **A device id comes up where the peer is accepted**, alone or in a group. -/
theorem moves_accept (h : new p.id d) : Moves new l (Link.accept l p d) :=
  moves_setPeer (.inr (.inr h))

/-- In a group other peers may be sent away for it. -/
theorem moves_acceptForGroup (h : new p.id d) : Moves new l (Link.acceptForGroup l p d) := by
  have hinfo : Moves new l { l with balanceInfo := l.balanceInfo.insert p.gid p.id } :=
    ⟨rfl, fun _ p hp => .inr (.inl ⟨p, hp, rfl⟩)⟩
  exact hinfo.trans (moves_accept h)

theorem moves_acceptConnectionWithBalancing (hnew : new p.id d)
    (h : Link.acceptConnectionWithBalancing l p d = some l') : Moves new l l' := by
  rw [Link.acceptConnectionWithBalancing] at h
  split_ifs at h
  · obtain rfl := Option.some.inj h
    exact moves_accept hnew
  · split at h
    · obtain rfl := Option.some.inj h
      exact moves_acceptForGroup hnew
    · split at h
      · cases h
      · split_ifs at h
        · obtain rfl := Option.some.inj h
          exact moves_sendShutdownMessageToPeer
        · obtain rfl := Option.some.inj h
          exact moves_sendShutdownMessageToPeer.trans (moves_acceptForGroup hnew)

/-- A peer that goes leaves the other ones as they are. -/
theorem moves_removePeer (h : Link.removePeer l p = some l') : Moves new l l' := by
  obtain ⟨m, hm, rfl⟩ := Option.map_eq_some_iff.mp h
  have hpeers : m.strict = l.strict ∧ m.peers = l.peers := by
    rw [Link.removeFromBalanceInfo] at hm
    split at hm
    · cases hm
    · split_ifs at hm <;> obtain rfl := Option.some.inj hm <;> exact ⟨rfl, rfl⟩
  have hold {i : ID32} {q : Link.Peer} (hq : (m.peers.erase p.id).lookup i = some q) :
      l.peers.lookup i = some q := hpeers.2 ▸ (Ledger.of_lookup_erase hq).2
  exact ⟨hpeers.1, fun i q hq => .inr (.inl ⟨q, hold hq, rfl⟩)⟩

/-- **A step of the link**, with strict verification: only an answer gives a peer a device id. -/
theorem moves_step {e : Link.Event} (hstrict : l.strict = true) (hkey : Keyed l)
    (h : Link.step l e = some l') : Moves (fun i d => e = .peerVerified i d) l l' := by
  cases e with
  | connect gid =>
    obtain rfl := Option.some.inj h
    exact ⟨rfl, Ledger.forall_lookup_insert (fun _ p hp => .inr (.inl ⟨p, hp, rfl⟩)) (.inl rfl)⟩
  | deviceId i di loadInfo =>
    refine Run.of_elim_eq_some (.refl l) h fun p hp h => ?_
    cases di with
    | none =>
      obtain rfl := Option.some.inj h
      exact moves_sendShutdownMessageToPeer
    | some di =>
      rw [Link.handleLinkPeerDeviceId, if_pos hstrict] at h
      obtain rfl := Option.some.inj h
      exact moves_setPeer (.inr (.inl ⟨p, (hkey i p hp).symm ▸ hp, rfl⟩))
  | peerVerified i di =>
    refine Run.of_elim_eq_some (.refl l) h fun p hp haccept => ?_
    obtain rfl := hkey i p hp
    exact moves_acceptConnectionWithBalancing rfl haccept
  | peerNotVerified i =>
    obtain rfl := Option.some.inj h
    cases hp : l.peers.lookup i with
    | none => exact .refl l
    | some p => exact moves_sendShutdownMessageToPeer
  | shutdown i =>
    obtain rfl := Option.some.inj h
    cases hp : l.peers.lookup i with
    | none => exact .refl l
    | some p => exact moves_sendShutdownMessageToPeer
  | remove i => exact Run.of_elim_eq_some (.refl l) h fun _ _ h => moves_removePeer h

end Link

/-! ### What a connection was verified with -/

/-- On this connection the peer has named the device and the user key. -/
def Asked (peer : ID32) (d : Digest) (k : Text) (log : List Entry) : Prop :=
  ∃ newer older, log = newer ++ .asked peer d k :: older ∧ .opened peer ∉ newer

/-- On this connection the peer has named the device and the user key, and the two were verified. -/
def Vouched (peer : ID32) (d : Digest) (k : Text) (log : List Entry) : Prop :=
  ∃ newer older, log = newer ++ .verified peer d k :: older ∧ .opened peer ∉ newer ∧
    Asked peer d k older

/-- What a peer said on this connection is true until the next one is opened. -/
theorem Asked.append {newer : List Entry} (h : Asked peer d k log) (hnew : .opened peer ∉ newer) :
    Asked peer d k (newer ++ log) := by
  obtain ⟨n, o, rfl, hn⟩ := h
  exact ⟨newer ++ n, o, (List.append_assoc _ _ _).symm, fun hmem =>
    (List.mem_append.mp hmem).elim hnew hn⟩

/-- So is what was verified. -/
theorem Vouched.append {newer : List Entry} (h : Vouched peer d k log)
    (hnew : .opened peer ∉ newer) : Vouched peer d k (newer ++ log) := by
  obtain ⟨n, o, rfl, hn, hasked⟩ := h
  exact ⟨newer ++ n, o, (List.append_assoc _ _ _).symm, fun hmem =>
    (List.mem_append.mp hmem).elim hnew hn, hasked⟩

/-- What was asked on this connection is verified on it. -/
theorem Asked.vouched (h : Asked peer d k log) :
    Vouched peer d k (.verified peer d k :: log) := ⟨[], log, rfl, List.not_mem_nil, h⟩

/-- The router is told of peers that were verified, and given data of them. -/
def Admitted (e : Entry) (older : List Entry) : Prop :=
  ∀ peer d, (∃ data, e = .received peer d data) ∨ (∃ k, e = .connected peer d k) →
    ∃ k, Vouched peer d k older

/-- **The invariant**: what was asked on this connection may be verified, what was verified may be
accepted, and what was accepted may be told to the router. -/
structure Admitting (s : Node) : Prop where
  strict : s.link.strict = true
  key : Keyed s.link
  asked : ∀ r ∈ s.toConfig, Asked r.peer r.deviceId r.publicKey s.log
  answers : ∀ a ∈ s.toLink, a.verified = true → ∃ k, Vouched a.peer a.deviceId k s.log
  peers : ∀ i p, s.link.peers.lookup i = some p → p.deviceId = [] ∨
    ∃ k, Vouched i p.deviceId k s.log
  past : Past Admitted s.log

/-! ### Each step -/

/-- The id of a new connection is in no question and in no answer. -/
def Fresh (s : Node) : Event → Prop
  | .connect _ => (∀ r ∈ s.toConfig, r.peer ≠ s.link.requestCounter) ∧
    ∀ a ∈ s.toLink, a.peer ≠ s.link.requestCounter
  | _ => True

instance (s : Node) : ∀ e, Decidable (Fresh s e)
  | .connect _ => inferInstanceAs (Decidable (_ ∧ _))
  | .deviceId _ _ _ _ | .data _ _ | .shutdown _ | .remove _ | .readConfig _ | .readLink
  | .addPeer _ _ | .removePeer _ _ | .restart => .isTrue trivial

/-- The files, the keys and the trusted peers are of no matter. -/
theorem Admitting.of_eq (h : Admitting s) (hlink : t.link = s.link)
    (hconfig : t.toConfig = s.toConfig) (hanswers : t.toLink = s.toLink) (hlog : t.log = s.log) :
    Admitting t := by
  constructor
  · exact hlink ▸ h.strict
  · exact hlink ▸ h.key
  · rw [hconfig, hlog]
    exact h.asked
  · rw [hanswers, hlog]
    exact h.answers
  · rw [hlink, hlog]
    exact h.peers
  · exact hlog ▸ h.past

/-- An entry is written that is no new connection. -/
theorem Admitting.write {e : Entry} (h : Admitting s) (he : ∀ peer, .opened peer ≠ e)
    (hadmitted : Admitted e s.log) : Admitting (s.write e) := by
  have hnew (peer : ID32) : .opened peer ∉ [e] := fun hmem => he peer (List.mem_singleton.mp hmem)
  refine ⟨h.strict, h.key, fun r hr => (h.asked r hr).append (hnew _), fun a ha hv => ?_,
    fun i p hp => ?_, past_cons.mpr ⟨hadmitted, h.past⟩⟩
  · obtain ⟨k, hk⟩ := h.answers a ha hv
    exact ⟨k, hk.append (hnew _)⟩
  · refine (h.peers i p hp).imp_right ?_
    rintro ⟨k, hk⟩
    exact ⟨k, hk.append (hnew _)⟩

/-- Entries that are about nothing the router gets. -/
theorem admitted_of_ne {e : Entry} (hreceived : ∀ peer d data, e ≠ .received peer d data)
    (hconnected : ∀ peer d k, e ≠ .connected peer d k) : Admitted e log := by
  rintro peer d (⟨data, he⟩ | ⟨k, he⟩)
  · exact absurd he (hreceived peer d data)
  · exact absurd he (hconnected peer d k)

/-- A step of the link. -/
theorem Admitting.linkStep {e : Link.Event} (h : Admitting s)
    (hverified : ∀ i d, e = .peerVerified i d → ∃ k, Vouched i d k s.log)
    (hstep : s.linkStep e = some t) : Admitting t := by
  obtain ⟨link, hlink, rfl⟩ := Option.map_eq_some_iff.mp hstep
  have hmoves := moves_step h.strict h.key hlink
  refine ⟨hmoves.strict.trans h.strict, (h.key.step hlink).1, h.asked, h.answers,
    fun i p hp => ?_, h.past⟩
  rcases hmoves.peers i p hp with hnil | ⟨q, hq, hsame⟩ | hnew
  · exact .inl hnil
  · rw [← hsame]
    exact h.peers i q hq
  · exact .inr (hverified i _ hnew)

/-- The router is told of a peer. -/
theorem Admitting.notify (h : Admitting s) (peer : ID32) : Admitting (s.notify peer) := by
  rw [Node.notify]
  split
  · exact h
  · rename_i p hp
    split_ifs with hnil
    · exact h
    · refine h.write (fun _ he => Entry.noConfusion he) ?_
      rintro peer' d (⟨data, he⟩ | ⟨k, he⟩)
      · cases he
      · obtain ⟨rfl, rfl, -⟩ := Entry.connected.inj he
        exact (h.peers peer p hp).resolve_left hnil

/-- **A new connection** forgets everything of its id; nothing on its way is about that. -/
theorem Admitting.connect {gid : ID32} (h : Admitting s) (hfresh : Fresh s (.connect gid))
    (hstep : s.connect gid = some t) : Admitting t := by
  obtain ⟨m, hm, rfl⟩ := Option.map_eq_some_iff.mp hstep
  obtain ⟨link, hlink, rfl⟩ := Option.map_eq_some_iff.mp hm
  obtain rfl := Option.some.inj hlink
  have hnew {peer : ID32} (hne : peer ≠ s.link.requestCounter) :
      .opened peer ∉ [Entry.opened s.link.requestCounter] := fun hmem =>
    hne (Entry.opened.inj (List.mem_singleton.mp hmem))
  refine ⟨h.strict, Ledger.forall_lookup_insert h.key rfl, fun r hr => ?_, fun a ha hv => ?_,
    fun i p hp => ?_, past_cons.mpr ⟨admitted_of_ne (fun _ _ _ he => Entry.noConfusion he)
      fun _ _ _ he => Entry.noConfusion he, h.past⟩⟩
  · exact (h.asked r hr).append (hnew (hfresh.1 r hr))
  · obtain ⟨k, hk⟩ := h.answers a ha hv
    exact ⟨k, hk.append (hnew (hfresh.2 a ha))⟩
  · obtain ⟨-, rfl⟩ | ⟨hne, hp⟩ := Ledger.eq_or_of_lookup_insert hp
    · exact .inl rfl
    · refine (h.peers i p hp).imp_right ?_
      rintro ⟨k, hk⟩
      exact ⟨k, hk.append (hnew hne)⟩

/-- The peer names a device, which is asked about. -/
theorem Admitting.handleLinkPeerDeviceId {di : Option Digest} {loadInfo : ℕ} (h : Admitting s)
    (hstep : s.handleLinkPeerDeviceId peer di k loadInfo = some t) : Admitting t := by
  obtain ⟨m, hm, rfl⟩ := Option.map_eq_some_iff.mp hstep
  have hadmitting : Admitting m := h.linkStep (fun _ _ he => Link.Event.noConfusion he) hm
  cases di with
  | none => exact hadmitting
  | some d =>
    dsimp only
    rw [if_pos hadmitting.strict]
    have hwritten : Admitting (m.write (.asked peer d k)) :=
      hadmitting.write (fun _ he => Entry.noConfusion he) (admitted_of_ne
        (fun _ _ _ he => Entry.noConfusion he) fun _ _ _ he => Entry.noConfusion he)
    refine ⟨hwritten.strict, hwritten.key, fun r hr => ?_, hwritten.answers, hwritten.peers,
      hwritten.past⟩
    rcases List.mem_append.mp hr with hr | hr
    · exact hwritten.asked r hr
    · obtain rfl := List.mem_singleton.mp hr
      exact ⟨[], m.log, rfl, List.not_mem_nil⟩

/-- Data is given to the router if the peer has a device id, and then it was verified. -/
theorem Admitting.handleRouterMessageOfLinkPeer {p : Link.Peer} {data : Bytes} (h : Admitting s)
    (hp : s.link.peers.lookup peer = some p)
    (hstep : s.handleRouterMessageOfLinkPeer peer p data = some t) : Admitting t := by
  rw [Node.handleRouterMessageOfLinkPeer] at hstep
  split_ifs at hstep with hnil
  · exact h.linkStep (fun _ _ he => Link.Event.noConfusion he) hstep
  · obtain rfl := Option.some.inj hstep
    refine h.write (fun _ he => Entry.noConfusion he) ?_
    rintro peer' d (⟨data, he⟩ | ⟨k, he⟩)
    · obtain ⟨rfl, rfl, -⟩ := Entry.received.inj he
      exact (h.peers peer p hp).resolve_left hnil
    · cases he

/-- The link hears that the device was verified, and accepts the peer. -/
theorem Admitting.handleConfigAnswer {a : VerifyResponse} (h : Admitting s)
    (ha : a.verified = true → ∃ k, Vouched a.peer a.deviceId k s.log)
    (hstep : s.handleConfigAnswer a = some t) : Admitting t := by
  rw [Node.handleConfigAnswer] at hstep
  split at hstep
  · obtain rfl := Option.some.inj hstep
    exact h
  · split_ifs at hstep with hv
    · obtain ⟨m, hm, rfl⟩ := Option.map_eq_some_iff.mp hstep
      refine Admitting.notify (h.linkStep (fun i d he => ?_) hm) a.peer
      obtain ⟨rfl, rfl⟩ := Link.Event.peerVerified.inj he
      exact ha hv
    · exact h.linkStep (fun _ _ he => Link.Event.noConfusion he) hstep

/-- The configuration manager verifies what it was asked about. -/
theorem Admitting.sendPeerVerifyResponse {r : VerifyRequest} (h : Admitting s)
    (hr : Asked r.peer r.deviceId r.publicKey s.log) (verified : Bool) :
    Admitting (s.sendPeerVerifyResponse r verified) := by
  have hwritten {e : Entry} (he : e = if verified then .verified r.peer r.deviceId r.publicKey
      else .notVerified r.peer r.deviceId r.publicKey) : Admitting (s.write e) := by
    cases verified <;> subst he <;> exact h.write (fun _ he => Entry.noConfusion he)
      (admitted_of_ne (fun _ _ _ he => Entry.noConfusion he) fun _ _ _ he => Entry.noConfusion he)
  have hwritten := hwritten rfl
  refine ⟨hwritten.strict, hwritten.key, hwritten.asked, fun a ha hv => ?_, hwritten.peers,
    hwritten.past⟩
  rcases List.mem_append.mp ha with ha | ha
  · exact hwritten.answers a ha hv
  · obtain rfl := List.mem_singleton.mp ha
    obtain rfl : verified = true := hv
    exact ⟨r.publicKey, hr.vouched⟩

/-- The file of the trusted peers has no part in this. -/
theorem Admitting.writeFile {w : Write} (h : Admitting s) : Admitting (s.writeFile codec w) := by
  cases w with
  | refused => exact h
  | whole => exact h.of_eq rfl rfl rfl rfl
  | short n => exact h.of_eq rfl rfl rfl rfl

/-- It may learn the user key of the device before it answers. -/
theorem Admitting.handleLinkVerifyPeerRequest {r : VerifyRequest} {w : Write} (h : Admitting s)
    (hr : Asked r.peer r.deviceId r.publicKey s.log) :
    Admitting (s.handleLinkVerifyPeerRequest codec r w) := by
  rw [Node.handleLinkVerifyPeerRequest]
  split
  · exact h.sendPeerVerifyResponse hr false
  · rename_i p _
    split_ifs
    · have hlearnt : Admitting { s with
          trusted := s.trusted.insert r.deviceId ⟨p.deviceKey, r.publicKey⟩ } :=
        h.of_eq rfl rfl rfl rfl
      refine hlearnt.writeFile.sendPeerVerifyResponse ?_ true
      rw [log_writeFile]
      exact hr
    · exact h.sendPeerVerifyResponse hr _

/-- **Step lemma.** -/
theorem Admitting.step (h : Admitting s) (hfresh : Fresh s e) (hstep : step codec s e = some t) :
    Admitting t := by
  cases e with
  | connect gid => exact h.connect hfresh hstep
  | deviceId peer di publicKey loadInfo =>
    obtain ⟨p, -, hstep⟩ := Option.bind_eq_some_iff.mp hstep
    exact h.handleLinkPeerDeviceId hstep
  | data peer data =>
    obtain ⟨p, hp, hstep⟩ := Option.bind_eq_some_iff.mp hstep
    exact h.handleRouterMessageOfLinkPeer hp hstep
  | shutdown peer => exact h.linkStep (fun _ _ he => Link.Event.noConfusion he) hstep
  | remove peer => exact h.linkStep (fun _ _ he => Link.Event.noConfusion he) hstep
  | readConfig w =>
    rw [Trust.step] at hstep
    split at hstep
    · cases hstep
    · rename_i r rs hqueue
      obtain rfl := Option.some.inj hstep
      have hread : Admitting { s with toConfig := rs } := by
        refine ⟨h.strict, h.key, fun r' hr' => ?_, h.answers, h.peers, h.past⟩
        exact h.asked r' (hqueue ▸ List.mem_cons_of_mem _ hr')
      exact hread.handleLinkVerifyPeerRequest (h.asked r (hqueue ▸ List.mem_cons_self))
  | readLink =>
    rw [Trust.step] at hstep
    split at hstep
    · cases hstep
    · rename_i a as hqueue
      have hread : Admitting { s with toLink := as } := by
        refine ⟨h.strict, h.key, h.asked, fun a' ha' => ?_, h.peers, h.past⟩
        exact h.answers a' (hqueue ▸ List.mem_cons_of_mem _ ha')
      exact hread.handleConfigAnswer (h.answers a (hqueue ▸ List.mem_cons_self)) hstep
  | addPeer message w =>
    obtain rfl := Option.some.inj hstep
    have hadded : Admitting { s with
        trusted := addPeer s.trusted (Node.digestOf codec message) (KeyManager.trim message) } :=
      h.of_eq rfl rfl rfl rfl
    exact hadded.writeFile
  | removePeer message w =>
    obtain rfl := Option.some.inj hstep
    have herased : Admitting { s with
        trusted := s.trusted.erase (Node.digestOf codec message) } := h.of_eq rfl rfl rfl rfl
    exact herased.writeFile.write (fun _ he => Entry.noConfusion he) (admitted_of_ne
      (fun _ _ _ he => Entry.noConfusion he) fun _ _ _ he => Entry.noConfusion he)
  | restart =>
    obtain rfl := Option.some.inj hstep
    refine ⟨h.strict, fun i p hp => ?_, List.forall_mem_nil _, List.forall_mem_nil _,
      fun i p hp => ?_, h.past⟩ <;> cases hp

/-- A node starts without peers. -/
theorem admitting_init : Admitting (Node.init codec true file) := by
  refine ⟨rfl, fun i p hp => ?_, List.forall_mem_nil _, List.forall_mem_nil _, fun i p hp => ?_,
    past_nil⟩ <;> cases hp

/-- **Only verified peers are heard**: when the router is given data of a peer, or is told that it
is there, the peer has named its device and a user key on this connection, and then the
configuration manager has verified the two. -/
theorem received_of_run (hrun : Run.run (step codec) (Node.init codec true file) es = some s)
    (hfresh : Run.Along (step codec) Fresh (Node.init codec true file) es)
    {x : Entry} {newer older : List Entry} (hlog : s.log = newer ++ x :: older)
    (hx : (∃ data, x = .received peer d data) ∨ ∃ k, x = .connected peer d k) :
    ∃ k, Vouched peer d k older := by
  have hadmitting : Admitting s := Run.invariant_of_run Admitting
    (fun s e t h hok hstep => h.step hok hstep) admitting_init hfresh hrun
  have hpast := hadmitting.past
  rw [hlog] at hpast
  exact past_append_cons hpast peer d hx

/-- Two peers come. The first names a trusted device and a user key, is verified, and sends data;
the second names a device nobody trusts. -/
def oneVerified : List Event :=
  [.addPeer ['D'] .whole, .connect Link.noGroup, .connect Link.noGroup,
    .deviceId Link.requestLowerBound (some [68]) ['U'] 0,
    .deviceId (Link.requestLowerBound + 1) (some [69]) ['V'] 0, .readConfig .whole,
    .readConfig .whole, .readLink, .readLink, .data Link.requestLowerBound [7]]

/-- What has happened when the router is told that the first one is there. -/
def beforeConnected : List Entry :=
  [.notVerified (Link.requestLowerBound + 1) [69] ['V'],
    .verified Link.requestLowerBound [68] ['U'], .asked (Link.requestLowerBound + 1) [69] ['V'],
    .asked Link.requestLowerBound [68] ['U'], .opened (Link.requestLowerBound + 1),
    .opened Link.requestLowerBound]

/-- What happens in the run of the witness. -/
theorem log_oneVerified : ∃ s,
    Run.run (step plainCodec) (Node.init plainCodec true none) oneVerified = some s ∧ s.log =
      [] ++ .received Link.requestLowerBound [68] [7] ::
        .connected Link.requestLowerBound [68] ['U'] :: beforeConnected :=
  ⟨_, rfl, rfl⟩

/-- The data of the first peer is given to the router, and the second one is there all the time. -/
theorem received_of_run_oneVerified : ∃ k, Vouched Link.requestLowerBound [68] k
    (.connected Link.requestLowerBound [68] ['U'] :: beforeConnected) := by
  obtain ⟨s, hs, hlog⟩ := log_oneVerified
  exact received_of_run hs (by decide) hlog (.inl ⟨_, rfl⟩)

/-! ### The key the router is told -/

/-- On this connection the peer has sent its device id. -/
def hasAsked (peer : ID32) : List Entry → Bool
  | [] => false
  | .opened i :: l => if i = peer then false else hasAsked peer l
  | .asked i _ _ :: l => if i = peer then true else hasAsked peer l
  | _ :: l => hasAsked peer l

/-- A peer sends its device id once. -/
def Once (s : Node) : Event → Prop
  | .deviceId peer (some _) _ _ => hasAsked peer s.log = false
  | _ => True

instance (s : Node) : ∀ e, Decidable (Once s e)
  | .deviceId _ (some _) _ _ => inferInstanceAs (Decidable (_ = _))
  | .deviceId _ none _ _ | .connect _ | .data _ _ | .shutdown _ | .remove _ | .readConfig _
  | .readLink | .addPeer _ _ | .removePeer _ _ | .restart => .isTrue trivial

/-- The router is told the key that was verified. -/
def Announced (e : Entry) (older : List Entry) : Prop :=
  ∀ peer d k, e = .connected peer d k → Vouched peer d k older

/-- **The invariant**: the user key of a peer is the one that is asked about and verified. -/
structure Single (s : Node) : Prop where
  asked : ∀ r ∈ s.toConfig, s.publicKeys.lookup r.peer = some r.publicKey ∧
    hasAsked r.peer s.log = true
  answers : ∀ a ∈ s.toLink, a.verified = true → ∃ k, s.publicKeys.lookup a.peer = some k ∧
    hasAsked a.peer s.log = true ∧ Vouched a.peer a.deviceId k s.log
  past : Past Announced s.log

/-- An entry is written that is no new connection and no new question. -/
theorem Single.write {e : Entry} (h : Single s) (hopened : ∀ peer, .opened peer ≠ e)
    (hasked : ∀ peer, hasAsked peer (e :: s.log) = hasAsked peer s.log)
    (hannounced : Announced e s.log) : Single (s.write e) := by
  have hnew (peer : ID32) : .opened peer ∉ [e] := fun hmem =>
    hopened peer (List.mem_singleton.mp hmem)
  refine ⟨fun r hr => ?_, fun a ha hv => ?_, past_cons.mpr ⟨hannounced, h.past⟩⟩
  · obtain ⟨hkey, hr⟩ := h.asked r hr
    exact ⟨hkey, (hasked r.peer).trans hr⟩
  · obtain ⟨k, hkey, ha, hk⟩ := h.answers a ha hv
    exact ⟨k, hkey, (hasked a.peer).trans ha, hk.append (hnew _)⟩

/-- Only being told of a peer has to be announced. -/
theorem announced_of_ne {e : Entry} (he : ∀ peer d k, e ≠ .connected peer d k) :
    Announced e log := fun peer d k heq => absurd heq (he peer d k)

/-- The link by itself asks and answers nothing. -/
theorem Single.linkStep {e : Link.Event} (h : Single s) (hstep : s.linkStep e = some t) :
    Single t := by
  obtain ⟨link, -, rfl⟩ := Option.map_eq_some_iff.mp hstep
  exact ⟨h.asked, h.answers, h.past⟩

/-- The trusted peers are of no matter. -/
theorem Single.of_eq (h : Single s) (hkeys : t.publicKeys = s.publicKeys)
    (hconfig : t.toConfig = s.toConfig) (hanswers : t.toLink = s.toLink) (hlog : t.log = s.log) :
    Single t := by
  constructor
  · rw [hconfig, hkeys, hlog]
    exact h.asked
  · rw [hanswers, hkeys, hlog]
    exact h.answers
  · exact hlog ▸ h.past

/-- A new connection has not named a device, and nothing on its way is about its id. -/
theorem Single.connect {gid : ID32} (h : Single s) (hfresh : Fresh s (.connect gid))
    (hstep : s.connect gid = some t) : Single t := by
  obtain ⟨m, hm, rfl⟩ := Option.map_eq_some_iff.mp hstep
  obtain ⟨link, -, rfl⟩ := Option.map_eq_some_iff.mp hm
  have hkept {peer : ID32} (hne : peer ≠ s.link.requestCounter) :
      hasAsked peer (.opened s.link.requestCounter :: s.log) = hasAsked peer s.log :=
    if_neg hne.symm
  refine ⟨fun r hr => ?_, fun a ha hv => ?_, past_cons.mpr ⟨announced_of_ne
    fun _ _ _ he => Entry.noConfusion he, h.past⟩⟩
  · obtain ⟨hkey, hasked⟩ := h.asked r hr
    have hne := hfresh.1 r hr
    exact ⟨(AList.lookup_insert_ne hne).trans hkey, (hkept hne).trans hasked⟩
  · obtain ⟨k, hkey, hasked, hk⟩ := h.answers a ha hv
    have hne := hfresh.2 a ha
    have hnew : .opened a.peer ∉ [Entry.opened s.link.requestCounter] := fun hmem =>
      hne (Entry.opened.inj (List.mem_singleton.mp hmem))
    exact ⟨k, (AList.lookup_insert_ne hne).trans hkey, (hkept hne).trans hasked, hk.append hnew⟩

/-- **The peer names its device for the first time**, so the key that is stored with it is the one
that is asked about. -/
theorem Single.handleLinkPeerDeviceId {di : Option Digest} {loadInfo : ℕ} (h : Single s)
    (hstrict : Admitting s) (honce : Once s (.deviceId peer di k loadInfo))
    (hstep : s.handleLinkPeerDeviceId peer di k loadInfo = some t) : Single t := by
  obtain ⟨m, hm, rfl⟩ := Option.map_eq_some_iff.mp hstep
  have hstrict := (hstrict.linkStep (fun _ _ he => Link.Event.noConfusion he) hm).strict
  obtain ⟨link, -, rfl⟩ := Option.map_eq_some_iff.mp hm
  cases di with
  | none => exact ⟨h.asked, h.answers, h.past⟩
  | some d =>
    have honce : hasAsked peer s.log = false := honce
    have hne {i : ID32} (hasked : hasAsked i s.log = true) : i ≠ peer := by
      rintro rfl
      rw [honce] at hasked
      cases hasked
    have hkept {i : ID32} (hi : i ≠ peer) :
        hasAsked i (.asked peer d k :: s.log) = hasAsked i s.log := if_neg hi.symm
    dsimp only
    rw [if_pos hstrict]
    refine ⟨fun r hr => ?_, fun a ha hv => ?_, past_cons.mpr ⟨announced_of_ne
      fun _ _ _ he => Entry.noConfusion he, h.past⟩⟩
    · rcases List.mem_append.mp hr with hr | hr
      · obtain ⟨hkey, hasked⟩ := h.asked r hr
        exact ⟨(AList.lookup_insert_ne (hne hasked)).trans hkey,
          (hkept (hne hasked)).trans hasked⟩
      · obtain rfl := List.mem_singleton.mp hr
        exact ⟨AList.lookup_insert _, if_pos rfl⟩
    · obtain ⟨k', hkey, hasked, hk⟩ := h.answers a ha hv
      have hnew : .opened a.peer ∉ [Entry.asked peer d k] := fun hmem =>
        Entry.noConfusion (List.mem_singleton.mp hmem)
      exact ⟨k', (AList.lookup_insert_ne (hne hasked)).trans hkey,
        (hkept (hne hasked)).trans hasked, hk.append hnew⟩

/-- An accepted peer has the device id it was accepted with. -/
theorem deviceId_of_accept {p q : Link.Peer} (hq : (Link.accept l p d).peers.lookup p.id = some q) :
    q.deviceId = d := by
  obtain rfl := Option.some.inj ((AList.lookup_insert _).symm.trans hq)
  rfl

/-- In a group as well. -/
theorem deviceId_of_acceptForGroup {p q : Link.Peer}
    (hq : (Link.acceptForGroup l p d).peers.lookup p.id = some q) : q.deviceId = d :=
  deviceId_of_accept (p := { p with stands := true }) hq

/-- A peer that is accepted has the device id of the answer, or none. -/
theorem deviceId_of_acceptConnectionWithBalancing {p q : Link.Peer}
    (h : Link.acceptConnectionWithBalancing l p d = some l') (hq : l'.peers.lookup p.id = some q) :
    q.deviceId = [] ∨ q.deviceId = d := by
  rw [Link.acceptConnectionWithBalancing] at h
  split_ifs at h
  · obtain rfl := Option.some.inj h
    exact .inr (deviceId_of_accept hq)
  · split at h
    · obtain rfl := Option.some.inj h
      exact .inr (deviceId_of_acceptForGroup hq)
    · split at h
      · cases h
      · split_ifs at h
        · obtain rfl := Option.some.inj h
          obtain rfl := Option.some.inj ((AList.lookup_insert _).symm.trans hq)
          exact .inl rfl
        · obtain rfl := Option.some.inj h
          exact .inr (deviceId_of_acceptForGroup hq)

/-- **The router is told the stored key**, which is the verified one. -/
theorem Single.handleConfigAnswer {a : VerifyResponse} (h : Single s) (hkey : Keyed s.link)
    (ha : a.verified = true → ∃ k, s.publicKeys.lookup a.peer = some k ∧
      Vouched a.peer a.deviceId k s.log)
    (hstep : s.handleConfigAnswer a = some t) : Single t := by
  rw [Node.handleConfigAnswer] at hstep
  split at hstep
  · obtain rfl := Option.some.inj hstep
    exact h
  · rename_i p hp
    split_ifs at hstep with hv
    · obtain ⟨m, hm, rfl⟩ := Option.map_eq_some_iff.mp hstep
      have hsingle := h.linkStep hm
      obtain ⟨link, hlink, rfl⟩ := Option.map_eq_some_iff.mp hm
      rw [Link.step, hp] at hlink
      obtain ⟨k, hk, hvouched⟩ := ha hv
      rw [Node.notify]
      split
      · exact hsingle
      · rename_i q hq
        split_ifs with hnil
        · exact hsingle
        · rw [← hkey a.peer p hp] at hq
          have hd := (deviceId_of_acceptConnectionWithBalancing hlink hq).resolve_left hnil
          refine hsingle.write (fun _ he => Entry.noConfusion he) (fun _ => rfl) ?_
          intro peer d k' he
          obtain ⟨rfl, rfl, rfl⟩ := Entry.connected.inj he
          rw [hd, hk]
          exact hvouched
    · exact h.linkStep hstep

/-- The file has no part in this either. -/
theorem Single.writeFile {w : Write} (h : Single s) : Single (s.writeFile codec w) := by
  cases w with
  | refused => exact h
  | whole => exact h.of_eq rfl rfl rfl rfl
  | short n => exact h.of_eq rfl rfl rfl rfl

/-- The answer is about the key that was asked about. -/
theorem Single.sendPeerVerifyResponse {r : VerifyRequest} (h : Single s)
    (hr : s.publicKeys.lookup r.peer = some r.publicKey ∧ hasAsked r.peer s.log = true)
    (hasked : Asked r.peer r.deviceId r.publicKey s.log) (verified : Bool) :
    Single (s.sendPeerVerifyResponse r verified) := by
  have hwritten {e : Entry} (he : e = if verified then .verified r.peer r.deviceId r.publicKey
      else .notVerified r.peer r.deviceId r.publicKey) : Single (s.write e) := by
    cases verified <;> subst he <;> exact h.write (fun _ he => Entry.noConfusion he) (fun _ => rfl)
      (announced_of_ne fun _ _ _ he => Entry.noConfusion he)
  have hwritten := hwritten rfl
  refine ⟨hwritten.asked, fun a ha hv => ?_, hwritten.past⟩
  rcases List.mem_append.mp ha with ha | ha
  · exact hwritten.answers a ha hv
  · obtain rfl := List.mem_singleton.mp ha
    obtain rfl : verified = true := hv
    exact ⟨r.publicKey, hr.1, hr.2, hasked.vouched⟩

/-- The same when the key was learned before. -/
theorem Single.handleLinkVerifyPeerRequest {r : VerifyRequest} {w : Write} (h : Single s)
    (hr : s.publicKeys.lookup r.peer = some r.publicKey ∧ hasAsked r.peer s.log = true)
    (hasked : Asked r.peer r.deviceId r.publicKey s.log) :
    Single (s.handleLinkVerifyPeerRequest codec r w) := by
  rw [Node.handleLinkVerifyPeerRequest]
  split
  · exact h.sendPeerVerifyResponse hr hasked false
  · rename_i p _
    split_ifs
    · obtain ⟨s', hs'⟩ : ∃ s', s' = Node.writeFile codec { s with
          trusted := s.trusted.insert r.deviceId ⟨p.deviceKey, r.publicKey⟩ } w := ⟨_, rfl⟩
      have hkeys : s'.publicKeys = s.publicKeys ∧ s'.toConfig = s.toConfig ∧
          s'.toLink = s.toLink ∧ s'.log = s.log := by
        rw [hs']
        cases w <;> exact ⟨rfl, rfl, rfl, rfl⟩
      have hsingle : Single s' := h.of_eq hkeys.1 hkeys.2.1 hkeys.2.2.1 hkeys.2.2.2
      rw [← hs']
      refine hsingle.sendPeerVerifyResponse ?_ ?_ true
      · rw [hkeys.1, hkeys.2.2.2]
        exact hr
      · rw [hkeys.2.2.2]
        exact hasked
    · exact h.sendPeerVerifyResponse hr hasked _

/-- **Step lemma.** -/
theorem Single.step (h : Single s) (hadmitting : Admitting s) (hfresh : Fresh s e)
    (honce : Once s e) (hstep : step codec s e = some t) : Single t := by
  cases e with
  | connect gid => exact h.connect hfresh hstep
  | deviceId peer di publicKey loadInfo =>
    obtain ⟨p, -, hstep⟩ := Option.bind_eq_some_iff.mp hstep
    exact h.handleLinkPeerDeviceId hadmitting honce hstep
  | data peer data =>
    obtain ⟨p, -, hstep⟩ := Option.bind_eq_some_iff.mp hstep
    rw [Node.handleRouterMessageOfLinkPeer] at hstep
    split_ifs at hstep
    · exact h.linkStep hstep
    · obtain rfl := Option.some.inj hstep
      exact h.write (fun _ he => Entry.noConfusion he) (fun _ => rfl)
        (announced_of_ne fun _ _ _ he => Entry.noConfusion he)
  | shutdown peer => exact h.linkStep hstep
  | remove peer => exact h.linkStep hstep
  -- the configuration takes the oldest question, and answers as its keys say now
  | readConfig w =>
    rw [Trust.step] at hstep
    split at hstep
    · cases hstep
    · rename_i r rs hqueue
      obtain rfl := Option.some.inj hstep
      have hread : Single { s with toConfig := rs } := by
        refine ⟨fun r' hr' => ?_, h.answers, h.past⟩
        exact h.asked r' (hqueue ▸ List.mem_cons_of_mem _ hr')
      have hr : r ∈ s.toConfig := hqueue ▸ List.mem_cons_self
      exact hread.handleLinkVerifyPeerRequest (h.asked r hr) (hadmitting.asked r hr)
  -- the link takes the oldest answer
  | readLink =>
    rw [Trust.step] at hstep
    split at hstep
    · cases hstep
    · rename_i a as hqueue
      have hread : Single { s with toLink := as } := by
        refine ⟨h.asked, fun a' ha' => ?_, h.past⟩
        exact h.answers a' (hqueue ▸ List.mem_cons_of_mem _ ha')
      refine hread.handleConfigAnswer hadmitting.key (fun hv => ?_) hstep
      obtain ⟨k, hkey, -, hk⟩ := h.answers a (hqueue ▸ List.mem_cons_self) hv
      exact ⟨k, hkey, hk⟩
  -- the keys are written, and nobody is admitted by that
  | addPeer message w =>
    obtain rfl := Option.some.inj hstep
    have hadded : Single { s with
        trusted := addPeer s.trusted (Node.digestOf codec message) (KeyManager.trim message) } :=
      h.of_eq rfl rfl rfl rfl
    exact hadded.writeFile
  | removePeer message w =>
    obtain rfl := Option.some.inj hstep
    have herased : Single { s with
        trusted := s.trusted.erase (Node.digestOf codec message) } := h.of_eq rfl rfl rfl rfl
    exact herased.writeFile.write (fun _ he => Entry.noConfusion he) (fun _ => rfl)
      (announced_of_ne fun _ _ _ he => Entry.noConfusion he)
  -- a node that starts again has nothing under way
  | restart =>
    obtain rfl := Option.some.inj hstep
    exact ⟨List.forall_mem_nil _, List.forall_mem_nil _, h.past⟩

/-- At the start nothing was asked. -/
theorem single_init : Single (Node.init codec true file) :=
  ⟨List.forall_mem_nil _, List.forall_mem_nil _, past_nil⟩

/-- **The key the router is told was verified**, if each peer sends its device id once. -/
theorem connected_of_run (hrun : Run.run (step codec) (Node.init codec true file) es = some s)
    (hfresh : Run.Along (step codec) Fresh (Node.init codec true file) es)
    (honce : Run.Along (step codec) Once (Node.init codec true file) es)
    {newer older : List Entry} (hlog : s.log = newer ++ .connected peer d k :: older) :
    Vouched peer d k older := by
  have hboth : Admitting s ∧ Single s := Run.invariant_of_run (fun s => Admitting s ∧ Single s)
    (fun s e t h hok hstep => ⟨h.1.step hok.1 hstep, h.2.step h.1 hok.1 hok.2 hstep⟩)
    ⟨admitting_init, single_init⟩ (hfresh.and honce) hrun
  have hpast := hboth.2.past
  rw [hlog] at hpast
  exact past_append_cons hpast peer d k rfl

/-- The router is told the key of the first peer while the second one is there. -/
theorem connected_of_run_oneVerified :
    Vouched Link.requestLowerBound [68] ['U'] beforeConnected := by
  obtain ⟨s, hs, hlog⟩ := log_oneVerified
  have hlog : s.log = [.received Link.requestLowerBound [68] [7]] ++
      .connected Link.requestLowerBound [68] ['U'] :: beforeConnected := hlog
  exact connected_of_run hs (by decide) (by decide) hlog

/-- A peer sends its device id again, with another user key, while the first one is verified. -/
def otherKey : List Event :=
  [.addPeer ['D'] .whole, .connect Link.noGroup,
    .deviceId Link.requestLowerBound (some [68]) ['U'] 0, .readConfig .whole,
    .deviceId Link.requestLowerBound (some [68]) ['V'] 0, .readLink]

/-- **A key that was not verified**: the router is told the one that came last. -/
theorem exists_connected_otherKey : ∃ s,
    Run.run (step plainCodec) (Node.init plainCodec true none) otherKey = some s ∧
      .connected Link.requestLowerBound [68] ['V'] ∈ s.log ∧
      .verified Link.requestLowerBound [68] ['V'] ∉ s.log :=
  ⟨_, rfl, by decide, by decide⟩

end Trust

end Metax
