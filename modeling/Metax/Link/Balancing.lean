import Metax.Library.Ledger
import Metax.Library.Run
import Metax.Platform.Package

/-!
# Balanced connections

The link task keeps at most one connection of each balance group. A peer is accepted when it sends
its device id, at once or, with strict verification, when the configuration has verified it. Of two
peers of one group the less loaded one stays, the other one is told to shut down, and
`m_balance_info` has the one that stays.

The law, `Balanced`: of a group at most one connection is accepted and not told to shut down, and
it is the one in `m_balance_info`; and a connection that goes away is only looked up where it is
found. The entry of the group of a peer that goes away is read without a look at whether there is
one. As long as there is one, the law holds along every run (`balanced_run`).
-/

namespace Metax

namespace Link

open Ledger (Table)

/-- `LINK_REQUEST_LOWER_BOUND`. -/
def requestLowerBound : ID32 := 0x20000000

/-- `LINK_REQUEST_UPPER_BOUND`. -/
def requestUpperBound : ID32 := 0x2FFFFFFF

/-- The group of a peer without one, `-1`, as the `ID32` it is looked up by. -/
def noGroup : ID32 := 2 ^ 32 - 1

/-- `peer_io`, with the id and the group of its `link_peer`. Whether the peer was accepted and was
told to shut down is ghost, and so is whether it stands for its group: the balancer has accepted it
for the group, and no other one since. -/
structure Peer where
  id : ID32
  gid : ID32
  deviceId : Bytes
  loadInfo : ℕ
  accepted : Bool
  told : Bool
  stands : Bool
  deriving DecidableEq

/-- The part of the link task that balances connections. -/
structure Balancer where
  strict : Bool
  peers : Table ID32 Peer
  balanceInfo : Table ID32 ID32
  requestCounter : ID32

/-- The link task at its start. -/
def Balancer.init (strict : Bool) : Balancer := ⟨strict, ∅, ∅, requestLowerBound⟩

/-- What can happen. -/
inductive Event
  | connect (gid : ID32)
  | deviceId (id : ID32) (di : Option Bytes) (loadInfo : ℕ)
  | peerVerified (id : ID32) (di : Bytes)
  | peerNotVerified (id : ID32)
  | shutdown (id : ID32)
  | remove (id : ID32)

/-- A changed peer. -/
def Balancer.setPeer (s : Balancer) (p : Peer) : Balancer :=
  { s with peers := s.peers.insert p.id p }

/-- `get_peer_id`: the counter goes on. -/
def nextCounter (n : ID32) : ID32 :=
  if requestUpperBound ≤ n + 1 then requestLowerBound else n + 1

/-- `add_peer`. -/
def addPeer (s : Balancer) (gid : ID32) : Balancer :=
  { s with
    peers := s.peers.insert s.requestCounter ⟨s.requestCounter, gid, [], 0, false, false, false⟩
    requestCounter := nextCounter s.requestCounter }

/-- `send_shutdown_message_to_peer`. -/
def sendShutdownMessageToPeer (s : Balancer) (p : Peer) : Balancer :=
  s.setPeer { p with deviceId := [], told := true }

/-- The end of `accept_connection_with_balancing`. -/
def accept (s : Balancer) (p : Peer) (di : Bytes) : Balancer :=
  s.setPeer { p with deviceId := di, accepted := true }

/-- The peer is the one of its group from here on. -/
def acceptForGroup (s : Balancer) (p : Peer) (di : Bytes) : Balancer :=
  accept { s with balanceInfo := s.balanceInfo.insert p.gid p.id } { p with stands := true } di

/-- `accept_connection_with_balancing`. -/
def acceptConnectionWithBalancing (s : Balancer) (p : Peer) (di : Bytes) : Option Balancer :=
  if p.gid = noGroup then some (accept s p di)
  else
    match s.balanceInfo.lookup p.gid with
    | none => some (acceptForGroup s p di)
    | some other =>
      match s.peers.lookup other with
      | none => none
      | some j =>
        if j.loadInfo ≤ p.loadInfo then some (sendShutdownMessageToPeer s p)
        else some (acceptForGroup (sendShutdownMessageToPeer s { j with stands := false }) p di)

/-- `handle_link_peer_device_id`. -/
def handleLinkPeerDeviceId (s : Balancer) (p : Peer) (di : Option Bytes) (loadInfo : ℕ) :
    Option Balancer :=
  match di with
  | none => some (sendShutdownMessageToPeer s p)
  | some di =>
    let p := { p with loadInfo := loadInfo }
    if s.strict then some (s.setPeer p) else acceptConnectionWithBalancing (s.setPeer p) p di

/-- `remove_from_balance_info`. To read an entry that is not there has no meaning. -/
def removeFromBalanceInfo (s : Balancer) (p : Peer) : Option Balancer :=
  match s.balanceInfo.lookup p.gid with
  | none => none
  | some other =>
    if other = p.id then some { s with balanceInfo := s.balanceInfo.erase p.gid } else some s

/-- `remove_peer`. -/
def removePeer (s : Balancer) (p : Peer) : Option Balancer :=
  (removeFromBalanceInfo s p).map fun s => { s with peers := s.peers.erase p.id }

/-- One event. A peer that is not there does nothing. -/
def step (s : Balancer) : Event → Option Balancer
  | .connect gid => some (addPeer s gid)
  | .deviceId id di loadInfo =>
    (s.peers.lookup id).elim (some s) fun p => handleLinkPeerDeviceId s p di loadInfo
  | .peerVerified id di =>
    (s.peers.lookup id).elim (some s) fun p => acceptConnectionWithBalancing s p di
  | .peerNotVerified id | .shutdown id =>
    some ((s.peers.lookup id).elim s (sendShutdownMessageToPeer s))
  | .remove id => (s.peers.lookup id).elim (some s) (removePeer s)

/-! ### Peers and their groups -/

section Groups

variable {s s' : Balancer} {p : Peer} {id : ID32} {di : Bytes} {e : Event}

/-- Each peer is found under its id. -/
def Keyed (s : Balancer) : Prop := ∀ i p, s.peers.lookup i = some p → p.id = i

/-- The group of a peer. -/
def Balancer.group (s : Balancer) (i : ID32) : Option ID32 := (s.peers.lookup i).map Peer.gid

theorem Keyed.setPeer (h : Keyed s) : Keyed (s.setPeer p) := Ledger.forall_lookup_insert h rfl

/-- A peer stays in its group. -/
theorem group_setPeer (h : s.group p.id = some p.gid) : (s.setPeer p).group = s.group := by
  funext i
  rw [Balancer.group, Balancer.setPeer, Ledger.lookup_insert_ite]
  split_ifs with hi
  · exact hi ▸ h.symm
  · rfl

theorem Keyed.acceptConnectionWithBalancing (h : Keyed s) (hp : s.group p.id = some p.gid)
    (hstep : acceptConnectionWithBalancing s p di = some s') :
    Keyed s' ∧ s'.group = s.group := by
  rw [Link.acceptConnectionWithBalancing] at hstep
  split_ifs at hstep
  · exact Option.some.inj hstep ▸ ⟨h.setPeer, group_setPeer hp⟩
  · split at hstep
    · exact Option.some.inj hstep ▸ ⟨h.setPeer, group_setPeer (s := { s with balanceInfo := _ }) hp⟩
    · split at hstep
      · cases hstep
      · rename_i other _ _ j hj
        have hother : s.group j.id = some j.gid := by
          rw [h other j hj, Balancer.group, hj, Option.map_some]
        split_ifs at hstep
        · exact Option.some.inj hstep ▸ ⟨h.setPeer, group_setPeer hp⟩
        · -- the other one is written back as well
          let q : Peer := { j with stands := false, deviceId := [], told := true }
          have hset : (s.setPeer q).group = s.group := group_setPeer hother
          refine Option.some.inj hstep ▸ ⟨h.setPeer.setPeer, Eq.trans ?_ hset⟩
          exact group_setPeer (s := { s.setPeer q with balanceInfo := _ }) (hset ▸ hp)

theorem Keyed.removePeer (h : Keyed s) (hp : p.id = id) (hstep : removePeer s p = some s') :
    Keyed s' ∧ ∀ i, s'.group i = if i = id then none else s.group i := by
  obtain ⟨m, hm, rfl⟩ := Option.map_eq_some_iff.mp hstep
  have hpeers : m.peers = s.peers := by
    rw [removeFromBalanceInfo] at hm
    split at hm
    · cases hm
    · split_ifs at hm
      · exact Option.some.inj hm ▸ rfl
      · exact Option.some.inj hm ▸ rfl
  refine ⟨fun i q hq => h i q (hpeers ▸ (Ledger.of_lookup_erase hq).2), fun i => ?_⟩
  change ((m.peers.erase p.id).lookup i).map Peer.gid = _
  rw [hpeers, hp, Ledger.lookup_erase_ite]
  split_ifs
  · rfl
  · rfl

/-- The groups after an event. -/
def Balancer.groupAfter (s : Balancer) : Event → ID32 → Option ID32
  | .connect gid, i => if i = s.requestCounter then some gid else s.group i
  | .remove id, i => if i = id then none else s.group i
  | _, i => s.group i

theorem Keyed.shutdown (h : Keyed s) :
    Keyed ((s.peers.lookup id).elim s (sendShutdownMessageToPeer s)) ∧
      ((s.peers.lookup id).elim s (sendShutdownMessageToPeer s)).group = s.group := by
  cases hp : s.peers.lookup id with
  | none => exact ⟨h, rfl⟩
  | some p =>
    obtain rfl := h id p hp
    exact ⟨h.setPeer, group_setPeer (by rw [Balancer.group, hp, Option.map_some])⟩

/-- **Who is there, and in which group**, after an event. -/
theorem Keyed.step (h : Keyed s) (hstep : step s e = some s') :
    Keyed s' ∧ s'.group = s.groupAfter e := by
  have hgroup {id : ID32} {p : Peer} (hp : s.peers.lookup id = some p) :
      s.group p.id = some p.gid := by
    rw [h id p hp, Balancer.group, hp, Option.map_some]
  cases e with
  | connect gid =>
    obtain rfl := Option.some.inj hstep
    refine ⟨Ledger.forall_lookup_insert h rfl, funext fun i => ?_⟩
    rw [Balancer.groupAfter, Balancer.group, addPeer, Ledger.lookup_insert_ite]
    split_ifs
    · rfl
    · rfl
  | deviceId id di loadInfo =>
    refine Run.of_elim_eq_some (P := fun b => Keyed b ∧ b.group = s.group) ⟨h, rfl⟩ hstep
      fun p hp hstep => ?_
    have hgid := hgroup hp
    cases di with
    | none => exact Option.some.inj hstep ▸ ⟨h.setPeer, group_setPeer hgid⟩
    | some di =>
      let q : Peer := { p with loadInfo := loadInfo }
      have hset : (s.setPeer q).group = s.group := group_setPeer hgid
      rw [handleLinkPeerDeviceId] at hstep
      split_ifs at hstep
      · exact Option.some.inj hstep ▸ ⟨h.setPeer, hset⟩
      · obtain ⟨hkeyed, hsame⟩ :=
          h.setPeer.acceptConnectionWithBalancing (hset ▸ hgid) hstep
        exact ⟨hkeyed, hsame.trans hset⟩
  | peerVerified id di =>
    exact Run.of_elim_eq_some (P := fun b => Keyed b ∧ b.group = s.group) ⟨h, rfl⟩ hstep
      fun p hp hstep => h.acceptConnectionWithBalancing (hgroup hp) hstep
  | peerNotVerified id => exact Option.some.inj hstep ▸ h.shutdown
  | shutdown id => exact Option.some.inj hstep ▸ h.shutdown
  | remove id =>
    cases hp : s.peers.lookup id with
    | none =>
      have hstep' : (s.peers.lookup id).elim (some s) (Link.removePeer s) = some s' := hstep
      rw [hp] at hstep'
      refine Option.some.inj hstep' ▸ ⟨h, funext fun i => ?_⟩
      rw [Balancer.groupAfter]
      split_ifs with hi
      · rw [hi, Balancer.group, hp, Option.map_none]
      · rfl
    | some p =>
      have hstep' : (s.peers.lookup id).elim (some s) (Link.removePeer s) = some s' := hstep
      rw [hp] at hstep'
      obtain ⟨hkeyed, hsame⟩ := h.removePeer (h id p hp) hstep'
      exact ⟨hkeyed, funext hsame⟩

end Groups

/-! ### The law -/

/-- The peer is accepted and not told to shut down. -/
def Peer.Up (p : Peer) : Prop := p.accepted = true ∧ p.told = false

/-- **The law**, for a state. -/
structure Balanced (s : Balancer) : Prop where
  unique : ∀ i j p q, s.peers.lookup i = some p → s.peers.lookup j = some q → p.gid ≠ noGroup →
    p.gid = q.gid → p.Up → q.Up → i = j
  mapped : ∀ i p, s.peers.lookup i = some p → p.gid ≠ noGroup → p.Up →
    s.balanceInfo.lookup p.gid = some i

/-- The condition on a step: a new connection gets an id that is not in use, and the group of a peer
that goes away has a peer that stands for it. -/
def Covered (s : Balancer) : Event → Prop
  | .connect _ => s.peers.lookup s.requestCounter = none
  | .remove id => ∀ p ∈ s.peers.lookup id,
    ¬ Ledger.All (fun _ q => ¬ (q.gid = p.gid ∧ q.stands)) s.peers
  | _ => True

instance (s : Balancer) : ∀ e, Decidable (Covered s e)
  | .connect _ => inferInstanceAs (Decidable (_ = _))
  | .remove id => inferInstanceAs (Decidable (∀ p ∈ s.peers.lookup id, ¬ Ledger.All _ s.peers))
  | .deviceId _ _ _ | .peerVerified _ _ | .peerNotVerified _ | .shutdown _ => .isTrue trivial

/-! ### The invariant -/

section Invariant

variable {s s' : Balancer} {p q : Peer} {id : ID32} {di : Bytes}

/-- **The invariant**: `m_balance_info` has the peers that stand for their groups. -/
structure Inv (s : Balancer) : Prop where
  key : ∀ i p, s.peers.lookup i = some p → p.id = i
  grouped : ∀ i p, s.peers.lookup i = some p → p.stands → p.gid ≠ noGroup
  listed : ∀ g i, s.balanceInfo.lookup g = some i ↔
    ∃ p, s.peers.lookup i = some p ∧ p.gid = g ∧ p.stands
  stands : ∀ i p, s.peers.lookup i = some p → p.gid ≠ noGroup → p.Up → p.stands

theorem inv_init (strict : Bool) : Inv (.init strict) where
  key i p h := by cases h
  grouped i p h := by cases h
  listed g i := by
    constructor
    · intro h
      cases h
    · rintro ⟨p, h, -⟩
      cases h
  stands i p h := by cases h

theorem Inv.balanced (h : Inv s) : Balanced s := by
  have hmapped {i : ID32} {p : Peer} (hp : s.peers.lookup i = some p) (hgid : p.gid ≠ noGroup)
      (hup : p.Up) : s.balanceInfo.lookup p.gid = some i :=
    (h.listed _ _).mpr ⟨p, hp, rfl, h.stands i p hp hgid hup⟩
  constructor
  · intro i j p q hp hq hgid hsame hup hup'
    have hi := hmapped hp hgid hup
    rw [hsame] at hi hgid
    exact Option.some.inj (hi.symm.trans (hmapped hq hgid hup'))
  · exact fun i p hp hgid hup => hmapped hp hgid hup

/-- A peer is changed, not what stands. -/
theorem Inv.setPeer (h : Inv s) (hp : s.peers.lookup p.id = some p) (hid : q.id = p.id)
    (hgid : q.gid = p.gid) (hstands : q.stands = p.stands)
    (hup : q.gid ≠ noGroup → q.Up → q.stands) :
    Inv (s.setPeer q) := by
  have hlookup (i : ID32) : (s.setPeer q).peers.lookup i =
      if i = p.id then some q else s.peers.lookup i := by
    rw [Balancer.setPeer, hid, Ledger.lookup_insert_ite]
  constructor
  · exact Ledger.forall_lookup_insert h.key rfl
  · refine Ledger.forall_lookup_insert h.grouped fun hs => ?_
    rw [hgid]
    exact h.grouped _ p hp (hstands ▸ hs)
  · intro g i
    show s.balanceInfo.lookup g = some i ↔ _
    rw [h.listed, hlookup]
    split_ifs with hi
    · subst hi
      rw [hp]
      simp only [Option.some.injEq, exists_eq_left']
      rw [hgid, hstands]
    · rfl
  · exact Ledger.forall_lookup_insert h.stands hup

/-- Nobody stands for the group, whatever `m_balance_info` has for it. -/
structure Vacant (s : Balancer) (gid : ID32) : Prop where
  key : ∀ i p, s.peers.lookup i = some p → p.id = i
  grouped : ∀ i p, s.peers.lookup i = some p → p.stands → p.gid ≠ noGroup
  vacant : ∀ i p, s.peers.lookup i = some p → p.gid = gid → ¬ p.stands
  listed : ∀ g i, g ≠ gid → (s.balanceInfo.lookup g = some i ↔
    ∃ p, s.peers.lookup i = some p ∧ p.gid = g ∧ p.stands)
  stands : ∀ i p, s.peers.lookup i = some p → p.gid ≠ noGroup → p.Up → p.stands

/-- **The peer stands for its group** from here on. -/
theorem Vacant.acceptForGroup (h : Vacant s p.gid) (hp : s.peers.lookup p.id = some p)
    (hgid : p.gid ≠ noGroup) : Inv (acceptForGroup s p di) := by
  have hlookup (i : ID32) : (Link.acceptForGroup s p di).peers.lookup i =
      if i = p.id then some { p with stands := true, deviceId := di, accepted := true }
      else s.peers.lookup i := Ledger.lookup_insert_ite
  have hbalance (g : ID32) : (Link.acceptForGroup s p di).balanceInfo.lookup g =
      if g = p.gid then some p.id else s.balanceInfo.lookup g := Ledger.lookup_insert_ite
  constructor
  · exact Ledger.forall_lookup_insert h.key rfl
  · exact Ledger.forall_lookup_insert h.grouped fun _ => hgid
  · intro g i
    rw [hbalance, hlookup]
    split_ifs with hg hi hi
    · exact iff_of_true (congrArg some hi.symm) ⟨_, rfl, hg.symm, rfl⟩
    · refine iff_of_false (fun h => hi (Option.some.inj h).symm) ?_
      rintro ⟨r, hr, hrg, hrs⟩
      exact h.vacant i r hr (hrg.trans hg) hrs
    · refine iff_of_false (fun hlook => ?_) ?_
      · obtain ⟨r, hr, hrg, -⟩ := (h.listed g i hg).mp hlook
        rw [hi, hp] at hr
        obtain rfl := Option.some.inj hr
        exact hg hrg.symm
      · rintro ⟨r, hr, hrg, -⟩
        obtain rfl := Option.some.inj hr
        exact hg hrg.symm
    · exact h.listed g i hg
  · exact Ledger.forall_lookup_insert h.stands fun _ _ => rfl

/-- The peer that stood for its group is told to shut down: nobody stands for the group. -/
theorem Inv.vacant_shutdown (h : Inv s) (hp : s.peers.lookup p.id = some p) {gid : ID32}
    (hgid : p.gid = gid) (hlook : s.balanceInfo.lookup gid = some p.id) :
    Vacant (sendShutdownMessageToPeer s { p with stands := false }) gid := by
  subst hgid
  have hlookup (i : ID32) :
      (sendShutdownMessageToPeer s { p with stands := false }).peers.lookup i =
        if i = p.id then some { p with stands := false, deviceId := [], told := true }
        else s.peers.lookup i := Ledger.lookup_insert_ite
  constructor
  · exact Ledger.forall_lookup_insert h.key rfl
  · exact Ledger.forall_lookup_insert h.grouped fun hs => Bool.noConfusion hs
  · intro i r hr hg hs
    obtain ⟨-, rfl⟩ | ⟨hi, hr⟩ := Ledger.eq_or_of_lookup_insert hr
    · cases hs
    · refine hi (Option.some.inj ?_).symm
      exact hlook.symm.trans ((h.listed p.gid i).mpr ⟨r, hr, hg, hs⟩)
  · intro g i hg
    show s.balanceInfo.lookup g = some i ↔ _
    rw [h.listed, hlookup]
    split_ifs with hi
    · refine iff_of_false ?_ ?_
      · rintro ⟨r, hr, hrg, -⟩
        rw [hi, hp] at hr
        obtain rfl := Option.some.inj hr
        exact hg hrg.symm
      · rintro ⟨r, hr, -, hrs⟩
        obtain rfl := Option.some.inj hr
        cases hrs
    · rfl
  · exact Ledger.forall_lookup_insert h.stands fun _ hu => Bool.noConfusion hu.2

/-- **A peer is accepted**, or told to shut down. -/
theorem Inv.acceptConnection (h : Inv s) (hp : s.peers.lookup p.id = some p) :
    ∃ t, acceptConnectionWithBalancing s p di = some t ∧ Inv t := by
  rw [acceptConnectionWithBalancing]
  split_ifs with hgid
  · exact ⟨_, rfl, h.setPeer hp rfl rfl rfl fun hne => absurd hgid hne⟩
  · cases hlook : s.balanceInfo.lookup p.gid with
    | none =>
      refine ⟨_, rfl, Vacant.acceptForGroup ⟨h.key, h.grouped, fun i q hq hg hs => ?_,
        fun g i _ => h.listed g i, h.stands⟩ hp hgid⟩
      have := (h.listed p.gid i).mpr ⟨q, hq, hg, hs⟩
      rw [hlook] at this
      cases this
    | some other =>
      obtain ⟨j, hj, hjg, -⟩ := (h.listed _ _).mp hlook
      obtain rfl : j.id = other := h.key _ _ hj
      dsimp only
      rw [hj]
      dsimp only
      split_ifs with hload
      · exact ⟨_, rfl, h.setPeer hp rfl rfl rfl fun _ hup => Bool.noConfusion hup.2⟩
      · -- the peer that stood for the group is told to shut down
        have hne : p.id ≠ j.id := by
          intro hid
          rw [← hid, hp] at hj
          obtain rfl := Option.some.inj hj
          exact hload le_rfl
        have hvacant := h.vacant_shutdown hj hjg hlook
        exact ⟨_, rfl, hvacant.acceptForGroup ((AList.lookup_insert_ne hne).trans hp) hgid⟩

/-- **A peer goes away**: the entry of its group is there exactly if a peer stands for the group. -/
theorem Inv.isSome_removePeer (h : Inv s) :
    (removePeer s p).isSome ↔ ∃ i q, s.peers.lookup i = some q ∧ q.gid = p.gid ∧ q.stands := by
  rw [removePeer, removeFromBalanceInfo, Option.isSome_map]
  cases hlook : s.balanceInfo.lookup p.gid with
  | none =>
    refine iff_of_false Bool.false_ne_true ?_
    rintro ⟨i, hi⟩
    have := (h.listed p.gid i).mpr hi
    rw [hlook] at this
    cases this
  | some other =>
    refine iff_of_true ?_ ⟨other, (h.listed _ _).mp hlook⟩
    dsimp only
    split_ifs <;> rfl

theorem Inv.removePeer (h : Inv s) (hp : s.peers.lookup p.id = some p)
    (hremove : removePeer s p = some s') : Inv s' := by
  rw [Link.removePeer] at hremove
  obtain ⟨s₁, hs₁, rfl⟩ := Option.map_eq_some_iff.mp hremove
  have hs : s₁.peers = s.peers ∧ ∀ g i, s₁.balanceInfo.lookup g = some i ↔
      s.balanceInfo.lookup g = some i ∧ i ≠ p.id := by
    rw [removeFromBalanceInfo] at hs₁
    cases hlook : s.balanceInfo.lookup p.gid with
    | none =>
      rw [hlook] at hs₁
      cases hs₁
    | some other =>
      rw [hlook] at hs₁
      -- a group that has the peer is the peer's own
      have hown {g : ID32} (hg : s.balanceInfo.lookup g = some p.id) : g = p.gid := by
        obtain ⟨q, hq, hqg, -⟩ := (h.listed _ _).mp hg
        rw [hp] at hq
        obtain rfl := Option.some.inj hq
        exact hqg.symm
      dsimp only at hs₁
      split_ifs at hs₁ with hother
      · obtain rfl := Option.some.inj hs₁
        refine ⟨rfl, fun g i => ?_⟩
        show (s.balanceInfo.erase p.gid).lookup g = some i ↔ _
        rw [Ledger.lookup_erase_ite]
        split_ifs with hg
        · refine iff_of_false (fun h => by cases h) ?_
          rintro ⟨hi, hne⟩
          rw [hg, hlook] at hi
          exact hne ((Option.some.inj hi).symm.trans hother)
        · refine ⟨fun hi => ⟨hi, ?_⟩, And.left⟩
          rintro rfl
          exact hg (hown hi)
      · obtain rfl := Option.some.inj hs₁
        refine ⟨rfl, fun g i => ⟨fun hi => ⟨hi, ?_⟩, And.left⟩⟩
        rintro rfl
        rw [hown hi, hlook] at hi
        exact hother (Option.some.inj hi)
  have hold {i : ID32} {q : Peer} (hq : (s₁.peers.erase p.id).lookup i = some q) :
      i ≠ p.id ∧ s.peers.lookup i = some q := hs.1 ▸ Ledger.of_lookup_erase hq
  refine ⟨fun i q hq => h.key i q (hold hq).2, fun i q hq => h.grouped i q (hold hq).2,
    fun g i => ?_, fun i q hq => h.stands i q (hold hq).2⟩
  show s₁.balanceInfo.lookup g = some i ↔ ∃ q, (s₁.peers.erase p.id).lookup i = some q ∧ _
  rw [hs.2, h.listed]
  constructor
  · rintro ⟨⟨q, hq, hqg⟩, hi⟩
    exact ⟨q, (AList.lookup_erase_ne hi).trans (hs.1 ▸ hq), hqg⟩
  · rintro ⟨q, hq, hqg⟩
    obtain ⟨hi, hq⟩ := hold hq
    exact ⟨⟨q, hq, hqg⟩, hi⟩

/-! ### Every run -/

/-- A new connection. -/
theorem Inv.addPeer (h : Inv s) {gid : ID32} (hfree : s.peers.lookup s.requestCounter = none) :
    Inv (addPeer s gid) := by
  have hlookup (i : ID32) : (Link.addPeer s gid).peers.lookup i =
      if i = s.requestCounter then some ⟨s.requestCounter, gid, [], 0, false, false, false⟩
      else s.peers.lookup i := Ledger.lookup_insert_ite
  constructor
  · exact Ledger.forall_lookup_insert h.key rfl
  · exact Ledger.forall_lookup_insert h.grouped fun hs => Bool.noConfusion hs
  · intro g i
    show s.balanceInfo.lookup g = some i ↔ _
    rw [h.listed, hlookup]
    split_ifs with hi
    · rw [hi, hfree]
      refine iff_of_false ?_ ?_
      · rintro ⟨r, hr, -⟩
        cases hr
      · rintro ⟨r, hr, -, hs⟩
        obtain rfl := Option.some.inj hr
        cases hs
    · rfl
  · exact Ledger.forall_lookup_insert h.stands fun _ hu => Bool.noConfusion hu.1

theorem Inv.shutdown (h : Inv s) (hp : s.peers.lookup p.id = some p) :
    Inv (sendShutdownMessageToPeer s p) :=
  h.setPeer hp rfl rfl rfl fun _ hup => Bool.noConfusion hup.2

/-- **Step lemma.** A covered step is taken. -/
theorem inv_step {e : Event} (h : Inv s) (hcovered : Covered s e) :
    ∃ t, step s e = some t ∧ Inv t := by
  have hfind {id : ID32} {p : Peer} (hp : s.peers.lookup id = some p) :
      s.peers.lookup p.id = some p := (h.key id p hp).symm ▸ hp
  cases e with
  | connect gid => exact ⟨_, rfl, h.addPeer hcovered⟩
  | deviceId id di loadInfo =>
    rw [step]
    cases hp : s.peers.lookup id with
    | none => exact ⟨s, rfl, h⟩
    | some p =>
      rw [Option.elim_some]
      cases di with
      | none => exact ⟨_, rfl, h.shutdown (hfind hp)⟩
      | some di =>
        rw [handleLinkPeerDeviceId]
        obtain ⟨q, hq⟩ : ∃ q : Peer, q = { p with loadInfo := loadInfo } := ⟨_, rfl⟩
        have hset : Inv (s.setPeer q) := by
          refine h.setPeer (hfind hp) (by rw [hq]) (by rw [hq]) (by rw [hq]) fun hg hu => ?_
          rw [hq] at hg hu ⊢
          exact h.stands id p hp hg hu
        rw [← hq]
        split_ifs
        · exact ⟨_, rfl, hset⟩
        · exact hset.acceptConnection (AList.lookup_insert _)
  | peerVerified id di =>
    rw [step]
    cases hp : s.peers.lookup id with
    | none => exact ⟨s, rfl, h⟩
    | some p => exact h.acceptConnection (hfind hp)
  | peerNotVerified id =>
    rw [step]
    cases hp : s.peers.lookup id with
    | none => exact ⟨s, rfl, h⟩
    | some p => exact ⟨_, rfl, h.shutdown (hfind hp)⟩
  | shutdown id =>
    rw [step]
    cases hp : s.peers.lookup id with
    | none => exact ⟨s, rfl, h⟩
    | some p => exact ⟨_, rfl, h.shutdown (hfind hp)⟩
  | remove id =>
    rw [step]
    cases hp : s.peers.lookup id with
    | none => exact ⟨s, rfl, h⟩
    | some p =>
      have hstands : ∃ i q, s.peers.lookup i = some q ∧ q.gid = p.gid ∧ q.stands := by
        have hnot := hcovered p hp
        rw [Ledger.all_iff] at hnot
        push Not at hnot
        exact hnot
      obtain ⟨t, ht⟩ := Option.isSome_iff_exists.mp (h.isSome_removePeer.mpr hstands)
      exact ⟨t, ht, h.removePeer (hfind hp) ht⟩

/-- A new connection gets an id that is not in use. -/
def Event.Free (s : Balancer) (e : Event) : Prop :=
  ∀ gid, e = .connect gid → s.peers.lookup s.requestCounter = none

/-- A step that was taken keeps the invariant when new connections get unused ids: the entry that is
read when a peer goes away was there. -/
theorem Inv.of_step {e : Event} (h : Inv s) (hfree : e.Free s) (hstep : step s e = some s') :
    Inv s' := by
  have hcovered : Covered s e := by
    cases e with
    | connect gid => exact hfree gid rfl
    | remove id =>
      intro p hp
      have hstep' : (s.peers.lookup id).elim (some s) (Link.removePeer s) = some s' := hstep
      rw [hp] at hstep'
      have hsome : (Link.removePeer s p).isSome := Option.isSome_of_mem hstep'
      obtain ⟨i, q, hq, hboth⟩ := h.isSome_removePeer.mp hsome
      exact fun hall => Ledger.all_iff.mp hall i q hq hboth
    | deviceId id di loadInfo => trivial
    | peerVerified id di => trivial
    | peerNotVerified id => trivial
    | shutdown id => trivial
  obtain ⟨t, ht, hinv⟩ := inv_step h hcovered
  exact Option.some.inj (ht.symm.trans hstep) ▸ hinv

/-- `m_balance_info` has no entry for those without a group. -/
theorem Inv.balanceInfo_noGroup (h : Inv s) : s.balanceInfo.lookup noGroup = none := by
  refine Option.eq_none_iff_forall_ne_some.mpr fun i hi => ?_
  obtain ⟨p, hp, hgid, hstands⟩ := (h.listed noGroup i).mp hi
  exact h.grouped i p hp hstands hgid

/-- **Connections are balanced** along every run in which a peer that goes away belongs to a group
with a peer that stands for it. -/
theorem balanced_run (strict : Bool) (es : List Event)
    (hcovered : Run.Along step Covered (.init strict) es) :
    ∃ s, Run.run step (.init strict) es = some s ∧ Balanced s := by
  have hsome : (Run.run step (.init strict) es).isSome := by
    refine Run.isSome_of_along Inv (fun s e h hok => ?_) (inv_init strict) hcovered
    exact inv_step h hok
  obtain ⟨s, hs⟩ := Option.isSome_iff_exists.mp hsome
  refine ⟨s, hs, (Run.invariant_of_run Inv (fun s e t h hok ht => ?_) (inv_init strict) hcovered
    hs).balanced⟩
  obtain ⟨t', ht', hinv⟩ := inv_step h hok
  exact Option.some.inj (ht.symm.trans ht') ▸ hinv

/-- Two connections of a group. The second one is less loaded and replaces the first one. -/
def replacing : List Event :=
  [.connect 7, .deviceId requestLowerBound (some [1]) 5, .connect 7,
    .deviceId (requestLowerBound + 1) (some [2]) 3]

/-- The first one goes away while the second one stands. -/
theorem balanced_replacing : ∃ s, Run.run step (.init false)
    (replacing ++ [.remove requestLowerBound]) = some s ∧ Balanced s :=
  balanced_run false (replacing ++ [.remove requestLowerBound]) (by decide)

/-- **A peer without a group goes away.** -/
theorem not_balanced : ¬ ∀ (strict : Bool) (es : List Event),
    ∃ s, Run.run step (.init strict) es = some s ∧ Balanced s := by
  intro h
  obtain ⟨s, hs, -⟩ := h false [.connect noGroup, .remove requestLowerBound]
  have hnone : Run.run step (.init false) [.connect noGroup, .remove requestLowerBound] = none :=
    rfl
  rw [hnone] at hs
  cases hs

end Invariant

end Link

end Metax
