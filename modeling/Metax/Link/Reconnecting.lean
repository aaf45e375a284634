import Metax.Link.Connections

/-!
# Connections are made again

A connection that the link task was asked to make is in one place at any time: its socket is to be
connected, it is a peer, its thread is to be joined, or it is to be made again (`held_of_run`). So
none is forgotten and none is made twice. When the connection guard has had its turn, those that are
left to be made again are of a group that has a peer (`reconnected_of_run`).

For this the peers of the link task are those of the balancer, in their groups (`Tied`), and the
balancer has a peer wherever `m_balance_info` has an entry. A peer that goes away is looked up in
`m_balance_info`; as there, a run is over when its group has no entry.
-/

namespace Metax

namespace Connections

open Ledger (Table)
open Link (Balancer noGroup)

variable {s t : State} {e : Entry} {id : ID32} {io io' : Io} {time : ℕ} {c : Conn}
  {a : Text × ID32}

/-- The connection to an address, in a group. -/
def own (a : Text × ID32) : Conn := ⟨a.1, a.2, true⟩

/-- How many peers it has. -/
def up (a : Text × ID32) (peers : Table ID32 Io) : ℕ :=
  Ledger.total (fun _ io => if io.conn = own a then 1 else 0) peers

/-- How often a connection is somewhere. -/
def State.held (s : State) (a : Text × ID32) : ℕ :=
  s.starting.count (own a) + up a s.peers + s.removablePeers.count (own a) +
    s.myDroppedConnections.count a

/-- The event asks for the connection. -/
def asks (a : Text × ID32) (e : Event) : Bool := e = .connect a.1 a.2

/-- The group of a peer, by its connection. -/
def State.group (s : State) (id : ID32) : Option ID32 :=
  (s.peers.lookup id).map fun io => io.conn.gid

/-- **The invariant**: the balancer has the same peers in the same groups. -/
structure Tied (s : State) : Prop where
  inv : Link.Inv s.balancer
  group : s.balancer.group = s.group

/-! ### Peers -/

/-- A peer is changed. -/
theorem up_insert (h : s.peers.lookup id = some io) (hconn : io'.conn = io.conn) :
    up a (s.peers.insert id io') = up a s.peers := by
  have htotal := Ledger.total_insert (w := fun _ (x : Io) => if x.conn = own a then 1 else 0)
    (t := s.peers) (k := id) (v := io')
  rw [Ledger.weight_of_lookup h, hconn] at htotal
  exact Nat.add_right_cancel htotal

/-- The connections of an address that are up: one more, or one less. -/
theorem up_insert_of_none (h : s.peers.lookup id = none) :
    up a (s.peers.insert id io) = up a s.peers + if io.conn = own a then 1 else 0 :=
  Ledger.total_insert_of_notMem h

theorem up_erase (h : s.peers.lookup id = some io) :
    up a (s.peers.erase id) + (if io.conn = own a then 1 else 0) = up a s.peers := by
  have htotal := Ledger.total_erase (w := fun _ (x : Io) => if x.conn = own a then 1 else 0)
    (t := s.peers) (k := id)
  rwa [Ledger.weight_of_lookup h] at htotal

/-- A peer is where it is, and who it is. -/
theorem group_setPeer (h : s.peers.lookup id = some io) (hconn : io'.conn = io.conn) :
    (s.setPeer id io').group = s.group := by
  funext i
  rw [State.group, State.setPeer, Ledger.lookup_insert_ite]
  split_ifs with hi
  · rw [hi, State.group, h, Option.map_some, Option.map_some, hconn]
  · rfl

/-! ### Steps in which nothing goes anywhere -/

/-- No connection goes anywhere. -/
structure Still (s t : State) : Prop where
  starting : t.starting = s.starting
  up : ∀ a, up a t.peers = up a s.peers
  removable : t.removablePeers = s.removablePeers
  dropped : t.myDroppedConnections = s.myDroppedConnections
  group : t.group = s.group
  balancer : Link.Inv s.balancer → Link.Inv t.balancer ∧ t.balancer.group = s.balancer.group

/-- Steps that leave the connections alone can be put in sequence. -/
theorem Still.refl : Still s s := ⟨rfl, fun _ => rfl, rfl, rfl, rfl, fun h => ⟨h, rfl⟩⟩

theorem Still.trans {m : State} (h : Still s m) (h' : Still m t) : Still s t :=
  ⟨h'.starting.trans h.starting, fun a => (h'.up a).trans (h.up a), h'.removable.trans h.removable,
    h'.dropped.trans h.dropped, h'.group.trans h.group, fun hs =>
      ⟨(h'.balancer (h.balancer hs).1).1,
        (h'.balancer (h.balancer hs).1).2.trans (h.balancer hs).2⟩⟩

/-- They leave no connection over. -/
theorem Still.held (h : Still s t) (a : Text × ID32) : t.held a = s.held a := by
  rw [State.held, h.starting, h.up, h.removable, h.dropped, State.held]

/-- **And keep the invariant.** -/
theorem Still.tied (h : Still s t) (hs : Tied s) : Tied t :=
  ⟨(h.balancer hs.inv).1, (h.balancer hs.inv).2.trans (hs.group.trans h.group.symm)⟩

/-- Entries, clocks and messages. -/
theorem still_write : Still s (s.write e) := ⟨rfl, fun _ => rfl, rfl, rfl, rfl, fun h => ⟨h, rfl⟩⟩

theorem still_setPeer (h : s.peers.lookup id = some io) (hconn : io'.conn = io.conn) :
    Still s (s.setPeer id io') :=
  ⟨rfl, fun _ => up_insert h hconn, rfl, rfl, group_setPeer h hconn, fun hs => ⟨hs, rfl⟩⟩

theorem still_clock : Still s { s with clock := time } :=
  ⟨rfl, fun _ => rfl, rfl, rfl, rfl, fun h => ⟨h, rfl⟩⟩

/-- The balancer takes a step that is about the peers that are there. -/
theorem still_balance {e : Link.Event} (hconnect : ∀ gid, e ≠ .connect gid)
    (hremove : ∀ id, e ≠ .remove id) (hstep : s.balance e = some t) : Still s t := by
  obtain ⟨b, hb, rfl⟩ := Option.map_eq_some_iff.mp hstep
  refine ⟨rfl, fun _ => rfl, rfl, rfl, rfl, fun hs => ⟨?_, ?_⟩⟩
  · exact hs.of_step (fun gid he => absurd he (hconnect gid)) hb
  · rw [(Link.Keyed.step hs.key hb).2]
    cases e with
    | connect gid => exact absurd rfl (hconnect gid)
    | remove id => exact absurd rfl (hremove id)
    | deviceId id di loadInfo => rfl
    | peerVerified id di => rfl
    | peerNotVerified id => rfl
    | shutdown id => rfl

theorem still_sendShutdownMessageToPeer : Still s (s.sendShutdownMessageToPeer id) :=
  still_balance (e := .shutdown id) (fun _ he => by cases he) (fun _ he => by cases he) rfl

theorem still_keepAlivePeer : Still s (State.keepAlivePeer time s id) := by
  rw [State.keepAlivePeer]
  cases hio : s.peers.lookup id with
  | none => exact .refl
  | some io =>
    have htold : Still s ((s.sendShutdownMessageToPeer id).write (.timedOut id)) :=
      still_sendShutdownMessageToPeer.trans still_write
    dsimp only
    split_ifs
    · exact htold
    · exact still_setPeer hio rfl
    · have hset : Still s (s.setPeer id { io with pingSent := true }) := still_setPeer hio rfl
      exact hset.trans still_write
    · exact htold
    · exact .refl

theorem still_handleKeepAliveMessages : Still s (s.handleKeepAliveMessages time) := by
  rw [State.handleKeepAliveMessages]
  generalize s.peers.keys = ks
  induction ks generalizing s with
  | nil => exact .refl
  | cons k ks ih => exact still_keepAlivePeer.trans ih

theorem still_handleLinkPeerData {input : Input} (hio : s.peers.lookup id = some io)
    (hstep : s.handleLinkPeerData id io time input = some t) : Still s t := by
  have hset : Still s (s.setPeer id { io with lastReceivedTime := time, pingSent := false }) :=
    still_setPeer hio rfl
  have hm := hset.trans (still_write (e := .received id time))
  cases input with
  | empty flags =>
    rw [← Option.some.inj hstep]
    cases flags with
    | ping => exact hm.trans still_write
    | pong => exact hm
    | other => exact hm.trans still_sendShutdownMessageToPeer
  | deviceId di n =>
    exact hm.trans (still_balance (fun _ he => by cases he) (fun _ he => by cases he) hstep)
  | unknown => exact Option.some.inj hstep ▸ hm.trans still_sendShutdownMessageToPeer
  | router =>
    rw [← Option.some.inj hstep]
    split_ifs
    · exact hm
    · exact hm.trans still_sendShutdownMessageToPeer

/-! ### Counting -/

/-- Connections that wait, one less or one more. -/
theorem count_erase {l : List Conn} (h : c ∈ l) :
    (l.erase c).count (own a) + (if c = own a then 1 else 0) = l.count (own a) := by
  rw [List.count_erase]
  by_cases hc : c = own a
  · have hpos : 0 < l.count (own a) := List.count_pos_iff.mpr (hc ▸ h)
    simp only [hc, BEq.rfl, if_true]
    omega
  · simp only [hc, beq_eq_false_iff_ne.mpr hc, Bool.false_eq_true, if_false]
    omega

theorem count_append {l : List Conn} :
    (l ++ [c]).count (own a) = l.count (own a) + if c = own a then 1 else 0 := by
  simp [List.count_append, List.count_singleton]

/-- The connections of this node whose threads were joined. -/
theorem count_mine {l : List Conn} :
    ((l.filter Conn.mine).map fun c => (c.address, c.gid)).count a = l.count (own a) := by
  induction l with
  | nil => rfl
  | cons c l ih =>
    by_cases hc : c = own a
    · subst hc
      rw [List.filter_cons_of_pos (by rfl), List.map_cons, List.count_cons, List.count_cons, ih]
      simp only [own, Prod.mk.eta, BEq.rfl, if_true]
    · rw [List.count_cons_of_ne hc, ← ih]
      cases hmine : c.mine with
      | false => rw [List.filter_cons_of_neg (by rw [hmine]; decide)]
      | true =>
        rw [List.filter_cons_of_pos hmine, List.map_cons, List.count_cons_of_ne]
        rintro rfl
        exact hc (by rw [own, ← hmine])

/-- What is made again, and what is left. -/
theorem count_again {l : List (Text × ID32)} {p : Text × ID32 → Bool} :
    ((l.filter p).map own).count (own a) + (l.filter fun c => ! p c).count a = l.count a := by
  have hown : Function.Injective own := fun x y h => by
    obtain ⟨hfirst, hsecond, -⟩ := Conn.mk.inj h
    exact Prod.ext hfirst hsecond
  rw [List.count_map_of_injective _ _ hown]
  induction l with
  | nil => rfl
  | cons c l ih =>
    cases hp : p c with
    | true =>
      rw [List.filter_cons_of_pos hp, List.filter_cons_of_neg (by rw [hp]; decide),
        List.count_cons, List.count_cons, ← ih]
      omega
    | false =>
      rw [List.filter_cons_of_neg (by rw [hp]; decide), List.filter_cons_of_pos (by rw [hp]; rfl),
        List.count_cons, List.count_cons, ← ih]
      omega

/-- A new peer has an id that is not in use. -/
def Fresh (s : State) : Event → Prop
  | .start _ _ => s.peers.lookup s.balancer.requestCounter = none
  | .connect _ _ | .accept _ | .fail _ | .data _ _ _ | .verified _ _ | .notVerified _
  | .keepAlive _ | .remove _ | .clean | .reconnect => True

instance (s : State) : ∀ e, Decidable (Fresh s e)
  | .start _ _ => inferInstanceAs (Decidable (_ = _))
  | .connect _ _ | .accept _ | .fail _ | .data _ _ _ | .verified _ _ | .notVerified _
  | .keepAlive _ | .remove _ | .clean | .reconnect => .isTrue trivial

/-! ### Steps -/

/-- A connection becomes a peer. -/
theorem Tied.addPeer {n : ℕ} (h : Tied s)
    (hfresh : s.peers.lookup s.balancer.requestCounter = none) :
    Tied (s.addPeer c n) := by
  have hfree : s.balancer.peers.lookup s.balancer.requestCounter = none := by
    have hgroup := congrFun h.group s.balancer.requestCounter
    rw [State.group, hfresh, Option.map_none] at hgroup
    exact Option.map_eq_none_iff.mp hgroup
  refine ⟨h.inv.addPeer hfree, ?_⟩
  have hstep := (Link.Keyed.step (e := .connect c.gid) h.inv.key rfl).2
  refine hstep.trans (funext fun i => ?_)
  rw [Link.Balancer.groupAfter, h.group]
  change _ = ((s.peers.insert s.balancer.requestCounter ⟨c, n, false⟩).lookup i).map _
  rw [Ledger.lookup_insert_ite]
  split_ifs
  · rfl
  · rfl

/-- A peer goes away. -/
theorem Tied.removePeer (h : Tied s) (hstep : s.removePeer id io = some t) : Tied t := by
  obtain ⟨m, hm, rfl⟩ := Option.map_eq_some_iff.mp hstep
  obtain ⟨b, hb, rfl⟩ := Option.map_eq_some_iff.mp hm
  refine ⟨h.inv.of_step (fun _ he => by cases he) hb, ?_⟩
  refine (Link.Keyed.step h.inv.key hb).2.trans (funext fun i => ?_)
  rw [Link.Balancer.groupAfter, h.group]
  change _ = ((s.peers.erase id).lookup i).map _
  rw [Ledger.lookup_erase_ite]
  split_ifs
  · rfl
  · rfl

/-- **The step lemma**: the peers stay tied to the balancer, and the connections that are somewhere
change only when one is asked for. -/
theorem Tied.step {e : Event} (h : Tied s) (hfresh : Fresh s e) (hstep : step s e = some t) :
    Tied t ∧ ∀ a, t.held a = s.held a + if asks a e then 1 else 0 := by
  -- the steps that leave the connections alone
  have hstill (hquiet : Still s t) (he : ∀ x g, e ≠ .connect x g) :
      Tied t ∧ ∀ a, t.held a = s.held a + if asks a e then 1 else 0 := by
    refine ⟨hquiet.tied h, fun a => ?_⟩
    have hasks : ¬ asks a e = true := fun hasks => he a.1 a.2 (of_decide_eq_true hasks)
    rw [hquiet.held, if_neg hasks, Nat.add_zero]
  cases e with
  -- one more is to be connected
  | connect x g =>
    rw [← Option.some.inj hstep]
    refine ⟨⟨h.inv, h.group⟩, fun a => ?_⟩
    have hasks : (asks a (.connect x g) = true) ↔ Conn.mk x g true = own a := by
      rw [asks, decide_eq_true_iff, Event.connect.injEq, own, Conn.mk.injEq, eq_self, and_true]
    change (s.starting ++ [Conn.mk x g true]).count (own a) + up a s.peers +
      s.removablePeers.count (own a) + s.myDroppedConnections.count a = _
    rw [count_append, State.held]
    simp only [hasks]
    omega
  -- a peer that connects to this node is not one of the connections
  | accept x =>
    rw [← Option.some.inj hstep]
    refine ⟨⟨h.inv, h.group⟩, fun a => ?_⟩
    have hne : Conn.mk x noGroup false ≠ own a := fun heq => by cases (Conn.mk.inj heq).2.2
    change (s.starting ++ [Conn.mk x noGroup false]).count (own a) + up a s.peers +
      s.removablePeers.count (own a) + s.myDroppedConnections.count a = s.held a + 0
    rw [count_append, if_neg hne]
    rfl
  -- a connection moves: its socket was to be connected, and now it is a peer
  | start c n =>
    rw [← Option.some.inj hstep]
    split_ifs with hc
    · refine ⟨still_clock.tied (h.addPeer hfresh), fun a => ?_⟩
      have herase := count_erase (a := a) (List.contains_iff_mem.mp hc)
      have hinsert : up a (s.peers.insert s.balancer.requestCounter ⟨c, n, false⟩) =
          up a s.peers + if c = own a then 1 else 0 := up_insert_of_none hfresh
      change (s.starting.erase c).count (own a) +
        up a (s.peers.insert s.balancer.requestCounter ⟨c, n, false⟩) +
          s.removablePeers.count (own a) + s.myDroppedConnections.count a = s.held a + 0
      rw [State.held]
      omega
    · exact ⟨h, fun a => rfl⟩
  -- or the thread that tried to is to be joined
  | fail c =>
    rw [← Option.some.inj hstep]
    split_ifs with hc
    · refine ⟨⟨h.inv, h.group⟩, fun a => ?_⟩
      have herase := count_erase (a := a) (List.contains_iff_mem.mp hc.1)
      change (s.starting.erase c).count (own a) + up a s.peers +
        (s.removablePeers ++ [c]).count (own a) + s.myDroppedConnections.count a = s.held a + 0
      rw [count_append, State.held]
      omega
    · exact ⟨h, fun a => rfl⟩
  | data id n input =>
    refine hstill (Run.of_elim_eq_some .refl hstep fun io hio hstep => ?_) nofun
    obtain ⟨m, hm, rfl⟩ := Option.map_eq_some_iff.mp hstep
    exact (still_handleLinkPeerData hio hm).trans still_clock
  | verified id di =>
    exact hstill (still_balance (fun _ he => by cases he) (fun _ he => by cases he) hstep) nofun
  | notVerified id => exact hstill (Option.some.inj hstep ▸ still_sendShutdownMessageToPeer) nofun
  | keepAlive n =>
    have hlook : Still s (s.handleKeepAliveMessages n) := still_handleKeepAliveMessages
    exact hstill (Option.some.inj hstep ▸ hlook.trans still_clock) nofun
  -- a peer goes, and its thread is to be joined
  | remove id =>
    refine Run.of_elim_eq_some (P := fun t => Tied t ∧ ∀ a, t.held a = s.held a + 0)
      ⟨h, fun a => rfl⟩ hstep fun io hio hstep => ?_
    refine ⟨h.removePeer hstep, fun a => ?_⟩
    obtain ⟨m, hm, rfl⟩ := Option.map_eq_some_iff.mp hstep
    obtain ⟨b, -, rfl⟩ := Option.map_eq_some_iff.mp hm
    have herase := up_erase (a := a) hio
    change s.starting.count (own a) + up a (s.peers.erase id) +
      (s.removablePeers ++ [io.conn]).count (own a) + s.myDroppedConnections.count a = s.held a + 0
    rw [count_append, State.held]
    omega
  -- the threads are joined, and what was the node's own is to be made again
  | clean =>
    rw [← Option.some.inj hstep]
    refine ⟨⟨h.inv, h.group⟩, fun a => ?_⟩
    have hmine := count_mine (l := s.removablePeers) (a := a)
    change s.starting.count (own a) + up a s.peers + 0 + (s.myDroppedConnections ++
      (s.removablePeers.filter Conn.mine).map fun c => (c.address, c.gid)).count a = s.held a + 0
    rw [List.count_append, State.held]
    omega
  -- what is free is to be connected again, and the rest is left
  | reconnect =>
    rw [← Option.some.inj hstep]
    refine ⟨⟨h.inv, h.group⟩, fun a => ?_⟩
    have hagain := count_again (l := s.myDroppedConnections) (a := a) (p := s.isFree)
    change (s.starting ++ (s.myDroppedConnections.filter s.isFree).map own).count (own a) +
      up a s.peers + s.removablePeers.count (own a) +
        (s.myDroppedConnections.filter fun c => ! s.isFree c).count a = s.held a + 0
    rw [List.count_append, State.held]
    omega

section Runs

variable {strict : Bool} {events : List Event} {m : State}

/-- There is no connection at the start. -/
theorem tied_init : Tied (State.init strict) := ⟨Link.inv_init strict, rfl⟩

/-- The run lemma. -/
theorem tied_of_run (hrun : Run.run step (State.init strict) events = some s)
    (hfresh : Run.Along step Fresh (State.init strict) events) : Tied s :=
  Run.invariant_of_run Tied (fun _ _ _ h hok hstep => (h.step hok hstep).1) tied_init hfresh hrun

/-- **No connection is lost or made twice**: in every run in which new peers get ids that are not in
use, a connection is as often somewhere as the run has asked for it: its socket is to be connected,
it is a peer, its thread is to be joined, or it is to be made again. -/
theorem held_of_run (hrun : Run.run step (State.init strict) events = some s)
    (hfresh : Run.Along step Fresh (State.init strict) events) (a : Text × ID32) :
    s.held a = events.count (.connect a.1 a.2) := by
  have hcount : s.held a = 0 + events.countP (asks a) :=
    Run.countP_of_run Tied (State.held · a) (asks a) (fun s e t h hok hstep =>
      ⟨(h.step hok hstep).1, (h.step hok hstep).2 a⟩) tied_init hfresh hrun
  rw [hcount, Nat.zero_add, List.count]
  refine List.countP_congr fun e _ => ?_
  rw [asks, decide_eq_true_iff, beq_iff_eq]

/-- **All are made again**: when the connection guard has had its turn after such a run, every
connection is being made or is a peer as often as it was asked for, or it is left to be made again.
Then it has a group, and there is a peer of this group, the one that `m_balance_info` has. -/
theorem reconnected_of_run (hrun : Run.run step (State.init strict) events = some s)
    (hfresh : Run.Along step Fresh (State.init strict) events) (hclean : step s .clean = some m)
    (hreconnect : step m .reconnect = some t) (a : Text × ID32) :
    t.starting.count (own a) + up a t.peers + t.myDroppedConnections.count a =
        events.count (.connect a.1 a.2) ∧
      (a ∈ t.myDroppedConnections → a.2 ≠ noGroup ∧ ∃ id io, t.peers.lookup id = some io ∧
        io.conn.gid = a.2 ∧ t.balancer.balanceInfo.lookup a.2 = some id) := by
  have hs := tied_of_run hrun hfresh
  have hcount := held_of_run hrun hfresh a
  obtain ⟨hm, hheld⟩ := hs.step (e := .clean) trivial hclean
  obtain ⟨ht, hheld'⟩ := hm.step (e := .reconnect) trivial hreconnect
  obtain rfl := Option.some.inj hclean
  obtain rfl := Option.some.inj hreconnect
  refine ⟨((hheld' a).trans (hheld a)).trans hcount, fun hmem => ?_⟩
  have hleft := (List.mem_filter.mp hmem).2
  rw [State.isFree, Bool.not_eq_true', Option.isNone_eq_false_iff] at hleft
  obtain ⟨id, hid⟩ := Option.isSome_iff_exists.mp hleft
  -- the entry is of a peer that stands for the group
  obtain ⟨p, hp, hgid, -⟩ := (hs.inv.listed a.2 id).mp hid
  have hgroup := congrFun hs.group id
  rw [Link.Balancer.group, hp, Option.map_some, hgid] at hgroup
  obtain ⟨io, hio, hconn⟩ := Option.map_eq_some_iff.mp hgroup.symm
  refine ⟨fun hnone => ?_, id, io, hio, hconn, hid⟩
  cases (hnone ▸ hs.inv.balanceInfo_noGroup).symm.trans hid

/-- Three connections are asked for. Of the two in one group the first one stays and the second one
ends, and so does the one in the other group. -/
def twoDropped : List Event :=
  [.connect ['h'] 5, .start ⟨['h'], 5, true⟩ 0, .data 0x20000000 0 (.deviceId (some [7]) 0),
    .connect ['k'] 5, .start ⟨['k'], 5, true⟩ 0, .data 0x20000001 0 (.deviceId (some [8]) 3),
    .remove 0x20000001, .connect ['l'] 6, .start ⟨['l'], 6, true⟩ 0,
    .data 0x20000002 0 (.deviceId (some [9]) 0), .remove 0x20000002]

/-- The run of the witness: two connections are dropped, one is started again and the other is left
over. -/
theorem run_twoDropped : ∃ s m t, Run.run step (State.init false) twoDropped = some s ∧
    step s .clean = some m ∧ step m .reconnect = some t ∧
      Run.Along step Fresh (State.init false) twoDropped ∧ t.starting = [own (['l'], 6)] ∧
        t.myDroppedConnections = [(['k'], 5)] :=
  ⟨_, _, _, rfl, rfl, rfl, by decide, rfl, rfl⟩

theorem held_of_run_twoDropped : ∃ s, Run.run step (State.init false) twoDropped = some s ∧
    s.held (['k'], 5) = twoDropped.count (.connect ['k'] 5) := by
  obtain ⟨s, -, -, hrun, -, -, hfresh, -⟩ := run_twoDropped
  exact ⟨s, hrun, held_of_run hrun hfresh (['k'], 5)⟩

/-- The one in the group of the first is left. -/
theorem reconnected_of_run_twoDropped : ∃ t : State, t.myDroppedConnections = [(['k'], 5)] ∧
    t.starting.count (own (['k'], 5)) + up (['k'], 5) t.peers +
      t.myDroppedConnections.count (['k'], 5) = twoDropped.count (.connect ['k'] 5) ∧
        ((['k'], 5) ∈ t.myDroppedConnections → (5 : ID32) ≠ noGroup ∧ ∃ id io,
          t.peers.lookup id = some io ∧ io.conn.gid = 5 ∧
            t.balancer.balanceInfo.lookup 5 = some id) := by
  obtain ⟨s, m, t, hrun, hclean, hreconnect, hfresh, -, hleft⟩ := run_twoDropped
  exact ⟨t, hleft, reconnected_of_run hrun hfresh hclean hreconnect (['k'], 5)⟩

end Runs

end Connections

end Metax
