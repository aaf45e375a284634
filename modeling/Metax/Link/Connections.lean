import Metax.Library.History
import Metax.Library.Text
import Metax.Link.Balancing

/-!
# The connections of the link task

Each connection is a `link_peer` with a thread of its own. One that this node was asked to make
begins by connecting its socket: when this fails it goes to `m_removable_peers`, else the link task
gets a `peer_io` for it, and when it ends later it goes to `m_removable_peers` from there. The
connection guard joins the threads of these, and the connections that this node had made go to
`m_my_dropped_connections` and are made again, unless another one of their group is there.

From time to time the link task looks whether its peers still say something. One that was silent for
`PONG_WAIT_TIME` is sent a ping, and one that is still silent at the next look is told to shut down.

Which of the peers of a group stays is left to the balancer. The times are microseconds.
-/

namespace Metax

namespace Connections

open Ledger (Table)
open Link (Balancer)

/-- A `link_peer`: where it is connected to, its group, and whether this node has made the
connection. -/
structure Conn where
  address : Text
  gid : ID32
  mine : Bool
  deriving DecidableEq

/-- `peer_io`, beside what the balancer has of it. -/
structure Io where
  conn : Conn
  lastReceivedTime : ℕ
  pingSent : Bool
  deriving DecidableEq

/-- What has happened: a peer came, said something, was sent a ping or a pong, and was told to shut
down as nothing was heard of it. -/
inductive Entry
  | added (id : ID32) (time : ℕ)
  | received (id : ID32) (time : ℕ)
  | pinged (id : ID32)
  | ponged (id : ID32)
  | timedOut (id : ID32)
  deriving DecidableEq

/-- The connections of the link task. `starting` are those whose socket is not connected yet. The
newest entry of `log` is its first, and `clock` is the time of the last look at it. -/
structure State where
  balancer : Balancer
  peers : Table ID32 Io
  starting : List Conn
  removablePeers : List Conn
  myDroppedConnections : List (Text × ID32)
  clock : ℕ
  log : List Entry

/-- The link task at its start. -/
def State.init (strict : Bool) : State := ⟨.init strict, ∅, [], [], [], 0, []⟩

/-- `PONG_WAIT_TIME`. -/
def pongWaitTime : ℕ := (30000 + 1) * 1000

/-- The flags of a package without a payload. -/
inductive Flags
  | ping
  | pong
  | other
  deriving DecidableEq

/-- A package of a peer: one without a payload, a device id, another message for the link task, or
something for the router. -/
inductive Input
  | empty (flags : Flags)
  | deviceId (di : Option Bytes) (loadInfo : ℕ)
  | unknown
  | router
  deriving DecidableEq

/-- What can happen. `start` and `fail` are of a connection whose socket is to be connected. -/
inductive Event
  | connect (address : Text) (gid : ID32)
  | accept (address : Text)
  | start (c : Conn) (time : ℕ)
  | fail (c : Conn)
  | data (id : ID32) (time : ℕ) (input : Input)
  | verified (id : ID32) (di : Bytes)
  | notVerified (id : ID32)
  | keepAlive (time : ℕ)
  | remove (id : ID32)
  | clean
  | reconnect
  deriving DecidableEq

namespace State

variable (s : State)

/-- Write an entry. -/
def write (e : Entry) : State := { s with log := e :: s.log }

/-- Write a peer back. -/
def setPeer (id : ID32) (io : Io) : State := { s with peers := s.peers.insert id io }

/-- `send_shutdown_message_to_peer`. -/
def sendShutdownMessageToPeer (id : ID32) : State :=
  { s with
    balancer := (s.balancer.peers.lookup id).elim s.balancer
      (Link.sendShutdownMessageToPeer s.balancer) }

/-- The device id of a peer is there. -/
def hasDeviceId (id : ID32) : Bool :=
  (s.balancer.peers.lookup id).any fun p => p.deviceId ≠ []

/-- `handle_connect_request`. -/
def handleConnectRequest (address : Text) (gid : ID32) : State :=
  { s with starting := s.starting ++ [⟨address, gid, true⟩] }

/-- A connection from another node. -/
def createConnection (address : Text) : State :=
  { s with starting := s.starting ++ [⟨address, Link.noGroup, false⟩] }

/-- `add_peer`. -/
def addPeer (c : Conn) (time : ℕ) : State :=
  { s with
    starting := s.starting.erase c
    balancer := Link.addPeer s.balancer c.gid
    peers := s.peers.insert s.balancer.requestCounter ⟨c, time, false⟩ }.write
      (.added s.balancer.requestCounter time)

/-- `mark_as_disconnected`. -/
def markAsDisconnected (c : Conn) : State :=
  { s with starting := s.starting.erase c, removablePeers := s.removablePeers ++ [c] }

/-- `handle_empty_data`. -/
def handleEmptyData (id : ID32) : Flags → State
  | .ping => s.write (.ponged id)
  | .pong => s
  | .other => s.sendShutdownMessageToPeer id

/-- A step of the balancer. -/
def balance (e : Link.Event) : Option State :=
  (Link.step s.balancer e).map fun b => { s with balancer := b }

/-- `handle_link_peer_data`, of a peer that is there. -/
def handleLinkPeerData (id : ID32) (io : Io) (time : ℕ) (input : Input) : Option State :=
  let t := (s.setPeer id { io with lastReceivedTime := time, pingSent := false }).write
    (.received id time)
  match input with
  | .empty flags => some (t.handleEmptyData id flags)
  | .deviceId di loadInfo => t.balance (.deviceId id di loadInfo)
  | .unknown => some (t.sendShutdownMessageToPeer id)
  | .router => some (if t.hasDeviceId id then t else t.sendShutdownMessageToPeer id)

/-- The loop body of `handle_keep_alive_messages`. -/
def keepAlivePeer (time : ℕ) (s : State) (id : ID32) : State :=
  match s.peers.lookup id with
  | none => s
  | some io =>
    if io.pingSent then
      if pongWaitTime ≤ time - io.lastReceivedTime then
        (s.sendShutdownMessageToPeer id).write (.timedOut id)
      else s.setPeer id { io with pingSent := false }
    else if pongWaitTime ≤ time - io.lastReceivedTime then
      if s.hasDeviceId id then (s.setPeer id { io with pingSent := true }).write (.pinged id)
      else (s.sendShutdownMessageToPeer id).write (.timedOut id)
    else s

/-- `handle_keep_alive_messages`, after its timer. -/
def handleKeepAliveMessages (time : ℕ) : State := s.peers.keys.foldl (keepAlivePeer time) s

/-- `remove_peer`. -/
def removePeer (id : ID32) (io : Io) : Option State :=
  (s.balance (.remove id)).map fun t =>
    { t with peers := t.peers.erase id, removablePeers := t.removablePeers ++ [io.conn] }

/-- `clean_peer_info`. -/
def cleanPeerInfo : State :=
  let mine := (s.removablePeers.filter Conn.mine).map fun c => (c.address, c.gid)
  { s with
    removablePeers := []
    myDroppedConnections := s.myDroppedConnections ++ mine }

/-- No connection of the group is there. -/
def isFree (c : Text × ID32) : Bool := (s.balancer.balanceInfo.lookup c.2).isNone

/-- `reconnect_my_dropped_connections`. -/
def reconnectMyDroppedConnections : State :=
  let again := (s.myDroppedConnections.filter s.isFree).map fun c => Conn.mk c.1 c.2 true
  { s with
    starting := s.starting ++ again
    myDroppedConnections := s.myDroppedConnections.filter fun c => ! s.isFree c }

end State

/-- **A step.** A connection that does not exist does nothing, and only one that this node makes can
fail. -/
def step (s : State) : Event → Option State
  | .connect address gid => some (s.handleConnectRequest address gid)
  | .accept address => some (s.createConnection address)
  | .start c time =>
    some (if s.starting.contains c then { s.addPeer c time with clock := time } else s)
  | .fail c => some (if s.starting.contains c ∧ c.mine then s.markAsDisconnected c else s)
  | .data id time input =>
    (s.peers.lookup id).elim (some s) fun io =>
      (s.handleLinkPeerData id io time input).map fun t => { t with clock := time }
  | .verified id di => s.balance (.peerVerified id di)
  | .notVerified id => some (s.sendShutdownMessageToPeer id)
  | .keepAlive time => some { s.handleKeepAliveMessages time with clock := time }
  | .remove id => (s.peers.lookup id).elim (some s) (s.removePeer id)
  | .clean => some s.cleanPeerInfo
  | .reconnect => some s.reconnectMyDroppedConnections

end Connections

end Metax
