import Metax.Backup.JournalText
import Metax.Sync.Session

/-!
# Nodes that pull from each other

Each node has a device json, the synchronization part of the kernel, and what its link knows of its
peers: the time something was last received from a connected one, and the time each peer was last
seen. A node that is connected to a peer pulls from it: it asks for the journal since that time,
compares it with its json and requests the uuids it lacks.

A session lies between two nodes: the journal is on its way, then names are still to be answered and
messages are on their way, and then it is finished. What the source held when it made the journal is
kept along, to say what the session should achieve. Sessions overlap with each other and with
everything else that happens at the nodes.

What the storages hold is not part of this: the request of a node that pulls only what it stores may
have any message, and a source may answer with any data.
-/

namespace Metax

namespace Sync

open Ledger (Table)

/-- What the link knows of a connected peer. -/
structure LinkPeer where
  lastReceivedTime : Int64
  isSyncFinished : Bool
  deriving DecidableEq

/-- A node: its json, its kernel, the connected peers, and the times in `m_peers_rating`. -/
structure Replica (N : Type) where
  backup : Backup.State
  kernel : State
  peers : Table N LinkPeer
  peersRating : Table N UInt64

/-- How far a session has come. -/
inductive Phase
  | journal (text : Text)
  | transfer (asked : List Text) (inFlight : List UuidMessage)
  | finished
  deriving DecidableEq

/-- A session: the node that is pulled from, what it held at the start, and how far it has come. -/
structure Session (N : Type) where
  source : N
  held : Table UUID Backup.Entry
  phase : Phase

/-- The nodes and the open sessions, each under the node that pulls and its request. -/
structure Cluster (N : Type) where
  nodes : N → Replica N
  sessions : Table (N × ID32) (Session N)

/-- What happens: a node saves or deletes a uuid, a link comes up, carries something or goes down,
or a session goes on. -/
inductive ClusterEvent (N : Type)
  | save (n : N) (uuid : UUID) (version : UInt32) (isDeleted : Bool)
      (lastUpdated expireDate : UInt64)
  | del (n : N) (uuid : UUID) (version : UInt32) (lastUpdated : UInt64) (now : Int64)
  | connect (n peer : N) (now : Int64)
  | received (n peer : N) (now : Int64)
  | disconnect (n peer : N)
  | start (n source : N) (requestId : ID32) (message : Option Text) (now : Int64)
  | compare (key : N × ID32) (now : Int64)
  | answer (key : N × ID32) (name : Text) (data : Package)
  | receive (key : N × ID32) (m : UuidMessage)
  | finish (key : N × ID32)
  | fail (key : N × ID32)

namespace Output

/-- The names that are requested. -/
def requested : Output → List Text
  | routerSendUuids _ names => names
  | _ => []

end Output

/-- What the backup task sends about a uuid. -/
def uuidMessage : Backup.Message → Option UuidMessage
  | .getUuid _ uuid data version lastUpdated expireDate =>
    some ⟨uuid, data, version, lastUpdated, expireDate⟩
  | _ => none

/-- Three days in microseconds. -/
def threeDays : Int64 := 259200000000

/-- `get_peer_last_seen`, for the member "last_seen" of a peer. -/
def getPeerLastSeen (lastSeen : Option UInt64) (now : Int64) : UInt64 :=
  match lastSeen with
  | some t => t
  | none => (now - threeDays).toUInt64

namespace Replica

variable {N : Type} [DecidableEq N] (r : Replica N)

/-- A node that starts without files. -/
def fresh (syncClass : UInt32) : Replica N where
  backup := .fresh
  kernel := ⟨∅, ∅, 9, false, syncClass, []⟩
  peers := ∅
  peersRating := ∅

/-- `update_peer_last_seen`. -/
def updatePeerLastSeen (peer : N) : Replica N :=
  match r.peers.lookup peer with
  | none => r
  | some p =>
    if p.isSyncFinished then
      { r with peersRating := r.peersRating.insert peer p.lastReceivedTime.toUInt64 }
    else r

/-- `last_received_time.update ()`. -/
def updateLastReceivedTime (peer : N) (now : Int64) : Replica N :=
  match r.peers.lookup peer with
  | none => r
  | some p => { r with peers := r.peers.insert peer { p with lastReceivedTime := now } }

/-- `process_router_sync_started_request` and `process_router_sync_finished_request`. -/
def setSyncFinished (peer : N) (isSyncFinished : Bool) : Replica N :=
  match r.peers.lookup peer with
  | none => r
  | some p => { r with peers := r.peers.insert peer { p with isSyncFinished := isSyncFinished } }

/-- What the kernel sends is entered into the json, where it belongs there. -/
def enter (backup : Backup.State) (out : List Output) : Backup.State :=
  (out.filterMap Output.journaled).foldl
    (fun b j => b.handleAddInDeviceJson j.1 j.2.1 false j.2.2.1 j.2.2.2) backup

/-- The kernel handles an input. -/
def kernelStep (e : Event) : Option (Replica N × List Output) :=
  (State.step { r.kernel with out := [] } e).map fun k =>
    ({ r with kernel := k, backup := enter r.backup k.out }, k.out)

/-- The backup task compares a journal, and names the uuids to request. -/
def compareJournal (L : Backup.Libs) (requestId : ID32) (text : Text) (now : Int64) :
    Option (Replica N × Table Text Char) := do
  let b ← r.backup.handleKernelGetJournalInfo L requestId r.kernel.syncClass text now
  match b.out.getLast? with
  | some (.sendUuids _ names) => some ({ r with backup := b }, names)
  | _ => none

end Replica

namespace Cluster

variable {N : Type} [DecidableEq N] (L : Backup.Libs) (c : Cluster N)

/-- Nodes without open sessions. -/
def init (nodes : N → Replica N) : Cluster N := ⟨nodes, ∅⟩

/-- A node changes. -/
def setNode (n : N) (r : Replica N) : Cluster N := { c with nodes := Function.update c.nodes n r }

/-- A session goes on. -/
def setSession (key : N × ID32) (x : Session N) : Cluster N :=
  { c with sessions := c.sessions.insert key x }

/-- A session ends, and the link is told. -/
def closeSession (key : N × ID32) (x : Session N) : Cluster N :=
  { c.setNode key.1 ((c.nodes key.1).setSyncFinished x.source true) with
    sessions := c.sessions.erase key }

/-- A node that is connected to a peer asks for its journal. A node of class 1 asks for all, any
other one for the uuids it stores. -/
def start (n source : N) (requestId : ID32) (message : Option Text) (now : Int64) :
    Option (Cluster N) :=
  let r := c.nodes n
  if (c.sessions.lookup (n, requestId)).isNone ∧ source ∈ r.peers ∧
      (message.isNone ↔ r.kernel.syncClass = 1) then
    let lastSeen := getPeerLastSeen (r.peersRating.lookup source) now
    let s := c.nodes source
    let backup := s.backup.handleKernelSendJournalInfo L requestId lastSeen.toInt64 message
    match backup.out.getLast? with
    | some (.getJournalInfo _ text) =>
      some ((c.setNode source { s with backup := backup }).setSession (n, requestId)
        ⟨source, s.backup.storageData, .journal text⟩)
    | _ => none
  else none

/-- A journal arrives. Without a text there is nothing to compare. -/
def compare (key : N × ID32) (now : Int64) : Option (Cluster N) := do
  let x ← c.sessions.lookup key
  match x.phase with
  | .journal text =>
    if text = [] then
      let (r, _) ← (c.nodes key.1).kernelStep (.routerJournalInfo key.2 none)
      some ((c.setNode key.1 r).setSession key { x with phase := .finished })
    else
      let (r, _) ← (c.nodes key.1).kernelStep (.routerJournalInfo key.2 (some text))
      let (r, names) ← r.compareJournal L key.2 text now
      let (r, out) ← r.kernelStep (.backupSendUuids key.2 names)
      if .routerSyncFinished key.2 ∈ out then
        some ((c.setNode key.1 r).setSession key { x with phase := .finished })
      else
        some ((c.setNode key.1 (r.setSyncFinished x.source false)).setSession key
          { x with phase := .transfer (out.flatMap Output.requested) [] })
  | _ => none

/-- The source answers a name with what its storage has. -/
def answer (key : N × ID32) (name : Text) (data : Package) : Option (Cluster N) := do
  let x ← c.sessions.lookup key
  match x.phase with
  | .transfer asked inFlight =>
    if name ∈ asked then
      let uuid ← L.parseUuid name
      let s := c.nodes x.source
      let backup := s.backup.handleStorageGetUuid key.2 uuid data
      let sent := (backup.out.drop s.backup.out.length).filterMap uuidMessage
      some ((c.setNode x.source { s with backup := backup }).setSession key
        { x with phase := .transfer (asked.erase name) (inFlight ++ sent) })
    else none
  | _ => none

/-- A message arrives. -/
def receive (key : N × ID32) (m : UuidMessage) : Option (Cluster N) := do
  let x ← c.sessions.lookup key
  match x.phase with
  | .transfer asked inFlight =>
    if m ∈ inFlight then
      let (r, out) ← (c.nodes key.1).kernelStep (.routerGetUuid key.2 m)
      let phase := if .routerSyncFinished key.2 ∈ out then .finished
        else .transfer asked (inFlight.erase m)
      some ((c.setNode key.1 r).setSession key { x with phase := phase })
    else none
  | _ => none

/-- The router takes note that a session is finished. -/
def finish (key : N × ID32) : Option (Cluster N) := do
  let x ← c.sessions.lookup key
  match x.phase with
  | .finished => some (c.closeSession key x)
  | _ => none

/-- The router gives a session up. -/
def fail (key : N × ID32) : Option (Cluster N) := do
  let x ← c.sessions.lookup key
  let (r, _) ← (c.nodes key.1).kernelStep (.routerFailed key.2)
  some ((c.setNode key.1 r).closeSession key x)

/-- One event. -/
def step : ClusterEvent N → Option (Cluster N)
  | .save n uuid version isDeleted lastUpdated expireDate =>
    let r := c.nodes n
    some (c.setNode n { r with
      backup := r.backup.handleAddInDeviceJson uuid version isDeleted lastUpdated expireDate })
  | .del n uuid version lastUpdated now =>
    let r := c.nodes n
    some (c.setNode n { r with
      backup := r.backup.handleKernelDeleteFromDeviceJson uuid version lastUpdated now })
  | .connect n peer now =>
    let r := c.nodes n
    some (c.setNode n { r with peers := r.peers.insert peer ⟨now, true⟩ })
  | .received n peer now => some (c.setNode n ((c.nodes n).updateLastReceivedTime peer now))
  | .disconnect n peer =>
    let r := (c.nodes n).updatePeerLastSeen peer
    some (c.setNode n { r with peers := r.peers.erase peer })
  | .start n source requestId message now => c.start L n source requestId message now
  | .compare key now => c.compare L key now
  | .answer key name data => c.answer L key name data
  | .receive key m => c.receive key m
  | .finish key => c.finish key
  | .fail key => c.fail key

end Cluster

end Sync

end Metax
