import Metax.KeyManager.Task
import Metax.Library.Hex
import Metax.Library.History
import Metax.Link.Balancing

/-!
# Trusted peers

With strict verification a peer that sends its device id is accepted only after the configuration
manager has looked the device up among the trusted peers: the link asks, the answer comes back on a
channel of its own, and whatever the peers send goes on in between. The first user key a device
comes with is kept for it, in memory and in the file of the trusted peers, from which the memory is
read again at the next start.

A `Node` is the link, as far as it accepts peers and passes their data on to the router, the
trusted peers of the configuration manager, and the two channels between them. Its log says what
has happened, the newest first. JSON and MD5 are parameters.
-/

namespace Metax

namespace Trust

open Ledger (Table)

/-- `Poco::DigestEngine::Digest`. -/
abbrev Digest := Bytes

/-- `peer_info`. -/
structure PeerInfo where
  deviceKey : Text
  userKey : Text
  deriving DecidableEq

/-- An object of the file. A key may be missing. -/
structure PeerJson where
  deviceKey : Option Text
  userKey : Option Text

/-- The third-party code: `stringify` writes an object of objects, `parse` reads it. What is no
object there is `none`. -/
structure Codec where
  md5 : Text → Digest
  stringify : List (Text × PeerInfo) → Text
  parse : Text → Option (List (Text × Option PeerJson))
  isText : Text → Bool

/-- `m_trusted_peers`. -/
abbrev TrustedPeers := Table Digest PeerInfo

/-! ### The file -/

/-- An object of the file, with all its keys. -/
def PeerInfo.toJson (p : PeerInfo) : PeerJson := ⟨some p.deviceKey, some p.userKey⟩

/-- `get_trusted_peer_list`, before it is made a text. -/
def entries (t : TrustedPeers) : List (Text × PeerInfo) :=
  t.entries.map fun e => (Hex.encode e.1, e.2)

/-- `get_trusted_peer_list`. -/
def getTrustedPeerList (codec : Codec) (t : TrustedPeers) : Text := codec.stringify (entries t)

/-- The loop body of `get_trusted_peers_json_path`. A value that is no object and a name that is no
digest are skipped. The entry is made before its keys are read. -/
def readPeer (t : TrustedPeers) (e : Text × Option PeerJson) : TrustedPeers :=
  match e.2, Hex.decode e.1 with
  | some p, some d =>
    let old := (t.lookup d).getD ⟨[], []⟩
    match p.deviceKey, p.userKey with
    | none, _ => t.insert d old
    | some dk, none => t.insert d ⟨dk, old.userKey⟩
    | some dk, some uk => t.insert d ⟨dk, uk⟩
  | _, _ => t

/-- `get_trusted_peers_json_path`: no peers if there is no file or it is no JSON. -/
def readTrustedPeers (codec : Codec) (file : Option Text) : TrustedPeers :=
  ((file.bind codec.parse).getD []).foldl readPeer ∅

/-- A device is added without a user key. One that is there stays as it is. -/
def addPeer (t : TrustedPeers) (d : Digest) (deviceKey : Text) : TrustedPeers :=
  match t.lookup d with
  | none => t.insert d ⟨deviceKey, []⟩
  | some _ => t

/-! ### The node -/

/-- `verify_peer`, from the link. -/
structure VerifyRequest where
  peer : ID32
  deviceId : Digest
  publicKey : Text
  deriving DecidableEq

/-- `peer_verified` or `peer_not_verified`, to the link. -/
structure VerifyResponse where
  peer : ID32
  deviceId : Digest
  verified : Bool
  deriving DecidableEq

/-- What has happened: a connection was made; the link has asked about a device and its user key;
the configuration manager has verified them, or not; somebody has removed a device; the router was
told that a device is there, or was given data of it. -/
inductive Entry
  | opened (peer : ID32)
  | asked (peer : ID32) (deviceId : Digest) (publicKey : Text)
  | verified (peer : ID32) (deviceId : Digest) (publicKey : Text)
  | notVerified (peer : ID32) (deviceId : Digest) (publicKey : Text)
  | removed (deviceId : Digest)
  | connected (peer : ID32) (deviceId : Digest) (publicKey : Text)
  | received (peer : ID32) (deviceId : Digest) (data : Bytes)
  deriving DecidableEq

/-- The link and the configuration manager. `publicKeys` is the field `public_key` of each
`peer_io`, and `file` what the file of the trusted peers has. -/
structure Node where
  link : Link.Balancer
  publicKeys : Table ID32 Text
  trusted : TrustedPeers
  file : Option Text
  toConfig : List VerifyRequest
  toLink : List VerifyResponse
  log : List Entry

/-- The node at its start. -/
def Node.init (codec : Codec) (strict : Bool) (file : Option Text) : Node where
  link := .init strict
  publicKeys := ∅
  trusted := readTrustedPeers codec file
  file := file
  toConfig := []
  toLink := []
  log := []

/-- What becomes of a write: the file cannot be opened, everything is written, or only the beginning
is, which nobody looks at. -/
inductive Write
  | refused
  | whole
  | short (n : ℕ)
  deriving DecidableEq

/-- What can happen: a connection is made or goes away; the peer sends its device id or data, or is
told to shut down for some other reason; the configuration manager or the link reads its channel;
a trusted peer is added or removed; the program starts again. -/
inductive Event
  | connect (gid : ID32)
  | deviceId (peer : ID32) (di : Option Digest) (publicKey : Text) (loadInfo : ℕ)
  | data (peer : ID32) (data : Bytes)
  | shutdown (peer : ID32)
  | remove (peer : ID32)
  | readConfig (w : Write)
  | readLink
  | addPeer (message : Text) (w : Write)
  | removePeer (message : Text) (w : Write)
  | restart

namespace Node

variable (codec : Codec) (s : Node)

/-- Writes an entry. -/
def write (e : Entry) : Node := { s with log := e :: s.log }

/-- The link makes a step of its own. -/
def linkStep (e : Link.Event) : Option Node :=
  (Link.step s.link e).map fun link => { s with link := link }

/-- Writes `get_trusted_peer_list` to the file. -/
def writeFile (w : Write) : Node :=
  match w with
  | .refused => s
  | .whole => { s with file := some (getTrustedPeerList codec s.trusted) }
  | .short n => { s with file := some ((getTrustedPeerList codec s.trusted).take n) }

/-! ### The link -/

/-- `add_peer`. -/
def connect (gid : ID32) : Option Node :=
  (s.linkStep (.connect gid)).map fun t =>
    { t with publicKeys := t.publicKeys.insert s.link.requestCounter [] }.write
      (.opened s.link.requestCounter)

/-- The end of `accept_connection_with_balancing`: `send_notification_to_router`, which says nothing
of a peer without a device id. -/
def notify (peer : ID32) : Node :=
  match s.link.peers.lookup peer with
  | none => s
  | some p => if p.deviceId = [] then s
    else s.write (.connected peer p.deviceId ((s.publicKeys.lookup peer).getD []))

/-- `send_verify_peer_request`. -/
def sendVerifyPeerRequest (r : VerifyRequest) : Node :=
  { s with toConfig := s.toConfig ++ [r] }.write (.asked r.peer r.deviceId r.publicKey)

/-- `handle_link_peer_device_id`. -/
def handleLinkPeerDeviceId (peer : ID32) (di : Option Digest) (publicKey : Text) (loadInfo : ℕ) :
    Option Node :=
  (s.linkStep (.deviceId peer di loadInfo)).map fun t =>
    match di with
    | none => t
    | some di =>
      let t := { t with publicKeys := t.publicKeys.insert peer publicKey }
      if t.link.strict then t.sendVerifyPeerRequest ⟨peer, di, publicKey⟩ else t.notify peer

/-- `handle_router_message_of_link_peer`: data of a peer without a device id is not passed on. -/
def handleRouterMessageOfLinkPeer (peer : ID32) (p : Link.Peer) (data : Bytes) : Option Node :=
  if p.deviceId = [] then s.linkStep (.shutdown peer)
  else some (s.write (.received peer p.deviceId data))

/-- `handle_config_peer_verified` and `handle_config_peer_not_verified`. -/
def handleConfigAnswer (a : VerifyResponse) : Option Node :=
  match s.link.peers.lookup a.peer with
  | none => some s
  | some _ =>
    if a.verified then
      (s.linkStep (.peerVerified a.peer a.deviceId)).map fun t => t.notify a.peer
    else s.linkStep (.peerNotVerified a.peer)

/-! ### The configuration manager -/

/-- `send_peer_verify_response`. -/
def sendPeerVerifyResponse (r : VerifyRequest) (verified : Bool) : Node where
  link := s.link
  publicKeys := s.publicKeys
  trusted := s.trusted
  file := s.file
  toConfig := s.toConfig
  toLink := s.toLink ++ [⟨r.peer, r.deviceId, verified⟩]
  log := (if verified then .verified r.peer r.deviceId r.publicKey
    else .notVerified r.peer r.deviceId r.publicKey) :: s.log

/-- `handle_link_verify_peer_request`. -/
def handleLinkVerifyPeerRequest (r : VerifyRequest) (w : Write) : Node :=
  match s.trusted.lookup r.deviceId with
  | none => s.sendPeerVerifyResponse r false
  | some p =>
    if p.userKey = [] then
      ({ s with trusted := s.trusted.insert r.deviceId ⟨p.deviceKey, r.publicKey⟩ }.writeFile codec
        w).sendPeerVerifyResponse r true
    else s.sendPeerVerifyResponse r (r.publicKey = p.userKey)

/-- The digest of a key somebody names. -/
def digestOf (message : Text) : Digest := codec.md5 (KeyManager.trim message)

/-- `handle_kernel_add_trusted_peer`. -/
def handleKernelAddTrustedPeer (message : Text) (w : Write) : Node :=
  { s with trusted := addPeer s.trusted (digestOf codec message) (KeyManager.trim message)
    }.writeFile codec w

/-- `handle_kernel_remove_trusted_peer`. -/
def handleKernelRemoveTrustedPeer (message : Text) (w : Write) : Node :=
  ({ s with trusted := s.trusted.erase (digestOf codec message) }.writeFile codec w).write
    (.removed (digestOf codec message))

end Node

/-- **A step** of the node. A peer that is not there sends nothing. -/
def step (codec : Codec) (s : Node) : Event → Option Node
  | .connect gid => s.connect gid
  | .deviceId peer di publicKey loadInfo => (s.link.peers.lookup peer).bind fun _ =>
    s.handleLinkPeerDeviceId peer di publicKey loadInfo
  | .data peer data => (s.link.peers.lookup peer).bind fun p =>
    s.handleRouterMessageOfLinkPeer peer p data
  | .shutdown peer => s.linkStep (.shutdown peer)
  | .remove peer => s.linkStep (.remove peer)
  | .readConfig w =>
    match s.toConfig with
    | [] => none
    | r :: rs => some ({ s with toConfig := rs }.handleLinkVerifyPeerRequest codec r w)
  | .readLink =>
    match s.toLink with
    | [] => none
    | a :: as => { s with toLink := as }.handleConfigAnswer a
  | .addPeer message w => some (s.handleKernelAddTrustedPeer codec message w)
  | .removePeer message w => some (s.handleKernelRemoveTrustedPeer codec message w)
  | .restart => some { Node.init codec s.link.strict s.file with log := s.log }

end Trust

end Metax
