import Mathlib.Logic.Function.Basic
import Metax.Protocol.RoundTrip
import Metax.Router.Sending
import Metax.Router.Survival

/-!
# Networks of routers

Routers that are linked to each other exchange the packages they hand to their links. A link
sends a package to the peers it names (`send`), to all of its peers (`broadcast`) or to all but
the ones it names (`broadcast_except`). Packages in flight arrive in any order or get lost, and
every router may be given any other input at any time.

The model remembers what no router does: which nodes a message has passed, the hop limit it was
sent with, and which message a tender was opened by.
-/

namespace Metax

namespace Network

open Router

variable {N : Type}

/-- The links between the nodes, and the id under which a node knows a neighbour. -/
structure Topology (N : Type) where
  neighbours : N → List N
  peer : N → N → ID32
  symm : ∀ {n m}, m ∈ neighbours n → n ∈ neighbours m
  irrefl : ∀ n, n ∉ neighbours n
  inj : ∀ {n m m'}, m ∈ neighbours n → m' ∈ neighbours n → peer n m = peer n m' → m = m'

/-- Where a message comes from: the nodes that sent it on, the last one first, and the hop limit
of the first. -/
structure Origin (N : Type) where
  trail : List N
  limit : ℕ

/-- A message in flight. -/
structure Flight (N : Type) extends Origin N where
  src : N
  dst : N
  message : Bytes

/-- What a router was given by a message: its hop id and where it came from. -/
structure Copy (N : Type) extends Origin N where
  hop : UInt16

/-- The state of a network. A node whose router aborted is gone. -/
structure Net (N : Type) where
  nodes : N → Option State
  flights : List (Flight N)
  copies : N → UUID → Copy N
  told : List (N × KernelPackage)

/-- Nothing has happened yet. -/
def initial : Net N where
  nodes _ := some init
  flights := []
  copies _ _ := ⟨⟨[], 0⟩, 0⟩
  told := []

/-- What happens in a network. -/
inductive NetEvent (N : Type)
  /-- A message arrives; `beyond` is what lies behind its buffer. -/
  | deliver (k : ℕ) (beyond : Bytes) (fresh : RandomUUID)
  | lose (k : ℕ)
  /-- A router gets an input that is no message. -/
  | input (n : N) (e : Router.Event)

/-- The hop id of a message. -/
def hopOf (message : Bytes) : UInt16 := (RouterData.ofPackage ⟨message, []⟩).hopId

/-- The packages a step hands to the link. -/
def links (out : List Emission) : List LinkPackage :=
  out.filterMap fun m => match m with
    | .link l => some l
    | _ => none

/-- The packages a step hands to the kernel. -/
def kernels (out : List Emission) : List KernelPackage :=
  out.filterMap fun m => match m with
    | .kernel p => some p
    | _ => none

namespace Topology

variable (G : Topology N)

/-- The neighbours a link sends a package to. -/
def receivers (n : N) (l : LinkPackage) : List N :=
  match l.cmd with
  | .send => (G.neighbours n).filter fun m => G.peer n m ∈ l.peers
  | .broadcast => G.neighbours n
  | .broadcastExcept => (G.neighbours n).filter fun m => G.peer n m ∉ l.peers
  | _ => []

/-- The messages a package turns into. -/
def dispatch (n : N) (o : Origin N) (l : LinkPackage) : List (Flight N) :=
  (G.receivers n l).map fun m => ⟨o, n, m, l.message⟩

/-- A message as the router of its destination gets it. -/
def arrival (f : Flight N) (beyond : Bytes) (fresh : RandomUUID) : Router.Event :=
  .link ⟨.receivedData, {G.peer f.dst f.src}, ⟨f.message, beyond⟩⟩ fresh

end Topology

/-- A message of a peer; only deliveries give a router one. -/
def isReceived : Router.Event → Bool
  | .link inp _ => inp.cmd = .receivedData
  | _ => false

/-- An input and the router that handles it. `cause` is the message that is passed on if the
router passes one on. -/
structure Handling (N : Type) where
  node : N
  state : State
  event : Router.Event
  cause : Option (Copy N)

/-- Who handles what because of an event. -/
def handling (G : Topology N) (net : Net N) : NetEvent N → Option (Handling N)
  | .deliver k beyond fresh =>
    net.flights[k]?.bind fun f => (net.nodes f.dst).map fun s =>
      ⟨f.dst, s, G.arrival f beyond fresh, some ⟨f.toOrigin, hopOf f.message⟩⟩
  | .lose _ => none
  | .input n e =>
    if isReceived e then none
    else (net.nodes n).map fun s =>
      ⟨n, s, e, (e.refused.bind fun k => s.idTenders.lookup k).map (net.copies n)⟩

/-- The flights that are left when an event takes one. -/
def remaining (net : Net N) : NetEvent N → List (Flight N)
  | .deliver k _ _ => net.flights.eraseIdx k
  | .lose k => net.flights.eraseIdx k
  | .input _ _ => net.flights

/-- Where a package that the router sends comes from. -/
def Handling.origin (h : Handling N) (l : LinkPackage) : Origin N :=
  match h.cause with
  | some c => ⟨h.node :: c.trail, c.limit⟩
  | none => ⟨[h.node],
      if l.cmd = .broadcast then h.state.maxHops.toNat else (hopOf l.message).toNat + 1⟩

/-- The tender a message may open. -/
def Handling.opens (h : Handling N) : Option UUID :=
  if isReceived h.event ∧ h.state.tenders.lookup (h.state.message h.event).tenderId = none then
    some (h.state.message h.event).tenderId
  else none

section Step

variable [DecidableEq N]

/-- What the network remembers of the messages that open tenders. -/
def Handling.copies (h : Handling N) (c : N → UUID → Copy N) : N → UUID → Copy N :=
  match h.opens, h.cause with
  | some i, some copy => Function.update c h.node (Function.update (c h.node) i copy)
  | _, _ => c

/-- The network after a router has handled its input. -/
def Handling.react (G : Topology N) (h : Handling N) (net : Net N) : Net N :=
  match Router.step h.state h.event with
  | none => { net with nodes := Function.update net.nodes h.node none }
  | some s => {
      nodes := Function.update net.nodes h.node (some s)
      flights := net.flights ++ (links s.out).flatMap fun l => G.dispatch h.node (h.origin l) l
      copies := h.copies net.copies
      told := net.told ++ (kernels s.out).map fun p => (h.node, p) }

/-- The network after an event. -/
def next (G : Topology N) (net : Net N) (e : NetEvent N) : Net N :=
  let net' := { net with flights := remaining net e }
  match handling G net e with
  | none => net'
  | some h => h.react G net'

/-- The step function: every event is possible at any time. -/
def step (G : Topology N) (net : Net N) (e : NetEvent N) : Option (Net N) := some (next G net e)

end Step

end Network

end Metax
