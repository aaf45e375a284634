import Metax.Platform.Package
import Metax.Library.Ledger
import Metax.Library.Run

/-!
# Local listeners of a livestream

A client that gets a livestream has an id of its own, the IMS id, and the kernel a request for it.
The requests for one livestream stand in a list. The first of them is the one the router knows: it
looked the livestream up, and it has the tender. When its client leaves, the request stays and goes
on for the last client of the list, whose request goes instead. So a list of requests and a table
from requests to clients change together (`Inv`), and what comes of the livestream goes to the
clients that started and did not leave (`Lawful`), in every run.

Of the kernel there are only gets of livestreams. The storage does not have them, so a look-up ends
with a nack; what the content is made of is left out. A livestream that is hosted here has local
listeners as well, and no tender.
-/

namespace Metax

namespace LocalListeners

open Ledger (Table)

/-! ### The kernel -/

/-- `request::state`, as far as it goes here. -/
inductive Status
  | lookupInDb
  | requested
  deriving DecidableEq

/-- The commands that the request of a listener has. -/
inductive Command
  | get
  | getLivestreamContent
  deriving DecidableEq

/-- A request of the type `t_ims`. `encrypted` says that it has `aes_key` and `aes_iv`. -/
structure Request where
  uuid : UUID
  st : Status
  cmd : Command
  encrypted : Bool
  deriving DecidableEq

/-- What the kernel sends: to the storage, the router, the key manager and the clients. -/
inductive Message
  | lookUp (id : ID32) (u : UUID)
  | get (id : ID32) (u : UUID)
  | cancelLivestreamGet (id : ID32)
  | clearRequest (id : ID32)
  | prepareCipherForStream (id : ID32)
  | streamDecrypt (id : ID32) (u : UUID)
  | livestreamContent (ims : ID32)
  | getLivestreamFail (ims : ID32)
  deriving DecidableEq

/-- `m_requests`, `m_ims_req_ids` and `m_pending_ims_get_requests`; which look-ups the storage and
which gets the router have, and what the last step sent. -/
structure State where
  requests : Table ID32 Request
  imsReqIds : Table ID32 ID32
  pendingImsGetRequests : Table UUID (List ID32)
  lookUps : Table ID32 UUID
  tenders : Table ID32 UUID
  out : List Message

/-- Nobody listens so far. -/
def State.init : State := ⟨∅, ∅, ∅, ∅, ∅, []⟩

/-- What `clean_livestream_get_request_from_pendings` leaves: the request `rid` that it refers to,
and whether it was the last. -/
structure Cleaned where
  state : State
  rid : ID32
  last : Bool

namespace State

variable (hosted : UUID → Bool) (s : State)

/-- A message is sent. -/
def post (m : Message) : State := { s with out := s.out ++ [m] }

/-- `kernel::post_storage_look_up_request`. -/
def postStorageLookUpRequest (id : ID32) (u : UUID) : State :=
  { s with lookUps := s.lookUps.insert id u }.post (.lookUp id u)

/-- `kernel::process_ims_get_request`. A livestream has no streaming state. -/
def processImsGetRequest (id : ID32) (u : UUID) : State :=
  match s.pendingImsGetRequests.lookup u with
  | none =>
    let s := { s with pendingImsGetRequests := s.pendingImsGetRequests.insert u [id] }
    s.postStorageLookUpRequest id u
  | some l => { s with pendingImsGetRequests := s.pendingImsGetRequests.insert u (l ++ [id]) }

/-- `kernel::process_hosted_livestream_get_request`. -/
def processHostedLivestreamGetRequest (id : ID32) (u : UUID) : State :=
  { s with
    pendingImsGetRequests :=
      s.pendingImsGetRequests.insert u ((s.pendingImsGetRequests.lookup u).getD [] ++ [id]) }

/-- `kernel::handle_ims_get_request`. -/
def handleImsGetRequest (id ims : ID32) (u : UUID) : State :=
  let s := { s with
    imsReqIds := s.imsReqIds.insert id ims
    requests := s.requests.insert id ⟨u, .lookupInDb, .get, false⟩ }
  if hosted u then s.processHostedLivestreamGetRequest id u else s.processImsGetRequest id u

/-- `kernel::post_router_get_request`. -/
def postRouterGetRequest (id : ID32) (r : Request) : Option State :=
  if r.st = .lookupInDb then
    some <| { s with
      requests := s.requests.insert id { r with st := .requested }
      tenders := s.tenders.insert id r.uuid }.post (.get id r.uuid)
  else none

/-- `kernel::handle_storage_negative_response_for_get_req`, where the request is still there. -/
def handleStorageNack (id : ID32) : Option State :=
  (s.requests.lookup id).elim (some s) (s.postRouterGetRequest id)

/-- `kernel::handle_router_stream_auth_request`. Whether there are keys is read from the user
json. -/
def handleRouterStreamAuthRequest (id : ID32) (keys : Bool) : State :=
  match s.requests.lookup id with
  | some ⟨u, st, .get, _⟩ =>
    let s := { s with requests := s.requests.insert id ⟨u, st, .getLivestreamContent, keys⟩ }
    if keys then s.post (.prepareCipherForStream id) else s
  | _ => s

/-- Whom the content of a livestream is sent to: who has a client id, in the order of the list. -/
def recipients (u : UUID) : List ID32 :=
  ((s.pendingImsGetRequests.lookup u).getD []).filterMap s.imsReqIds.lookup

/-- `kernel::send_livestream_content_to_ims`. -/
def sendLivestreamContentToIms (u : UUID) : State :=
  { s with out := s.out ++ (s.recipients u).map .livestreamContent }

/-- `kernel::handle_router_get_livestream_content`. -/
def handleRouterGetLivestreamContent (id : ID32) : Option State :=
  (s.requests.lookup id).elim (some s) fun r =>
    if r.cmd = .getLivestreamContent then
      some (if r.encrypted then s.post (.streamDecrypt id r.uuid)
        else s.sendLivestreamContentToIms r.uuid)
    else none

/-- `kernel::process_key_manager_input` for `livestream_decrypted`. -/
def handleLivestreamDecrypted (id : ID32) (u : UUID) : State :=
  if s.requests.lookup id = none then s else s.sendLivestreamContentToIms u

/-- The requests of a list go, and their clients are told. -/
def failAll (s : State) : List ID32 → State
  | [] => s
  | i :: is =>
    failAll { s with
      imsReqIds := s.imsReqIds.erase i
      requests := s.requests.erase i
      out := s.out ++ ((s.imsReqIds.lookup i).map Message.getLivestreamFail).toList } is

/-- `kernel::send_get_livestream_fail_to_ims`. -/
def sendGetLivestreamFailToIms (u : UUID) : State :=
  (s.pendingImsGetRequests.lookup u).elim s fun l =>
    { s.failAll l with pendingImsGetRequests := s.pendingImsGetRequests.erase u }

/-- `kernel::handle_canceled_ims_request` of a livestream that the router ends. -/
def handleRouterCancel (id : ID32) : Option State :=
  (s.requests.lookup id).elim (some s) fun r =>
    if r.cmd = .getLivestreamContent then some (s.sendGetLivestreamFailToIms r.uuid) else none

/-- `kernel::clean_livestream_get_request_from_pendings`. The request of the first listener goes on
for the last one. -/
def cleanLivestreamGetRequestFromPendings (u : UUID) (rid : ID32) : Option Cleaned :=
  (s.pendingImsGetRequests.lookup u).bind fun v =>
    if rid ∉ v then none
    else if v.head? = some rid ∧ 1 < v.length then
      v.getLast?.bind fun e => (s.imsReqIds.lookup e).map fun ims =>
        ⟨{ s with
          imsReqIds := (s.imsReqIds.insert rid ims).erase e
          requests := s.requests.erase e
          pendingImsGetRequests := s.pendingImsGetRequests.insert u v.dropLast }, rid, false⟩
    else
      v.head?.map fun front =>
        ⟨{ s with
          imsReqIds := s.imsReqIds.erase rid
          requests := s.requests.erase rid
          pendingImsGetRequests :=
            if v.erase rid = [] then s.pendingImsGetRequests.erase u
            else s.pendingImsGetRequests.insert u (v.erase rid) }, front, v.erase rid = []⟩

/-- The request that stands for a client. No two do, so the order of the table does not matter. -/
def requestOfIms (ims : ID32) : Option ID32 :=
  (s.imsReqIds.entries.find? fun e => e.2 = ims).map fun e => e.1

/-- The router is told that nobody listens: `post_router_clear_request`, and before it the
command. -/
def postRouterCancelLivestreamGet (id : ID32) : State :=
  ({ s with tenders := s.tenders.erase id }.post (.cancelLivestreamGet id)).post (.clearRequest id)

/-- `kernel::handle_ims_cancel_livestream_get`. The source reads the uuid of the request once more
after the request is gone; here it is what it was. -/
def handleImsCancelLivestreamGet (ims : ID32) : Option State :=
  (s.requestOfIms ims).elim (some s) fun id =>
    (s.requests.lookup id).elim (some s) fun lr =>
      (s.cleanLivestreamGetRequestFromPendings lr.uuid id).map fun c =>
        if hosted lr.uuid = false ∧ c.last then c.state.postRouterCancelLivestreamGet c.rid
        else c.state

end State

/-- What comes to the kernel, of clients (`get`, `cancel`), the storage, the router and the key
manager. -/
inductive Event
  | get (id ims : ID32) (u : UUID)
  | cancel (ims : ID32)
  | storageNack (id : ID32)
  | streamAuth (id : ID32) (keys : Bool)
  | content (id : ID32)
  | decrypted (id : ID32) (u : UUID)
  | finished (id : ID32) (u : UUID)
  deriving DecidableEq

/-- The storage answers a look-up. -/
def State.answered (s : State) (id : ID32) : State := { s with lookUps := s.lookUps.erase id }

/-- The router ends a tender. -/
def State.ended (s : State) (id : ID32) : State := { s with tenders := s.tenders.erase id }

/-- A new request has an id that is not in use, which the kernel asserts, and for which no answer is
under way; a client that starts does not listen yet. -/
def Fresh (s : State) (id ims : ID32) : Prop :=
  s.requests.lookup id = none ∧ s.imsReqIds.lookup id = none ∧ s.lookUps.lookup id = none ∧
    s.requestOfIms ims = none

instance (s : State) (id ims : ID32) : Decidable (Fresh s id ims) :=
  inferInstanceAs (Decidable (_ ∧ _ ∧ _ ∧ _))

/-- What an event does. -/
def handle (hosted : UUID → Bool) (s : State) : Event → Option State
  | .get id ims u => if Fresh s id ims then some (s.handleImsGetRequest hosted id ims u) else none
  | .cancel ims => s.handleImsCancelLivestreamGet hosted ims
  | .storageNack id =>
    if (s.lookUps.lookup id).isSome then (s.answered id).handleStorageNack id else none
  | .streamAuth id keys => some (s.handleRouterStreamAuthRequest id keys)
  | .content id => s.handleRouterGetLivestreamContent id
  | .decrypted id u => some (s.handleLivestreamDecrypted id u)
  | .finished id u =>
    if s.tenders.lookup id = some u then (s.ended id).handleRouterCancel id else none

/-- **A step** of the kernel. -/
def step (hosted : UUID → Bool) (s : State) (e : Event) : Option State :=
  handle hosted { s with out := [] } e

/-! ### The law -/

/-- **Who listens to what**, as the clients see it: a client listens from its get until it cancels
or the livestream ends. -/
def next (L : List (ID32 × UUID)) : Event → List (ID32 × UUID)
  | .get _ ims u => L ++ [(ims, u)]
  | .cancel ims => L.filter fun p => p.1 ≠ ims
  | .finished _ u => L.filter fun p => p.2 ≠ u
  | _ => L

/-- Who listens to what after the events. -/
def listening (es : List Event) : List (ID32 × UUID) := es.foldl next []

/-- The clients that listen to a livestream. -/
def listenersOf (L : List (ID32 × UUID)) (u : UUID) : List ID32 :=
  (L.filter fun p => p.2 = u).map Prod.fst

/-- A live request that asked the storage or the router for a livestream. -/
def State.Owns (s : State) (id : ID32) (u : UUID) : Prop :=
  (∃ r, s.requests.lookup id = some r ∧ r.uuid = u) ∧
    (s.lookUps.lookup id = some u ∨ s.tenders.lookup id = some u)

/-- An event with which content is sent to clients. -/
def Delivers (s : State) (u : UUID) : Event → Prop
  | .content id => ∃ r, s.requests.lookup id = some r ∧ r.uuid = u ∧ r.encrypted = false
  | .decrypted id v => v = u ∧ s.requests.lookup id ≠ none
  | _ => False

/-- With the event the last listener of a livestream leaves. -/
def LastLeaves (hosted : UUID → Bool) (L : List (ID32 × UUID)) (u : UUID) : Event → Prop
  | .cancel ims => hosted u = false ∧ listenersOf L u = [ims]
  | _ => False

/-- The messages by which the router is told that nobody listens. -/
def Message.isFarewell : Message → Bool
  | .cancelLivestreamGet _ | .clearRequest _ => true
  | _ => false

/-- The messages to clients with content. -/
def Message.isContent : Message → Bool
  | .livestreamContent _ => true
  | _ => false

/-- **What holds of a state**: content would go to who listens, each once; a livestream that is
hosted elsewhere and listened to has one request that owns it, and a tender has a live request and
a listener; and no client is refused that cancels. -/
structure Lawful (hosted : UUID → Bool) (s : State) (L : List (ID32 × UUID)) : Prop where
  recipients : ∀ u, (s.recipients u).Perm (listenersOf L u)
  owner : ∀ u, hosted u = false → listenersOf L u ≠ [] → ∃ id, ∀ i, s.Owns i u ↔ i = id
  tender : ∀ id u, s.tenders.lookup id = some u → s.Owns id u ∧ listenersOf L u ≠ []
  cancel : ∀ ims, (step hosted s (.cancel ims)).isSome

/-- **What holds of a step**: content is sent to who listens and to nobody else; the request that
owns a livestream owns it as long as somebody listens; and the router is told exactly when the last
one leaves, with the id of that request. -/
structure Exact (hosted : UUID → Bool) (s : State) (L : List (ID32 × UUID)) (e : Event)
    (t : State) : Prop where
  content : ∀ u, Delivers s u e →
    (t.out.filter Message.isContent).Perm ((listenersOf L u).map .livestreamContent)
  quiet : (∀ u, ¬ Delivers s u e) → t.out.filter Message.isContent = []
  kept : ∀ id u, s.Owns id u → listenersOf (next L e) u ≠ [] → t.Owns id u
  told : ∀ u, LastLeaves hosted L u e → ∃ id, s.Owns id u ∧
    t.out.filter Message.isFarewell = [.cancelLivestreamGet id, .clearRequest id]
  silent : (∀ u, ¬ LastLeaves hosted L u e) → t.out.filter Message.isFarewell = []

end LocalListeners

end Metax
