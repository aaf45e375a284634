import Metax.Library.Exit
import Metax.Library.Ledger
import Metax.Protocol.RouterData
import Mathlib.Data.Finset.Max

/-!
# The data of the router

The router keeps a *tender* for every request that travels through the network: its own
kernel's requests (`internal`) and those it got from a peer (`remote`). Four containers speak of
them: `m_tenders` and `m_sync_tenders` store them, `m_tenders_timeline` points to them so that
they expire, and `m_id_tenders` finds them by the request id the kernel knows them under.

The clock is not modelled: a tender may expire at any time. What a handler sends during the
current input is collected in `out`.
-/

namespace Metax

open Ledger (Table)

/-- `UINT32_MAX`: the request id of a tender the kernel does not know any more. -/
def noRequest : ID32 := 2 ^ 32 - 1

/-- `ROUTER_REQUEST_LOWER_BOUND`. -/
def routerRequestLowerBound : ℕ := 0x10000000

/-- `ROUTER_REQUEST_UPPER_BOUND`. -/
def routerRequestUpperBound : ℕ := 0x1FFFFFFF

/-- `LINK_REQUEST_UPPER_BOUND`, which stands for the local kernel among the peers. -/
def linkRequestUpperBound : ID32 := 0x2FFFFFFF

/-- `kernel_router_package`. -/
structure KernelPackage where
  requestId : ID32
  cmd : Command
  uuid : UUID
  maxResponseCnt : UInt16
  dataVersion : UInt32
  lastUpdated : UInt64
  expireDate : UInt64
  payload : Payload
  deriving DecidableEq

/-- `kernel_router_package()`. The handlers write some fields of a package that is new; in the code
it is the last slot of the queue, and an exception leaves what was written there for the next
one. No theorem is about the fields a handler does not write. -/
def KernelPackage.new : KernelPackage where
  requestId := 0
  cmd := .maxCommand
  uuid := 0
  maxResponseCnt := 1
  dataVersion := 0
  lastUpdated := 0
  expireDate := 0
  payload := .empty

/-- What the router reads of a `kernel_storage_package`. -/
structure StoragePackage where
  requestId : ID32
  cmd : Command
  payload : Payload
  deriving DecidableEq

/-- A `router_link_package` the link hands to the router. -/
structure LinkInput where
  cmd : Command
  peers : Finset ID32
  package : Received
  deriving DecidableEq

/-- What the uuid generator gives: a random uuid is not null. -/
abbrev RandomUUID := {u : UUID // u ≠ 0}

theorem uuid_five_ne_zero : (5 : UUID) ≠ 0 := by decide

theorem uuid_six_ne_zero : (6 : UUID) ≠ 0 := by decide

theorem uuid_nine_ne_zero : (9 : UUID) ≠ 0 := by decide

/-- The header of a message, decoded into a new object. -/
def LinkInput.header (inp : LinkInput) : RouterData := .ofPackage inp.package

/-- A `router_link_package` the router hands to the link. -/
structure LinkPackage where
  cmd : Command
  peers : Finset ID32
  cmdRating : ℕ
  shouldBlockBySync : Bool
  message : Bytes
  deriving DecidableEq

namespace Router

/-- `tender::type`. -/
inductive TenderType
  | internal
  | remote
  deriving DecidableEq

theorem TenderType.remote_ne_internal : TenderType.remote ≠ .internal := by decide

/-- `tender::state`. -/
inductive TenderState
  | announced
  | confirmed
  | received
  | transporting
  deriving DecidableEq

/-- `router::tender`. -/
structure Tender extends RouterData where
  requestId : ID32
  typ : TenderType
  st : TenderState
  prs : Finset ID32
  maxResponseCnt : UInt16
  receivedResponseCnt : UInt16
  winners : List (ID32 × UInt32)
  isCanceled : Bool
  deriving DecidableEq

/-- `tender::write_router_data`, into a new `router_data`. -/
def Tender.writeRouterData (t : Tender) : RouterData :=
  { RouterData.new with
    tenderId := t.tenderId
    uuid := t.uuid
    cmd := t.cmd
    hopId := t.hopId
    dataVersion := t.dataVersion
    lastUpdated := t.lastUpdated
    expireDate := t.expireDate }

/-- An element of `m_tenders_timeline`: the address of a stored tender. -/
inductive Pointer
  | tender (id : UUID)
  | syncTender (id : UUID)
  deriving DecidableEq

/-- `router::response`. -/
structure Response where
  peer : ID32
  offers : List ID32
  deriving DecidableEq

/-- What the router puts into its outputs. -/
inductive Emission
  | link (p : LinkPackage)
  | kernel (p : KernelPackage)
  | notification (cmd : Command) (message : Bytes)
  deriving DecidableEq

/-- The containers that speak of tenders. -/
structure Tables where
  tenders : Table UUID Tender
  syncTenders : Table UUID Tender
  idTenders : Table ID32 UUID
  timeline : List Pointer
  deriving DecidableEq

namespace Tables

/-- The tender a pointer points to. -/
def deref (T : Tables) : Pointer → Option Tender
  | .tender i => T.tenders.lookup i
  | .syncTender i => T.syncTenders.lookup i

/-- Write to the tender a pointer points to. -/
def assign (T : Tables) : Pointer → Tender → Tables
  | .tender i, t => { T with tenders := T.tenders.insert i t }
  | .syncTender i, t => { T with syncTenders := T.syncTenders.insert i t }

/-- `m_id_tenders.insert`: an entry that is there stays. -/
def insertId (T : Tables) (rid : ID32) (i : UUID) : Tables :=
  { T with idTenders := if (T.idTenders.lookup rid).isSome then T.idTenders
      else T.idTenders.insert rid i }

/-- `m_tenders_timeline.push_back`. -/
def pushTimeline (T : Tables) (p : Pointer) : Tables := { T with timeline := T.timeline ++ [p] }

end Tables

/-- The state of the router. -/
structure State extends Tables where
  isConfigured : Bool
  maxHops : UInt16
  responses : Table UUID (List Response)
  routerData : RouterData
  requestCounter : ID32
  out : List Emission
  deriving DecidableEq

/-- `router()`. -/
def init : State where
  tenders := ∅
  syncTenders := ∅
  idTenders := ∅
  timeline := []
  isConfigured := false
  maxHops := 3
  responses := ∅
  routerData := .new
  requestCounter := routerRequestLowerBound
  out := []

namespace State

/-- Write to a stored tender. -/
def assign (s : State) (p : Pointer) (t : Tender) : State :=
  { s with toTables := s.toTables.assign p t }

/-- Commit a package to `kernel_tx` or `link_tx`. -/
def emit (s : State) (e : Emission) : State := { s with out := s.out ++ [e] }

/-- Enter a new tender into `m_id_tenders` and the timeline. -/
def enter (s : State) (p : Pointer) (rid : ID32) (i : UUID) : State :=
  { s with toTables := (s.toTables.insertId rid i).pushTimeline p }

@[simp]
theorem assign_toTables (s : State) (p : Pointer) (t : Tender) :
    (s.assign p t).toTables = s.toTables.assign p t := rfl

@[simp]
theorem emit_toTables (s : State) (e : Emission) : (s.emit e).toTables = s.toTables := rfl

@[simp]
theorem enter_toTables (s : State) (p : Pointer) (rid : ID32) (i : UUID) :
    (s.enter p rid i).toTables = (s.toTables.insertId rid i).pushTimeline p := rfl

end State

/-- How the handling of an input ends. The input loop catches exceptions; a failed `poco_assert`
aborts the node. -/
abbrev Outcome := Exit State

end Router

end Metax
