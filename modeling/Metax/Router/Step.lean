import Metax.Library.Run
import Metax.Router.LinkInput

/-!
# The router as a machine

One event is one input the router handles, or the clean-up of one expired tender. An exception
ends the handling of an input early; a failed assertion ends the run.
-/

namespace Metax

namespace Router

/-- `router::handle_expired_sync_tender`. -/
def handleExpiredSyncTender (s : State) (p : Pointer) (t : Tender) : Outcome :=
  let s := if t.isCanceled then s else cancelRequest s t.requestId
  (postSyncRequestToLinkPeer s t .syncFinished).andThen fun s => cleanUpSyncTenderInfo s p t

/-- `router::process_expired_tender`. -/
def processExpiredTender (s : State) (p : Pointer) (t : Tender) : Outcome :=
  if isSyncCommand t.cmd then handleExpiredSyncTender s p t
  else cleanUpTender { s with responses := s.responses.erase t.tenderId } p t

/-- `router::handle_expired_tenders`, for the tender at the front of the timeline. The pointer
of a tender that is gone is followed nevertheless, which ends the run as well. -/
def handleExpiredTenders (s : State) (p : Pointer) : Outcome :=
  if p ∈ s.timeline then
    match s.deref p with
    | none => .aborted
    | some t => processExpiredTender s p t
  else .done s

/-- What the router reacts to. `fresh` is the uuid the generator gives if it is asked for one. -/
inductive Event
  | config (maxHops : UInt16)
  | kernel (inp : KernelPackage) (fresh : RandomUUID)
  | backup (inp : KernelPackage) (fresh : RandomUUID)
  | storage (inp : StoragePackage)
  | storageWriter (inp : StoragePackage)
  | link (inp : LinkInput) (fresh : RandomUUID)
  | timeout (p : Pointer)
  deriving DecidableEq

/-- Inputs of the kernel and the storages wait until the router is configured. -/
def whenConfigured (s : State) (o : Outcome) : Outcome := if s.isConfigured then o else .done s

/-- The handling of one event. -/
def perform (s : State) : Event → Outcome
  | .config maxHops => .done { s with isConfigured := true, maxHops := maxHops }
  | .kernel inp fresh => whenConfigured s (processKernelInput s inp fresh)
  | .backup inp fresh => whenConfigured s (processBackupInput s inp fresh)
  | .storage inp => whenConfigured s (processStorageInput s inp)
  | .storageWriter inp => whenConfigured s (processStorageWriterInput s inp)
  | .link inp fresh => processLinkInput s inp fresh
  | .timeout p => handleExpiredTenders s p

/-- One event, with what is sent because of it in `out`. -/
def outcome (s : State) (e : Event) : Outcome := perform { s with out := [] } e

/-- The step function; an aborted node takes no further step. -/
def step (s : State) (e : Event) : Option State := (outcome s e).state

end Router

end Metax
