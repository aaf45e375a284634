import Metax.Kernel.Buried
import Metax.Kernel.SlotAccounting

/-!
# The kernel beside its local storage

A `Site` remembers every unit the kernel has ever made, what the storage holds (it writes before
it confirms, and a write that fails leaves the file it has opened) and what it still has to
delete, each with the request it was written or is deleted for.

A save that ends in `save_fail` gives up the units that have no copy and deletes the pieces that
have one. Some things it forgets:

* a file that a write of the storage has opened before it failed;
* the pieces that are with the storage at that moment;
* units that have a copy and are still being backed up;
* the ids of its units in the storage queue, behind the place where the loop over it stops.

`Tidy` is that there is none of them when the save fails. `LeavesNothing` is what is then expected.
-/

namespace Metax

open Ledger (Table)

/-- What an entry of the log asks the storage to delete, and for which request. -/
def Entry.deletion : Entry → Option (ID32 × UUID)
  | delete owner _ uuid => some (owner, uuid)
  | _ => none

/-- The unit an event is the answer for. -/
def Event.answersUnit : Event → Option ID32
  | .pieceEncrypted id _ | .storageSaveConfirm id | .storageNoSpace id | .storageFailed id _
  | .routerSaveConfirm id | .routerCancel id | .routerSaveOffer id _ | .routerAuth id _ => some id
  | .imsSave _ _ _ _ | .imsUpdate _ _ _ | .oldMaster _ _ _ _ _ | .oldMasterFailed _ _
  | .getAesKey _ _ | .masterEncrypted _ _ | .fileChanged _ _ => none

/-- The kernel with its storage: all units there ever were, the objects that there are files of and
what is to be deleted. -/
structure Site where
  kernel : Kernel
  units : Table ID32 SaveUnit
  disk : List (ID32 × UUID)
  toDelete : List (ID32 × UUID)

/-- The kernel takes a message, or the storage deletes an object. The message may be that the
storage has failed: then there is no file of the unit, as `storage` found no room for it or could
not open one; or, with `failedWrite`, `create` threw when it had opened and truncated the file. -/
inductive SiteEvent
  | kernel (e : Event)
  | failedWrite (id : ID32) (err : String)
  | deleted (owner : ID32) (uuid : UUID)

namespace Site

variable (codec : Codec) (cfg : KernelCfg)

/-- A site that has just started. -/
def initial : Site where
  kernel := .initial
  units := ∅
  disk := []
  toDelete := []

/-- The file of the unit. -/
def file (s : Site) (id : ID32) : List (ID32 × UUID) :=
  (s.units.lookup id).elim [] fun u => [(u.mainRequest, u.uuid)]

/-- What the storage has written before it sends the answer `e`. -/
def written (s : Site) : Event → List (ID32 × UUID)
  | .storageSaveConfirm id => s.file id
  | _ => []

/-- The storage has opened the file of the unit, and what is in it is of no use. -/
def leave (s : Site) (id : ID32) : Site := { s with disk := s.file id ++ s.disk }

/-- The kernel has gone on to `k`. -/
def goOn (s : Site) (e : Event) (k : Kernel) : Site where
  kernel := k
  units := k.saveUnits ∪ s.units
  disk := s.written e ++ s.disk
  toDelete := (k.log.take (k.log.length - s.kernel.log.length)).filterMap Entry.deletion ++
    s.toDelete

/-- One event. -/
def step (s : Site) : SiteEvent → Option Site
  | .kernel e => (s.kernel.step codec cfg e).map (s.goOn e)
  | .failedWrite id err =>
    (s.kernel.step codec cfg (.storageFailed id err)).map
      ((s.leave id).goOn (.storageFailed id err))
  | .deleted owner uuid =>
    if (owner, uuid) ∈ s.toDelete then
      some { s with
        disk := s.disk.filter fun x => x.2 ≠ uuid
        toDelete := s.toDelete.erase (owner, uuid) }
    else
      none

/-! ### Nothing is left -/

/-- The save has ended in `save_fail`. -/
def SaveFailed (s : Site) (rid : ID32) : Prop :=
  ∃ ims err, .respond rid ims (.saveFail err) ∈ s.kernel.log

/-- The key manager and the storage have answered for all units of the request, and everything
that was to be deleted for it is. -/
def Over (s : Site) (rid : ID32) : Prop :=
  (∀ id u, s.units.lookup id = some u → u.mainRequest = rid →
    ∀ x ∈ s.kernel.posted.lookup id, x = .tender) ∧ ∀ x ∈ s.toDelete, x.1 ≠ rid

/-- The storage holds nothing of the save, no unit of it is left or queued, and an answer for one
of its units changes nothing but that it has arrived. -/
structure LeavesNothing (s : Site) (rid : ID32) : Prop where
  disk : ∀ x ∈ s.disk, x.1 ≠ rid
  units : ∀ id u, s.kernel.saveUnits.lookup id = some u → u.mainRequest ≠ rid
  queues : ∀ id u, s.kernel.Queued id → s.units.lookup id = some u → u.mainRequest ≠ rid
  late : ∀ e id u k, e.answersUnit = some id → s.units.lookup id = some u → u.mainRequest = rid →
    s.kernel.step codec cfg e = some k → k = s.kernel ∨ k = s.kernel.answered id

/-- The counters count the units that are there and nothing else. -/
def Counted (s : Site) : Prop :=
  s.kernel.storageInputCnt = s.kernel.localSlots ∧
    s.kernel.routerSaveInputSize = s.kernel.backupSize

/-! ### When a save fails tidily -/

/-- The unit was made for the save. -/
def ofSave (s : Site) (rid i : ID32) : Bool := (s.units.lookup i).any fun u => u.mainRequest = rid

/-- The unit is there, and another request's. -/
def ofOther (s : Site) (rid i : ID32) : Bool :=
  (s.kernel.saveUnits.lookup i).any fun u => u.mainRequest ≠ rid

/-- When the units of the save are gone, the loop over the storage queue comes to each of their
ids: the router queue is short, and the other units that are before it leave it a free slot. -/
def Dequeues (s : Site) (rid : ID32) : Prop :=
  (∀ i ∈ s.kernel.pendingSaveRequests, s.ofSave rid i = true →
    s.kernel.pendingRouterSaveReqs.length < maxStorageInputCnt) ∧
  Kernel.Reaches (s.ofSave rid) (s.ofOther rid) s.kernel.pendingSaveRequests
    s.kernel.storageInputCnt

/-- When the unit `id` takes the save with it, no unit that is there has a copy, no other unit of
the save is with the storage, and those in the storage queue leave it. -/
def FailsTidily (s : Site) (rid id : ID32) : Prop :=
  ∀ u ∈ s.kernel.saveUnits.lookup id, u.mainRequest = rid → u.bkpCount = 0 →
    Ledger.All (fun _ v => v.mainRequest = rid → v.bkpCount = 0) s.kernel.saveUnits ∧
      Ledger.All (fun i v => v.mainRequest = rid → i ≠ id →
        s.kernel.posted.lookup i ≠ some .saveData) s.units ∧ s.Dequeues rid

/-- The condition on a step under which nothing is left of a failed save. -/
def Tidy (rid : ID32) (s : Site) : SiteEvent → Prop
  | .kernel (.storageFailed id _) | .kernel (.routerCancel id) => s.FailsTidily rid id
  | .failedWrite id _ => s.ofSave rid id = false
  | _ => True

/-- The condition on a step under which the counters are exact. -/
def Exact (s : Site) : SiteEvent → Prop
  | .kernel e => s.kernel.FlowCondition False codec cfg e
  | .failedWrite id err => s.kernel.FlowCondition False codec cfg (.storageFailed id err)
  | .deleted _ _ => True

/-! On a concrete run the conditions can be evaluated. -/

instance (s : Site) (rid : ID32) : Decidable (s.Dequeues rid) :=
  inferInstanceAs (Decidable (_ ∧ _))

instance (s : Site) (rid id : ID32) : Decidable (s.FailsTidily rid id) :=
  have : ∀ u : SaveUnit, Decidable (u.mainRequest = rid → u.bkpCount = 0 →
      Ledger.All (fun _ v => v.mainRequest = rid → v.bkpCount = 0) s.kernel.saveUnits ∧
        Ledger.All (fun i v => v.mainRequest = rid → i ≠ id →
          s.kernel.posted.lookup i ≠ some .saveData) s.units ∧ s.Dequeues rid) :=
    fun _ => inferInstance
  Option.decidableForallMem _

instance (rid : ID32) (s : Site) : (e : SiteEvent) → Decidable (s.Tidy rid e)
  | .kernel (.storageFailed id _) | .kernel (.routerCancel id) =>
    inferInstanceAs (Decidable (s.FailsTidily rid id))
  | .failedWrite id _ => inferInstanceAs (Decidable (s.ofSave rid id = false))
  | .deleted _ _ | .kernel (.storageSaveConfirm _) | .kernel (.storageNoSpace _)
  | .kernel (.pieceEncrypted _ _) | .kernel (.imsSave _ _ _ _) | .kernel (.imsUpdate _ _ _)
  | .kernel (.oldMaster _ _ _ _ _) | .kernel (.oldMasterFailed _ _) | .kernel (.getAesKey _ _)
  | .kernel (.masterEncrypted _ _) | .kernel (.routerSaveConfirm _)
  | .kernel (.routerSaveOffer _ _) | .kernel (.routerAuth _ _) | .kernel (.fileChanged _ _) =>
    .isTrue trivial

instance (codec : Codec) (cfg : KernelCfg) (s : Site) :
    (e : SiteEvent) → Decidable (s.Exact codec cfg e)
  | .kernel e => inferInstanceAs (Decidable (s.kernel.FlowCondition False codec cfg e))
  | .failedWrite id err =>
    inferInstanceAs (Decidable (s.kernel.FlowCondition False codec cfg (.storageFailed id err)))
  | .deleted _ _ => .isTrue trivial

end Site

end Metax
