import Metax.Kernel.Step

/-!
# The flow control of the save path

Two counters limit what is under way: `storageInputCnt` counts the units handed to the key
manager or the storage for the local save, `routerSaveInputSize` sums the sizes of the units
being backed up through the router. The ledgers behind them are what is posted and the units
with `backup`.

`Fits` says, for one id, how what is posted for it, the unit and its places in the two queues
go together; `Slots c` that all ids fit and that the counters are right, but for `c` slots
that are still to be given back.
-/

namespace Metax

open Ledger (Table total weight)

/-- The slot a message takes: one on the way to the local storage, none on the way to the
router. -/
def Post.slot : Post → ℕ
  | .saveData | .encryptPiece _ true => 1
  | .encryptPiece _ false | .tender => 0

/-- What a unit adds to the size being backed up through the router. -/
def SaveUnit.load (u : SaveUnit) : ℕ := if u.backup then u.size else 0

/-- Where the request is known, it is not saved locally. -/
def Nonlocal (requests : Table ID32 Request) (rid : ID32) : Prop :=
  ∀ r, requests.lookup rid = some r → r.isLocal = false

/-- How the message about an id, its unit, and its places in the queue of the storage and in
the queue of the router go together. -/
structure Fits (strict : Prop) (requests : Table ID32 Request) (p : Option Post)
    (u : Option SaveUnit) (inSave inRouter : Prop) : Prop where
  free : inSave ∨ inRouter → p = none
  apart : ¬ (inSave ∧ inRouter)
  parked : inSave ∨ inRouter → ∀ v ∈ u, v.backup = false
  pending : inSave → ∀ v ∈ u, v.bkpCount = 0
  routed : inRouter → ∀ v ∈ u, v.bkpCount = 0 → Nonlocal requests v.mainRequest
  inside : ∀ x ∈ p, x.slot = 1 → ∀ v ∈ u, v.bkpCount = 0 ∧ v.backup = false
  outside : ∀ x ∈ p, x.slot = 0 → ∀ v ∈ u, v.backup = true ∧
    ((x = .tender → v.bkpCount = 0) → Nonlocal requests v.mainRequest)
  backedUp : ∀ v ∈ u, v.backup = true → ∃ x ∈ p, x.slot = 0
  untried : ∀ v ∈ u, v.failCount = 0
  present : strict → ∀ x ∈ p, x.slot = 1 → u.isSome = true

/-- Nothing is gained on the way from `reqs` to `reqs'`: no request is new, and none is saved
locally that was not before. -/
def RequestsLe (reqs reqs' : Table ID32 Request) : Prop :=
  ∀ rid r', reqs'.lookup rid = some r' →
    ∃ r, reqs.lookup rid = some r ∧ (r.isLocal = false → r'.isLocal = false)

variable {strict : Prop} {rid : ID32} {r r' : Request} {reqs reqs' : Table ID32 Request}
  {o : Option Post} {w : Option SaveUnit} {a b a' b' : Prop} {v : SaveUnit} {x : Post}

/-- No request is gained. -/
theorem RequestsLe.refl (reqs : Table ID32 Request) : RequestsLe reqs reqs :=
  fun _ r' h => ⟨r', h, id⟩

/-- The requests that are left are saved as they were. -/
def SameLocal (reqs reqs' : Table ID32 Request) : Prop :=
  ∀ rid r', reqs'.lookup rid = some r' →
    ∃ r, reqs.lookup rid = some r ∧ r'.isLocal = r.isLocal

/-- So a unit that is not saved locally still is not. -/
theorem RequestsLe.nonlocal (h : RequestsLe reqs reqs') (hn : Nonlocal reqs rid) :
    Nonlocal reqs' rid := by
  intro r' hr'
  obtain ⟨r, hr, hlocal⟩ := h rid r' hr'
  exact hlocal (hn r hr)

/-- Requests that are saved as before are not gained. -/
theorem SameLocal.le (h : SameLocal reqs reqs') : RequestsLe reqs reqs' := by
  intro rid r' hr'
  obtain ⟨r, hr, hlocal⟩ := h rid r' hr'
  exact ⟨r, hr, fun hl => hlocal.trans hl⟩

theorem SameLocal.refl (reqs : Table ID32 Request) : SameLocal reqs reqs :=
  fun _ r' h => ⟨r', h, rfl⟩

/-- Two steps that leave the requests so. -/
theorem SameLocal.trans {reqs'' : Table ID32 Request} (h : SameLocal reqs reqs')
    (h' : SameLocal reqs' reqs'') : SameLocal reqs reqs'' := by
  intro rid r'' hr''
  obtain ⟨r', hr', hlocal'⟩ := h' rid r'' hr''
  obtain ⟨r, hr, hlocal⟩ := h rid r' hr'
  exact ⟨r, hr, hlocal'.trans hlocal⟩

/-- A record is written back that says the same of where it is saved. -/
theorem SameLocal.insert (hr : reqs.lookup rid = some r) (hlocal : r'.isLocal = r.isLocal) :
    SameLocal reqs (reqs.insert rid r') := by
  exact Ledger.exists_of_lookup_insert (fun _ => rfl) hr hlocal

/-- A request may go. -/
theorem SameLocal.erase (rid : ID32) : SameLocal reqs (reqs.erase rid) := by
  intro rid' s hs
  obtain ⟨-, hs⟩ := Ledger.of_lookup_erase hs
  exact ⟨s, hs, rfl⟩

/-- A record may be written back that is saved elsewhere from now on. -/
theorem RequestsLe.insert (hr : reqs.lookup rid = some r)
    (hlocal : r.isLocal = false → r'.isLocal = false) : RequestsLe reqs (reqs.insert rid r') := by
  exact Ledger.exists_of_lookup_insert (fun _ => id) hr hlocal

/-- The place of an id fits when less is said about its queues. -/
theorem Fits.mono (h : Fits strict reqs o w a b)
    (hreq : ∀ v ∈ w, Nonlocal reqs v.mainRequest → Nonlocal reqs' v.mainRequest) (ha : a' → a)
    (hb : b' → b) : Fits strict reqs' o w a' b' where
  free hq := h.free (hq.imp ha hb)
  apart hq := h.apart (hq.imp ha hb)
  parked hq := h.parked (hq.imp ha hb)
  pending hq := h.pending (ha hq)
  routed hq v hv hzero := hreq v hv (h.routed (hb hq) v hv hzero)
  inside := h.inside
  outside x hx hslot v hv := by
    obtain ⟨hbackup, hnonlocal⟩ := h.outside x hx hslot v hv
    exact ⟨hbackup, fun ht => hreq v hv (hnonlocal ht)⟩
  backedUp := h.backedUp
  untried := h.untried
  present := h.present

/-- A unit on the way through the router, or on no way at all, has one more copy. -/
theorem Fits.copy (h : Fits strict reqs o (some v) a b) (ha : ¬ a) (hb : ¬ b)
    (ho : ∀ x ∈ o, x.slot = 0) :
    Fits strict reqs o (some { v with bkpCount := v.bkpCount + 1 }) a b where
  free := h.free
  apart := h.apart
  parked hq := absurd hq (not_or.mpr ⟨ha, hb⟩)
  pending hq := absurd hq ha
  routed hq := absurd hq hb
  inside x hx hslot := absurd ((ho x hx).symm.trans hslot) Nat.zero_ne_one
  outside x hx hslot w hw := by
    obtain rfl := Option.some.inj hw
    obtain ⟨hbackup, hnonlocal⟩ := h.outside x hx hslot v rfl
    exact ⟨hbackup, fun ht => hnonlocal fun he => absurd (ht he) (Nat.succ_ne_zero _)⟩
  backedUp w hw hbackup := by
    obtain rfl := Option.some.inj hw
    exact h.backedUp v rfl hbackup
  untried w hw := by
    obtain rfl := Option.some.inj hw
    exact h.untried v rfl
  present _ _ _ _ := rfl

/-! ### The places of an id -/

/-- An id that no queue has and nothing is posted for. -/
theorem Fits.idle (ha : ¬ a) (hb : ¬ b) (hv : ∀ v ∈ w, v.backup = false ∧ v.failCount = 0) :
    Fits strict reqs none w a b where
  free _ := rfl
  apart hq := ha hq.1
  parked hq := absurd hq (not_or.mpr ⟨ha, hb⟩)
  pending hq := absurd hq ha
  routed hq := absurd hq hb
  inside _ hx := absurd hx.symm (Option.some_ne_none _)
  outside _ hx := absurd hx.symm (Option.some_ne_none _)
  backedUp v hv' hback := absurd ((hv v hv').1.symm.trans hback) Bool.false_ne_true
  untried v hv' := (hv v hv').2
  present _ _ hx := absurd hx.symm (Option.some_ne_none _)

/-- A unit in the queue of the storage. -/
theorem Fits.waitsForStorage (hb : ¬ b)
    (hv : ∀ v ∈ w, v.backup = false ∧ v.bkpCount = 0 ∧ v.failCount = 0) :
    Fits strict reqs none w a b where
  free _ := rfl
  apart hq := hb hq.2
  parked _ v hv' := (hv v hv').1
  pending _ v hv' := (hv v hv').2.1
  routed hq := absurd hq hb
  inside _ hx := absurd hx.symm (Option.some_ne_none _)
  outside _ hx := absurd hx.symm (Option.some_ne_none _)
  backedUp v hv' hback := absurd ((hv v hv').1.symm.trans hback) Bool.false_ne_true
  untried v hv' := (hv v hv').2.2
  present _ _ hx := absurd hx.symm (Option.some_ne_none _)

/-- A unit in the queue of the router. -/
theorem Fits.waitsForRouter (ha : ¬ a)
    (hv : ∀ v ∈ w, v.backup = false ∧ (v.bkpCount = 0 → Nonlocal reqs v.mainRequest) ∧
      v.failCount = 0) :
    Fits strict reqs none w a b where
  free _ := rfl
  apart hq := ha hq.1
  parked _ v hv' := (hv v hv').1
  pending hq := absurd hq ha
  routed _ v hv' := (hv v hv').2.1
  inside _ hx := absurd hx.symm (Option.some_ne_none _)
  outside _ hx := absurd hx.symm (Option.some_ne_none _)
  backedUp v hv' hback := absurd ((hv v hv').1.symm.trans hback) Bool.false_ne_true
  untried v hv' := (hv v hv').2.2
  present _ _ hx := absurd hx.symm (Option.some_ne_none _)

/-- A unit on the way to the local storage. -/
theorem Fits.local (ha : ¬ a) (hb : ¬ b) (hx : x.slot = 1) (hv : v.bkpCount = 0)
    (hback : v.backup = false) (hfail : v.failCount = 0) :
    Fits strict reqs (some x) (some v) a b where
  free hq := absurd hq (not_or.mpr ⟨ha, hb⟩)
  apart hq := ha hq.1
  parked hq := absurd hq (not_or.mpr ⟨ha, hb⟩)
  pending hq := absurd hq ha
  routed hq := absurd hq hb
  inside _ _ _ v' hv' := by
    obtain rfl := Option.some.inj hv'
    exact ⟨hv, hback⟩
  outside y hy hslot := by
    obtain rfl := Option.some.inj hy
    exact absurd (hslot.symm.trans hx) Nat.zero_ne_one
  backedUp v' hv' hback' := by
    obtain rfl := Option.some.inj hv'
    exact absurd (hback.symm.trans hback') Bool.false_ne_true
  untried v' hv' := by
    obtain rfl := Option.some.inj hv'
    exact hfail
  present _ _ _ _ := rfl

/-- A unit on the way through the router. -/
theorem Fits.remote (ha : ¬ a) (hb : ¬ b) (hx : x.slot = 0) (hback : v.backup = true)
    (hv : (x = .tender → v.bkpCount = 0) → Nonlocal reqs v.mainRequest) (hfail : v.failCount = 0) :
    Fits strict reqs (some x) (some v) a b where
  free hq := absurd hq (not_or.mpr ⟨ha, hb⟩)
  apart hq := ha hq.1
  parked hq := absurd hq (not_or.mpr ⟨ha, hb⟩)
  pending hq := absurd hq ha
  routed hq := absurd hq hb
  inside y hy hslot := by
    obtain rfl := Option.some.inj hy
    exact absurd (hx.symm.trans hslot) Nat.zero_ne_one
  outside y hy _ v' hv' := by
    obtain rfl := Option.some.inj hy
    obtain rfl := Option.some.inj hv'
    exact ⟨hback, hv⟩
  backedUp _ _ _ := ⟨x, rfl, hx⟩
  untried v' hv' := by
    obtain rfl := Option.some.inj hv'
    exact hfail
  present _ y hy hslot := by
    obtain rfl := Option.some.inj hy
    exact absurd (hx.symm.trans hslot) Nat.zero_ne_one

/-- An id whose unit is gone; in a strict account it holds no slot. -/
theorem Fits.gone (h : Fits strict reqs o w a b) (ho : strict → ∀ x ∈ o, x.slot ≠ 1) :
    Fits strict reqs o none a b where
  free := h.free
  apart := h.apart
  parked _ _ hv := absurd hv.symm (Option.some_ne_none _)
  pending _ _ hv := absurd hv.symm (Option.some_ne_none _)
  routed _ _ hv := absurd hv.symm (Option.some_ne_none _)
  inside _ _ _ _ hv := absurd hv.symm (Option.some_ne_none _)
  outside _ _ _ _ hv := absurd hv.symm (Option.some_ne_none _)
  backedUp _ hv := absurd hv.symm (Option.some_ne_none _)
  untried _ hv := absurd hv.symm (Option.some_ne_none _)
  present hs x hx hslot := absurd hslot (ho hs x hx)

/-- The unit is written back, with as many copies and the same place. -/
theorem Fits.setUnit {v' : SaveUnit} (h : Fits strict reqs o (some v) a b)
    (hmain : v'.mainRequest = v.mainRequest) (hcount : v'.bkpCount = v.bkpCount)
    (hback : v'.backup = v.backup) (hfail : v'.failCount = v.failCount) :
    Fits strict reqs o (some v') a b where
  free := h.free
  apart := h.apart
  parked hq w hw := by
    obtain rfl := Option.some.inj hw
    exact hback.trans (h.parked hq v rfl)
  pending hq w hw := by
    obtain rfl := Option.some.inj hw
    exact hcount.trans (h.pending hq v rfl)
  routed hq w hw hzero := by
    obtain rfl := Option.some.inj hw
    exact hmain ▸ h.routed hq v rfl (hcount ▸ hzero)
  inside x hx hslot w hw := by
    obtain rfl := Option.some.inj hw
    exact ⟨hcount.trans (h.inside x hx hslot v rfl).1, hback.trans (h.inside x hx hslot v rfl).2⟩
  outside x hx hslot w hw := by
    obtain rfl := Option.some.inj hw
    obtain ⟨hbackup, hnonlocal⟩ := h.outside x hx hslot v rfl
    exact ⟨hback.trans hbackup, fun ht => hmain ▸ hnonlocal fun he => hcount ▸ ht he⟩
  backedUp w hw hbackup := by
    obtain rfl := Option.some.inj hw
    exact h.backedUp v rfl (hback ▸ hbackup)
  untried w hw := by
    obtain rfl := Option.some.inj hw
    exact hfail.trans (h.untried v rfl)
  present _ _ _ _ := rfl

namespace Kernel

/-- The units that were handed to the key manager or the storage for the local save and are
not yet answered. -/
def localSlots (k : Kernel) : ℕ := total (fun _ p => p.slot) k.posted

/-- The size of the live units that are being backed up through the router. -/
def backupSize (k : Kernel) : ℕ := total (fun _ u => u.load) k.saveUnits

/-- The place of an id. -/
def FitsAt (strict : Prop) (k : Kernel) (id : ID32) : Prop :=
  Fits strict k.requests (k.posted.lookup id) (k.saveUnits.lookup id) (id ∈ k.pendingSaveRequests)
    (id ∈ k.pendingRouterSaveReqs)

/-- The counters are right, but for `c` slots that are still to be given back. -/
structure Slots (strict : Prop) (c : ℕ) (k : Kernel) : Prop where
  fits : ∀ id, k.FitsAt strict id
  posted : ∀ id p, k.posted.lookup id = some p → id < k.requestCounter
  unit : ∀ id u, k.saveUnits.lookup id = some u → id < k.requestCounter
  inSave : ∀ id ∈ k.pendingSaveRequests, id < k.requestCounter
  inRouter : ∀ id ∈ k.pendingRouterSaveReqs, id < k.requestCounter
  nodupSave : k.pendingSaveRequests.Nodup
  nodupRouter : k.pendingRouterSaveReqs.Nodup
  cnt : k.storageInputCnt = k.localSlots + c
  size : k.routerSaveInputSize = k.backupSize

variable {strict : Prop} {c c' : ℕ} {k k' : Kernel} {rid id i : ID32} {r r' : Request}
  {u v : SaveUnit} {p x : Post} {reqs : Table ID32 Request} {ids : List ID32}
  {o o' : Option Post} {w w' : Option SaveUnit}

/-! ### One change -/

/-- **What happens to one id.** If only the place of `i` has changed, it fits, and the counters
follow what was there before and is there after, the counters are right again. -/
theorem Slots.change (h : Slots strict c k) (i : ID32)
    (hcounter : k.requestCounter ≤ k'.requestCounter) (hlt : i < k'.requestCounter)
    (hreq : RequestsLe k.requests k'.requests)
    (hposted : ∀ id, id ≠ i → k'.posted.lookup id = k.posted.lookup id)
    (hunits : ∀ id, id ≠ i → k'.saveUnits.lookup id = k.saveUnits.lookup id)
    (hsave : ∀ id, id ≠ i → id ∈ k'.pendingSaveRequests → id ∈ k.pendingSaveRequests)
    (hrouter : ∀ id, id ≠ i → id ∈ k'.pendingRouterSaveReqs → id ∈ k.pendingRouterSaveReqs)
    (hnodup : k'.pendingSaveRequests.Nodup) (hnodup' : k'.pendingRouterSaveReqs.Nodup)
    (ho : k.posted.lookup i = o) (ho' : k'.posted.lookup i = o')
    (hw : k.saveUnits.lookup i = w) (hw' : k'.saveUnits.lookup i = w')
    (hfits : Fits strict k'.requests o' w' (i ∈ k'.pendingSaveRequests)
      (i ∈ k'.pendingRouterSaveReqs))
    (hcnt : k'.storageInputCnt + o.elim 0 Post.slot + c =
      k.storageInputCnt + o'.elim 0 Post.slot + c')
    (hsize : k'.routerSaveInputSize + w.elim 0 SaveUnit.load =
      k.routerSaveInputSize + w'.elim 0 SaveUnit.load) : Slots strict c' k' := by
  have hfresh : ∀ id, id = i ∨ id < k.requestCounter → id < k'.requestCounter := by
    rintro id (rfl | hid)
    · exact hlt
    · exact hid.trans_le hcounter
  refine ⟨fun id => ?_, fun id p hp => hfresh id ?_, fun id u hu => hfresh id ?_,
    fun id hid => hfresh id ?_, fun id hid => hfresh id ?_, hnodup, hnodup', ?_, ?_⟩
  · by_cases hid : id = i
    · rw [FitsAt, hid, ho', hw']
      exact hfits
    · rw [FitsAt, hposted id hid, hunits id hid]
      exact (h.fits id).mono (fun v _ => hreq.nonlocal) (hsave id hid) (hrouter id hid)
  · by_cases hid : id = i
    · exact .inl hid
    · exact .inr (h.posted id p (hposted id hid ▸ hp))
  · by_cases hid : id = i
    · exact .inl hid
    · exact .inr (h.unit id u (hunits id hid ▸ hu))
  · by_cases hne : id = i
    · exact .inl hne
    · exact .inr (h.inSave id (hsave id hne hid))
  · by_cases hne : id = i
    · exact .inl hne
    · exact .inr (h.inRouter id (hrouter id hne hid))
  · have hold := h.cnt
    have hbalance : k'.localSlots + o.elim 0 Post.slot = k.localSlots + o'.elim 0 Post.slot := by
      have htotal := Ledger.total_of_agree (w := fun _ (p : Post) => p.slot) hposted
      rwa [weight, weight, ho, ho'] at htotal
    omega
  · have hold := h.size
    have hbalance : k'.backupSize + w.elim 0 SaveUnit.load =
        k.backupSize + w'.elim 0 SaveUnit.load := by
      have htotal := Ledger.total_of_agree (w := fun _ (u : SaveUnit) => u.load) hunits
      rwa [weight, weight, hw, hw'] at htotal
    omega

/-- Nothing the flow control looks at has changed, but for requests that have gone or have
left the local storage. -/
theorem Slots.congr (h : Slots strict c k) (hcounter : k.requestCounter ≤ k'.requestCounter)
    (hreq : RequestsLe k.requests k'.requests) (hposted : k'.posted = k.posted)
    (hunits : k'.saveUnits = k.saveUnits) (hsave : k'.pendingSaveRequests = k.pendingSaveRequests)
    (hrouter : k'.pendingRouterSaveReqs = k.pendingRouterSaveReqs)
    (hcnt : k'.storageInputCnt = k.storageInputCnt)
    (hsize : k'.routerSaveInputSize = k.routerSaveInputSize) : Slots strict c k' := by
  refine ⟨fun id => ?_, fun id p hp => (h.posted id p (hposted ▸ hp)).trans_le hcounter,
    fun id u hu => (h.unit id u (hunits ▸ hu)).trans_le hcounter,
    fun id hid => (h.inSave id (hsave ▸ hid)).trans_le hcounter,
    fun id hid => (h.inRouter id (hrouter ▸ hid)).trans_le hcounter, hsave ▸ h.nodupSave,
    hrouter ▸ h.nodupRouter, ?_, ?_⟩
  · rw [FitsAt, hposted, hunits, hsave, hrouter]
    exact (h.fits id).mono (fun v _ => hreq.nonlocal) (fun hq => hq) fun hq => hq
  · rw [hcnt, localSlots, hposted]
    exact h.cnt
  · rw [hsize, backupSize, hunits]
    exact h.size

/-- The record of a request that has no units is written. -/
theorem Slots.setRequest (h : Slots strict c k) (r : Request)
    (hmain : ∀ id v, k.saveUnits.lookup id = some v → v.mainRequest ≠ rid) :
    Slots strict c (k.setRequest rid r) := by
  refine ⟨fun id => (h.fits id).mono (fun v hv hn s hs => ?_) (fun hq => hq) fun hq => hq, h.posted,
    h.unit, h.inSave, h.inRouter, h.nodupSave, h.nodupRouter, h.cnt, h.size⟩
  rw [Kernel.setRequest, AList.lookup_insert_ne (hmain id v hv)] at hs
  exact hn s hs

/-! ### The moves of the flow control -/

/-- Where something is posted for an id it is in no queue. -/
theorem Slots.notQueued (h : Slots strict c k) (hp : k.posted.lookup i = some p) :
    i ∉ k.pendingSaveRequests ∧ i ∉ k.pendingRouterSaveReqs := by
  refine ⟨fun hq => ?_, fun hq => ?_⟩
  · exact absurd (hp.symm.trans ((h.fits i).free (.inl hq))) (Option.some_ne_none p)
  · exact absurd (hp.symm.trans ((h.fits i).free (.inr hq))) (Option.some_ne_none p)

/-- A unit is written back and keeps its place. -/
theorem Slots.setUnit (h : Slots strict c k) (hlook : k.saveUnits.lookup i = some u)
    (hmain : v.mainRequest = u.mainRequest) (hcount : v.bkpCount = u.bkpCount)
    (hback : v.backup = u.backup) (hsize : v.size = u.size) (hfail : v.failCount = u.failCount) :
    Slots strict c (k.setUnit i v) := by
  have hfits := h.fits i
  rw [FitsAt, hlook] at hfits
  refine h.change i le_rfl (h.unit i u hlook) (.refl _) (fun _ _ => rfl)
    (fun id hid => AList.lookup_insert_ne hid) (fun _ _ hq => hq) (fun _ _ hq => hq) h.nodupSave
    h.nodupRouter rfl rfl hlook (AList.lookup_insert _) (hfits.setUnit hmain hcount hback hfail)
    rfl ?_
  rw [Option.elim_some, Option.elim_some, SaveUnit.load, SaveUnit.load, hback, hsize]
  rfl

/-- A unit has one more copy. -/
theorem Slots.copy (h : Slots strict c k) (hlook : k.saveUnits.lookup i = some u)
    (hq : i ∉ k.pendingSaveRequests ∧ i ∉ k.pendingRouterSaveReqs)
    (ho : ∀ x ∈ k.posted.lookup i, x.slot = 0) :
    Slots strict c (k.setUnit i { u with bkpCount := u.bkpCount + 1 }) := by
  have hfits := h.fits i
  rw [FitsAt, hlook] at hfits
  exact h.change i le_rfl (h.unit i u hlook) (.refl _) (fun _ _ => rfl)
    (fun id hid => AList.lookup_insert_ne hid) (fun _ _ hq => hq) (fun _ _ hq => hq) h.nodupSave
    h.nodupRouter rfl rfl hlook (AList.lookup_insert _) (hfits.copy hq.1 hq.2 ho) rfl rfl

/-- The key manager or the storage has answered; the slot is still to be given back. -/
theorem Slots.answered (h : Slots strict c k) (hp : k.posted.lookup i = some p)
    (hslot : p.slot = 1) : Slots strict (c + 1) (k.answered i) := by
  refine h.change i le_rfl (h.posted i p hp) (.refl _)
    (fun id hid => AList.lookup_erase_ne hid) (fun _ _ => rfl) (fun _ _ hq => hq)
    (fun _ _ hq => hq) h.nodupSave h.nodupRouter hp (AList.lookup_erase _ _) rfl rfl
    (.idle (h.notQueued hp).1 (h.notQueued hp).2 fun v hv =>
      ⟨((h.fits i).inside p hp hslot v hv).2, (h.fits i).untried v hv⟩) ?_ rfl
  rw [Option.elim_some, Option.elim_none, hslot, Nat.add_zero, Nat.add_assoc, Nat.add_comm 1]
  rfl

/-- `reduce_storage_input_size` gives a slot back. -/
theorem Slots.reduceStorageInputSize (h : Slots strict (c + 1) k) :
    Slots strict c k.reduceStorageInputSize := by
  refine ⟨h.fits, h.posted, h.unit, h.inSave, h.inRouter, h.nodupSave, h.nodupRouter, ?_, h.size⟩
  exact Nat.sub_eq_of_eq_add h.cnt

/-- A slot is taken before the unit is handed over. -/
theorem Slots.takeSlot (h : Slots strict c k) :
    Slots strict (c + 1) { k with storageInputCnt := k.storageInputCnt + 1 } :=
  ⟨h.fits, h.posted, h.unit, h.inSave, h.inRouter, h.nodupSave, h.nodupRouter,
    congrArg (· + 1) h.cnt, h.size⟩

/-- A unit without a copy is handed over on its way to the local storage. -/
theorem Slots.postLocal (h : Slots strict (c + 1) k) (hlook : k.saveUnits.lookup i = some u)
    (hp : k.posted.lookup i = none)
    (hq : i ∉ k.pendingSaveRequests ∧ i ∉ k.pendingRouterSaveReqs) (hslot : x.slot = 1)
    (hzero : u.bkpCount = 0) (hback : u.backup = false) : Slots strict c (k.post i x) := by
  refine h.change i le_rfl (h.unit i u hlook) (.refl _)
    (fun id hid => AList.lookup_insert_ne hid) (fun _ _ => rfl) (fun _ _ hq => hq)
    (fun _ _ hq => hq) h.nodupSave h.nodupRouter hp (AList.lookup_insert _) hlook hlook
    (.local hq.1 hq.2 hslot hzero hback ((h.fits i).untried u hlook)) ?_ rfl
  rw [Option.elim_some, Option.elim_none, hslot, Nat.add_zero, Nat.add_assoc, Nat.add_comm 1]
  rfl

/-- A unit that is in no queue is handed over on its way through the router, and its size
is counted. -/
theorem Slots.startBackup (h : Slots strict c k) (hlook : k.saveUnits.lookup i = some u)
    (hp : k.posted.lookup i = none)
    (hq : i ∉ k.pendingSaveRequests ∧ i ∉ k.pendingRouterSaveReqs) (hback : u.backup = false)
    (hmain : v.mainRequest = u.mainRequest) (hcount : v.bkpCount = u.bkpCount)
    (hsize : v.size = u.size) (hfail : v.failCount = u.failCount) (hback' : v.backup = true)
    (hslot : x.slot = 0)
    (hnonlocal : (x = .tender → u.bkpCount = 0) → Nonlocal k.requests u.mainRequest)
    (hposted : k'.posted = k.posted.insert i x) (hunits : k'.saveUnits = k.saveUnits.insert i v)
    (hrouter : k'.routerSaveInputSize = k.routerSaveInputSize + u.size)
    (hrequests : k'.requests = k.requests) (hcounter : k'.requestCounter = k.requestCounter)
    (hcnt : k'.storageInputCnt = k.storageInputCnt)
    (hqueues : k'.pendingSaveRequests = k.pendingSaveRequests ∧
      k'.pendingRouterSaveReqs = k.pendingRouterSaveReqs) : Slots strict c k' := by
  have hload : u.load = 0 := if_neg (hback.symm ▸ Bool.false_ne_true)
  have hload' : v.load = u.size := (if_pos hback').trans hsize
  refine h.change i hcounter.ge (hcounter ▸ h.unit i u hlook) (hrequests ▸ .refl _)
    (fun id hid => ?_) (fun id hid => ?_) (fun id _ hin => hqueues.1 ▸ hin)
    (fun id _ hin => hqueues.2 ▸ hin) (hqueues.1 ▸ h.nodupSave) (hqueues.2 ▸ h.nodupRouter)
    hp (hposted ▸ AList.lookup_insert _) hlook (hunits ▸ AList.lookup_insert _) ?_ ?_ ?_
  · rw [hposted, AList.lookup_insert_ne hid]
  · rw [hunits, AList.lookup_insert_ne hid]
  · rw [hqueues.1, hqueues.2, hrequests]
    exact .remote hq.1 hq.2 hslot hback' (fun ht => hmain ▸ hnonlocal fun he => hcount ▸ ht he)
      (hfail.trans ((h.fits i).untried u hlook))
  · rw [hcnt, Option.elim_none, Option.elim_some, hslot]
  · rw [hrouter, Option.elim_some, Option.elim_some, hload, hload', Nat.add_zero]

/-- A unit that was encrypted on its way through the router goes on. -/
theorem Slots.repost (h : Slots strict c k) (hlook : k.saveUnits.lookup i = some u)
    (hp : k.posted.lookup i = some p) (hp' : p.slot = 0) (hne : p ≠ .tender)
    (hslot : x.slot = 0) (hposted : k'.posted = k.posted.insert i x)
    (hunits : k'.saveUnits = k.saveUnits) (hreq : RequestsLe k.requests k'.requests)
    (hcounter : k'.requestCounter = k.requestCounter)
    (hcnt : k'.storageInputCnt = k.storageInputCnt)
    (hrouter : k'.routerSaveInputSize = k.routerSaveInputSize)
    (hqueues : k'.pendingSaveRequests = k.pendingSaveRequests ∧
      k'.pendingRouterSaveReqs = k.pendingRouterSaveReqs) : Slots strict c k' := by
  obtain ⟨hback, hnonlocal⟩ := (h.fits i).outside p hp hp' u hlook
  refine h.change i hcounter.ge (hcounter ▸ h.unit i u hlook) hreq
    (fun id hid => ?_) (fun id _ => by rw [hunits]) (fun id _ hin => hqueues.1 ▸ hin)
    (fun id _ hin => hqueues.2 ▸ hin) (hqueues.1 ▸ h.nodupSave) (hqueues.2 ▸ h.nodupRouter)
    hp (hposted ▸ AList.lookup_insert _) hlook (hunits ▸ hlook) ?_ ?_ ?_
  · rw [hposted, AList.lookup_insert_ne hid]
  · rw [hqueues.1, hqueues.2]
    exact .remote (h.notQueued hp).1 (h.notQueued hp).2 hslot hback
      (fun _ => hreq.nonlocal (hnonlocal fun he => absurd he hne)) ((h.fits i).untried u hlook)
  · rw [hcnt, Option.elim_some, Option.elim_some, hslot, hp']
  · rw [hrouter]

/-- A unit that is in no queue is queued for the router. -/
theorem Slots.pushRouter (h : Slots strict c k) (hlook : k.saveUnits.lookup i = some u)
    (hp : k.posted.lookup i = none)
    (hq : i ∉ k.pendingSaveRequests ∧ i ∉ k.pendingRouterSaveReqs) (hback : u.backup = false)
    (hnonlocal : u.bkpCount = 0 → Nonlocal k.requests u.mainRequest) :
    Slots strict c { k with pendingRouterSaveReqs := i :: k.pendingRouterSaveReqs } := by
  refine h.change i le_rfl (h.unit i u hlook) (.refl _) (fun _ _ => rfl) (fun _ _ => rfl)
    (fun _ _ hin => hin) (fun id hid hin => (List.mem_cons.mp hin).resolve_left hid) h.nodupSave
    (List.nodup_cons.mpr ⟨hq.2, h.nodupRouter⟩) hp hp hlook hlook
    (.waitsForRouter hq.1 fun v hv => ?_) rfl rfl
  obtain rfl := Option.some.inj hv
  exact ⟨hback, hnonlocal, (h.fits i).untried u hlook⟩

/-- Ids may leave the queues. -/
theorem Slots.dequeue {s q : List ID32} (h : Slots strict c k)
    (hs : s.Sublist k.pendingSaveRequests) (hq : q.Sublist k.pendingRouterSaveReqs) :
    Slots strict c { k with pendingSaveRequests := s, pendingRouterSaveReqs := q } :=
  ⟨fun id => (h.fits id).mono (fun _ _ hn => hn) (fun hin => hs.subset hin)
      fun hin => hq.subset hin,
    h.posted, h.unit, fun id hid => h.inSave id (hs.subset hid),
    fun id hid => h.inRouter id (hq.subset hid), h.nodupSave.sublist hs, h.nodupRouter.sublist hq,
    h.cnt, h.size⟩

/-- A unit is forgotten, and what it adds to the size being backed up is given back. -/
theorem Slots.eraseUnit (h : Slots strict c k) (hlook : k.saveUnits.lookup i = some u)
    (ho : strict → ∀ x ∈ k.posted.lookup i, x.slot ≠ 1) :
    Slots strict c ((k.reduceRouterSaveInputSize u.load).eraseUnit i) := by
  have hload : u.load ≤ k.routerSaveInputSize := by
    rw [h.size]
    exact Ledger.le_total_of_lookup (w := fun _ u => SaveUnit.load u) hlook
  exact h.change i le_rfl (h.unit i u hlook) (.refl _) (fun _ _ => rfl)
    (fun id hid => AList.lookup_erase_ne hid) (fun _ _ hq => hq) (fun _ _ hq => hq) h.nodupSave
    h.nodupRouter rfl rfl hlook (AList.lookup_erase _ _) ((h.fits i).gone ho) rfl
    (Nat.sub_add_cancel hload)

/-! ### New units -/

/-- The next id is free. -/
theorem Slots.fresh (h : Slots strict c k) : k.posted.lookup k.requestCounter = none ∧
    k.saveUnits.lookup k.requestCounter = none ∧ k.requestCounter ∉ k.pendingSaveRequests ∧
      k.requestCounter ∉ k.pendingRouterSaveReqs := by
  refine ⟨Option.eq_none_iff_forall_ne_some.mpr fun p hp => lt_irrefl _ (h.posted _ p hp),
    Option.eq_none_iff_forall_ne_some.mpr fun u hu => lt_irrefl _ (h.unit _ u hu), ?_, ?_⟩
  · exact fun hin => lt_irrefl _ (h.inSave _ hin)
  · exact fun hin => lt_irrefl _ (h.inRouter _ hin)

/-- The new record of a request says where it is saved. -/
theorem nonlocal_insert (hlocal : r.isLocal = false) : Nonlocal (reqs.insert rid r) rid := by
  intro s hs
  rw [AList.lookup_insert] at hs
  exact Option.some.inj hs ▸ hlocal

/-- The unit of a piece is prepared and queued. -/
theorem Slots.preparePiece {b s : ℕ} {uuid : UUID} (h : Slots strict c k)
    (hr : k.requests.lookup rid = some r) :
    Slots strict c (k.prepareUnitForSave rid r b s .piece uuid [] false) := by
  obtain ⟨hp, hu, hsave, hrouter⟩ := h.fresh
  have hmem : ∀ (q : List ID32) (P : Prop) [Decidable P] (id : ID32), id ≠ k.requestCounter →
      id ∈ (if P then k.requestCounter :: q else q) → id ∈ q := by
    intro q P _ id hid hin
    split_ifs at hin
    · exact (List.mem_cons.mp hin).resolve_left hid
    · exact hin
  have hnodup : ∀ (q : List ID32) (P : Prop) [Decidable P], k.requestCounter ∉ q → q.Nodup →
      (if P then k.requestCounter :: q else q).Nodup := by
    intro q P _ hnot hq
    split_ifs
    · exact List.nodup_cons.mpr ⟨hnot, hq⟩
    · exact hq
  refine h.change k.requestCounter (Nat.le_succ _) (Nat.lt_succ_self _)
    (RequestsLe.insert hr fun hl => hl) (fun _ _ => rfl) (fun id hid => AList.lookup_insert_ne hid)
    (hmem _ _) (hmem _ _) (hnodup _ _ hsave h.nodupSave) (hnodup _ _ hrouter h.nodupRouter) hp hp hu
    (AList.lookup_insert _) ?_ rfl rfl
  rcases hlocal : r.isLocal with _ | _
  · refine .waitsForRouter ?_ fun v hv => ?_
    · simpa [prepareUnitForSave, hlocal] using hsave
    · obtain rfl := Option.some.inj hv
      exact ⟨rfl, fun _ => nonlocal_insert hlocal, rfl⟩
  · refine .waitsForStorage ?_ fun v hv => ?_
    · simpa [prepareUnitForSave, hlocal] using hrouter
    · obtain rfl := Option.some.inj hv
      exact ⟨rfl, rfl, rfl⟩

end Kernel

end Metax
