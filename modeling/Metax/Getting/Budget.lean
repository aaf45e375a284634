import Metax.Getting.Invariant

/-!
# The budget for gets

`m_router_get_input_size` should be the sum of the sizes of the pieces the router was asked for
(`Exact`). A piece is paid for when the router is asked, and refunded when it answers; but a piece
that the storage fails to read is refunded too, although nobody paid for it. And the sum is one of
32 bits, while a master object may name pieces of any size.

In every run the sum is right exactly as long as neither happens (`Charged`).
-/

namespace Metax

namespace Getting

open Ledger (Table)

variable {s t : State} {id pid i : ID32} {r r' p : Request} {uuid : UUID} {e : Event}

/-- Posting what waits, oldest first, while there is room, the sum stays one of 32 bits. -/
def Fits (max : ℕ) : ℕ → List ℕ → Prop
  | _, [] => True
  | c, n :: ns => c < max → c + n < 2 ^ 32 ∧ Fits max (c + n) ns

instance (max : ℕ) : ∀ (c : ℕ) (ns : List ℕ), Decidable (Fits max c ns)
  | _, [] => .isTrue trivial
  | c, n :: ns =>
    have := instDecidableFits max (c + n) ns
    inferInstanceAs (Decidable (c < max → c + n < 2 ^ 32 ∧ Fits max (c + n) ns))

namespace State

/-- The counter is the sum, and was never cut off at zero. -/
def Exact (s : State) : Prop :=
  s.routerGetInputSize.toNat = s.postedSize ∧ s.negative = false

instance (s : State) : Decidable s.Exact := inferInstanceAs (Decidable (_ ∧ _))

theorem Keeps.exact_iff (h : Keeps s t) : t.Exact ↔ s.Exact := by
  rw [Exact, Exact, h.size, h.negative, h.postedSize]

/-! ### The loop -/

/-- What the loop does with the ids it is given. -/
structure Posts (s t : State) (ids : List ID32) : Prop where
  negative : t.negative = s.negative
  router : ∀ id n, s.posted.lookup id = some (.getRouter n) →
    t.posted.lookup id = some (.getRouter n)
  placed : ∀ i ∈ ids, i ∈ t.pendingRouterGetReqs ∨ ∃ n, t.posted.lookup i = some (.getRouter n)
  loose : ∀ i, Loose { s with pendingRouterGetReqs := ids } i → t.Loose i
  added : ∃ w, t.postedSize = s.postedSize + w ∧
    t.routerGetInputSize = s.routerGetInputSize + .ofNat w
  exact_iff : s.routerGetInputSize.toNat = s.postedSize →
    (t.routerGetInputSize.toNat = t.postedSize ↔
      Fits s.maxRouterGetInputSize.toNat s.postedSize (ids.map s.pieceSize))

/-- What is posted to the router is paid for. -/
theorem postedSize_post (hnone : s.posted.lookup id = none) (n : UInt32) :
    (s.post id (.getRouter n)).postedSize = s.postedSize + n.toNat :=
  Ledger.total_insert_of_notMem hnone

theorem Posts.nil (s : State) : Posts s { s with pendingRouterGetReqs := [] } [] where
  negative := rfl
  router _ _ h := h
  placed := List.forall_mem_nil _
  loose _ h := h
  added := ⟨0, rfl, (UInt32.add_zero _).symm⟩
  exact_iff h := iff_of_true h trivial

/-- There is no room. -/
theorem Posts.stop {ids : List ID32} (hfull : ¬ s.routerGetInputSize < s.maxRouterGetInputSize) :
    Posts s { s with pendingRouterGetReqs := i :: ids } (i :: ids) where
  negative := rfl
  router _ _ h := h
  placed j hj := .inl hj
  loose _ h := h
  added := ⟨0, rfl, (UInt32.add_zero _).symm⟩
  exact_iff h := by
    refine iff_of_true h fun hlt => absurd ?_ hfull
    rw [UInt32.lt_iff_toNat_lt, h]
    exact hlt

/-- The oldest is posted. -/
theorem Sound.postOldest {ids : List ID32}
    (h : Sound { s with pendingRouterGetReqs := i :: ids })
    (hr : s.requests.lookup i = some r) :
    Sound { (State.post { s.setRequest i { r with st := .requested } with
        routerGetInputSize := s.routerGetInputSize + r.size } i (.getRouter r.size)) with
      pendingRouterGetReqs := ids } ∧
    ∀ j, Loose { s with pendingRouterGetReqs := i :: ids } j →
      Loose { (State.post { s.setRequest i { r with st := .requested } with
          routerGetInputSize := s.routerGetInputSize + r.size } i (.getRouter r.size)) with
        pendingRouterGetReqs := ids } j := by
  obtain ⟨s₀, hs₀⟩ : ∃ x : State, x = { s with pendingRouterGetReqs := ids } := ⟨_, rfl⟩
  have hnodup : (i :: ids).Nodup := h.nodup
  obtain ⟨hpiece, hnone⟩ := h.waiting i List.mem_cons_self
  have hsound : Sound s₀ := by
    rw [hs₀]
    exact ⟨h.posted, fun j hj => h.waiting j (.tail i hj), hnodup.of_cons, h.unitsNodup,
      fun k p hp u hu => (h.units k p hp u hu).imp_right fun hplace =>
        ⟨hplace.1, fun hmem => hplace.2 (.tail i hmem)⟩, h.getsNodup, h.gets⟩
  have hloose : s₀.Loose i := by
    rw [hs₀]
    refine ⟨hpiece, hnone, (List.nodup_cons.mp hnodup).1, fun k p hp hu => ?_⟩
    exact (h.units k p hp i hu).2.2 List.mem_cons_self
  have hr₀ : s₀.requests.lookup i = some r := by
    rw [hs₀]
    exact hr
  have hlike : Like r { r with st := .requested } := ⟨rfl, rfl, rfl, rfl, .refl _⟩
  have hset := (hsound.setRequest hr₀ hlike).post ((moves_setRequest hr₀ hlike).loose i hloose)
    (q := .getRouter r.size) fun n hn r' hr' => by
      rw [State.setRequest, AList.lookup_insert] at hr'
      rw [← Option.some.inj hr']
      exact Post.getRouter.inj hn
  have hothers : ∀ j, Loose { s with pendingRouterGetReqs := i :: ids } j →
      ((s₀.setRequest i { r with st := .requested }).post i (.getRouter r.size)).Loose j := by
    intro j hj
    have hne : j ≠ i := by
      rintro rfl
      exact hj.waiting List.mem_cons_self
    have hj₀ : s₀.Loose j := by
      rw [hs₀]
      exact ⟨hj.piece, hj.posted, fun hmem => hj.waiting (.tail i hmem), hj.units⟩
    exact Loose.post ((moves_setRequest hr₀ hlike).loose j hj₀) hne
  rw [hs₀] at hset hothers
  refine ⟨⟨hset.posted, hset.waiting, hset.nodup, hset.unitsNodup, hset.units, hset.getsNodup,
    hset.gets⟩, fun j hj => ?_⟩
  have hj' := hothers j hj
  exact ⟨hj'.piece, hj'.posted, hj'.waiting, hj'.units⟩

/-- **The loop** pays for what it posts. -/
theorem Sound.postPending {ids : List ID32} (h : Sound { s with pendingRouterGetReqs := ids })
    (hstep : s.postPending ids = some t) : Sound t ∧ Posts s t ids := by
  induction ids generalizing s with
  | nil =>
    obtain rfl := Option.some.inj hstep
    exact ⟨h, .nil s⟩
  | cons i ids ih =>
    rw [State.postPending] at hstep
    split_ifs at hstep with hroom
    -- the oldest request waits with its size, and is asked for now
    · obtain ⟨⟨r, hr, htyp⟩, hnone⟩ := h.waiting i List.mem_cons_self
      have hr' : s.requests.lookup i = some r := hr
      rw [hr'] at hstep
      obtain ⟨s₁, hs₁, hloop⟩ := Option.bind_eq_some_iff.mp hstep
      obtain ⟨-, heq⟩ := pocoAssert_eq_some.mp hs₁
      have hs₁ := (Option.some.inj heq).symm
      obtain ⟨hsound, hothers⟩ := h.postOldest hr'
      have hsound₁ : Sound { s₁ with pendingRouterGetReqs := ids } := by
        rw [hs₁]
        exact hsound
      obtain ⟨ht, hposts⟩ := ih hsound₁ hloop
      have hsize : s₁.postedSize = s.postedSize + r.size.toNat := by
        rw [hs₁]
        exact postedSize_post hnone r.size
      have hcounter : s₁.routerGetInputSize = s.routerGetInputSize + r.size := by
        rw [hs₁]
        rfl
      have hposted : s₁.posted = s.posted.insert i (.getRouter r.size) := by
        rw [hs₁]
        rfl
      obtain ⟨w, hw, hcw⟩ := hposts.added
      -- the parts of `Posts`, each of the first request and of the rest
      refine ⟨ht, ?_, fun j n hj => ?_, fun j hj => ?_, fun j hj => ?_,
        ⟨r.size.toNat + w, ?_, ?_⟩, fun hexact => ?_⟩
      · rw [hposts.negative, hs₁]
        rfl
      · refine hposts.router j n ?_
        rw [hposted, AList.lookup_insert_ne ?_]
        · exact hj
        · rintro rfl
          have hnone' : s.posted.lookup j = none := hnone
          rw [hnone'] at hj
          cases hj
      · obtain rfl | hj := List.mem_cons.mp hj
        · refine .inr ⟨r.size, hposts.router j r.size ?_⟩
          rw [hposted]
          exact AList.lookup_insert _
        · exact hposts.placed j hj
      · refine hposts.loose j ?_
        rw [hs₁]
        exact hothers j hj
      · omega
      · rw [hcw, hcounter, UInt32.ofNat_add, UInt32.ofNat_toNat, UInt32.add_assoc]
      · have hmax : s₁.maxRouterGetInputSize = s.maxRouterGetInputSize := by
          rw [hs₁]
          rfl
        have hsizes : ids.map s₁.pieceSize = ids.map s.pieceSize := by
          refine List.map_congr_left fun j hj => ?_
          rw [pieceSize, pieceSize, hs₁]
          refine congrArg (Option.elim · 0 _) (AList.lookup_insert_ne ?_)
          rintro rfl
          exact (List.nodup_cons.mp h.nodup).1 hj
        have hfirst : s.pieceSize i = r.size.toNat := by
          rw [pieceSize, hr']
          rfl
        have hlt : s.postedSize < s.maxRouterGetInputSize.toNat := by
          rw [← hexact]
          exact UInt32.lt_iff_toNat_lt.mp hroom
        have hsum : s₁.routerGetInputSize.toNat =
            (s.postedSize + r.size.toNat) % 2 ^ 32 := by
          rw [hcounter, UInt32.toNat_add, hexact]
        rw [List.map_cons, Fits, hfirst]
        by_cases hfits : s.postedSize + r.size.toNat < 2 ^ 32
        · rw [Nat.mod_eq_of_lt hfits] at hsum
          rw [hposts.exact_iff (hsum.trans hsize.symm), hmax, hsize, hsizes]
          exact ⟨fun hrest _ => ⟨hfits, hrest⟩, fun hall => (hall hlt).2⟩
        · -- from here on the sum is more than the counter can hold
          refine iff_of_false (fun heq => hfits ?_) fun hall => hfits (hall hlt).1
          have hbound := t.routerGetInputSize.toNat_lt
          omega
    -- the loop stops at the first request without room
    · obtain rfl := Option.some.inj hstep
      exact ⟨h, .stop hroom⟩

/-! ### The refund -/

theorem Sound.reduce (h : Sound s) (n : UInt32) : Sound (s.reduceRouterGetInputSize n) := by
  rw [reduceRouterGetInputSize]
  split_ifs
  · exact ⟨h.posted, h.waiting, h.nodup, h.unitsNodup, h.units, h.getsNodup, h.gets⟩
  · exact ⟨h.posted, h.waiting, h.nodup, h.unitsNodup, h.units, h.getsNodup, h.gets⟩

theorem reduce_spec (s : State) (n : UInt32) :
    (s.reduceRouterGetInputSize n).posted = s.posted ∧
    (s.reduceRouterGetInputSize n).requests = s.requests ∧
    (s.reduceRouterGetInputSize n).pendingRouterGetReqs = s.pendingRouterGetReqs ∧
    (s.reduceRouterGetInputSize n).maxRouterGetInputSize = s.maxRouterGetInputSize := by
  rw [reduceRouterGetInputSize]
  split_ifs
  · exact ⟨rfl, rfl, rfl, rfl⟩
  · exact ⟨rfl, rfl, rfl, rfl⟩

theorem Loose.reduce (h : s.Loose id) (n : UInt32) : (s.reduceRouterGetInputSize n).Loose id := by
  obtain ⟨hposted, hrequests, hwaiting, -⟩ := reduce_spec s n
  refine ⟨?_, ?_, ?_, ?_⟩
  · rw [IsPiece, hrequests]
    exact h.piece
  · rw [hposted]
    exact h.posted
  · rw [hwaiting]
    exact h.waiting
  · rw [hrequests]
    exact h.units

/-- A refund and the loop after it. -/
theorem Sound.settle (h : Sound s) {n : UInt32}
    (hstep : (s.reduceRouterGetInputSize n).processRouterPendingGetRequests = some t) :
    Sound t ∧ Posts (s.reduceRouterGetInputSize n) t s.pendingRouterGetReqs := by
  obtain ⟨-, -, hwaiting, -⟩ := reduce_spec s n
  rw [processRouterPendingGetRequests, hwaiting] at hstep
  refine Sound.postPending ?_ hstep
  rw [← hwaiting]
  exact h.reduce n

/-- **A refund of what was paid** leaves the counter exact, unless the loop overflows it. -/
theorem exact_of_paid {n : UInt32}
    (hposts : Posts (s.reduceRouterGetInputSize n) t s.pendingRouterGetReqs)
    (hpaid : s.routerGetInputSize.toNat = s.postedSize + n.toNat) (hnegative : s.negative = false) :
    t.Exact ↔ Fits s.maxRouterGetInputSize.toNat s.postedSize
      (s.pendingRouterGetReqs.map s.pieceSize) := by
  have hle : n ≤ s.routerGetInputSize := by
    rw [UInt32.le_iff_toNat_le]
    omega
  have hreduce : s.reduceRouterGetInputSize n =
      { s with routerGetInputSize := s.routerGetInputSize - n } := by
    rw [reduceRouterGetInputSize, if_neg (UInt32.not_lt.mpr hle)]
  rw [hreduce] at hposts
  have hcounter : (s.routerGetInputSize - n).toNat = s.postedSize := by
    rw [UInt32.toNat_sub_of_le _ _ hle]
    omega
  rw [Exact, hposts.exact_iff hcounter, hposts.negative]
  exact and_iff_left hnegative

/-- **A refund of what was not paid** leaves it exact only if it is nothing. -/
theorem exact_of_unpaid {n : UInt32}
    (hposts : Posts (s.reduceRouterGetInputSize n) t s.pendingRouterGetReqs)
    (hexact : s.Exact) :
    t.Exact ↔ n.toNat = 0 ∧ Fits s.maxRouterGetInputSize.toNat s.postedSize
      (s.pendingRouterGetReqs.map s.pieceSize) := by
  by_cases hn : n.toNat = 0
  · rw [exact_of_paid hposts (hexact.1.trans (by omega)) hexact.2]
    exact (and_iff_right hn).symm
  · refine iff_of_false (fun ht => ?_) fun hall => hn hall.1
    rw [reduceRouterGetInputSize] at hposts
    split_ifs at hposts with hlt
    · have hnegative := hposts.negative
      rw [ht.2] at hnegative
      cases hnegative
    · -- the counter is behind the sum by what was refunded, whatever was posted since
      obtain ⟨w, hw, hcw⟩ := hposts.added
      have hle : n ≤ s.routerGetInputSize := UInt32.not_lt.mp hlt
      have hsub := UInt32.toNat_sub_of_le _ _ hle
      have hle' := UInt32.le_iff_toNat_le.mp hle
      have hsum := congrArg UInt32.toNat hcw
      dsimp only at hsum
      have hw' : t.postedSize = s.postedSize + w := hw
      rw [UInt32.toNat_add, UInt32.toNat_ofNat', ht.1, hw', hsub, hexact.1] at hsum
      rw [hexact.1] at hle'
      have hmod := Nat.mod_le (s.postedSize - n.toNat + w % 2 ^ 32) (2 ^ 32)
      have hmodw := Nat.mod_le w (2 ^ 32)
      omega

/-! ### Taking an answer -/

/-- What was posted to another task than the router. -/
theorem keeps_answered {q : Post} (hq : s.posted.lookup id = some q)
    (hne : ∀ n, q ≠ .getRouter n) : Keeps s (s.answered id) where
  size := rfl
  negative := rfl
  waiting := rfl
  postedSize := by
    have htotal := Ledger.total_erase (t := s.posted) (k := id) (w := fun _ q => q.cost)
    rw [Ledger.weight_of_lookup hq] at htotal
    cases q with
    | getRouter n => exact absurd rfl (hne n)
    | _ => exact htotal
  router i n hi := by
    refine (AList.lookup_erase_ne ?_).trans hi
    rintro rfl
    rw [hq] at hi
    exact hne n (Option.some.inj hi)

/-- What the router has answered was paid for. -/
theorem postedSize_answered {n : UInt32} (hq : s.posted.lookup id = some (.getRouter n)) :
    (s.answered id).postedSize + n.toNat = s.postedSize := by
  have htotal := Ledger.total_erase (t := s.posted) (k := id) (w := fun _ q => q.cost)
  rw [Ledger.weight_of_lookup hq] at htotal
  exact htotal

theorem Sound.enqueue (h : Sound s) (hid : s.Loose id) :
    Sound { s with pendingRouterGetReqs := s.pendingRouterGetReqs ++ [id] } where
  posted := h.posted
  waiting i hi := by
    obtain hi | hi := List.mem_append.mp hi
    · exact h.waiting i hi
    · obtain rfl := List.mem_singleton.mp hi
      exact ⟨hid.piece, hid.posted⟩
  nodup := h.nodup.append (List.nodup_singleton id) (List.disjoint_singleton.mpr hid.waiting)
  unitsNodup := h.unitsNodup
  units pid p hp u hu := by
    refine (h.units pid p hp u hu).imp_right fun hplace => ⟨hplace.1, fun hmem => ?_⟩
    obtain hmem | hmem := List.mem_append.mp hmem
    · exact hplace.2 hmem
    · obtain rfl := List.mem_singleton.mp hmem
      exact hid.units pid p hp hu
  getsNodup := h.getsNodup
  gets := h.gets

theorem Responds.sizes (h : Responds s t) (hs : Sound s) :
    t.pendingRouterGetReqs.map t.pieceSize = s.pendingRouterGetReqs.map s.pieceSize := by
  rw [h.waiting]
  exact List.map_congr_left fun i hi => h.pieceSize (hs.waiting i hi).1

/-- A piece request that failed: its get is answered, and what it took is refunded. -/
theorem Sound.handleFailedGetRequest (h : Sound s) (hid : s.Loose id)
    (hr : s.requests.lookup id = some r) (hstep : s.handleFailedGetRequest id r = some t) :
    Sound t ∧ ∃ s₁, Responds s s₁ ∧
      Posts (s₁.reduceRouterGetInputSize r.size) t s₁.pendingRouterGetReqs := by
  obtain ⟨r', hr', htyp⟩ := hid.piece
  rw [hr] at hr'
  obtain rfl := Option.some.inj hr'
  rw [State.handleFailedGetRequest.eq_def, htyp] at hstep
  obtain ⟨s₁, hs₁, hsettle⟩ := Option.bind_eq_some_iff.mp hstep
  have hresponds : Sound s₁ ∧ Responds s s₁ := by
    cases hparent : r.parentReqId with
    | none =>
      rw [hparent] at hs₁
      obtain rfl := Option.some.inj hs₁
      exact ⟨h, .refl s⟩
    | some pid =>
      rw [hparent] at hs₁
      exact h.handleFailedImsGetRequest hs₁
  obtain ⟨ht, hposts⟩ := hresponds.1.settle hsettle
  exact ⟨ht, s₁, hresponds.2, hposts⟩

theorem answer_eq_some {q : Post} (h : s.answer id q = some t) :
    s.posted.lookup id = some q ∧ t = s.answered id := by
  rw [answer] at h
  split_ifs at h with hq
  exact ⟨hq, (Option.some.inj h).symm⟩

theorem routerAnswer_eq_some (h : s.routerAnswer id = some t) :
    ∃ n, s.posted.lookup id = some (.getRouter n) ∧ t = s.answered id := by
  rw [routerAnswer.eq_def] at h
  split at h
  · next n hq => exact ⟨n, hq, (Option.some.inj h).symm⟩
  · cases h

end State

open State

/-! ### Steps -/

/-- What the kernel is charged with in this step: it is not told of a failure of the storage to read
a piece, unless the piece is empty, and the loop stays within 32 bits. -/
def Charged (s : State) : Event → Prop
  | .storageNack id => Fits s.maxRouterGetInputSize.toNat s.postedSize
    ((s.pendingRouterGetReqs ++ [id]).map s.pieceSize)
  | .storageFailed id => s.pieceSize id = 0 ∧ Fits s.maxRouterGetInputSize.toNat s.postedSize
    (s.pendingRouterGetReqs.map s.pieceSize)
  | .routerGetData id | .routerCancel id =>
    Fits s.maxRouterGetInputSize.toNat (s.postedSize - s.pieceSize id)
      (s.pendingRouterGetReqs.map s.pieceSize)
  | _ => True

instance (s : State) : ∀ e : Event, Decidable (Charged s e)
  | .storageNack _ | .routerGetData _ | .routerCancel _ => inferInstanceAs (Decidable (Fits _ _ _))
  | .storageFailed _ => inferInstanceAs (Decidable (_ ∧ Fits _ _ _))
  | .elsewhere _ | .kernelCfg _ | .imsGet _ _ | .imsCleanStream _ | .gotMaster _ _
  | .streamChunk _ _ _ _ | .storageAck _ | .storageGetData _ | .decrypted _
  | .decryptionFail _ => .isTrue trivial

/-- A live piece request that waits for the router, or begins to, goes on waiting or is posted. -/
def Placed (s : State) (e : Event) (t : State) : Prop :=
  ∀ id, (id ∈ s.pendingRouterGetReqs ∨ e = .storageNack id) → (s.requests.lookup id).isSome →
    id ∈ t.pendingRouterGetReqs ∨ ∃ n, t.posted.lookup id = some (.getRouter n)

/-- **The law**: the counter is the sum and was not cut off, and nothing that waits is dropped. -/
def Lawful (s : State) (e : Event) : Prop := ∀ t ∈ step s e, t.Exact ∧ Placed s e t

/-- What there is to show of a step. -/
def Settled (s : State) (e : Event) (t : State) : Prop :=
  Sound t ∧ Placed s e t ∧ (s.Exact → (t.Exact ↔ Charged s e))

/-- A step that leaves the budget alone. -/
theorem settled_of_keeps (h : Sound t ∧ Keeps s t) (hcharged : Charged s e)
    (hne : ∀ id, e ≠ .storageNack id) : Settled s e t := by
  refine ⟨h.1, fun i hi _ => ?_, fun hexact => iff_of_true (h.2.exact_iff.mpr hexact) hcharged⟩
  rw [h.2.waiting]
  exact .inl (hi.resolve_right (hne i))

/-- What is posted is refunded once it is answered. -/
theorem settled_of_paid {n : UInt32} {s₁ : State} (h : Sound s)
    (hq : s.posted.lookup id = some (.getRouter n)) (hresponds : Responds (s.answered id) s₁)
    (ht : Sound t) (hposts : Posts (s₁.reduceRouterGetInputSize n) t s₁.pendingRouterGetReqs)
    (hcharged : Charged s e ↔ Fits s.maxRouterGetInputSize.toNat (s.postedSize - s.pieceSize id)
      (s.pendingRouterGetReqs.map s.pieceSize))
    (hne : ∀ id, e ≠ .storageNack id) : Settled s e t := by
  have hsum := postedSize_answered hq
  have hkeeps := hresponds.moves.toKeeps
  obtain ⟨r, hr, -, hsize⟩ := h.posted id _ hq
  have hpiece : s.pieceSize id = n.toNat := by
    rw [pieceSize, hr]
    exact congrArg UInt32.toNat (hsize n rfl)
  refine ⟨ht, fun i hi _ => hposts.placed i ?_, fun hexact => ?_⟩
  · rw [hresponds.waiting]
    exact hi.resolve_right (hne i)
  · have hsizes : s₁.pendingRouterGetReqs.map s₁.pieceSize =
        s.pendingRouterGetReqs.map s.pieceSize := hresponds.sizes (h.answered id)
    have hmax : s₁.maxRouterGetInputSize = s.maxRouterGetInputSize := hresponds.maxSize
    have hpaid : s₁.routerGetInputSize.toNat = s₁.postedSize + n.toNat := by
      rw [hkeeps.postedSize, hsum, ← hexact.1]
      exact congrArg UInt32.toNat hkeeps.size
    have hrest : s.postedSize - n.toNat = s₁.postedSize := by
      rw [hkeeps.postedSize]
      omega
    rw [exact_of_paid hposts hpaid (hkeeps.negative.trans hexact.2), hcharged, hsizes, hmax,
      hpiece, hrest]

/-- The storage does not have the piece: it waits for the router, with those that wait already. -/
theorem settled_storageNack (h : Sound s) (hstep : step s (.storageNack id) = some t) :
    Settled s (.storageNack id) t := by
  obtain ⟨s₁, hs₁, hrest⟩ := Option.bind_eq_some_iff.mp hstep
  obtain ⟨hq, rfl⟩ := answer_eq_some hs₁
  have hloose := h.loose_answered hq
  have hkeeps := keeps_answered hq (by simp)
  obtain ⟨r, hr, -⟩ := hloose.piece
  obtain ⟨s₂, hs₂⟩ : ∃ x : State, x = { s.answered id with
    pendingRouterGetReqs := (s.answered id).pendingRouterGetReqs ++ [id] } := ⟨_, rfl⟩
  have hsound : Sound s₂ := by
    rw [hs₂]
    exact (h.answered id).enqueue hloose
  have hqueue : s₂.pendingRouterGetReqs = s.pendingRouterGetReqs ++ [id] := by
    rw [hs₂]
    rfl
  have hsum : s₂.postedSize = s.postedSize := by
    rw [hs₂]
    exact hkeeps.postedSize
  have hcharged : Charged s (.storageNack id) ↔ Fits s₂.maxRouterGetInputSize.toNat
      s.postedSize (s₂.pendingRouterGetReqs.map s₂.pieceSize) := by
    rw [hs₂]
    exact Iff.rfl
  have hsize : s₂.routerGetInputSize = s.routerGetInputSize := by
    rw [hs₂]
    rfl
  have hnegative : s₂.negative = s.negative := by
    rw [hs₂]
    rfl
  rw [withRequest, hr, Option.elim_some, ← hs₂] at hrest
  obtain ⟨ht, hposts⟩ := @Sound.postPending s₂ t s₂.pendingRouterGetReqs hsound hrest
  refine ⟨ht, fun i hi _ => hposts.placed i ?_, fun hexact => ?_⟩
  · rw [hqueue]
    obtain hi | hi := hi
    · exact List.mem_append_left _ hi
    · obtain rfl := Event.storageNack.inj hi
      exact List.mem_append_right _ List.mem_cons_self
  · have hcounter : s₂.routerGetInputSize.toNat = s₂.postedSize := by
      rw [hsize, hsum]
      exact hexact.1
    rw [Exact, hposts.exact_iff hcounter, hsum, hposts.negative, hnegative, hcharged]
    exact and_iff_left hexact.2

/-- The storage fails to read a piece: its size is paid back, though it was not charged. -/
theorem settled_storageFailed (h : Sound s) (hstep : step s (.storageFailed id) = some t) :
    Settled s (.storageFailed id) t := by
  obtain ⟨s₁, hs₁, hrest⟩ := Option.bind_eq_some_iff.mp hstep
  obtain ⟨hq, rfl⟩ := answer_eq_some hs₁
  have hloose := h.loose_answered hq
  obtain ⟨r, hr, -⟩ := hloose.piece
  rw [withRequest, hr] at hrest
  obtain ⟨ht, s₂, hresponds, hposts⟩ := (h.answered id).handleFailedGetRequest hloose hr hrest
  have hkeeps := (keeps_answered hq (by simp)).trans hresponds.moves.toKeeps
  have hsizes : s₂.pendingRouterGetReqs.map s₂.pieceSize =
    s.pendingRouterGetReqs.map s.pieceSize := hresponds.sizes (h.answered id)
  have hmax : s₂.maxRouterGetInputSize = s.maxRouterGetInputSize := hresponds.maxSize
  have hpiece : s.pieceSize id = r.size.toNat := by
    have hr' : s.requests.lookup id = some r := hr
    rw [pieceSize, hr']
    rfl
  refine ⟨ht, fun i hi _ => hposts.placed i ?_, fun hexact => ?_⟩
  · rw [hkeeps.waiting]
    exact hi.resolve_right (by simp)
  · rw [exact_of_unpaid hposts (hkeeps.exact_iff.mpr hexact), hsizes, hmax, hkeeps.postedSize,
      ← hpiece]
    exact Iff.rfl

/-- A piece arrives through the router: its size is paid back, and the next ones are posted. -/
theorem settled_routerGetData (h : Sound s) (hstep : step s (.routerGetData id) = some t) :
    Settled s (.routerGetData id) t := by
  obtain ⟨s₁, hs₁, hrest⟩ := Option.bind_eq_some_iff.mp hstep
  obtain ⟨n, hq, rfl⟩ := routerAnswer_eq_some hs₁
  have hloose := h.loose_answered hq
  obtain ⟨r, hr, -, hsize⟩ := h.posted id _ hq
  have hr' : (s.answered id).requests.lookup id = some r := hr
  rw [withRequest, hr', Option.elim_some, hsize n rfl] at hrest
  obtain ⟨s₂, hs₂, hpiece⟩ := Option.bind_eq_some_iff.mp hrest
  obtain ⟨r₂, -, hhandle⟩ := Option.bind_eq_some_iff.mp hpiece
  obtain ⟨hsound, hposts⟩ := (h.answered id).settle hs₂
  have hloose₂ : s₂.Loose id := by
    refine hposts.loose id ?_
    have hreduced := hloose.reduce n
    exact ⟨hreduced.piece, hreduced.posted, hloose.waiting, hreduced.units⟩
  obtain ⟨ht, hkeeps⟩ := hsound.handlePiece hloose₂ hhandle
  obtain ⟨-, hplaced, hexact⟩ := settled_of_paid (e := .routerGetData id) h hq (.refl _) hsound
    hposts Iff.rfl (by simp)
  refine ⟨ht, fun i hi hsome => ?_, fun he => hkeeps.exact_iff.trans (hexact he)⟩
  rw [hkeeps.waiting]
  exact (hplaced i hi hsome).imp_right (.imp fun m => hkeeps.router i m)

/-- **One step.** -/
theorem step_spec (h : Sound s) (hstep : step s e = some t) : Settled s e t := by
  cases e with
  -- events of others, and of the configuration
  | elsewhere counter =>
    obtain rfl := Option.some.inj hstep
    exact settled_of_keeps ⟨⟨h.posted, h.waiting, h.nodup, h.unitsNodup, h.units, h.getsNodup,
      h.gets⟩, .of_posted rfl rfl rfl rfl⟩ trivial (by simp)
  | kernelCfg n =>
    obtain rfl := Option.some.inj hstep
    exact settled_of_keeps ⟨⟨h.posted, h.waiting, h.nodup, h.unitsNodup, h.units, h.getsNodup,
      h.gets⟩, .of_posted rfl rfl rfl rfl⟩ trivial (by simp)
  | imsGet ims uuid => exact settled_of_keeps (h.handleImsGetRequest hstep) trivial (by simp)
  | imsCleanStream id =>
    rw [step] at hstep
    split_ifs at hstep
    exact settled_of_keeps (h.handleImsCleanStreamRequest hstep) trivial (by simp)
  -- a master object makes requests for pieces, which wait for the storage
  | gotMaster id m =>
    refine settled_of_keeps ?_ trivial (by simp)
    rw [step, withRequest] at hstep
    cases hr : s.requests.lookup id with
    | none =>
      rw [hr] at hstep
      obtain rfl := Option.some.inj hstep
      exact ⟨h, .refl s⟩
    | some r =>
      rw [hr, Option.elim_some] at hstep
      split_ifs at hstep
      have hlike : Like r { r with awaits := false } := ⟨rfl, rfl, rfl, rfl, .refl _⟩
      exact ((h.setRequest hr hlike).handleUnencryptedMasterObject (AList.lookup_insert _)
        hstep).imp_right (moves_setRequest hr hlike).toKeeps.trans
  | streamChunk pid uuid size encrypted =>
    refine settled_of_keeps ?_ trivial (by simp)
    obtain ⟨p, hp, hrest⟩ := Option.bind_eq_some_iff.mp hstep
    split_ifs at hrest
    obtain ⟨⟨s₁, id⟩, hnew, heq⟩ := Option.map_eq_some_iff.mp hrest
    obtain rfl := heq
    obtain ⟨hsound, hmoves, hloose, -⟩ := h.newPieceRequest hnew
    exact ⟨hsound.post hloose (by simp), hmoves.toKeeps.trans (hloose.keeps_post (by simp))⟩
  -- an answer of the storage or the key manager: its request is loose for the rest of the step
  | storageAck id =>
    refine settled_of_keeps ?_ trivial (by simp)
    obtain ⟨s₁, hs₁, hrest⟩ := Option.bind_eq_some_iff.mp hstep
    obtain ⟨hq, rfl⟩ := answer_eq_some hs₁
    have hloose := h.loose_answered hq
    have hkeeps := keeps_answered hq (by simp)
    obtain ⟨r, hr, -⟩ := hloose.piece
    rw [withRequest, hr] at hrest
    obtain rfl := Option.some.inj hrest
    have hlike : Like r { r with st := .sending } := ⟨rfl, rfl, rfl, rfl, .refl _⟩
    have hset := moves_setRequest hr hlike
    have hloose' := hset.loose id hloose
    exact ⟨((h.answered id).setRequest hr hlike).post hloose' (by simp),
      hkeeps.trans (hset.toKeeps.trans (hloose'.keeps_post (by simp)))⟩
  | storageNack id => exact settled_storageNack h hstep
  | storageGetData id =>
    refine settled_of_keeps ?_ trivial (by simp)
    obtain ⟨s₁, hs₁, hrest⟩ := Option.bind_eq_some_iff.mp hstep
    obtain ⟨hq, rfl⟩ := answer_eq_some hs₁
    have hloose := h.loose_answered hq
    obtain ⟨r, hr, -⟩ := hloose.piece
    rw [withRequest, hr] at hrest
    exact ((h.answered id).handlePiece hloose hrest).imp_right
      (keeps_answered hq (by simp)).trans
  | storageFailed id => exact settled_storageFailed h hstep
  | decrypted id =>
    refine settled_of_keeps ?_ trivial (by simp)
    obtain ⟨s₁, hs₁, hrest⟩ := Option.bind_eq_some_iff.mp hstep
    obtain ⟨hq, rfl⟩ := answer_eq_some hs₁
    obtain ⟨r, hr, hhandle⟩ := Option.bind_eq_some_iff.mp hrest
    exact ((h.answered id).handleGetRequestAfterDecrypt (h.loose_answered hq) hhandle).imp_right
      (keeps_answered hq (by simp)).trans
  | decryptionFail id =>
    refine settled_of_keeps ?_ trivial (by simp)
    obtain ⟨s₁, hs₁, hrest⟩ := Option.bind_eq_some_iff.mp hstep
    obtain ⟨hq, rfl⟩ := answer_eq_some hs₁
    obtain ⟨r, hr, hhandle⟩ := Option.bind_eq_some_iff.mp hrest
    exact ((h.answered id).handleKeyManagerFailedGetRequest (h.loose_answered hq)
      hhandle).imp_right (keeps_answered hq (by simp)).trans
  | routerGetData id => exact settled_routerGetData h hstep
  -- the router gives the piece up, which it was asked for: it is refunded
  | routerCancel id =>
    obtain ⟨s₁, hs₁, hrest⟩ := Option.bind_eq_some_iff.mp hstep
    obtain ⟨n, hq, rfl⟩ := routerAnswer_eq_some hs₁
    obtain ⟨r, hr, -, hsize⟩ := h.posted id _ hq
    have hr' : (s.answered id).requests.lookup id = some r := hr
    rw [withRequest, hr'] at hrest
    obtain ⟨ht, s₂, hresponds, hposts⟩ :=
      (h.answered id).handleFailedGetRequest (h.loose_answered hq) hr' hrest
    rw [hsize n rfl] at hposts
    exact settled_of_paid h hq hresponds ht hposts Iff.rfl (by simp)

theorem sound_init (requestCounter : ID32) : Sound (.init requestCounter) where
  posted _ _ h := by cases h
  waiting _ h := by cases h
  nodup := .nil
  unitsNodup _ _ h := by cases h
  units _ _ h := by cases h
  getsNodup _ _ h := by cases h
  gets _ _ h := by cases h

/-- **The budget is kept** over a run exactly if no step charges the kernel with more. -/
theorem budget_kept_iff (requestCounter : ID32) (es : List Event)
    (hrun : (Run.run step (.init requestCounter) es).isSome) :
    Run.Along step Lawful (.init requestCounter) es ↔
      Run.Along step Charged (.init requestCounter) es := by
  have hsound : ∀ s e t, Sound s → step s e = some t → Sound t := fun _ _ _ hs hstep =>
    (step_spec hs hstep).1
  have hinit : Exact (.init requestCounter) := ⟨rfl, rfl⟩
  rw [← Run.along_iff_of_exact Sound Exact hsound
    (fun s e t hs hexact hstep => (step_spec hs hstep).2.2 hexact) (sound_init _) hinit hrun]
  constructor
  · exact Run.Along.mono fun s e h t ht => (h t ht).1
  · intro h
    refine Run.Along.of_invariant Sound (fun s e t hs _ hstep => hsound s e t hs hstep)
      (fun s e hs hexact t ht => ⟨hexact t ht, (step_spec hs ht).2.1⟩) (sound_init _) h

/-- **A file of two pieces** that other nodes have: one comes and one does not. -/
theorem budget_kept_twoPieces : Run.Along step Lawful (.init 0) [.imsGet 9 5,
    .gotMaster 0 (some (.file [⟨7, some 70, false⟩, ⟨8, some 80, true⟩])), .storageNack 1,
    .storageNack 2, .routerGetData 1, .routerCancel 2] :=
  (budget_kept_iff 0 _ (by decide)).mpr (by decide)

/-- **A piece that the storage fails to read** is refunded. -/
theorem not_budget_kept : ¬ ∀ (requestCounter : ID32) (es : List Event),
    (Run.run step (.init requestCounter) es).isSome →
      Run.Along step Lawful (.init requestCounter) es := by
  intro h
  have hlawful := h 0 [.imsGet 9 5, .gotMaster 0 (some (.file [⟨7, some 70, false⟩])),
    .storageAck 1, .storageFailed 1] (by decide)
  have hexact : Run.Along step (fun s e => ∀ t ∈ step s e, t.Exact) (.init 0) [.imsGet 9 5,
      .gotMaster 0 (some (.file [⟨7, some 70, false⟩])), .storageAck 1, .storageFailed 1] :=
    hlawful.mono fun s e h t ht => (h t ht).1
  exact absurd hexact (by decide)

end Getting

end Metax
