import Metax.Library.MaxHeap
import Metax.Router.Step

/-!
# Expired tenders

The timeline points to the tenders that can expire. A tender expires when it has idled for longer
than its own interval, so the one that has idled longest need not be an expired one: `less_than`
puts the expired tenders behind the others and orders both kinds by the time of their last
activity. The front of a heap built with it is expired as soon as any tender is
(`expired_head_iff`), and that is the one `handle_expired_tenders` cleans up.

What `std::make_heap` does is a parameter. The clock is read by the comparisons of one heap (taken
as one reading), and again when the front has been found; a `Clock` is the readings of one call,
in order. Of the clean-up only its effect on the timeline is kept here;
`timeline_follows` ties it to the router's own.
-/

namespace Metax

namespace Router

open MaxHeap

/-- What the timeline sees of a tender: its address, when it was last active and how long it may
idle. -/
structure Timed where
  pointer : Pointer
  time : ℤ
  idlingInterval : ℤ
  deriving DecidableEq

/-- `tender::is_expired`. -/
def Timed.isExpired (t : Timed) (now : ℤ) : Bool := decide (t.idlingInterval < now - t.time)

/-- `tender::less_than`. -/
def Timed.lessThan (now : ℤ) (t₁ t₂ : Timed) : Bool :=
  if t₁.isExpired now && !t₂.isExpired now then false
  else if t₂.isExpired now && !t₁.isExpired now then true
  else decide (t₂.time < t₁.time)

/-- The timeline with the flags that tell when to look at it. -/
structure Timeline where
  tenders : List Timed
  routerTimeout : Bool
  expiredTenderExists : Bool
  deriving DecidableEq

/-- The readings of the clock during one call of `handle_expired_tenders`: while the heap is
built, when its front is checked, and the same once more after the clean-up. -/
structure Clock where
  atHeap : ℤ
  atCheck : ℤ
  atHeap' : ℤ
  atCheck' : ℤ
  check : atHeap ≤ atCheck
  heap' : atCheck ≤ atHeap'
  check' : atHeap' ≤ atCheck'

/-- A clock that stands still. -/
def Clock.still (now : ℤ) : Clock := ⟨now, now, now, now, le_rfl, le_rfl, le_rfl⟩

/-- `router::clean_up_tender_from_timeline`: the pointer trades places with the last one and is
popped. -/
def Timeline.cleanUpTender (l : List Timed) (t : Timed) : Option (List Timed) :=
  (l.findIdx? fun u => u.pointer = t.pointer).map fun j =>
    let tmp := l.getD (l.length - 1) t
    ((l.set (l.length - 1) (l.getD j t)).set j tmp).dropLast

section Handlers

variable (make : (Timed → Timed → Bool) → List Timed → List Timed)

/-- `router::get_expired_tender`. -/
def getExpiredTender (c : Clock) (s : Timeline) : Timeline × Option Timed :=
  if !s.routerTimeout && !s.expiredTenderExists then (s, none)
  else if s.tenders.isEmpty then ({ s with routerTimeout := false }, none)
  else
    let s := { s with routerTimeout := false, tenders := make (Timed.lessThan c.atHeap) s.tenders }
    match s.tenders.head? with
    | none => (s, none)
    | some t => if t.isExpired c.atCheck then (s, some t) else (s, none)

/-- The end of `router::handle_expired_tenders`: whether another tender has expired. -/
def lookAgain (c : Clock) (s : Timeline) : Timeline :=
  let s := { s with expiredTenderExists := false }
  if s.tenders.isEmpty then s
  else
    let s := { s with tenders := make (Timed.lessThan c.atHeap') s.tenders }
    { s with
      expiredTenderExists := (s.tenders.head?.map fun t => t.isExpired c.atCheck').getD false }

/-- `router::handle_expired_tenders`. -/
def Timeline.handleExpiredTenders (c : Clock) (s : Timeline) : Option Timeline :=
  match getExpiredTender make c s with
  | (s, none) => some s
  | (s, some t) =>
    (Timeline.cleanUpTender s.tenders t).map fun l => lookAgain make c { s with tenders := l }

/-- `handle_expired_tenders`, and again for as long as `m_expired_tender_exists`, but at most `n`
times more. -/
def Timeline.repeatWhileExpired (now : ℤ) : ℕ → Timeline → Option Timeline
  | 0, s => s.handleExpiredTenders make (.still now)
  | n + 1, s => (s.handleExpiredTenders make (.still now)).bind fun s =>
    if s.expiredTenderExists then repeatWhileExpired now n s else some s

end Handlers

/-! ### The order -/

variable {make : (Timed → Timed → Bool) → List Timed → List Timed} {now : ℤ} {t u : Timed}
  {l l' : List Timed} {c : Clock} {s s' : Timeline}

/-- Who has expired stays so. -/
theorem Timed.isExpired_mono {now' : ℤ} (h : t.isExpired now = true) (hle : now ≤ now') :
    t.isExpired now' = true := by
  have hlt : t.idlingInterval < now - t.time := of_decide_eq_true h
  exact decide_eq_true (by omega)

/-- `less_than`, read as one statement. -/
theorem Timed.lessThan_eq_true : t.lessThan now u = true ↔
    (u.isExpired now = true ∧ t.isExpired now = false) ∨
      u.isExpired now = t.isExpired now ∧ u.time < t.time := by
  unfold lessThan
  cases t.isExpired now with
  | false => cases u.isExpired now <;> simp
  | true => cases u.isExpired now <;> simp

/-- **`less_than` is a strict weak order.** -/
theorem Timed.strictWeak_lessThan (now : ℤ) : StrictWeak (Timed.lessThan now) where
  irrefl t h := by
    rcases lessThan_eq_true.mp h with ⟨he, hn⟩ | ⟨-, hlt⟩
    · exact Bool.noConfusion (he.symm.trans hn)
    · exact lt_irrefl _ hlt
  trans t u v htu huv := by
    rw [lessThan_eq_true] at htu huv ⊢
    rcases htu with ⟨hu, ht⟩ | ⟨htu, hlt⟩
    · rcases huv with ⟨-, hu'⟩ | ⟨huv, -⟩
      · exact Bool.noConfusion (hu.symm.trans hu')
      · exact .inl ⟨huv.trans hu, ht⟩
    · rcases huv with ⟨hv, hu⟩ | ⟨huv, hlt'⟩
      · exact .inl ⟨hv, htu.symm.trans hu⟩
      · exact .inr ⟨huv.trans htu, hlt'.trans hlt⟩
  incomp_trans t u v htu huv := by
    -- two tenders are level exactly if they agree in both criteria
    have hlevel : ∀ x y : Timed, ¬ x.lessThan now y = true ∧ ¬ y.lessThan now x = true ↔
        x.isExpired now = y.isExpired now ∧ x.time = y.time := by
      intro x y
      rw [lessThan_eq_true, lessThan_eq_true]
      cases x.isExpired now with
      | false =>
        cases y.isExpired now with
        | false => simp; omega
        | true => simp
      | true =>
        cases y.isExpired now with
        | false => simp
        | true => simp; omega
    rw [hlevel] at htu huv ⊢
    exact ⟨htu.1.trans huv.1, htu.2.trans huv.2⟩

/-- **The front of the heap is expired exactly if some tender is.** -/
theorem expired_head_iff (hmake : BuildsHeaps make) (ht : t ∈ (make (Timed.lessThan now) l).head?) :
    t.isExpired now = true ↔ ∃ u ∈ l, u.isExpired now = true := by
  have hperm := hmake.perm _ (Timed.strictWeak_lessThan now) l
  have hheap := hmake.isHeap _ (Timed.strictWeak_lessThan now) l
  obtain ⟨ts, hts⟩ := List.head?_eq_some_iff.mp ht
  rw [hts] at hheap hperm
  constructor
  · exact fun he => ⟨t, hperm.mem_iff.mp List.mem_cons_self, he⟩
  · rintro ⟨u, hu, he⟩
    by_contra hne
    have hfalse := hheap.head (Timed.strictWeak_lessThan now) (hperm.mem_iff.mpr hu)
    exact Bool.eq_false_iff.mp hfalse
      (Timed.lessThan_eq_true.mpr (.inl ⟨he, Bool.eq_false_iff.mpr hne⟩))

/-! ### One call -/

/-- Taking the front from the timeline leaves the others. -/
theorem cleanUpTender_front (t : Timed) (ts : List Timed) :
    ∃ l, Timeline.cleanUpTender (t :: ts) t = some l ∧ l.Perm ts := by
  have hidx : (t :: ts).findIdx? (fun u => decide (u.pointer = t.pointer)) = some 0 := by
    simp [List.findIdx?_cons]
  rw [Timeline.cleanUpTender, hidx]
  refine ⟨_, rfl, ?_⟩
  rcases List.eq_nil_or_concat ts with rfl | ⟨us, v, rfl⟩
  · exact List.Perm.nil
  · have hlast : (t :: (us ++ [v])).getD ((t :: (us ++ [v])).length - 1) t = v := by
      simp
    have hset : (t :: (us ++ [v])).set ((t :: (us ++ [v])).length - 1) t = t :: (us ++ [t]) := by
      simp
    rw [List.concat_eq_append] at *
    dsimp only
    rw [hlast, List.getD_cons_zero, hset, List.set_cons_zero, ← List.cons_append,
      List.dropLast_concat]
    exact (List.perm_append_singleton v us).symm

/-- Looking again keeps the tenders, and finds out whether another one has expired. -/
theorem lookAgain_spec (hmake : BuildsHeaps make) (c : Clock) (s : Timeline) :
    (lookAgain make c s).tenders.Perm s.tenders ∧
      ((∃ t ∈ s.tenders, t.isExpired c.atHeap' = true) →
        (lookAgain make c s).expiredTenderExists = true) ∧
      ((lookAgain make c s).expiredTenderExists = true →
        ∃ t ∈ s.tenders, t.isExpired c.atCheck' = true) := by
  have hperm := hmake.perm _ (Timed.strictWeak_lessThan c.atHeap') s.tenders
  unfold lookAgain
  dsimp only
  split_ifs with hempty
  · rw [List.isEmpty_iff] at hempty
    simp [hempty]
  · dsimp only
    refine ⟨hperm, ?_, ?_⟩
    · intro hsome
      cases hhead : (make (Timed.lessThan c.atHeap') s.tenders).head? with
      | none =>
        rw [List.head?_eq_none_iff.mp hhead] at hperm
        exact absurd (List.isEmpty_iff.mpr hperm.symm.eq_nil) hempty
      | some t =>
        have he := (expired_head_iff hmake hhead).mpr hsome
        exact Timed.isExpired_mono he c.check'
    · intro hflag
      cases hhead : (make (Timed.lessThan c.atHeap') s.tenders).head? with
      | none =>
        rw [hhead] at hflag
        exact Bool.noConfusion hflag
      | some t =>
        rw [hhead] at hflag
        exact ⟨t, hperm.mem_iff.mp (List.mem_of_head? hhead), hflag⟩

/-- **What one call can do.** It leaves the tenders alone, and the flags if it was not to look;
or it takes an expired tender from the timeline and looks again. -/
theorem handleExpiredTenders_cases (hmake : BuildsHeaps make) (c : Clock) (s : Timeline) :
    (∃ s', s.handleExpiredTenders make c = some s' ∧ s'.tenders.Perm s.tenders ∧
      ((s.routerTimeout || s.expiredTenderExists) = true →
        ∀ t ∈ s.tenders, t.isExpired c.atHeap = false)) ∨
    (∃ t l s', t.isExpired c.atCheck = true ∧ s.tenders.Perm (t :: l) ∧
      s.handleExpiredTenders make c = some s' ∧ s'.tenders.Perm l ∧
      ((∃ u ∈ l, u.isExpired c.atHeap' = true) → s'.expiredTenderExists = true) ∧
      (s'.expiredTenderExists = true → ∃ u ∈ l, u.isExpired c.atCheck' = true)) := by
  have hperm := hmake.perm _ (Timed.strictWeak_lessThan c.atHeap) s.tenders
  rw [Timeline.handleExpiredTenders, getExpiredTender]
  by_cases hlook : (!s.routerTimeout && !s.expiredTenderExists) = true
  · rw [if_pos hlook]
    refine .inl ⟨s, rfl, .refl _, fun h => ?_⟩
    simp_all
  rw [if_neg hlook]
  by_cases hempty : s.tenders.isEmpty = true
  · rw [if_pos hempty]
    refine .inl ⟨_, rfl, .refl _, fun _ t ht => ?_⟩
    rw [List.isEmpty_iff.mp hempty] at ht
    exact absurd ht List.not_mem_nil
  rw [if_neg hempty]
  dsimp only
  cases hhead : (make (Timed.lessThan c.atHeap) s.tenders).head? with
  | none =>
    rw [List.head?_eq_none_iff.mp hhead] at hperm
    exact absurd (List.isEmpty_iff.mpr hperm.symm.eq_nil) hempty
  | some t =>
    dsimp only
    by_cases he : t.isExpired c.atCheck = true
    · obtain ⟨ts, hts⟩ := List.head?_eq_some_iff.mp hhead
      obtain ⟨l, hl, hperml⟩ := cleanUpTender_front t ts
      rw [if_pos he, hts]
      dsimp only
      rw [hl]
      obtain ⟨hkeep, hfind, htrue⟩ := lookAgain_spec hmake c
        { s with tenders := l, routerTimeout := false }
      exact .inr
        ⟨t, l, _, he, hperm.symm.trans (hts ▸ hperml.symm.cons t), rfl, hkeep, hfind, htrue⟩
    · rw [if_neg he]
      refine .inl ⟨_, rfl, hperm, fun _ u hu => ?_⟩
      by_contra hne
      have hexp := (expired_head_iff hmake hhead).mpr ⟨u, hu, Bool.eq_true_of_not_eq_false hne⟩
      exact he (Timed.isExpired_mono hexp c.check)

/-! ### Repeated calls -/

/-- The tenders that have not expired. -/
def Timeline.unexpired (now : ℤ) (l : List Timed) : List Timed := l.filter fun t => !t.isExpired now

/-- A call that starts with a look takes one expired tender away, if there is one, and goes on
exactly if there is another. -/
theorem handleExpiredTenders_still (now : ℤ) (hmake : BuildsHeaps make)
    (hlook : (s.routerTimeout || s.expiredTenderExists) = true) :
    ∃ s', s.handleExpiredTenders make (.still now) = some s' ∧
      (Timeline.unexpired now s'.tenders).Perm (Timeline.unexpired now s.tenders) ∧
      s'.tenders.countP (fun t => t.isExpired now) =
        s.tenders.countP (fun t => t.isExpired now) - 1 ∧
      (0 < s'.tenders.countP (fun t => t.isExpired now) → s'.expiredTenderExists = true) := by
  rcases handleExpiredTenders_cases hmake (.still now) s with
    ⟨s', h, hperm, hnone⟩ | ⟨t, l, s', he, hperm, h, hperm', hfind, -⟩
  · have hzero : s.tenders.countP (fun t => t.isExpired now) = 0 :=
      List.countP_eq_zero.mpr fun t ht => Bool.eq_false_iff.mp (hnone hlook t ht)
    refine ⟨s', h, hperm.filter _, ?_, ?_⟩
    · rw [hperm.countP_eq, hzero]
    · rw [hperm.countP_eq, hzero]
      exact fun hpos => absurd hpos (lt_irrefl 0)
  · have he' : t.isExpired now = true := he
    refine ⟨s', h, ?_, ?_, ?_⟩
    · have hfilter := hperm.filter fun t => !t.isExpired now
      rw [List.filter_cons_of_neg (by simp [he'])] at hfilter
      exact (hperm'.filter _).trans hfilter.symm
    · have hcons : (t :: l).countP (fun t => t.isExpired now) =
          l.countP (fun t => t.isExpired now) + 1 := List.countP_cons_of_pos he'
      rw [hperm'.countP_eq, hperm.countP_eq, hcons]
      rfl
    · rw [hperm'.countP_eq]
      exact fun hpos => hfind (List.countP_pos_iff.mp hpos)

/-- The calls go on until no tender of the timeline has expired. -/
theorem repeatWhileExpired_spec (hmake : BuildsHeaps make) {n : ℕ}
    (hlook : (s.routerTimeout || s.expiredTenderExists) = true)
    (hn : s.tenders.countP (fun t => t.isExpired now) ≤ n + 1) :
    ∃ s', s.repeatWhileExpired make now n = some s' ∧
      s'.tenders.Perm (Timeline.unexpired now s.tenders) := by
  have hdone : ∀ {r : Timeline}, r.tenders.countP (fun t => t.isExpired now) = 0 →
      r.tenders = Timeline.unexpired now r.tenders := by
    intro r hr
    refine (List.filter_eq_self.mpr fun t ht => ?_).symm
    simpa using List.countP_eq_zero.mp hr t ht
  induction n generalizing s with
  | zero =>
    obtain ⟨s', h, hkeep, hcount, -⟩ := handleExpiredTenders_still now hmake hlook
    refine ⟨s', h, ?_⟩
    rw [hdone (by omega)]
    exact hkeep
  | succ n ih =>
    obtain ⟨s₁, h, hkeep, hcount, hgo⟩ := handleExpiredTenders_still now hmake hlook
    rw [Timeline.repeatWhileExpired, h]
    dsimp only [Option.bind_some]
    split_ifs with hflag
    · obtain ⟨s', hs', hperm⟩ := ih (s := s₁) (by rw [hflag, Bool.or_true]) (by omega)
      exact ⟨s', hs', hperm.trans hkeep⟩
    · refine ⟨s₁, rfl, ?_⟩
      have hzero : s₁.tenders.countP (fun t => t.isExpired now) = 0 := by
        by_contra hne
        exact hflag (hgo (Nat.pos_of_ne_zero hne))
      rw [hdone hzero]
      exact hkeep

/-- **Expired tenders are found, and only they.** -/
theorem expired_found (hmake : BuildsHeaps make) :
    (∀ now, StrictWeak (Timed.lessThan now)) ∧
    (∀ now l, ∀ t ∈ (make (Timed.lessThan now) l).head?,
      t.isExpired now = true ↔ ∃ u ∈ l, u.isExpired now = true) ∧
    (∀ c (s : Timeline), ∃ s' gone, s.handleExpiredTenders make c = some s' ∧
      s.tenders.Perm (gone ++ s'.tenders) ∧ ∀ t ∈ gone, t.isExpired c.atCheck = true) ∧
    (∀ now (s : Timeline), (s.routerTimeout || s.expiredTenderExists) = true → ∃ n, ∀ m ≥ n, ∃ s',
      s.repeatWhileExpired make now m = some s' ∧
        s'.tenders.Perm (Timeline.unexpired now s.tenders)) := by
  refine ⟨Timed.strictWeak_lessThan, fun _ _ _ ht => expired_head_iff hmake ht, fun c s => ?_,
    fun now s hlook => ⟨s.tenders.countP fun t => t.isExpired now, fun m hm =>
      repeatWhileExpired_spec hmake hlook (by omega)⟩⟩
  rcases handleExpiredTenders_cases hmake c s with
    ⟨s', h, hperm, -⟩ | ⟨t, l, s', he, hperm, h, hperm', -⟩
  · exact ⟨s', [], h, hperm.symm, fun _ ht => absurd ht List.not_mem_nil⟩
  · refine ⟨s', [t], h, hperm.trans (hperm'.symm.cons t), fun u hu => ?_⟩
    rw [List.mem_singleton.mp hu]
    exact he

/-- Three tenders; the one that has idled longest has not expired, the last one has. -/
def threeTenders : Timeline where
  tenders := [⟨.tender 1, 0, 100⟩, ⟨.tender 2, 10, 50⟩, ⟨.tender 3, 20, 5⟩]
  routerTimeout := true
  expiredTenderExists := false

/-- The third tender is found though another one has idled longer, and the two others stay. -/
theorem expired_found_threeTenders : ∃ n, ∀ m ≥ n, ∃ s', threeTenders.repeatWhileExpired
    (fun lt l => l.insertionSort fun a b => lt a b = false) 30 m = some s' ∧
      s'.tenders.Perm [⟨.tender 1, 0, 100⟩, ⟨.tender 2, 10, 50⟩] :=
  (expired_found buildsHeaps_insertionSort).2.2.2 30 threeTenders rfl

/-! ### The timeline of the router -/

/-- Canceling the request of a tender leaves the timeline. -/
theorem timeline_cancelRequest (r : State) (rid : ID32) :
    (cancelRequest r rid).timeline = r.timeline := by
  unfold cancelRequest
  split_ifs <;> rfl

section CleanUp

variable {r : State} {p : Pointer} {t : Tender}

/-- The pointer is taken from the timeline `l`, if the handler ends normally. -/
def Takes (p : Pointer) (l : List Pointer) (o : Outcome) : Prop :=
  o.Ends (fun r => r.timeline = l.erase p) fun _ => True

/-- A clean-up takes one pointer out of the timeline, and not another. -/
theorem takes_cleanUpSyncTenderInfo : Takes p r.timeline (cleanUpSyncTenderInfo r p t) := by
  rw [Takes, cleanUpSyncTenderInfo, cleanUpTenderFromTimeline, Exit.ends_assert, Exit.ends_andThen,
    Exit.ends_assert]
  intro _ _
  rw [Exit.ends_done, Exit.ends_ite]
  exact ⟨fun _ => rfl, fun _ => rfl⟩

/-- The same for an ordinary tender. -/
theorem takes_cleanUpTenderInfo : Takes p r.timeline (cleanUpTenderInfo r p t) := by
  rw [Takes, cleanUpTenderInfo, cleanUpTenderFromTimeline, Exit.ends_andThen, Exit.ends_assert]
  exact fun _ => rfl

/-- And for either kind, with the message after it. -/
theorem takes_cleanUpTender : Takes p r.timeline (cleanUpTender r p t) := by
  have hclean : Takes p r.timeline (if isSyncCommand t.cmd then cleanUpSyncTenderInfo r p t
      else cleanUpTenderInfo r p t) := by
    split_ifs
    · exact takes_cleanUpSyncTenderInfo
    · exact takes_cleanUpTenderInfo
  refine Exit.ends_andThen.mpr (hclean.mono (fun s hs => ?_) fun _ h => h)
  rw [Exit.ends_done]
  split_ifs
  · exact hs
  · exact (timeline_cancelRequest s t.requestId).trans hs

/-- The clean-up of a tender takes its pointer from the timeline of the router and no other. -/
theorem takes_processExpiredTender : Takes p r.timeline (processExpiredTender r p t) := by
  rw [processExpiredTender]
  split_ifs
  · -- telling the kernel and the peer does not touch the timeline
    obtain ⟨r', hr', htimeline⟩ : ∃ r', r' = (if t.isCanceled then r else
        cancelRequest r t.requestId) ∧ r'.timeline = r.timeline := by
      refine ⟨_, rfl, ?_⟩
      split_ifs
      · rfl
      · exact timeline_cancelRequest r t.requestId
    rw [handleExpiredSyncTender, ← hr', postSyncRequestToLinkPeer]
    split_ifs
    · rw [Exit.done_andThen, ← htimeline]
      exact takes_cleanUpSyncTenderInfo
    · trivial
  · exact takes_cleanUpTender

end CleanUp

/-- **The router follows its timeline.** When the router cleans up the tender that is at the front,
its timeline and the one described here stay the same up to order. -/
theorem timeline_follows {r r' : State} {t : Timed}
    (hr : r.timeline.Perm (s.tenders.map Timed.pointer))
    (hs : s.tenders.Perm (t :: s'.tenders))
    (h : (handleExpiredTenders r t.pointer).normal = some r') :
    r'.timeline.Perm (s'.tenders.map Timed.pointer) := by
  have hmap : r.timeline.Perm (t.pointer :: s'.tenders.map Timed.pointer) :=
    hr.trans (hs.map Timed.pointer)
  have hmem : t.pointer ∈ r.timeline := hmap.mem_iff.mpr List.mem_cons_self
  rw [handleExpiredTenders, if_pos hmem] at h
  split at h
  · exact absurd h.symm (Option.some_ne_none r')
  · rw [takes_processExpiredTender.of_normal h]
    have herase := hmap.erase t.pointer
    rwa [List.erase_cons_head] at herase

end Router

end Metax
