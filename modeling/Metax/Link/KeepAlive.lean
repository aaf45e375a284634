import Metax.Link.Connections

/-!
# Silent peers

The log has when something was heard of a peer, and when it was sent a ping. A look at the peers
tells exactly those to shut down of which nothing was heard for `PONG_WAIT_TIME` and that have no
device id or were sent a ping since (`timedOut_iff`). So one that answers its pings before the next
look stays, and one that is silent is told at the second look after that time
(`timedOut_of_silent`).

The clock is whatever the events say it is, but it does not go back (`Clocked`). What the log has is
put there by the steps of the task and never read by them. What becomes of a peer that was told to
shut down is in `Metax.Link.Reconnecting`.
-/

namespace Metax

namespace Connections

open Ledger (Table)
open Link (Keyed)

variable {s t s' : State} {e : Entry} {l es : List Entry} {id i : ID32} {io io' : Io} {time : ℕ}
  {c : Conn}

/-- The peer an entry is about. -/
def Entry.peer : Entry → ID32
  | .added id _ | .received id _ | .pinged id | .ponged id | .timedOut id => id

/-- When something was heard of a peer for the last time. -/
def heard (id : ID32) : List Entry → Option ℕ
  | [] => none
  | .added i time :: l | .received i time :: l => if i = id then some time else heard id l
  | .pinged _ :: l | .ponged _ :: l | .timedOut _ :: l => heard id l

/-- A peer was sent a ping, and nothing was heard of it since. -/
def pingedSince (id : ID32) : List Entry → Bool
  | [] => false
  | .added i _ :: l | .received i _ :: l => if i = id then false else pingedSince id l
  | .pinged i :: l => if i = id then true else pingedSince id l
  | .ponged _ :: l | .timedOut _ :: l => pingedSince id l

/-- The entries about a peer. -/
def about (id : ID32) (es : List Entry) : List Entry := es.filter fun e => e.peer = id

/-- What is about another peer is left out. -/
theorem about_cons_of_ne (h : e.peer ≠ id) : about id (e :: es) = about id es :=
  List.filter_cons_of_neg fun hpeer => h (of_decide_eq_true hpeer)

theorem about_cons_of_eq (h : e.peer = id) : about id (e :: es) = e :: about id es :=
  List.filter_cons_of_pos (decide_eq_true h)

/-- What is about others says nothing of a peer. -/
theorem heard_about : heard id (es ++ l) = heard id (about id es ++ l) := by
  induction es with
  | nil => rfl
  | cons e es ih =>
    by_cases he : e.peer = id
    · rw [about_cons_of_eq he, List.cons_append, List.cons_append]
      cases e <;> simp only [heard, ih]
    · rw [about_cons_of_ne he, ← ih]
      cases e with
      | pinged i => rfl
      | ponged i => rfl
      | timedOut i => rfl
      | added i n => exact if_neg fun heq => he heq
      | received i n => exact if_neg fun heq => he heq

/-- Whether a peer was pinged is found out from what is about it. -/
theorem pingedSince_about :
    pingedSince id (es ++ l) = pingedSince id (about id es ++ l) := by
  induction es with
  | nil => rfl
  | cons e es ih =>
    by_cases he : e.peer = id
    · rw [about_cons_of_eq he, List.cons_append, List.cons_append]
      cases e <;> simp only [pingedSince, ih]
    · rw [about_cons_of_ne he, ← ih]
      cases e with
      | ponged i => rfl
      | timedOut i => rfl
      | pinged i => exact if_neg fun heq => he heq
      | added i n => exact if_neg fun heq => he heq
      | received i n => exact if_neg fun heq => he heq

/-- Nothing is heard of the peer in these entries. -/
def Silent (id : ID32) (es : List Entry) : Prop :=
  ∀ e ∈ es, ∀ time, e ≠ .added id time ∧ e ≠ .received id time

/-- As long as a peer is silent nothing is heard of it. -/
theorem Silent.heard_append (h : Silent id es) : heard id (es ++ l) = heard id l := by
  induction es with
  | nil => rfl
  | cons e es ih =>
    obtain ⟨he, hes⟩ := List.forall_mem_cons.mp h
    rw [List.cons_append, ← ih hes]
    cases e with
    | pinged i => rfl
    | ponged i => rfl
    | timedOut i => rfl
    | added i n => exact if_neg fun heq => (he n).1 (congrArg (Entry.added · n) heq)
    | received i n => exact if_neg fun heq => (he n).2 (congrArg (Entry.received · n) heq)

/-- And a ping stays unanswered. -/
theorem Silent.pingedSince_append (h : Silent id es) (hp : pingedSince id l = true) :
    pingedSince id (es ++ l) = true := by
  induction es with
  | nil => exact hp
  | cons e es ih =>
    obtain ⟨he, hes⟩ := List.forall_mem_cons.mp h
    have hrest := ih hes
    rw [List.cons_append]
    cases e with
    | ponged i => exact hrest
    | timedOut i => exact hrest
    | pinged i =>
      rw [pingedSince]
      split_ifs
      · rfl
      · exact hrest
    | added i n =>
      rw [pingedSince, if_neg fun heq => (he n).1 (congrArg (Entry.added · n) heq)]
      exact hrest
    | received i n =>
      rw [pingedSince, if_neg fun heq => (he n).2 (congrArg (Entry.received · n) heq)]
      exact hrest

/-! ### One look -/

/-- What a look makes of a peer, and what it writes. -/
def look (id : ID32) (time : ℕ) (io : Io) (hasDeviceId : Bool) : Io × List Entry :=
  if pongWaitTime ≤ time - io.lastReceivedTime then
    if io.pingSent ∨ ¬ hasDeviceId then (io, [.timedOut id])
    else ({ io with pingSent := true }, [.pinged id])
  else ({ io with pingSent := false }, [])

/-- To look after a peer is about this peer only. -/
theorem about_look {has : Bool} : about id (look id time io has).2 = (look id time io has).2 := by
  rw [look]
  split_ifs
  · exact about_cons_of_eq rfl
  · exact about_cons_of_eq rfl
  · rfl

theorem about_look_of_ne {has : Bool} (h : i ≠ id) : about i (look id time io has).2 = [] := by
  have hne : id ≠ i := h.symm
  rw [look]
  split_ifs
  · exact about_cons_of_ne hne
  · exact about_cons_of_ne hne
  · rfl

theorem keyed_sendShutdownMessageToPeer (h : Keyed s.balancer) :
    Keyed (s.sendShutdownMessageToPeer id).balancer := h.shutdown.1

/-- A peer that is sent away takes no device id with it but its own. -/
theorem hasDeviceId_sendShutdownMessageToPeer (h : Keyed s.balancer) (hne : i ≠ id) :
    (s.sendShutdownMessageToPeer id).hasDeviceId i = s.hasDeviceId i := by
  rw [State.hasDeviceId, State.sendShutdownMessageToPeer]
  cases hp : s.balancer.peers.lookup id with
  | none => rfl
  | some p =>
    change Option.any _ ((s.balancer.peers.insert p.id _).lookup i) = _
    rw [h id p hp, AList.lookup_insert_ne hne]
    rfl

/-- What a look at one peer does: others are left alone. -/
structure Looked (s t : State) (id : ID32) (time : ℕ) (es : List Entry) : Prop where
  keyed : Keyed t.balancer
  log : t.log = es ++ s.log
  self : ∀ io, s.peers.lookup id = some io →
    t.peers.lookup id = some (look id time io (s.hasDeviceId id)).1 ∧
      about id es = (look id time io (s.hasDeviceId id)).2
  away : s.peers.lookup id = none → t.peers.lookup id = none
  others : ∀ i, i ≠ id → t.peers.lookup i = s.peers.lookup i ∧
    t.hasDeviceId i = s.hasDeviceId i ∧ about i es = []

theorem looked_of (hio : s.peers.lookup id = some io) (hkeyed : Keyed t.balancer)
    (hlog : t.log = (look id time io (s.hasDeviceId id)).2 ++ s.log)
    (hself : t.peers.lookup id = some (look id time io (s.hasDeviceId id)).1)
    (hothers : ∀ i, i ≠ id → t.peers.lookup i = s.peers.lookup i ∧
      t.hasDeviceId i = s.hasDeviceId i) :
    Looked s t id time (look id time io (s.hasDeviceId id)).2 where
  keyed := hkeyed
  log := hlog
  self io' hio' := by
    obtain rfl := Option.some.inj (hio.symm.trans hio')
    exact ⟨hself, about_look⟩
  away hnone := by cases hio.symm.trans hnone
  others i hi := ⟨(hothers i hi).1, (hothers i hi).2, about_look_of_ne hi⟩

/-- **One peer is looked after**, and the others are as they were. -/
theorem looked (h : Keyed s.balancer) :
    ∃ es, Looked s (State.keepAlivePeer time s id) id time es := by
  rw [State.keepAlivePeer]
  cases hio : s.peers.lookup id with
  | none =>
    refine ⟨[], h, rfl, fun io hsome => ?_, fun _ => hio, fun i _ => ⟨rfl, rfl, rfl⟩⟩
    cases hio.symm.trans hsome
  | some io =>
    have hset (io' : Io) (i : ID32) (hi : i ≠ id) :
        (s.peers.insert id io').lookup i = s.peers.lookup i := AList.lookup_insert_ne hi
    refine ⟨(look id time io (s.hasDeviceId id)).2, ?_⟩
    dsimp only
    by_cases hlate : pongWaitTime ≤ time - io.lastReceivedTime
    · by_cases htold : io.pingSent ∨ ¬ s.hasDeviceId id
      · -- it was sent a ping before, or is not known yet
        have hlook : look id time io (s.hasDeviceId id) = (io, [.timedOut id]) := by
          rw [look, if_pos hlate, if_pos htold]
        have hshut : Looked s ((s.sendShutdownMessageToPeer id).write (.timedOut id)) id time
            (look id time io (s.hasDeviceId id)).2 :=
          looked_of hio (keyed_sendShutdownMessageToPeer h) (hlook ▸ rfl) (hlook ▸ hio) fun i hi =>
            ⟨rfl, hasDeviceId_sendShutdownMessageToPeer h hi⟩
        rw [if_pos hlate]
        split_ifs with hping hhas
        · exact hshut
        · exact absurd htold (not_or.mpr ⟨hping, not_not.mpr hhas⟩)
        · exact hshut
      · obtain ⟨hping, hhas⟩ := not_or.mp htold
        have hlook : look id time io (s.hasDeviceId id) =
            ({ io with pingSent := true }, [.pinged id]) := by
          rw [look, if_pos hlate, if_neg htold]
        rw [if_neg hping, if_pos hlate, if_pos (not_not.mp hhas)]
        exact looked_of hio h (hlook ▸ rfl) (hlook ▸ AList.lookup_insert _) fun i hi =>
          ⟨hset _ i hi, rfl⟩
    · have hlook : look id time io (s.hasDeviceId id) = ({ io with pingSent := false }, []) := by
        rw [look, if_neg hlate]
      rw [if_neg hlate]
      split_ifs with hping
      · exact looked_of hio h (hlook ▸ rfl) (hlook ▸ AList.lookup_insert _) fun i hi =>
          ⟨hset _ i hi, rfl⟩
      · have hio' : { io with pingSent := false } = io := by
          rw [← Bool.eq_false_of_not_eq_true hping]
        exact looked_of hio h (hlook ▸ rfl) (hlook ▸ hio' ▸ hio) fun i hi => ⟨rfl, rfl⟩

/-- **A look at all peers.** -/
structure LookedAll (s t : State) (ks : List ID32) (time : ℕ) (es : List Entry) : Prop where
  keyed : Keyed t.balancer
  log : t.log = es ++ s.log
  seen : ∀ id ∈ ks, ∀ io, s.peers.lookup id = some io →
    t.peers.lookup id = some (look id time io (s.hasDeviceId id)).1 ∧
      about id es = (look id time io (s.hasDeviceId id)).2
  away : ∀ id, s.peers.lookup id = none → t.peers.lookup id = none
  others : ∀ id, id ∉ ks → t.peers.lookup id = s.peers.lookup id ∧ about id es = []

/-- **All of them are**, one after the other. -/
theorem lookedAll {ks : List ID32} (hks : ks.Nodup) (h : Keyed s.balancer) :
    ∃ es, LookedAll s (ks.foldl (State.keepAlivePeer time) s) ks time es := by
  induction ks generalizing s with
  | nil =>
    exact ⟨[], h, rfl, fun id hid => absurd hid List.not_mem_nil, fun id hnone => hnone,
      fun id _ => ⟨rfl, rfl⟩⟩
  | cons k ks ih =>
    obtain ⟨hk, hks⟩ := List.nodup_cons.mp hks
    obtain ⟨es, hone⟩ : ∃ es, Looked s (State.keepAlivePeer time s k) k time es := looked h
    obtain ⟨es', hrest⟩ := ih hks hone.keyed
    have habout (id : ID32) : about id (es' ++ es) = about id es' ++ about id es :=
      List.filter_append _ _
    refine ⟨es' ++ es, hrest.keyed, ?_, fun id hid io hio => ?_, fun id hnone => ?_,
      fun id hid => ?_⟩
    · rw [List.append_assoc, ← hone.log]
      exact hrest.log
    · rcases List.mem_cons.mp hid with rfl | hid
      · obtain ⟨hself, hes⟩ := hone.self io hio
        obtain ⟨hsame, hnone⟩ := hrest.others id hk
        exact ⟨hsame.trans hself, (habout id).trans (hnone ▸ hes)⟩
      · have hne : id ≠ k := fun heq => hk (heq ▸ hid)
        obtain ⟨hpeers, hhas, hnone⟩ := hone.others id hne
        obtain ⟨hself, hes⟩ := hrest.seen id hid io (hpeers.trans hio)
        rw [hhas] at hself hes
        rw [habout, hnone, List.append_nil]
        exact ⟨hself, hes⟩
    · refine hrest.away id ?_
      by_cases heq : id = k
      · exact heq ▸ hone.away (heq ▸ hnone)
      · exact (hone.others id heq).1.trans hnone
    · obtain ⟨hne, hid⟩ := not_or.mp (fun hmem => hid (List.mem_cons.mpr hmem))
      obtain ⟨hpeers, -, hnone⟩ := hone.others id hne
      obtain ⟨hpeers', hnone'⟩ := hrest.others id hid
      rw [habout, hnone, hnone', List.append_nil]
      exact ⟨hpeers'.trans hpeers, rfl⟩

/-! ### Runs -/

/-- **The invariant**: what the peers have is what the log says. -/
structure Watching (s : State) : Prop where
  keyed : Keyed s.balancer
  seen : ∀ id io, s.peers.lookup id = some io →
    heard id s.log = some io.lastReceivedTime ∧ io.pingSent = pingedSince id s.log
  past : ∀ id io, s.peers.lookup id = some io → io.lastReceivedTime ≤ s.clock ∧
    (io.pingSent → io.lastReceivedTime + pongWaitTime ≤ s.clock)

/-- The clock does not go back. -/
def Clocked (s : State) : Event → Prop
  | .start _ time | .data _ time _ | .keepAlive time => s.clock ≤ time
  | .connect _ _ | .accept _ | .fail _ | .verified _ _ | .notVerified _ | .remove _ | .clean
  | .reconnect => True

instance (s : State) : ∀ e, Decidable (Clocked s e)
  | .start _ time | .data _ time _ | .keepAlive time => inferInstanceAs (Decidable (_ ≤ time))
  | .connect _ _ | .accept _ | .fail _ | .verified _ _ | .notVerified _ | .remove _ | .clean
  | .reconnect => .isTrue trivial

/-- Nothing that is watched has changed. -/
theorem Watching.of_eq (h : Watching s) (hkeyed : Keyed t.balancer) (hclock : t.clock = s.clock)
    (hpeers : ∀ id io, t.peers.lookup id = some io → s.peers.lookup id = some io)
    (hlog : ∀ id, Connections.heard id t.log = Connections.heard id s.log ∧
      pingedSince id t.log = pingedSince id s.log) : Watching t := by
  refine ⟨hkeyed, fun id io hio => ?_, fun id io hio => hclock ▸ h.past id io (hpeers id io hio)⟩
  rw [(hlog id).1, (hlog id).2]
  exact h.seen id io (hpeers id io hio)

/-- Something was heard of one peer. -/
theorem Watching.heard (h : Watching s) (hkeyed : Keyed t.balancer) (hclock : s.clock ≤ time)
    (hnow : t.clock = time) (hpeers : t.peers = s.peers.insert id ⟨c, time, false⟩)
    (hlog : t.log = e :: s.log) (he : e = .added id time ∨ e = .received id time) :
    Watching t := by
  have hpeer : e.peer = id := by
    rcases he with rfl | rfl <;> rfl
  refine ⟨hkeyed, fun i io hio => ?_, fun i io hio => ?_⟩
  · rw [hpeers] at hio
    obtain ⟨rfl, rfl⟩ | ⟨hne, hold⟩ := Ledger.eq_or_of_lookup_insert hio
    · rw [hlog]
      rcases he with rfl | rfl <;> exact ⟨if_pos rfl, (if_pos rfl).symm⟩
    · have habout : about i [e] = [] := about_cons_of_ne fun heq =>
        hne (heq.symm.trans hpeer)
      change Connections.heard i t.log = _ ∧ _
      rw [hlog, ← List.singleton_append, heard_about, pingedSince_about, habout]
      exact h.seen i io hold
  · rw [hpeers] at hio
    rw [hnow]
    obtain ⟨rfl, rfl⟩ | ⟨-, hold⟩ := Ledger.eq_or_of_lookup_insert hio
    · exact ⟨le_refl _, fun hping => by cases hping⟩
    · obtain ⟨hlast, hpinged⟩ := h.past i io hold
      exact ⟨hlast.trans hclock, fun hping => (hpinged hping).trans hclock⟩

/-- After a look. -/
theorem Watching.looked (h : Watching s) (hclock : s.clock ≤ time) {ks : List ID32}
    (hks : ∀ id io, s.peers.lookup id = some io → id ∈ ks)
    (hlooked : LookedAll s t ks time es) : Watching { t with clock := time } := by
  have hback {id : ID32} {io : Io} (hio : t.peers.lookup id = some io) :
      ∃ io', s.peers.lookup id = some io' ∧ io = (look id time io' (s.hasDeviceId id)).1 ∧
        about id es = (look id time io' (s.hasDeviceId id)).2 := by
    cases hbefore : s.peers.lookup id with
    | none => cases (hlooked.away id hbefore).symm.trans hio
    | some io' =>
      obtain ⟨hself, hes⟩ := hlooked.seen id (hks id io' hbefore) io' hbefore
      exact ⟨io', rfl, Option.some.inj (hio.symm.trans hself), hes⟩
  refine ⟨hlooked.keyed, fun id io hio => ?_, fun id io hio => ?_⟩
  · obtain ⟨io', hbefore, rfl, hes⟩ := hback hio
    obtain ⟨hheard, hpinged⟩ := h.seen id io' hbefore
    obtain ⟨-, hpast⟩ := h.past id io' hbefore
    change Connections.heard id t.log = _ ∧ _ = pingedSince id t.log
    rw [hlooked.log, heard_about, pingedSince_about, hes, look]
    split_ifs with hlate htold
    · exact ⟨hheard, hpinged⟩
    · exact ⟨hheard, (if_pos rfl).symm⟩
    · refine ⟨hheard, ?_⟩
      -- a ping was sent after that time, and the clock does not go back
      cases hsent : io'.pingSent with
      | false => exact hsent ▸ hpinged
      | true =>
        have hthen := (hpast hsent).trans hclock
        exact absurd (Nat.le_sub_of_add_le' hthen) hlate
  · obtain ⟨io', hbefore, rfl, -⟩ := hback hio
    obtain ⟨hlast, hpast⟩ := h.past id io' hbefore
    rw [look]
    split_ifs with hlate htold
    · exact ⟨hlast.trans hclock, fun hping => (hpast hping).trans hclock⟩
    · refine ⟨hlast.trans hclock, fun _ => ?_⟩
      exact Nat.add_le_of_le_sub' (hlast.trans hclock) hlate
    · exact ⟨hlast.trans hclock, fun hping => by cases hping⟩

/-- The groups have no part in keeping alive. -/
theorem keyed_of_balance {e : Link.Event} (h : Keyed s.balancer) (hstep : s.balance e = some t) :
    ∃ b, Keyed b ∧ t = { s with balancer := b } := by
  obtain ⟨b, hb, rfl⟩ := Option.map_eq_some_iff.mp hstep
  exact ⟨b, (h.step hb).1, rfl⟩

/-- A package of a peer. -/
theorem Watching.handleLinkPeerData {input : Input} (h : Watching s) (hclock : s.clock ≤ time)
    (hstep : s.handleLinkPeerData id io time input = some t) :
    Watching { t with clock := time } := by
  let m : State := (s.setPeer id { io with lastReceivedTime := time, pingSent := false }).write
    (.received id time)
  have hm : Watching { m with clock := time } :=
    h.heard h.keyed hclock rfl rfl rfl (.inr rfl)
  have hshut : Watching { m.sendShutdownMessageToPeer id with clock := time } :=
    hm.of_eq (keyed_sendShutdownMessageToPeer h.keyed) rfl (fun _ _ hio => hio) fun _ => ⟨rfl, rfl⟩
  cases input with
  | empty flags =>
    rw [← Option.some.inj hstep]
    cases flags with
    | ping => exact hm.of_eq h.keyed rfl (fun _ _ hio => hio) fun _ => ⟨rfl, rfl⟩
    | pong => exact hm
    | other => exact hshut
  | deviceId di n =>
    obtain ⟨b, hb, rfl⟩ := keyed_of_balance (s := m) h.keyed hstep
    exact hm.of_eq hb rfl (fun _ _ hio => hio) fun _ => ⟨rfl, rfl⟩
  | unknown => exact Option.some.inj hstep ▸ hshut
  | router =>
    rw [← Option.some.inj hstep]
    split_ifs
    · exact hm
    · exact hshut

/-- **The step lemma.** -/
theorem Watching.next {e : Event} (h : Watching s) (hclock : Clocked s e)
    (hstep : step s e = some t) : Watching t := by
  cases e with
  | connect a g =>
    exact Option.some.inj hstep ▸ h.of_eq h.keyed rfl (fun _ _ hio => hio) fun _ => ⟨rfl, rfl⟩
  | accept a =>
    exact Option.some.inj hstep ▸ h.of_eq h.keyed rfl (fun _ _ hio => hio) fun _ => ⟨rfl, rfl⟩
  | start c n =>
    rw [← Option.some.inj hstep]
    split_ifs
    · have hkeyed : Keyed (Link.addPeer s.balancer c.gid) :=
        Ledger.forall_lookup_insert h.keyed rfl
      exact h.heard hkeyed hclock rfl rfl rfl (.inl rfl)
    · exact h
  | fail c =>
    rw [← Option.some.inj hstep]
    split_ifs
    · exact h.of_eq h.keyed rfl (fun _ _ hio => hio) fun _ => ⟨rfl, rfl⟩
    · exact h
  | data id n input =>
    refine Run.of_elim_eq_some h hstep fun io hio hstep => ?_
    obtain ⟨m, hm, rfl⟩ := Option.map_eq_some_iff.mp hstep
    exact h.handleLinkPeerData hclock hm
  | verified id di =>
    obtain ⟨b, hb, rfl⟩ := keyed_of_balance h.keyed hstep
    exact h.of_eq hb rfl (fun _ _ hio => hio) fun _ => ⟨rfl, rfl⟩
  | notVerified id =>
    exact Option.some.inj hstep ▸ h.of_eq (keyed_sendShutdownMessageToPeer h.keyed) rfl
      (fun _ _ hio => hio) fun _ => ⟨rfl, rfl⟩
  | keepAlive n =>
    obtain ⟨es, hlooked⟩ := lookedAll (s := s) s.peers.keys_nodup h.keyed
    rw [← Option.some.inj hstep]
    refine h.looked hclock (fun id io hio => ?_) hlooked
    exact AList.mem_keys.mp (AList.lookup_isSome.mp (Option.isSome_of_mem hio))
  | remove id =>
    refine Run.of_elim_eq_some h hstep fun io hio hstep => ?_
    obtain ⟨m, hm, rfl⟩ := Option.map_eq_some_iff.mp hstep
    obtain ⟨b, hb, rfl⟩ := keyed_of_balance h.keyed hm
    exact h.of_eq hb rfl (fun _ _ hio => (Ledger.of_lookup_erase hio).2) fun _ => ⟨rfl, rfl⟩
  | clean =>
    exact Option.some.inj hstep ▸ h.of_eq h.keyed rfl (fun _ _ hio => hio) fun _ => ⟨rfl, rfl⟩
  | reconnect =>
    exact Option.some.inj hstep ▸ h.of_eq h.keyed rfl (fun _ _ hio => hio) fun _ => ⟨rfl, rfl⟩

section Runs

variable {strict : Bool} {events events' : List Event} {s₁ s₂ : State} {last time' : ℕ}

/-- There is nobody to watch at the start. -/
theorem watching_init : Watching (State.init strict) := by
  refine ⟨fun id p hp => ?_, fun id io hio => ?_, fun id io hio => ?_⟩
  · cases hp
  · cases hio
  · cases hio

/-- The run lemma. -/
theorem watching_of_run (h : Watching s) (hclocked : Run.Along step Clocked s events)
    (hrun : Run.run step s events = some t) : Watching t :=
  Run.invariant_of_run Watching (fun _ _ _ h hok hstep => h.next hok hstep) h hclocked hrun

/-- What a look writes of a peer. -/
theorem Watching.keepAlive (h : Watching s) (hstep : step s (.keepAlive time) = some t)
    (hio : s.peers.lookup id = some io) :
    ∃ es, t.log = es ++ s.log ∧ about id es = (look id time io (s.hasDeviceId id)).2 := by
  obtain ⟨es, hlooked⟩ : ∃ es, LookedAll s (s.handleKeepAliveMessages time) s.peers.keys time es :=
    lookedAll s.peers.keys_nodup h.keyed
  have hmem : id ∈ s.peers.keys :=
    AList.mem_keys.mp (AList.lookup_isSome.mp (Option.isSome_of_mem hio))
  rw [← Option.some.inj hstep]
  exact ⟨es, hlooked.log, (hlooked.seen id hmem io hio).2⟩

/-- When a look tells that a peer is gone. -/
theorem timedOut_mem_look {has : Bool} : .timedOut id ∈ (look id time io has).2 ↔
    io.lastReceivedTime + pongWaitTime ≤ time ∧ (has = false ∨ io.pingSent = true) := by
  have hlate : pongWaitTime ≤ time - io.lastReceivedTime ↔
      io.lastReceivedTime + pongWaitTime ≤ time := by
    rw [pongWaitTime]
    omega
  rw [look, ← hlate]
  split_ifs with hpast htold
  · refine iff_of_true List.mem_cons_self ⟨hpast, ?_⟩
    exact htold.symm.imp_left Bool.eq_false_of_not_eq_true
  · refine iff_of_false (fun hmem => ?_) fun hboth => htold ?_
    · cases List.mem_singleton.mp hmem
    · exact (hboth.2.imp_left (Bool.not_eq_true _).mpr).symm
  · exact iff_of_false List.not_mem_nil fun hboth => hpast hboth.1

/-- **Who is told to shut down**: in every run, a look at the peers tells exactly those of which
nothing was heard for `PONG_WAIT_TIME` and which have no device id or were sent a ping since. -/
theorem timedOut_iff (hrun : Run.run step (State.init strict) events = some s)
    (hclocked : Run.Along step Clocked (State.init strict) events)
    (hpeer : (s.peers.lookup id).isSome) (hstep : step s (.keepAlive time) = some t) :
    ∃ es, t.log = es ++ s.log ∧ (.timedOut id ∈ es ↔
      (∃ last ∈ heard id s.log, last + pongWaitTime ≤ time) ∧
        (s.hasDeviceId id = false ∨ pingedSince id s.log = true)) := by
  have hwatching := watching_of_run watching_init hclocked hrun
  obtain ⟨io, hio⟩ := Option.isSome_iff_exists.mp hpeer
  obtain ⟨hheard, hpinged⟩ := hwatching.seen id io hio
  obtain ⟨es, hlog, habout⟩ := hwatching.keepAlive hstep hio
  refine ⟨es, hlog, ?_⟩
  have hmem : .timedOut id ∈ es ↔ .timedOut id ∈ about id es := by
    rw [about, List.mem_filter]
    exact (and_iff_left (decide_eq_true rfl)).symm
  rw [hmem, habout, timedOut_mem_look, hheard, ← hpinged]
  simp

/-- **A silent peer is told to shut down**: when nothing was heard of a peer for `PONG_WAIT_TIME` at
one look and nothing is heard until another one, it is told at the second of them if it is still
there. -/
theorem timedOut_of_silent (hrun : Run.run step (State.init strict) events = some s)
    (hclocked : Run.Along step Clocked (State.init strict) events)
    (hpeer : (s.peers.lookup id).isSome) (hheard : heard id s.log = some last)
    (hlate : last + pongWaitTime ≤ time) (hfirst : step s (.keepAlive time) = some s₁)
    (hclock : s.clock ≤ time) (hrun' : Run.run step s₁ events' = some s₂)
    (hclocked' : Run.Along step Clocked s₁ events') (hlog : s₂.log = es ++ s₁.log)
    (hsilent : Silent id es) (hpeer' : (s₂.peers.lookup id).isSome) (hlater : time ≤ time')
    (hsecond : step s₂ (.keepAlive time') = some t) : .timedOut id ∈ t.log := by
  have hs := watching_of_run watching_init hclocked hrun
  have hs₁ : Watching s₁ := hs.next (e := .keepAlive time) hclock hfirst
  have hs₂ := watching_of_run hs₁ hclocked' hrun'
  obtain ⟨io, hio⟩ := Option.isSome_iff_exists.mp hpeer
  obtain ⟨io₂, hio₂⟩ := Option.isSome_iff_exists.mp hpeer'
  obtain ⟨es₁, hlog₁, habout₁⟩ := hs.keepAlive hfirst hio
  obtain ⟨es₂, hlog₂, habout₂⟩ := hs₂.keepAlive hsecond hio₂
  have hlast : io.lastReceivedTime = last :=
    Option.some.inj ((hs.seen id io hio).1.symm.trans hheard)
  have hof {l : List Entry} (h : .timedOut id ∈ about id l) : .timedOut id ∈ l :=
    List.mem_of_mem_filter h
  by_cases htold : s.hasDeviceId id = false ∨ io.pingSent = true
  · -- it is told at the first look
    have hmem : .timedOut id ∈ about id es₁ :=
      habout₁ ▸ timedOut_mem_look.mpr ⟨hlast ▸ hlate, htold⟩
    rw [hlog₂, hlog, hlog₁]
    exact List.mem_append_right _ (List.mem_append_right _ (List.mem_append_left _ (hof hmem)))
  · have hnow : pongWaitTime ≤ time - io.lastReceivedTime := hlast ▸ Nat.le_sub_of_add_le' hlate
    have hlook : about id es₁ = [.pinged id] := by
      rw [habout₁, look, if_pos hnow, if_neg]
      exact fun h => htold (h.symm.imp_left Bool.eq_false_of_not_eq_true)
    have hpinged : pingedSince id s₁.log = true := by
      rw [hlog₁, pingedSince_about, hlook]
      exact if_pos rfl
    have hheard₁ : heard id s₁.log = some last := by
      rw [hlog₁, heard_about, hlook]
      exact hheard
    obtain ⟨hheard₂, hpinged₂⟩ := hs₂.seen id io₂ hio₂
    rw [hlog, hsilent.heard_append, hheard₁] at hheard₂
    rw [hlog, hsilent.pingedSince_append hpinged] at hpinged₂
    have hmem : .timedOut id ∈ about id es₂ := habout₂ ▸ timedOut_mem_look.mpr
      ⟨Option.some.inj hheard₂ ▸ hlate.trans hlater, .inr hpinged₂⟩
    rw [hlog₂]
    exact List.mem_append_left _ (hof hmem)

/-- A peer comes, says who it is and is silent then. -/
def oneSilent : List Event :=
  [.accept [], .start ⟨[], Link.noGroup, false⟩ 5, .data 0x20000000 6 (.deviceId (some [7]) 0)]

/-- Another peer comes and talks. -/
def anotherTalks : List Event :=
  [.accept ['k'], .start ⟨['k'], Link.noGroup, false⟩ 50000000,
    .data 0x20000001 60000000 (.empty .ping)]

/-- The run of the witness, with another peer that talks meanwhile. -/
theorem run_oneSilent : ∃ s s₁ s₂ t, Run.run step (State.init false) oneSilent = some s ∧
    step s (.keepAlive 40000000) = some s₁ ∧ Run.run step s₁ anotherTalks = some s₂ ∧
      step s₂ (.keepAlive 70000000) = some t ∧
        Run.Along step Clocked (State.init false) oneSilent ∧ s.clock ≤ 40000000 ∧
          Run.Along step Clocked s₁ anotherTalks ∧ (s.peers.lookup 0x20000000).isSome ∧
            (s₂.peers.lookup 0x20000000).isSome ∧ heard 0x20000000 s.log = some 6 ∧
              ∃ es, s₂.log = es ++ s₁.log ∧ Silent 0x20000000 es := by
  refine ⟨_, _, _, _, rfl, rfl, rfl, rfl, by decide, by decide, by decide, rfl, rfl, rfl,
    [.ponged 0x20000001, .received 0x20000001 60000000, .added 0x20000001 50000000], rfl, ?_⟩
  intro e he n
  simp only [List.mem_cons, List.not_mem_nil, or_false] at he
  rcases he with rfl | rfl | rfl <;> exact ⟨nofun, nofun⟩

/-- It was sent a ping at the first look, and is told at the second one. -/
theorem timedOut_iff_oneSilent : ∃ s t,
    Run.run step (State.init false) (oneSilent ++ .keepAlive 40000000 :: anotherTalks) = some s ∧
      step s (.keepAlive 70000000) = some t ∧ ∃ es, t.log = es ++ s.log ∧
        .timedOut 0x20000000 ∈ es ∧ (.timedOut 0x20000000 ∈ es ↔
          (∃ last ∈ heard 0x20000000 s.log, last + pongWaitTime ≤ 70000000) ∧
            (s.hasDeviceId 0x20000000 = false ∨ pingedSince 0x20000000 s.log = true)) := by
  obtain ⟨s, t, hrun, hclocked, hpeer, hstep, hheard, hpinged⟩ : ∃ s t,
      Run.run step (State.init false) (oneSilent ++ .keepAlive 40000000 :: anotherTalks) = some s ∧
        Run.Along step Clocked (State.init false)
          (oneSilent ++ .keepAlive 40000000 :: anotherTalks) ∧
            (s.peers.lookup 0x20000000).isSome ∧ step s (.keepAlive 70000000) = some t ∧
              heard 0x20000000 s.log = some 6 ∧ pingedSince 0x20000000 s.log = true :=
    ⟨_, _, rfl, by decide, rfl, rfl, rfl, rfl⟩
  obtain ⟨es, hlog, hiff⟩ := timedOut_iff hrun hclocked hpeer hstep
  exact ⟨s, t, hrun, hstep, es, hlog, hiff.mpr ⟨⟨6, hheard, by decide⟩, .inr hpinged⟩, hiff⟩

theorem timedOut_of_silent_oneSilent : ∃ s s₁ s₂ t,
    Run.run step (State.init false) oneSilent = some s ∧ step s (.keepAlive 40000000) = some s₁ ∧
      Run.run step s₁ anotherTalks = some s₂ ∧ step s₂ (.keepAlive 70000000) = some t ∧
        .timedOut 0x20000000 ∈ t.log := by
  obtain ⟨s, s₁, s₂, t, hrun, hfirst, hrun', hsecond, hclocked, hclock, hclocked', hpeer, hpeer',
    hheard, es, hlog, hsilent⟩ := run_oneSilent
  exact ⟨s, s₁, s₂, t, hrun, hfirst, hrun', hsecond, timedOut_of_silent hrun hclocked hpeer hheard
    (by decide) hfirst hclock hrun' hclocked' hlog hsilent hpeer' (by decide) hsecond⟩

end Runs

end Connections

end Metax
