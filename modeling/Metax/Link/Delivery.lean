import Metax.Library.Ledger
import Metax.Platform.Package

/-!
# Messages that reach nobody

The router asks the link to send a message to some peers, to all of them, or to all but some. A peer
that has not sent its device id yet gets nothing, and a broadcast leaves out peers whose rating is
too low or whose sync is not finished. Where nobody got the message the router should be told by a
nack, and only there (`Reported`): the tender of the message goes with the nack.

`broadcast` says so. `broadcast_with_exclude` looks only at whether there are peers at all, and
`send` at whether an id is unknown. A rating is compared as an unsigned number, so that a negative
one is enough for everything. Outside of these cases all three do as they should (`reported_iff`).
-/

namespace Metax

namespace LinkDelivery

open Ledger (Table)

/-! ### The link -/

/-- `peer_io`, as far as messages of the router go. -/
structure Peer where
  deviceId : Bytes
  rating : BitVec 32
  isSyncFinished : Bool
  deriving DecidableEq

/-- The commands of the router that are about a message. -/
inductive Command
  | send
  | broadcast
  | broadcastExcept
  deriving DecidableEq

/-- `router_link_package`. The peers are a set, in the order of their ids. -/
structure RouterPackage where
  cmd : Command
  requestId : ID32
  peers : List ID32
  ordered : peers.Pairwise (· < ·)
  cmdRating : BitVec 32
  shouldBlockBySync : Bool
  message : Package

/-- What the link sends: a message to a peer, or a nack to the router. -/
inductive Output
  | data (peer : ID32) (message : Package)
  | nack (requestId : ID32) (peers : List ID32) (message : Package)
  deriving DecidableEq

/-- `link_peers`. -/
abbrev Peers := Table ID32 Peer

/-- A peer that has sent its device id. -/
def Peer.Announced (p : Peer) : Prop := p.deviceId ≠ []

instance (p : Peer) : Decidable p.Announced := inferInstanceAs (Decidable (¬ _))

/-- `link::is_rating_enough`: the rating is converted to an unsigned number. -/
def isRatingEnough (r : BitVec 32) (io : Peer) : Prop := r ≤ io.rating

instance (r : BitVec 32) (io : Peer) : Decidable (isRatingEnough r io) :=
  inferInstanceAs (Decidable (_ ≤ _))

/-- A get waits for the end of the sync. -/
def Peer.Unblocked (p : Peer) (m : RouterPackage) : Prop :=
  m.shouldBlockBySync = false ∨ p.isSyncFinished = true

instance (p : Peer) (m : RouterPackage) : Decidable (p.Unblocked m) :=
  inferInstanceAs (Decidable (_ ∨ _))

/-- The condition of the loop of `broadcast`. -/
def Takes (m : RouterPackage) (p : Peer) : Prop :=
  p.Announced ∧ isRatingEnough m.cmdRating p ∧ p.Unblocked m

instance (m : RouterPackage) (p : Peer) : Decidable (Takes m p) :=
  inferInstanceAs (Decidable (_ ∧ _))

/-- `link::post_nack_to_router`. -/
def postNackToRouter (m : RouterPackage) : Output := .nack m.requestId m.peers m.message

/-- `link::broadcast`. -/
def broadcast (s : Peers) (m : RouterPackage) : List Output :=
  let takers := s.entries.filter fun e => Takes m e.2
  takers.map (fun e => .data e.1 m.message) ++ if takers = [] then [postNackToRouter m] else []

/-- `link::broadcast_with_exclude`. -/
def broadcastWithExclude (s : Peers) (m : RouterPackage) : List Output :=
  if s.entries = [] then [postNackToRouter m]
  else (s.entries.filter fun e => Takes m e.2 ∧ e.1 ∉ m.peers).map fun e => .data e.1 m.message

/-- `link::post_router_feedback`. -/
def postRouterFeedback (m : RouterPackage) (p : List ID32) : List Output :=
  if p = [] then [] else [.nack m.requestId p m.message]

/-- `link::send`. -/
def send (s : Peers) (m : RouterPackage) : List Output :=
  (m.peers.filter fun i => ∃ p ∈ s.lookup i, p.Announced).map (fun i => .data i m.message) ++
    postRouterFeedback m (m.peers.filter fun i => s.lookup i = none)

/-- `link::process_router_input`. -/
def processRouterInput (s : Peers) (m : RouterPackage) : List Output :=
  match m.cmd with
  | .send => send s m
  | .broadcast => broadcast s m
  | .broadcastExcept => broadcastWithExclude s m

/-! ### The law -/

/-- **Whom a message is for.** The ratings are numbers with a sign. -/
def IsFor (m : RouterPackage) (i : ID32) (p : Peer) : Prop :=
  p.Announced ∧
    match m.cmd with
    | .send => i ∈ m.peers
    | .broadcast => m.cmdRating.toNat ≤ p.rating.toInt ∧ p.Unblocked m
    | .broadcastExcept => m.cmdRating.toNat ≤ p.rating.toInt ∧ p.Unblocked m ∧ i ∉ m.peers

/-- Somebody gets the message. -/
def Reaches (s : Peers) (m : RouterPackage) : Prop := ∃ i p, s.lookup i = some p ∧ IsFor m i p

/-- **The law**: each peer the message is for gets it once, nobody else gets anything, and the
router gets one nack if nobody got it, and none otherwise. -/
structure Reported (s : Peers) (m : RouterPackage) (out : List Output) : Prop where
  nodup : out.Nodup
  data : ∀ i d, .data i d ∈ out ↔ d = m.message ∧ ∃ p, s.lookup i = some p ∧ IsFor m i p
  nack : (∃ requestId peers d, .nack requestId peers d ∈ out) ↔ ¬ Reaches s m
  single : ∀ requestId peers d requestId' peers' d', .nack requestId peers d ∈ out →
    .nack requestId' peers' d' ∈ out → requestId = requestId' ∧ peers = peers' ∧ d = d'

/-- **The condition**: of the peers a broadcast is sent to none has a negative rating; with peers to
leave out there is somebody to send to, or no peer at all; and where some are addressed, either
all of them are known and some of them announced, or some are unknown and none is announced. -/
def Sound (s : Peers) (m : RouterPackage) : Prop :=
  match m.cmd with
  | .send =>
    (∃ i ∈ m.peers, s.lookup i = none) ∧ (∀ i ∈ m.peers, ∀ p ∈ s.lookup i, ¬ p.Announced) ∨
      (∀ i ∈ m.peers, s.lookup i ≠ none) ∧ ∃ i ∈ m.peers, ∃ p ∈ s.lookup i, p.Announced
  | .broadcast => ∀ i p, s.lookup i = some p → Takes m p → 0 ≤ p.rating.toInt
  | .broadcastExcept =>
    (∀ i p, s.lookup i = some p → Takes m p → i ∉ m.peers → 0 ≤ p.rating.toInt) ∧
      (s.entries = [] ∨ ∃ i p, s.lookup i = some p ∧ Takes m p ∧ i ∉ m.peers)

variable {s : Peers} {m : RouterPackage} {i : ID32} {p : Peer} {d : Package}

/-! ### Messages and nacks -/

/-- The law for a list of messages and at most one nack. -/
theorem reported_iff_of {takers : List ID32} {nacks : List Output} (htakers : takers.Nodup)
    (hnacks : nacks = [] ∨ ∃ requestId peers d, nacks = [.nack requestId peers d]) :
    Reported s m (takers.map (fun i => .data i m.message) ++ nacks) ↔
      (∀ i, i ∈ takers ↔ ∃ p, s.lookup i = some p ∧ IsFor m i p) ∧
        (nacks = [] ↔ Reaches s m) := by
  -- the data are for the takers, and the rest is at most one report
  have hdata : ∀ i d, .data i d ∈ takers.map (fun i => Output.data i m.message) ++ nacks ↔
      d = m.message ∧ i ∈ takers := by
    intro i d
    have hnot : Output.data i d ∉ nacks := by
      rcases hnacks with rfl | ⟨r, q, e, rfl⟩
      · exact List.not_mem_nil
      · simp
    rw [List.mem_append, or_iff_left hnot, List.mem_map]
    constructor
    · rintro ⟨j, hj, heq⟩
      obtain ⟨rfl, rfl⟩ := Output.data.inj heq
      exact ⟨rfl, hj⟩
    · rintro ⟨rfl, hi⟩
      exact ⟨i, hi, rfl⟩
  -- and a report is no data
  have hnack : ∀ r q e, .nack r q e ∈ takers.map (fun i => Output.data i m.message) ++ nacks ↔
      .nack r q e ∈ nacks := by
    intro r q e
    rw [List.mem_append, or_iff_right ?_]
    simp
  have hsome : (∃ r q e, .nack r q e ∈ nacks) ↔ nacks ≠ [] := by
    rcases hnacks with rfl | ⟨r, q, e, rfl⟩
    · simp
    · simp
  constructor
  · intro h
    refine ⟨fun i => ?_, ?_⟩
    · have hi := (hdata i m.message).symm.trans (h.data i m.message)
      rwa [and_iff_right rfl, and_iff_right rfl] at hi
    · have hn := h.nack
      simp only [hnack] at hn
      exact not_iff_not.mp (hsome.symm.trans hn)
  · rintro ⟨hfor, hreaches⟩
    constructor
    -- nothing is put out twice
    · refine (htakers.map fun _ _ heq => (Output.data.inj heq).1).append ?_ ?_
      · rcases hnacks with rfl | ⟨r, q, e, rfl⟩
        · exact .nil
        · exact List.nodup_singleton _
      · intro o ho ho'
        obtain ⟨i, -, rfl⟩ := List.mem_map.mp ho
        rcases hnacks with rfl | ⟨r, q, e, rfl⟩
        · cases ho'
        · cases List.mem_singleton.mp ho'
    · intro i d
      rw [hdata, hfor]
    · simp only [hnack]
      exact hsome.trans (not_congr hreaches)
    · intro r q e r' q' e' h h'
      rw [hnack] at h h'
      rcases hnacks with rfl | ⟨r₀, q₀, e₀, rfl⟩
      · cases h
      · obtain ⟨rfl, rfl, rfl⟩ := Output.nack.inj (List.mem_singleton.mp h)
        obtain ⟨rfl, rfl, rfl⟩ := Output.nack.inj (List.mem_singleton.mp h')
        exact ⟨rfl, rfl, rfl⟩

/-- The ids of the peers with some property. -/
def idsWhere (s : Peers) (q : ID32 → Peer → Prop) [∀ i p, Decidable (q i p)] : List ID32 :=
  (s.entries.filter fun e => q e.1 e.2).map Sigma.fst

section IdsWhere

variable {q : ID32 → Peer → Prop} [∀ i p, Decidable (q i p)]

theorem nodup_idsWhere : (idsWhere s q).Nodup := by
  have hkeys : (s.entries.map Sigma.fst).Nodup := s.nodupKeys
  exact hkeys.sublist (List.filter_sublist.map _)

theorem mem_idsWhere : i ∈ idsWhere s q ↔ ∃ p, s.lookup i = some p ∧ q i p := by
  simp only [idsWhere, List.mem_map, List.mem_filter, decide_eq_true_eq]
  constructor
  · rintro ⟨⟨j, p⟩, ⟨he, hq⟩, rfl⟩
    exact ⟨p, AList.mem_lookup_iff.mpr he, hq⟩
  · rintro ⟨p, hp, hq⟩
    exact ⟨⟨i, p⟩, ⟨AList.mem_lookup_iff.mp hp, hq⟩, rfl⟩

end IdsWhere

/-! ### Ratings -/

/-- A rating that is not negative is compared as it should be. -/
theorem isRatingEnough_iff {r : BitVec 32} (h : 0 ≤ p.rating.toInt) :
    isRatingEnough r p ↔ r.toNat ≤ p.rating.toInt := by
  have hlt := p.rating.isLt
  rw [isRatingEnough, BitVec.le_def]
  rw [BitVec.toInt_eq_toNat_cond] at h ⊢
  split_ifs at h ⊢ with hsmall
  · omega
  · omega

/-- The peers that take a message are those it is for, as far as ratings are not negative. -/
theorem takes_iff {q : Prop} : (Takes m p ∧ q ↔
    p.Announced ∧ m.cmdRating.toNat ≤ p.rating.toInt ∧ p.Unblocked m ∧ q) ↔
      (Takes m p → q → 0 ≤ p.rating.toInt) := by
  constructor
  · intro h htakes hq
    exact le_trans (Int.natCast_nonneg _) (h.mp ⟨htakes, hq⟩).2.1
  · intro h
    constructor
    · rintro ⟨htakes, hq⟩
      have hrating := (isRatingEnough_iff (h htakes hq)).mp htakes.2.1
      exact ⟨htakes.1, hrating, htakes.2.2, hq⟩
    · rintro ⟨hannounced, hrating, hunblocked, hq⟩
      have hnonneg := le_trans (Int.natCast_nonneg _) hrating
      exact ⟨⟨hannounced, (isRatingEnough_iff hnonneg).mpr hrating, hunblocked⟩, hq⟩

/-! ### The three loops -/

theorem broadcast_eq : broadcast s m =
    (idsWhere s fun _ p => Takes m p).map (fun i => .data i m.message) ++
      if idsWhere s (fun _ p => Takes m p) = [] then [postNackToRouter m] else [] := by
  simp [broadcast, idsWhere, List.map_map, Function.comp_def]

theorem broadcastWithExclude_eq : broadcastWithExclude s m =
    (idsWhere s fun i p => Takes m p ∧ i ∉ m.peers).map (fun i => .data i m.message) ++
      if s.entries = [] then [postNackToRouter m] else [] := by
  rw [broadcastWithExclude]
  split_ifs with hnil
  · simp [idsWhere, hnil]
  · simp [idsWhere, List.map_map, Function.comp_def]

theorem ite_nack {c : Prop} [Decidable c] : (if c then [postNackToRouter m] else []) = [] ∨
    ∃ requestId peers d, (if c then [postNackToRouter m] else []) =
      [.nack requestId peers d] := by
  split_ifs
  · exact .inr ⟨_, _, _, rfl⟩
  · exact .inl rfl

theorem ite_nack_eq_nil {c : Prop} [Decidable c] :
    (if c then [postNackToRouter m] else []) = [] ↔ ¬ c := by
  split_ifs with hc
  · simp [hc]
  · simp [hc]

/-- Two properties hold of the same ids exactly if they hold of the same peers. -/
theorem forall_exists_iff {P Q : ID32 → Peer → Prop} :
    (∀ i, (∃ p, s.lookup i = some p ∧ P i p) ↔ ∃ p, s.lookup i = some p ∧ Q i p) ↔
      ∀ i p, s.lookup i = some p → (P i p ↔ Q i p) := by
  refine forall_congr' fun i => ?_
  cases hp : s.lookup i with
  | none => simp
  | some p => simp

/-- Nobody is found where nobody is meant. -/
theorem eq_nil_iff_not_reaches {l : List ID32}
    (h : ∀ i, i ∈ l ↔ ∃ p, s.lookup i = some p ∧ IsFor m i p) : l = [] ↔ ¬ Reaches s m := by
  rw [List.eq_nil_iff_forall_not_mem, Reaches, not_exists]
  exact forall_congr' fun i => not_congr (h i)

theorem reported_broadcast (hcmd : m.cmd = .broadcast) :
    Reported s m (broadcast s m) ↔ Sound s m := by
  have hfor : ∀ i p, IsFor m i p ↔
      p.Announced ∧ m.cmdRating.toNat ≤ p.rating.toInt ∧ p.Unblocked m ∧ True := by
    intro i p
    simp [IsFor, hcmd]
  have hsound : Sound s m ↔ ∀ i p, s.lookup i = some p → (Takes m p ∧ True ↔ IsFor m i p) := by
    simp only [Sound, hcmd, hfor, takes_iff, forall_const]
  rw [broadcast_eq, reported_iff_of nodup_idsWhere ite_nack, ite_nack_eq_nil, hsound,
    ← forall_exists_iff]
  simp only [mem_idsWhere, and_true]
  refine and_iff_left_of_imp fun h => not_iff_comm.mp ?_
  refine (eq_nil_iff_not_reaches fun i => ?_).symm
  rw [mem_idsWhere]
  exact h i

theorem reported_broadcastWithExclude (hcmd : m.cmd = .broadcastExcept) :
    Reported s m (broadcastWithExclude s m) ↔ Sound s m := by
  have hfor : ∀ i p, IsFor m i p ↔
      p.Announced ∧ m.cmdRating.toNat ≤ p.rating.toInt ∧ p.Unblocked m ∧ i ∉ m.peers := by
    intro i p
    simp only [IsFor, hcmd]
  have hfirst : (∀ i p, s.lookup i = some p → Takes m p → i ∉ m.peers → 0 ≤ p.rating.toInt) ↔
      ∀ i p, s.lookup i = some p → (Takes m p ∧ i ∉ m.peers ↔ IsFor m i p) := by
    simp only [hfor, takes_iff]
  rw [broadcastWithExclude_eq, reported_iff_of nodup_idsWhere ite_nack, ite_nack_eq_nil,
    Sound, hcmd]
  dsimp only
  rw [hfirst, ← forall_exists_iff]
  simp only [mem_idsWhere]
  refine and_congr_right fun h => ?_
  have hreaches : Reaches s m ↔ ∃ i p, s.lookup i = some p ∧ Takes m p ∧ i ∉ m.peers :=
    exists_congr fun i => (h i).symm
  rw [hreaches]
  by_cases hnil : s.entries = []
  · have hnone : ¬ ∃ i p, s.lookup i = some p ∧ Takes m p ∧ i ∉ m.peers := by
      rintro ⟨i, p, hp, -⟩
      have hmem := AList.mem_lookup_iff.mp hp
      rw [hnil] at hmem
      cases hmem
    simp only [hnil, not_true_eq_false, hnone, true_or]
  · simp only [hnil, not_false_eq_true, true_iff, false_or]

theorem reported_send (hcmd : m.cmd = .send) : Reported s m (send s m) ↔ Sound s m := by
  have hfor : ∀ i p, IsFor m i p ↔ p.Announced ∧ i ∈ m.peers := by
    intro i p
    simp only [IsFor, hcmd]
  have hnacks : postRouterFeedback m (m.peers.filter fun i => s.lookup i = none) = [] ∨
      ∃ requestId peers d, postRouterFeedback m (m.peers.filter fun i => s.lookup i = none) =
        [.nack requestId peers d] := by
    rw [postRouterFeedback]
    split_ifs
    · exact .inl rfl
    · exact .inr ⟨_, _, _, rfl⟩
  have hnil : postRouterFeedback m (m.peers.filter fun i => s.lookup i = none) = [] ↔
      ∀ i ∈ m.peers, s.lookup i ≠ none := by
    have hempty : (m.peers.filter fun i => s.lookup i = none) = [] ↔
        ∀ i ∈ m.peers, s.lookup i ≠ none := by
      simp [List.filter_eq_nil_iff]
    rw [← hempty, postRouterFeedback]
    split_ifs with h
    · exact iff_of_true rfl h
    · exact iff_of_false (by simp) h
  have hnodup : (m.peers.filter fun i => ∃ p ∈ s.lookup i, p.Announced).Nodup :=
    (m.ordered.imp fun h => Nat.ne_of_lt h).filter _
  have hmem : ∀ i, i ∈ m.peers.filter (fun i => ∃ p ∈ s.lookup i, p.Announced) ↔
      ∃ p, s.lookup i = some p ∧ IsFor m i p := by
    intro i
    simp only [List.mem_filter, decide_eq_true_eq, hfor, Option.mem_def]
    tauto
  have hreaches : Reaches s m ↔ ∃ i ∈ m.peers, ∃ p ∈ s.lookup i, p.Announced := by
    simp only [Reaches, hfor, Option.mem_def]
    refine exists_congr fun i => ?_
    tauto
  rw [send, reported_iff_of hnodup hnacks, and_iff_right hmem, hnil, hreaches, Sound, hcmd]
  dsimp only
  have hunknown : (∃ i ∈ m.peers, s.lookup i = none) ↔ ¬ ∀ i ∈ m.peers, s.lookup i ≠ none := by
    push Not
    rfl
  have hquiet : (∀ i ∈ m.peers, ∀ p ∈ s.lookup i, ¬ p.Announced) ↔
      ¬ ∃ i ∈ m.peers, ∃ p ∈ s.lookup i, p.Announced := by
    push Not
    rfl
  rw [hunknown, hquiet]
  exact iff_iff_and_or_not_and_not.trans or_comm

/-- **Exactly when** a request of the router is handed over and answered as it should be. -/
theorem reported_iff (s : Peers) (m : RouterPackage) :
    Reported s m (processRouterInput s m) ↔ Sound s m := by
  rw [processRouterInput]
  cases hcmd : m.cmd with
  | send => exact reported_send hcmd
  | broadcast => exact reported_broadcast hcmd
  | broadcastExcept => exact reported_broadcastWithExclude hcmd

/-- One peer. -/
def onlyPeer : Peers := AList.insert 1 ⟨[7], 0, true⟩ ∅

/-- A message for all peers but that one. -/
def exceptOnly : RouterPackage where
  cmd := .broadcastExcept
  requestId := 9
  peers := [1]
  ordered := List.pairwise_singleton _ _
  cmdRating := 0
  shouldBlockBySync := false
  message := .empty

/-- **The only peer is left out**, and the router is not told. -/
theorem not_reported_broadcast : ¬ ∀ (s : Peers) (m : RouterPackage),
    Reported s m (processRouterInput s m) := by
  intro h
  have hsound := (h onlyPeer exceptOnly).nack
  have hnone : ¬ Reaches onlyPeer exceptOnly := by
    rintro ⟨i, p, hp, hfor⟩
    obtain ⟨hi, -⟩ | ⟨-, hp⟩ := Ledger.eq_or_of_lookup_insert hp
    · exact hfor.2.2.2 (List.mem_singleton.mpr hi)
    · cases hp
  obtain ⟨requestId, peers, d, hmem⟩ := hsound.mpr hnone
  have hnil : processRouterInput onlyPeer exceptOnly = [] := by decide
  rw [hnil] at hmem
  cases hmem

end LinkDelivery

end Metax
