import Metax.Trust.Durability

/-!
# A device keeps its user key

The first user key a trusted device comes with is pinned: until the device is removed it is verified
with no other one, whatever is asked in between and however often the program starts again
(`pinned_of_run`). A start has to find in the file what was in memory, as it does if the file could
be written each time (`restores_of_run`).

`pin` reads off the log what a device is bound to. The trusted peers in memory say the same
(`Bound`), which is kept by every step and, where the file has them, by a restart.
-/

namespace Metax

namespace Trust

open Ledger (Table)
open History

variable {codec : Codec} {s t : Node} {e : Event} {es : List Event} {strict : Bool}
  {file : Option Text} {start : TrustedPeers} {d : Digest} {k : Text}

/-! ### What is pinned -/

/-- The user key a device is bound to: the last one it was verified with since it was removed, or
the one it had at the start. -/
def pin (start : TrustedPeers) (d : Digest) : List Entry → Option Text
  | [] => (start.lookup d).bind fun p => if p.userKey = [] then none else some p.userKey
  | .verified _ d' k :: l => if d' = d ∧ k ≠ [] then some k else pin start d l
  | .removed d' :: l => if d' = d then none else pin start d l
  | _ :: l => pin start d l

/-- A device is verified with the key it is bound to. -/
def Pinned (start : TrustedPeers) (e : Entry) (older : List Entry) : Prop :=
  ∀ peer d k, e = .verified peer d k → ∀ k', pin start d older = some k' → k = k'

/-- Entries about something else bind nothing. -/
theorem pin_append {l log : List Entry} (hl : ∀ e ∈ l, e.Quiet) :
    pin start d (l ++ log) = pin start d log := by
  induction l with
  | nil => rfl
  | cons e l ih =>
    have ih := ih fun e' he' => hl e' (List.mem_cons_of_mem _ he')
    cases e with
    | verified | removed => exact (hl _ List.mem_cons_self).elim
    | opened | asked | notVerified | connected | received => exact ih

/-- Nor do they have to agree with what is bound. -/
theorem pinned_of_quiet {e : Entry} {older : List Entry} (he : e.Quiet) :
    Pinned start e older := by
  rintro peer d k rfl
  exact he.elim

/-- The empty key binds nothing. -/
theorem pin_ne_nil {log : List Entry} (h : pin start d log = some k) : k ≠ [] := by
  induction log with
  | nil =>
    obtain ⟨p, -, hp⟩ := Option.bind_eq_some_iff.mp h
    split_ifs at hp with hk
    exact Option.some.inj hp ▸ hk
  | cons e l ih =>
    cases e with
    | verified peer d' k' =>
      rw [pin] at h
      split_ifs at h with hk
      · exact Option.some.inj h ▸ hk.2
      · exact ih h
    | removed d' =>
      rw [pin] at h
      split_ifs at h
      exact ih h
    | opened | asked | notVerified | connected | received => exact ih h

/-- As long as a device is not removed, it is bound to the key it was verified with. -/
theorem pin_of_verified {newer older : List Entry} {peer : ID32}
    (h : Past (Pinned start) (newer ++ .verified peer d k :: older)) (hk : k ≠ [])
    (hkept : .removed d ∉ newer) :
    pin start d (newer ++ .verified peer d k :: older) = some k := by
  induction newer with
  | nil =>
    rw [List.nil_append, pin]
    exact if_pos ⟨rfl, hk⟩
  | cons e l ih =>
    obtain ⟨he, hl⟩ := past_cons.mp h
    have ih := ih hl fun hmem => hkept (List.mem_cons_of_mem _ hmem)
    cases e with
    | verified peer' d' k' =>
      rw [List.cons_append, pin]
      split_ifs with hd
      · obtain ⟨rfl, -⟩ := hd
        rw [he peer' d' k' rfl k ih]
      · exact ih
    | removed d' =>
      rw [List.cons_append, pin, if_neg]
      · exact ih
      · rintro rfl
        exact hkept List.mem_cons_self
    | opened | asked | notVerified | connected | received => exact ih

/-! ### Steps of the configuration manager -/

/-- **The invariant**: the trusted peers have the key a device is bound to. -/
structure Bound (start : TrustedPeers) (s : Node) : Prop where
  kept : ∀ d k, pin start d s.log = some k → ∃ p, s.trusted.lookup d = some p ∧ p.userKey = k
  past : Past (Pinned start) s.log

/-- A step that leaves the trusted peers alone. -/
theorem Bound.aside (h : Bound start s) (hst : Aside s t) : Bound start t := by
  obtain ⟨l, hl, hquiet⟩ := hst.log
  constructor
  · intro d k hk
    rw [hl, pin_append hquiet] at hk
    rw [hst.trusted]
    exact h.kept d k hk
  · rw [hl]
    exact past_append_of_forall (fun e he _ => pinned_of_quiet (hquiet e he)) h.past

/-- The file is of no matter. -/
theorem Bound.of_eq (h : Bound start s) (htrusted : t.trusted = s.trusted) (hlog : t.log = s.log) :
    Bound start t := by
  constructor
  · rw [htrusted, hlog]
    exact h.kept
  · rw [hlog]
    exact h.past

/-- A device is not verified. -/
theorem Bound.notVerified {r : VerifyRequest} (h : Bound start s) :
    Bound start (s.sendPeerVerifyResponse r false) :=
  h.aside ⟨rfl, rfl, [_], rfl, fun _ he => List.mem_singleton.mp he ▸ trivial⟩

/-- A device is verified with a key the trusted peers have for it. -/
theorem Bound.verified {r : VerifyRequest} {p : PeerInfo} (h : Bound start s)
    (hp : s.trusted.lookup r.deviceId = some p) (hkey : p.userKey = r.publicKey) :
    Bound start (s.sendPeerVerifyResponse r true) := by
  refine ⟨fun d k hk => ?_, past_cons.mpr ⟨?_, h.past⟩⟩
  · change pin start d (.verified r.peer r.deviceId r.publicKey :: s.log) = some k at hk
    rw [pin] at hk
    split_ifs at hk with hd
    · obtain ⟨rfl, -⟩ := hd
      exact ⟨p, hp, hkey.trans (Option.some.inj hk)⟩
    · exact h.kept d k hk
  · rintro peer d k he k' hk'
    obtain ⟨-, rfl, rfl⟩ := Entry.verified.inj he
    obtain ⟨p', hp', rfl⟩ := h.kept _ _ hk'
    obtain rfl := Option.some.inj (hp.symm.trans hp')
    exact hkey.symm

/-- A key for a device that has none yet. -/
theorem Bound.learn {p : PeerInfo} (h : Bound start s) (hp : s.trusted.lookup d = some p)
    (hnil : p.userKey = []) :
    Bound start { s with trusted := s.trusted.insert d ⟨p.deviceKey, k⟩ } := by
  refine ⟨fun d' k' hk' => ?_, h.past⟩
  obtain ⟨q, hq, rfl⟩ := h.kept d' k' hk'
  have hne : d' ≠ d := by
    rintro rfl
    obtain rfl := Option.some.inj (hp.symm.trans hq)
    exact pin_ne_nil hk' hnil
  exact ⟨q, (AList.lookup_insert_ne hne).trans hq, rfl⟩

/-- **A peer is looked up.** -/
theorem Bound.handleLinkVerifyPeerRequest {r : VerifyRequest} {w : Write} (h : Bound start s) :
    Bound start (s.handleLinkVerifyPeerRequest codec r w) := by
  rw [Node.handleLinkVerifyPeerRequest]
  split
  · exact h.notVerified
  · rename_i p hp
    split_ifs with hnil
    · refine Bound.verified (p := ⟨p.deviceKey, r.publicKey⟩)
        ((h.learn hp hnil).of_eq trusted_writeFile log_writeFile) ?_ rfl
      rw [trusted_writeFile]
      exact AList.lookup_insert _
    · by_cases hkey : r.publicKey = p.userKey
      · rw [decide_eq_true hkey]
        exact h.verified hp hkey.symm
      · rw [decide_eq_false hkey]
        exact h.notVerified

/-- A device that is there stays as it is. -/
theorem lookup_addPeer {trusted : TrustedPeers} {d' : Digest} {deviceKey : Text} {p : PeerInfo}
    (hp : trusted.lookup d = some p) : (addPeer trusted d' deviceKey).lookup d = some p := by
  rw [addPeer]
  split
  · rename_i hnone
    rw [AList.lookup_insert_ne, hp]
    rintro rfl
    rw [hnone] at hp
    cases hp
  · exact hp

/-- A device that is added again keeps its user key. -/
theorem Bound.handleKernelAddTrustedPeer {message : Text} {w : Write} (h : Bound start s) :
    Bound start (s.handleKernelAddTrustedPeer codec message w) := by
  have hadd : Bound start { s with
      trusted := addPeer s.trusted (Node.digestOf codec message) (KeyManager.trim message) } := by
    refine ⟨fun d k hk => ?_, h.past⟩
    obtain ⟨p, hp, hkey⟩ := h.kept d k hk
    exact ⟨p, lookup_addPeer hp, hkey⟩
  exact hadd.of_eq trusted_writeFile log_writeFile

/-- One that is removed loses it, in memory and by the log. -/
theorem Bound.handleKernelRemoveTrustedPeer {message : Text} {w : Write} (h : Bound start s) :
    Bound start (s.handleKernelRemoveTrustedPeer codec message w) := by
  obtain ⟨d', hd'⟩ : ∃ d', d' = Node.digestOf codec message := ⟨_, rfl⟩
  rw [Node.handleKernelRemoveTrustedPeer, ← hd']
  refine ⟨fun d k hk => ?_, past_cons.mpr ⟨?_, ?_⟩⟩
  · change pin start d (.removed d' :: (Node.writeFile codec _ w).log) = some k at hk
    rw [pin, log_writeFile] at hk
    split_ifs at hk with hd
    obtain ⟨p, hp, hkey⟩ := h.kept d k hk
    refine ⟨p, ?_, hkey⟩
    change (Node.writeFile codec _ w).trusted.lookup d = some p
    rw [trusted_writeFile]
    exact (AList.lookup_erase_ne fun h => hd h.symm).trans hp
  · rintro peer d k he
    cases he
  · rw [log_writeFile]
    exact h.past

/-! ### Every run -/

/-- **Step lemma.** -/
theorem Bound.step (h : Bound start s) (hrestores : Restores codec s e)
    (hstep : step codec s e = some t) : Bound start t := by
  cases e with
  | connect gid => exact h.aside (aside_connect hstep)
  | deviceId peer di publicKey loadInfo =>
    obtain ⟨p, -, hstep⟩ := Option.bind_eq_some_iff.mp hstep
    exact h.aside (aside_handleLinkPeerDeviceId hstep)
  | data peer data =>
    obtain ⟨p, -, hstep⟩ := Option.bind_eq_some_iff.mp hstep
    exact h.aside (aside_handleRouterMessageOfLinkPeer hstep)
  | shutdown peer => exact h.aside (aside_linkStep hstep)
  | remove peer => exact h.aside (aside_linkStep hstep)
  | readConfig w =>
    rw [Trust.step] at hstep
    split at hstep
    · cases hstep
    · obtain rfl := Option.some.inj hstep
      exact Bound.handleLinkVerifyPeerRequest (h.of_eq rfl rfl)
  | readLink =>
    rw [Trust.step] at hstep
    split at hstep
    · cases hstep
    · rename_i a as _
      have hread : Bound start { s with toLink := as } := h.of_eq rfl rfl
      exact hread.aside (aside_handleConfigAnswer hstep)
  | addPeer message w =>
    obtain rfl := Option.some.inj hstep
    exact h.handleKernelAddTrustedPeer
  | removePeer message w =>
    obtain rfl := Option.some.inj hstep
    exact h.handleKernelRemoveTrustedPeer
  | restart =>
    obtain rfl := Option.some.inj hstep
    refine ⟨fun d k hk => ?_, h.past⟩
    obtain ⟨p, hp, hkey⟩ := h.kept d k hk
    exact ⟨p, (hrestores d).trans hp, hkey⟩

/-- At the start a device is bound to the key in the file. -/
theorem bound_init : Bound (readTrustedPeers codec file) (Node.init codec strict file) := by
  refine ⟨fun d k hk => ?_, past_nil⟩
  obtain ⟨p, hp, hk⟩ := Option.bind_eq_some_iff.mp hk
  split_ifs at hk
  exact ⟨p, hp, Option.some.inj hk⟩

/-- **A device keeps its user key**: of two keys it was verified with, the first not empty, the
second is the first one again unless the device was removed in between. -/
theorem pinned_of_run (hrun : Run.run (step codec) (Node.init codec strict file) es = some s)
    (hrestores : Run.Along (step codec) (Restores codec) (Node.init codec strict file) es)
    {peer peer' : ID32} {k' : Text} {newer between older : List Entry}
    (hlog : s.log = newer ++ .verified peer' d k' :: (between ++ .verified peer d k :: older))
    (hk : k ≠ []) (hkept : .removed d ∉ between) : k' = k := by
  have hbound : Bound (readTrustedPeers codec file) s := by
    refine Run.invariant_of_run (Bound _) (fun s e t h hok hstep => ?_) bound_init hrestores hrun
    exact h.step hok hstep
  have hpast := hbound.past
  rw [hlog] at hpast
  have hverified := past_append_cons hpast
  exact hverified peer' d k' rfl k (pin_of_verified (past_of_append hpast).2 hk hkept)

/-- What happens in the run of the witness: the device is verified before and after the restart. -/
theorem log_twoStarts : ∃ s,
    Run.run (step plainCodec) (Node.init plainCodec true none) twoStarts = some s ∧ s.log =
      [] ++ .verified Link.requestLowerBound [68] ['U'] ::
        ([.asked Link.requestLowerBound [68] ['U'], .opened Link.requestLowerBound,
          .connected Link.requestLowerBound [68] ['U']] ++
          .verified Link.requestLowerBound [68] ['U'] ::
            [.asked Link.requestLowerBound [68] ['U'], .opened Link.requestLowerBound]) :=
  ⟨_, rfl, rfl⟩

/-- The device of `twoStarts` comes with the same user key again. -/
theorem pinned_of_run_twoStarts : ∃ s newer between older k',
    Run.run (step plainCodec) (Node.init plainCodec true none) twoStarts = some s ∧
      s.log = newer ++ .verified Link.requestLowerBound [68] k' ::
        (between ++ .verified Link.requestLowerBound [68] ['U'] :: older) ∧ k' = ['U'] := by
  obtain ⟨s, hs, hlog⟩ := log_twoStarts
  have hrestores := restores_of_run reads_plainCodec writable_twoStarts
  exact ⟨s, _, _, _, _, hs, hlog, pinned_of_run hs hrestores hlog (by decide) (by decide)⟩

end Trust

end Metax
