import Mathlib.Data.List.Chain
import Metax.Network.HopBudget

/-!
# What is in flight

In every network that a run reaches, each message in flight was written by a router, and has gone
from neighbour to neighbour.

Besides, only announcements open tenders of `m_tenders` (`Valid`). Both are used where the way of
data back to its originator is followed (`Metax.Network.ReplyRouting`).
-/

namespace Metax

open Router

namespace Router

/-- Only announcements open the tenders of `m_tenders`. -/
def Tables.Valid (T : Tables) : Prop :=
  ∀ i t, T.tenders.lookup i = some t → isInvalidNewTender t.cmd = false

section

variable {T T' : Tables} {p : Pointer} {t : Tender}

theorem Tables.Valid.assign (h : T.Valid)
    (ht : p.isSync = false → isInvalidNewTender t.cmd = false) :
    (T.assign p t).Valid := by
  intro i t' ht'
  have hstored : (T.assign p t).deref (.tender i) = some t' := ht'
  rw [Tables.deref_assign] at hstored
  split_ifs at hstored with hp
  · obtain rfl := Option.some.inj hstored
    exact ht (by rw [← hp]; rfl)
  · exact h i t' hstored

theorem Tables.Valid.enter {k : ID32} {i : UUID} (h : T.Valid) :
    ((T.insertId k i).pushTimeline p).Valid := by
  intro j t' ht'
  have hstored : ((T.insertId k i).pushTimeline p).deref (.tender j) = some t' := ht'
  rw [Tables.deref_pushTimeline, Tables.deref_insertId] at hstored
  exact h j t' hstored

theorem Change.valid {maxHops : UInt16} {rid : ID32} {d : RouterData} {e : Router.Event}
    (h : Change T maxHops rid d e T') (hT : T.Valid) : T'.Valid := by
  cases h with
  | none => exact hT
  | announced inp fresh t he ht hid hnew =>
    refine (hT.assign fun _ => ?_).enter
    rw [ht.cmd]
    exact ht.valid
  | opened p inp fresh t he hin ht hd hne hkey hcmd hvalid hnew => exact (hT.assign hvalid).enter
  | orphaned p inp fresh t he hin ht hd hne hkey hcmd hvalid hnew hbad => exact hT.assign hvalid
  | updated i t t' ht hupdate =>
    refine hT.assign fun _ => ?_
    rw [hupdate.keeps.2.1]
    exact hT i t ht
  | resynced i t ht => exact hT.assign nofun
  | removed p t ht hp hcmd =>
    intro i t' ht'
    have hstored : (T.remove p t).deref (.tender i) = some t' := ht'
    exact hT i t' (Tables.deref_of_remove hstored)
  | refused k i t he hid ht htyp hprs hhop =>
    intro j t' ht'
    have hassigned := hT.assign (p := .tender i) (t := { t with requestId := noRequest })
      fun _ => hT i t ht
    exact hassigned j t' ht'

end

end Router

namespace Network

variable {N : Type}

/-- The relation between neighbours, from a node to the one it got a message from. -/
abbrev Topology.Link (G : Topology N) (n m : N) : Prop := n ∈ G.neighbours m

/-- What is known of every network that a run reaches. -/
structure Traced (G : Topology N) (net : Net N) : Prop where
  written : ∀ f ∈ net.flights, ∃ d p, f.message = RouterData.serialize d p ∧ d.winnersId = []
  src : ∀ f ∈ net.flights, f.trail.head? = some f.src
  chain : ∀ f ∈ net.flights, (f.dst :: f.trail).IsChain G.Link
  copies : ∀ n i, (n :: (net.copies n i).trail).IsChain G.Link
  pointed : ∀ n, ∀ s ∈ net.nodes n, s.Pointed
  valid : ∀ n, ∀ s ∈ net.nodes n, s.toTables.Valid

/-- An input and the router that handles it, in such a network. -/
structure Handling.Traced (G : Topology N) (h : Handling N) : Prop where
  pointed : h.state.Pointed
  valid : h.state.toTables.Valid
  chain : ∀ c ∈ h.cause, (h.node :: c.trail).IsChain G.Link
  own : h.event.IsOwn → h.cause = none
  received : ∀ inp fresh, h.event = .link inp fresh → inp.cmd = .receivedData → ∃ d p,
    inp.package.message = RouterData.serialize d p ∧ d.winnersId = []

section

variable {G : Topology N} {net : Net N} {e : NetEvent N} {h : Handling N} {l : LinkPackage}

theorem traced_initial : Traced G (initial : Net N) := by
  refine ⟨nofun, nofun, nofun, fun n i => List.isChain_singleton n, ?_, ?_⟩
  · intro n s hs
    obtain rfl := Option.some.inj hs
    exact pointed_init
  · intro n s hs
    obtain rfl := Option.some.inj hs
    intro i t ht
    cases ht

theorem Traced.handling (hnet : Traced G net) (hh : handling G net e = some h) :
    h.Traced G := by
  cases e with
  | deliver k beyond fresh =>
    obtain ⟨f, hf, hh⟩ := Option.bind_eq_some_iff.mp hh
    obtain ⟨s, hs, rfl⟩ := Option.map_eq_some_iff.mp hh
    have hmem := List.mem_of_getElem? hf
    refine ⟨hnet.pointed _ s hs, hnet.valid _ s hs, ?_, fun h => h.1.elim, ?_⟩
    · rintro c ⟨⟩
      exact hnet.chain f hmem
    · intro inp fresh' he _
      obtain ⟨rfl, -⟩ := Router.Event.link.inj he
      exact hnet.written f hmem
  | lose k => cases hh
  | input n e =>
    rw [Network.handling] at hh
    split_ifs at hh with hreceived
    obtain ⟨s, hs, rfl⟩ := Option.map_eq_some_iff.mp hh
    refine ⟨hnet.pointed _ s hs, hnet.valid _ s hs, ?_, ?_, ?_⟩
    · intro c hc
      obtain ⟨i, -, rfl⟩ := Option.map_eq_some_iff.mp hc
      exact hnet.copies n i
    · intro hown
      dsimp only at hown ⊢
      rw [hown.2]
      rfl
    · intro inp fresh he hin
      exact absurd (isReceived_link he hin) hreceived

/-- A package that reaches anybody is a message of the router. -/
theorem Handling.Traced.sends {s : State} (hs : h.Traced G)
    (hstep : Router.step h.state h.event = some s) (hl : l ∈ links s.out) :
    (∃ d p, l.message = RouterData.serialize d p ∧ d.winnersId = []) ∨
      l.cmd ∈ [.syncStarted, .syncFinished] := by
  have hsent := step_sent hs.pointed.toKeyed hstep (.link l) (mem_links.mp hl)
  cases hsent with
  | announced inp fresh t => exact .inl ⟨_, _, rfl, rfl⟩
  | transferred q t ht hprs he k hrequest hk d' hid hwinners p => exact .inl ⟨d', p, rfl, hwinners⟩
  | accepted i t ht hwinners l => exact absurd (hs.pointed.winners (.tender i) t ht) hwinners
  | synchronized cmd hcmd => exact .inr hcmd
  | refused k i t he hid ht htyp hhop hprs q => exact .inl ⟨_, q, rfl, rfl⟩
  | forwarded inp fresh t he hin hd hpeers hmulti hhop hnew hprs q => exact .inl ⟨_, q, rfl, rfl⟩
  | bypassed inp fresh t he hin =>
    obtain ⟨d, p, hmessage, hwinners⟩ := hs.received inp fresh he hin
    refine .inl ⟨{ d with hopId := inp.header.hopId - 1 }, p, ?_, hwinners⟩
    rw [hmessage]
    exact RouterData.updateHopId_serialize d p _

theorem origin_trail (h : Handling N) (l : LinkPackage) :
    (h.origin l).trail = h.node :: (h.cause.map fun c => c.trail).getD [] := by
  rw [Handling.origin]
  cases h.cause with
  | none => rfl
  | some c => rfl

/-- A message that is sent goes to a neighbour and remembers where it comes from. -/
theorem Handling.Traced.dispatch {s : State} (hs : h.Traced G)
    (hstep : Router.step h.state h.event = some s) {f : Flight N}
    (hf : f ∈ (links s.out).flatMap fun l => G.dispatch h.node (h.origin l) l) :
    (∃ d p, f.message = RouterData.serialize d p ∧ d.winnersId = []) ∧
      f.trail.head? = some f.src ∧ (f.dst :: f.trail).IsChain G.Link := by
  obtain ⟨l, hl, hf⟩ := List.mem_flatMap.mp hf
  obtain ⟨m, hm, rfl⟩ := List.mem_map.mp hf
  rcases hs.sends hstep hl with hmessage | hcmd
  · refine ⟨hmessage, ?_, ?_⟩
    · dsimp only
      rw [origin_trail]
      rfl
    · dsimp only
      rw [origin_trail]
      refine List.isChain_cons_cons.mpr ⟨receivers_subset hm, ?_⟩
      cases hc : h.cause with
      | none => exact List.isChain_singleton _
      | some c => exact hs.chain c hc
  · rw [receivers_sync hcmd] at hm
    cases hm

variable [DecidableEq N]

/-- What holds of the routers holds of them after one of them has taken a step. -/
theorem forall_update {n : N} {nodes : N → Option State} {o : Option State} {P : N → State → Prop}
    (hother : ∀ m, ∀ s ∈ nodes m, P m s) (ho : ∀ s ∈ o, P n s) :
    ∀ m, ∀ s ∈ Function.update nodes n o m, P m s := by
  intro m s hs
  by_cases hm : m = n
  · subst hm
    rw [Function.update_self] at hs
    exact ho s hs
  · rw [Function.update_of_ne hm] at hs
    exact hother m s hs

/-- **Step lemma.** -/
theorem Traced.next (hnet : Traced G net) : Traced G (next G net e) := by
  have hleft : ∀ f ∈ remaining net e, f ∈ net.flights := fun f hf => remaining_subset hf
  rw [Network.next]
  cases hh : Network.handling G net e with
  | none =>
    exact ⟨fun f hf => hnet.written f (hleft f hf), fun f hf => hnet.src f (hleft f hf),
      fun f hf => hnet.chain f (hleft f hf), hnet.copies, hnet.pointed, hnet.valid⟩
  | some h =>
    have hs := hnet.handling hh
    have hcopies : ∀ n i, (n :: (h.copies net.copies n i).trail).IsChain G.Link := by
      intro n i
      rw [copies_apply]
      split_ifs with hi
      · cases hc : h.cause with
        | none => exact hnet.copies n i
        | some c => exact hi.1 ▸ hs.chain c hc
      · exact hnet.copies n i
    dsimp only
    rw [Handling.react]
    cases hstep : Router.step h.state h.event with
    | none =>
      refine ⟨fun f hf => hnet.written f (hleft f hf), fun f hf => hnet.src f (hleft f hf),
        fun f hf => hnet.chain f (hleft f hf), hnet.copies, ?_, ?_⟩
      · exact forall_update hnet.pointed fun s hs => absurd hs (Option.not_mem_none s)
      · exact forall_update hnet.valid fun s hs => absurd hs (Option.not_mem_none s)
    | some s =>
      have hpointed : ∀ s' ∈ some s, s'.Pointed := by
        rintro s' ⟨⟩
        exact pointed_step hs.pointed hstep
      have hvalid : ∀ s' ∈ some s, s'.toTables.Valid := by
        rintro s' ⟨⟩
        exact (step_change hs.pointed.toKeyed hstep).valid hs.valid
      refine ⟨fun f hf => ?_, fun f hf => ?_, fun f hf => ?_, hcopies,
        forall_update hnet.pointed hpointed, forall_update hnet.valid hvalid⟩
      · exact (List.mem_append.mp hf).elim (fun hf => hnet.written f (hleft f hf))
          fun hf => (hs.dispatch hstep hf).1
      · exact (List.mem_append.mp hf).elim (fun hf => hnet.src f (hleft f hf))
          fun hf => (hs.dispatch hstep hf).2.1
      · exact (List.mem_append.mp hf).elim (fun hf => hnet.chain f (hleft f hf))
          fun hf => (hs.dispatch hstep hf).2.2

/-- **Run lemma.** -/
theorem Traced.run {es : List (NetEvent N)} {net' : Net N} (hnet : Traced G net)
    (hrun : Run.run (step G) net es = some net') : Traced G net' := by
  refine Run.invariant_of_run_all (Traced G) ?_ hnet hrun
  intro net e net' hnet hnext
  rw [← Option.some.inj hnext]
  exact hnet.next

end

end Network

end Metax
