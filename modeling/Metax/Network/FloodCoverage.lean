import Mathlib.Combinatorics.SimpleGraph.Metric
import Metax.Network.HopBudget
import Metax.Router.Announcement

/-!
# The coverage of a flood

The announcement of a multi-winner tender floods the network: every router passes on the first
copy it gets, to all its peers but the one the copy came from, and nothing else. A copy that has
one hop left is not passed on. So when every message arrives, the neighbours of every router that
took the announcement with more than one hop left have it too, and whether a node is reached
depends on the way the first copies took, not on its distance from the originator.

`flood_coverage` says this of every flood in a quiet network whose messages all arrive, in whatever
order they do. In the counterexample a router gets its first copy by the longer way, with one hop
left, and the node behind it is not reached.
-/

namespace Metax

namespace Network

open Router

variable {N : Type}

/-- The links of a network as a graph. -/
def Topology.graph (G : Topology N) : SimpleGraph N where
  Adj n m := m ∈ G.neighbours n
  symm := ⟨fun _ _ => G.symm⟩
  loopless := ⟨G.irrefl⟩

/-- The kernel of a node was told about the announcement `d`, `q`. -/
def Told (d : RouterData) (q : Payload) (net : Net N) (n : N) : Prop :=
  ∃ rid, (n, toldOf d q rid) ∈ net.told

/-- A network in which no message is in flight and no router knows the tender `i`. The record of
what the kernels are told starts here. -/
structure Quiet (i : UUID) (net : Net N) : Prop where
  nodes : ∀ n, ∃ s, net.nodes n = some s ∧ s.tenders.lookup i = none ∧
    s.routerData.winnersId = [] ∧ s.Pointed
  flights : net.flights = []
  told : net.told = []

/-- A message arrives, and none is lost. -/
def IsDelivery : NetEvent N → Prop
  | .deliver _ _ _ => True
  | _ => False

/-- The nodes that have the announcement: the originator and those whose kernels were told. -/
def Aware (o : N) (d : RouterData) (q : Payload) (net : Net N) (n : N) : Prop :=
  n = o ∨ Told d q net n

/-- A copy of the announcement, sent by a node that has it. The hops it has left and those it has
made are the hop limit `h`. -/
structure Flight.IsCopy (G : Topology N) (o : N) (d : RouterData) (q : Payload) (h : UInt16)
    (net : Net N) (f : Flight N) : Prop where
  message : ∃ x, f.message = { d with hopId := x }.serialize q ∧
    x + UInt16.ofNat f.trail.length = h
  edge : f.dst ∈ G.neighbours f.src
  aware : Aware o d q net f.src

/-- What is known while the announcement floods the network. -/
structure Flooding (G : Topology N) (o : N) (d : RouterData) (q : Payload) (h : UInt16)
    (net : Net N) : Prop where
  flights : ∀ f ∈ net.flights, f.IsCopy G o d q h net
  unaware : ∀ n, ¬ Aware o d q net n → ∃ s, net.nodes n = some s ∧
    s.tenders.lookup d.tenderId = none ∧ s.routerData.winnersId = []
  aware : ∀ n, Aware o d q net n → ∀ s ∈ net.nodes n, (s.tenders.lookup d.tenderId).isSome
  pointed : ∀ n, ∀ s ∈ net.nodes n, s.Pointed
  first : ∀ n, n ≠ o → Aware o d q net n →
    (net.copies n d.tenderId).hop + UInt16.ofNat (net.copies n d.tenderId).trail.length = h
  passed : ∀ n, Aware o d q net n → n = o ∨ (net.copies n d.tenderId).hop ≠ 1 →
    ∀ m ∈ G.neighbours n, Aware o d q net m ∨ ∃ f ∈ net.flights, f.dst = m

section

variable {G : Topology N} {o : N} {d : RouterData} {q : Payload} {h : UInt16} {net : Net N}
  {v : N} {ps : List KernelPackage}

theorem told_append {nodes : N → Option State} {flights : List (Flight N)}
    {copies : N → UUID → Copy N} {n : N} :
    Aware o d q ⟨nodes, flights, copies, net.told ++ ps.map fun p => (v, p)⟩ n ↔
      Aware o d q net n ∨ n = v ∧ ∃ rid, toldOf d q rid ∈ ps := by
  simp only [Aware, Told, List.mem_append, List.mem_map, Prod.mk.injEq, or_assoc]
  refine or_congr_right ?_
  constructor
  · rintro ⟨rid, hold | ⟨p, hp, rfl, rfl⟩⟩
    · exact .inl ⟨rid, hold⟩
    · exact .inr ⟨rfl, rid, hp⟩
  · rintro (⟨rid, hold⟩ | ⟨rfl, rid, hp⟩)
    · exact ⟨rid, .inl hold⟩
    · exact ⟨rid, .inr ⟨_, hp, rfl, rfl⟩⟩

/-- A copy that is passed on has made one hop more and has one hop less left. -/
theorem hops_passed {x : UInt16} {l : ℕ} (hx : x + UInt16.ofNat l = h) :
    x - 1 + UInt16.ofNat (l + 1) = h := by
  rw [UInt16.ofNat_add, ← hx]
  grind

/-- A message that finds no router is gone. -/
theorem Flooding.erase (hnet : Flooding G o d q h net) {k : ℕ}
    (hgone : ∀ f, net.flights[k]? = some f → Aware o d q net f.dst) :
    Flooding G o d q h { net with flights := net.flights.eraseIdx k } := by
  refine ⟨fun f hf => ?_, hnet.unaware, hnet.aware, hnet.pointed, hnet.first, ?_⟩
  · have hcopy := hnet.flights f (List.mem_of_mem_eraseIdx hf)
    exact ⟨hcopy.message, hcopy.edge, hcopy.aware⟩
  · intro n hn hhop m hm
    rcases hnet.passed n hn hhop m hm with hm' | ⟨f, hf, rfl⟩
    · exact .inl hm'
    · obtain ⟨j, hj⟩ := List.mem_iff_getElem?.mp hf
      by_cases hjk : j = k
      · exact .inl (hgone f (hjk ▸ hj))
      · exact .inr ⟨f, List.mem_eraseIdx_iff_getElem?.mpr ⟨j, hjk, hj⟩, rfl⟩

variable [DecidableEq N]

/-- **Step lemma**: the node `v` has taken the `k`-th message. What it sends are copies, and if it
had nothing before it passed the message on unless that had one hop left. -/
theorem Flooding.taken (hnet : Flooding G o d q h net) {k : ℕ} {f : Flight N}
    (hf : net.flights[k]? = some f) {s' : Option State} {sent : List (Flight N)}
    {copies : N → UUID → Copy N}
    (hv : Aware o d q net f.dst ∨ ∃ rid, toldOf d q rid ∈ ps)
    (hs' : ∀ s ∈ s', s.Pointed ∧ (s.tenders.lookup d.tenderId).isSome)
    (hsent : ∀ f' ∈ sent, f'.src = f.dst ∧ f'.dst ∈ G.neighbours f.dst ∧
      ∃ x, f'.message = { d with hopId := x }.serialize q ∧ x + UInt16.ofNat f'.trail.length = h)
    (hother : ∀ n, n ≠ f.dst ∨ Aware o d q net n → copies n d.tenderId = net.copies n d.tenderId)
    (hfirst : f.dst ≠ o → (copies f.dst d.tenderId).hop +
      UInt16.ofNat (copies f.dst d.tenderId).trail.length = h)
    (hpassed : ¬ Aware o d q net f.dst → (copies f.dst d.tenderId).hop ≠ 1 →
      ∀ m ∈ G.neighbours f.dst, Aware o d q net m ∨ ∃ f ∈ sent, f.dst = m) :
    Flooding G o d q h ⟨Function.update net.nodes f.dst s', net.flights.eraseIdx k ++ sent, copies,
      net.told ++ ps.map fun p => (f.dst, p)⟩ := by
  have haware : ∀ n, Aware o d q ⟨Function.update net.nodes f.dst s',
      net.flights.eraseIdx k ++ sent, copies, net.told ++ ps.map fun p => (f.dst, p)⟩ n ↔
        Aware o d q net n ∨ n = f.dst := by
    intro n
    rw [told_append]
    constructor
    · rintro (hold | ⟨rfl, -⟩)
      · exact .inl hold
      · exact .inr rfl
    · rintro (hold | rfl)
      · exact .inl hold
      · exact hv.imp_right fun hps => ⟨rfl, hps⟩
  refine ⟨?_, ?_, ?_, ?_, ?_, ?_⟩
  · intro f' hf'
    rcases List.mem_append.mp hf' with hf' | hf'
    · have hcopy := hnet.flights f' (List.mem_of_mem_eraseIdx hf')
      exact ⟨hcopy.message, hcopy.edge, (haware _).mpr (.inl hcopy.aware)⟩
    · obtain ⟨hsrc, hedge, hmessage⟩ := hsent f' hf'
      exact ⟨hmessage, hsrc ▸ hedge, (haware _).mpr (.inr hsrc)⟩
  · intro n hn
    rw [haware, not_or] at hn
    dsimp only
    rw [Function.update_of_ne hn.2]
    exact hnet.unaware n hn.1
  · intro n hn s hs
    dsimp only at hs
    by_cases hnv : n = f.dst
    · subst hnv
      rw [Function.update_self] at hs
      exact (hs' s hs).2
    · rw [Function.update_of_ne hnv] at hs
      exact hnet.aware n (((haware n).mp hn).resolve_right hnv) s hs
  · intro n s hs
    dsimp only at hs
    by_cases hnv : n = f.dst
    · subst hnv
      rw [Function.update_self] at hs
      exact (hs' s hs).1
    · rw [Function.update_of_ne hnv] at hs
      exact hnet.pointed n s hs
  · intro n hno hn
    dsimp only
    by_cases hnv : n = f.dst
    · subst hnv
      exact hfirst hno
    · rw [hother n (.inl hnv)]
      exact hnet.first n hno (((haware n).mp hn).resolve_right hnv)
  · intro n hn hhop m hm
    dsimp only at hhop ⊢
    -- the message that was taken is no longer on its way, but its destination has it now
    have hleft : ∀ f' ∈ net.flights, f'.dst ≠ f.dst → f' ∈ net.flights.eraseIdx k := by
      intro f' hf' hne
      obtain ⟨j, hj⟩ := List.mem_iff_getElem?.mp hf'
      refine List.mem_eraseIdx_iff_getElem?.mpr ⟨j, ?_, hj⟩
      rintro rfl
      exact hne (congrArg Flight.dst (Option.some.inj (hj.symm.trans hf)))
    by_cases hmv : m = f.dst
    · exact .inl ((haware m).mpr (.inr hmv))
    · by_cases hold : Aware o d q net n
      · rw [hother n (.inr hold)] at hhop
        rcases hnet.passed n hold hhop m hm with hm' | ⟨f', hf', rfl⟩
        · exact .inl ((haware m).mpr (.inl hm'))
        · exact .inr ⟨f', List.mem_append_left _ (hleft f' hf' hmv), rfl⟩
      · obtain rfl := ((haware n).mp hn).resolve_left hold
        have hhop' := hhop.resolve_left fun ho => hold (.inl ho)
        rcases hpassed hold hhop' m hm with hm' | ⟨f', hf', rfl⟩
        · exact .inl ((haware m).mpr (.inl hm'))
        · exact .inr ⟨f', List.mem_append_right _ hf', rfl⟩

/-- The handling of a copy `f` with hop id `x` by a router in state `s`. -/
def handlingOf (G : Topology N) (d : RouterData) (q : Payload) (f : Flight N) (x : UInt16)
    (s : State)
    (beyond : Bytes) (fresh : RandomUUID) : Handling N :=
  ⟨f.dst, s, .link (copyFrom { d with hopId := x } q (G.peer f.dst f.src) beyond) fresh,
    some ⟨f.toOrigin, x⟩⟩

omit [DecidableEq N] in
/-- What a router sends because of a copy is a copy with one hop less. -/
theorem sent_handlingOf {f f' : Flight N} {x : UInt16} {s : State} {beyond : Bytes}
    {fresh : RandomUUID} {ls : List LinkPackage} (hx : x + UInt16.ofNat f.trail.length = h)
    (hls : ∀ l ∈ ls, l.message = { d with hopId := x - 1 }.serialize q)
    (hf' : f' ∈ ls.flatMap fun l => G.dispatch f.dst
      ((handlingOf G d q f x s beyond fresh).origin l) l) :
    f'.src = f.dst ∧ f'.dst ∈ G.neighbours f.dst ∧
      ∃ y, f'.message = { d with hopId := y }.serialize q ∧
        y + UInt16.ofNat f'.trail.length = h := by
  obtain ⟨l, hl, hf'⟩ := List.mem_flatMap.mp hf'
  obtain ⟨m, hm, rfl⟩ := List.mem_map.mp hf'
  exact ⟨rfl, receivers_subset hm, x - 1, hls l hl, hops_passed hx⟩

/-- The copy is remembered if it is the first. -/
theorem copies_handlingOf (hd : Heading d) {f : Flight N} {x : UInt16} {s : State} {beyond : Bytes}
    {fresh : RandomUUID} {c : N → UUID → Copy N} {n : N} :
    (handlingOf G d q f x s beyond fresh).copies c n d.tenderId =
      if n = f.dst ∧ s.tenders.lookup d.tenderId = none then ⟨f.toOrigin, x⟩
      else c n d.tenderId := by
  have hkey : (s.message (handlingOf G d q f x s beyond fresh).event).tenderId = d.tenderId :=
    (hd.hopId x).message
  have hopens : (handlingOf G d q f x s beyond fresh).opens =
      if s.tenders.lookup d.tenderId = none then some d.tenderId else none := by
    rw [Handling.opens, show (handlingOf G d q f x s beyond fresh).state = s from rfl, hkey]
    exact if_congr (and_iff_right (isReceived_link rfl rfl)) rfl rfl
  rw [copies_apply, hopens]
  refine if_congr (and_congr_right fun _ => ?_) rfl rfl
  split_ifs with hnew
  · exact iff_of_true rfl hnew
  · exact iff_of_false not_false hnew

section

variable (hd : Heading d) (hnet : Flooding G o d q h net) {k : ℕ} {f : Flight N}
  (hf : net.flights[k]? = some f) {s : State} (hs : net.nodes f.dst = some s) {x : UInt16}
  (hx : x + UInt16.ofNat f.trail.length = h) (beyond : Bytes) (fresh : RandomUUID)

include hd hnet hf hs hx

/-- A node that has the announcement takes a copy of it. -/
theorem Flooding.known (hv : Aware o d q net f.dst) : Flooding G o d q h
    ((handlingOf G d q f x s beyond fresh).react G
      { net with flights := net.flights.eraseIdx k }) := by
  have hd' : Heading { d with hopId := x } := hd.hopId x
  have hstored := hnet.aware f.dst hv s hs
  have hpointed := hnet.pointed f.dst s hs
  have hcopies : ∀ c n, (handlingOf G d q f x s beyond fresh).copies c n d.tenderId =
      c n d.tenderId := by
    intro c n
    rw [copies_handlingOf hd, if_neg]
    rintro ⟨-, hnew⟩
    rw [hnew] at hstored
    cases hstored
  rw [Handling.react]
  cases hstep : Router.step (handlingOf G d q f x s beyond fresh).state
      (handlingOf G d q f x s beyond fresh).event with
  | none =>
    have htaken : Flooding G o d q h ⟨Function.update net.nodes f.dst none,
        net.flights.eraseIdx k ++ [], net.copies, net.told ++ [].map fun p => (f.dst, p)⟩ :=
      hnet.taken hf (.inl hv) (fun s hs => absurd hs (Option.not_mem_none s))
        (fun f' hf' => absurd hf' List.not_mem_nil)
        (fun _ _ => rfl) (fun hne => hnet.first f.dst hne hv) fun hnv => absurd hv hnv
    simp only [List.append_nil, List.map_nil] at htaken
    exact htaken
  | some s' =>
    have hstep' : Router.step s
        (.link (copyFrom { d with hopId := x } q (G.peer f.dst f.src) beyond)
        fresh) = some s' := hstep
    have hstored' := stored_known hd' hstored hstep'
    have hsent : ∀ l ∈ links s'.out, l.message = { d with hopId := x - 1 }.serialize q :=
      fun l hl => (sent_known hd' hpointed hstored hstep' (mem_links.mp hl)).2
    refine hnet.taken hf (.inl hv) ?_ ?_ (fun n _ => hcopies _ n) ?_ fun hnv => absurd hv hnv
    · rintro s'' ⟨⟩
      exact ⟨pointed_step hpointed hstep', hstored'⟩
    · exact fun f' hf' => sent_handlingOf hx hsent hf'
    · intro hne
      rw [hcopies]
      exact hnet.first f.dst hne hv

omit hf hx [DecidableEq N] in
/-- What a router does with its first copy. -/
theorem Flooding.step_opened (hv : ¬ Aware o d q net f.dst) : ∃ s',
    Router.step (handlingOf G d q f x s beyond fresh).state
      (handlingOf G d q f x s beyond fresh).event = some s' ∧
    s.tenders.lookup d.tenderId = none ∧ (s'.tenders.lookup d.tenderId).isSome ∧
    toldOf d q s.requestCounter ∈ kernels s'.out ∧ links s'.out =
      if x = 1 then [] else [passedOn { d with hopId := x } q (G.peer f.dst f.src)] := by
  obtain ⟨s₀, hs₀, hnew, hwinners⟩ := hnet.unaware f.dst hv
  obtain rfl : s = s₀ := Option.some.inj (hs.symm.trans hs₀)
  obtain ⟨s', hstep, hstored, -, hout⟩ := step_first (q := q) (hd.hopId x) hwinners hnew
  refine ⟨s', hstep, hnew, hstored, ?_, ?_⟩
  · rw [hout]
    exact List.mem_cons_self
  · rw [hout]
    by_cases hone : x = 1
    · rw [if_pos hone, if_pos hone]
      rfl
    · rw [if_neg hone, if_neg hone]
      rfl

/-- A node takes its first copy. -/
theorem Flooding.opened (hv : ¬ Aware o d q net f.dst) : Flooding G o d q h
    ((handlingOf G d q f x s beyond fresh).react G
      { net with flights := net.flights.eraseIdx k }) := by
  have hcopy := hnet.flights f (List.mem_of_getElem? hf)
  obtain ⟨s', hstep, hnew, hstored, hkernels, hlinks⟩ :=
    hnet.step_opened hd hs (x := x) beyond fresh hv
  have hsent : ∀ l ∈ links s'.out, l.message = { d with hopId := x - 1 }.serialize q := by
    intro l hl
    rw [hlinks] at hl
    split_ifs at hl with hone
    · cases hl
    · rw [List.mem_singleton.mp hl]
      rfl
  have hfirst : (handlingOf G d q f x s beyond fresh).copies net.copies f.dst d.tenderId =
      ⟨f.toOrigin, x⟩ := by
    rw [copies_handlingOf hd]
    exact if_pos ⟨rfl, hnew⟩
  rw [Handling.react, hstep]
  refine hnet.taken hf (.inr ⟨_, hkernels⟩) ?_ ?_ ?_ ?_ ?_
  · rintro s'' ⟨⟩
    exact ⟨pointed_step (hnet.pointed f.dst s hs) hstep, hstored⟩
  · exact fun f' hf' => sent_handlingOf hx hsent hf'
  · intro n hn
    dsimp only
    rw [copies_handlingOf hd, if_neg]
    rintro ⟨rfl, -⟩
    exact hn.elim (fun hne => hne rfl) hv
  · intro _
    dsimp only
    rw [hfirst]
    exact hx
  · -- the copy goes to all neighbours but the one it came from, which has the announcement
    intro _ hone m hm
    dsimp only at hone
    rw [hfirst] at hone
    by_cases hsrc : m = f.src
    · exact .inl (hsrc ▸ hcopy.aware)
    · refine .inr ⟨⟨(handlingOf G d q f x s beyond fresh).origin _, f.dst, m, _⟩,
        List.mem_flatMap.mpr ⟨passedOn { d with hopId := x } q (G.peer f.dst f.src), ?_,
          List.mem_map.mpr ⟨m, ?_, rfl⟩⟩, rfl⟩
      · rw [hlinks, if_neg hone]
        exact List.mem_singleton_self _
      · refine List.mem_filter.mpr ⟨hm, decide_eq_true fun hpeer => hsrc ?_⟩
        exact G.inj hm (G.symm hcopy.edge) (Finset.mem_singleton.mp hpeer)

end

/-- A router is given a copy. -/
theorem Flooding.next_deliver (hd : Heading d) (hnet : Flooding G o d q h net) {k : ℕ}
    {f : Flight N}
    (hf : net.flights[k]? = some f) {s : State} (hs : net.nodes f.dst = some s) (beyond : Bytes)
    (fresh : RandomUUID) : ∃ x, x + UInt16.ofNat f.trail.length = h ∧ hopOf f.message = x ∧
      next G net (.deliver k beyond fresh) = (handlingOf G d q f x s beyond fresh).react G
        { net with flights := net.flights.eraseIdx k } := by
  obtain ⟨x, hmessage, hx⟩ := (hnet.flights f (List.mem_of_getElem? hf)).message
  have hhop : hopOf f.message = x := by rw [hmessage, hopOf_serialize (hd.hopId x).winners]
  have hhandling : (⟨f.dst, s, G.arrival f beyond fresh, some ⟨f.toOrigin, hopOf f.message⟩⟩ :
      Handling N) = handlingOf G d q f x s beyond fresh := by
    rw [hhop, Topology.arrival, hmessage]
    rfl
  refine ⟨x, hx, hhop, ?_⟩
  rw [next, handling, hf, Option.bind_some, hs, Option.map_some, hhandling]
  rfl

/-- **Step lemma**: a message arrives. -/
theorem Flooding.deliver (hd : Heading d) (hnet : Flooding G o d q h net) (k : ℕ) (beyond : Bytes)
    (fresh : RandomUUID) : Flooding G o d q h (next G net (.deliver k beyond fresh)) := by
  cases hf : net.flights[k]? with
  | none =>
    rw [next, handling, hf]
    refine hnet.erase fun f hf' => ?_
    rw [hf] at hf'
    cases hf'
  | some f =>
    cases hs : net.nodes f.dst with
    | none =>
      rw [next, handling, hf, Option.bind_some, hs]
      refine hnet.erase fun f' hf' => ?_
      obtain rfl := Option.some.inj (hf.symm.trans hf')
      by_contra hv
      obtain ⟨s, hs', -⟩ := hnet.unaware _ hv
      rw [hs] at hs'
      cases hs'
    | some s =>
      obtain ⟨x, hx, -, hnext⟩ := hnet.next_deliver hd hf hs beyond fresh
      rw [hnext]
      by_cases hv : Aware o d q net f.dst
      · exact hnet.known hd hf hs hx beyond fresh hv
      · exact hnet.opened hd hf hs hx beyond fresh hv

section

variable {e : Router.Event} {inp : KernelPackage} {fresh : RandomUUID} {s : State}
  (hquiet : Quiet fresh.1 net) (hs : net.nodes o = some s) (hconf : s.isConfigured)
  (he : e.Floods inp fresh) (hlives : (Router.step s e).isSome)

include hquiet hs hconf he hlives

/-- The network after the announcement: a copy is on its way to every neighbour. -/
theorem Quiet.next_announced : ∃ s', Router.step s e = some s' ∧
    (s'.tenders.lookup fresh.1).isSome ∧ next G net (.input o e) =
      ⟨Function.update net.nodes o (some s'), (G.neighbours o).map fun m =>
        ⟨⟨[o], s.maxHops.toNat⟩, o, m, { announcedHeader inp fresh with
          hopId := s.maxHops - 1 }.serialize inp.payload⟩, net.copies, []⟩ := by
  obtain ⟨s', hstep⟩ := Option.isSome_iff_exists.mp hlives
  have hsent := step_floods he hconf hstep
  obtain ⟨l, hout, hcmd, hmessage⟩ := hsent.out
  have hlinks : links s'.out = [l] := by
    rw [hout]
    rfl
  have hkernels : kernels s'.out = [] := by
    rw [hout]
    rfl
  have hevent : isReceived e = false ∧ e.refused = none := by
    have hown : e.IsOwn := by
      obtain ⟨hvalid, -⟩ := valid_of_multi he.multi
      exact refused_of_announced (he.imp And.left And.left) hvalid
    refine ⟨?_, hown.2⟩
    rcases he with ⟨rfl, -⟩ | ⟨rfl, -⟩
    · rfl
    · rfl
  have hhandling : handling G net (.input o e) = some ⟨o, s, e, none⟩ := by
    rw [handling, hevent.1, if_neg (by decide), hs, hevent.2]
    rfl
  have hcopies : (⟨o, s, e, none⟩ : Handling N).copies net.copies = net.copies := by
    rw [Handling.copies]
    cases (⟨o, s, e, none⟩ : Handling N).opens <;> rfl
  refine ⟨s', hstep, hsent.stored, ?_⟩
  rw [next, hhandling]
  dsimp only
  rw [Handling.react, hstep]
  dsimp only
  rw [hlinks, hkernels, hcopies, remaining, hquiet.flights, hquiet.told, List.flatMap_singleton,
    List.nil_append, Topology.dispatch, Topology.receivers, hcmd]
  simp only [Handling.origin, hcmd, if_true, hmessage]
  rfl

/-- The announcement starts the flood. -/
theorem Quiet.announced :
    Flooding G o (announcedHeader inp fresh) inp.payload s.maxHops (next G net (.input o e)) := by
  obtain ⟨s', hstep, hstored, hnext⟩ := hquiet.next_announced (G := G) hs hconf he hlives
  rw [hnext]
  refine ⟨?_, ?_, ?_, ?_, ?_, ?_⟩
  · intro f hf
    obtain ⟨m, hm, rfl⟩ := List.mem_map.mp hf
    refine ⟨⟨s.maxHops - 1, rfl, ?_⟩, hm, .inl rfl⟩
    simp
  · intro n hn
    obtain ⟨s₀, hs₀, hnew, hwinners, -⟩ := hquiet.nodes n
    refine ⟨s₀, ?_, hnew, hwinners⟩
    dsimp only
    rw [Function.update_of_ne fun h => hn (.inl h)]
    exact hs₀
  · rintro n (rfl | ⟨rid, hrid⟩) s₀ hs₀
    · dsimp only at hs₀
      rw [Function.update_self] at hs₀
      obtain rfl := Option.some.inj hs₀
      exact hstored
    · cases hrid
  · intro n s₀ hs₀
    obtain ⟨s₁, hs₁, -, -, hpointed⟩ := hquiet.nodes n
    dsimp only at hs₀
    by_cases hn : n = o
    · subst hn
      rw [Function.update_self] at hs₀
      obtain rfl := Option.some.inj hs₀
      obtain rfl := Option.some.inj (hs.symm.trans hs₁)
      exact pointed_step hpointed hstep
    · rw [Function.update_of_ne hn] at hs₀
      obtain rfl := Option.some.inj (hs₁.symm.trans hs₀)
      exact hpointed
  · rintro n hno (hn | ⟨rid, hrid⟩)
    · exact absurd hn hno
    · cases hrid
  · rintro n (rfl | ⟨rid, hrid⟩) - m hm
    · exact .inr ⟨_, List.mem_map.mpr ⟨m, hm, rfl⟩, rfl⟩
    · cases hrid

end

/-- While the messages arrive, the flood goes on. -/
theorem Flooding.run (hd : Heading d) {ds : List (NetEvent N)} (hds : ∀ e ∈ ds, IsDelivery e)
    {net' : Net N} (hnet : Flooding G o d q h net) (hrun : Run.run (step G) net ds = some net') :
    Flooding G o d q h net' := by
  have hok : Run.Along (step G) (fun _ e => IsDelivery e) net ds := Run.along_of_forall hds
  refine Run.invariant_of_run (Flooding G o d q h) ?_ hnet hok hrun
  intro net e net' hnet he hnext
  rw [← Option.some.inj hnext]
  cases e with
  | deliver k beyond fresh => exact hnet.deliver hd k beyond fresh
  | lose k => exact he.elim
  | input n e => exact he.elim

omit [DecidableEq N] in
/-- When nothing is in flight any more, the neighbours of a node that passed the announcement on
have it. -/
theorem Flooding.settled (hnet : Flooding G o d q h net) (hdone : net.flights = []) {n m : N}
    (hn : Aware o d q net n) (hhop : n = o ∨ (net.copies n d.tenderId).hop ≠ 1)
    (hm : m ∈ G.neighbours n) : Aware o d q net m := by
  refine (hnet.passed n hn hhop m hm).resolve_right ?_
  rintro ⟨f, hf, -⟩
  rw [hdone] at hf
  cases hf

omit [DecidableEq N] in
/-- A copy that has gone over fewer edges than the limit allows has hops left. -/
theorem hop_ne_one {x : UInt16} {l : ℕ} (hx : x + UInt16.ofNat l = h) (hl : l + 1 < h.toNat) :
    x ≠ 1 := by
  rintro rfl
  have hsum := congrArg UInt16.toNat hx
  have hlimit := h.toNat_lt
  rw [UInt16.toNat_add, UInt16.toNat_ofNat'] at hsum
  simp only [UInt16.toNat_one] at hsum
  omega

omit [DecidableEq N] in
/-- Along a path of nodes that passed the announcement on, everybody has it. -/
theorem Flooding.reaches (hnet : Flooding G o d q h net) (hdone : net.flights = []) {u v : N}
    (p : G.graph.Walk u v) (hu : Aware o d q net u)
    (hbudget : ∀ w ∈ p.support, w ≠ o → w ≠ v →
      (net.copies w d.tenderId).trail.length + 1 < h.toNat) : Aware o d q net v := by
  induction p with
  | nil => exact hu
  | @cons u w v hadj p ih =>
    by_cases huv : u = v
    · exact huv ▸ hu
    · have hhop : u = o ∨ (net.copies u d.tenderId).hop ≠ 1 := by
        by_cases ho : u = o
        · exact .inl ho
        · exact .inr (hop_ne_one (hnet.first u ho hu)
            (hbudget u p.support.mem_cons_self ho huv))
      exact ih (hnet.settled hdone hu hhop hadj)
        fun w hw => hbudget w (List.mem_cons_of_mem _ hw)

end

/-- A flood: the node `o` makes an announcement in the quiet network `net₀`, and the network is
`net` when every message has arrived. -/
structure Flood [DecidableEq N] (G : Topology N) (net₀ : Net N) (o : N) (s : State)
    (e : Router.Event)
    (inp : KernelPackage) (fresh : RandomUUID) (ds : List (NetEvent N)) (net : Net N) : Prop where
  quiet : Quiet fresh.1 net₀
  node : net₀.nodes o = some s
  configured : s.isConfigured
  floods : e.Floods inp fresh
  lives : (Router.step s e).isSome
  deliveries : ∀ e ∈ ds, IsDelivery e
  run : Run.run (step G) net₀ (.input o e :: ds) = some net
  done : net.flights = []

/-- **Flood coverage.** When a multi-winner announcement is made in a quiet network and every
message arrives, in whatever order, it is given to the kernel of every node that a path joins to
the originator all of whose inner nodes got their first copy over fewer than `h - 1` edges, where
`h` is the hop limit of the originator. -/
theorem flood_coverage [DecidableEq N] (G : Topology N) {net₀ net : Net N} {o v : N} {s : State}
    {e : Router.Event} {inp : KernelPackage} {fresh : RandomUUID} {ds : List (NetEvent N)}
    (hflood : Flood G net₀ o s e inp fresh ds net) (p : G.graph.Walk o v) (hv : v ≠ o)
    (hbudget : ∀ w ∈ p.support, w ≠ o → w ≠ v →
      (net.copies w fresh.1).trail.length + 1 < s.maxHops.toNat) :
    Told (announcedHeader inp fresh) inp.payload net v := by
  have hstart := hflood.quiet.announced (G := G) hflood.node hflood.configured hflood.floods
    hflood.lives
  have hnet := hstart.run hflood.floods.heading hflood.deliveries hflood.run
  exact (hnet.reaches hflood.done p (.inl rfl) hbudget).resolve_left hv

/-! ### A race

Three nodes in a ring and a fourth behind one of them, with the hop limit `3`. When the announcement
is faster over two edges of the ring than over one, the fourth node does not get it, although it is
two edges away. -/

section

variable {G : Topology N} {o : N} {d : RouterData} {q : Payload} {h : UInt16} {net : Net N}
  [DecidableEq N] {k : ℕ} {f : Flight N} {beyond : Bytes} {fresh : RandomUUID}

theorem told_deliver {n : N} (hn : Told d q (next G net (.deliver k beyond fresh)) n) :
    Told d q net n ∨ ∃ f, net.flights[k]? = some f ∧ n = f.dst := by
  rw [next, handling] at hn
  cases hf : net.flights[k]? with
  | none =>
    rw [hf] at hn
    exact .inl hn
  | some f =>
    rw [hf, Option.bind_some] at hn
    cases hs : net.nodes f.dst with
    | none =>
      rw [hs] at hn
      exact .inl hn
    | some s =>
      rw [hs] at hn
      dsimp only [Option.map_some] at hn
      rw [Handling.react] at hn
      split at hn
      · exact .inl hn
      · obtain ⟨rid, hrid⟩ := hn
        rcases List.mem_append.mp hrid with hold | hnew
        · exact .inl ⟨rid, hold⟩
        · obtain ⟨p, -, hp⟩ := List.mem_map.mp hnew
          exact .inr ⟨f, rfl, (congrArg Prod.fst hp).symm⟩

/-- What is in flight when a node has taken its first copy. -/
theorem Flooding.flights_opened (hd : Heading d) (hnet : Flooding G o d q h net)
    (hf : net.flights[k]? = some f) {x : UInt16} (hx : hopOf f.message = x)
    (hv : ¬ Aware o d q net f.dst) :
    (next G net (.deliver k beyond fresh)).flights = net.flights.eraseIdx k ++
      if x = 1 then []
      else ((G.neighbours f.dst).filter (· ≠ f.src)).map fun m => ⟨⟨f.dst :: f.trail, f.limit⟩,
        f.dst, m, { d with hopId := x - 1 }.serialize q⟩ := by
  obtain ⟨s, hs, -⟩ := hnet.unaware f.dst hv
  obtain ⟨y, -, hhop, hnext⟩ := hnet.next_deliver hd hf hs beyond fresh
  obtain rfl : x = y := hx.symm.trans hhop
  obtain ⟨s', hstep, -, -, -, hlinks⟩ := hnet.step_opened hd hs (x := x) beyond fresh hv
  have hcopy := hnet.flights f (List.mem_of_getElem? hf)
  have hreceivers : (G.neighbours f.dst).filter (fun m => G.peer f.dst m ∉ ({G.peer f.dst f.src} :
      Finset ID32)) = (G.neighbours f.dst).filter (· ≠ f.src) := by
    refine List.filter_congr fun m hm => ?_
    rw [decide_eq_decide, Finset.mem_singleton, not_iff_not]
    exact ⟨G.inj hm (G.symm hcopy.edge), fun h => h ▸ rfl⟩
  rw [hnext, Handling.react, hstep]
  dsimp only
  rw [hlinks]
  split_ifs
  · rfl
  · rw [List.flatMap_singleton, ← hreceivers]
    rfl

/-- The kernel of the node was told. -/
theorem Flooding.told_opened (hd : Heading d) (hnet : Flooding G o d q h net)
    (hf : net.flights[k]? = some f) (hv : ¬ Aware o d q net f.dst) :
    Told d q (next G net (.deliver k beyond fresh)) f.dst := by
  obtain ⟨s, hs, -⟩ := hnet.unaware f.dst hv
  obtain ⟨x, -, -, hnext⟩ := hnet.next_deliver hd hf hs beyond fresh
  obtain ⟨s', hstep, -, -, hkernels, -⟩ := hnet.step_opened hd hs (x := x) beyond fresh hv
  rw [hnext, Handling.react, hstep]
  exact ⟨_, List.mem_append_right _ (List.mem_map.mpr ⟨_, hkernels, rfl⟩)⟩

/-- The first copy is the one that is remembered. -/
theorem Flooding.copies_opened (hd : Heading d) (hnet : Flooding G o d q h net)
    (hf : net.flights[k]? = some f) (hv : ¬ Aware o d q net f.dst) :
    ((next G net (.deliver k beyond fresh)).copies f.dst d.tenderId).trail = f.trail := by
  obtain ⟨s, hs, -⟩ := hnet.unaware f.dst hv
  obtain ⟨x, -, -, hnext⟩ := hnet.next_deliver hd hf hs beyond fresh
  obtain ⟨s', hstep, hnew, -⟩ := hnet.step_opened hd hs (x := x) beyond fresh hv
  rw [hnext, Handling.react, hstep]
  dsimp only
  rw [copies_handlingOf hd, if_pos ⟨rfl, hnew⟩]

/-- A delivery to another node does not touch what a node remembers. -/
theorem copies_deliver {n : N} (hn : ∀ f, net.flights[k]? = some f → n ≠ f.dst) (i : UUID) :
    (next G net (.deliver k beyond fresh)).copies n i = net.copies n i := by
  rw [next, handling]
  cases hf : net.flights[k]? with
  | none => rfl
  | some f =>
    rw [Option.bind_some]
    cases hs : net.nodes f.dst with
    | none => rfl
    | some s =>
      dsimp only [Option.map_some]
      rw [Handling.react]
      split
      · rfl
      · dsimp only
        rw [copies_apply, if_neg fun h => hn f hf h.1]

/-- A copy of a save announcement is not passed on by a node that has it. -/
theorem Flooding.flights_known (hd : Heading d) (hdup : isKnownAnnouncement d.cmd = true)
    (hnet : Flooding G o d q h net) (hf : net.flights[k]? = some f)
    (hv : Aware o d q net f.dst) :
    (next G net (.deliver k beyond fresh)).flights = net.flights.eraseIdx k := by
  cases hs : net.nodes f.dst with
  | none =>
    rw [next, handling, hf, Option.bind_some, hs]
    rfl
  | some s =>
    obtain ⟨x, -, -, hnext⟩ := hnet.next_deliver hd hf hs beyond fresh
    rw [hnext, Handling.react]
    cases hstep : Router.step (handlingOf G d q f x s beyond fresh).state
        (handlingOf G d q f x s beyond fresh).event with
    | none => rfl
    | some s' =>
      have hstored := hnet.aware f.dst hv s hs
      have hsilent : links s'.out = [] := by
        refine List.eq_nil_iff_forall_not_mem.mpr fun l hl => ?_
        obtain ⟨hbypassed, -⟩ := sent_known (hd.hopId x) (hnet.pointed f.dst s hs) hstored hstep
          (mem_links.mp hl)
        exact absurd (hdup.symm.trans hbypassed) (by decide)
      dsimp only
      rw [hsilent]
      exact List.append_nil _

end

/-- The ring `0`, `1`, `2` and the node `3` behind `2`. -/
def ring : Topology (Fin 4) where
  neighbours n := [[1, 2], [0, 2], [0, 1, 3], [2]].getD n []
  peer _ m := m
  symm := by decide
  irrefl := by decide
  inj _ _ h := Fin.ext h

/-- A configured router that has done nothing. -/
def idle : State := { init with isConfigured := true }

/-- A network of such routers. -/
def idleNet : Net N := { initial with nodes := fun _ => some idle }

/-- The kernel of the originator saves an object. -/
def saveRequest : KernelPackage :=
  { KernelPackage.new with requestId := 1, cmd := .save, uuid := 5 }

/-- The tender of the request. -/
def saveTender : RandomUUID := ⟨9, uuid_nine_ne_zero⟩

/-- The request as an input. -/
def saveEvent : Router.Event := .kernel saveRequest saveTender

theorem quiet_idleNet : Quiet saveTender.1 (idleNet : Net N) where
  nodes _ := ⟨idle, rfl, rfl, rfl, pointed_init⟩
  flights := rfl
  told := rfl

theorem saveEvent_floods : saveEvent.Floods saveRequest saveTender := .inl ⟨rfl, rfl⟩

theorem saveEvent_lives : (Router.step idle saveEvent).isSome := by decide +kernel

/-- The copies come in over the longer way first. -/
def race : List (NetEvent (Fin 4)) :=
  [.deliver 0 [] saveTender, .deliver 1 [] saveTender, .deliver 0 [] saveTender]

/-- A copy of its announcement. -/
def saveCopy (x : UInt16) : Bytes :=
  { announcedHeader saveRequest saveTender with hopId := x }.serialize saveRequest.payload

theorem hopOf_saveCopy (x : UInt16) : hopOf (saveCopy x) = x := hopOf_serialize rfl

/-- The race from the announcement on: the copy that goes over node `1` is taken by node `2` before
the one that comes directly, and has one hop left. -/
theorem race_deliveries {net : Net (Fin 4)}
    (hnet : Flooding ring 0 (announcedHeader saveRequest saveTender) saveRequest.payload 3 net)
    (hflights : net.flights = [⟨⟨[0], 3⟩, 0, 1, saveCopy 2⟩, ⟨⟨[0], 3⟩, 0, 2, saveCopy 2⟩])
    (htold : net.told = []) :
    (race.foldl (next ring) net).flights = [] ∧
      ¬ Told (announcedHeader saveRequest saveTender) saveRequest.payload
        (race.foldl (next ring) net) 3 ∧
      ((race.foldl (next ring) net).copies 1 saveTender.1).trail = [0] := by
  have hd := saveEvent_floods.heading
  have hdup : isKnownAnnouncement (announcedHeader saveRequest saveTender).cmd = true := rfl
  have hfirst : net.flights[0]? = some ⟨⟨[0], 3⟩, 0, 1, saveCopy 2⟩ := by rw [hflights]; rfl
  simp only [race, List.foldl_cons, List.foldl_nil]
  have htold₁ : ∀ n, ¬ Told (announcedHeader saveRequest saveTender) saveRequest.payload net n := by
    rintro n ⟨rid, hrid⟩
    rw [htold] at hrid
    cases hrid
  -- node `1` takes its copy and passes it on
  have hnet₁ := hnet.deliver hd 0 [] saveTender
  have htrail₁ : ((next ring net (.deliver 0 [] saveTender)).copies 1 saveTender.1).trail = [0] :=
    hnet.copies_opened hd hfirst fun h => h.elim nofun (htold₁ 1)
  have hflights₁ : (next ring net (.deliver 0 [] saveTender)).flights =
      [⟨⟨[0], 3⟩, 0, 2, saveCopy 2⟩, ⟨⟨[1, 0], 3⟩, 1, 2, saveCopy 1⟩] := by
    rw [hnet.flights_opened hd hfirst (hopOf_saveCopy 2) fun h => h.elim nofun (htold₁ 1),
      hflights, if_neg (by decide)]
    rfl
  have htold₂ : ∀ n, Told (announcedHeader saveRequest saveTender) saveRequest.payload
      (next ring net (.deliver 0 [] saveTender)) n → n = 1 := by
    intro n hn
    obtain ⟨f, hf, rfl⟩ := (told_deliver hn).resolve_left (htold₁ n)
    rw [← Option.some.inj (hfirst.symm.trans hf)]
  generalize next ring net (.deliver 0 [] saveTender) = net₁ at *
  -- node `2` takes the copy that node `1` sent
  have hsecond : net₁.flights[1]? = some ⟨⟨[1, 0], 3⟩, 1, 2, saveCopy 1⟩ := by rw [hflights₁]; rfl
  have hnew : ¬ Aware 0 (announcedHeader saveRequest saveTender) saveRequest.payload net₁ 2 :=
    fun h => h.elim nofun fun h => absurd (htold₂ 2 h) (by decide)
  have hnet₂ := hnet₁.deliver hd 1 [] saveTender
  have htrail₂ : (next ring net₁ (.deliver 1 [] saveTender)).copies 1 saveTender.1 =
      net₁.copies 1 saveTender.1 :=
    copies_deliver (fun f hf => Option.some.inj (hsecond.symm.trans hf) ▸ by decide) saveTender.1
  have hflights₂ : (next ring net₁ (.deliver 1 [] saveTender)).flights =
      [⟨⟨[0], 3⟩, 0, 2, saveCopy 2⟩] := by
    rw [hnet₁.flights_opened hd hsecond (hopOf_saveCopy 1) hnew, hflights₁, if_pos rfl]
    rfl
  have htold₃ : ∀ n, Told (announcedHeader saveRequest saveTender) saveRequest.payload
      (next ring net₁ (.deliver 1 [] saveTender)) n → n = 1 ∨ n = 2 := by
    intro n hn
    rcases told_deliver hn with hold | ⟨f, hf, rfl⟩
    · exact .inl (htold₂ n hold)
    · rw [← Option.some.inj (hsecond.symm.trans hf)]
      exact .inr rfl
  have haware : Aware 0 (announcedHeader saveRequest saveTender) saveRequest.payload
      (next ring net₁ (.deliver 1 [] saveTender)) 2 := .inr (hnet₁.told_opened hd hsecond hnew)
  generalize next ring net₁ (.deliver 1 [] saveTender) = net₂ at *
  -- the copy of the originator is dropped there
  have hthird : net₂.flights[0]? = some ⟨⟨[0], 3⟩, 0, 2, saveCopy 2⟩ := by rw [hflights₂]; rfl
  refine ⟨?_, fun hn => ?_, ?_⟩
  · exact (hnet₂.flights_known hd hdup hthird haware).trans (by rw [hflights₂]; rfl)
  · rcases told_deliver hn with hold | ⟨f, hf, hn⟩
    · exact (htold₃ 3 hold).elim nofun nofun
    · rw [← Option.some.inj (hthird.symm.trans hf)] at hn
      cases hn
  · rw [copies_deliver (fun f hf => Option.some.inj (hthird.symm.trans hf) ▸ by decide), htrail₂]
    exact htrail₁

/-- In the end everything has arrived and the fourth node was told nothing. Node `1` has its copy
from the originator. -/
theorem race_run : ∃ net, Run.run (step ring) idleNet (.input 0 saveEvent :: race) = some net ∧
    net.flights = [] ∧
      ¬ Told (announcedHeader saveRequest saveTender) saveRequest.payload net 3 ∧
      (net.copies 1 saveTender.1).trail = [0] := by
  have hquiet : Quiet saveTender.1 (idleNet : Net (Fin 4)) := quiet_idleNet
  obtain ⟨s', -, -, hnext⟩ := hquiet.next_announced (G := ring) (o := 0) (s := idle) rfl rfl
    saveEvent_floods saveEvent_lives
  have hnet := hquiet.announced (G := ring) (o := 0) (s := idle) rfl rfl saveEvent_floods
    saveEvent_lives
  exact ⟨_, rfl, race_deliveries hnet (congrArg Net.flights hnext) (congrArg Net.told hnext)⟩

theorem race_flood : ∃ net, Flood ring idleNet 0 idle saveEvent saveRequest saveTender race net ∧
    ¬ Told (announcedHeader saveRequest saveTender) saveRequest.payload net 3 ∧
    (net.copies 1 saveTender.1).trail = [0] := by
  obtain ⟨net, hrun, hdone, hmissed⟩ := race_run
  have hdeliveries : ∀ e ∈ race, IsDelivery e := by
    intro e he
    simp only [race, List.mem_cons, List.not_mem_nil, or_false] at he
    rcases he with rfl | rfl | rfl <;> trivial
  exact ⟨net,
    ⟨quiet_idleNet, rfl, rfl, saveEvent_floods, saveEvent_lives, hdeliveries, hrun, hdone⟩,
    hmissed⟩

theorem ring_adj_zero_one : ring.graph.Adj 0 1 := show (1 : Fin 4) ∈ ring.neighbours 0 by decide

theorem ring_adj_one_two : ring.graph.Adj 1 2 := show (2 : Fin 4) ∈ ring.neighbours 1 by decide

theorem ring_adj_zero_two : ring.graph.Adj 0 2 := show (2 : Fin 4) ∈ ring.neighbours 0 by decide

theorem ring_adj_two_three : ring.graph.Adj 2 3 := show (3 : Fin 4) ∈ ring.neighbours 2 by decide

/-- In the race node `2` is reached over node `1`, which got its first copy directly. -/
theorem flood_coverage_race : ∃ net, Flood ring idleNet 0 idle saveEvent saveRequest saveTender race
    net ∧ Told (announcedHeader saveRequest saveTender) saveRequest.payload net 2 := by
  obtain ⟨net, hflood, -, htrail⟩ := race_flood
  refine ⟨net, hflood, flood_coverage ring hflood
    (.cons ring_adj_zero_one (.cons ring_adj_one_two .nil)) (by decide) ?_⟩
  intro w hw ho hv
  simp only [SimpleGraph.Walk.support_cons, SimpleGraph.Walk.support_nil, List.mem_cons,
    List.not_mem_nil, or_false] at hw
  obtain rfl : w = 1 := (hw.resolve_left ho).resolve_right hv
  rw [htrail]
  decide

/-- The set of nodes a flood reaches depends on the order in which the copies arrive. -/
theorem not_flood_coverage : ¬ ∀ (G : Topology (Fin 4)) (net₀ net : Net (Fin 4)) (o v : Fin 4)
    (s : State) (e : Router.Event) (inp : KernelPackage) (fresh : RandomUUID)
    (ds : List (NetEvent (Fin 4))), Flood G net₀ o s e inp fresh ds net → 2 ≤ s.maxHops.toNat →
    1 ≤ G.graph.dist o v → G.graph.dist o v ≤ s.maxHops.toNat - 1 →
      Told (announcedHeader inp fresh) inp.payload net v := by
  intro hcovers
  obtain ⟨net, hflood, hmissed, -⟩ := race_flood
  let p : ring.graph.Walk 0 3 := .cons ring_adj_zero_two (.cons ring_adj_two_three .nil)
  refine hmissed (hcovers ring idleNet net 0 3 idle saveEvent saveRequest saveTender race hflood
    (by decide) ?_ (ring.graph.dist_le p))
  exact SimpleGraph.Reachable.pos_dist_of_ne ⟨p⟩ (by decide)

end Network

end Metax
