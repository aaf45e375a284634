import Metax.Network.Data

/-!
# The hop budget

A message starts with the hop limit of its sender, less one, and each router that passes it on
takes one off. The hop id is an unsigned 16-bit field, and the routers look at it in one place
only: they do not pass a fresh announcement on when it is `1`. So a message with hop id `0` is
passed on with `65535`, and a refused announcement goes on with the hop id the tender has by then,
which may come from another message. When neither happens, hop ids fall from node to node and no
message travels further than the limit it was sent with.

`Budget` is the invariant of the messages in flight and of the tenders that were opened by them;
`hop_budget` reads from it how far a message has gone.
-/

namespace Metax

namespace Network

open Router

variable {N : Type}

/-! ### The condition -/

/-- Does the router pass the message `d` on, to all its other peers or back to those the tender
came from? -/
def PassedOn (T : Tables) (d : RouterData) : Prop :=
  isOwnSyncTender d.cmd = false ∧
    match T.tenders.lookup d.tenderId with
    | none => isFirstCommandOfMultiwinnerTender d.cmd ∧ d.hopId ≠ 1
    | some t => isKnownAnnouncement d.cmd = false ∧ d.cmd ≠ .syncFinished ∧
        t.isCanceled = false ∧ ¬ ForKernel d t

/-- The condition on a router: a message that is passed on has hops left, and a refused
announcement goes on with no more than the hop id it came with. -/
def Handling.HopsLeft (h : Handling N) : Prop :=
  (isReceived h.event → PassedOn h.state.toTables (h.state.message h.event) →
    ∀ c ∈ h.cause, c.hop ≠ 0) ∧
  ∀ k ∈ h.event.refused, ∀ i ∈ h.state.idTenders.lookup k, ∀ t ∈ h.state.tenders.lookup i,
    t.hopId ≠ 1 → t.hopId ≠ 0 ∧ ∀ c ∈ h.cause, t.hopId ≤ c.hop

/-- The condition on an event of a network. -/
def HopsLeft (G : Topology N) (net : Net N) (e : NetEvent N) : Prop :=
  ∀ h ∈ handling G net e, h.HopsLeft

/-! ### What it is a condition for -/

/-- Every message a router passes on has a smaller hop id than the message it was given. -/
def Handling.Falls (h : Handling N) : Prop :=
  ∀ s ∈ Router.step h.state h.event, ∀ c ∈ h.cause, ∀ l ∈ links s.out, hopOf l.message < c.hop

/-- The same for an event of a network. -/
def Falls (G : Topology N) (net : Net N) (e : NetEvent N) : Prop :=
  ∀ h ∈ handling G net e, h.Falls

/-- No message has gone over more edges than the limit it was sent with. -/
def WithinLimit (net : Net N) : Prop := ∀ f ∈ net.flights, f.trail.length ≤ f.limit

/-! ### The invariant -/

/-- The hops a message has left and those it has made are within its limit. -/
def Origin.Within (o : Origin N) (hop : UInt16) : Prop := hop.toNat + o.trail.length ≤ o.limit

/-- A message in flight was written by a router and is within its limit. -/
def Flight.Sound (f : Flight N) : Prop := ∃ d p, f.message = RouterData.serialize d p ∧
  d.winnersId = [] ∧ f.toOrigin.Within d.hopId

/-- What is known of every network whose steps meet the condition. -/
structure Budget (net : Net N) : Prop where
  flights : ∀ f ∈ net.flights, f.Sound
  pointed : ∀ n, ∀ s ∈ net.nodes n, s.Pointed
  maxHops : ∀ n, ∀ s ∈ net.nodes n, s.maxHops ≠ 0
  copies : ∀ n, ∀ s ∈ net.nodes n, ∀ i, ∀ t ∈ s.tenders.lookup i, t.typ = .remote →
    (net.copies n i).Within (net.copies n i).hop

/-- An input and the router that handles it, in such a network. -/
structure Handling.Sound (h : Handling N) : Prop where
  pointed : h.state.Pointed
  maxHops : h.state.maxHops ≠ 0
  own : h.event.IsOwn → h.cause = none
  received : ∀ inp fresh, h.event = .link inp fresh → inp.cmd = .receivedData → ∃ d p c,
    inp.package.message = RouterData.serialize d p ∧ d.winnersId = [] ∧ h.cause = some c ∧
      c.hop = d.hopId ∧ c.Within c.hop
  refused : ∀ k ∈ h.event.refused, ∀ i ∈ h.state.idTenders.lookup k,
    ∀ t ∈ h.state.tenders.lookup i, t.typ = .remote → ∃ c, h.cause = some c ∧ c.Within c.hop

section

variable {h : Handling N} {c : Copy N} {d : RouterData} {p : Payload} {l : LinkPackage}

/-- What goes out on the link, without what the kernel is told. -/
theorem mem_links {out : List Emission} : l ∈ links out ↔ .link l ∈ out := by
  simp only [links, List.mem_filterMap]
  constructor
  · rintro ⟨m, hm, hl⟩
    cases m with
    | link l' =>
      obtain rfl := Option.some.inj hl
      exact hm
    | kernel p => cases hl
    | notification cmd message => cases hl
  · exact fun hl => ⟨_, hl, rfl⟩

/-- The hop count can be read from what was written. -/
theorem hopOf_serialize (hwinners : d.winnersId = []) : hopOf (d.serialize p) = d.hopId := by
  rw [hopOf, RouterData.ofPackage_serialize d p [] (by rw [hwinners]; simp)]

theorem header_serialize {inp : LinkInput} (hmessage : inp.package.message = d.serialize p)
    (hwinners : d.winnersId = []) : inp.header = d := by
  rw [LinkInput.header, show inp.package = ⟨d.serialize p, inp.package.beyond⟩ by rw [← hmessage]]
  exact RouterData.ofPackage_serialize d p _ (by rw [hwinners]; simp)

/-- The arithmetic of a hop: one less, and never below zero. -/
theorem toNat_sub_one {a : UInt16} (ha : a ≠ 0) : (a - 1).toNat + 1 = a.toNat := by
  have hpos : a.toNat ≠ 0 := fun h => ha (UInt16.toNat_inj.mp h)
  have hle : (1 : UInt16) ≤ a := by
    rw [UInt16.le_iff_toNat_le]
    exact Nat.one_le_iff_ne_zero.mpr hpos
  rw [UInt16.toNat_sub_of_le _ _ hle]
  exact Nat.sub_add_cancel (Nat.one_le_iff_ne_zero.mpr hpos)

theorem sub_one_lt {a b : UInt16} (ha : a ≠ 0) (hab : a ≤ b) : a - 1 < b := by
  have hsub := toNat_sub_one ha
  rw [UInt16.le_iff_toNat_le] at hab
  rw [UInt16.lt_iff_toNat_lt]
  omega

/-- A package that is passed on is written with a smaller hop id. -/
theorem within_of_lt (hc : h.cause = some c) (hwithin : c.Within c.hop) {hop : UInt16}
    (hlt : hop < c.hop) : (h.origin l).Within hop := by
  rw [UInt16.lt_iff_toNat_lt] at hlt
  simp only [Handling.origin, hc, Origin.Within, List.length_cons] at hwithin ⊢
  omega

theorem refused_of_announced {inp : KernelPackage} {fresh : RandomUUID} {e : Router.Event}
    (he : e = .kernel inp fresh ∨ e = .backup inp fresh)
    (hvalid : isInvalidNewTender inp.cmd = false) :
    e.IsOwn := by
  rcases he with rfl | rfl
  · refine ⟨trivial, if_neg fun h => ?_⟩
    rw [h] at hvalid
    cases hvalid
  · exact ⟨trivial, rfl⟩

theorem isOwnSyncTender_of_multi {cmd : Command}
    (hmulti : isFirstCommandOfMultiwinnerTender cmd = true) : isOwnSyncTender cmd = false := by
  simp only [isFirstCommandOfMultiwinnerTender, List.mem_cons, List.not_mem_nil, or_false,
    decide_eq_true_eq] at hmulti
  rcases hmulti with rfl | rfl | rfl | rfl | rfl | rfl <;> rfl

theorem isReceived_link {inp : LinkInput} {fresh : RandomUUID} {e : Router.Event}
    (he : e = .link inp fresh)
    (hin : inp.cmd = .receivedData) : isReceived e := by
  rw [he, isReceived, hin]
  rfl

/-- What a router sends was written by it, is within its limit, and has fewer hops left than the
message it passes on. -/
theorem Handling.Sound.sends {s : State} (hs : h.Sound) (hok : h.HopsLeft)
    (hstep : Router.step h.state h.event = some s) (hl : l ∈ links s.out) :
    (∃ d p, l.message = RouterData.serialize d p ∧ d.winnersId = [] ∧
      (∀ c ∈ h.cause, d.hopId < c.hop) ∧ (h.origin l).Within d.hopId) ∨
    (h.cause = none ∧ l.cmd ∈ [.syncStarted, .syncFinished]) := by
  -- the messages that one step sends, by the reason they are sent for
  have hsent := step_sent hs.pointed.toKeyed hstep (.link l) (mem_links.mp hl)
  cases hsent with
  -- an announcement of this node starts a path, below the node's limit
  | announced inp fresh t he ht =>
    have hcause := hs.own (refused_of_announced he ht.valid)
    refine .inl ⟨{ t.writeRouterData with hopId := t.hopId - 1 }, inp.payload, rfl, rfl, ?_, ?_⟩
    · rw [hcause]
      exact nofun
    · have hsub := toNat_sub_one hs.maxHops
      simp only [Handling.origin, hcause, Origin.Within, Tender.link, ht.hopId, if_true,
        List.length_singleton]
      exact hsub.le
  -- data of this node's own has no cause
  | transferred q t ht hprs he k hrequest hk d' hid hwinners p =>
    have hcause := hs.own he
    refine .inl ⟨d', p, rfl, hwinners, ?_, ?_⟩
    · rw [hcause]
      exact nofun
    · simp only [Handling.origin, hcause, Origin.Within, hopOf_serialize hwinners]
      rw [if_neg nofun, List.length_singleton]
  | accepted i t ht hwinners l => exact absurd (hs.pointed.winners (.tender i) t ht) hwinners
  | synchronized cmd hcmd he peers => exact .inr ⟨hs.own he, hcmd⟩
  -- a refused announcement goes on with less than it came with: the condition
  | refused k i t he hid ht htyp hhop hprs q =>
    obtain ⟨c, hc, hwithin⟩ := hs.refused k he i hid t ht htyp
    obtain ⟨hne, hle⟩ := hok.2 k he i hid t ht hhop
    have hlt : t.hopId - 1 < c.hop := sub_one_lt hne (hle c hc)
    refine .inl ⟨{ t.writeRouterData with hopId := t.hopId - 1 }, q, rfl, rfl, ?_, ?_⟩
    · intro c' hc'
      obtain rfl := Option.some.inj (hc.symm.trans hc')
      exact hlt
    · exact within_of_lt hc hwithin hlt
  -- so does one passed on while the kernel works on it
  | forwarded inp fresh t he hin hd hpeers hmulti hhop hnew hprs q hq =>
    obtain ⟨d, p, c, hmessage, hwinners, hc, hhop', hwithin⟩ := hs.received inp fresh he hin
    have hdecoded := decoded_nameTender h.state inp fresh
    have hmessage' : h.state.message h.event = h.state.message (.link inp fresh) := by rw [he]
    have hpassed : PassedOn h.state.toTables (h.state.message h.event) := by
      refine ⟨isOwnSyncTender_of_multi hmulti, ?_⟩
      rw [hnew]
      exact ⟨hmulti, hhop⟩
    have hsame : t.hopId = c.hop := by
      rw [hhop', ← header_serialize hmessage hwinners, ← hdecoded.hopId]
      exact congrArg RouterData.hopId (hd.trans hmessage')
    have hne := hok.1 (isReceived_link he hin) hpassed c hc
    have hlt : t.hopId - 1 < c.hop := sub_one_lt (hsame ▸ hne) (UInt16.le_of_eq hsame)
    refine .inl ⟨{ t.writeRouterData with hopId := t.hopId - 1 }, q, rfl, rfl, ?_, ?_⟩
    · intro c' hc'
      obtain rfl := Option.some.inj (hc.symm.trans hc')
      exact hlt
    · exact within_of_lt hc hwithin hlt
  -- a message for a stored tender is rewritten in one field only, the hop id
  | bypassed inp fresh t he hin ht hsync hdup hfinished hopen htyp hfor hrid =>
    obtain ⟨d, p, c, hmessage, hwinners, hc, hhop', hwithin⟩ := hs.received inp fresh he hin
    have hdecoded := decoded_nameTender h.state inp fresh
    have hmessage' : h.state.message h.event = h.state.message (.link inp fresh) := by rw [he]
    have hcmd : (h.state.message h.event).cmd = inp.header.cmd := by
      rw [hmessage']
      exact hdecoded.cmd
    have hkey : (h.state.message h.event).tenderId = inp.header.tenderId := by
      rw [hmessage']
      exact hdecoded.tenderId (hs.pointed.id_ne ht)
    have hpassed : PassedOn h.state.toTables (h.state.message h.event) := by
      rw [PassedOn, hcmd, hkey, ht]
      refine ⟨hsync, hdup, hfinished, hopen, ?_⟩
      rw [ForKernel, hcmd, htyp, not_or]
      exact ⟨TenderType.remote_ne_internal, hfor⟩
    have hne := hok.1 (isReceived_link he hin) hpassed c hc
    have hheader : inp.header = d := header_serialize hmessage hwinners
    have hlt : d.hopId - 1 < c.hop := sub_one_lt (hhop' ▸ hne) (UInt16.le_of_eq hhop'.symm)
    refine .inl ⟨{ d with hopId := d.hopId - 1 }, p, ?_, hwinners, ?_, ?_⟩
    · rw [hmessage, hheader]
      exact RouterData.updateHopId_serialize d p _
    · intro c' hc'
      obtain rfl := Option.some.inj (hc.symm.trans hc')
      exact hlt
    · exact within_of_lt hc hwithin hlt

/-- A remote tender was there before, or it was opened by the message that arrived. -/
theorem remote_cases {s s' : State} {e : Router.Event} {i : UUID} {t : Tender} (hs : s.Keyed)
    (hstep : Router.step s e = some s') (ht : s'.tenders.lookup i = some t)
    (htyp : t.typ = .remote) :
    (∃ t₀, s.tenders.lookup i = some t₀ ∧ t₀.typ = .remote) ∨
      s.tenders.lookup i = none ∧ isReceived e ∧ (s.message e).tenderId = i := by
  have hstored : s'.toTables.deref (.tender i) = some t := ht
  have hchange := step_change hs hstep
  generalize s'.toTables = T' at hchange hstored
  have hold : s.toTables.deref (.tender i) = some t →
      ∃ t₀, s.tenders.lookup i = some t₀ ∧ t₀.typ = .remote := fun h => ⟨t, h, htyp⟩
  cases hchange with
  | none => exact .inl (hold hstored)
  | announced inp fresh t₁ he ht₁ hid hnew =>
    rw [Tables.deref_pushTimeline, Tables.deref_insertId, Tables.deref_assign] at hstored
    split_ifs at hstored with hp
    · obtain rfl := Option.some.inj hstored
      exact absurd (ht₁.typ.symm.trans htyp) TenderType.remote_ne_internal.symm
    · exact .inl (hold hstored)
  | opened p inp fresh t₁ he hin ht₁ hd hne hkey hcmd hvalid hnew =>
    rw [Tables.deref_pushTimeline, Tables.deref_insertId, Tables.deref_assign] at hstored
    split_ifs at hstored with hp
    · obtain rfl := hp
      refine .inr ⟨hnew, isReceived_link he hin, ?_⟩
      rw [← hd]
      exact hkey
    · exact .inl (hold hstored)
  | orphaned p inp fresh t₁ he hin ht₁ hd hne hkey hcmd hvalid hnew hbad =>
    rw [Tables.deref_assign] at hstored
    split_ifs at hstored with hp
    · obtain rfl := hp
      refine .inr ⟨hnew, isReceived_link he hin, ?_⟩
      rw [← hd]
      exact hkey
    · exact .inl (hold hstored)
  | updated j t₁ t₂ ht₁ hupdate =>
    rw [Tables.deref_assign] at hstored
    split_ifs at hstored with hp
    · obtain rfl := Pointer.tender.inj hp
      obtain rfl := Option.some.inj hstored
      exact .inl ⟨t₁, ht₁, hupdate.keeps.2.2.2.symm.trans htyp⟩
    · exact .inl (hold hstored)
  | resynced j t₁ ht₁ =>
    rw [Tables.deref_assign, if_neg nofun] at hstored
    exact .inl (hold hstored)
  | removed p t₁ ht₁ hp hcmd => exact .inl (hold (Tables.deref_of_remove hstored))
  | refused k j t₁ he hid ht₁ htyp₁ hprs hhop =>
    rw [Tables.deref_idTenders, Tables.deref_assign] at hstored
    split_ifs at hstored with hp
    · obtain rfl := Pointer.tender.inj hp
      exact .inl ⟨t₁, ht₁, htyp₁⟩
    · exact .inl (hold hstored)

end

/-! ### Every step of a network -/

section Step

variable {G : Topology N} {net : Net N} {e : NetEvent N} {h : Handling N}

/-- **Every input is handled soundly** in a network within its budget. -/
theorem handling_sound (hnet : Budget net) (hh : handling G net e = some h) : h.Sound := by
  cases e with
  | deliver k beyond fresh =>
    obtain ⟨f, hf, hh⟩ := Option.bind_eq_some_iff.mp hh
    obtain ⟨s, hs, rfl⟩ := Option.map_eq_some_iff.mp hh
    obtain ⟨d, p, hmessage, hwinners, hwithin⟩ := hnet.flights f (List.mem_of_getElem? hf)
    have hhop : hopOf f.message = d.hopId := by rw [hmessage, hopOf_serialize hwinners]
    refine ⟨hnet.pointed _ s hs, hnet.maxHops _ s hs, fun h => h.1.elim, ?_, nofun⟩
    intro inp fresh' he _
    obtain ⟨rfl, -⟩ := Router.Event.link.inj he
    exact ⟨d, p, _, hmessage, hwinners, rfl, hhop, hhop ▸ hwithin⟩
  | lose k => cases hh
  | input n e =>
    rw [handling] at hh
    split_ifs at hh with hreceived
    obtain ⟨s, hs, rfl⟩ := Option.map_eq_some_iff.mp hh
    refine ⟨hnet.pointed _ s hs, hnet.maxHops _ s hs, ?_, ?_, ?_⟩
    · intro hown
      dsimp only at hown ⊢
      rw [hown.2]
      rfl
    · intro inp fresh he hin
      exact absurd (isReceived_link he hin) hreceived
    · intro k hk i hi t ht htyp
      refine ⟨net.copies n i, ?_, hnet.copies n s hs i t ht htyp⟩
      dsimp only at hk hi ⊢
      rw [Option.mem_def.mp hk, Option.bind_some, Option.mem_def.mp hi]
      rfl

/-- Messages about a synchronization stay in the node. -/
theorem receivers_sync {n : N} {l : LinkPackage} (hcmd : l.cmd ∈ [.syncStarted, .syncFinished]) :
    G.receivers n l = [] := by
  simp only [List.mem_cons, List.not_mem_nil, or_false] at hcmd
  rcases hcmd with hcmd | hcmd <;> rw [Topology.receivers, hcmd]

/-- Everything else goes to neighbours. -/
theorem receivers_subset {n m : N} {l : LinkPackage} (hm : m ∈ G.receivers n l) :
    m ∈ G.neighbours n := by
  rw [Topology.receivers] at hm
  split at hm
  · exact List.mem_of_mem_filter hm
  · exact hm
  · exact List.mem_of_mem_filter hm
  · cases hm

/-- What is not delivered is still on its way. -/
theorem remaining_subset {f : Flight N} (hf : f ∈ remaining net e) : f ∈ net.flights := by
  cases e with
  | deliver k beyond fresh => exact List.mem_of_mem_eraseIdx hf
  | lose k => exact List.mem_of_mem_eraseIdx hf
  | input n e => exact hf

theorem nodes_handling (hh : handling G net e = some h) : net.nodes h.node = some h.state := by
  cases e with
  | deliver k beyond fresh =>
    obtain ⟨f, hf, hh⟩ := Option.bind_eq_some_iff.mp hh
    obtain ⟨s, hs, rfl⟩ := Option.map_eq_some_iff.mp hh
    exact hs
  | lose k => cases hh
  | input n e =>
    rw [handling] at hh
    split_ifs at hh with hreceived
    obtain ⟨s, hs, rfl⟩ := Option.map_eq_some_iff.mp hh
    exact hs

/-- The hop limits a configuration sets are not zero. -/
def LimitsSet (e : NetEvent N) : Prop := ∀ n maxHops, e = .input n (.config maxHops) → maxHops ≠ 0

theorem handling_config {maxHops : UInt16} (hh : handling G net e = some h)
    (he : h.event = .config maxHops) : e = .input h.node (.config maxHops) := by
  cases e with
  | deliver k beyond fresh =>
    obtain ⟨f, hf, hh⟩ := Option.bind_eq_some_iff.mp hh
    obtain ⟨s, hs, rfl⟩ := Option.map_eq_some_iff.mp hh
    cases he
  | lose k => cases hh
  | input n e =>
    rw [handling] at hh
    split_ifs at hh with hreceived
    obtain ⟨s, hs, rfl⟩ := Option.map_eq_some_iff.mp hh
    exact congrArg _ he

/-- The router keeps a hop limit. -/
theorem maxHops_handling {s : State} (hs : h.Sound) (hlimits : LimitsSet e)
    (hh : handling G net e = some h) (hstep : Router.step h.state h.event = some s) :
    s.maxHops ≠ 0 := by
  by_cases hconfig : ∃ maxHops, h.event = .config maxHops
  · obtain ⟨maxHops, he⟩ := hconfig
    rw [he] at hstep
    rw [← Option.some.inj hstep]
    exact hlimits _ _ (handling_config hh he)
  · rw [step_maxHops hs.pointed.toKeyed hstep fun maxHops he => hconfig ⟨maxHops, he⟩]
    exact hs.maxHops

/-- The messages a router sends are sound. -/
theorem dispatch_sound {s : State} (hs : h.Sound) (hok : h.HopsLeft)
    (hstep : Router.step h.state h.event = some s) :
    ∀ f ∈ (links s.out).flatMap fun l => G.dispatch h.node (h.origin l) l, f.Sound := by
  intro f hf
  obtain ⟨l, hl, hf⟩ := List.mem_flatMap.mp hf
  obtain ⟨m, hm, rfl⟩ := List.mem_map.mp hf
  rcases hs.sends hok hstep hl with ⟨d, p, hmessage, hwinners, -, hwithin⟩ | ⟨-, hcmd⟩
  · exact ⟨d, p, hmessage, hwinners, hwithin⟩
  · rw [receivers_sync hcmd] at hm
    cases hm

/-- Nothing is on its way at the start. -/
theorem budget_initial : Budget (initial : Net N) := by
  refine ⟨nofun, ?_, ?_, ?_⟩
  · intro n s hs
    obtain rfl := Option.some.inj hs
    exact pointed_init
  · intro n s hs
    obtain rfl := Option.some.inj hs
    decide
  · intro n s hs i t ht
    obtain rfl := Option.some.inj hs
    cases ht

/-- What a router passes on falls below what it was given. -/
theorem falls_of_hopsLeft (hnet : Budget net) (hok : HopsLeft G net e) : Falls G net e := by
  intro h hh s hstep c hc l hl
  have hs := handling_sound hnet hh
  rcases hs.sends (hok h hh) hstep hl with ⟨d, p, hmessage, hwinners, hlt, -⟩ | ⟨hcause, -⟩
  · rw [hmessage, hopOf_serialize hwinners]
    exact hlt c hc
  · rw [hcause] at hc
    cases hc

/-- The invariant says what was claimed. -/
theorem withinLimit (hnet : Budget net) : WithinLimit net := by
  intro f hf
  obtain ⟨d, p, -, -, hwithin⟩ := hnet.flights f hf
  exact le_trans (Nat.le_add_left _ _) hwithin

variable [DecidableEq N]

theorem copies_apply (h : Handling N) (c : N → UUID → Copy N) (n : N) (i : UUID) :
    h.copies c n i = if n = h.node ∧ h.opens = some i then h.cause.getD (c n i) else c n i := by
  rw [Handling.copies]
  cases hopens : h.opens with
  | none => simp
  | some j =>
    cases hcause : h.cause with
    | none => simp
    | some copy =>
      by_cases hn : n = h.node
      · subst hn
        by_cases hi : i = j
        · simp [hi]
        · simp [hi, Ne.symm hi]
      · simp [hn]

/-- What is remembered of the tenders of the router is within its limit. -/
theorem copies_within {s : State} {c : N → UUID → Copy N} (hs : h.Sound)
    (hcopies : ∀ i, ∀ t ∈ h.state.tenders.lookup i, t.typ = .remote →
      (c h.node i).Within (c h.node i).hop)
    (hstep : Router.step h.state h.event = some s) (i : UUID) (t : Tender)
    (ht : s.tenders.lookup i = some t) (htyp : t.typ = .remote) :
    (h.copies c h.node i).Within (h.copies c h.node i).hop := by
  rw [copies_apply]
  rcases remote_cases hs.pointed.toKeyed hstep ht htyp with
    ⟨t₀, ht₀, htyp₀⟩ | ⟨hnew, hreceived, hkey⟩
  · -- a message does not open a tender that is there
    have hopens : h.opens ≠ some i := by
      rw [Handling.opens]
      split_ifs with hnone
      · intro hi
        rw [Option.some.inj hi, ht₀] at hnone
        exact absurd hnone.2 nofun
      · exact nofun
    rw [if_neg fun h => hopens h.2]
    exact hcopies i t₀ ht₀ htyp₀
  · have hopens : h.opens = some i := by
      rw [Handling.opens, if_pos ⟨hreceived, hkey ▸ hnew⟩, hkey]
    rw [if_pos ⟨rfl, hopens⟩]
    cases he : h.event with
    | link inp fresh =>
      rw [he, isReceived, decide_eq_true_eq] at hreceived
      obtain ⟨d, p, copy, -, -, hcause, -, hwithin⟩ := hs.received inp fresh he hreceived
      rw [hcause]
      exact hwithin
    | _ =>
      rw [he] at hreceived
      cases hreceived

/-- **Step lemma.** -/
theorem budget_next (hnet : Budget net) (hlimits : LimitsSet e) (hok : HopsLeft G net e) :
    Budget (next G net e) := by
  have hremaining : ∀ f ∈ remaining net e, f.Sound := fun f hf =>
    hnet.flights f (remaining_subset hf)
  rw [next]
  cases hh : handling G net e with
  | none => exact ⟨hremaining, hnet.pointed, hnet.maxHops, hnet.copies⟩
  | some h =>
    have hs := handling_sound hnet hh
    have hnode := nodes_handling hh
    dsimp only
    rw [Handling.react]
    -- what is to be shown of the other nodes and of the one that acts
    have hnodes : ∀ (P : N → State → Prop) (o : Option State),
        (∀ n, n ≠ h.node → ∀ s ∈ net.nodes n, P n s) → (∀ s ∈ o, P h.node s) →
        ∀ n, ∀ s ∈ Function.update net.nodes h.node o n, P n s := by
      intro P o hother ho n s hs
      by_cases hn : n = h.node
      · subst hn
        rw [Function.update_self] at hs
        exact ho s hs
      · rw [Function.update_of_ne hn] at hs
        exact hother n hn s hs
    cases hstep : Router.step h.state h.event with
    | none =>
      refine ⟨hremaining, ?_, ?_, ?_⟩
      · exact hnodes (fun _ s => s.Pointed) none (fun n _ => hnet.pointed n)
          fun s hs => absurd hs (Option.not_mem_none s)
      · exact hnodes (fun _ s => s.maxHops ≠ 0) none (fun n _ => hnet.maxHops n)
          fun s hs => absurd hs (Option.not_mem_none s)
      · exact hnodes (fun n s => ∀ i, ∀ t ∈ s.tenders.lookup i, t.typ = .remote →
          (net.copies n i).Within (net.copies n i).hop) none (fun n _ => hnet.copies n)
          fun s hs => absurd hs (Option.not_mem_none s)
    | some s =>
      have hpointed : s.Pointed := pointed_step hs.pointed hstep
      have hmaxHops : s.maxHops ≠ 0 := maxHops_handling hs hlimits hh hstep
      have hcopies : ∀ i, ∀ t ∈ s.tenders.lookup i, t.typ = .remote →
          (h.copies net.copies h.node i).Within (h.copies net.copies h.node i).hop :=
        copies_within hs (hnet.copies h.node h.state hnode) hstep
      have hsent := dispatch_sound (G := G) hs (hok h hh) hstep
      refine ⟨fun f hf => ?_, ?_, ?_, ?_⟩
      · dsimp only at hf
        rw [List.mem_append] at hf
        exact hf.elim (hremaining f) (hsent f)
      · exact hnodes (fun _ s => s.Pointed) (some s) (fun n _ => hnet.pointed n)
          (by simpa using hpointed)
      · exact hnodes (fun _ s => s.maxHops ≠ 0) (some s) (fun n _ => hnet.maxHops n)
          (by simpa using hmaxHops)
      · refine hnodes (fun n s => ∀ i, ∀ t ∈ s.tenders.lookup i, t.typ = .remote →
          (h.copies net.copies n i).Within (h.copies net.copies n i).hop) (some s) ?_
          (by simpa using hcopies)
        intro n hn s' hs' i t ht htyp
        rw [copies_apply, if_neg fun h => hn h.1]
        exact hnet.copies n s' hs' i t ht htyp

end Step

/-- **The hop budget.** In a run of a network in which every message that is passed on has hops
left, and every refused announcement goes on with no more hops than it came with, hop ids fall
from node to node, and no message travels further than the limit it was sent with. -/
theorem hop_budget [DecidableEq N] (G : Topology N) (es : List (NetEvent N))
    (hlimits : ∀ e ∈ es, LimitsSet e) (hok : Run.Along (step G) (HopsLeft G) initial es) :
    Run.Along (step G) (fun net e => Falls G net e ∧ WithinLimit (next G net e)) initial es := by
  have hboth := (Run.along_of_forall hlimits).and hok
  refine hboth.of_invariant Budget ?_ ?_ budget_initial
  · rintro net e net' hnet ⟨hlimits, hok⟩ hnext
    rw [← Option.some.inj hnext]
    exact budget_next hnet hlimits hok
  · rintro net e hnet ⟨hlimits, hok⟩
    exact ⟨falls_of_hopsLeft hnet hok, withinLimit (budget_next hnet hlimits hok)⟩

/-! ### A short run -/

instance (T : Tables) (d : RouterData) : Decidable (PassedOn T d) :=
  match h : T.tenders.lookup d.tenderId with
  | none => decidable_of_iff (isOwnSyncTender d.cmd = false ∧
      isFirstCommandOfMultiwinnerTender d.cmd ∧ d.hopId ≠ 1) (by rw [PassedOn, h])
  | some t => decidable_of_iff (isOwnSyncTender d.cmd = false ∧ isKnownAnnouncement d.cmd = false ∧
      d.cmd ≠ .syncFinished ∧ t.isCanceled = false ∧ ¬ ForKernel d t) (by rw [PassedOn, h])

instance (h : Handling N) : Decidable h.HopsLeft :=
  inferInstanceAs (Decidable (_ ∧ _))

instance [DecidableEq N] (G : Topology N) (net : Net N) (e : NetEvent N) :
    Decidable (HopsLeft G net e) :=
  inferInstanceAs (Decidable (∀ h ∈ handling G net e, h.HopsLeft))

instance (net : Net N) : Decidable (WithinLimit net) :=
  inferInstanceAs (Decidable (∀ f ∈ net.flights, f.trail.length ≤ f.limit))

/-- Three nodes in a line. -/
def line : Topology (Fin 3) where
  neighbours n := [[1], [0, 2], [1]].getD n []
  peer _ m := m
  symm := by decide
  irrefl := by decide
  inj _ _ h := Fin.ext h

/-- The first node, with the given hop limit, announces that an object is saved, and the second one
gets the announcement. -/
def announceOnLine (maxHops : UInt16) : List (NetEvent (Fin 3)) :=
  [.input 0 (.config maxHops),
    .input 0 (.kernel { KernelPackage.new with cmd := .save } ⟨9, by decide⟩),
    .deliver 0 [] ⟨9, by decide⟩]

theorem limitsSet_announceOnLine {maxHops : UInt16} (h : maxHops ≠ 0) :
    ∀ e ∈ announceOnLine maxHops, LimitsSet e := by
  intro e he n maxHops' hconfig
  simp only [announceOnLine, List.mem_cons, List.not_mem_nil, or_false] at he
  rcases he with rfl | rfl | rfl
  · obtain ⟨-, hconfig⟩ := NetEvent.input.inj hconfig
    exact Router.Event.config.inj hconfig ▸ h
  · obtain ⟨-, hconfig⟩ := NetEvent.input.inj hconfig
    cases hconfig
  · cases hconfig

/-- With the hop limit `2` the announcement is within its limit. -/
theorem hop_budget_line : Run.Along (step line)
    (fun net e => Falls line net e ∧ WithinLimit (next line net e)) initial (announceOnLine 2) :=
  hop_budget line _ (limitsSet_announceOnLine (by decide)) (by decide +kernel)

/-- With the hop limit `1` the second node passes on what has no hops left. -/
theorem not_hop_budget : ¬ ∀ (G : Topology (Fin 3)) (es : List (NetEvent (Fin 3))),
    (∀ e ∈ es, LimitsSet e) → Run.Along (step G)
      (fun net e => Falls G net e ∧ WithinLimit (next G net e)) initial es := by
  intro h
  have hrun := h line _ (limitsSet_announceOnLine (show (1 : UInt16) ≠ 0 by decide))
  have hwithin : WithinLimit ((announceOnLine 1).foldl (next line) initial) :=
    ((hrun.2 _ rfl).2 _ rfl).1.2
  exact absurd hwithin (by decide +kernel)

end Network

end Metax
