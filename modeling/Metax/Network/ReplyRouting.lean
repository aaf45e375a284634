import Metax.Network.Trails
import Metax.Router.Relay

/-!
# The routing of data

Several nodes may answer the announcement of a tender. When the kernel of the originator has
chosen one of them, its data is to go back the way the answer came. No router knows that way: each
keeps a set of peers with the tender. The originator adds every peer that answers and sends its data
to the peer with the smallest id; a router in between sends the data to all of the peers, which are
those the announcement came from until one of the messages `save_stream_offer`, `peer_found` and
`send_to_peer` is passed on, and then the one that message came from.

So the data keeps to the way when the originator's first choice by id is the right one, and every
router on the way has the next one alone as its peer.
-/

namespace Metax

namespace Network

open Router

variable {N : Type}

/-- The header of a message. -/
def headerOf (message : Bytes) : RouterData := .ofPackage ⟨message, []⟩

/-- A message for the tender `i` that is no announcement. -/
def IsDataMessage (i : UUID) (message : Bytes) : Prop :=
  (headerOf message).tenderId = i ∧ isInvalidNewTender (headerOf message).cmd = true

/-- A message in flight with data for the tender `i` that the node `o` sent. -/
def Flight.IsData (o : N) (i : UUID) (f : Flight N) : Prop :=
  IsDataMessage i f.message ∧ f.trail.getLast? = some o

/-- A message that has gone the first edges of a path that starts at `o`, its next one included. -/
def Flight.OnPath (o : N) (path : List N) (f : Flight N) : Prop :=
  (f.dst :: f.trail).reverse <+: o :: path

/-- The kernel of `o` has been told of an answer to its tender `i` that came along `path`, whose
last node gave the answer; data for the tender has not been sent yet. -/
structure Chosen [DecidableEq N] (G : Topology N) (o : N) (i : UUID) (path : List N) (net : Net N) :
    Prop where
  answer : ∃ es net₀ k beyond fresh f, Run.run (step G) initial es = some net₀ ∧
    net₀.flights[k]? = some f ∧ f.dst = o ∧ f.trail = path ∧ IsDataMessage i f.message ∧
    net = next G net₀ (.deliver k beyond fresh)
  confirmed : ∃ s ∈ net.nodes o, ∃ t ∈ s.tenders.lookup i, t.typ = .internal ∧ t.st = .confirmed
  later : ∀ f ∈ net.flights, ¬ f.IsData o i

/-! ### The condition -/

/-- When the originator sends data for the tender, the first node of the path has the smallest id
among the peers of the tender. -/
def Handling.Prefers (G : Topology N) (o : N) (i : UUID) (path : List N) (h : Handling N) : Prop :=
  h.node = o → ∀ k ∈ h.event.request, h.state.idTenders.lookup k = some i →
    ∀ p : Pointer, p.id = i → ∀ t ∈ h.state.deref p, ∀ v ∈ path.head?,
      G.peer o v ∈ t.prs ∧ ∀ q ∈ t.prs, G.peer o v ≤ q

/-- A router on the path that gets data has the next node as the only peer of the open tender, or,
at the end of the path, waits for the data itself. -/
def Flight.IsExpected (G : Topology N) (net : Net N) (path : List N) (f : Flight N) : Prop :=
  let cmd := (headerOf f.message).cmd
  (isOwnSyncTender cmd = false ∧ cmd ≠ .maxCommand ∧ cmd ≠ .syncFinished) ∧
    ∃ s ∈ net.nodes f.dst, match path[f.trail.length]? with
      | some w => s.Relays (headerOf f.message) (G.peer f.dst w)
      | none => s.Takes (headerOf f.message)

/-- The condition on an event of a network. -/
structure KeepsPath (G : Topology N) (o : N) (i : UUID) (path : List N) (net : Net N)
    (e : NetEvent N) : Prop where
  prefers : ∀ h ∈ handling G net e, h.Prefers G o i path
  expected : ∀ k beyond fresh, e = .deliver k beyond fresh → ∀ f ∈ net.flights[k]?,
    f.IsData o i → f.IsExpected G net path

/-! ### What it is a condition for -/

/-- What becomes of data on the path: it goes to the next node, unchanged but for the hop id, or, at
the end of the path, to the kernel. -/
def Flight.Arrives (path : List N) (f : Flight N) (beyond : Bytes) (left : List (Flight N))
    (net net' : Net N) : Prop :=
  match path[f.trail.length]? with
  | some w => net'.told = net.told ∧ ∃ sent, net'.flights = left ++ sent ∧ sent ≠ [] ∧
      ∀ f' ∈ sent, f'.dst = w ∧ f'.trail = f.dst :: f.trail ∧
        ∃ x, f'.message = RouterData.updateHopId f.message x
  | none => net'.flights = left ∧ ∃ p, net'.told = net.told ++ [(f.dst, p)] ∧
      p.cmd = (headerOf f.message).cmd ∧
      (⟨f.message, beyond⟩ : Received).payload (headerOf f.message).headerSize = .ok p.payload

/-- The data of the originator is delivered along the path. -/
structure Routed [DecidableEq N] (G : Topology N) (o : N) (i : UUID) (path : List N) (net : Net N)
    (e : NetEvent N) : Prop where
  /-- What the originator sends is for the first node of the path. -/
  sent : ∀ h ∈ handling G net e, h.node = o → h.event.IsOwn →
    ∀ s ∈ Router.step h.state h.event, ∀ l ∈ links s.out, IsDataMessage i l.message →
      ∃ v ∈ path.head?, v ∈ G.receivers o l ∧ ∀ m ∈ G.receivers o l, m = v
  /-- No data is anywhere else. -/
  onPath : ∀ f ∈ (next G net e).flights, f.IsData o i → f.OnPath o path
  /-- Every node of the path does its part. -/
  arrives : ∀ k beyond fresh, e = .deliver k beyond fresh → ∀ f ∈ net.flights[k]?,
    f.IsData o i → f.Arrives path beyond (remaining net e) net (next G net e)

/-! ### One message -/

section

variable {G : Topology N} {o : N} {i : UUID} {path : List N} {net : Net N} {e : NetEvent N}
  {h : Handling N} {d : RouterData} {p : Payload} {l : LinkPackage}

theorem headerOf_serialize (hwinners : d.winnersId = []) : headerOf (d.serialize p) = d :=
  RouterData.ofPackage_serialize d p [] (by rw [hwinners]; simp)

/-- A path starts with a neighbour of the originator, and goes from neighbour to neighbour. -/
structure IsPath (G : Topology N) (o : N) (path : List N) : Prop where
  ne : path ≠ []
  chain : (o :: path).IsChain G.Link

theorem prefix_append_singleton {α : Type} {l L : List α} {a : α} (h : l <+: L)
    (ha : L[l.length]? = some a) : l ++ [a] <+: L := by
  obtain ⟨r, rfl⟩ := h
  rw [List.getElem?_append_right le_rfl, Nat.sub_self] at ha
  cases r with
  | nil => cases ha
  | cons b r =>
    obtain rfl := Option.some.inj ha
    exact ⟨r, by simp⟩

/-- The next node of the path is a neighbour of the one the message goes to. -/
theorem Flight.OnPath.next (hpath : IsPath G o path) {f : Flight N} (hf : f.OnPath o path) {w : N}
    (hw : path[f.trail.length]? = some w) :
    (w :: f.dst :: f.trail).reverse <+: o :: path ∧ w ∈ G.neighbours f.dst := by
  have hnext : (w :: f.dst :: f.trail).reverse <+: o :: path := by
    rw [List.reverse_cons]
    refine prefix_append_singleton hf ?_
    rw [List.length_reverse, List.length_cons, List.getElem?_cons_succ]
    exact hw
  refine ⟨hnext, G.symm ?_⟩
  obtain ⟨rest, hrest⟩ := hnext
  have hchain := hpath.chain
  rw [← hrest, List.isChain_append, List.isChain_reverse] at hchain
  replace hchain := hchain.1
  exact (List.isChain_cons_cons.mp hchain).1

/-- What the originator sends for the tender is for the first node of the path. -/
theorem receivers_prefers (hpath : IsPath G o path) {v : N} (hv : path.head? = some v)
    {prs : Finset ID32} (hprs : prs.Nonempty) (hmin : G.peer o v ∈ prs ∧ ∀ q ∈ prs, G.peer o v ≤ q)
    (hcmd : l.cmd = .send) (hpeers : l.peers = {prs.min' hprs}) :
    v ∈ G.receivers o l ∧ ∀ m ∈ G.receivers o l, m = v := by
  have hfirst : prs.min' hprs = G.peer o v :=
    le_antisymm (prs.min'_le _ hmin.1) (hmin.2 _ (prs.min'_mem hprs))
  have hneighbour : v ∈ G.neighbours o := by
    have hchain := hpath.chain
    cases path with
    | nil => cases hv
    | cons w path =>
      obtain rfl := Option.some.inj hv
      exact G.symm (List.isChain_cons_cons.mp hchain).1
  rw [Topology.receivers, hcmd, hpeers, hfirst]
  constructor
  · exact List.mem_filter.mpr ⟨hneighbour, decide_eq_true (Finset.mem_singleton_self _)⟩
  · intro m hm
    obtain ⟨hm, hpeer⟩ := List.mem_filter.mp hm
    exact G.inj hm hneighbour (Finset.mem_singleton.mp (of_decide_eq_true hpeer))

/-- Data that the kernel or a storage sends for the tender. -/
structure Handling.SendsOwn (h : Handling N) (i : UUID) (l : LinkPackage) : Prop where
  own : h.event.IsOwn
  request : ∃ k ∈ h.event.request, h.state.idTenders.lookup k = some i
  peer : ∃ p t, p.id = i ∧ h.state.deref p = some t ∧ l.cmd = .send ∧
    ∃ hprs : t.prs.Nonempty, l.peers = {t.prs.min' hprs}

/-- Data for the tender that goes on. -/
structure Handling.PassesBack (h : Handling N) (i : UUID) (l : LinkPackage) : Prop where
  received : ∃ inp fresh, h.event = .link inp fresh ∧ inp.cmd = .receivedData ∧
    IsDataMessage i inp.package.message ∧
    ∃ t, h.state.tenders.lookup (headerOf inp.package.message).tenderId = some t ∧
      ¬ ForKernel (headerOf inp.package.message) t ∧ l.cmd = .send ∧ l.peers = t.prs

theorem not_isData_of_valid (hwinners : d.winnersId = [])
    (hvalid : isInvalidNewTender d.cmd = false) :
    ¬ IsDataMessage i (d.serialize p) := by
  rintro ⟨-, hdata⟩
  rw [headerOf_serialize hwinners, hvalid] at hdata
  cases hdata

/-- Where data for the tender comes from. -/
theorem Handling.Traced.data_cases (hs : h.Traced G) (hi : i ≠ 0) {s : State}
    (hstep : Router.step h.state h.event = some s) (hl : l ∈ links s.out)
    (hdata : IsDataMessage i l.message) : h.SendsOwn i l ∨ h.PassesBack i l := by
  have hsent := step_sent hs.pointed.toKeyed hstep (.link l) (mem_links.mp hl)
  cases hsent with
  | announced inp fresh t he ht =>
    refine absurd hdata (not_isData_of_valid rfl ?_)
    exact (congrArg isInvalidNewTender ht.cmd).trans ht.valid
  | transferred q t ht hprs he k hrequest hk d' hid hwinners p =>
    have hkey : q.id = i := by
      rw [← hs.pointed.key q t ht, ← hid, ← hdata.1, headerOf_serialize hwinners]
    exact .inl ⟨he, ⟨k, hrequest, hkey ▸ hk⟩, q, t, hkey, ht, rfl, hprs, rfl⟩
  | accepted j t ht hwinners l => exact absurd (hs.pointed.winners (.tender j) t ht) hwinners
  | synchronized cmd hcmd he peers =>
    have hnull : (headerOf []).tenderId = 0 := by decide
    exact absurd (hdata.1.symm.trans hnull) hi
  | refused k j t he hid ht => exact absurd hdata (not_isData_of_valid rfl (hs.valid j t ht))
  | forwarded inp fresh t he hin hd hpeers hmulti =>
    refine absurd hdata (not_isData_of_valid rfl ?_)
    rw [← hd] at hmulti
    exact (valid_of_multi hmulti).1
  | bypassed inp fresh t he hin ht hsync hdup hfinished hopen htyp hfor =>
    obtain ⟨d, p, hmessage, hwinners⟩ := hs.received inp fresh he hin
    have hheader : inp.header = d := header_serialize hmessage hwinners
    have hbefore : headerOf inp.package.message = d := by rw [hmessage, headerOf_serialize hwinners]
    have hafter : headerOf (RouterData.updateHopId inp.package.message (inp.header.hopId - 1)) =
        { d with hopId := inp.header.hopId - 1 } := by
      rw [hmessage, RouterData.updateHopId_serialize, headerOf_serialize (by exact hwinners)]
    have hsame : IsDataMessage i inp.package.message := by
      rw [IsDataMessage, hafter] at hdata
      rw [IsDataMessage, hbefore]
      exact hdata
    rw [hheader] at ht hfor
    refine .inr ⟨inp, fresh, he, hin, hsame, t, ?_, ?_, rfl, rfl⟩
    · rw [hbefore]
      exact ht
    · rw [hbefore, ForKernel, htyp, not_or]
      exact ⟨TenderType.remote_ne_internal, hfor⟩

/-- What the originator sends for the tender. -/
theorem Handling.SendsOwn.receivers (hsends : h.SendsOwn i l) (hpath : IsPath G o path)
    (hprefers : h.Prefers G o i path) (hnode : h.node = o) :
    ∃ v ∈ path.head?, v ∈ G.receivers o l ∧ ∀ m ∈ G.receivers o l, m = v := by
  obtain ⟨k, hrequest, hk⟩ := hsends.request
  obtain ⟨p, t, hid, ht, hcmd, hprs, hpeers⟩ := hsends.peer
  obtain ⟨v, rest, rfl⟩ := List.exists_cons_of_ne_nil hpath.ne
  exact ⟨v, rfl, receivers_prefers hpath rfl hprs
    (hprefers hnode k hrequest hk p hid t ht v rfl) hcmd hpeers⟩

/-- A router that passes data on handles a message in flight. -/
theorem handling_received {inp : LinkInput} {fresh : RandomUUID} (hh : handling G net e = some h)
    (he : h.event = .link inp fresh) (hin : inp.cmd = .receivedData) :
    ∃ k beyond f s, e = .deliver k beyond fresh ∧ net.flights[k]? = some f ∧
      net.nodes f.dst = some s ∧ inp = ⟨.receivedData, {G.peer f.dst f.src}, ⟨f.message, beyond⟩⟩ ∧
      h = ⟨f.dst, s, .link inp fresh, some ⟨f.toOrigin, hopOf f.message⟩⟩ := by
  cases e with
  | deliver k beyond fresh' =>
    obtain ⟨f, hf, hh⟩ := Option.bind_eq_some_iff.mp hh
    obtain ⟨s, hs, rfl⟩ := Option.map_eq_some_iff.mp hh
    obtain ⟨rfl, rfl⟩ := Router.Event.link.inj he
    exact ⟨k, beyond, f, s, rfl, hf, hs, rfl, rfl⟩
  | lose k => cases hh
  | input n e =>
    rw [handling] at hh
    split_ifs at hh with hreceived
    obtain ⟨s, hs, rfl⟩ := Option.map_eq_some_iff.mp hh
    exact absurd (isReceived_link he hin) hreceived

/-- Data that a router passes on stays on the path. -/
theorem onPath_passesBack (hpath : IsPath G o path) (hnet : Traced G net)
    (hpaths : ∀ f ∈ net.flights, f.IsData o i → f.OnPath o path)
    (hok : KeepsPath G o i path net e) (hh : handling G net e = some h)
    (hpasses : h.PassesBack i l) {m : N} (hm : m ∈ G.receivers h.node l)
    (horigin : (h.origin l).trail.getLast? = some o) :
    (⟨h.origin l, h.node, m, l.message⟩ : Flight N).OnPath o path := by
  obtain ⟨inp, fresh, he, hin, hdata, t, ht, hfor, hcmd, hpeers⟩ := hpasses.received
  obtain ⟨k, beyond, f, s, rfl, hf, hs, rfl, rfl⟩ := handling_received hh he hin
  have hmem := List.mem_of_getElem? hf
  have hlast : f.trail.getLast? = some o := by
    have hsrc := hnet.src f hmem
    rw [origin_trail] at horigin
    dsimp only [Option.map_some, Option.getD_some] at horigin
    cases htrail : f.trail with
    | nil =>
      rw [htrail] at hsrc
      cases hsrc
    | cons a rest =>
      rw [htrail] at horigin
      rwa [List.getLast?_cons_cons] at horigin
  have honpath : f.OnPath o path := hpaths f hmem ⟨hdata, hlast⟩
  obtain ⟨-, s', hs', hexpected⟩ := hok.expected k beyond fresh rfl f hf ⟨hdata, hlast⟩
  obtain rfl : s = s' := Option.some.inj (hs.symm.trans hs')
  cases hnext : path[f.trail.length]? with
  | none =>
    -- the last node keeps the data
    rw [hnext] at hexpected
    obtain ⟨t', ht', -, hfor', -⟩ := hexpected
    obtain rfl : t = t' := Option.some.inj (ht.symm.trans ht')
    exact absurd hfor' hfor
  | some w =>
    rw [hnext] at hexpected
    obtain ⟨t', ht', -, -, -, hprs⟩ := hexpected
    obtain rfl : t = t' := Option.some.inj (ht.symm.trans ht')
    obtain ⟨hsteps, hneighbour⟩ := honpath.next hpath hnext
    have hmw : m = w := by
      rw [Topology.receivers, hcmd, hpeers, hprs] at hm
      obtain ⟨hm, hpeer⟩ := List.mem_filter.mp hm
      exact G.inj hm hneighbour (Finset.mem_singleton.mp (of_decide_eq_true hpeer))
    rw [Flight.OnPath, origin_trail, hmw]
    exact hsteps

/-- **Step lemma**: all that is sent stays on the path. -/
theorem onPath_sent (hpath : IsPath G o path) (hi : i ≠ 0) (hnet : Traced G net)
    (hpaths : ∀ f ∈ net.flights, f.IsData o i → f.OnPath o path)
    (hok : KeepsPath G o i path net e) (hh : handling G net e = some h) {s : State}
    (hstep : Router.step h.state h.event = some s) {f : Flight N}
    (hf : f ∈ (links s.out).flatMap fun l => G.dispatch h.node (h.origin l) l)
    (hdata : f.IsData o i) : f.OnPath o path := by
  have hs := hnet.handling hh
  obtain ⟨l, hl, hf⟩ := List.mem_flatMap.mp hf
  obtain ⟨m, hm, rfl⟩ := List.mem_map.mp hf
  rcases hs.data_cases hi hstep hl hdata.1 with hsends | hpasses
  · have htrail : (h.origin l).trail = [h.node] := by
      rw [origin_trail, hs.own hsends.own]
      rfl
    have hnode : h.node = o := by
      have hlast := hdata.2
      dsimp only at hlast
      rw [htrail] at hlast
      exact Option.some.inj hlast
    obtain ⟨v, hv, -, honly⟩ := hsends.receivers hpath (hok.prefers h hh) hnode
    obtain ⟨rest, rfl⟩ : ∃ rest, path = v :: rest := List.head?_eq_some_iff.mp hv
    rw [Flight.OnPath, htrail, honly m (hnode ▸ hm), hnode]
    exact ⟨rest, rfl⟩
  · exact onPath_passesBack hpath hnet hpaths hok hh hpasses hm hdata.2

variable [DecidableEq N]

/-- The network after a message was handled. -/
theorem next_deliver {k : ℕ} {beyond : Bytes} {fresh : RandomUUID} {f : Flight N} {s s' : State}
    {peer : ID32} (hf : net.flights[k]? = some f) (hs : net.nodes f.dst = some s)
    (hmessage : f.message = d.serialize p) (hpeer : G.peer f.dst f.src = peer)
    (hstep : Router.step s (.link (copyFrom d p peer beyond) fresh) = some s') :
    ∃ h : Handling N, h.node = f.dst ∧ (∀ l, (h.origin l).trail = f.dst :: f.trail) ∧
      (next G net (.deliver k beyond fresh)).flights = net.flights.eraseIdx k ++
        ((links s'.out).flatMap fun l => G.dispatch f.dst (h.origin l) l) ∧
      (next G net (.deliver k beyond fresh)).told =
        net.told ++ (kernels s'.out).map fun p => (f.dst, p) := by
  have harrival : G.arrival f beyond fresh = .link (copyFrom d p peer beyond) fresh := by
    rw [Topology.arrival, hmessage, hpeer]
    rfl
  refine ⟨⟨f.dst, s, G.arrival f beyond fresh, some ⟨f.toOrigin, hopOf f.message⟩⟩, rfl,
    fun l => rfl, ?_⟩
  rw [next, handling, hf, Option.bind_some, hs, Option.map_some]
  dsimp only
  rw [Handling.react, harrival]
  dsimp only
  rw [hstep]
  exact ⟨rfl, rfl⟩

/-- **Step lemma**: data that arrives on the path is passed on or taken. -/
theorem arrives_deliver (hpath : IsPath G o path) (hi : i ≠ 0) (hnet : Traced G net) {k : ℕ}
    {beyond : Bytes} {fresh : RandomUUID} {f : Flight N} (hf : net.flights[k]? = some f)
    (hdata : f.IsData o i) (honpath : f.OnPath o path) (hexpected : f.IsExpected G net path) :
    f.Arrives path beyond (net.flights.eraseIdx k) net (next G net (.deliver k beyond fresh)) := by
  -- the message is one that a router wrote, so that its header can be read
  obtain ⟨d, q, hmessage, hwinners⟩ := hnet.written f (List.mem_of_getElem? hf)
  have hheader : headerOf f.message = d := by rw [hmessage, headerOf_serialize hwinners]
  obtain ⟨hcmd, s, hs, hexpected⟩ := hexpected
  rw [hheader] at hcmd hexpected
  have hd : DataHeader d := by
    obtain ⟨hkey, hvalid⟩ := hdata.1
    rw [hheader] at hkey hvalid
    exact ⟨hwinners, hkey ▸ hi, hcmd, hvalid⟩
  rw [Flight.Arrives]
  -- the last node of the path takes the reply for its kernel; the others pass it on
  cases hnext : path[f.trail.length]? with
  | none =>
    rw [hnext] at hexpected
    obtain ⟨s', rid, hstep, hout⟩ : ∃ s' rid, Router.step s
        (.link (copyFrom d q (G.peer f.dst f.src) beyond) fresh) = some s' ∧ s'.out = _ :=
      step_take hd hexpected
    obtain ⟨h, -, -, hflights, htold⟩ := next_deliver hf hs hmessage rfl hstep
    have hlinks : links s'.out = [] := by
      rw [hout]
      rfl
    rw [hlinks] at hflights
    refine ⟨hflights.trans (List.append_nil _), { KernelPackage.new with
      cmd := d.cmd, uuid := d.uuid, requestId := rid, dataVersion := d.dataVersion, payload := q },
      ?_, ?_, ?_⟩
    · rw [htold, hout]
      rfl
    · rw [hheader]
    · rw [hheader, hmessage]
      exact RouterData.payload_serialize d q beyond (by rw [hwinners]; simp)
  | some w =>
    rw [hnext] at hexpected
    obtain ⟨s', hstep, hout⟩ : ∃ s', Router.step s
        (.link (copyFrom d q (G.peer f.dst f.src) beyond) fresh) = some s' ∧ s'.out = _ :=
      step_relay hd hexpected
    obtain ⟨h, -, htrail, hflights, htold⟩ := next_deliver hf hs hmessage rfl hstep
    have hkernels : kernels s'.out = [] := by
      rw [hout]
      rfl
    rw [hkernels] at htold
    have hneighbour := (honpath.next hpath hnext).2
    -- the peer that the tender came from is the next node of the path, and no other
    have hreceivers : ∀ m, m ∈ G.receivers f.dst ⟨.send, {G.peer f.dst w}, 0, false,
        { d with hopId := d.hopId - 1 }.serialize q⟩ ↔ m = w := by
      intro m
      simp only [Topology.receivers, List.mem_filter, Finset.mem_singleton, decide_eq_true_eq]
      constructor
      · exact fun hm => G.inj hm.1 hneighbour hm.2
      · rintro rfl
        exact ⟨hneighbour, rfl⟩
    have hlinks : links s'.out = [⟨.send, {G.peer f.dst w}, 0, false,
        { d with hopId := d.hopId - 1 }.serialize q⟩] := by
      rw [hout]
      rfl
    rw [hlinks, List.flatMap_singleton] at hflights
    -- nothing for this kernel, and one message, less a hop
    refine ⟨htold.trans (List.append_nil _), _, hflights, ?_, ?_⟩
    · exact List.ne_nil_of_mem (List.mem_map.mpr ⟨w, (hreceivers w).mpr rfl, rfl⟩)
    · intro f' hf'
      obtain ⟨m, hm, rfl⟩ := List.mem_map.mp hf'
      refine ⟨(hreceivers m).mp hm, htrail _, d.hopId - 1, ?_⟩
      rw [hmessage]
      exact (RouterData.updateHopId_serialize d q _).symm

/-- What is known in every network of the run. -/
structure OnTheWay (G : Topology N) (o : N) (i : UUID) (path : List N) (net : Net N) : Prop where
  traced : Traced G net
  onPath : ∀ f ∈ net.flights, f.IsData o i → f.OnPath o path

theorem OnTheWay.next (hpath : IsPath G o path) (hi : i ≠ 0) (hnet : OnTheWay G o i path net)
    (hok : KeepsPath G o i path net e) : OnTheWay G o i path (next G net e) := by
  refine ⟨hnet.traced.next, fun f hf hdata => ?_⟩
  have hleft : ∀ f ∈ remaining net e, f.IsData o i → f.OnPath o path :=
    fun f hf => hnet.onPath f (remaining_subset hf)
  rw [Network.next] at hf
  cases hh : handling G net e with
  | none =>
    rw [hh] at hf
    exact hleft f hf hdata
  | some h =>
    rw [hh] at hf
    dsimp only at hf
    rw [Handling.react] at hf
    cases hstep : Router.step h.state h.event with
    | none =>
      rw [hstep] at hf
      exact hleft f hf hdata
    | some s =>
      rw [hstep] at hf
      rcases List.mem_append.mp hf with hf | hf
      · exact hleft f hf hdata
      · exact onPath_sent hpath hi hnet.traced hnet.onPath hok hh hstep hf hdata

/-- The event is handled as the path asks. -/
theorem OnTheWay.routed (hpath : IsPath G o path) (hi : i ≠ 0) (hnet : OnTheWay G o i path net)
    (hok : KeepsPath G o i path net e) : Routed G o i path net e := by
  refine ⟨?_, (hnet.next hpath hi hok).onPath, ?_⟩
  · intro h hh hnode hown s hstep l hl hdata
    rcases (hnet.traced.handling hh).data_cases hi hstep hl hdata with hsends | hpasses
    · exact hsends.receivers hpath (hok.prefers h hh) hnode
    · obtain ⟨inp, fresh, he, -⟩ := hpasses.received
      exact absurd he (hown.1.ne_link inp fresh)
  · rintro k beyond fresh rfl f hf hdata
    exact arrives_deliver hpath hi hnet.traced hf hdata
      (hnet.onPath f (List.mem_of_getElem? hf) hdata) (hok.expected k beyond fresh rfl f hf hdata)

theorem Chosen.onTheWay (hchosen : Chosen G o i path net) :
    IsPath G o path ∧ i ≠ 0 ∧ OnTheWay G o i path net := by
  obtain ⟨es, net₀, k, beyond, fresh, f, hrun, hf, rfl, rfl, -, rfl⟩ := hchosen.answer
  have htraced : Traced G net₀ := traced_initial.run hrun
  have hmem := List.mem_of_getElem? hf
  have hpath : IsPath G f.dst f.trail := by
    refine ⟨fun hnil => ?_, htraced.chain f hmem⟩
    have hsrc := htraced.src f hmem
    rw [hnil] at hsrc
    cases hsrc
  refine ⟨hpath, ?_, htraced.next, fun f' hf' hdata => absurd hdata (hchosen.later f' hf')⟩
  obtain ⟨s, hs, t, ht, -⟩ := hchosen.confirmed
  exact (htraced.next.pointed _ s hs).toKeyed.id_ne ht

end

/-- **Reply routing.** After the originator's kernel was told of an answer, in every run whose steps
keep the path of that answer, the data of the originator goes along that path and nowhere else. -/
theorem data_routed [DecidableEq N] (G : Topology N) {o : N} {i : UUID} {path : List N}
    {net : Net N} (hchosen : Chosen G o i path net) (es : List (NetEvent N))
    (hok : Run.Along (step G) (KeepsPath G o i path) net es) :
    Run.Along (step G) (Routed G o i path) net es := by
  obtain ⟨hpath, hi, hnet⟩ := hchosen.onTheWay
  refine hok.of_invariant (OnTheWay G o i path) ?_ ?_ hnet
  · intro net e net' hnet hok hnext
    rw [← Option.some.inj hnext]
    exact hnet.next hpath hi hok
  · exact fun net e hnet hok => hnet.routed hpath hi hok

/-! ### Two answers -/

section

variable [DecidableEq N]

instance (i : UUID) (message : Bytes) : Decidable (IsDataMessage i message) :=
  inferInstanceAs (Decidable (_ ∧ _))

instance (o : N) (i : UUID) (f : Flight N) : Decidable (f.IsData o i) :=
  inferInstanceAs (Decidable (_ ∧ _))

instance (o : N) (path : List N) (f : Flight N) : Decidable (f.OnPath o path) :=
  inferInstanceAs (Decidable (_ <+: _))

instance (s : State) (d : RouterData) : Decidable (s.Takes d) :=
  inferInstanceAs (Decidable (∃ t ∈ s.tenders.lookup d.tenderId, _))

omit [DecidableEq N] in
theorem pointer_id_eq {p : Pointer} {i : UUID} :
    p.id = i ↔ p ∈ [Pointer.tender i, Pointer.syncTender i] := by
  cases p with
  | tender j => simp [Pointer.id]
  | syncTender j => simp [Pointer.id]

instance (G : Topology N) (o : N) (i : UUID) (path : List N) (h : Handling N) :
    Decidable (h.Prefers G o i path) :=
  decidable_of_iff (h.node = o → ∀ k ∈ h.event.request, h.state.idTenders.lookup k = some i →
    ∀ p ∈ [Pointer.tender i, Pointer.syncTender i], ∀ t ∈ h.state.deref p, ∀ v ∈ path.head?,
      G.peer o v ∈ t.prs ∧ ∀ q ∈ t.prs, G.peer o v ≤ q) (by
    simp only [Handling.Prefers, pointer_id_eq])

omit [DecidableEq N] in
/-- A router sends no data of its own because of a message. -/
theorem keepsPath_deliver {G : Topology N} {o : N} {i : UUID} {path : List N} {net : Net N} {k : ℕ}
    {beyond : Bytes} {fresh : RandomUUID} : KeepsPath G o i path net (.deliver k beyond fresh) ↔
      ∀ f ∈ net.flights[k]?, f.IsData o i → f.IsExpected G net path := by
  constructor
  · exact fun h => h.expected k beyond fresh rfl
  · intro hexpected
    refine ⟨fun h hh _ k' hk' => ?_, ?_⟩
    · obtain ⟨f, -, hh⟩ := Option.bind_eq_some_iff.mp hh
      obtain ⟨s, -, rfl⟩ := Option.map_eq_some_iff.mp hh
      cases hk'
    · rintro k' beyond' fresh' ⟨⟩
      exact hexpected

omit [DecidableEq N] in
theorem keepsPath_input {G : Topology N} {o : N} {i : UUID} {path : List N} {net : Net N} {n : N}
    {e : Router.Event} : KeepsPath G o i path net (.input n e) ↔
      ∀ h ∈ handling G net (.input n e), h.Prefers G o i path :=
  ⟨fun h => h.prefers, fun h => ⟨h, nofun⟩⟩

end

theorem neZero_three : NeZero 3 := ⟨by decide⟩

attribute [local instance] neZero_three

theorem star_symm {n m : Fin 3} : m ∈ ([[1, 2], [0], [0]] : List (List (Fin 3))).getD n [] →
    n ∈ ([[1, 2], [0], [0]] : List (List (Fin 3))).getD m [] := by
  revert n m
  decide

theorem star_irrefl : ∀ n : Fin 3, n ∉ ([[1, 2], [0], [0]] : List (List (Fin 3))).getD n [] := by
  decide

theorem star_inj {n m m' : Fin 3} (_ : m ∈ ([[1, 2], [0], [0]] : List (List (Fin 3))).getD n [])
    (_ : m' ∈ ([[1, 2], [0], [0]] : List (List (Fin 3))).getD n []) (h : (m : ID32) = m') :
    m = m' :=
  Fin.ext h

/-- Two nodes around a third. -/
def star : Topology (Fin 3) where
  neighbours n := [[1, 2], [0], [0]].getD n []
  peer _ m := m
  symm := star_symm
  irrefl := star_irrefl
  inj := star_inj

/-- The tender of the search for a peer. -/
def searchTender : RandomUUID := ⟨9, uuid_nine_ne_zero⟩

/-- A request of the kernel. -/
def request (cmd : Command) (k : ID32) : Router.Event :=
  .kernel { KernelPackage.new with cmd := cmd, requestId := k } searchTender

/-- The kernel of node `0` looks for a peer, the kernels of both other nodes have found it, and the
answer of node `2` is about to arrive. -/
def search : List (NetEvent (Fin 3)) :=
  [.input 0 (.config 3), .input 1 (.config 3), .input 2 (.config 3),
    .input 0 (request .findPeer 1), .deliver 0 [] searchTender, .deliver 0 [] searchTender,
    .input 2 (request .peerFound routerRequestLowerBound),
    .input 1 (request .peerFound routerRequestLowerBound)]

/-- The answer of node `2` has arrived. -/
def found : Net (Fin 3) :=
  next star (search.foldl (next star) initial) (.deliver 0 [] searchTender)

theorem chosen_found : Chosen star 0 searchTender.1 [2] found where
  answer := by
    refine ⟨search, search.foldl (next star) initial, 0, [], searchTender,
      ((search.foldl (next star) initial).flights[0]?).get (by decide +kernel), rfl,
      (Option.some_get _).symm, ?_, ?_, ?_, rfl⟩
    · decide +kernel
    · decide +kernel
    · decide +kernel
  confirmed := by decide +kernel
  later := by decide +kernel

/-- Node `0` has sent its data. -/
def sentData : Net (Fin 3) := next star found (.input 0 (request .sendToPeer 1))

/-- The header of the data. -/
def sentHeader : RouterData :=
  { RouterData.new with tenderId := searchTender.1, cmd := .sendToPeer, hopId := 2 }

theorem sentData_flight : (sentData.flights[1]?).map
    (fun f => (headerOf f.message, f.dst, f.trail)) = some (sentHeader, 2, [0]) := by
  decide +kernel

theorem sentData_takes : ∃ s ∈ sentData.nodes 2, s.Takes sentHeader := by
  decide +kernel

/-- The data for node `2` is sent before the answer of node `1` arrives. -/
theorem data_routed_found : Run.Along (step star) (Routed star 0 searchTender.1 [2]) found
    [.input 0 (request .sendToPeer 1), .deliver 1 [] searchTender] := by
  refine data_routed star chosen_found _ ⟨?_, fun net hnet => ?_⟩
  · exact keepsPath_input.mpr (by decide +kernel)
  · obtain rfl : sentData = net := Option.some.inj hnet
    refine ⟨keepsPath_deliver.mpr fun f hf _ => ?_, fun _ _ => trivial⟩
    have hflight := sentData_flight
    rw [Option.mem_def.mp hf] at hflight
    simp only [Option.map_some, Option.some.injEq, Prod.mk.injEq] at hflight
    obtain ⟨hheader, hdst, htrail⟩ := hflight
    rw [Flight.IsExpected, hheader, hdst, htrail]
    exact ⟨by decide, sentData_takes⟩

/-- When the answer of node `1` has arrived, the data for node `2` goes to node `1`. -/
theorem not_data_routed : ¬ ∀ (G : Topology (Fin 3)) (o : Fin 3) (i : UUID) (path : List (Fin 3))
    (net : Net (Fin 3)), Chosen G o i path net → ∀ es,
      Run.Along (step G) (Routed G o i path) net es := by
  intro h
  have hrun := h star 0 searchTender.1 [2] found chosen_found
    [.deliver 0 [] searchTender, .input 0 (request .sendToPeer 1)]
  have honpath := (hrun.2 _ rfl).1.onPath
  exact absurd honpath (by decide +kernel)

end Network

end Metax
