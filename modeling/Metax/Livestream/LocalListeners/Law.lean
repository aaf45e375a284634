import Metax.Livestream.LocalListeners.Changes

/-!
# Local listeners: every run

What a step sends is one of three (`Sends`): content to who listens, the two messages to the router
with which the last one leaves, or something else. With the invariant this is the law of a step, and
by induction that of a run (`localListeners_exact`).

No step needs a condition: the lists are exact in every run.
-/

namespace Metax

namespace LocalListeners

variable {hosted : UUID → Bool} {s t : State} {L : List (ID32 × UUID)} {id ims : ID32} {u v : UUID}
  {e : Event}

/-! ### What a step sends -/

/-- **What an event sends**: content to who listens, or two messages to the router that the last one
left, or something else. -/
inductive Sends (hosted : UUID → Bool) (s : State) (L : List (ID32 × UUID)) (e : Event) :
    List Message → Prop
  | content (u : UUID) (h : Delivers s u e) :
    Sends hosted s L e ((s.recipients u).map .livestreamContent)
  | farewell (id : ID32) (u : UUID) (h : LastLeaves hosted L u e) (howns : s.Owns id u) :
    Sends hosted s L e [.cancelLivestreamGet id, .clearRequest id]
  | other (out : List Message) (hcontent : ∀ u, ¬ Delivers s u e)
    (hlast : ∀ u, ¬ LastLeaves hosted L u e)
    (hout : ∀ m ∈ out, m.isContent = false ∧ m.isFarewell = false) : Sends hosted s L e out

theorem filter_eq_nil {p : Message → Bool} {out : List Message} (h : ∀ m ∈ out, p m = false) :
    out.filter p = [] := by
  rw [List.filter_eq_nil_iff]
  intro m hm
  rw [h m hm]
  exact Bool.false_ne_true

/-- A message of a list of contents. -/
theorem isContent_of_mem {l : List ID32} {m : Message} (hm : m ∈ l.map .livestreamContent) :
    m.isContent = true ∧ m.isFarewell = false := by
  obtain ⟨ims, -, rfl⟩ := List.mem_map.mp hm
  exact ⟨rfl, rfl⟩

theorem Delivers.unique (h : Delivers s u e) (h' : Delivers s v e) : u = v := by
  cases e with
  | content id =>
    obtain ⟨r, hr, rfl, -⟩ := h
    obtain ⟨r', hr', rfl, -⟩ := h'
    rw [Option.some.inj (hr.symm.trans hr')]
  | decrypted id w => exact h.1.symm.trans h'.1
  | _ => exact h.elim

theorem Delivers.not_lastLeaves (h : Delivers s u e) : ¬ LastLeaves hosted L v e := by
  cases e with
  | cancel ims => exact h.elim
  | _ => exact id

/-- What is sent decides what the law says of a step. -/
theorem Sends.exact (h : Sends hosted s L e t.out) (hs : Served s L)
    (hkept : ∀ id u, s.Owns id u → listenersOf (next L e) u ≠ [] → t.Owns id u) :
    Exact hosted s L e t := by
  generalize hout : t.out = out at h
  cases h with
  -- content, for all who watch
  | content u hdelivers =>
    have hall : t.out.filter Message.isContent = t.out := by
      rw [List.filter_eq_self, hout]
      exact fun m hm => (isContent_of_mem hm).1
    have hnone : t.out.filter Message.isFarewell = [] := by
      refine filter_eq_nil fun m hm => ?_
      rw [hout] at hm
      exact (isContent_of_mem hm).2
    constructor
    · intro v hv
      rw [hall, hout, ← hdelivers.unique hv]
      exact (hs.recipients u).map _
    · exact fun hquiet => absurd hdelivers (hquiet u)
    · exact hkept
    · exact fun v hv => absurd hv hdelivers.not_lastLeaves
    · exact fun _ => hnone
  -- a farewell, of the last one who did
  | farewell id u hlast howns =>
    constructor
    · exact fun v hv => absurd hlast hv.not_lastLeaves
    · intro _
      rw [hout]
      rfl
    · exact hkept
    · intro v hv
      -- a client listens to one stream
      have huv : u = v := by
        cases e with
        | cancel ims =>
          have hmem : ims ∈ listenersOf L u := by
            rw [hlast.2]
            exact List.mem_singleton_self ims
          have hmem' : ims ∈ listenersOf L v := by
            rw [hv.2]
            exact List.mem_singleton_self ims
          rw [mem_listenersOf, hs.open_iff] at hmem hmem'
          obtain ⟨i, hi⟩ := hmem
          obtain ⟨j, hj⟩ := hmem'
          exact hi.uuid_inj (hs.inj i j ims u v hi hj ▸ hj)
        | _ => exact hlast.elim
      refine ⟨id, huv ▸ howns, ?_⟩
      rw [hout]
      rfl
    · exact fun hsilent => absurd hlast (hsilent u)
  -- neither content nor a farewell
  | other _ hcontent hlast hother =>
    constructor
    · exact fun v hv => absurd hv (hcontent v)
    · exact fun _ => filter_eq_nil fun m hm => (hother m (hout ▸ hm)).1
    · exact hkept
    · exact fun v hv => absurd hv (hlast v)
    · exact fun _ => filter_eq_nil fun m hm => (hother m (hout ▸ hm)).2

theorem storageNack_frame (ht : s.handleStorageNack id = some t) :
    t.pendingImsGetRequests = s.pendingImsGetRequests ∧
      ∀ m ∈ t.out, m ∈ s.out ∨ ∃ u, m = .get id u := by
  rw [State.handleStorageNack] at ht
  cases hr : s.requests.lookup id with
  | none =>
    rw [hr, Option.elim_none] at ht
    rw [← Option.some.inj ht]
    exact ⟨rfl, fun m hm => .inl hm⟩
  | some r =>
    rw [hr, Option.elim_some, State.postRouterGetRequest] at ht
    split_ifs at ht
    rw [← Option.some.inj ht]
    refine ⟨rfl, fun m hm => ?_⟩
    rcases List.mem_append.mp hm with hm | hm
    · exact .inl hm
    · exact .inr ⟨r.uuid, List.mem_singleton.mp hm⟩

theorem streamAuth_frame (s : State) (id : ID32) (keys : Bool) :
    (s.handleRouterStreamAuthRequest id keys).pendingImsGetRequests = s.pendingImsGetRequests ∧
      ∀ m ∈ (s.handleRouterStreamAuthRequest id keys).out,
        m ∈ s.out ∨ m = .prepareCipherForStream id := by
  rw [State.handleRouterStreamAuthRequest.eq_def]
  split
  · dsimp only
    split_ifs
    · refine ⟨rfl, fun m hm => ?_⟩
      rcases List.mem_append.mp hm with hm | hm
      · exact .inl hm
      · exact .inr (List.mem_singleton.mp hm)
    · exact ⟨rfl, fun m hm => .inl hm⟩
  · exact ⟨rfl, fun m hm => .inl hm⟩

/-- What `handle_router_get_livestream_content` changes is what is sent. -/
theorem content_frame (ht : s.handleRouterGetLivestreamContent id = some t) :
    t = { s with out := t.out } ∧ ((s.requests.lookup id = none ∧ t.out = s.out) ∨
      ∃ r, s.requests.lookup id = some r ∧
        t.out = s.out ++ if r.encrypted then [.streamDecrypt id r.uuid]
          else (s.recipients r.uuid).map .livestreamContent) := by
  rw [State.handleRouterGetLivestreamContent] at ht
  cases hr : s.requests.lookup id with
  | none =>
    rw [hr, Option.elim_none] at ht
    rw [← Option.some.inj ht]
    exact ⟨rfl, .inl ⟨rfl, rfl⟩⟩
  | some r =>
    rw [hr, Option.elim_some] at ht
    split_ifs at ht with hcmd henc
    · rw [← Option.some.inj ht]
      exact ⟨rfl, .inr ⟨r, rfl, by rw [if_pos henc]; rfl⟩⟩
    · rw [← Option.some.inj ht]
      exact ⟨rfl, .inr ⟨r, rfl, by rw [if_neg henc]; rfl⟩⟩

/-! ### Steps and runs -/

/-- What is known of an event: the invariant after it, that the first of a list stays the first,
and what it sends. -/
structure Handled (hosted : UUID → Bool) (s : State) (L : List (ID32 × UUID)) (e : Event)
    (t : State) : Prop where
  inv : Inv hosted t (next L e)
  head : ∀ u id, (s.members u).head? = some id → t.members u ≠ [] →
    (t.members u).head? = some id
  sends : Sends hosted s L e t.out

/-- The first of each list is the same where the lists are. -/
theorem head_of_frame (h : t.pendingImsGetRequests = s.pendingImsGetRequests) (u : UUID) (id : ID32)
    (hhead : (s.members u).head? = some id) (_ : t.members u ≠ []) :
    (t.members u).head? = some id := by
  rw [State.members, h]
  exact hhead

theorem handled_cancel (h : Inv hosted s L) (hout : s.out = [])
    (ht : s.handleImsCancelLivestreamGet hosted ims = some t) :
    Handled hosted s L (.cancel ims) t := by
  by_cases hmem : ∃ u, (ims, u) ∈ L
  · obtain ⟨u, hmem⟩ := hmem
    obtain ⟨b, hb⟩ := (h.served.open_iff ims u).mp hmem
    -- whose request goes, and to whom it is given
    obtain ⟨x, t', ht', hx, hfirst, hleaves⟩ := leaves hosted h.served hb
    obtain rfl : t' = t := Option.some.inj (ht'.symm.trans ht)
    refine ⟨⟨hleaves.served hx h.served hb, hleaves.owned h hfirst⟩, fun v i hi hne => ?_, ?_⟩
    · rw [hleaves.head hfirst ?_]
      · exact hi
      · intro hv hone
        rw [hleaves.members, if_pos hv, hone, List.erase_cons_head] at hne
        exact hne rfl
    · rw [hleaves.out, hout, List.nil_append]
      -- the viewer is the last one just when the list has nobody else
      have hone : LastLeaves hosted L u (.cancel ims) ↔ hosted u = false ∧ s.members u = [x] := by
        refine and_congr_right fun _ => ?_
        rw [h.served.listenersOf_eq_singleton hb]
        constructor
        · intro hone
          rw [hone, List.mem_singleton] at hx
          rw [hone, hx]
        · intro hone
          have hbmem := (h.served.mem_iff u b).mpr ⟨ims, hb⟩
          rw [hone, List.mem_singleton] at hbmem
          rw [hone, hbmem]
      split_ifs with hlast
      -- the last one says farewell for the stream, through the request that owns it
      · refine .farewell x u (hone.mpr hlast) ((h.owns_iff hlast.1).mpr ?_)
        rw [hlast.2, List.head?_cons]
      -- somebody is left, so nothing is said
      · refine .other _ (fun _ => not_false) (fun v hv => ?_) (List.forall_mem_nil _)
        have hmem' : ims ∈ listenersOf L v := by
          rw [hv.2]
          exact List.mem_singleton_self ims
        rw [mem_listenersOf, h.served.open_iff] at hmem'
        obtain ⟨j, hj⟩ := hmem'
        have huv : u = v := hb.uuid_inj (h.served.inj b j ims u v hb hj ▸ hj)
        rw [← huv] at hv
        exact hlast (hone.mp hv)
  · -- a client that does not listen
    have hfree : s.requestOfIms ims = none := by
      rw [State.requestOfIms, Option.map_eq_none_iff, List.find?_eq_none]
      intro p hp heq
      obtain ⟨r, -, hr⟩ := h.served.serves_of_lookup (AList.mem_lookup_iff.mpr hp)
      exact hmem ⟨r.uuid, (h.served.open_iff ims r.uuid).mpr ⟨p.1, of_decide_eq_true heq ▸ hr⟩⟩
    rw [State.handleImsCancelLivestreamGet, hfree, Option.elim_none] at ht
    rw [← Option.some.inj ht]
    have hsame : next L (.cancel ims) = L := by
      refine List.filter_eq_self.mpr fun p hp => decide_eq_true ?_
      rintro rfl
      exact hmem ⟨p.2, hp⟩
    refine ⟨hsame.symm ▸ h, head_of_frame rfl, ?_⟩
    rw [hout]
    refine .other _ (fun _ => not_false) (fun v hv => hmem ⟨v, ?_⟩) (List.forall_mem_nil _)
    rw [← mem_listenersOf, hv.2]
    exact List.mem_singleton_self ims

/-- **Every event** keeps the invariant and sends what it should. -/
theorem handled (h : Inv hosted s L) (hout : s.out = []) (ht : handle hosted s e = some t) :
    Handled hosted s L e t := by
  cases e with
  | get id ims u =>
    rw [handle] at ht
    -- a viewer joins what is served already, or is the first of a new request
    split_ifs at ht with hnew
    have hjoins := joins hosted h.served id ims u
    rw [Option.some.inj ht] at hjoins
    refine ⟨⟨hjoins.served h.served hnew, hjoins.owned h hnew⟩, fun v i hi _ => hjoins.head hi,
      .other _ (fun _ => not_false) (fun _ => not_false) fun m hm => ?_⟩
    rcases hjoins.out m hm with hm | rfl
    · rw [hout] at hm
      cases hm
    · exact ⟨rfl, rfl⟩
  | cancel ims => exact handled_cancel h hout ht
  | storageNack id =>
    rw [handle] at ht
    split_ifs at ht with hasked
    -- only the request that the storage was asked for is looked at
    obtain ⟨u, hu⟩ := Option.isSome_iff_exists.mp hasked
    obtain ⟨hpending, hmsg⟩ := storageNack_frame ht
    refine ⟨h.storageNack hu ht, head_of_frame hpending,
      .other _ (fun _ => not_false) (fun _ => not_false) fun m hm => ?_⟩
    rcases hmsg m hm with hm | ⟨v, rfl⟩
    · change m ∈ s.out at hm
      rw [hout] at hm
      cases hm
    · exact ⟨rfl, rfl⟩
  | streamAuth id keys =>
    rw [handle] at ht
    rw [← Option.some.inj ht]
    obtain ⟨hpending, hmsg⟩ := streamAuth_frame s id keys
    refine ⟨h.streamAuth keys, head_of_frame hpending,
      .other _ (fun _ => not_false) (fun _ => not_false) fun m hm => ?_⟩
    rcases hmsg m hm with hm | rfl
    · rw [hout] at hm
      cases hm
    · exact ⟨rfl, rfl⟩
  | content id =>
    obtain ⟨hframe, hmsg⟩ := content_frame ht
    have hinv : Inv hosted t L := hframe ▸ h.sends t.out
    have hpending : t.pendingImsGetRequests = s.pendingImsGetRequests := by
      rw [hframe]
    refine ⟨hinv, head_of_frame hpending, ?_⟩
    rw [hout] at hmsg
    -- content without a request goes nowhere
    rcases hmsg with ⟨hr, hnil⟩ | ⟨r, hr, hmsg⟩
    · rw [hnil]
      refine .other _ (fun u => ?_) (fun _ => not_false) (List.forall_mem_nil _)
      rintro ⟨r, hr', -⟩
      rw [hr] at hr'
      cases hr'
    · rw [hmsg, List.nil_append]
      split_ifs with henc
      -- encrypted content goes to the key manager first, and to a viewer only then
      · refine .other _ (fun u => ?_) (fun _ => not_false)
          (List.forall_mem_singleton.mpr ⟨rfl, rfl⟩)
        rintro ⟨r', hr', -, hplain⟩
        rw [Option.some.inj (hr.symm.trans hr'), hplain] at henc
        cases henc
      · exact .content r.uuid ⟨r, hr, rfl, Bool.eq_false_of_not_eq_true henc⟩
  | decrypted id u =>
    rw [handle, State.handleLivestreamDecrypted] at ht
    rw [← Option.some.inj ht]
    split_ifs with hr
    · refine ⟨h, head_of_frame rfl, ?_⟩
      rw [hout]
      exact .other _ (fun v hv => hv.2 hr) (fun _ => not_false) (List.forall_mem_nil _)
    · refine ⟨h.sends _, head_of_frame rfl, ?_⟩
      rw [State.sendLivestreamContentToIms, hout, List.nil_append]
      exact .content u ⟨rfl, hr⟩
  | finished id u =>
    rw [handle] at ht
    split_ifs at ht with htender
    -- the stream ends for everyone who watches it
    have hends := ends h htender ht
    refine ⟨⟨hends.served h.served, hends.owned h htender⟩, fun v i hi hne => ?_,
      .other _ (fun _ => not_false) (fun _ => not_false) fun m hm => ?_⟩
    · rw [hends.members] at hne ⊢
      split_ifs at hne ⊢ with hv
      · exact absurd rfl hne
      · exact hi
    · rcases hends.out m hm with hm | ⟨ims, rfl⟩
      · rw [hout] at hm
        cases hm
      · exact ⟨rfl, rfl⟩

/-- A step keeps the invariant, and does what the law says. -/
theorem step_spec (h : Inv hosted s L) (ht : step hosted s e = some t) :
    Inv hosted t (next L e) ∧ Exact hosted s L e t := by
  have hhandled := handled (h.sends []) rfl ht
  have hkept : ∀ id u, s.Owns id u → listenersOf (next L e) u ≠ [] → t.Owns id u := by
    intro id u howns hne
    have hu := h.owns_not_hosted howns
    rw [hhandled.inv.owns_iff hu]
    refine hhandled.head u id ((h.owns_iff hu).mp howns) ?_
    obtain ⟨i, hi⟩ := hhandled.inv.served.listenersOf_ne_nil.mp hne
    exact List.ne_nil_of_mem hi
  have hexact := hhandled.sends.exact (h.sends []).served hkept
  exact ⟨hhandled.inv, hexact.content, hexact.quiet, hexact.kept, hexact.told, hexact.silent⟩

/-- **A run** keeps the invariant. -/
theorem inv_run {es : List Event} (h : Inv hosted s L)
    (hrun : Run.run (step hosted) s es = some t) : Inv hosted t (es.foldl next L) := by
  induction es generalizing s L with
  | nil =>
    obtain rfl : s = t := by simpa using hrun
    exact h
  | cons e es ih =>
    obtain ⟨m, hm, hrest⟩ := Run.run_cons_eq_some.mp hrun
    exact ih (step_spec h hm).1 hrest

/-- The invariant says what the law says of a state. -/
theorem Inv.lawful (h : Inv hosted s L) : Lawful hosted s L where
  recipients := h.served.recipients
  owner u hu hne := by
    obtain ⟨i, hi⟩ := h.served.listenersOf_ne_nil.mp hne
    obtain ⟨id, hid⟩ := Option.ne_none_iff_exists'.mp
      (mt List.head?_eq_none_iff.mp (List.ne_nil_of_mem hi))
    refine ⟨id, fun j => ?_⟩
    rw [h.owns_iff hu, hid, Option.some.injEq, eq_comm]
  tender id u htender := by
    obtain ⟨hu, hhead⟩ := h.owned.tender id u htender
    exact ⟨(h.owns_iff hu).mpr hhead,
      h.served.listenersOf_ne_nil.mpr ⟨id, List.mem_of_head? hhead⟩⟩
  cancel ims := by
    cases hfree : s.requestOfIms ims with
    | none =>
      have hfree' : ({ s with out := [] } : State).requestOfIms ims = none := hfree
      rw [step, handle, State.handleImsCancelLivestreamGet, hfree', Option.elim_none]
      rfl
    | some id =>
      obtain ⟨p, hp, rfl⟩ := Option.map_eq_some_iff.mp hfree
      have hlook := AList.mem_lookup_iff.mpr (List.mem_of_find?_eq_some hp)
      have heq : p.2 = ims := by simpa using List.find?_some hp
      obtain ⟨r, -, hr⟩ := (h.sends []).served.serves_of_lookup hlook
      rw [heq] at hr
      obtain ⟨x, t, ht, -⟩ := leaves hosted (h.sends []).served hr
      exact Option.isSome_iff_exists.mpr ⟨t, ht⟩

/-- **In every run** content goes to the clients that started and did not leave, the request that
owns a livestream stays as long as somebody listens, and the router is told exactly when the last
one leaves. -/
theorem localListeners_exact (hosted : UUID → Bool) (es : List Event) (s : State)
    (hrun : Run.run (step hosted) .init es = some s) :
    Lawful hosted s (listening es) ∧
      ∀ e t, step hosted s e = some t → Exact hosted s (listening es) e t :=
  ⟨(inv_run inv_init hrun).lawful, fun _ _ ht => (step_spec (inv_run inv_init hrun) ht).2⟩

/-- No livestream is hosted here. -/
def nowhere : UUID → Bool := fun _ => false

/-- Three clients listen, and leave in the order in which they came. -/
theorem localListeners_exact_threeClients : ∃ s, Run.run (step nowhere) .init
    [.get 1 10 5, .storageNack 1, .get 2 11 5, .streamAuth 1 false, .get 3 12 5, .content 1,
      .cancel 10, .content 1, .cancel 11, .cancel 12] = some s ∧
    Lawful nowhere s [] ∧ ∀ e t, step nowhere s e = some t → Exact nowhere s [] e t := by
  have hsome : (Run.run (step nowhere) .init
      [.get 1 10 5, .storageNack 1, .get 2 11 5, .streamAuth 1 false, .get 3 12 5, .content 1,
        .cancel 10, .content 1, .cancel 11, .cancel 12]).isSome := by decide
  obtain ⟨s, hs⟩ := Option.isSome_iff_exists.mp hsome
  exact ⟨s, hs, localListeners_exact nowhere _ s hs⟩

/-- When the first client leaves, its request goes on for the last one. -/
example : ((Run.run (step nowhere) .init [.get 1 10 5, .get 2 11 5, .get 3 12 5, .cancel 10]).map
    fun s => s.recipients 5) = some [12, 11] := by decide

end LocalListeners

end Metax
