import Metax.WebApi.Adapter

/-!
# Every future is fulfilled

Whatever the kernel sends and whenever clients leave, the handling of a message should end normally,
so that no promise is set twice and no assertion fails; and when the kernel has sent the final
message for a request, all futures of its client should be fulfilled (`Settled`).

This is so along every run in which data does not come for a request that was taken back, a get does
not fail after its first answer, and a request the kernel does not know is still as it was made
(`answered_run`).
-/

namespace Metax

namespace WebApi

variable {s t u : Adapter} {m m' : Map} {id id' : ID32} {r : RequestInfo} {j n n' k : ℕ}
  {client : ClientId} {talk : Talk}

/-! ### What should hold -/

/-- The kernel has sent its final message. After the last chunk there is only a failure to come. -/
def Phase.Final : Phase → Prop
  | .streaming n k => n ≤ k
  | .ended => True
  | _ => False

/-- **The law** of a state: where the kernel has sent the final message, the client has left or all
its futures are fulfilled. -/
def Settled (s : Adapter) : Prop :=
  ∀ id talk, s.talks.lookup id = some talk → talk.phase.Final → talk.left = false →
    ∀ b ∈ promisesOf s id, b = true

/-- The id of a new request is not in use any more. -/
def Unused (s : Adapter) (id : ID32) : Prop :=
  ((s.requests .get).lookup id = none ∧ (s.requests .save).lookup id = none ∧
    (s.requests .config).lookup id = none) ∧
    (∀ talk ∈ s.talks.lookup id, talk.phase = .ended) ∧
      Ledger.All (fun _ id' => id' ≠ id) s.clientToRequest

instance (s : Adapter) (id : ID32) : Decidable (Unused s id) :=
  haveI : Decidable (∀ talk ∈ s.talks.lookup id, talk.phase = .ended) := Option.decidableForallMem _
  inferInstanceAs (Decidable (_ ∧ _ ∧ _))

/-- The condition on a message for a request. -/
def MessageOk (s : Adapter) (id : ID32) : Message → Prop
  | .getData => ((s.requests .get).lookup id).isSome
  | .prepareStreaming chunkCount => chunkCount < 2 ^ 32
  | .livestreamContent size => ((s.requests .get).lookup id).isSome → size ≠ 0
  | .getFail => ∀ r ∈ (s.requests .get).lookup id, r.streamPromises = none
  | .failed => ∃ talk ∈ s.talks.lookup id, ∃ r ∈ (s.requests talk.kind.map).lookup id,
    r.streamPromises = none
  | _ => True

/-- **The condition**: data comes for a request that is there; a get fails before its first answer,
and so does any request; a chunk count fits 32 bits, and content is not empty; and a new request has
an id that is not in use any more. -/
def Ok (s : Adapter) : Event → Prop
  | .getRequest _ _ | .saveStreamRequest _ | .request _ _ => Unused s (generateRequestId s).1
  | .message id m => MessageOk s id m
  | _ => True

instance (s : Adapter) (id : ID32) (m : Message) : Decidable (MessageOk s id m) :=
  match m with
  | .getData => inferInstanceAs (Decidable (Option.isSome _ = true))
  | .prepareStreaming chunkCount => inferInstanceAs (Decidable (chunkCount < 2 ^ 32))
  | .livestreamContent size => inferInstanceAs (Decidable (_ → size ≠ 0))
  | .getFail => Option.decidableForallMem _
  | .failed => haveI := fun talk : Talk => Option.decidableExistsMem (p := fun r : RequestInfo =>
      r.streamPromises = none) ((s.requests talk.kind.map).lookup id)
    Option.decidableExistsMem (s.talks.lookup id)
  | .getLivestreamFail | .saveStreamOffer | .saveStreamFail | .answer _ => .isTrue trivial

instance (s : Adapter) (e : Event) : Decidable (Ok s e) :=
  match e with
  | .getRequest _ _ | .saveStreamRequest _ | .request _ _ =>
    inferInstanceAs (Decidable (Unused s (generateRequestId s).1))
  | .message id m => inferInstanceAs (Decidable (MessageOk s id m))
  | .cleanStreaming _ | .cancelLivestreamGet _ | .cancelLivestream _ => .isTrue trivial

/-! ### What a request looks like -/

/-- Promises of which the first ones are fulfilled. -/
def progress (a b : ℕ) : List Bool := List.replicate a true ++ List.replicate b false

/-- A request and its promises, when the kernel has answered so far. -/
def Fits : Phase → RequestInfo → List Bool → Prop
  | .asked, r, ps => r.streamPromises = none ∧ r.curStreamChunk = 0 ∧ ps = progress 0 1
  | .streaming n k, r, ps => k ≤ n ∧ r.streamPromises = some (List.range' 1 n) ∧
    r.curStreamChunk = k ∧ ps = progress (k + 1) (n - k)
  | .live, r, ps => ∃ j, r.streamPromises = some [j + 1] ∧ ps = progress (j + 1) 1
  | .ended, _, _ => False

/-- What a request is like for which the message can arrive, and how far it is answered then. -/
def Phase.Next (phase : Phase) (kind : Kind) : Message → Phase → Prop
  | .getData, p => kind = .get ∧ (phase = .asked ∧ p = .ended ∨
    ∃ n k, phase = .streaming n k ∧ k < n ∧ p = .streaming n (k + 1))
  | .prepareStreaming n, p => kind = .get ∧ phase = .asked ∧ p = .streaming n 0
  | .livestreamContent _, p => kind = .get ∧ (phase = .asked ∨ phase = .live) ∧ p = .live
  | .getFail, p => kind = .get ∧ p = .ended
  | .getLivestreamFail, p => kind = .get ∧ (phase = .asked ∨ phase = .live) ∧ p = .ended
  | .saveStreamOffer, p => kind = .saveStream ∧ phase = .asked ∧ p = .live
  | .saveStreamFail, p => kind = .saveStream ∧ (phase = .asked ∨ phase = .live) ∧ p = .ended
  | .answer m, p => kind = .plain m ∧ phase = .asked ∧ p = .ended
  | .failed, p => p = .ended

theorem Phase.next_cases {phase : Phase} {kind : Kind} {msg : Message} {p : Phase}
    (h : phase.next kind msg = some p) : phase.Next kind msg p := by
  unfold Phase.next at h
  split at h
  · cases h
  · exact (Option.some.inj h).symm
  · exact ⟨rfl, .inl ⟨rfl, (Option.some.inj h).symm⟩⟩
  · split_ifs at h with hk
    exact ⟨rfl, .inr ⟨_, _, rfl, hk, (Option.some.inj h).symm⟩⟩
  · exact ⟨rfl, rfl, (Option.some.inj h).symm⟩
  · exact ⟨rfl, .inl rfl, (Option.some.inj h).symm⟩
  · exact ⟨rfl, .inr rfl, (Option.some.inj h).symm⟩
  · exact ⟨rfl, .inl rfl, (Option.some.inj h).symm⟩
  · exact ⟨rfl, .inr rfl, (Option.some.inj h).symm⟩
  · exact ⟨rfl, (Option.some.inj h).symm⟩
  · exact ⟨rfl, rfl, (Option.some.inj h).symm⟩
  · exact ⟨rfl, .inl rfl, (Option.some.inj h).symm⟩
  · exact ⟨rfl, .inr rfl, (Option.some.inj h).symm⟩
  · split_ifs at h with hm
    exact ⟨congrArg _ hm.symm, rfl, (Option.some.inj h).symm⟩
  · cases h

theorem length_progress (a b : ℕ) : (progress a b).length = a + b := by
  rw [progress, List.length_append, List.length_replicate, List.length_replicate]

theorem progress_getElem? (a b : ℕ) : (progress a (b + 1))[a]? = some false := by
  rw [progress, List.getElem?_append_right (by rw [List.length_replicate]), List.length_replicate,
    Nat.sub_self]
  rfl

theorem progress_set (a b : ℕ) : (progress a (b + 1)).set a true = progress (a + 1) b := by
  rw [progress, List.set_append_right _ _ (by rw [List.length_replicate]), List.length_replicate,
    Nat.sub_self, List.replicate_succ, List.set_cons_zero, progress, List.replicate_succ',
    List.append_assoc, List.singleton_append]

theorem progress_append (a b n : ℕ) :
    progress a b ++ List.replicate n false = progress a (b + n) := by
  rw [progress, List.append_assoc, List.replicate_append_replicate, progress]

theorem forall_progress (a : ℕ) : ∀ b ∈ progress a 0, b = true := by
  rw [progress, List.replicate_zero, List.append_nil]
  exact fun b hb => List.eq_of_mem_replicate hb

/-- A request is in its map and as its kind and phase say, or it is not: then its client has left,
or it is over and its futures are fulfilled. -/
structure At (s : Adapter) (id : ID32) : Prop where
  placed : ∀ m r, (s.requests m).lookup id = some r → ∃ talk, s.talks.lookup id = some talk ∧
    talk.kind.map = m ∧ (talk.kind = .get → r.command = .get) ∧
      Fits talk.phase r (promisesOf s id)
  away : ∀ talk, s.talks.lookup id = some talk → (s.requests talk.kind.map).lookup id = none →
    talk.left = true ∨ talk.phase = .ended ∧ ∀ b ∈ promisesOf s id, b = true

/-- The invariant. -/
structure Inv (s : Adapter) : Prop where
  each : ∀ id, At s id
  mapped : ∀ c id talk, s.clientToRequest.lookup c = some id → s.talks.lookup id = some talk →
    talk.client = some c

theorem Fits.of_none {p : Phase} {ps : List Bool} (h : Fits p r ps)
    (hnone : r.streamPromises = none) : ps = progress 0 1 := by
  cases p with
  | asked => exact h.2.2
  | streaming n k =>
    cases hnone.symm.trans h.2.1
  | live =>
    obtain ⟨j, hstream, -⟩ := h
    cases hnone.symm.trans hstream
  | ended => exact h.elim

theorem Fits.settled {p : Phase} {ps : List Bool} (h : Fits p r ps) (hfinal : p.Final) :
    ∀ b ∈ ps, b = true := by
  cases p with
  | asked => exact hfinal.elim
  | streaming n k =>
    obtain ⟨-, -, -, rfl⟩ := h
    have hzero : n - k = 0 := Nat.sub_eq_zero_of_le hfinal
    rw [hzero]
    exact forall_progress _
  | live => exact hfinal.elim
  | ended => exact h.elim

theorem Inv.settled (h : Inv s) : Settled s := by
  intro id talk htalk hfinal hleft
  cases hr : (s.requests talk.kind.map).lookup id with
  | none =>
    obtain hl | ⟨-, hall⟩ := (h.each id).away talk htalk hr
    · rw [hl] at hleft
      cases hleft
    · exact hall
  | some r =>
    obtain ⟨talk', htalk', -, -, hfits⟩ := (h.each id).placed _ r hr
    cases htalk.symm.trans htalk'
    exact hfits.settled hfinal

theorem inv_init : Inv .init := by
  constructor
  · intro id
    constructor
    · intro m r hr
      cases hr
    · intro talk htalk
      cases htalk
  · intro c id talk hid
    cases hid

/-! ### What an operation leaves alone -/

/-- Nothing has changed but for one request, and no client has got another one. -/
structure Same (s t : Adapter) (id : ID32) : Prop where
  requests : ∀ m id', id' ≠ id → (t.requests m).lookup id' = (s.requests m).lookup id'
  talks : ∀ id', id' ≠ id → t.talks.lookup id' = s.talks.lookup id'
  promises : ∀ id', id' ≠ id → promisesOf t id' = promisesOf s id'
  clients : ∀ c i, t.clientToRequest.lookup c = some i → s.clientToRequest.lookup c = some i

theorem Same.trans (h : Same s t id) (h' : Same t u id) : Same s u id where
  requests m id' hne := (h'.requests m id' hne).trans (h.requests m id' hne)
  talks id' hne := (h'.talks id' hne).trans (h.talks id' hne)
  promises id' hne := (h'.promises id' hne).trans (h.promises id' hne)
  clients c i hi := h.clients c i (h'.clients c i hi)

/-- **One request changes.** -/
theorem Inv.change (h : Inv s) (hsame : Same s t id) (hat : At t id)
    (hclient : ∀ talk', t.talks.lookup id = some talk' →
      ∃ talk, s.talks.lookup id = some talk ∧ talk'.client = talk.client) : Inv t := by
  constructor
  · intro id'
    by_cases hid : id' = id
    · rw [hid]
      exact hat
    · obtain ⟨hplaced, haway⟩ := h.each id'
      constructor
      · intro m r hr
        rw [hsame.requests m id' hid] at hr
        rw [hsame.talks id' hid, hsame.promises id' hid]
        exact hplaced m r hr
      · intro talk htalk hr
        rw [hsame.talks id' hid] at htalk
        rw [hsame.requests _ id' hid] at hr
        rw [hsame.promises id' hid]
        exact haway talk htalk hr
  · intro c i talk hi htalk
    have hi' := hsame.clients c i hi
    by_cases hid : i = id
    · rw [hid] at htalk hi'
      obtain ⟨talk', htalk', heq⟩ := hclient talk htalk
      exact heq.trans (h.mapped c id talk' hi' htalk')
    · rw [hsame.talks i hid] at htalk
      exact h.mapped c i talk hi' htalk

theorem lookup_setRequest : ((setRequest s m id r).requests m').lookup id' =
    if m' = m ∧ id' = id then some r else (s.requests m').lookup id' := by
  rw [setRequest]
  dsimp only
  by_cases hm : m' = m
  · subst hm
    rw [Function.update_self, Ledger.lookup_insert_ite]
    simp only [true_and]
  · rw [Function.update_of_ne hm, if_neg fun h => hm h.1]

theorem lookup_eraseRequest : ((eraseRequest s m id).requests m').lookup id' =
    if m' = m ∧ id' = id then none else (s.requests m').lookup id' := by
  rw [eraseRequest]
  dsimp only
  by_cases hm : m' = m
  · subst hm
    rw [Function.update_self, Ledger.lookup_erase_ite]
    simp only [true_and]
  · rw [Function.update_of_ne hm, if_neg fun h => hm h.1]

theorem same_setRequest : Same s (setRequest s m id r) id where
  requests m' id' hne := by rw [lookup_setRequest, if_neg fun h => hne h.2]
  talks _ _ := rfl
  promises _ _ := rfl
  clients _ _ h := h

theorem promisesOf_insert (ps : List Bool) :
    promisesOf { s with promises := s.promises.insert id ps } id' =
      if id' = id then ps else promisesOf s id' := by
  rw [promisesOf, Ledger.lookup_insert_ite]
  split_ifs
  · rfl
  · rfl

theorem same_promises (ps : List Bool) :
    Same s { s with promises := s.promises.insert id ps } id where
  requests _ _ _ := rfl
  talks _ _ := rfl
  promises id' hne := by rw [promisesOf_insert, if_neg hne]
  clients _ _ h := h

theorem same_makePromises : Same s (makePromises s id n) id := same_promises _

theorem promisesOf_makePromises :
    promisesOf (makePromises s id n) id = promisesOf s id ++ List.replicate n false := by
  rw [makePromises, promisesOf_insert, if_pos rfl]

/-- A promise that is not fulfilled can be set. -/
theorem setValue_eq (h : (promisesOf s id)[j]? = some false) :
    setValue s id j =
      .done { s with promises := s.promises.insert id ((promisesOf s id).set j true) } :=
  if_pos h

/-- A request that is there can be cleaned. -/
theorem cleanRequest_eq (h : (s.requests m).lookup id = some r) (client : ClientId) :
    ∃ t, cleanRequest s m id client = .done t ∧ Same s t id ∧ t.talks = s.talks ∧
      t.promises = s.promises ∧ (t.requests m).lookup id = none ∧
        ∀ m', m' ≠ m → (t.requests m').lookup id = (s.requests m').lookup id := by
  have hsome : ((s.requests m).lookup id).isSome := by
    rw [h]
    rfl
  refine ⟨_, Exit.assert_of_pos hsome, ⟨?_, fun _ _ => rfl, fun _ _ => rfl, ?_⟩, rfl, rfl, ?_, ?_⟩
  · intro m' id' hne
    exact lookup_eraseRequest.trans (if_neg fun h => hne h.2)
  · intro c i hi
    dsimp only at hi
    split_ifs at hi
    · exact hi
    · obtain ⟨-, hi⟩ := Ledger.of_lookup_erase hi
      exact hi
  · exact lookup_eraseRequest.trans (if_pos ⟨rfl, rfl⟩)
  · intro m' hm
    exact lookup_eraseRequest.trans (if_neg fun h => hm h.1)

/-! ### Messages -/

/-- The talk is in another phase. -/
def reach (s : Adapter) (id : ID32) (talk : Talk) (p : Phase) : Adapter :=
  { s with talks := s.talks.insert id { talk with phase := p } }

theorem lookup_reach (p : Phase) :
    (reach s id talk p).talks.lookup id = some { talk with phase := p } :=
  AList.lookup_insert _

theorem same_reach (p : Phase) : Same s (reach s id talk p) id where
  requests _ _ _ := rfl
  talks _ hne := AList.lookup_insert_ne hne
  promises _ _ := rfl
  clients _ _ h := h

/-- The kernel has sent a message to which the talk goes on to a phase. -/
theorem advance_eq (htalk : s.talks.lookup id = some talk) {msg : Message} {p : Phase}
    (hnext : talk.phase.next talk.kind msg = some p) :
    advance s id msg = reach s id talk p := by
  rw [advance, htalk, Option.elim_some, hnext, Option.getD_some, reach]

theorem ne_over_of_next {msg : Message} {p : Phase}
    (hnext : talk.phase.next talk.kind msg = some p) : talk.phase ≠ .ended := by
  intro hover
  rw [hover, Phase.next] at hnext
  cases hnext

/-- A message for a request that was taken back. -/
theorem Inv.advance_away (h : Inv s) (htalk : s.talks.lookup id = some talk)
    (hphase : talk.phase ≠ .ended) (hr : (s.requests talk.kind.map).lookup id = none) (p : Phase) :
    Inv (reach s id talk p) := by
  have hleft : talk.left = true := by
    obtain hleft | ⟨hover, -⟩ := (h.each id).away talk htalk hr
    · exact hleft
    · exact absurd hover hphase
  refine h.change (same_reach p) ⟨fun m r hr' => ?_, fun talk' htalk' _ => ?_⟩
    fun talk' htalk' => ⟨talk, htalk, ?_⟩
  · obtain ⟨talk', htalk', hm, -⟩ := (h.each id).placed m r hr'
    cases htalk.symm.trans htalk'
    rw [hm] at hr
    cases hr.symm.trans hr'
  · cases (lookup_reach p).symm.trans htalk'
    exact .inl hleft
  · cases (lookup_reach p).symm.trans htalk'
    rfl

section Present

variable {p : Phase} (h : Inv s) (htalk : s.talks.lookup id = some talk)

include h htalk

/-- The request is in no other map. -/
theorem Inv.lookup_other (hm : m ≠ talk.kind.map) : (s.requests m).lookup id = none := by
  cases hr : (s.requests m).lookup id with
  | none => rfl
  | some r =>
    obtain ⟨talk', htalk', hm', -⟩ := (h.each id).placed m r hr
    cases htalk.symm.trans htalk'
    exact absurd hm'.symm hm

theorem Inv.fits (hr : (s.requests talk.kind.map).lookup id = some r) :
    (talk.kind = .get → r.command = .get) ∧ Fits talk.phase r (promisesOf s id) := by
  obtain ⟨talk', htalk', -, hrest⟩ := (h.each id).placed _ r hr
  cases htalk.symm.trans htalk'
  exact hrest

/-- **The talk goes on.** -/
theorem Inv.goOn (hsame : Same s t id)
    (htalk' : t.talks.lookup id = some { talk with phase := p })
    (hr : (t.requests talk.kind.map).lookup id = some r)
    (hother : ∀ m, m ≠ talk.kind.map →
      (t.requests m).lookup id = (s.requests m).lookup id)
    (hcommand : talk.kind = .get → r.command = .get) (hfits : Fits p r (promisesOf t id)) :
    Inv t := by
  refine h.change hsame ⟨fun m r' hr' => ?_, fun talk' ht hr' => ?_⟩ fun talk' ht => ?_
  · have hm : talk.kind.map = m := by
      by_contra hne
      rw [hother m (Ne.symm hne), h.lookup_other htalk (Ne.symm hne)] at hr'
      cases hr'
    rw [← hm, hr] at hr'
    cases hr'
    exact ⟨_, htalk', hm, hcommand, hfits⟩
  · cases htalk'.symm.trans ht
    cases hr.symm.trans hr'
  · cases htalk'.symm.trans ht
    exact ⟨talk, htalk, rfl⟩

/-- **The talk is over.** -/
theorem Inv.ended (hsame : Same s t id)
    (htalk' : t.talks.lookup id = some { talk with phase := .ended })
    (hr : (t.requests talk.kind.map).lookup id = none)
    (hother : ∀ m, m ≠ talk.kind.map →
      (t.requests m).lookup id = (s.requests m).lookup id)
    (hall : ∀ b ∈ promisesOf t id, b = true) : Inv t := by
  refine h.change hsame ⟨fun m r' hr' => ?_, fun talk' ht _ => ?_⟩ fun talk' ht => ?_
  · by_cases hm : m = talk.kind.map
    · rw [hm, hr] at hr'
      cases hr'
    · rw [hother m hm, h.lookup_other htalk hm] at hr'
      cases hr'
  · cases htalk'.symm.trans ht
    exact .inr ⟨rfl, hall⟩
  · cases htalk'.symm.trans ht
    exact ⟨talk, htalk, rfl⟩

/-- The last promise is set, and the request is cleaned. -/
theorem Inv.answer (hr : (s.requests talk.kind.map).lookup id = some r)
    (hps : promisesOf s id = progress j 1) (client : ClientId) :
    ∃ t, ((setValue (reach s id talk .ended) id j).andThen fun s =>
      cleanRequest s talk.kind.map id client) = .done t ∧ Inv t := by
  have hj : (promisesOf s id)[j]? = some false := by
    rw [hps, progress_getElem?]
  have hset : setValue (reach s id talk .ended) id j = .done { reach s id talk .ended with
      promises := s.promises.insert id ((promisesOf s id).set j true) } := setValue_eq hj
  obtain ⟨u, hu⟩ : ∃ u, u = { reach s id talk .ended with
      promises := s.promises.insert id ((promisesOf s id).set j true) } := ⟨_, rfl⟩
  have hsame : Same s u id := hu ▸ (same_reach .ended).trans (same_promises _)
  rw [hset, Exit.done_andThen, ← hu]
  have hr' : (u.requests talk.kind.map).lookup id = some r := by
    rw [hu]
    exact hr
  obtain ⟨t, ht, hclean, htalks, hpromises, hnone, hother⟩ := cleanRequest_eq hr' client
  refine ⟨t, ht, h.ended htalk (hsame.trans hclean) ?_ hnone (fun m hm => ?_) ?_⟩
  · rw [htalks, hu]
    exact lookup_reach .ended
  · rw [hother m hm, hu]
    rfl
  · rw [promisesOf, hpromises, hu, AList.lookup_insert, Option.getD_some, hps, progress_set]
    exact forall_progress _

/-- The request is cleaned, and its first promise is set. -/
theorem Inv.cleanFirst (hr : (s.requests talk.kind.map).lookup id = some r)
    (hps : promisesOf s id = progress 0 1) (client : ClientId) :
    ∃ t, ((cleanRequest (reach s id talk .ended) talk.kind.map id client).andThen fun s =>
      setValue s id 0) = .done t ∧ Inv t := by
  have hr' : ((reach s id talk .ended).requests talk.kind.map).lookup id = some r := hr
  obtain ⟨t, ht, hsame, htalks, hpromises, hnone, hother⟩ := cleanRequest_eq hr' client
  have hps' : promisesOf t id = progress 0 1 := by
    rw [promisesOf, hpromises]
    exact hps
  have hfalse : (promisesOf t id)[0]? = some false := by
    rw [hps', progress_getElem?]
  rw [ht, Exit.done_andThen, setValue_eq hfalse]
  refine ⟨_, rfl, h.ended htalk ((same_reach .ended).trans (hsame.trans (same_promises _))) ?_
    hnone hother ?_⟩
  · rw [htalks]
    exact lookup_reach .ended
  · rw [promisesOf_insert, if_pos rfl, hps', progress_set]
    exact forall_progress _

/-- A promise is set, and there are more. -/
theorem Inv.proceed (hsame : Same s u id)
    (htalk' : u.talks.lookup id = some { talk with phase := p })
    (hr : (u.requests talk.kind.map).lookup id = some r)
    (hother : ∀ m, m ≠ talk.kind.map →
      (u.requests m).lookup id = (s.requests m).lookup id)
    (hcommand : talk.kind = .get → r.command = .get) (hps : promisesOf u id = progress j (n + 1))
    (hfits : Fits p r (progress (j + 1) n)) : ∃ t, setValue u id j = .done t ∧ Inv t := by
  have hj : (promisesOf u id)[j]? = some false := by
    rw [hps, progress_getElem?]
  refine ⟨_, setValue_eq hj, h.goOn htalk (hsame.trans (same_promises _)) htalk' hr hother
    hcommand ?_⟩
  rw [promisesOf_insert, if_pos rfl, hps, progress_set]
  exact hfits

/-- The request gets new promises, and one is set. -/
theorem Inv.proceedWith (hm : m = talk.kind.map)
    (hcommand : talk.kind = .get → r.command = .get)
    (hps : promisesOf s id = progress j k) (hn : k + n = n' + 1)
    (hfits : Fits p r (progress (j + 1) n')) :
    ∃ t, setValue (makePromises (setRequest (reach s id talk p) m id r) id n) id j = .done t ∧
      Inv t := by
  refine h.proceed htalk ((same_reach p).trans (same_setRequest.trans same_makePromises))
    (lookup_reach p) (lookup_setRequest.trans (if_pos ⟨hm.symm, rfl⟩))
    (fun m' hm' => lookup_setRequest.trans (if_neg fun h => hm' (h.1.trans hm))) hcommand ?_ hfits
  have hps' : promisesOf (setRequest (reach s id talk p) m id r) id = progress j k := hps
  rw [promisesOf_makePromises, hps', progress_append, hn]

/-- Data comes: the whole of it, or a chunk. -/
theorem Inv.getData (hok : ((s.requests .get).lookup id).isSome)
    (hnext : talk.phase.next talk.kind .getData = some p) :
    ∃ t, sendGetResponse (reach s id talk p) id = .done t ∧ Inv t := by
  obtain ⟨hkind, hstep⟩ := Phase.next_cases hnext
  obtain ⟨r, hr⟩ := Option.isSome_iff_exists.mp hok
  have hr' : (s.requests talk.kind.map).lookup id = some r := by
    rw [hkind]
    exact hr
  have hreach : ((reach s id talk p).requests .get).lookup id = some r := hr
  obtain ⟨hcommand, hfits⟩ := h.fits htalk hr'
  rw [sendGetResponse, hreach]
  obtain ⟨hphase, rfl⟩ | ⟨n, k, hphase, hk, rfl⟩ := hstep
  · rw [hphase] at hfits
    obtain ⟨hstream, -, hps⟩ := hfits
    dsimp only
    rw [hstream]
    have hanswer := h.answer htalk hr' hps r.clientId
    rw [hkind] at hanswer
    exact hanswer
  · rw [hphase] at hfits
    obtain ⟨-, hstream, hcur, hps⟩ := hfits
    have hcurrent : (List.range' 1 n)[r.curStreamChunk]? = some (k + 1) := by
      rw [hcur, List.getElem?_range' hk, Nat.one_mul, Nat.add_comm]
    dsimp only
    rw [hstream]
    dsimp only
    rw [Exit.assert_of_pos (by rw [hcur, List.length_range']; exact hk), sendStreamingChunk,
      hcurrent]
    refine h.proceed htalk ((same_reach _).trans same_setRequest) (lookup_reach _)
      (lookup_setRequest.trans (if_pos ⟨congrArg _ hkind, rfl⟩))
      (fun m hm => lookup_setRequest.trans (if_neg fun h => hm ?_)) hcommand
      (n := n - (k + 1)) ?_ ?_
    · rw [h.1, hkind]
      rfl
    · refine hps.trans (congrArg _ ?_)
      omega
    · exact ⟨hk, hstream, congrArg (· + 1) hcur, rfl⟩

/-- A media file is about to be sent. -/
theorem Inv.prepareStreaming {chunkCount : ℕ} (hok : chunkCount < 2 ^ 32)
    (hnext : talk.phase.next talk.kind (.prepareStreaming chunkCount) = some p) :
    ∃ t, handleStreamingPrepare (reach s id talk p) id chunkCount = .done t ∧ Inv t := by
  obtain ⟨hkind, hphase, rfl⟩ := Phase.next_cases hnext
  have hmap : Map.get = talk.kind.map := by
    rw [hkind]
    rfl
  have hreach : ((reach s id talk (.streaming chunkCount 0)).requests .get).lookup id =
      (s.requests talk.kind.map).lookup id := congrArg (fun m => (s.requests m).lookup id) hmap
  rw [handleStreamingPrepare, hreach]
  cases hr : (s.requests talk.kind.map).lookup id with
  | none => exact ⟨_, rfl, h.advance_away htalk (ne_over_of_next hnext) hr _⟩
  | some r =>
    obtain ⟨hcommand, hfits⟩ := h.fits htalk hr
    rw [hphase] at hfits
    obtain ⟨-, hcur, hps⟩ := hfits
    have hreached : promisesOf (reach s id talk (.streaming chunkCount 0)) id = progress 0 1 := hps
    dsimp only
    rw [Exit.assert_of_pos (hcommand hkind), Nat.mod_eq_of_lt hok, hreached, length_progress]
    refine h.proceedWith htalk hmap hcommand hps (Nat.add_comm _ _) ?_
    exact ⟨Nat.zero_le _, rfl, hcur, rfl⟩

/-- The first answer for a livestream: the start of it, or its first content. -/
theorem Inv.startStream (hm : m = talk.kind.map) (hcommand : talk.kind = .get → r.command = .get)
    (hps : promisesOf s id = progress 0 1) :
    ∃ t, setValue (makeStreamPromise (reach s id talk .live) m id r) id 0 = .done t ∧ Inv t := by
  have hreached : promisesOf (reach s id talk .live) id = progress 0 1 := hps
  rw [makeStreamPromise, hreached, length_progress]
  exact h.proceedWith htalk hm hcommand hps rfl ⟨0, rfl, rfl⟩

/-- Content comes. -/
theorem Inv.livestreamContent {size : ℕ}
    (hok : ((s.requests .get).lookup id).isSome → size ≠ 0)
    (hnext : talk.phase.next talk.kind (.livestreamContent size) = some p) :
    ∃ t, sendLivestreamContent (reach s id talk p) id size = .done t ∧ Inv t := by
  obtain ⟨hkind, hphase, rfl⟩ := Phase.next_cases hnext
  have hmap : Map.get = talk.kind.map := by
    rw [hkind]
    rfl
  have hreach : ((reach s id talk .live).requests .get).lookup id =
      (s.requests talk.kind.map).lookup id := congrArg (fun m => (s.requests m).lookup id) hmap
  rw [sendLivestreamContent, hreach]
  cases hr : (s.requests talk.kind.map).lookup id with
  | none => exact ⟨_, rfl, h.advance_away htalk (ne_over_of_next hnext) hr _⟩
  | some r =>
    obtain ⟨hcommand, hfits⟩ := h.fits htalk hr
    have hsize : 0 ≠ size := by
      refine (hok ?_).symm
      rw [hmap, hr]
      rfl
    dsimp only
    rw [Exit.assert_of_pos hsize]
    obtain hphase | hphase := hphase
    · rw [hphase] at hfits
      obtain ⟨hstream, -, hps⟩ := hfits
      rw [hstream]
      exact h.startStream htalk hmap hcommand hps
    · rw [hphase] at hfits
      obtain ⟨j, hstream, hps⟩ := hfits
      have hreached : promisesOf (reach s id talk .live) id = progress (j + 1) 1 := hps
      have hone : [j + 1].length = 1 := rfl
      rw [hstream]
      dsimp only
      rw [Exit.assert_of_pos hone, List.getElem?_cons_zero, Exit.orThrow, makeStreamPromise,
        hreached,
        length_progress]
      exact h.proceedWith htalk hmap hcommand hps rfl ⟨j + 1, rfl, rfl⟩

/-- A livestream is offered. -/
theorem Inv.saveStreamOffer (hnext : talk.phase.next talk.kind .saveStreamOffer = some p) :
    ∃ t, sendSaveStreamResponse (reach s id talk p) id = .done t ∧ Inv t := by
  obtain ⟨hkind, hphase, rfl⟩ := Phase.next_cases hnext
  have hmap : Map.save = talk.kind.map := by
    rw [hkind]
    rfl
  have hreach : ((reach s id talk .live).requests .save).lookup id =
      (s.requests talk.kind.map).lookup id := congrArg (fun m => (s.requests m).lookup id) hmap
  rw [sendSaveStreamResponse, hreach]
  cases hr : (s.requests talk.kind.map).lookup id with
  | none => exact ⟨_, rfl, h.advance_away htalk (ne_over_of_next hnext) hr _⟩
  | some r =>
    obtain ⟨hcommand, hfits⟩ := h.fits htalk hr
    rw [hphase] at hfits
    exact h.startStream htalk hmap hcommand hfits.2.2

/-- A livestream ends, or there is none. -/
theorem Inv.livestreamFail (hm : m = talk.kind.map)
    (hphase : talk.phase = .asked ∨ talk.phase = .live) :
    ∃ t, handleLivestreamFail (reach s id talk .ended) m id = .done t ∧ Inv t := by
  have hreach : ((reach s id talk .ended).requests m).lookup id =
      (s.requests talk.kind.map).lookup id := congrArg (fun m => (s.requests m).lookup id) hm
  rw [handleLivestreamFail, hreach]
  cases hr : (s.requests talk.kind.map).lookup id with
  | none =>
    refine ⟨_, rfl, h.advance_away htalk ?_ hr _⟩
    obtain hphase | hphase := hphase
    · rw [hphase]
      exact Phase.noConfusion
    · rw [hphase]
      exact Phase.noConfusion
  | some r =>
    obtain ⟨-, hfits⟩ := h.fits htalk hr
    dsimp only
    rw [sendLivestreamCancelToClient, hm]
    obtain hphase | hphase := hphase
    · rw [hphase] at hfits
      obtain ⟨hstream, -, hps⟩ := hfits
      rw [hstream]
      exact h.answer htalk hr hps 0
    · rw [hphase] at hfits
      obtain ⟨j, hstream, hps⟩ := hfits
      rw [hstream]
      exact h.answer htalk hr hps 0

/-- A get fails before its first answer. -/
theorem Inv.getFail (hok : ∀ r ∈ (s.requests .get).lookup id, r.streamPromises = none)
    (hnext : talk.phase.next talk.kind .getFail = some p) :
    ∃ t, handleGetFail (reach s id talk p) id = .done t ∧ Inv t := by
  obtain ⟨hkind, rfl⟩ := Phase.next_cases hnext
  have hmap : Map.get = talk.kind.map := by
    rw [hkind]
    rfl
  have hreach : ((reach s id talk .ended).requests .get).lookup id =
      (s.requests talk.kind.map).lookup id := congrArg (fun m => (s.requests m).lookup id) hmap
  rw [handleGetFail, hreach]
  cases hr : (s.requests talk.kind.map).lookup id with
  | none => exact ⟨_, rfl, h.advance_away htalk (ne_over_of_next hnext) hr _⟩
  | some r =>
    obtain ⟨-, hfits⟩ := h.fits htalk hr
    have hps := hfits.of_none (hok r (hmap ▸ hr))
    rw [hmap]
    exact h.answer htalk hr hps r.clientId

/-- A request is answered. -/
theorem Inv.plainAnswer (hnext : talk.phase.next talk.kind (.answer m) = some p) :
    ∃ t, handleAnswer (reach s id talk p) m id = .done t ∧ Inv t := by
  obtain ⟨hkind, hphase, rfl⟩ := Phase.next_cases hnext
  have hmap : m = talk.kind.map := by
    rw [hkind]
    rfl
  have hreach : ((reach s id talk .ended).requests m).lookup id =
      (s.requests talk.kind.map).lookup id := congrArg (fun m => (s.requests m).lookup id) hmap
  rw [handleAnswer, hreach]
  cases hr : (s.requests talk.kind.map).lookup id with
  | none => exact ⟨_, rfl, h.advance_away htalk (ne_over_of_next hnext) hr _⟩
  | some r =>
    obtain ⟨-, hfits⟩ := h.fits htalk hr
    rw [hphase] at hfits
    rw [hmap]
    exact h.answer htalk hr hfits.2.2 0

/-- The kernel does not know a request. -/
theorem Inv.failed (hok : ∃ r ∈ (s.requests talk.kind.map).lookup id, r.streamPromises = none)
    (hnext : talk.phase.next talk.kind .failed = some p) :
    ∃ t, handleMetaxFail (reach s id talk p) id = .done t ∧ Inv t := by
  obtain rfl := Phase.next_cases hnext
  obtain ⟨r, hr, hstream⟩ := hok
  obtain ⟨-, hfits⟩ := h.fits htalk hr
  have hclean := h.cleanFirst htalk hr (hfits.of_none hstream)
  have hlookup {m : Map} : ((reach s id talk .ended).requests m).lookup id =
      (s.requests m).lookup id := rfl
  rw [handleMetaxFail, hlookup, hlookup]
  cases hmap : talk.kind.map with
  | get =>
    rw [hmap] at hr hclean
    rw [hr]
    exact hclean r.clientId
  | save =>
    have hget : (s.requests .get).lookup id = none :=
      h.lookup_other htalk (by rw [hmap]; exact Map.noConfusion)
    rw [hmap] at hr hclean
    rw [hget, hr]
    exact hclean 0
  | config =>
    have hget : (s.requests .get).lookup id = none :=
      h.lookup_other htalk (by rw [hmap]; exact Map.noConfusion)
    have hsave : (s.requests .save).lookup id = none :=
      h.lookup_other htalk (by rw [hmap]; exact Map.noConfusion)
    rw [hmap] at hclean
    rw [hget, hsave]
    exact hclean 0

/-- **A message is handled.** -/
theorem Inv.message {msg : Message} (hok : MessageOk s id msg)
    (hnext : talk.phase.next talk.kind msg = some p) :
    ∃ t, processMetaxInput (reach s id talk p) id msg = .done t ∧ Inv t := by
  cases msg with
  | getData => exact h.getData htalk hok hnext
  | prepareStreaming chunkCount => exact h.prepareStreaming htalk hok hnext
  | livestreamContent size => exact h.livestreamContent htalk hok hnext
  | getFail => exact h.getFail htalk hok hnext
  | getLivestreamFail =>
    obtain ⟨hkind, hphase, rfl⟩ := Phase.next_cases hnext
    exact h.livestreamFail htalk (by rw [hkind]; rfl) hphase
  | saveStreamOffer => exact h.saveStreamOffer htalk hnext
  | saveStreamFail =>
    obtain ⟨hkind, hphase, rfl⟩ := Phase.next_cases hnext
    exact h.livestreamFail htalk (by rw [hkind]; rfl) hphase
  | answer m => exact h.plainAnswer htalk hnext
  | failed =>
    obtain ⟨talk', htalk', hr⟩ := hok
    cases htalk.symm.trans htalk'
    exact h.failed htalk hr hnext

end Present

/-! ### Clients -/

/-- **A client leaves.** -/
theorem Inv.clean (h : Inv s) (hid : s.clientToRequest.lookup client = some id)
    (hr : (s.requests m).lookup id = some r) : Inv (clean s m id client) := by
  obtain ⟨talk, htalk, hm, -⟩ := (h.each id).placed m r hr
  have hclient := h.mapped client id talk hid htalk
  obtain ⟨t, ht, hsame, htalks, -, hnone, hother⟩ := cleanRequest_eq hr client
  have hclean : WebApi.clean s m id client =
      { t with talks := t.talks.insert id { talk with left := true } } := by
    have hleft : (talk.left || decide (talk.client = some client)) = true := by
      rw [hclient, decide_eq_true rfl, Bool.or_true]
    rw [WebApi.clean, ht, Exit.state, Option.getD_some, leave, htalks, htalk, Option.elim_some,
      hleft]
  have hlookup : (t.talks.insert id { talk with left := true }).lookup id =
      some { talk with left := true } := AList.lookup_insert _
  rw [hclean]
  refine h.change ⟨hsame.requests, fun id' hne => ?_, hsame.promises, hsame.clients⟩
    ⟨fun m' r' hr' => ?_, fun talk' htalk' _ => ?_⟩ fun talk' htalk' => ?_
  · exact (AList.lookup_insert_ne hne).trans (hsame.talks id' hne)
  · by_cases hm' : m' = m
    · rw [hm'] at hr'
      cases hnone.symm.trans hr'
    · have hne : m' ≠ talk.kind.map := fun heq => hm' (heq.trans hm)
      cases (h.lookup_other htalk hne).symm.trans ((hother m' hm').symm.trans hr')
  · cases hlookup.symm.trans htalk'
    exact .inl rfl
  · cases hlookup.symm.trans htalk'
    exact ⟨talk, htalk, rfl⟩

theorem Inv.cleanStreaming (h : Inv s) (client : ClientId) :
    Inv (cleanStreamingRequest s client) := by
  rw [cleanStreamingRequest]
  cases hid : s.clientToRequest.lookup client with
  | none => exact h
  | some id =>
    rw [Option.elim_some]
    split_ifs with hsome
    · obtain ⟨r, hr⟩ := Option.isSome_iff_exists.mp hsome
      exact h.clean hid hr
    · exact h

theorem Inv.cancelLivestream (h : Inv s) (client : ClientId) :
    Inv (cancelLivestream s client) := by
  rw [WebApi.cancelLivestream]
  cases hid : s.clientToRequest.lookup client with
  | none => exact h
  | some id =>
    rw [Option.elim_some]
    split_ifs with hsome
    · obtain ⟨r, hr⟩ := Option.isSome_iff_exists.mp hsome
      exact h.clean hid hr
    · refine ⟨fun id => ⟨(h.each id).placed, (h.each id).away⟩, fun c i talk hi htalk => ?_⟩
      have hlookup : (s.clientToRequest.erase client).lookup c = some i := hi
      obtain ⟨-, hlookup⟩ := Ledger.of_lookup_erase hlookup
      exact h.mapped c i talk hlookup htalk

theorem Unused.lookup (h : Unused s id) (m : Map) : (s.requests m).lookup id = none := by
  obtain ⟨⟨hget, hsave, hconfig⟩, -⟩ := h
  cases m with
  | get => exact hget
  | save => exact hsave
  | config => exact hconfig

theorem Unused.unmapped (h : Unused s id) {c : ClientId} :
    s.clientToRequest.lookup c ≠ some id :=
  fun hc => Ledger.all_iff.mp h.2.2 c id hc rfl

theorem lookup_insertNew {κ α : Type} [DecidableEq κ] {a b : κ} {x y : α} {l : Ledger.Table κ α}
    (h : (insertNew l a x).lookup b = some y) : l.lookup b = some y ∨ b = a ∧ y = x := by
  rw [insertNew] at h
  split_ifs at h
  · exact .inl h
  · obtain ⟨hb, rfl⟩ | ⟨-, h⟩ := Ledger.eq_or_of_lookup_insert h
    · exact .inr ⟨hb, rfl⟩
    · exact .inl h

theorem lookup_insertRequest (hunused : Unused s (generateRequestId s).1)
    {c : Option ClientId} :
    ((insertRequest s m r c).requests m').lookup id =
      if m' = m ∧ id = (generateRequestId s).1 then some r else (s.requests m').lookup id := by
  rw [insertRequest]
  dsimp only
  by_cases hm : m' = m
  · subst hm
    rw [Function.update_self, insertNew, hunused.lookup, Option.isSome_none, if_neg (by decide),
      Ledger.lookup_insert_ite]
    simp only [true_and]
  · rw [Function.update_of_ne hm, if_neg fun h => hm h.1]

/-- **A new request.** -/
theorem Inv.request (h : Inv s) (hunused : Unused s (generateRequestId s).1) (kind : Kind)
    (command : Command) (hcommand : kind = .get → command = .get) (clientId : ClientId)
    (c : Option ClientId) :
    Inv (wait (insertRequest s kind.map (.new command clientId) c) (generateRequestId s).1 kind
      c) := by
  obtain ⟨id, hid⟩ : ∃ id, id = (generateRequestId s).1 := ⟨_, rfl⟩
  rw [← hid] at hunused ⊢
  obtain ⟨t, ht⟩ : ∃ t, t = wait (insertRequest s kind.map (.new command clientId) c) id kind c :=
    ⟨_, rfl⟩
  -- the tables after the step, read at one id
  have hrequests (m : Map) (id' : ID32) : (t.requests m).lookup id' =
      if m = kind.map ∧ id' = id then some (.new command clientId)
      else (s.requests m).lookup id' := by
    rw [ht, hid]
    exact lookup_insertRequest (c := c) (hid ▸ hunused)
  have htalks (id' : ID32) : t.talks.lookup id' =
      if id' = id then some ⟨kind, c, .asked, false⟩ else s.talks.lookup id' := by
    rw [ht]
    exact Ledger.lookup_insert_ite
  have hpromises (id' : ID32) : promisesOf t id' =
      if id' = id then [false] else promisesOf s id' := by
    rw [ht]
    exact promisesOf_insert _
  -- a client is mapped to a new id only if it is the one that asks
  have hclients {c' : ClientId} {i : ID32} (hi : t.clientToRequest.lookup c' = some i) :
      s.clientToRequest.lookup c' = some i ∨ c = some c' ∧ i = id := by
    rw [ht] at hi
    cases c with
    | none => exact .inl hi
    | some c =>
      rw [hid]
      exact (lookup_insertNew hi).imp_right fun hnew => ⟨congrArg some hnew.1.symm, hnew.2⟩
  rw [← ht]
  constructor
  -- at the new id there is a request and a talk; at the others nothing has changed
  · intro id'
    by_cases hid' : id' = id
    · constructor
      · intro m r hr
        rw [hrequests] at hr
        split_ifs at hr with hm
        · cases hr
          refine ⟨_, (htalks id').trans (if_pos hid'), hm.1.symm, hcommand, rfl, rfl, ?_⟩
          rw [hpromises, if_pos hid']
          rfl
        · rw [hid', hunused.lookup] at hr
          cases hr
      · intro talk htalk hr
        rw [htalks, if_pos hid'] at htalk
        cases htalk
        rw [hrequests, if_pos ⟨rfl, hid'⟩] at hr
        cases hr
    · obtain ⟨hplaced, haway⟩ := h.each id'
      have hne (m : Map) : ¬ (m = kind.map ∧ id' = id) := fun h => hid' h.2
      constructor
      · intro m r hr
        rw [hrequests, if_neg (hne m)] at hr
        rw [htalks, if_neg hid', hpromises, if_neg hid']
        exact hplaced m r hr
      · intro talk htalk hr
        rw [htalks, if_neg hid'] at htalk
        rw [hrequests, if_neg (hne _)] at hr
        rw [hpromises, if_neg hid']
        exact haway talk htalk hr
  -- a client's id is its own: an older one is not the new id
  · intro c' i talk hi htalk
    rw [htalks] at htalk
    obtain hi | ⟨hc, hi⟩ := hclients hi
    · have hne : i ≠ id := fun heq => hunused.unmapped (heq ▸ hi)
      rw [if_neg hne] at htalk
      exact h.mapped c' i talk hi htalk
    · rw [if_pos hi] at htalk
      cases htalk
      exact hc

/-- A get of what is no uuid leaves nothing behind. -/
theorem Inv.invalid (h : Inv s) (hunused : Unused s (generateRequestId s).1)
    (client : ClientId) : Inv (handleGetRequest s client false) := by
  obtain ⟨u, hu⟩ : ∃ u, u = insertRequest s .get (.new .get client) (some client) := ⟨_, rfl⟩
  have hlookup (m : Map) (id : ID32) : (u.requests m).lookup id =
      if m = .get ∧ id = (generateRequestId s).1 then some (.new .get client)
      else (s.requests m).lookup id := by
    rw [hu]
    exact lookup_insertRequest hunused
  have hsome : ((u.requests .get).lookup (generateRequestId s).1).isSome := by
    rw [hlookup, if_pos ⟨rfl, rfl⟩]
    rfl
  have hclean : handleGetRequest s client false =
      { eraseRequest u .get (generateRequestId s).1 with
        clientToRequest := u.clientToRequest.erase client } := by
    rw [handleGetRequest, ← hu]
    dsimp only
    rw [if_neg Bool.false_ne_true, cleanRequest, Exit.assert_of_pos hsome]
    rfl
  have hrequests (m : Map) (id : ID32) :
      ((handleGetRequest s client false).requests m).lookup id = (s.requests m).lookup id := by
    rw [hclean]
    refine lookup_eraseRequest.trans ?_
    split_ifs with hm
    · rw [hm.2, hunused.lookup]
    · rw [hlookup, if_neg hm]
  have htalks : (handleGetRequest s client false).talks = s.talks := by
    rw [hclean, hu]
    rfl
  have hpromises (id : ID32) : promisesOf (handleGetRequest s client false) id =
      promisesOf s id := by
    rw [hclean, hu]
    rfl
  constructor
  · intro id
    obtain ⟨hplaced, haway⟩ := h.each id
    constructor
    · intro m r hr
      rw [hrequests] at hr
      rw [htalks, hpromises]
      exact hplaced m r hr
    · intro talk htalk hr
      rw [htalks] at htalk
      rw [hrequests] at hr
      rw [hpromises]
      exact haway talk htalk hr
  · intro c id talk hid htalk
    rw [htalks] at htalk
    rw [hclean] at hid
    obtain ⟨hc, hid⟩ := Ledger.of_lookup_erase hid
    rw [hu] at hid
    obtain hid | ⟨heq, -⟩ := lookup_insertNew hid
    · exact h.mapped c id talk hid htalk
    · exact absurd heq hc

/-! ### Runs -/

/-- **Step lemma.** -/
theorem inv_step {e : Event} (h : Inv s) (hsends : Sends s e) (hok : Ok s e) :
    ∃ t, step s e = some t ∧ Inv t := by
  cases e with
  | getRequest client valid =>
    refine ⟨_, rfl, ?_⟩
    cases valid with
    | true => exact h.request hok .get .get (fun _ => rfl) client (some client)
    | false => exact h.invalid hok client
  | saveStreamRequest client =>
    exact ⟨_, rfl, h.request hok .saveStream .maxCommand Kind.noConfusion 0 (some client)⟩
  | request m command =>
    exact ⟨_, rfl, h.request hok (.plain m) command Kind.noConfusion 0 none⟩
  | cleanStreaming client => exact ⟨_, rfl, h.cleanStreaming client⟩
  | cancelLivestreamGet client => exact ⟨_, rfl, h.cleanStreaming client⟩
  | cancelLivestream client => exact ⟨_, rfl, h.cancelLivestream client⟩
  | message id msg =>
    obtain ⟨talk, htalk, hnext⟩ := hsends
    obtain ⟨p, hp⟩ := Option.isSome_iff_exists.mp hnext
    obtain ⟨t, ht, hinv⟩ := h.message htalk hok hp
    refine ⟨t, ?_, hinv⟩
    rw [step, advance_eq htalk hp, ht]
    rfl

/-- **All requests are answered** along every run that meets the condition: every message is handled
to the end, no promise being set twice, and afterwards every state is settled. -/
theorem answered_run (es : List Event) (hsends : Run.Along step Sends .init es)
    (hok : Run.Along step Ok .init es) :
    ∃ s, Run.run step .init es = some s ∧ Settled s := by
  have hboth := hsends.and hok
  have hsome : (Run.run step .init es).isSome :=
    Run.isSome_of_along Inv (fun s e h hboth => inv_step h hboth.1 hboth.2) inv_init hboth
  obtain ⟨s, hs⟩ := Option.isSome_iff_exists.mp hsome
  refine ⟨s, hs, (Run.invariant_of_run Inv (fun s e t h hboth ht => ?_) inv_init hboth hs).settled⟩
  obtain ⟨t', ht', hinv⟩ := inv_step h hboth.1 hboth.2
  exact Option.some.inj (ht.symm.trans ht') ▸ hinv

/-- A client gets a media file of two chunks, and another one listens to a livestream that ends. The
first one leaves when it has got both chunks. -/
def streams : List Event :=
  [.getRequest 5 true, .getRequest 6 true, .message 0 (.prepareStreaming 2), .message 0 .getData,
    .message 1 (.livestreamContent 9), .message 0 .getData, .cleanStreaming 5,
    .message 1 (.livestreamContent 9), .message 1 .getLivestreamFail]

theorem answered_streams : ∃ s, Run.run step .init streams = some s ∧ Settled s :=
  answered_run streams (by decide) (by decide)

/-- **A get fails between chunks.** Its first promise is set again, which throws, and nothing is
done about the chunk that its client waits for. -/
theorem not_answered : ¬ ∀ es, Run.Along step Sends .init es →
    ∃ s, Run.run step .init es = some s ∧ Settled s := by
  intro h
  obtain ⟨s, hs, -⟩ := h [.getRequest 5 true, .message 0 (.prepareStreaming 2), .message 0 .getData,
    .message 0 .getFail] (by decide)
  have hnone : Run.run step .init [.getRequest 5 true, .message 0 (.prepareStreaming 2),
    .message 0 .getData, .message 0 .getFail] = none := by decide
  rw [hnone] at hs
  cases hs

end WebApi

end Metax
