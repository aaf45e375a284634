import Metax.KeyManager.Answers
import Metax.Sharing.Data

/-!
# What is under way when objects are shared

Every request that waits has one message on its way, to the key manager or back from it, and the
message belongs to it (`Tracked`). What is known of the keys in these messages is left open: a
`Flow` says which keys an object has, what of them is given to others, and what this node may be
given. `Tracked.step` needs of the key manager that it turns the one into the other.

Each request of the IMS has one answer or waits (`answered_or_waiting`), and when nothing is on its
way and the key manager has answered everything, none waits (`answered_of_settled`).
-/

namespace Metax

namespace Sharing

open KeyManager (Libs Faults Message handleKernelInput processKernelInput reencryption
  keyDecryption)

variable {C : Type} {k k' : Kernel} {n n' : Node C} {m x : Message} {id ims i : ID32} {r : Request}
  {p : ImsPackage} {L : Libs C} {F : Faults} {t t' : KeyManager.State C}

/-! ### Keys -/

/-- What is known of keys: `made` are those of an object, `given` what is made of them for a public
key, and `mine` what this node may be given. `total` says that the key manager answers whatever it
is asked. -/
structure Flow where
  made : UUID → Text → Text → Prop
  given : Option Text → UUID → Text → Text → Prop
  mine : UUID → Text → Text → Prop
  total : Prop

/-- What it says without a look at the keys. -/
def Flow.any (total : Prop) : Flow :=
  ⟨fun _ _ _ => True, fun _ _ _ _ => True, fun _ _ _ => True, total⟩

/-- The key manager turns the keys of an object into what is given, and back. What is not encrypted
has no key on either side. -/
structure Flow.Sound (f : Flow) (L : Libs C) (t : KeyManager.State C) : Prop where
  reencryption : ∀ m x u, reencryption L m = .ok x → f.made u m.aesKey m.aesIv →
    x.aesKey ≠ [] ∧ x.aesIv ≠ [] → f.given m.message u x.aesKey x.aesIv
  keyDecryption : ∀ m x u, keyDecryption L t m = .ok x → f.mine u m.aesKey m.aesIv →
    f.made u x.aesKey x.aesIv

theorem Flow.sound_any {total : Prop} : (Flow.any total).Sound L t :=
  ⟨fun _ _ _ _ _ _ => trivial, fun _ _ _ _ _ => trivial⟩

/-! ### Messages on their way -/

/-- A share request of the IMS. -/
def Asked (asked : List ImsPackage) (ims : ID32) (uuid : UUID) (message : Option Text) : Prop :=
  ∃ q ∈ asked, q.cmd = .share ∧ q.requestId = ims ∧ q.uuid = uuid ∧ q.message = message

/-- What the key manager is asked for a request. -/
inductive Order (f : Flow) (asked : List ImsPackage) (r : Request) (ims : ID32) (m : Message) : Prop
  | share (hr : r.cmd = .share) (hm : m.cmd = .reencryptKey)
      (hkey : f.made r.uuid m.aesKey m.aesIv) (hasked : Asked asked ims r.uuid m.message)
  | accept (hr : r.cmd = .acceptShare) (hm : m.cmd = .decryptKey)
      (hkey : f.mine r.uuid m.aesKey m.aesIv)

/-- What comes back. -/
inductive Reply (f : Flow) (asked : List ImsPackage) (r : Request) (ims : ID32) (m : Message) : Prop
  | reencrypted (hr : r.cmd = .share) (hm : m.cmd = .reencryptedKey) {message : Option Text}
      (hkey : m.aesKey ≠ [] ∧ m.aesIv ≠ [] → f.given message r.uuid m.aesKey m.aesIv)
      (hasked : Asked asked ims r.uuid message)
  | notReencrypted (hr : r.cmd = .share) (hm : m.cmd = .reencryptionFail)
  | decrypted (hr : r.cmd = .acceptShare) (hm : m.cmd = .decrypted)
      (hkey : f.made r.uuid m.aesKey m.aesIv)
  | notDecrypted (hr : r.cmd = .acceptShare) (hm : m.cmd = .decryptionFail)

/-- A message belongs to a request. -/
def Belongs (P : Request → ID32 → Message → Prop) (k : Kernel) (m : Message) : Prop :=
  ∃ r ims, k.requests.lookup m.requestId = some r ∧ k.imsReqIds.lookup m.requestId = some ims ∧
    P r ims m

/-- The requests that wait for an answer to an id of the IMS. -/
def Kernel.waiting (k : Kernel) (i : ID32) : ℕ :=
  Ledger.total (fun _ ims => if ims = i then 1 else 0) k.imsReqIds

/-- How often an id was answered, or waits. -/
def Kernel.served (k : Kernel) (i : ID32) : ℕ :=
  (k.toIms.map ImsPackage.requestId).count i + k.waiting i

/-- Every request that waits has a message on its way. -/
def Underway (n : Node C) : Prop :=
  ∀ id ims, n.kernel.imsReqIds.lookup id = some ims →
    ∃ m ∈ n.kernel.toKeyManager ++ n.keyManager.out, m.requestId = id

/-- **What is under way.** -/
structure Tracked (f : Flow) (n : Node C) : Prop where
  balance : ∀ i, n.kernel.served i = (n.kernel.asked.map ImsPackage.requestId).count i
  nodup : ((n.kernel.toKeyManager ++ n.keyManager.out).map Message.requestId).Nodup
  orders : ∀ m ∈ n.kernel.toKeyManager, Belongs (Order f n.kernel.asked) n.kernel m
  replies : ∀ m ∈ n.keyManager.out, Belongs (Reply f n.kernel.asked) n.kernel m
  owned : ∀ u o, n.kernel.ownedData.lookup u = some o → f.made u o.aesKey o.aesIv
  confirms : ∀ c ∈ n.kernel.toIms, c.cmd = .shareConfirm → ∃ message,
    Asked n.kernel.asked c.requestId c.uuid message ∧ f.given message c.uuid c.aesKey c.aesIv
  underway : f.total → Underway n

/-! ### Looking at what is under way -/

theorem Asked.mono {asked : List ImsPackage} {u : UUID} {message : Option Text}
    (h : Asked asked ims u message) : Asked (asked ++ [p]) ims u message :=
  let ⟨q, hq, hfacts⟩ := h
  ⟨q, List.mem_append_left _ hq, hfacts⟩

theorem Order.mono {f : Flow} {asked : List ImsPackage} (h : Order f asked r ims m) :
    Order f (asked ++ [p]) r ims m := by
  cases h with
  | share hr hm hkey hasked => exact .share hr hm hkey hasked.mono
  | accept hr hm hkey => exact .accept hr hm hkey

theorem Reply.mono {f : Flow} {asked : List ImsPackage} (h : Reply f asked r ims m) :
    Reply f (asked ++ [p]) r ims m := by
  cases h with
  | reencrypted hr hm hkey hasked => exact .reencrypted hr hm hkey hasked.mono
  | notReencrypted hr hm => exact .notReencrypted hr hm
  | decrypted hr hm hkey => exact .decrypted hr hm hkey
  | notDecrypted hr hm => exact .notDecrypted hr hm

theorem Belongs.of_lookup {P Q : Request → ID32 → Message → Prop} (h : Belongs P k m)
    (hreq : k'.requests.lookup m.requestId = k.requests.lookup m.requestId)
    (hims : k'.imsReqIds.lookup m.requestId = k.imsReqIds.lookup m.requestId)
    (hP : ∀ r ims, P r ims m → Q r ims m) : Belongs Q k' m :=
  let ⟨r, ims, hr, hi, hp⟩ := h
  ⟨r, ims, hreq.trans hr, hims.trans hi, hP r ims hp⟩

/-- A message that belongs to a request has not the id of one that is not there. -/
theorem Belongs.ne {P : Request → ID32 → Message → Prop} (h : Belongs P k m)
    (hid : k.requests.lookup id = none) : m.requestId ≠ id := by
  rintro rfl
  obtain ⟨r, ims, hr, -⟩ := h
  rw [hid] at hr
  cases hr

/-- One more answer. -/
theorem count_append {c : ImsPackage} {l : List ImsPackage} :
    ((l ++ [c]).map ImsPackage.requestId).count i =
      (l.map ImsPackage.requestId).count i + if c.requestId = i then 1 else 0 := by
  rw [List.map_append, List.count_append, List.map_singleton, List.count_singleton]
  congr 1
  exact if_congr beq_iff_eq rfl rfl

/-- One more request that waits. -/
theorem waiting_note (hid : k.imsReqIds.lookup id = none) :
    (k.note id ims r).waiting i = k.waiting i + if ims = i then 1 else 0 :=
  Ledger.total_insert_of_notMem hid

/-- A request that waited has its answer. -/
theorem waiting_answer {c : ImsPackage} (hid : k.imsReqIds.lookup id = some ims) :
    (k.answer id c).waiting i + (if ims = i then 1 else 0) = k.waiting i := by
  have herase := Ledger.total_erase (w := fun _ ims => if ims = i then 1 else 0)
    (t := k.imsReqIds) (k := id)
  rwa [Ledger.weight_of_lookup hid] at herase

/-- Whoever is answered waited before. -/
theorem served_answer {c : ImsPackage} (hid : k.imsReqIds.lookup id = some ims)
    (hc : c.requestId = ims) : (k.answer id c).served i = k.served i := by
  have hwaiting := waiting_answer (i := i) (c := c) hid
  have hcount := count_append (i := i) (c := c) (l := k.toIms)
  rw [hc] at hcount
  change ((k.toIms ++ [c]).map ImsPackage.requestId).count i + (k.answer id c).waiting i = _
  rw [hcount, Kernel.served]
  omega

/-! ### Requests of the IMS -/

/-- An id is handed out once. -/
theorem getRequestId_eq_some (h : k.getRequestId = some (id, k')) :
    k.requests.lookup id = none ∧
      k' = { k with requestCounter := Deletion.nextCounter k.requestCounter } := by
  obtain ⟨⟨i, c⟩, hget, hk⟩ := Option.map_eq_some_iff.mp h
  obtain ⟨hfresh, rfl, rfl⟩ := Deletion.takeRequestId_eq_some.mp hget
  obtain ⟨rfl, rfl⟩ := Prod.mk.inj hk
  exact ⟨hfresh, rfl⟩

/-- A request that is answered at once leaves the others as they are. -/
theorem Tracked.answered {f : Flow} (h : Tracked f n) {c : ImsPackage}
    (horders : k'.toKeyManager = n.kernel.toKeyManager)
    (hasked : k'.asked = n.kernel.asked ++ [p]) (hims : k'.toIms = n.kernel.toIms ++ [c])
    (hc : c.requestId = p.requestId) (hwaiting : ∀ i, k'.waiting i = n.kernel.waiting i)
    (hkeep : ∀ id, n.kernel.requests.lookup id ≠ none →
      k'.requests.lookup id = n.kernel.requests.lookup id ∧
        k'.imsReqIds.lookup id = n.kernel.imsReqIds.lookup id)
    (hold : ∀ id ims, k'.imsReqIds.lookup id = some ims → n.kernel.imsReqIds.lookup id = some ims)
    (howned : ∀ u o, k'.ownedData.lookup u = some o → f.made u o.aesKey o.aesIv)
    (hconfirm : c.cmd = .shareConfirm → p.cmd = .share ∧ c.uuid = p.uuid ∧
      f.given p.message c.uuid c.aesKey c.aesIv) : Tracked f { n with kernel := k' } := by
  have hbelongs {P Q : Request → ID32 → Message → Prop} (hPQ : ∀ r ims m, P r ims m → Q r ims m)
      {m : Message} (hm : Belongs P n.kernel m) : Belongs Q k' m := by
    have hid : n.kernel.requests.lookup m.requestId ≠ none := fun hnone => hm.ne hnone rfl
    exact hm.of_lookup (hkeep _ hid).1 (hkeep _ hid).2 fun r ims => hPQ r ims m
  refine ⟨fun i => ?_, ?_, fun m hm => ?_, fun m hm => ?_, howned, fun c' hc' hcmd => ?_,
    fun htotal id ims hims => ?_⟩
  · have hbalance := h.balance i
    rw [Kernel.served] at hbalance ⊢
    rw [hasked, hims, count_append, count_append, hwaiting, hc]
    omega
  · rw [horders]
    exact h.nodup
  · rw [horders] at hm
    rw [hasked]
    exact hbelongs (fun _ _ _ => Order.mono) (h.orders m hm)
  · rw [hasked]
    exact hbelongs (fun _ _ _ => Reply.mono) (h.replies m hm)
  · rw [hasked]
    rw [hims] at hc'
    rcases List.mem_append.mp hc' with hold | hnew
    · obtain ⟨message, hmessage, hgiven⟩ := h.confirms c' hold hcmd
      exact ⟨message, hmessage.mono, hgiven⟩
    · obtain rfl := List.mem_singleton.mp hnew
      obtain ⟨hp, hu, hgiven⟩ := hconfirm hcmd
      exact ⟨p.message, ⟨p, List.mem_append_right _ List.mem_cons_self, hp, hc.symm, hu.symm, rfl⟩,
        hgiven⟩
  · rw [horders]
    exact h.underway htotal id ims (hold id ims hims)

/-- A request for which the key manager is asked. -/
theorem Tracked.ordered {f : Flow} (h : Tracked f n) {c : ID32}
    (hid : n.kernel.requests.lookup id = none) (hims : n.kernel.imsReqIds.lookup id = none)
    (hm : m.requestId = id) (hp : ims = p.requestId)
    (horder : Order f (n.kernel.asked ++ [p]) r ims m)
    (hk : k' = (Kernel.note { n.kernel with asked := n.kernel.asked ++ [p], requestCounter := c }
      id ims r).order m) : Tracked f { n with kernel := k' } := by
  -- what is under way belongs to requests of before, under other ids
  have hbelongs {P Q : Request → ID32 → Message → Prop} (hPQ : ∀ r ims m, P r ims m → Q r ims m)
      {m' : Message} (hm' : Belongs P n.kernel m') : Belongs Q k' m' := by
    subst hk
    exact hm'.of_lookup (AList.lookup_insert_ne (hm'.ne hid)) (AList.lookup_insert_ne (hm'.ne hid))
      fun r ims => hPQ r ims m'
  -- so none of it has the id of the new order
  have hnew : m.requestId ∉
      (n.kernel.toKeyManager ++ n.keyManager.out).map Message.requestId := by
    intro hmem
    obtain ⟨m', hm', heq⟩ := List.mem_map.mp hmem
    rcases List.mem_append.mp hm' with hm' | hm'
    · exact (h.orders m' hm').ne hid (heq.trans hm)
    · exact (h.replies m' hm').ne hid (heq.trans hm)
  -- the parts of `Tracked`, in their order
  refine ⟨fun i => ?_, ?_, fun m' hm' => ?_, fun m' hm' => ?_, ?_, fun c' hc' hcmd => ?_,
    fun htotal id' ims' hid' => ?_⟩
  -- one request more was made, and one more waits
  · subst hk
    have hbalance := h.balance i
    have hwaiting : (n.kernel.note id ims r).waiting i =
        n.kernel.waiting i + if ims = i then 1 else 0 := waiting_note hims
    rw [Kernel.served] at hbalance ⊢
    change _ + Kernel.waiting (n.kernel.note id ims r) i =
      ((n.kernel.asked ++ [p]).map ImsPackage.requestId).count i
    rw [hwaiting, count_append, ← hp]
    change (n.kernel.toIms.map ImsPackage.requestId).count i + _ = _
    omega
  · subst hk
    change ((n.kernel.toKeyManager ++ [m] ++ n.keyManager.out).map Message.requestId).Nodup
    have hperm : (m :: (n.kernel.toKeyManager ++ n.keyManager.out)).Perm
        (n.kernel.toKeyManager ++ [m] ++ n.keyManager.out) := by
      rw [List.append_assoc]
      exact List.perm_middle.symm
    exact (hperm.map _).nodup_iff.mp (List.nodup_cons.mpr ⟨hnew, h.nodup⟩)
  · subst hk
    rcases List.mem_append.mp hm' with hold | hlast
    · exact hbelongs (fun _ _ _ => Order.mono) (h.orders m' hold)
    · obtain rfl := List.mem_singleton.mp hlast
      subst hm
      exact ⟨r, ims, AList.lookup_insert _, AList.lookup_insert _, horder⟩
  · subst hk
    exact hbelongs (fun _ _ _ => Reply.mono) (h.replies m' hm')
  · subst hk
    exact h.owned
  · subst hk
    obtain ⟨message, hmessage, hgiven⟩ := h.confirms c' hc' hcmd
    exact ⟨message, hmessage.mono, hgiven⟩
  -- what is under way for the new request is its order; for an older one what was
  · subst hk
    obtain ⟨rfl, -⟩ | ⟨-, hold⟩ := Ledger.eq_or_of_lookup_insert hid'
    · exact ⟨m, List.mem_append_left _ (List.mem_append_right _ List.mem_cons_self), hm⟩
    · obtain ⟨m', hm', heq⟩ := h.underway htotal id' ims' hold
      refine ⟨m', ?_, heq⟩
      rcases List.mem_append.mp hm' with hm' | hm'
      · exact List.mem_append_left _ (List.mem_append_left _ hm')
      · exact List.mem_append_right _ hm'

/-- What the IMS may send: who accepts an object was given its key. -/
def Flow.Allows (f : Flow) (p : ImsPackage) : Prop :=
  p.cmd = .acceptShare → f.mine p.uuid p.aesKey p.aesIv

/-- What is not encrypted has no key on either side. -/
structure Flow.Open (f : Flow) : Prop where
  given : ∀ message u, f.made u [] [] → f.given message u [] []
  made : ∀ u, f.mine u [] [] → f.made u [] []

/-- A request is made and answered at once. -/
theorem waiting_answer_note {c : ImsPackage} (hid : k.imsReqIds.lookup id = none) :
    ((k.note id ims r).answer id c).waiting i = k.waiting i := by
  have hnote : (k.note id ims r).waiting i = k.waiting i + if ims = i then 1 else 0 :=
    waiting_note hid
  have hanswer := waiting_answer (k := k.note id ims r) (i := i) (c := c)
    (AList.lookup_insert k.imsReqIds)
  omega

theorem lookup_of_answer_note {c : ImsPackage} {id' ims' : ID32}
    (h : ((k.note id ims r).answer id c).imsReqIds.lookup id' = some ims') :
    k.imsReqIds.lookup id' = some ims' := by
  obtain ⟨hne, hlookup⟩ := Ledger.of_lookup_erase h
  exact (AList.lookup_insert_ne hne).symm.trans hlookup

theorem Tracked.handleImsShareRequest {f : Flow} (h : Tracked f n) (hf : f.Open)
    (hp : p.cmd = .share)
    (hstep : Kernel.handleImsShareRequest { n.kernel with asked := n.kernel.asked ++ [p] } p =
      some k') : Tracked f { n with kernel := k' } := by
  obtain ⟨⟨id, k₀⟩, hget, hrest⟩ := Option.bind_eq_some_iff.mp hstep
  obtain ⟨hid, rfl⟩ := getRequestId_eq_some hget
  obtain ⟨hims, hrest⟩ := pocoAssert_eq_some.mp hrest
  have hkeep (id' : ID32) (hid' : n.kernel.requests.lookup id' ≠ none) : id' ≠ id := by
    rintro rfl
    exact hid' hid
  dsimp only at hrest
  cases howned : n.kernel.ownedData.lookup p.uuid with
  | none =>
    rw [howned] at hrest
    obtain ⟨ims, hlookup, rfl⟩ := Option.map_eq_some_iff.mp hrest
    obtain rfl : p.requestId = ims :=
      Option.some.inj ((AList.lookup_insert _).symm.trans hlookup)
    refine h.answered rfl rfl rfl rfl (fun i => waiting_answer_note hims) (fun id' hid' => ?_)
      (fun id' _ => lookup_of_answer_note) h.owned fun hcmd => by cases hcmd
    exact ⟨(AList.lookup_erase_ne (hkeep id' hid')).trans (AList.lookup_insert_ne (hkeep id' hid')),
      (AList.lookup_erase_ne (hkeep id' hid')).trans (AList.lookup_insert_ne (hkeep id' hid'))⟩
  | some o =>
    rw [howned] at hrest
    obtain ⟨-, hrest⟩ := pocoAssert_eq_some.mp hrest
    have hmade : f.made p.uuid o.aesKey o.aesIv := h.owned p.uuid o howned
    split_ifs at hrest with hkey
    · change o.aesKey = [] ∧ o.aesIv = [] at hkey
      obtain ⟨-, hrest⟩ := pocoAssert_eq_some.mp hrest
      obtain ⟨ims, hlookup, rfl⟩ := Option.map_eq_some_iff.mp hrest
      obtain rfl : p.requestId = ims :=
        Option.some.inj ((AList.lookup_insert _).symm.trans hlookup)
      rw [hkey.1, hkey.2] at hmade
      refine h.answered rfl rfl rfl rfl (fun i => waiting_answer_note hims) (fun id' hid' => ?_)
        (fun id' _ => lookup_of_answer_note) h.owned fun _ => ⟨hp, rfl, ?_⟩
      · exact ⟨(AList.lookup_erase_ne (hkeep id' hid')).trans
            (AList.lookup_insert_ne (hkeep id' hid')),
          (AList.lookup_erase_ne (hkeep id' hid')).trans (AList.lookup_insert_ne (hkeep id' hid'))⟩
      · dsimp only
        rw [hkey.1, hkey.2]
        exact hf.given _ _ hmade
    · obtain rfl := Option.some.inj hrest
      refine h.ordered hid hims rfl rfl ?_ rfl
      exact .share rfl rfl hmade ⟨p, List.mem_append_right _ List.mem_cons_self, hp, rfl, rfl, rfl⟩

theorem Tracked.handleImsAcceptShareRequest {f : Flow} (h : Tracked f n) (hf : f.Open)
    (hmine : f.mine p.uuid p.aesKey p.aesIv)
    (hstep : Kernel.handleImsAcceptShareRequest
      { n.kernel with asked := n.kernel.asked ++ [p] } p = some k') :
    Tracked f { n with kernel := k' } := by
  rw [Kernel.handleImsAcceptShareRequest] at hstep
  split_ifs at hstep
  · obtain rfl := Option.some.inj hstep
    exact h.answered rfl rfl rfl rfl (fun _ => rfl) (fun _ _ => ⟨rfl, rfl⟩) (fun _ _ => id) h.owned
      fun hcmd => by cases hcmd
  · obtain ⟨⟨id, k₀⟩, hget, hrest⟩ := Option.bind_eq_some_iff.mp hstep
    obtain ⟨hid, rfl⟩ := getRequestId_eq_some hget
    dsimp only at hrest
    split_ifs at hrest with hkey
    · obtain rfl := Option.some.inj hrest
      rw [hkey.1, hkey.2] at hmine
      refine h.answered rfl rfl rfl rfl (fun _ => rfl) (fun id' hid' => ⟨?_, rfl⟩)
        (fun _ _ hlookup => hlookup) ?_ fun hcmd => by cases hcmd
      · refine AList.lookup_erase_ne ?_
        rintro rfl
        exact hid' hid
      · exact Ledger.forall_lookup_insert h.owned (hf.made _ hmine)
    · obtain ⟨hims, hrest⟩ := pocoAssert_eq_some.mp hrest
      obtain rfl := Option.some.inj hrest
      exact h.ordered hid hims rfl rfl (.accept rfl rfl hmine) rfl

/-! ### The key manager -/

section KeyManager

open KeyManager

/-- What a handler with a `try` block does: nothing, or one reply, which was worked out or tells of
the failure. -/
theorem eq_or_sent_of_handled {c : Prop} [Decidable c] {y : Except Exception Message}
    {q : Exception → Prop} [DecidablePred q] {g : Exception → Message}
    (hprocess : processKernelInput L F t m = answer c (Attempt.lift y) (failing q g))
    (h : handleKernelInput L F t m = some t') :
    t' = t ∨ ∃ x, t' = t.send x ∧ (y = .ok x ∨ ∃ e, x = g e) := by
  rw [handleKernelInput, hprocess] at h
  by_cases hc : c
  · cases y with
    | ok x =>
      rw [answer_of_ok hc (Attempt.lift_of_ok rfl)] at h
      exact .inr ⟨x, (Option.some.inj h).symm, .inl rfl⟩
    | error e =>
      by_cases hq : q e
      · rw [answer_of_caught hc (Attempt.lift_of_error rfl) (if_pos hq) (Attempt.pure_run)] at h
        exact .inr ⟨g e, (Option.some.inj h).symm, .inr ⟨e, rfl⟩⟩
      · rw [answer_of_uncaught hc (Attempt.lift_of_error rfl) (if_neg hq)] at h
        dsimp only at h
        split_ifs at h
        exact .inl (Option.some.inj h).symm
  · rw [answer_of_not hc] at h
    cases h

theorem cmd_reencryption : ∀ x, reencryption L m = .ok x → x.cmd = .reencryptedKey :=
  Except.forall_ok_bind fun _ => Except.forall_ok_bind fun _ => Except.forall_ok_bind fun _ =>
    Except.forall_ok_bind fun _ => Except.forall_ok_bind fun _ => Except.forall_ok_bind fun _ =>
      Except.forall_ok_pure rfl

theorem cmd_keyDecryption : ∀ x, keyDecryption L t m = .ok x → x.cmd = .decrypted :=
  Except.forall_ok_bind fun _ => Except.forall_ok_bind fun _ => Except.forall_ok_bind fun _ =>
    Except.forall_ok_bind fun _ => Except.forall_ok_pure rfl

/-- What comes of an order is a reply to the same request, or nothing. -/
theorem eq_or_replied {f : Flow} {asked : List ImsPackage} (hf : f.Sound L t)
    (horder : Order f asked r ims m) (h : handleKernelInput L F t m = some t') :
    t' = t ∨ ∃ x, t' = t.send x ∧ x.requestId = m.requestId ∧ Reply f asked r ims x := by
  cases horder with
  | share hr hm hkey hasked =>
    have hprocess : processKernelInput L F t m = handleKernelReencryptKeyRequest L m := by
      rw [processKernelInput, hm]
    obtain ht | ⟨x, ht, hx | ⟨e, rfl⟩⟩ := eq_or_sent_of_handled hprocess h
    · exact .inl ht
    · exact .inr ⟨x, ht, requestId_reencryption x hx, .reencrypted hr (cmd_reencryption x hx)
        (hf.reencryption m x r.uuid hx hkey) hasked⟩
    · exact .inr ⟨_, ht, rfl, .notReencrypted hr rfl⟩
  | accept hr hm hkey =>
    have hprocess : processKernelInput L F t m = handleKernelDecryptKey L t m := by
      rw [processKernelInput, hm]
    obtain ht | ⟨x, ht, hx | ⟨e, rfl⟩⟩ := eq_or_sent_of_handled hprocess h
    · exact .inl ht
    · exact .inr ⟨x, ht, requestId_keyDecryption x hx, .decrypted hr (cmd_keyDecryption x hx)
        (hf.keyDecryption m x r.uuid hx hkey)⟩
    · exact .inr ⟨_, ht, rfl, .notDecrypted hr rfl⟩

/-- An order is answered exactly if it can be. -/
theorem Order.answered {f : Flow} {asked : List ImsPackage} (h : Order f asked r ims m)
    (hm : Answerable L F t m) : Answered L F t m := by
  cases h with
  | share _ hcmd _ _ => exact (answered_reencryptKey_iff hcmd).mpr hm
  | accept _ hcmd _ => exact (answered_decryptKey_iff hcmd).mpr hm

theorem Tracked.handleKernelInput {f : Flow} (h : Tracked f n) (hf : f.Sound L n.keyManager)
    {ms : List Message} (hqueue : n.kernel.toKeyManager = m :: ms)
    (htotal : f.total → KeyManager.Answerable L F n.keyManager m)
    (hstep : handleKernelInput L F n.keyManager m = some t) :
    Tracked f ⟨{ n.kernel with toKeyManager := ms }, t⟩ := by
  have hnodup := h.nodup
  rw [hqueue, List.cons_append, List.map_cons, List.nodup_cons] at hnodup
  have horders : ∀ m' ∈ ms, Belongs (Order f n.kernel.asked) n.kernel m' := by
    intro m' hm'
    exact h.orders m' (hqueue ▸ List.mem_cons_of_mem m hm')
  obtain ⟨r, ims, hr, hi, horder⟩ := h.orders m (hqueue ▸ List.mem_cons_self)
  obtain rfl | ⟨x, rfl, hx, hreply⟩ := eq_or_replied hf horder hstep
  · refine ⟨h.balance, hnodup.2, horders, h.replies, h.owned, h.confirms, fun hall => ?_⟩
    obtain ⟨t', x, ht', hx, -⟩ := horder.answered (htotal hall)
    obtain rfl := Option.some.inj (hstep.symm.trans ht')
    have hlen := congrArg List.length hx
    rw [List.length_append, List.length_singleton] at hlen
    omega
  · refine ⟨h.balance, ?_, horders, fun m' hm' => ?_, h.owned, h.confirms,
      fun hall id' ims' hid' => ?_⟩
    · change ((ms ++ (n.keyManager.out ++ [x])).map Message.requestId).Nodup
      rw [← List.append_assoc, List.map_append, List.nodup_append_comm, List.map_singleton,
        List.singleton_append, List.nodup_cons, hx]
      exact hnodup
    · rcases List.mem_append.mp hm' with hold | hnew
      · exact h.replies m' hold
      · obtain rfl := List.mem_singleton.mp hnew
        exact ⟨r, ims, hx.symm ▸ hr, hx.symm ▸ hi, hreply⟩
    · obtain ⟨m', hm', heq⟩ := h.underway hall id' ims' hid'
      rw [hqueue] at hm'
      rcases List.mem_cons.mp hm' with rfl | hm'
      · exact ⟨x, List.mem_append_right _ (List.mem_append_right _ List.mem_cons_self),
          hx.trans heq⟩
      · refine ⟨m', ?_, heq⟩
        rw [State.send_out, ← List.append_assoc]
        exact List.mem_append_left _ hm'

end KeyManager

/-! ### Replies -/

/-- A reply was taken, and its request is answered. -/
theorem Tracked.replied {f : Flow} (h : Tracked f n) {ms : List Message} {c : ImsPackage}
    {owned : Ledger.Table UUID Owned} {um : List (UUID × Owned)}
    (hqueue : n.keyManager.out = m :: ms) (hims : n.kernel.imsReqIds.lookup m.requestId = some ims)
    (hc : c.requestId = ims)
    (howned : ∀ u o, owned.lookup u = some o → f.made u o.aesKey o.aesIv)
    (hconfirm : c.cmd = .shareConfirm → ∃ message,
      Asked n.kernel.asked c.requestId c.uuid message ∧ f.given message c.uuid c.aesKey c.aesIv)
    (hk : k' = Kernel.answer { n.kernel with ownedData := owned, toUserManager := um }
      m.requestId c) : Tracked f ⟨k', { n.keyManager with out := ms }⟩ := by
  subst hk
  have hnodup := h.nodup
  rw [hqueue, List.map_append, List.map_cons, List.nodup_middle, List.nodup_cons,
    ← List.map_append] at hnodup
  have hne : ∀ m' ∈ n.kernel.toKeyManager ++ ms, m'.requestId ≠ m.requestId := by
    intro m' hm' heq
    exact hnodup.1 (List.mem_map.mpr ⟨m', hm', heq⟩)
  refine ⟨fun i => (served_answer hims hc).trans (h.balance i), hnodup.2, fun m' hm' => ?_,
    fun m' hm' => ?_, howned, fun c' hc' hcmd => ?_, fun htotal id' ims' hid' => ?_⟩
  · have hm'ne := hne m' (List.mem_append_left _ hm')
    exact (h.orders m' hm').of_lookup (AList.lookup_erase_ne hm'ne) (AList.lookup_erase_ne hm'ne)
      fun _ _ => id
  · have hm'ne := hne m' (List.mem_append_right _ hm')
    exact (h.replies m' (hqueue ▸ List.mem_cons_of_mem m hm')).of_lookup
      (AList.lookup_erase_ne hm'ne) (AList.lookup_erase_ne hm'ne) fun _ _ => id
  · rcases List.mem_append.mp hc' with hold | hnew
    · exact h.confirms c' hold hcmd
    · obtain rfl := List.mem_singleton.mp hnew
      exact hconfirm hcmd
  · obtain ⟨hne', hlookup⟩ := Ledger.of_lookup_erase hid'
    obtain ⟨m', hm', heq⟩ := h.underway htotal id' ims' hlookup
    rw [hqueue, List.mem_append, List.mem_cons] at hm'
    refine ⟨m', ?_, heq⟩
    rcases hm' with hm' | rfl | hm'
    · exact List.mem_append_left _ hm'
    · exact absurd heq.symm hne'
    · exact List.mem_append_right _ hm'

theorem Tracked.processKeyManagerInput {f : Flow} (h : Tracked f n) {ms : List Message}
    (hqueue : n.keyManager.out = m :: ms)
    (hstep : n.kernel.processKeyManagerInput m = some k') :
    Tracked f ⟨k', { n.keyManager with out := ms }⟩ := by
  obtain ⟨r, ims, hr, hims, hreply⟩ := h.replies m (hqueue ▸ List.mem_cons_self)
  rw [Kernel.processKeyManagerInput, hr] at hstep
  dsimp only at hstep
  cases hreply with
  | reencrypted hcmd hm hkey hasked =>
    rw [hm] at hstep
    obtain ⟨hne, hstep⟩ := pocoAssert_eq_some.mp hstep
    obtain ⟨-, hstep⟩ := pocoAssert_eq_some.mp hstep
    rw [hims] at hstep
    exact h.replied hqueue hims rfl h.owned (fun _ => ⟨_, hasked, hkey hne⟩)
      (Option.some.inj hstep).symm
  | notReencrypted hcmd hm =>
    rw [hm] at hstep
    dsimp only at hstep
    rw [Kernel.handleKeyManagerFailedShareRequest, hims] at hstep
    exact h.replied hqueue hims rfl h.owned (fun hconfirm => by cases hconfirm)
      (Option.some.inj hstep).symm
  | decrypted hcmd hm hkey =>
    rw [hm] at hstep
    dsimp only at hstep
    rw [if_pos hcmd, Kernel.handleDecryptedKey, hims] at hstep
    exact h.replied hqueue hims rfl (Ledger.forall_lookup_insert h.owned hkey)
      (fun hconfirm => by cases hconfirm) (Option.some.inj hstep).symm
  | notDecrypted hcmd hm =>
    rw [hm] at hstep
    dsimp only at hstep
    rw [if_pos hcmd, Kernel.handleKeyDecryptionFail, hims] at hstep
    exact h.replied hqueue hims rfl h.owned (fun hconfirm => by cases hconfirm)
      (Option.some.inj hstep).symm

/-! ### Steps -/

/-- What a step may do: objects are written with their keys, the IMS accepts what it was given, and
the key manager keeps to the flow. -/
def Flow.Ok (f : Flow) (n : Node C) : Event C → Prop
  | .ims p => f.Allows p
  | .keyManager L F => f.Sound L n.keyManager ∧
    (f.total → ∀ m ∈ n.kernel.toKeyManager.head?, KeyManager.Answerable L F n.keyManager m)
  | .saved u o => f.made u o.aesKey o.aesIv
  | _ => True

/-- **The step lemma.** -/
theorem Tracked.step {f : Flow} (h : Tracked f n) (hf : f.Open) {e : Event C} (hok : f.Ok n e)
    (hstep : n.step e = some n') : Tracked f n' := by
  cases e with
  | ims p =>
    obtain ⟨k', hk, rfl⟩ := Option.map_eq_some_iff.mp hstep
    rw [Kernel.processImsInput] at hk
    cases hp : p.cmd
    case share =>
      rw [hp] at hk
      exact h.handleImsShareRequest hf hp hk
    case acceptShare =>
      rw [hp] at hk
      exact h.handleImsAcceptShareRequest hf (hok hp) hk
    all_goals
      rw [hp] at hk
      cases hk
  | keyManager L F =>
    rw [Node.step] at hstep
    split at hstep
    · cases hstep
    case h_2 m ms hqueue =>
      obtain ⟨t, ht, rfl⟩ := Option.map_eq_some_iff.mp hstep
      refine h.handleKernelInput hok.1 hqueue (fun htotal => ?_) ht
      exact hok.2 htotal m (hqueue ▸ rfl)
  | reply =>
    rw [Node.step] at hstep
    split at hstep
    · cases hstep
    case h_2 m ms hqueue =>
      obtain ⟨k', hk, rfl⟩ := Option.map_eq_some_iff.mp hstep
      exact h.processKeyManagerInput hqueue hk
  | saved u o =>
    obtain rfl := Option.some.inj hstep
    exact ⟨h.balance, h.nodup, h.orders, h.replies, Ledger.forall_lookup_insert h.owned hok,
      h.confirms, h.underway⟩
  | deleted u =>
    obtain rfl := Option.some.inj hstep
    exact ⟨h.balance, h.nodup, h.orders, h.replies,
      fun u' o ho => h.owned u' o (Ledger.of_lookup_erase ho).2, h.confirms, h.underway⟩
  | elsewhere c =>
    obtain rfl := Option.some.inj hstep
    exact ⟨h.balance, h.nodup, h.orders, h.replies, h.owned, h.confirms, h.underway⟩

/-! ### Runs -/

theorem tracked_init {f : Flow} {c : ID32} : Tracked f (Node.init t c) := by
  refine ⟨fun _ => rfl, List.nodup_nil, List.forall_mem_nil _, List.forall_mem_nil _,
    fun u o ho => ?_, List.forall_mem_nil _, fun _ id ims hid => ?_⟩
  · cases ho
  · cases hid

theorem Flow.open_any {total : Prop} : (Flow.any total).Open :=
  ⟨fun _ _ _ => trivial, fun _ _ => trivial⟩

/-- The key manager answers what it is asked. -/
def Answering (n : Node C) : Event C → Prop
  | .keyManager L F => ∀ m ∈ n.kernel.toKeyManager.head?, KeyManager.Answerable L F n.keyManager m
  | _ => True

theorem Flow.ok_any {total : Prop} {e : Event C} (h : total → Answering n e) :
    (Flow.any total).Ok n e := by
  cases e with
  | ims p => exact fun _ => trivial
  | keyManager L F => exact ⟨Flow.sound_any, h⟩
  | reply => trivial
  | saved u o => trivial
  | deleted u => trivial
  | elsewhere c => trivial

/-- **Answered once**: whatever the key manager does, the answers to an id of the IMS and the
requests that wait for one are as many as the packages with this id. -/
theorem answered_or_waiting {c : ID32} {es : List (Event C)}
    (hrun : Run.run Node.step (Node.init t c) es = some n) (i : ID32) :
    (n.kernel.toIms.map ImsPackage.requestId).count i + n.kernel.waiting i =
      (n.kernel.asked.map ImsPackage.requestId).count i := by
  have htracked : Tracked (.any False) n := Run.invariant_of_run_all (Tracked (.any False))
    (fun _ _ _ h hstep => h.step Flow.open_any (Flow.ok_any False.elim) hstep) tracked_init hrun
  exact htracked.balance i

/-- **Nothing is forgotten**: when the key manager answers everything, and has, every package of the
IMS has its answer. -/
theorem answered_of_settled {c : ID32} {es : List (Event C)}
    (hrun : Run.run Node.step (Node.init t c) es = some n)
    (hanswering : Run.Along Node.step Answering (Node.init t c) es)
    (horders : n.kernel.toKeyManager = []) (hreplies : n.keyManager.out = []) (i : ID32) :
    (n.kernel.toIms.map ImsPackage.requestId).count i =
      (n.kernel.asked.map ImsPackage.requestId).count i := by
  have htracked : Tracked (.any True) n := Run.invariant_of_run (Tracked (.any True))
    (fun _ _ _ h hok hstep => h.step Flow.open_any (Flow.ok_any fun _ => hok) hstep) tracked_init
      hanswering hrun
  have hnone : ∀ id ims, n.kernel.imsReqIds.lookup id ≠ some ims := by
    intro id ims hid
    obtain ⟨m, hm, -⟩ := htracked.underway trivial id ims hid
    rw [horders, hreplies] at hm
    cases hm
  have hwaiting : n.kernel.waiting i = 0 :=
    Ledger.total_eq_zero fun id ims hid => absurd hid (hnone id ims)
  have hbalance := htracked.balance i
  rwa [Kernel.served, hwaiting, Nat.add_zero] at hbalance

/-! ### An object is shared and accepted -/

/-- A text is encrypted by writing the public key in front of it. -/
def prefixLibs : Libs Text where
  newAesKey := .ok ⟨['k'], ['i']⟩
  cipherKey := fun key iv => .ok ⟨key, iv⟩
  createCipher := fun aesKey => .ok aesKey.key
  newRsaKey := .ok (['A'], ['A'])
  rsaCipher := fun pb _ => .ok pb
  publicCipher := fun pb => .ok pb
  encryptString := fun _ t => .ok t
  decryptString := fun _ t => .ok t
  encryptBase64 := fun c t => .ok (c ++ t)
  decryptBase64 := fun c t => .ok (t.drop c.length)
  encryptStream := fun _ t => .ok t
  decryptStream := fun _ t => .ok t
  base64Decode := .ok
  base64Encode := fun t => t
  parseJsonKey := fun t => .ok ⟨some t, some t, none⟩
  stringifyJsonKey := fun j => j.aesKey.getD []
  stringifyUserKeys := fun pb pr _ => pb ++ pr
  messageOf := fun _ => []

/-- A key manager with this key. -/
def holder (pub : Text) : KeyManager.State Text where
  files := fun _ => none
  userCipher := some pub
  streamCiphers := ∅
  out := []

/-- The key manager takes a package, and the kernel the reply. -/
def turn : List (Event Text) := [.keyManager prefixLibs KeyManager.noFaults, .reply]

/-- The share request that names the public key. -/
def shareWith (requestId : ID32) (uuid : UUID) (pub : Text) : Event Text :=
  .ims ⟨requestId, .share, uuid, [], [], some pub⟩

/-- What was given is accepted. -/
def acceptShare (requestId : ID32) (uuid : UUID) (aesKey aesIv : Text) : Event Text :=
  .ims ⟨requestId, .acceptShare, uuid, aesKey, aesIv, none⟩

/-- A node shares an object with itself. -/
def exchange : List (Event Text) :=
  [.saved 5 ⟨['k'], ['i'], 1⟩, shareWith 7 5 ['B']] ++ turn ++
    [acceptShare 8 5 ['B', 'k'] ['B', 'i']] ++ turn

/-- What can be seen of a step: what the key manager does next throws no exception. -/
def Working (n : Node Text) : Event Text → Prop
  | .keyManager L F => ∀ m ∈ n.kernel.toKeyManager.head?,
    KeyManager.guard n.keyManager m = true ∧ (KeyManager.outcome L F n.keyManager m).isOk = true
  | _ => True

instance (n : Node Text) : ∀ e, Decidable (Working n e)
  | .keyManager _ _ => inferInstanceAs (Decidable (∀ _ ∈ _, _ ∧ _))
  | .ims _ | .reply | .saved _ _ | .deleted _ | .elsewhere _ => .isTrue trivial

theorem Working.answering {n : Node Text} {e : Event Text} (h : Working n e) : Answering n e := by
  cases e with
  | keyManager L F =>
    intro m hm
    obtain ⟨hguard, hok⟩ := h m hm
    refine ⟨hguard, fun e he => ?_⟩
    rw [he] at hok
    cases hok
  | ims p => trivial
  | reply => trivial
  | saved u o => trivial
  | deleted u => trivial
  | elsewhere c => trivial

theorem run_exchange : ∃ n, Run.run Node.step (Node.init (holder ['B']) 0) exchange = some n ∧
    (n.kernel.toIms.map ImsPackage.requestId).count 7 = 1 ∧
      n.kernel.toKeyManager = [] ∧ n.keyManager.out = [] :=
  ⟨_, rfl, rfl, rfl, rfl⟩

theorem answered_or_waiting_exchange : ∃ n,
    Run.run Node.step (Node.init (holder ['B']) 0) exchange = some n ∧
      (n.kernel.toIms.map ImsPackage.requestId).count 8 + n.kernel.waiting 8 =
        (n.kernel.asked.map ImsPackage.requestId).count 8 := by
  obtain ⟨n, hrun, -⟩ := run_exchange
  exact ⟨n, hrun, answered_or_waiting hrun 8⟩

theorem answered_of_settled_exchange : ∃ n,
    Run.run Node.step (Node.init (holder ['B']) 0) exchange = some n ∧
      (n.kernel.toIms.map ImsPackage.requestId).count 7 = 1 ∧
        (n.kernel.toIms.map ImsPackage.requestId).count 7 =
          (n.kernel.asked.map ImsPackage.requestId).count 7 := by
  have hworking : Run.Along Node.step Working (Node.init (holder ['B']) 0) exchange := by decide
  obtain ⟨n, hrun, hcount, horders, hreplies⟩ := run_exchange
  have hanswering := hworking.mono fun _ _ => Working.answering
  exact ⟨n, hrun, hcount, answered_of_settled hrun hanswering horders hreplies 7⟩

end Sharing

end Metax
