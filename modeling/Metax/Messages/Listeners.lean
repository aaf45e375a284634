import Metax.Library.History
import Metax.Messages.Data

/-!
# Who is told of an update

`registered` reads off the log who wants to be told of an object: who was put on its list and was
not taken off it since, in the order in which they came. Being put on a list and being taken off it
is answered at once, and no other node is answered so for any other reason (`Answered`). The table
of the kernel is just what the log says (`listeners_eq_registered`), nobody is on a list twice, and
when an object is updated or deleted everybody on its list is sent one message under an id that no
other request has, and nobody else (`notified_of_run`).

What a step can do to the lists is said once (`changed_of_step`); the invariants follow from it.
-/

namespace Metax

namespace Messages

open Ledger (Table)
open History

variable {s t t' : Kernel} {e : Entry} {u v : UUID} {p : Text} {l es : List Entry} {id ims : ID32}
  {r : Request} {cmd : Command} {version : ℕ}

/-- Who wants to be told of an object, by the log. -/
def registered (u : UUID) : List Entry → List Text
  | [] => []
  | .registered v p :: l =>
    if v = u then
      if (registered u l).contains p then registered u l else registered u l ++ [p]
    else registered u l
  | .unregistered v p :: l => if v = u then (registered u l).erase p else registered u l
  | .forgotten v :: l => if v = u then [] else registered u l
  | .asked _ :: l | .sent _ _ _ _ :: l | .ims _ _ _ _ :: l | .router _ _ _ _ _ :: l
  | .userManager _ :: l => registered u l

/-- Nobody wants it twice. -/
theorem nodup_registered : (registered u l).Nodup := by
  induction l with
  | nil => exact List.nodup_nil
  | cons e l ih =>
    cases e with
    | registered v p =>
      rw [registered]
      split_ifs with hv hp
      · exact ih
      · exact List.nodup_append.mpr ⟨ih, List.nodup_singleton p, fun a ha b hb => by
          rintro rfl
          exact hp (List.contains_iff_mem.mpr (List.mem_singleton.mp hb ▸ ha))⟩
      · exact ih
    | unregistered v p =>
      rw [registered]
      split_ifs
      · exact ih.erase p
      · exact ih
    | forgotten v =>
      rw [registered]
      split_ifs
      · exact List.nodup_nil
      · exact ih
    | asked i => exact ih
    | sent i j k d => exact ih
    | ims i c w x => exact ih
    | router i c w x n => exact ih
    | userManager n => exact ih

/-! ### What a step writes -/

/-- The commands that tell others. -/
def IsNotice (cmd : Command) : Prop := cmd = .notifyUpdate ∨ cmd = .notifyDelete

instance (cmd : Command) : Decidable (IsNotice cmd) :=
  inferInstanceAs (Decidable (_ ∨ _))

/-- The commands that tell another node that its user was put on a list or taken off it. -/
def IsAnswer (cmd : Command) : Prop := cmd = .onUpdateRegistered ∨ cmd = .onUpdateUnregistered

instance (cmd : Command) : Decidable (IsAnswer cmd) :=
  inferInstanceAs (Decidable (_ ∨ _))

/-- An entry that is not about a list, and neither a notice nor an answer to others. -/
def Entry.Plain : Entry → Prop
  | .registered _ _ | .unregistered _ _ | .forgotten _ => False
  | .router _ cmd _ _ _ => ¬ IsNotice cmd ∧ ¬ IsAnswer cmd
  | .asked _ | .sent _ _ _ _ | .ims _ _ _ _ | .userManager _ => True

/-- An entry about something else leaves the lists. -/
theorem registered_cons_of_plain (he : e.Plain) : registered u (e :: l) = registered u l := by
  cases e with
  | registered v p => exact he.elim
  | unregistered v p => exact he.elim
  | forgotten v => exact he.elim
  | asked i => rfl
  | sent i j k d => rfl
  | ims i c w x => rfl
  | router i c w x n => rfl
  | userManager n => rfl

/-- What waits for the storage or for the public key is neither a notice nor an answer, and for
another node the storage is asked with a key. -/
structure Request.Proper (r : Request) : Prop where
  cmd : r.place = .config ∨ r.place = .storage → ¬ IsNotice r.cmd ∧ ¬ IsAnswer r.cmd
  key : r.typ = .router → r.place = .storage → r.data ≠ []

/-- What waits for neither is proper. -/
theorem proper_of_place (hconfig : r.place ≠ .config) (hstorage : r.place ≠ .storage) : r.Proper :=
  ⟨fun hplace => absurd hplace (not_or.mpr ⟨hconfig, hstorage⟩), fun _ => (absurd · hstorage)⟩

/-- A request nothing is worked out for. -/
theorem proper_of_idle (h : r.place = .idle) : r.Proper :=
  proper_of_place (h ▸ nofun) (h ▸ nofun)

/-- So is what waits for the key manager. -/
theorem proper_of_keyManager (h : r.place = .keyManager) : r.Proper :=
  proper_of_place (h ▸ nofun) (h ▸ nofun)

/-- A registration. -/
theorem proper_of_cmd (h : r.cmd = .onUpdateRegister ∨ r.cmd = .onUpdateUnregister)
    (hkey : r.typ = .router → r.place = .storage → r.data ≠ []) : r.Proper := by
  refine ⟨fun _ => ?_, hkey⟩
  rcases h with h | h <;> rw [h] <;> decide

/-- All requests are so. -/
def Placed (s : Kernel) : Prop := ∀ id r, s.requests.lookup id = some r → r.Proper

/-- A step that leaves the lists alone. -/
structure Quiet (s t : Kernel) : Prop where
  log : ∃ es, t.log = es ++ s.log ∧ ∀ e ∈ es, e.Plain
  listeners : t.updateListeners = s.updateListeners
  placed : Placed s → Placed t

namespace Quiet

/-- The ways to leave the lists alone, as for `Calm` in `Metax.Messages.Tracing`. -/
theorem refl : Quiet s s := ⟨⟨[], rfl, List.forall_mem_nil _⟩, rfl, id⟩

theorem write (h : Quiet s t) (he : e.Plain) : Quiet s (t.write e) := by
  obtain ⟨es, hlog, hes⟩ := h.log
  exact ⟨⟨e :: es, congrArg (e :: ·) hlog, List.forall_mem_cons.mpr ⟨he, hes⟩⟩, h.listeners,
    h.placed⟩

/-- A request that is written has to be proper. -/
theorem setRequest (h : Quiet s t) (hr : r.Proper) :
    Quiet s (t.setRequest id r) :=
  ⟨h.log, h.listeners, fun hs => Ledger.forall_lookup_insert (h.placed hs) hr⟩

theorem eraseRequest (h : Quiet s t) : Quiet s (t.eraseRequest id) :=
  ⟨h.log, h.listeners, fun hs id' r' hr' => h.placed hs id' r' (Ledger.of_lookup_erase hr').2⟩

theorem eraseImsReqId (h : Quiet s t) : Quiet s (t.eraseImsReqId id) :=
  ⟨h.log, h.listeners, h.placed⟩

theorem clear (h : Quiet s t) : Quiet s (t.postRouterClearRequest id) :=
  h.write ⟨by decide, by decide⟩

end Quiet

/-! ### The table and the log -/

/-- Only who wants to be told is told. -/
def Told : Entry → List Entry → Prop
  | .router _ cmd u p _, l => IsNotice cmd → p ∈ registered u l ∧ p ≠ []
  | _, _ => True

/-- A plain entry tells no listener. -/
theorem told_of_plain (he : e.Plain) : Told e l := by
  cases e with
  | router i c w x n => exact fun hcmd => absurd hcmd he.1
  | asked i => trivial
  | sent i j k d => trivial
  | ims i c w x => trivial
  | userManager n => trivial
  | registered v p => trivial
  | unregistered v p => trivial
  | forgotten v => trivial

/-- **The invariant.** No list is empty. -/
structure Listening (s : Kernel) : Prop where
  list : ∀ u, s.listeners u = registered u s.log
  nonempty : ∀ u, s.updateListeners.lookup u ≠ some []
  placed : Placed s
  told : Past Told s.log

/-- Nor do several plain entries change a list. -/
theorem registered_append_of_plain (hes : ∀ e ∈ es, e.Plain) :
    registered u (es ++ l) = registered u l := by
  induction es with
  | nil => rfl
  | cons e es ih =>
    obtain ⟨he, hes⟩ := List.forall_mem_cons.mp hes
    exact (registered_cons_of_plain he).trans (ih hes)

/-- **A quiet step keeps the invariant.** -/
theorem Listening.quiet (h : Listening s) (hq : Quiet s t) : Listening t := by
  obtain ⟨es, hlog, hes⟩ := hq.log
  refine ⟨fun u => ?_, fun u => ?_, hq.placed h.placed, ?_⟩
  · rw [Kernel.listeners, hq.listeners, hlog, registered_append_of_plain hes]
    exact h.list u
  · rw [hq.listeners]
    exact h.nonempty u
  · rw [hlog]
    exact past_append_of_forall (fun e he l => told_of_plain (hes e he)) h.told

/-- An entry about one list, and the table after it. -/
theorem Listening.relist (h : Listening s) (hlog : t.log = e :: s.log)
    (hrequests : t.requests = s.requests) (htold : Told e s.log)
    (hentry : ∀ v, v ≠ u → registered v (e :: s.log) = registered v s.log)
    (hother : ∀ v, v ≠ u → t.updateListeners.lookup v = s.updateListeners.lookup v)
    (hlist : t.listeners u = registered u (e :: s.log))
    (hnil : t.updateListeners.lookup u ≠ some []) : Listening t := by
  refine ⟨fun v => ?_, fun v => ?_, ?_, ?_⟩
  · rw [hlog]
    by_cases hv : v = u
    · exact hv ▸ hlist
    · rw [hentry v hv, Kernel.listeners, hother v hv]
      exact h.list v
  · by_cases hv : v = u
    · exact hv ▸ hnil
    · rw [hother v hv]
      exact h.nonempty v
  · rw [Placed, hrequests]
    exact h.placed
  · rw [hlog]
    exact ⟨htold, h.told⟩

/-- **So does putting somebody on a list**, who goes to its end unless he is on it. -/
theorem Listening.addUpdateListener (h : Listening s) : Listening (s.addUpdateListener u p) := by
  refine h.relist (e := .registered u p) (u := u) rfl rfl trivial
    (fun v hv => if_neg fun hu => hv hu.symm) (fun v hv => AList.lookup_insert_ne hv) ?_ ?_
  · have hlist := h.list u
    change ((s.updateListeners.insert u _).lookup u).getD [] = _
    rw [AList.lookup_insert, registered, if_pos rfl, ← hlist]
    rfl
  · change (s.updateListeners.insert u _).lookup u ≠ some []
    rw [AList.lookup_insert]
    split_ifs with hp
    · intro hnil
      rw [Option.some.inj hnil] at hp
      cases hp
    · exact fun hnil =>
        List.append_ne_nil_of_right_ne_nil _ (List.cons_ne_nil p []) (Option.some.inj hnil)

/-- Who is on the list is taken off it, and the entry with him if nobody is left. -/
theorem removeUpdateListener_of_mem (hp : p ∈ s.listeners u) : s.removeUpdateListener u p =
    (Kernel.write { s with
      updateListeners := if (s.listeners u).erase p = [] then s.updateListeners.erase u
        else s.updateListeners.insert u ((s.listeners u).erase p) } (.unregistered u p), true) :=
  if_pos (List.contains_iff_mem.mpr hp)

/-- Who is not on it is not found, and the list stays. -/
theorem removeUpdateListener_of_notMem (hp : p ∉ s.listeners u) :
    s.removeUpdateListener u p = (s, false) :=
  if_neg fun hcontains => hp (List.contains_iff_mem.mp hcontains)

/-- **And taking somebody off it.** -/
theorem Listening.removeUpdateListener (h : Listening s) :
    Listening (s.removeUpdateListener u p).1 := by
  by_cases hp : p ∈ s.listeners u
  · rw [removeUpdateListener_of_mem hp]
    refine h.relist (e := .unregistered u p) (u := u) rfl rfl trivial
      (fun v hv => if_neg fun hu => hv hu.symm) (fun v hv => ?_) ?_ ?_
    · change (ite _ _ _ : Table UUID (List Text)).lookup v = _
      split_ifs
      · exact AList.lookup_erase_ne hv
      · exact AList.lookup_insert_ne hv
    · change ((ite _ _ _ : Table UUID (List Text)).lookup u).getD [] = _
      rw [registered, if_pos rfl, ← h.list u]
      split_ifs with hrest
      · rw [AList.lookup_erase, hrest]
        rfl
      · rw [AList.lookup_insert]
        rfl
    · change (ite _ _ _ : Table UUID (List Text)).lookup u ≠ _
      split_ifs with hrest
      · rw [AList.lookup_erase]
        exact fun hnil => by cases hnil
      · rw [AList.lookup_insert]
        exact fun hnil => hrest (Option.some.inj hnil)
  · rw [removeUpdateListener_of_notMem hp]
    exact h

/-! ### Notifications -/

/-- The message a listener is sent. -/
def notice (u : UUID) (cmd : Command) (version : ℕ) (id : ID32) (p : Text) : Entry :=
  if p = [] then
    .ims id .sendToPeer 0 (Kernel.notification u cmd).data
  else .router id (if cmd = .update then .notifyUpdate else .notifyDelete) u p version

/-- The listeners are sent messages, each under an id that no other request has. -/
structure Sent (u : UUID) (cmd : Command) (version : ℕ) (ids : List ID32) (ps : List Text)
    (s t : Kernel) : Prop where
  length : ids.length = ps.length
  nodup : ids.Nodup
  fresh : ∀ id ∈ ids, s.requests.lookup id = none
  opened : ∀ id ∈ ids, t.requests.lookup id = some (Kernel.notification u cmd)
  kept : ∀ id, id ∉ ids → t.requests.lookup id = s.requests.lookup id
  log : t.log = (List.zipWith (notice u cmd version) ids ps).reverse ++ s.log
  listeners : t.updateListeners = s.updateListeners

/-- Nobody to tell. -/
theorem Sent.nil : Sent u cmd version [] [] s s :=
  ⟨rfl, List.nodup_nil, List.forall_mem_nil _, List.forall_mem_nil _, fun _ _ => rfl, rfl, rfl⟩

/-- One listener is sent a message. -/
theorem notifyListener_eq_some (h : Kernel.notifyListener u cmd version s p = some t) :
    ∃ id, s.requests.lookup id = none ∧ t.log = notice u cmd version id p :: s.log ∧
      t.updateListeners = s.updateListeners ∧
        t.requests = s.requests.insert id (Kernel.notification u cmd) := by
  obtain ⟨⟨id, s'⟩, hget, rfl⟩ := Option.map_eq_some_iff.mp h
  obtain ⟨hfresh, rfl, rfl⟩ := Kernel.getRequestId_eq_some hget
  refine ⟨s.requestCounter, hfresh, ?_⟩
  dsimp only
  rw [notice]
  split_ifs with hp
  all_goals exact ⟨rfl, rfl, rfl⟩

/-- All of them are. -/
theorem notify_eq_some {ps : List Text}
    (h : ps.foldlM (Kernel.notifyListener u cmd version) s = some t) :
    ∃ ids, Sent u cmd version ids ps s t := by
  induction ps generalizing s with
  | nil =>
    obtain rfl := Option.some.inj h
    exact ⟨[], .nil⟩
  | cons p ps ih =>
    obtain ⟨m, hm, hrest⟩ := Option.bind_eq_some_iff.mp h
    obtain ⟨id, hfresh, hlog, hlist, hrequests⟩ := notifyListener_eq_some hm
    obtain ⟨ids, hsent⟩ := ih hrest
    -- the first id is taken when the others are
    have hid : id ∉ ids := by
      intro hmem
      have hnone := hsent.fresh id hmem
      rw [hrequests, AList.lookup_insert] at hnone
      cases hnone
    refine ⟨id :: ids, congrArg Nat.succ hsent.length, List.nodup_cons.mpr ⟨hid, hsent.nodup⟩,
      List.forall_mem_cons.mpr ⟨hfresh, fun i hi => ?_⟩,
      List.forall_mem_cons.mpr ⟨?_, hsent.opened⟩, fun i hi => ?_, ?_, hsent.listeners.trans hlist⟩
    · have hnone := hsent.fresh i hi
      rwa [hrequests, AList.lookup_insert_ne (ne_of_mem_of_not_mem hi hid)] at hnone
    · rw [hsent.kept id hid, hrequests, AList.lookup_insert]
    · obtain ⟨hne, hi⟩ := List.ne_and_not_mem_of_not_mem_cons hi
      rw [hsent.kept i hi, hrequests, AList.lookup_insert_ne hne]
    · rw [hsent.log, hlog, List.zipWith_cons_cons, List.reverse_cons, List.append_assoc]
      rfl

/-- The messages wait for nothing. -/
theorem Sent.placed {ids : List ID32} {ps : List Text} (h : Sent u cmd version ids ps s t)
    (hs : Placed s) : Placed t := by
  intro id r hr
  by_cases hid : id ∈ ids
  · rw [h.opened id hid] at hr
    exact Option.some.inj hr ▸ proper_of_idle rfl
  · exact hs id r (h.kept id hid ▸ hr)

/-- A message to a listener says nothing of the lists. -/
theorem registered_notice : registered v (notice u cmd version id p :: l) = registered v l := by
  rw [notice]
  split_ifs <;> rfl

/-- Telling the listeners keeps them on the list. -/
theorem registered_notices {ids : List ID32} {ps : List Text} :
    registered v ((List.zipWith (notice u cmd version) ids ps).reverse ++ l) = registered v l := by
  induction ids generalizing ps l with
  | nil => rfl
  | cons id ids ih =>
    cases ps with
    | nil => rfl
    | cons p ps =>
      rw [List.zipWith_cons_cons, List.reverse_cons, List.append_assoc, ih]
      exact registered_notice

/-- A listener who is told is on the list. -/
theorem told_notice (hp : p ∈ registered u l) : Told (notice u cmd version id p) l := by
  rw [notice]
  by_cases hnil : p = []
  · rw [if_pos hnil]
    trivial
  · rw [if_neg hnil]
    exact fun _ => ⟨hp, hnil⟩

/-- They are told one after the other, and the list stays the same meanwhile. -/
theorem past_notices {ids : List ID32} {ps : List Text} (h : Past Told l)
    (hps : ∀ p ∈ ps, p ∈ registered u l) :
    Past Told ((List.zipWith (notice u cmd version) ids ps).reverse ++ l) := by
  induction ids generalizing ps l with
  | nil => exact h
  | cons id ids ih =>
    cases ps with
    | nil => exact h
    | cons p ps =>
      obtain ⟨hp, hps⟩ := List.forall_mem_cons.mp hps
      rw [List.zipWith_cons_cons, List.reverse_cons, List.append_assoc]
      refine ih ⟨told_notice hp, h⟩ fun q hq => ?_
      change q ∈ registered u (notice u cmd version id p :: l)
      rw [registered_notice]
      exact hps q hq

/-- What a notification does: one message to each listener, and the list is removed if the object is
deleted. -/
theorem notifyUpdate_eq_some (hnonempty : s.updateListeners.lookup u ≠ some [])
    (hlist : s.listeners u = registered u s.log)
    (hstep : s.notifyUpdate u cmd version = some t) : ∃ ids m,
      Sent u cmd version ids (registered u s.log) s m ∧
        t = if cmd = .del ∧ registered u s.log ≠ [] then
            Kernel.write { m with updateListeners := m.updateListeners.erase u } (.forgotten u)
          else m := by
  obtain ⟨hcmd, hstep⟩ := pocoAssert_eq_some.mp hstep
  rw [Kernel.listeners] at hlist
  cases hps : s.updateListeners.lookup u with
  | none =>
    rw [hps] at hstep hlist
    obtain rfl := Option.some.inj hstep
    rw [← hlist]
    exact ⟨[], s, .nil, (if_neg fun hboth => hboth.2 rfl).symm⟩
  | some ps =>
    rw [hps] at hstep hlist
    obtain ⟨m, hm, rfl⟩ := Option.map_eq_some_iff.mp hstep
    obtain ⟨ids, hsent⟩ := notify_eq_some hm
    obtain rfl : ps = registered u s.log := hlist
    have hne : registered u s.log ≠ [] := fun hnil => hnonempty (hnil ▸ hps)
    refine ⟨ids, m, hsent, ?_⟩
    by_cases hdel : cmd = .del
    · rw [if_pos hdel, if_pos ⟨hdel, hne⟩]
    · rw [if_neg hdel, if_neg fun hboth => hdel hboth.1]

/-- **And telling everybody on it.** -/
theorem Listening.notified (h : Listening s) (hstep : s.notifyUpdate u cmd version = some t) :
    Listening t := by
  obtain ⟨ids, m, hsent, rfl⟩ := notifyUpdate_eq_some (h.nonempty u) (h.list u) hstep
  have hm : Listening m := by
    refine ⟨fun v => ?_, fun v => ?_, hsent.placed h.placed, ?_⟩
    · rw [hsent.log, registered_notices, Kernel.listeners, hsent.listeners]
      exact h.list v
    · rw [hsent.listeners]
      exact h.nonempty v
    · rw [hsent.log]
      exact past_notices h.told fun p hp => hp
  split_ifs with hdel
  · refine hm.relist (e := .forgotten u) (u := u) rfl rfl trivial
      (fun v hv => if_neg fun hu => hv hu.symm) (fun v hv => AList.lookup_erase_ne hv) ?_ ?_
    · change ((m.updateListeners.erase u).lookup u).getD [] = _
      rw [AList.lookup_erase, registered, if_pos rfl]
      rfl
    · change (m.updateListeners.erase u).lookup u ≠ _
      rw [AList.lookup_erase]
      exact fun hnil => by cases hnil
  · exact hm

/-! ### Handlers that leave the lists alone -/

section Handlers

variable {n : Kernel} {err message : Text}

theorem Quiet.tell {c : Command} {x : Text} (h : Quiet s t) :
    Quiet s (t.write (.ims id c u x)) := h.write trivial

/-- The user manager is told as well. -/
theorem Quiet.userManager (h : Quiet s t) : Quiet s (t.write (.userManager version)) :=
  h.write trivial

/-- A message to the router that is about no list. -/
theorem Quiet.router {c : Command} {key : Text} (h : Quiet s t) (hc : ¬ IsNotice c ∧ ¬ IsAnswer c) :
    Quiet s (t.write (.router id c u key version)) := h.write hc

/-- A new request of the IMS. -/
theorem Quiet.openImsRequest (h : Quiet s t) (hr : r.Proper)
    (hopen : t.openImsRequest ims r = some (id, t')) : Quiet s t' := by
  obtain ⟨⟨i, k⟩, hget, hk⟩ := Option.map_eq_some_iff.mp hopen
  obtain ⟨-, rfl, rfl⟩ := Kernel.getRequestId_eq_some hget
  obtain ⟨rfl, rfl⟩ := Prod.mk.inj hk
  exact ⟨h.log, h.listeners, fun hs => Ledger.forall_lookup_insert (h.placed hs) hr⟩

/-- The answer to the IMS, whose request is over. -/
theorem Quiet.sendImsOnUpdateRegisterResponse (h : Quiet s t)
    (hsend : t.sendImsOnUpdateRegisterResponse id r = some t') : Quiet s t' := by
  obtain ⟨i, -, rfl⟩ := Option.map_eq_some_iff.mp hsend
  exact h.tell.eraseImsReqId.eraseRequest

theorem Quiet.handleFailedOnUpdateRegisterRequest (h : Quiet s t)
    (hsend : t.handleFailedOnUpdateRegisterRequest id err = some t') : Quiet s t' := by
  obtain ⟨i, -, rfl⟩ := Option.map_eq_some_iff.mp hsend
  exact h.tell.eraseImsReqId.eraseRequest

theorem Quiet.handleFailedOnUpdateUnregisterRequest (h : Quiet s t)
    (hsend : t.handleFailedOnUpdateUnregisterRequest id r err = some t') : Quiet s t' := by
  obtain ⟨i, -, rfl⟩ := Option.map_eq_some_iff.mp hsend
  exact h.tell.eraseImsReqId.eraseRequest

/-- The handlers that leave the lists alone: they pass an answer on that another node gave. -/
theorem quiet_handleRouterOnUpdateRegistered
    (h : s.handleRouterOnUpdateRegistered id = some t) : Quiet s t := by
  rw [Kernel.handleRouterOnUpdateRegistered] at h
  cases hr : s.requests.lookup id with
  | none =>
    rw [hr] at h
    exact Option.some.inj h ▸ .refl
  | some r =>
    cases hi : s.imsReqIds.lookup id with
    | none =>
      rw [hr, hi] at h
      exact Option.some.inj h ▸ .refl
    | some i =>
      rw [hr, hi] at h
      dsimp only at h
      split_ifs at h
      · exact Option.some.inj h ▸ Quiet.refl.clear.eraseRequest
      · exact Quiet.refl.clear.sendImsOnUpdateRegisterResponse h

theorem quiet_handleRouterOnUpdateRegisterFail
    (h : s.handleRouterOnUpdateRegisterFail id message = some t) : Quiet s t := by
  rw [Kernel.handleRouterOnUpdateRegisterFail] at h
  cases hr : s.requests.lookup id with
  | none =>
    rw [hr] at h
    exact Option.some.inj h ▸ .refl
  | some r =>
    rw [hr] at h
    dsimp only at h
    split_ifs at h
    · exact Option.some.inj h ▸ Quiet.refl.eraseRequest
    · exact Quiet.refl.handleFailedOnUpdateRegisterRequest h

theorem quiet_handleRouterOnUpdateUnregistered :
    Quiet s (s.handleRouterOnUpdateUnregistered id) := by
  rw [Kernel.handleRouterOnUpdateUnregistered]
  split
  · exact Quiet.refl.tell.eraseImsReqId.clear.eraseRequest
  · exact .refl

theorem quiet_handleRouterOnUpdateUnregisterFail
    (h : s.handleRouterOnUpdateUnregisterFail id message = some t) : Quiet s t := by
  rw [Kernel.handleRouterOnUpdateUnregisterFail] at h
  cases hr : s.requests.lookup id with
  | none =>
    rw [hr] at h
    exact Option.some.inj h ▸ .refl
  | some r =>
    rw [hr] at h
    exact Quiet.refl.clear.handleFailedOnUpdateUnregisterRequest h

/-- The check of a key decides about a message, not about a list. -/
theorem quiet_handleKeyManagerCheck : Quiet s (s.handleKeyManagerCheck id r) := by
  have hnotified {event : String} : Quiet s (s.sendUpdateNotificationToIms id r event) := by
    rw [Kernel.sendUpdateNotificationToIms]
    split_ifs
    · exact Quiet.refl.userManager.eraseRequest
    · exact (Quiet.refl.setRequest (proper_of_idle rfl)).tell
  rw [Kernel.handleKeyManagerCheck]
  split_ifs
  · rw [Kernel.handleKeyManagerIdFoundRequest]
    split
    · exact (Quiet.refl.setRequest (proper_of_idle rfl)).router (by decide)
    · exact hnotified
    · exact hnotified
    · exact .refl
  · rw [Kernel.handleKeyManagerIdNotFoundRequest]
    split_ifs
    · exact (Quiet.refl.router (by decide)).eraseRequest
    · exact Quiet.refl.eraseRequest

theorem quiet_handleImsSendToPeerConfirmed (h : s.handleImsSendToPeerConfirmed id = some t) :
    Quiet s t := by
  rw [Kernel.handleImsSendToPeerConfirmed] at h
  cases hr : s.requests.lookup id with
  | none =>
    rw [hr] at h
    exact Option.some.inj h ▸ .refl
  | some r =>
    rw [hr] at h
    dsimp only at h
    split_ifs at h
    · exact Option.some.inj h ▸ .refl
    · obtain ⟨-, h⟩ := pocoAssert_eq_some.mp h
      exact Option.some.inj h ▸ (Quiet.refl.router (by decide)).eraseRequest.clear

/-- Failures are passed on, to the router or to the IMS. -/
theorem quiet_handleImsFailed {data : Text} : Quiet s (s.handleImsFailed id data) := by
  rw [Kernel.handleImsFailed]
  cases s.requests.lookup id with
  | none => exact .refl
  | some r =>
    have hsent : Quiet s (if r.cmd = .findPeer then s.write (.router id .deliverFail 0 data 0)
        else s) := by
      split_ifs
      · exact Quiet.refl.router (by decide)
      · exact .refl
    dsimp only
    by_cases hu : r.uuid = s.userJsonUuid
    · rw [if_pos hu]
      exact hsent
    · rw [if_neg hu]
      exact hsent.eraseRequest.clear

theorem quiet_handleRouterSendToPeerConfirm
    (h : s.handleRouterSendToPeerConfirm id = some t) : Quiet s t := by
  rw [Kernel.handleRouterSendToPeerConfirm] at h
  split at h
  · obtain ⟨-, h⟩ := pocoAssert_eq_some.mp h
    exact Option.some.inj h ▸ Quiet.refl.tell.eraseImsReqId.clear.eraseRequest
  · exact Option.some.inj h ▸ .refl

theorem quiet_handleRouterFailed {data : Text} : Quiet s (s.handleRouterFailed id data) := by
  rw [Kernel.handleRouterFailed]
  cases s.requests.lookup id with
  | none => exact .refl
  | some r =>
    dsimp only
    split_ifs
    · exact Quiet.refl.tell.eraseImsReqId.clear.eraseRequest
    · exact Quiet.refl.eraseImsReqId.clear.eraseRequest

theorem quiet_handleRouterCancel (h : s.handleRouterCancel id = some t) : Quiet s t := by
  rw [Kernel.handleRouterCancel] at h
  cases hr : s.requests.lookup id with
  | none =>
    rw [hr] at h
    exact Option.some.inj h ▸ .refl
  | some r =>
    rw [hr] at h
    dsimp only at h
    split at h
    · rw [Kernel.handleFailedRequest] at h
      split at h
      · obtain ⟨i, -, rfl⟩ := Option.map_eq_some_iff.mp h
        exact Quiet.refl.tell.eraseImsReqId.eraseRequest
      · exact Quiet.refl.handleFailedOnUpdateRegisterRequest h
      · exact Quiet.refl.handleFailedOnUpdateUnregisterRequest h
      · exact Option.some.inj h ▸ .refl
    · exact Option.some.inj h ▸ .refl
    · exact Option.some.inj h ▸ Quiet.refl.eraseRequest
    · exact Option.some.inj h ▸ Quiet.refl.eraseRequest

end Handlers

/-! ### Steps -/

/-- An entry that answers who was put on a list or taken off it: the own IMS, which is the empty
text on the list, or the node the request came from. -/
def Entry.Answers (cmd : Command) (u : UUID) (p : Text) : Entry → Prop
  | .ims _ c v _ => c = cmd ∧ v = u ∧ p = []
  | .router _ c v _ _ => c = cmd ∧ v = u ∧ p ≠ []
  | _ => False

/-- **What a step does to the lists**: nothing, or somebody is put on a list or taken off it and
answered, or all on a list are told of an update. -/
inductive Changed (s t : Kernel) : Prop
  | quiet (h : Quiet s t)
  | added (m : Kernel) (u : UUID) (p : Text) (e : Entry) (hm : Quiet s m)
    (he : e.Answers .onUpdateRegistered u p) (ht : Quiet ((m.addUpdateListener u p).write e) t)
  | removed (m : Kernel) (u : UUID) (p : Text) (e : Entry) (hm : Quiet s m) (hp : p ∈ m.listeners u)
    (he : e.Answers .onUpdateUnregistered u p)
    (ht : Quiet ((m.removeUpdateListener u p).1.write e) t)
  | notified (u : UUID) (cmd : Command) (version : ℕ) (h : s.notifyUpdate u cmd version = some t)

/-- The own IMS is taken off a list here, or its request goes to other nodes. -/
theorem changed_handleImsUnregisterOnUpdateRequest {i : ID32} {m : Kernel} (hm : Quiet s m)
    (hstep : m.handleImsUnregisterOnUpdateRequest i u = some t) : Changed s t := by
  rw [Kernel.handleImsUnregisterOnUpdateRequest] at hstep
  by_cases hp : [] ∈ m.listeners u
  · have ht := hstep
    rw [removeUpdateListener_of_mem hp] at ht
    refine .removed m u [] (.ims i .onUpdateUnregistered u []) hm hp ⟨rfl, rfl, rfl⟩ ?_
    rw [removeUpdateListener_of_mem hp]
    exact Option.some.inj ht ▸ .refl
  · rw [removeUpdateListener_of_notMem hp] at hstep
    obtain ⟨⟨id, t'⟩, hopen, rfl⟩ := Option.map_eq_some_iff.mp hstep
    exact .quiet (hm.openImsRequest (proper_of_cmd (.inr rfl) fun htyp => by cases htyp) hopen)

/-- Where the object is stored here somebody is put on its list: the IMS, or the node that asked.
That node has a key, so it is not taken for the IMS. -/
theorem changed_handleStoragePositiveResponse (hr : r.typ = .router → r.data ≠ [])
    (hstep : s.handleStoragePositiveResponse id r = some t) : Changed s t := by
  rw [Kernel.handleStoragePositiveResponse] at hstep
  split_ifs at hstep with htyp
  · exact .added s r.uuid r.data (.router id .onUpdateRegistered r.uuid [] 0) .refl
      ⟨rfl, rfl, hr htyp⟩ (Option.some.inj hstep ▸ Quiet.refl.clear.eraseRequest)
  · obtain ⟨i, -, rfl⟩ := Option.map_eq_some_iff.mp hstep
    exact .added s r.uuid [] (.ims i .onUpdateRegistered r.uuid []) .refl ⟨rfl, rfl, rfl⟩
      Quiet.refl.eraseImsReqId.eraseRequest

/-- Another node is taken off a list, and told so or told that it was not on it. -/
theorem changed_handleRouterOnUpdateUnregister {key : Text} :
    Changed s (s.handleRouterOnUpdateUnregister id u key) := by
  rw [Kernel.handleRouterOnUpdateUnregister]
  by_cases hkey : key = []
  · rw [if_pos hkey]
    exact .quiet (Quiet.refl.router (by decide)).clear
  · rw [if_neg hkey]
    by_cases hp : key ∈ s.listeners u
    · refine .removed s u key (.router id .onUpdateUnregistered u [] 0) .refl hp ⟨rfl, rfl, hkey⟩ ?_
      rw [removeUpdateListener_of_mem hp]
      exact .refl
    · rw [removeUpdateListener_of_notMem hp]
      exact .quiet (Quiet.refl.router (by decide))

/-- An answer is for the request that waits for it. -/
theorem of_waitingFor {place : Place} (h : s.waitingFor id place = some r) :
    s.requests.lookup id = some r ∧ r.place = place := by
  obtain ⟨hr, hplace⟩ := Option.filter_eq_some_iff.mp h
  exact ⟨hr, of_decide_eq_true hplace⟩

/-- **The inversion lemma** of the steps. -/
theorem changed_of_step (h : Placed s) {e : Event} (hstep : step s e = some t) : Changed s t := by
  cases e with
  -- what the IMS asks: registration opens a request, the rest is quiet or takes one from the list
  | imsRegister i u =>
    obtain ⟨⟨id, t'⟩, hopen, rfl⟩ := Option.map_eq_some_iff.mp hstep
    have hasked : Quiet s (s.write (.asked i)) := Quiet.refl.write trivial
    exact .quiet (hasked.openImsRequest (proper_of_cmd (.inl rfl) fun htyp => by cases htyp) hopen)
  | imsUnregister i u =>
    exact changed_handleImsUnregisterOnUpdateRequest
      (Quiet.refl.write (e := .asked i) trivial) hstep
  | imsSend i u userId data =>
    obtain ⟨-, hstep⟩ := pocoAssert_eq_some.mp hstep
    obtain ⟨⟨id, t'⟩, hopen, rfl⟩ := Option.map_eq_some_iff.mp hstep
    have hasked : Quiet s (s.write (.asked i)) := Quiet.refl.write trivial
    have hopened : Quiet s t' := hasked.openImsRequest (proper_of_idle rfl) hopen
    have hsent : Quiet s (t'.write (.sent id i userId data)) := hopened.write trivial
    exact .quiet (hsent.router (by decide))
  | imsConfirm id => exact .quiet (quiet_handleImsSendToPeerConfirmed hstep)
  | imsFail id data => exact .quiet (Option.some.inj hstep ▸ quiet_handleImsFailed)
  -- a request that the storage found is taken up for the lists; one it did not find goes on
  | lookedUp id found =>
    obtain ⟨r, hr, hstep⟩ := Option.bind_eq_some_iff.mp hstep
    obtain ⟨hlookup, hplace⟩ := of_waitingFor hr
    split_ifs at hstep
    · exact changed_handleStoragePositiveResponse
        (fun htyp => (h id r hlookup).key htyp hplace) hstep
    · refine .quiet (Option.some.inj hstep ▸ ?_)
      rw [Kernel.handleStorageNegativeResponse]
      split_ifs
      · exact (Quiet.refl.router (by decide)).eraseRequest
      · exact Quiet.refl.setRequest ⟨fun _ => (h id r hlookup).cmd (.inr hplace), nofun⟩
  | publicKey id =>
    obtain ⟨r, hr, rfl⟩ := Option.map_eq_some_iff.mp hstep
    obtain ⟨hlookup, hplace⟩ := of_waitingFor hr
    exact .quiet ((Quiet.refl.setRequest (proper_of_idle rfl)).router
      ((h id r hlookup).cmd (.inl hplace)))
  | checked id =>
    obtain ⟨r, -, rfl⟩ := Option.map_eq_some_iff.mp hstep
    exact .quiet quiet_handleKeyManagerCheck
  -- what a peer asks is checked first, and its answer changes no list
  | register id u key =>
    refine .quiet (Option.some.inj hstep ▸ ?_)
    rw [Kernel.handleRouterOnUpdateRegister]
    split_ifs with hkey
    · exact (Quiet.refl.router (by decide)).clear
    · exact Quiet.refl.setRequest (proper_of_cmd (.inl rfl) fun _ _ => hkey)
  | unregister id u key => exact Option.some.inj hstep ▸ changed_handleRouterOnUpdateUnregister
  | findPeer id cmd u key v =>
    exact .quiet (Option.some.inj hstep ▸ Quiet.refl.setRequest (proper_of_keyManager rfl))
  -- what the router answers
  | registered id => exact .quiet (quiet_handleRouterOnUpdateRegistered hstep)
  | registerFail id message => exact .quiet (quiet_handleRouterOnUpdateRegisterFail hstep)
  | unregistered id =>
    exact .quiet (Option.some.inj hstep ▸ quiet_handleRouterOnUpdateUnregistered)
  | unregisterFail id message => exact .quiet (quiet_handleRouterOnUpdateUnregisterFail hstep)
  | peerFound id =>
    obtain ⟨r, -, rfl⟩ := Option.map_eq_some_iff.mp hstep
    exact .quiet (Quiet.refl.router (by decide))
  | sendToPeer id data =>
    refine .quiet ?_
    rw [Messages.step, Kernel.handleRouterSendToPeer] at hstep
    split at hstep
    · exact Option.some.inj hstep ▸ .refl
    · obtain ⟨-, hstep⟩ := pocoAssert_eq_some.mp hstep
      exact Option.some.inj hstep ▸ Quiet.refl.tell
  | sendToPeerConfirm id => exact .quiet (quiet_handleRouterSendToPeerConfirm hstep)
  | deliverFail id data => exact .quiet (Option.some.inj hstep ▸ quiet_handleRouterFailed)
  | cancel id => exact .quiet (quiet_handleRouterCancel hstep)
  | userManagerRegister u =>
    obtain ⟨⟨id, t'⟩, hget, rfl⟩ := Option.map_eq_some_iff.mp hstep
    obtain ⟨-, rfl, rfl⟩ := Kernel.getRequestId_eq_some hget
    refine .quiet ⟨⟨[], rfl, List.forall_mem_nil _⟩, rfl, fun hs => ?_⟩
    exact Ledger.forall_lookup_insert hs (proper_of_cmd (.inl rfl) fun htyp => by cases htyp)
  -- and what is notified takes from the list whoever it was sent to
  | notify u cmd v => exact .notified u cmd v hstep
  | elsewhere c =>
    obtain rfl := Option.some.inj hstep
    exact .quiet ⟨⟨[], rfl, List.forall_mem_nil _⟩, rfl, id⟩

/-- An answer says nothing of the lists. -/
theorem Listening.answer (h : Listening s) (hcmd : IsAnswer cmd) (he : e.Answers cmd u p) :
    Listening (s.write e) := by
  have hregistered (v : UUID) : registered v (e :: s.log) = registered v s.log := by
    cases e with
    | ims i c w x => rfl
    | router i c w x n => rfl
    | _ => exact he.elim
  have htold : Told e s.log := by
    cases e with
    | router i c w x n =>
      obtain ⟨rfl, -, -⟩ := he
      intro hnotice
      rcases hcmd with rfl | rfl <;> rcases hnotice with hnotice | hnotice <;> cases hnotice
    | ims i c w x => trivial
    | _ => exact he.elim
  exact ⟨fun v => (h.list v).trans (hregistered v).symm, h.nonempty, h.placed, htold, h.told⟩

/-- **The step lemma.** -/
theorem Listening.step (h : Listening s) {e : Event} (hstep : step s e = some t) :
    Listening t := by
  cases changed_of_step h.placed hstep with
  | quiet hq => exact h.quiet hq
  | added m u p e hm he ht =>
    exact ((h.quiet hm).addUpdateListener.answer (.inl rfl) he).quiet ht
  | removed m u p e hm hp he ht =>
    exact ((h.quiet hm).removeUpdateListener.answer (.inr rfl) he).quiet ht
  | notified u cmd version hnotify => exact h.notified hnotify

/-! ### Answers -/

/-- What an entry about a list is answered with. -/
def Entry.change : Entry → Option (Command × UUID × Text)
  | .registered u p => some (.onUpdateRegistered, u, p)
  | .unregistered u p => some (.onUpdateUnregistered, u, p)
  | _ => none

/-- Everybody who was put on a list or taken off it has had an answer. -/
def Settled (l : List Entry) : Prop := l.head?.bind Entry.change = none

/-- An entry after one about a list is the answer to it, and other nodes are answered only so. -/
structure Answered (e : Entry) (l : List Entry) : Prop where
  answers : ∀ cmd u p, l.head?.bind Entry.change = some (cmd, u, p) → e.Answers cmd u p
  only : ∀ id cmd u x n, e = .router id cmd u x n → IsAnswer cmd →
    ∃ p, l.head?.bind Entry.change = some (cmd, u, p)

/-- **The invariant** of the answers. -/
def Answering (l : List Entry) : Prop := Past Answered l ∧ Settled l

/-- An entry that is neither about a list nor an answer. -/
theorem Answering.plain (h : Answering l) (he : e.change = none)
    (honly : ∀ id cmd u x n, e = .router id cmd u x n → ¬ IsAnswer cmd) : Answering (e :: l) := by
  refine ⟨⟨⟨fun cmd u p hchange => ?_, fun id cmd u x n hrouter hanswer => ?_⟩, h.1⟩, he⟩
  · cases h.2.symm.trans hchange
  · exact absurd hanswer (honly id cmd u x n hrouter)

/-- Several of them. -/
theorem Answering.append (h : Answering l) (hes : ∀ e ∈ es, e.change = none)
    (honly : ∀ e ∈ es, ∀ id cmd u x n, e = .router id cmd u x n → ¬ IsAnswer cmd) :
    Answering (es ++ l) := by
  induction es with
  | nil => exact h
  | cons e es ih =>
    obtain ⟨he, hes⟩ := List.forall_mem_cons.mp hes
    obtain ⟨hone, honly⟩ := List.forall_mem_cons.mp honly
    exact (ih hes honly).plain he hone

/-- **A quiet step keeps the answers in order.** -/
theorem Answering.quiet (h : Answering s.log) (hq : Quiet s t) : Answering t.log := by
  obtain ⟨es, hlog, hes⟩ := hq.log
  rw [hlog]
  refine h.append (fun e he => ?_) fun e he id cmd u x n hrouter => (hrouter ▸ hes e he).2
  have hplain := hes e he
  cases e with
  | registered u p => exact hplain.elim
  | unregistered u p => exact hplain.elim
  | _ => rfl

/-- A list is changed, and that is answered. -/
theorem Answering.answered {a : Entry} (h : Answering l) (he : e.change = some (cmd, u, p))
    (ha : a.Answers cmd u p) : Answering (a :: e :: l) := by
  have hentry : Answered e l := by
    refine ⟨fun cmd' u' p' hchange => ?_, fun id cmd' u' x n hrouter _ => ?_⟩
    · cases h.2.symm.trans hchange
    · rw [hrouter] at he
      cases he
  refine ⟨⟨⟨fun cmd' u' p' hchange => ?_, fun id cmd' u' x n hrouter _ => ?_⟩, hentry, h.1⟩, ?_⟩
  · cases he.symm.trans hchange
    exact ha
  · subst hrouter
    obtain ⟨rfl, rfl, -⟩ := ha
    exact ⟨p, he⟩
  · cases a with
    | ims i c w x => rfl
    | router i c w x n => rfl
    | _ => exact ha.elim

/-- A notice answers nobody. -/
theorem change_notice {ids : List ID32} {ps : List Text}
    (he : e ∈ List.zipWith (notice u cmd version) ids ps) :
    e.change = none ∧ ∀ id c v x n, e = .router id c v x n → ¬ IsAnswer c := by
  obtain ⟨i, hi, rfl⟩ := List.getElem_of_mem he
  rw [List.getElem_zipWith, notice]
  split_ifs
  all_goals
    refine ⟨rfl, fun id c v x n hrouter => ?_⟩
    cases hrouter
    try decide

/-- **The step lemma** of the answers. -/
theorem Answering.step (h : Answering s.log) (hs : Listening s) {e : Event}
    (hstep : Messages.step s e = some t) : Answering t.log := by
  cases changed_of_step hs.placed hstep with
  | quiet hq => exact h.quiet hq
  | added m u p e hm he ht =>
    have hadded : Answering ((m.addUpdateListener u p).write e).log := (h.quiet hm).answered rfl he
    exact hadded.quiet ht
  | removed m u p e hm hp he ht =>
    have hremoved : Answering ((m.removeUpdateListener u p).1.write e).log := by
      rw [removeUpdateListener_of_mem hp]
      exact (h.quiet hm).answered rfl he
    exact hremoved.quiet ht
  | notified u cmd version hnotify =>
    obtain ⟨ids, m, hsent, rfl⟩ := notifyUpdate_eq_some (hs.nonempty u) (hs.list u) hnotify
    have hm : Answering m.log := by
      rw [hsent.log]
      exact h.append (fun e he => (change_notice (List.mem_reverse.mp he)).1)
        fun e he => (change_notice (List.mem_reverse.mp he)).2
    split_ifs
    · exact hm.plain rfl nofun
    · exact hm

/-! ### Runs -/

variable {user : UUID} {pem : Option Text} {c : ID32} {events : List Event}

/-- There are no listeners at the start. -/
theorem listening_init : Listening (Kernel.init user pem c) := by
  refine ⟨fun _ => rfl, fun u hu => ?_, fun id r hr => ?_, past_nil⟩
  · cases hu
  · cases hr

/-- The run lemma of the lists. -/
theorem listening_of_run (hrun : Run.run step (Kernel.init user pem c) events = some s) :
    Listening s :=
  Run.invariant_of_run_all Listening (fun _ _ _ h hstep => h.step hstep) listening_init hrun

/-- Along a run lists change only with an answer. -/
theorem answering_of_run (hrun : Run.run step (Kernel.init user pem c) events = some s) :
    Answering s.log := by
  have hboth : Listening s ∧ Answering s.log :=
    Run.invariant_of_run_all (fun s => Listening s ∧ Answering s.log)
      (fun _ _ _ h hstep => ⟨h.1.step hstep, h.2.step h.1 hstep⟩) ⟨listening_init, past_nil, rfl⟩
      hrun
  exact hboth.2

/-- **Who is told of an update**: when an object is updated or deleted after whatever run, one
message goes to each who is registered by the log, in their order, each under an id of its own that
no request had and that its own request has then, and nothing else is sent. After a deletion nobody
is on the list. -/
theorem notified_of_run (hrun : Run.run step (Kernel.init user pem c) events = some s)
    (hstep : step s (.notify u cmd version) = some t) :
    ∃ ids : List ID32, ids.length = (registered u s.log).length ∧ ids.Nodup ∧
      (∀ id ∈ ids, s.requests.lookup id = none ∧
        t.requests.lookup id = some (Kernel.notification u cmd)) ∧
      t.log = (if cmd = .del ∧ registered u s.log ≠ [] then [Entry.forgotten u] else []) ++
        ((List.zipWith (notice u cmd version) ids (registered u s.log)).reverse ++ s.log) ∧
          (cmd = .del → t.listeners u = []) := by
  have hlistening := listening_of_run hrun
  have hlist := (hlistening.step hstep).list u
  obtain ⟨ids, m, hsent, rfl⟩ :=
    notifyUpdate_eq_some (hlistening.nonempty u) (hlistening.list u) hstep
  refine ⟨ids, hsent.length, hsent.nodup, fun id hid => ⟨hsent.fresh id hid, ?_⟩, ?_,
    fun hdel => ?_⟩
  · split_ifs
    · exact hsent.opened id hid
    · exact hsent.opened id hid
  · split_ifs
    · exact congrArg (Entry.forgotten u :: ·) hsent.log
    · exact hsent.log
  · rw [hlist]
    by_cases hne : registered u s.log = []
    · rw [if_neg fun hboth => hboth.2 hne, hsent.log, registered_notices, hne]
    · rw [if_pos ⟨hdel, hne⟩]
      exact if_pos rfl

/-- The IMS and another user want to be told of an object. -/
def twoListeners : List Event :=
  [.imsRegister 3 5, .lookedUp 0 true, .register 0x10000000 5 ['B'], .lookedUp 0x10000000 true]

/-- The run of the two witnesses, and the step after it. -/
theorem run_twoListeners : ∃ s t, Run.run step (Kernel.init 1 none 0) twoListeners = some s ∧
    step s (.notify 5 .del 7) = some t ∧ s.listeners 5 = [[], ['B']] :=
  ⟨_, _, rfl, rfl, rfl⟩

theorem notified_of_run_twoListeners : ∃ s t : Kernel,
    step s (.notify 5 .del 7) = some t ∧ s.listeners 5 = [[], ['B']] ∧
      ∃ ids : List ID32, ids.length = (registered 5 s.log).length ∧ ids.Nodup ∧
        (∀ id ∈ ids, s.requests.lookup id = none ∧
          t.requests.lookup id = some (Kernel.notification 5 .del)) ∧
        t.log = (if Command.del = .del ∧ registered 5 s.log ≠ [] then [Entry.forgotten 5]
          else []) ++ ((List.zipWith (notice 5 .del 7) ids (registered 5 s.log)).reverse ++ s.log) ∧
            (Command.del = .del → t.listeners 5 = []) := by
  obtain ⟨s, t, hrun, hstep, hlist⟩ := run_twoListeners
  exact ⟨s, t, hstep, hlist, notified_of_run hrun hstep⟩

end Messages

end Metax
