import Metax.Library.Run
import Metax.UserManager.Survival

/-!
# Keys of the user json

A key that is recorded on this device should be found in the user json from then on, until the user
deletes the uuid or records another key for it, here or on another device. `Recorded` is the record
of what should be found, `KeepsKeys` that it is found.

A copy of the user json that is received replaces the one in memory, with all changes that no copy
has yet. So the node goes on and the keys are kept exactly as long as every copy that can be read
has them already, no key is recorded in a json that was replaced by an invalid one, and nothing ends
the node (`keepsKeys_iff_harmless`). The last one is a matter of the copies as well: with one whose
version is no number the node ends as soon as the timer wants to save a change, and the keys of this
change are in no file.
-/

namespace Metax

namespace UserManager

open Exit

variable {J E : Type} {L : Libs J E} {s t : State J E} {k : Text → Option KeyInfo}
  {now : UInt64} {cmd : Command} {u : UUID}

/-! ### Handlers that do not touch the keys -/

/-- The keys the task has. -/
def HasKeys (k : Text → Option KeyInfo) (s : State J E) : Prop := s.key = k

/-- The keys are the same, however the handler ends. -/
def Keeps (k : Text → Option KeyInfo) (o : Exit (State J E)) : Prop :=
  o.Ends (HasKeys k) (HasKeys k)

/-- The ways an operation can end with the keys kept. -/
theorem keeps_done (hs : s.key = k) : Keeps k (done s) := hs

theorem keeps_andThen {o : Exit (State J E)} {f : State J E → Exit (State J E)} (ho : Keeps k o)
    (hf : ∀ s, s.key = k → Keeps k (f s)) : Keeps k (o.andThen f) :=
  ends_andThen.mpr (ho.mono hf fun _ h => h)

theorem keeps_orThrow {α : Type} {a : Option α} {f : α → Exit (State J E)} (hs : s.key = k)
    (hf : ∀ x ∈ a, Keeps k (f x)) : Keeps k (orThrow a s f) :=
  ends_orThrow hs hf

theorem keeps_assert {c : Prop} [Decidable c] {o : Exit (State J E)} (ho : Keeps k o) :
    Keeps k (assert c o) :=
  ends_assert.mpr fun _ => ho

theorem keeps_ite {c : Prop} [Decidable c] {o o' : Exit (State J E)} (ho : Keeps k o)
    (ho' : Keeps k o') : Keeps k (if c then o else o') :=
  ends_ite.mpr ⟨fun _ => ho, fun _ => ho'⟩

/-- A change of the user json outside `owned_data`. -/
theorem key_of_userJson {j : UserJson} (hj : s.userJson = some j) (hs : s.key = k) : j.key = k := by
  rw [← hs]
  funext name
  rw [State.key, hj, Option.bind_some]

namespace State

/-- These send messages or write to files. -/
theorem keeps_sendUserJsonToKernel {json : J} (hs : s.key = k) :
    Keeps k (s.sendUserJsonToKernel L json) :=
  keeps_orThrow hs fun _ _ => keeps_done hs

theorem keeps_requestUserJsonFromNetwork (hs : s.key = k) :
    Keeps k (s.requestUserJsonFromNetwork L) :=
  keeps_orThrow hs fun _ _ => keeps_done hs

theorem keeps_registerOnUpdate (hs : s.key = k) : Keeps k (s.registerOnUpdate L) :=
  keeps_orThrow hs fun _ _ => keeps_done hs

theorem keeps_backupUserJson {json : E} {lastUpdated : UInt64} (hs : s.key = k) :
    Keeps k (s.backupUserJson L json cmd lastUpdated) :=
  keeps_orThrow hs fun _ _ => keeps_orThrow hs fun _ _ => keeps_orThrow hs fun _ _ => keeps_done hs

/-- The devices of the user are no keys. -/
theorem keeps_updateDeviceJson (hs : s.key = k) : Keeps k (s.updateDeviceJson L cmd) := by
  refine keeps_assert (keeps_orThrow hs fun j _ => ?_)
  refine keeps_orThrow hs fun version _ => ?_
  refine keeps_orThrow hs fun lastUpdated _ => ?_
  exact keeps_orThrow hs fun uuid _ => keeps_done hs

theorem keeps_createCipher {key iv : Text} (hs : s.key = k) :
    Keeps k (s.createCipher L key iv) :=
  keeps_ite (keeps_done hs) trivial

/-- What is saved is what is in memory. -/
theorem keeps_saveUserJson (hs : s.key = k) : Keeps k (s.saveUserJson L cmd now) := by
  refine keeps_assert (keeps_assert (keeps_orThrow hs fun j hj => ?_))
  refine keeps_orThrow hs fun cipher _ => ?_
  have hkey : j.key = k := key_of_userJson hj hs
  refine keeps_andThen (keeps_updateDeviceJson hkey) fun s hs => ?_
  exact keeps_ite (keeps_backupUserJson hs) (keeps_done hs)

theorem keeps_updateVersion (hs : s.key = k) : Keeps k s.updateVersion := by
  refine keeps_orThrow hs fun j hj => keeps_orThrow hs fun version _ => ?_
  have hkey : j.key = k := key_of_userJson hj hs
  exact keeps_done hkey

theorem keeps_saveUpdated (hs : s.key = k) : Keeps k (s.saveUpdated L cmd now) :=
  keeps_andThen (keeps_updateVersion hs) fun _ hs => keeps_saveUserJson hs

theorem keeps_savePending (hs : s.key = k) : Keeps k (s.savePending L now) :=
  keeps_ite (keeps_andThen (keeps_saveUpdated hs) fun _ hs => keeps_done hs) (keeps_done hs)

/-- The handlers that keep the keys. -/
theorem keeps_handleKernelDumpUserInfo {requestId : ID32} {key iv : Text} (hs : s.key = k) :
    Keeps k (s.handleKernelDumpUserInfo L requestId key iv now) := by
  refine keeps_andThen (keeps_ite ?_ (keeps_done hs)) fun s hs => ?_
  · exact keeps_andThen (keeps_createCipher hs) fun s hs => keeps_done hs
  · exact keeps_andThen (keeps_savePending hs) fun s hs => keeps_done hs

theorem keeps_handleKernelUpdate {dataVersion : UInt32} (hs : s.key = k) :
    Keeps k (s.handleKernelUpdate L dataVersion) := by
  refine keeps_orThrow hs fun j _ => keeps_orThrow hs fun version _ => ?_
  exact keeps_ite (keeps_requestUserJsonFromNetwork hs) (keeps_done hs)

theorem keeps_handleKernelSaveFail (hs : s.key = k) :
    Keeps k (s.handleKernelSaveFail L now) := by
  refine keeps_andThen (keeps_savePending hs) fun s hs => ?_
  refine keeps_orThrow hs fun j _ => keeps_orThrow hs fun cipher _ => ?_
  exact keeps_orThrow hs fun lastUpdated _ => keeps_backupUserJson hs

theorem keeps_processKernelConnectedRequest (hs : s.key = k) :
    Keeps k (s.processKernelConnectedRequest L now) := by
  refine keeps_ite ?_ (keeps_ite ?_ (keeps_registerOnUpdate hs))
  · exact keeps_andThen (keeps_requestUserJsonFromNetwork hs) fun s hs => keeps_done hs
  · exact keeps_andThen (keeps_handleKernelSaveFail hs) fun s hs => keeps_done hs

/-! ### Handlers that do -/

/-- The pointer leads into the user json. -/
def Attached (s : State J E) : Prop :=
  s.ownedData = .ofUserJson ∧ ∃ j ∈ s.userJson, j.ownedData.get.isSome

/-- The user json in a copy, if it can be read. -/
def readCopy (L : Libs J E) (s : State J E) (copy : E) : Option UserJson := do
  let cipher ← s.userJsonCipher
  let json ← L.decrypt cipher.1 cipher.2 copy
  L.parse json

/-- **A copy replaces the keys by its own.** -/
theorem keeps_parseUserJsonFromString {json : J} {j : UserJson} (hj : L.parse json = some j) :
    Keeps j.key (s.parseUserJsonFromString L json now) := by
  rw [parseUserJsonFromString, hj]
  exact keeps_ite (keeps_done rfl) (show HasKeys j.key _ from rfl)

/-- A copy that is read replaces the keys. -/
theorem keeps_parseRecievedUserJson {copy : E} {j : UserJson} (hj : s.readCopy L copy = some j) :
    Keeps j.key (s.parseRecievedUserJson L copy now) := by
  simp only [readCopy, Option.bind_eq_bind, Option.bind_eq_some_iff] at hj
  obtain ⟨cipher, hcipher, json, hjson, hj⟩ := hj
  rw [parseRecievedUserJson, hcipher]
  refine keeps_assert ?_
  simp only [orThrow, hjson]
  refine keeps_andThen (keeps_parseUserJsonFromString hj) fun s hs => ?_
  exact keeps_andThen (keeps_sendUserJsonToKernel hs) fun s hs => keeps_registerOnUpdate hs

/-- A copy that is not read leaves the keys alone. -/
theorem keeps_parseRecievedUserJson_of_none {copy : E} (hs : s.key = k)
    (hnone : s.readCopy L copy = none) : Keeps k (s.parseRecievedUserJson L copy now) := by
  refine keeps_assert (keeps_orThrow hs fun cipher hcipher => ?_)
  refine keeps_orThrow hs fun json hjson => ?_
  have hparse : L.parse json = none := by
    have hcipher' : s.userJsonCipher = some cipher := hcipher
    have hjson' : L.decrypt cipher.1 cipher.2 copy = some json := hjson
    simpa only [readCopy, Option.bind_eq_bind, hcipher', Option.bind_some, hjson'] using hnone
  refine keeps_andThen ?_ fun s hs => ?_
  · rw [parseUserJsonFromString, hparse]
    exact hs
  · exact keeps_andThen (keeps_sendUserJsonToKernel hs) fun s hs => keeps_registerOnUpdate hs

/-- The keys are those of the owned data. -/
theorem key_modifyOwned {j : UserJson} {owned : OwnedData} (f : OwnedData → OwnedData)
    (hj : j.ownedData = .is owned) (name : Text) :
    (j.modifyOwned f).key name = ((f owned).lookup name).join := by
  rw [UserJson.modifyOwned, hj]
  rfl

/-- A change through the pointer is a change of the user json. -/
theorem modifyOwned_attached {f : OwnedData → OwnedData} (h : s.Attached) :
    ∃ owned t, s.modifyOwned f = done t ∧ (∀ name, s.key name = (owned.lookup name).join) ∧
      ∀ name, t.key name = ((f owned).lookup name).join := by
  obtain ⟨hpointer, j, hj, hsome⟩ := h
  obtain ⟨owned, howned⟩ := Option.isSome_iff_exists.mp hsome
  have hj' : s.userJson = some j := hj
  have hfield : j.ownedData = .is owned := by
    cases hcase : j.ownedData with
    | missing => rw [hcase] at howned; cases howned
    | other => rw [hcase] at howned; cases howned
    | is a =>
      rw [hcase] at howned
      exact congrArg _ (Option.some.inj howned)
  refine ⟨owned, _, by rw [modifyOwned, hpointer], fun name => ?_, fun name => ?_⟩
  · rw [key, hj', Option.bind_some, UserJson.key, howned, Option.bind_some]
  · rw [key, hj', Option.map_some, Option.bind_some, key_modifyOwned f hfield]

/-- A change through another pointer does not reach the user json. -/
theorem keeps_modifyOwned_of_not_attached {f : OwnedData → OwnedData} (hs : s.key = k)
    (h : ¬ s.Attached) : Keeps k (s.modifyOwned f) := by
  rw [modifyOwned]
  cases hpointer : s.ownedData with
  | null => exact hs
  | detached owned => exact hs
  | ofUserJson =>
    refine keeps_done ?_
    rw [← hs]
    funext name
    cases hj : s.userJson with
    | none => rw [key, key, hj]; rfl
    | some j =>
      -- The json has no object that could be changed.
      have hfield : j.ownedData.get.isSome = false := by
        simpa [Attached, hpointer, hj] using h
      rw [key, key, hj, Option.map_some, Option.bind_some, Option.bind_some, UserJson.modifyOwned]
      cases hcase : j.ownedData with
      | missing => rfl
      | other => rfl
      | is owned => rw [hcase] at hfield; cases hfield

end State

/-! ### The law -/

/-- A change of the keys the user makes. -/
inductive Edit
  | save (uuid : UUID) (info : KeyInfo)
  | del (uuid : UUID)

/-- What happens: something the task takes notice of, or what the user does on another device of
his. -/
inductive Event (E : Type)
  | here (i : Input E)
  | elsewhere (e : Edit)

/-- The uuids whose keys were recorded on this device, with the keys one of which should be found:
the last one recorded here, and those recorded elsewhere since. -/
abbrev Recorded := Ledger.Table Text (List KeyInfo)

namespace Recorded

/-- What an event does to the record. A deletion on any device ends it. -/
def note (r : Recorded) : Event E → Recorded
  | .here (.kernel (.save u info) _) => r.insert u.text [info]
  | .here (.kernel (.del u) _) => r.erase u.text
  | .elsewhere (.save u info) =>
    match r.lookup u.text with
    | none => r
    | some infos => r.insert u.text (info :: infos)
  | .elsewhere (.del u) => r.erase u.text
  | _ => r

end Recorded

/-- The task and the record. -/
structure History (J E : Type) where
  task : State J E
  recorded : Recorded

namespace History

variable {h h' : History J E} {e : Event E}

/-- What the task does at an event. -/
def handle (L : Libs J E) (s : State J E) : Event E → Option (State J E)
  | .here i => s.handle L i
  | .elsewhere _ => some s

/-- One event. -/
def step (L : Libs J E) (h : History J E) (e : Event E) : Option (History J E) :=
  (handle L h.task e).map fun t => ⟨t, h.recorded.note e⟩

/-- The keys `k` give one for every uuid of the record. -/
def Gives (k : Text → Option KeyInfo) (r : Recorded) : Prop :=
  ∀ name infos, r.lookup name = some infos → ∃ info ∈ infos, k name = some info

/-- **No key is lost.** -/
def KeepsKeys (h : History J E) : Prop := Gives h.task.key h.recorded

/-- A copy that can be read has the keys of the record, and a key is recorded in the user json. -/
def Harmless (L : Libs J E) (h : History J E) : Event E → Prop
  | .here (.kernel (.save u info) _) => h.task.Attached ∨ h.task.key u.text = some info
  | .here (.kernel (.saveData copy) _) => ∀ j ∈ h.task.readCopy L copy, Gives j.key h.recorded
  | _ => True

/-- **The condition** on an event: it is harmless, and does not end the node. -/
def Safe (L : Libs J E) (h : History J E) (e : Event E) : Prop :=
  Harmless L h e ∧ ∀ i, e = .here i → h.task.Survives L i

/-- An event that is neither an edit nor a copy that can be read. -/
def Quiet (L : Libs J E) (s : State J E) : Event E → Prop
  | .here (.kernel (.save _ _) _) => False
  | .here (.kernel (.del _) _) => False
  | .here (.kernel (.saveData copy) _) => s.readCopy L copy = none
  | .elsewhere _ => False
  | _ => True

/-- What a quiet event does is not recorded. -/
theorem note_of_quiet {r : Recorded} (hq : Quiet L s e) : r.note e = r := by
  cases e with
  | here i =>
    cases i with
    | kernel m now =>
      cases m with
      | save u info => exact hq.elim
      | del u => exact hq.elim
      | _ => rfl
    | _ => rfl
  | elsewhere edit => exact hq.elim

/-- A quiet event changes no key. -/
theorem key_of_quiet (hq : Quiet L s e) (ht : handle L s e = some t) : t.key = s.key := by
  cases e with
  | here i =>
    cases i with
    | kernel m now =>
      suffices Keeps s.key (s.processKernelInput L m now) from this.of_state ht
      cases m with
      | save u info => exact hq.elim
      | del u => exact hq.elim
      | dumpUserInfo requestId key iv => exact State.keeps_handleKernelDumpUserInfo rfl
      | update dataVersion => exact State.keeps_handleKernelUpdate rfl
      | saveData copy => exact State.keeps_parseRecievedUserJson_of_none rfl hq
      | connected => exact State.keeps_processKernelConnectedRequest rfl
      | failed => exact State.keeps_requestUserJsonFromNetwork rfl
      | saveFail => exact State.keeps_handleKernelSaveFail rfl
      | saveConfirm => exact keeps_done rfl
    | timeout now => exact (State.keeps_savePending rfl).of_normal ht
    | stop now =>
      have hkeeps : Keeps s.key (if s.userJson.isNone then
          done (s.send (.deviceJson .finalize 0 0 0))
          else if s.userJsonUpdated then s.saveUpdated L .finalize now
          else s.updateDeviceJson L .finalize) := by
        refine keeps_ite (keeps_done rfl) (keeps_ite ?_ (State.keeps_updateDeviceJson rfl))
        exact State.keeps_saveUpdated rfl
      exact hkeeps.of_normal ht
  | elsewhere edit => exact hq.elim

/-- A key that is recorded is found exactly when it was recorded in the user json. -/
theorem gives_save {r : Recorded} {info : KeyInfo} (hgives : Gives s.key r)
    (ht : s.handleKernelInput L (.save u info) now = some t) :
    Gives t.key (r.insert u.text [info]) ↔ s.Attached ∨ s.key u.text = some info := by
  by_cases hatt : s.Attached
  · refine iff_of_true (fun name infos hname => ?_) (.inl hatt)
    obtain ⟨owned, t', hdone, hbefore, hafter⟩ := State.modifyOwned_attached
      (f := fun owned => owned.insert u.text (some info)) hatt
    obtain rfl : t' = t := by
      simpa [State.handleKernelInput, State.processKernelInput, State.handleKernelSave, hdone,
        Exit.state] using ht
    rw [hafter]
    rw [Ledger.lookup_insert_ite] at hname ⊢
    split_ifs with heq
    · rw [if_pos heq, Option.some.injEq] at hname
      exact ⟨info, hname ▸ List.mem_singleton_self info, rfl⟩
    · rw [if_neg heq] at hname
      rw [← hbefore]
      exact hgives name infos hname
  · have hkey : t.key = s.key := (State.keeps_modifyOwned_of_not_attached rfl hatt).of_state ht
    rw [hkey, or_iff_right hatt]
    constructor
    · intro h
      obtain ⟨info', hmem, hkey'⟩ := h u.text [info] (AList.lookup_insert _)
      rwa [List.mem_singleton.mp hmem] at hkey'
    · intro hfound name infos hname
      obtain ⟨heq, rfl⟩ | ⟨heq, hname⟩ := Ledger.eq_or_of_lookup_insert hname
      · exact ⟨info, List.mem_singleton_self info, heq ▸ hfound⟩
      · exact hgives name infos hname

/-- A key that is deleted is deleted from the record. -/
theorem Gives.erase {r : Recorded} {k k' : Text → Option KeyInfo} {name : Text} (h : Gives k r)
    (hk : ∀ name', name' ≠ name → k' name' = k name') : Gives k' (r.erase name) := by
  intro name' infos hname
  obtain ⟨heq, hname⟩ := Ledger.of_lookup_erase hname
  rw [hk name' heq]
  exact h name' infos hname

/-- A deletion leaves the other keys alone. -/
theorem gives_del {r : Recorded} (hgives : Gives s.key r)
    (ht : s.handleKernelInput L (.del u) now = some t) : Gives t.key (r.erase u.text) := by
  by_cases hatt : s.Attached
  · obtain ⟨owned, t', hdone, hbefore, hafter⟩ := State.modifyOwned_attached
      (f := fun owned => owned.erase u.text) hatt
    obtain rfl : t' = t := by
      simpa [State.handleKernelInput, State.processKernelInput, State.handleKernelDelete, hdone,
        Exit.state] using ht
    refine hgives.erase fun name hne => ?_
    rw [hafter, hbefore, AList.lookup_erase_ne hne]
  · have hkey : t.key = s.key := (State.keeps_modifyOwned_of_not_attached rfl hatt).of_state ht
    exact hgives.erase fun name _ => congrFun hkey name

/-- What is done elsewhere takes nothing away from what is found here. -/
theorem gives_elsewhere {r : Recorded} {k : Text → Option KeyInfo} {edit : Edit}
    (hgives : Gives k r) : Gives k (r.note (.elsewhere edit : Event E)) := by
  cases edit with
  | del u => exact hgives.erase fun _ _ => rfl
  | save u info =>
    rw [Recorded.note]
    cases hlookup : r.lookup u.text with
    | none => exact hgives
    | some infos =>
      intro name infos' hname
      simp only at hname
      obtain ⟨heq, rfl⟩ | ⟨heq, hname⟩ := Ledger.eq_or_of_lookup_insert hname
      · obtain ⟨found, hmem, hfound⟩ := hgives u.text infos hlookup
        exact ⟨found, List.mem_cons_of_mem info hmem, heq ▸ hfound⟩
      · exact hgives name infos' hname

/-- One event keeps the keys exactly when it is harmless. -/
theorem keepsKeys_step (hkeeps : h.KeepsKeys) (hstep : h.step L e = some h') :
    h'.KeepsKeys ↔ Harmless L h e := by
  obtain ⟨t, ht, rfl⟩ := Option.map_eq_some_iff.mp hstep
  have hquiet (hq : Quiet L h.task e) : KeepsKeys ⟨t, h.recorded.note e⟩ := by
    rw [KeepsKeys, note_of_quiet hq, key_of_quiet hq ht]
    exact hkeeps
  cases e with
  | here i =>
    cases i with
    | kernel m now =>
      cases m with
      | save u info => exact gives_save hkeeps ht
      | del u => exact iff_of_true (gives_del hkeeps ht) trivial
      | saveData copy =>
        cases hread : h.task.readCopy L copy with
        | none =>
          refine iff_of_true (hquiet hread) fun j hj => ?_
          rw [hread] at hj
          cases hj
        | some j =>
          have hkey : t.key = j.key := (State.keeps_parseRecievedUserJson hread).of_state ht
          rw [KeepsKeys, hkey, Harmless, hread]
          constructor
          · rintro hgives j' hj'
            obtain rfl : j = j' := Option.some.inj hj'
            exact hgives
          · exact fun hgives => hgives j rfl
      | _ => exact iff_of_true (hquiet trivial) trivial
    | _ => exact iff_of_true (hquiet trivial) trivial
  | elsewhere edit =>
    obtain rfl : h.task = t := Option.some.inj ht
    exact iff_of_true (gives_elsewhere hkeeps) trivial

/-- The node goes on exactly when the task survives the event. -/
theorem isSome_step_iff : (h.step L e).isSome ↔ ∀ i, e = .here i → h.task.Survives L i := by
  rw [step, Option.isSome_map]
  cases e with
  | here i =>
    rw [handle, State.isSome_handle_iff]
    exact ⟨fun hi j hj => Event.here.inj hj ▸ hi, fun hall => hall i rfl⟩
  | elsewhere edit => exact iff_of_true rfl nofun

/-- **The node goes on and no key is lost along a run exactly when all its events are safe**: every
copy of the user json that arrives and can be read has the keys that are recorded and not deleted,
keys are recorded in the user json, and no event ends the node. -/
theorem keepsKeys_iff_harmless (L : Libs J E) (s : State J E) (es : List (Event E)) :
    (Run.run (step L) ⟨s, ∅⟩ es).isSome ∧
        Run.Along (step L) (fun h e => ∀ h' ∈ h.step L e, h'.KeepsKeys) ⟨s, ∅⟩ es ↔
      Run.Along (step L) (Safe L) ⟨s, ∅⟩ es := by
  refine Run.isSome_and_along_inv_iff KeepsKeys (fun h e hkeeps => ?_) ?_
  · rw [Safe, ← isSome_step_iff]
    constructor
    · rintro ⟨h', hstep, hkept⟩
      exact ⟨(keepsKeys_step hkeeps hstep).mp hkept, Option.isSome_of_mem hstep⟩
    · rintro ⟨hharmless, hsome⟩
      obtain ⟨h', hstep⟩ := Option.isSome_iff_exists.mp hsome
      exact ⟨h', hstep, (keepsKeys_step hkeeps hstep).mpr hharmless⟩
  · intro name infos hname
    cases hname

/-- Texts that are the json itself, and encrypted texts that are read with their own key. -/
def transparentLibs : Libs UserJson (Text × Text × UserJson) where
  parse := some
  stringify := id
  canCreateCipher := fun _ _ => true
  encrypt := fun key iv j => (key, iv, j)
  decrypt := fun key iv copy => if copy.1 = key ∧ copy.2.1 = iv then some copy.2.2 else none
  parseUuid := UUID.ofText

/-- The file of a user who owns nothing yet. -/
def emptyCopy : Text × Text × UserJson := (['k'], ['i'], ⟨.is 1, .is 1, .is ∅, .is 1⟩)

/-- A device of this user that starts with this file. -/
def started : State UserJson (Text × Text × UserJson) :=
  ((State.fresh (some emptyCopy)).handleConfigInput transparentLibs
    ⟨some (UUID.text 9), some ['k'], some ['i'], false⟩ 2).getD (.fresh none)

/-- What another device of the user has published after a key was recorded there. -/
def otherCopy : Text × Text × UserJson :=
  (['k'], ['i'], ⟨.is 1, .is 2, .is ((∅ : OwnedData).insert (UUID.text 8) (some ⟨['b'], ['j'], 1⟩)),
    .is 5⟩)

example : (Run.run (step transparentLibs) ⟨started, ∅⟩
    [.here (.kernel (.save 8 ⟨['b'], ['j'], 1⟩) 4), .here (.timeout 5)]).map
      (fun h => h.task.out.getLast?) =
      some (some (.backup .update otherCopy 5 2 9)) := rfl

/-- A key is recorded, the user manager hears of another version and gets the copy. -/
def replaced : List (Event (Text × Text × UserJson)) :=
  [.here (.kernel (.save 7 ⟨['a'], ['i'], 1⟩) 6), .here (.kernel (.update 2) 6),
    .here (.kernel (.saveData otherCopy) 7)]

/-- A key is recorded that the copy has as well, the copy arrives, and the key is saved. -/
def merged : List (Event (Text × Text × UserJson)) :=
  [.here (.kernel (.save 8 ⟨['b'], ['j'], 1⟩) 6), .here (.kernel (.saveData otherCopy) 7),
    .here (.timeout 8)]

/-- All of these events are safe. -/
theorem keepsKeys_otherCopy :
    (Run.run (step transparentLibs) ⟨started, ∅⟩ merged).isSome ∧
      Run.Along (step transparentLibs) (fun h e => ∀ h' ∈ h.step transparentLibs e, h'.KeepsKeys)
        ⟨started, ∅⟩ merged := by
  refine (keepsKeys_iff_harmless transparentLibs started merged).mpr ?_
  refine Run.along_cons (t := ⟨_, (∅ : Recorded).insert (UUID.text 8) [⟨['b'], ['j'], 1⟩]⟩)
    ⟨.inl ⟨rfl, _, rfl, rfl⟩, fun i hi => Event.here.inj hi ▸ trivial⟩ rfl ?_
  refine Run.along_cons ⟨fun j hj name infos hname => ?_, fun i hi => Event.here.inj hi ▸ rfl⟩ rfl
    ?_
  · obtain ⟨rfl, rfl⟩ | ⟨-, hname⟩ := Ledger.eq_or_of_lookup_insert hname
    · obtain rfl := Option.some.inj hj
      exact ⟨_, List.mem_singleton_self _, rfl⟩
    · cases hname
  · refine ⟨⟨trivial, fun i hi => Event.here.inj hi ▸ ?_⟩, fun _ _ => trivial⟩
    exact fun _ => ⟨⟨_, rfl, rfl⟩, rfl, rfl⟩

/-- A copy whose version is no number. -/
def unversionedCopy : Text × Text × UserJson :=
  (['k'], ['i'], ⟨.is 1, .other,
    .is ((∅ : OwnedData).insert (UUID.text 8) (some ⟨['b'], ['j'], 1⟩)), .is 5⟩)

example : Run.run (step transparentLibs) ⟨started, ∅⟩
    [.here (.kernel (.saveData unversionedCopy) 6), .here (.kernel (.save 7 ⟨['a'], ['i'], 1⟩) 7),
      .here (.timeout 8)] = none := rfl

/-- **A copy from another device takes a key away** that was recorded here and not saved yet. -/
theorem not_keepsKeys : ¬ ∀ (J E : Type) (L : Libs J E) (s : State J E) (es : List (Event E)),
    (Run.run (step L) ⟨s, ∅⟩ es).isSome →
      Run.Along (step L) (fun h e => ∀ h' ∈ h.step L e, h'.KeepsKeys) ⟨s, ∅⟩ es := by
  intro hall
  have halong := hall _ _ transparentLibs started replaced (by decide)
  obtain ⟨h, hh⟩ := Option.isSome_iff_exists.mp
    (show (Run.run (step transparentLibs) ⟨started, ∅⟩ replaced).isSome by decide)
  have hkeeps : h.KeepsKeys := by
    refine Run.invariant_of_run KeepsKeys (fun _ _ h' _ hok hstep => hok h' hstep) ?_ halong hh
    intro name infos hname
    cases hname
  have hlost : (Run.run (step transparentLibs) ⟨started, ∅⟩ replaced).map (fun h =>
      (h.recorded.lookup (UUID.text 7), h.task.key (UUID.text 7))) =
        some (some [⟨['a'], ['i'], 1⟩], none) := by
    decide
  rw [hh, Option.map_some, Option.some.injEq, Prod.mk.injEq] at hlost
  obtain ⟨info, -, hfound⟩ := hkeeps _ _ hlost.1
  rw [hlost.2] at hfound
  cases hfound

end History

end UserManager

end Metax
