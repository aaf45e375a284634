import Metax.UserManager.Task

/-!
# What ends the node

The handlers of the user manager can end the node: a cipher that cannot be made and a failed
assertion do so anywhere, and an exception does so outside the packages of the kernel, that is when
the timer has expired and at the end of the task. `Survives` says of a state for which events this
does not happen, and `isSome_handle_iff` that it is exact.

What the timer needs is that pending changes can be saved (`Savable`): the version in the user json
has to be a number, which nobody checks when a copy of the user json is received.
-/

namespace Metax

namespace UserManager

open Exit

variable {J E : Type} {L : Libs J E} {s : State J E} {now : UInt64} {cmd : Command}

/-- What happens to the task: a package of the kernel, the timer, the end of the node. -/
inductive Input (E : Type)
  | kernel (m : Message E) (now : UInt64)
  | timeout (now : UInt64)
  | stop (now : UInt64)

namespace State

/-- What the task does. -/
def handle (L : Libs J E) (s : State J E) : Input E → Option (State J E)
  | .kernel m now => s.handleKernelInput L m now
  | .timeout now => s.handleTimerExpiration L now
  | .stop now => s.handleUserJsonFinalSave L now

/-- The version of the user json can be read. -/
def Versioned (s : State J E) : Prop := ∃ j ∈ s.userJson, j.version.get.isSome

/-- The user json can be saved: its version can be read, there is a cipher, and the uuid it is
stored under can be read. -/
def Savable (L : Libs J E) (s : State J E) : Prop :=
  s.Versioned ∧ s.userJsonCipher.isSome ∧ (L.parseUuid s.userJsonUuid).isSome

/-- Saving pending changes fails no assertion. -/
def Guarded (s : State J E) : Prop :=
  s.userJsonUpdated = true → s.Versioned → s.userJsonCipher.isSome

/-- **The event does not end the node.** -/
def Survives (L : Libs J E) (s : State J E) : Input E → Prop
  | .kernel (.dumpUserInfo _ key iv) _ =>
    if key ≠ [] ∧ iv ≠ [] then L.canCreateCipher key iv = true else s.Guarded
  | .kernel (.saveData _) _ => s.userJsonCipher.isSome
  | .kernel .connected _ => s.shouldGetUserJson = false → s.shouldSaveUserJson = true → s.Guarded
  | .kernel .saveFail _ => s.Guarded
  | .timeout _ => s.userJsonUpdated = true → s.Savable L
  | .stop _ => ∀ j ∈ s.userJson,
    if s.userJsonUpdated then s.Savable L
    else j.version.get.isSome ∧ j.lastUpdated.get.isSome ∧ (L.parseUuid s.userJsonUuid).isSome
  | _ => True

instance : Decidable s.Versioned := inferInstanceAs (Decidable (∃ j ∈ s.userJson, _))

instance : Decidable (s.Savable L) := inferInstanceAs (Decidable (_ ∧ _))

instance : Decidable s.Guarded := inferInstanceAs (Decidable (_ → _))

instance : ∀ e, Decidable (Survives L s e)
  | .kernel (.dumpUserInfo _ key iv) _ =>
    inferInstanceAs (Decidable
      (if key ≠ [] ∧ iv ≠ [] then L.canCreateCipher key iv = true else s.Guarded))
  | .kernel (.saveData _) _ => inferInstanceAs (Decidable (_ = true))
  | .kernel .connected _ => inferInstanceAs (Decidable (_ → _))
  | .kernel .saveFail _ => inferInstanceAs (Decidable s.Guarded)
  | .timeout _ => inferInstanceAs (Decidable (_ → _))
  | .stop _ => inferInstanceAs (Decidable (∀ j ∈ s.userJson, _))
  | .kernel (.save _ _) _ | .kernel (.del _) _ | .kernel (.update _) _ | .kernel .failed _
  | .kernel .saveConfirm _ => .isTrue trivial

/-! ### Handlers without assertions -/

/-- The first ones assert nothing. -/
theorem lives_requestUserJsonFromNetwork : (s.requestUserJsonFromNetwork L).Lives :=
  lives_orThrow.mpr fun _ _ => lives_done

theorem lives_sendUserJsonToKernel {json : J} : (s.sendUserJsonToKernel L json).Lives :=
  lives_orThrow.mpr fun _ _ => lives_done

theorem lives_registerOnUpdate : (s.registerOnUpdate L).Lives :=
  lives_orThrow.mpr fun _ _ => lives_done

theorem lives_backupUserJson {json : E} {lastUpdated : UInt64} :
    (s.backupUserJson L json cmd lastUpdated).Lives :=
  lives_orThrow.mpr fun _ _ => lives_orThrow.mpr fun _ _ => lives_orThrow.mpr fun _ _ => lives_done

theorem lives_parseUserJsonFromString {json : J} : (s.parseUserJsonFromString L json now).Lives :=
  lives_orThrow.mpr fun _ _ => lives_ite.mpr ⟨fun _ => lives_done, fun _ => lives_threw⟩

theorem lives_modifyOwned {f : OwnedData → OwnedData} : (s.modifyOwned f).Lives := by
  rw [modifyOwned]
  cases s.ownedData with
  | null => exact lives_threw
  | ofUserJson => exact lives_done
  | detached owned => exact lives_done

/-- The information on the user json is sent if there is one. -/
theorem lives_updateDeviceJson : (s.updateDeviceJson L cmd).Lives ↔ s.userJson.isSome := by
  rw [updateDeviceJson, lives_assert, and_iff_left]
  refine lives_orThrow.mpr fun j _ => lives_orThrow.mpr fun version _ => ?_
  refine lives_orThrow.mpr fun lastUpdated _ => ?_
  exact lives_orThrow.mpr fun uuid _ => lives_done

/-- All it is made of has to be there. -/
theorem isSome_normal_updateDeviceJson : (s.updateDeviceJson L cmd).normal.isSome ↔
    ∃ j ∈ s.userJson, j.version.get.isSome ∧ j.lastUpdated.get.isSome ∧
      (L.parseUuid s.userJsonUuid).isSome := by
  rw [updateDeviceJson, isSome_normal_assert]
  simp only [isSome_normal_orThrow, normal_done, Option.isSome_some]
  constructor
  · rintro ⟨-, j, hj, version, hversion, lastUpdated, hlast, uuid, huuid, -⟩
    exact ⟨j, hj, Option.isSome_of_mem hversion, Option.isSome_of_mem hlast,
      Option.isSome_of_mem huuid⟩
  · rintro ⟨j, hj, hversion, hlast, huuid⟩
    obtain ⟨version, hversion⟩ := Option.isSome_iff_exists.mp hversion
    obtain ⟨lastUpdated, hlast⟩ := Option.isSome_iff_exists.mp hlast
    obtain ⟨uuid, huuid⟩ := Option.isSome_iff_exists.mp huuid
    exact ⟨Option.isSome_of_mem hj, j, hj, version, hversion, lastUpdated, hlast, uuid, huuid,
      trivial⟩

/-- What is sent then. -/
theorem updateDeviceJson_eq_done {j : UserJson} {version lastUpdated : UInt64} {uuid : UUID}
    (hj : s.userJson = some j) (hversion : j.version.get = some version)
    (hlast : j.lastUpdated.get = some lastUpdated)
    (huuid : L.parseUuid s.userJsonUuid = some uuid) :
    s.updateDeviceJson L cmd = done (s.send (.deviceJson cmd version lastUpdated uuid)) := by
  rw [updateDeviceJson, hj]
  simp only [Exit.assert, Option.isSome_some, if_true, orThrow, hversion, hlast, huuid]

/-- The copy for the network. -/
theorem backupUserJson_eq_done {json : E} {j : UserJson} {version lastUpdated : UInt64}
    {uuid : UUID} (hj : s.userJson = some j) (hversion : j.version.get = some version)
    (huuid : L.parseUuid s.userJsonUuid = some uuid) : s.backupUserJson L json cmd lastUpdated =
      done (s.send (.backup cmd json lastUpdated version.toUInt32 uuid)) := by
  rw [backupUserJson, hj]
  simp only [orThrow, hversion, huuid]

/-! ### Saving the user json -/

/-- To save, there has to be a user json and a cipher. -/
theorem lives_saveUserJson : (s.saveUserJson L cmd now).Lives ↔
    s.userJson.isSome ∧ s.userJsonCipher.isSome := by
  rw [saveUserJson, lives_assert, lives_assert, ← and_assoc, and_iff_left]
  refine lives_orThrow.mpr fun j _ => lives_orThrow.mpr fun cipher _ => ?_
  refine (lives_andThen_of fun s => ?_).mpr (lives_updateDeviceJson.mpr rfl)
  exact lives_ite.mpr ⟨fun _ => lives_backupUserJson, fun _ => lives_done⟩

/-- The new version of the user json. -/
theorem updateVersion_eq_done {t : State J E} (h : s.updateVersion = done t) :
    ∃ j version, s.userJson = some j ∧ j.version.get = some version ∧
      t = { s with userJson := some { j with version := .is (version + 1) } } := by
  rw [updateVersion] at h
  cases hj : s.userJson with
  | none => rw [hj] at h; cases h
  | some j =>
    rw [hj] at h
    cases hversion : j.version.get with
    | none => simp only [orThrow, hversion] at h; cases h
    | some version =>
      simp only [orThrow, hversion] at h
      cases h
      exact ⟨j, version, rfl, hversion, rfl⟩

theorem lives_updateVersion : s.updateVersion.Lives :=
  lives_orThrow.mpr fun _ _ => lives_orThrow.mpr fun _ _ => lives_done

/-- Without a version an exception comes before the assertions. -/
theorem lives_saveUpdated : (s.saveUpdated L cmd now).Lives ↔
    (s.Versioned → s.userJsonCipher.isSome) := by
  rw [saveUpdated, lives_andThen, and_iff_right lives_updateVersion]
  constructor
  · rintro h ⟨j, hj, hsome⟩
    obtain ⟨version, hversion⟩ := Option.isSome_iff_exists.mp hsome
    have hj' : s.userJson = some j := hj
    have hdone : s.updateVersion =
        done { s with userJson := some { j with version := .is (version + 1) } } := by
      rw [updateVersion, hj']
      simp only [orThrow, hversion]
    exact (lives_saveUserJson.mp (h _ hdone)).2
  · intro h t ht
    obtain ⟨j, version, hj, hversion, rfl⟩ := updateVersion_eq_done ht
    have hcipher : s.userJsonCipher.isSome := h ⟨j, hj, by rw [hversion]; rfl⟩
    exact lives_saveUserJson.mpr ⟨rfl, hcipher⟩

/-- What is saved only if something has changed. -/
theorem lives_savePending : (s.savePending L now).Lives ↔ s.Guarded := by
  rw [savePending, Guarded]
  split_ifs with hupdated
  · rw [lives_andThen_of fun _ => lives_done, lives_saveUpdated]
    exact ⟨fun h _ => h, fun h => h hupdated⟩
  · exact iff_of_true lives_done fun h => absurd h hupdated

/-- The copy for the network is made when the one for the file is. -/
theorem isSome_normal_saveUserJson : (s.saveUserJson L cmd now).normal.isSome ↔ s.Savable L := by
  rw [saveUserJson, isSome_normal_assert, isSome_normal_assert]
  simp only [isSome_normal_orThrow]
  constructor
  · rintro ⟨-, hcipher, j, hj, cipher, -, h⟩
    rw [normal_andThen] at h
    have hsent := Option.isSome_of_isSome_bind h
    obtain ⟨j', hj', hversion, -, huuid⟩ := isSome_normal_updateDeviceJson.mp hsent
    obtain rfl := Option.some.inj hj'
    exact ⟨⟨j, hj, hversion⟩, hcipher, huuid⟩
  · rintro ⟨⟨j, hj, hversion⟩, hcipher, huuid⟩
    obtain ⟨cipher, hcipher'⟩ := Option.isSome_iff_exists.mp hcipher
    refine ⟨Option.isSome_of_mem hj, hcipher, j, hj, cipher, hcipher', ?_⟩
    obtain ⟨version, hversion'⟩ := Option.isSome_iff_exists.mp hversion
    obtain ⟨uuid, huuid'⟩ := Option.isSome_iff_exists.mp huuid
    let t : State J E := { s with
      userJson := some (encryptUserJson L j cipher now).1
      file := some (encryptUserJson L j cipher now).2 }
    change ((t.updateDeviceJson L cmd).andThen _).normal.isSome
    rw [updateDeviceJson_eq_done (s := t) rfl hversion' rfl huuid', done_andThen]
    split_ifs
    · have hsent : (t.send (.deviceJson cmd version now uuid)).userJson =
          some (encryptUserJson L j cipher now).1 := rfl
      rw [backupUserJson_eq_done hsent hversion' huuid']
      rfl
    · rfl

/-- That a save comes to its end needs a version that can be read, besides. -/
theorem isSome_normal_saveUpdated : (s.saveUpdated L cmd now).normal.isSome ↔ s.Savable L := by
  rw [saveUpdated, normal_andThen, Option.isSome_bind]
  cases hupdate : s.updateVersion with
  | done t =>
    obtain ⟨j, version, hj, hversion, rfl⟩ := updateVersion_eq_done hupdate
    have hversioned : s.Versioned := ⟨j, hj, by rw [hversion]; rfl⟩
    simp only [normal_done, Option.any_some, isSome_normal_saveUserJson, Savable]
    exact and_congr_left fun _ => iff_of_true ⟨_, rfl, rfl⟩ hversioned
  | threw t =>
    refine iff_of_false nofun fun h => ?_
    obtain ⟨⟨j, hj, hsome⟩, -⟩ := h
    obtain ⟨version, hversion⟩ := Option.isSome_iff_exists.mp hsome
    have hj' : s.userJson = some j := hj
    rw [updateVersion, hj'] at hupdate
    simp only [orThrow, hversion] at hupdate
    cases hupdate
  | aborted => exact absurd hupdate lives_updateVersion

theorem isSome_normal_savePending : (s.savePending L now).normal.isSome ↔
    (s.userJsonUpdated = true → s.Savable L) := by
  rw [savePending]
  split_ifs with hupdated
  · have hsaved : (s.saveUpdated L .update now).normal.isSome ↔ s.Savable L :=
      isSome_normal_saveUpdated
    rw [normal_andThen, forall_prop_of_true hupdated, ← hsaved]
    cases (s.saveUpdated L .update now).normal <;> rfl
  · exact iff_of_true rfl fun h => absurd h hupdated

/-! ### The events -/

/-- The handlers, each with its condition in `Survives`. -/
theorem lives_handleKernelDumpUserInfo {requestId : ID32} {key iv : Text} :
    (s.handleKernelDumpUserInfo L requestId key iv now).Lives ↔
      Survives L s (.kernel (.dumpUserInfo requestId key iv : Message E) now) := by
  rw [handleKernelDumpUserInfo, Survives]
  split_ifs with hkey
  · rw [createCipher]
    split_ifs with hcipher
    · -- the new cipher is what the json is saved with
      refine iff_of_true ?_ hcipher
      rw [done_andThen, done_andThen, lives_andThen_of fun _ => lives_done, lives_savePending]
      exact fun _ _ => rfl
    · exact iff_of_false not_lives_aborted hcipher
  · rw [done_andThen, lives_andThen_of fun _ => lives_done, lives_savePending]

theorem lives_handleKernelSaveFail : (s.handleKernelSaveFail L now).Lives ↔ s.Guarded := by
  rw [handleKernelSaveFail, lives_andThen_of, lives_savePending]
  refine fun s => lives_orThrow.mpr fun j _ => lives_orThrow.mpr fun cipher _ => ?_
  exact lives_orThrow.mpr fun lastUpdated _ => lives_backupUserJson

theorem lives_processKernelConnectedRequest : (s.processKernelConnectedRequest L now).Lives ↔
    (s.shouldGetUserJson = false → s.shouldSaveUserJson = true → s.Guarded) := by
  rw [processKernelConnectedRequest]
  split_ifs with hget hsave
  · rw [lives_andThen_of fun _ => lives_done]
    exact iff_of_true lives_requestUserJsonFromNetwork fun h => absurd (hget.symm.trans h) nofun
  · rw [lives_andThen_of fun _ => lives_done, lives_handleKernelSaveFail]
    exact ⟨fun h _ _ => h, fun h => h (Bool.eq_false_of_not_eq_true hget) hsave⟩
  · exact iff_of_true lives_registerOnUpdate fun _ h => absurd h hsave

theorem lives_parseRecievedUserJson {copy : E} : (s.parseRecievedUserJson L copy now).Lives ↔
    s.userJsonCipher.isSome := by
  rw [parseRecievedUserJson, lives_assert, and_iff_left]
  refine lives_orThrow.mpr fun cipher _ => lives_orThrow.mpr fun json _ => ?_
  refine (lives_andThen_of fun s => ?_).mpr lives_parseUserJsonFromString
  exact (lives_andThen_of fun s => lives_registerOnUpdate).mpr lives_sendUserJsonToKernel

theorem lives_handleKernelUpdate {dataVersion : UInt32} :
    (s.handleKernelUpdate L dataVersion).Lives := by
  refine lives_orThrow.mpr fun j _ => lives_orThrow.mpr fun version _ => ?_
  exact lives_ite.mpr ⟨fun _ => lives_requestUserJsonFromNetwork, fun _ => lives_done⟩

/-- **The node goes on exactly if the event is survived.** -/
theorem isSome_handle_iff (e : Input E) : (s.handle L e).isSome ↔ s.Survives L e := by
  cases e with
  | kernel m now =>
    rw [handle, handleKernelInput, isSome_state]
    cases m with
    | save u info => exact iff_of_true lives_modifyOwned trivial
    | del u => exact iff_of_true lives_modifyOwned trivial
    | dumpUserInfo requestId key iv => exact lives_handleKernelDumpUserInfo
    | update dataVersion => exact iff_of_true lives_handleKernelUpdate trivial
    | saveData copy => exact lives_parseRecievedUserJson
    | connected => exact lives_processKernelConnectedRequest
    | failed => exact iff_of_true lives_requestUserJsonFromNetwork trivial
    | saveFail => exact lives_handleKernelSaveFail
    | saveConfirm => exact iff_of_true lives_done trivial
  | timeout now => exact isSome_normal_savePending
  | stop now =>
    rw [handle, handleUserJsonFinalSave, Survives]
    cases hj : s.userJson with
    | none => exact iff_of_true rfl nofun
    | some j =>
      simp only [Option.isNone_some, Bool.false_eq_true, if_false, Option.mem_some_iff,
        forall_eq']
      split_ifs
      · exact isSome_normal_saveUpdated
      · rw [isSome_normal_updateDeviceJson, hj]
        simp only [Option.mem_some_iff, exists_eq_left']

end State

end UserManager

end Metax
