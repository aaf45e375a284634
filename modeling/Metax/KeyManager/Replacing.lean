import Metax.KeyManager.Answers

/-!
# Replacing the keys of the user

Two requests replace the keys: one for new keys, and one that takes over the keys of a paired node.
Both change the cipher and three files one after the other. When they report a failure, all four
should be as before; when they report success, all four should be the new ones.

New keys are in the cipher as soon as they were generated, and what fails after that is reported
without a way back; the keys of a paired node are written file by file, and the cipher comes last.
So a failure is harmless only where nothing was replaced yet, or by what had been there
(`RegenerationHarmless`, `OverwriteHarmless`, `keys_replaced_iff`).
-/

namespace Metax

namespace KeyManager

open Attempt

variable {C : Type} {L : Libs C} {F : Faults} {s t : State C} {m r : Message} {l : LinkMessage}
  {e : Exception}

/-- What belongs together. -/
structure Keys (C : Type) where
  publicKey : Option Text
  privateKey : Option Text
  userJsonKey : Option Text
  userCipher : Option C

/-- The keys of a node. -/
def State.keys (s : State C) : Keys C :=
  ⟨s.files .publicPem, s.files .privatePem, s.files .userJsonKey, s.userCipher⟩

/-! ### New keys: the law -/

/-- The keys are those that were generated, with a key of the user json for the uuid. -/
def IsNewSet (L : Libs C) (uuid : Text) (k : Keys C) (r : Message) : Prop :=
  ∃ rsa c aesKey info, L.newRsaKey = .ok rsa ∧ L.rsaCipher rsa.1 rsa.2 = .ok c ∧
    L.newAesKey = .ok aesKey ∧ r.aesKey = L.base64Encode aesKey.key ∧
      r.aesIv = L.base64Encode aesKey.iv ∧
        L.encryptStream c (L.stringifyJsonKey ⟨some r.aesKey, some r.aesIv, some uuid⟩) = .ok info ∧
          k = ⟨some rsa.1, some rsa.2, some info, some c⟩

/-- A request for new keys. -/
def Message.regenerate (m : Message) : Message := { m with cmd := .regenerateUserKeys }

/-- **The law** for a request for new keys. -/
def RegenerationLaw (L : Libs C) (F : Faults) (s : State C) (m : Message) : Prop :=
  ∀ t r, handleKernelInput L F s m.regenerate = some t → t.out = s.out ++ [r] →
    (r.cmd = .failed → t.keys = s.keys) ∧
      (r.cmd = .regenerateUserKeysSucceeded → IsNewSet L (Text.cString m.data) t.keys r)

/-- The exception, if there is one. -/
def Faults.check (o : Option Exception) : Except Exception Unit := o.elim (.ok ()) .error

/-- The new RSA key and its cipher. -/
def newKeys (L : Libs C) (F : Faults) : Except Exception ((Text × Text) × C) := do
  Faults.check F.createDirectories
  let rsa ← L.newRsaKey
  Faults.check F.saveKeys
  let c ← L.rsaCipher rsa.1 rsa.2
  pure (rsa, c)

/-- The key of the user json, encrypted. -/
def sealedInfo (L : Libs C) (F : Faults) (c : C) (obj : JsonKey) : Except Exception Text := do
  Faults.check F.createParent
  Faults.check F.openSink
  L.encryptStream c (L.stringifyJsonKey obj)

/-- A new key of the user json, encrypted. -/
def newInfo (L : Libs C) (F : Faults) (c : C) (uuid : Text) : Except Exception (AesKey × Text) := do
  let aesKey ← L.newAesKey
  let info ← sealedInfo L F c
    ⟨some (L.base64Encode aesKey.key), some (L.base64Encode aesKey.iv), some uuid⟩
  pure (aesKey, info)

/-- The new key file holds the new AES key, sealed with the new cipher. -/
theorem newInfo_of_generated {c : C} {uuid : Text} {aesKey : AesKey}
    (h : L.newAesKey = .ok aesKey) :
    newInfo L F c uuid = (sealedInfo L F c ⟨some (L.base64Encode aesKey.key),
      some (L.base64Encode aesKey.iv), some uuid⟩).map fun info => (aesKey, info) := by
  rw [newInfo, h]
  rfl

/-- Everything is generated. -/
def Made (L : Libs C) (F : Faults) (uuid : Text) (rsa : Text × Text) (c : C) (aesKey : AesKey)
    (info : Text) : Prop :=
  newKeys L F = .ok (rsa, c) ∧ newInfo L F c uuid = .ok (aesKey, info)

/-- **The condition**, with a clause for every point of failure from which on something has been
replaced, and one for a success. -/
structure RegenerationHarmless (L : Libs C) (F : Faults) (s : State C) (uuid : Text) : Prop where
  info : ∀ rsa c e, newKeys L F = .ok (rsa, c) → newInfo L F c uuid = .error e →
    some c = s.userCipher
  movePublic : ∀ rsa c aesKey info fault, Made L F uuid rsa c aesKey info →
    F.moveTo .publicTmp = some fault → { s.keys with
      publicKey := fault.left
      userCipher := some c } = s.keys
  movePrivate : ∀ rsa c aesKey info fault, Made L F uuid rsa c aesKey info →
    F.moveTo .publicTmp = none → F.moveTo .privateTmp = some fault → { s.keys with
      publicKey := some rsa.1
      privateKey := fault.left
      userCipher := some c } = s.keys
  moveInfo : ∀ rsa c aesKey info fault, Made L F uuid rsa c aesKey info →
    F.moveTo .publicTmp = none → F.moveTo .privateTmp = none →
      F.moveTo .userJsonKeyTmp = some fault →
        ⟨some rsa.1, some rsa.2, fault.left, some c⟩ = s.keys
  written : ∀ rsa c aesKey info, Made L F uuid rsa c aesKey info → F.moveTo .publicTmp = none →
    F.moveTo .privateTmp = none → F.moveTo .userJsonKeyTmp = none →
      F.written .userJsonKeyTmp info = info

/-! ### New keys: what happens -/

/-- How the generation of new keys goes, and what the keys are then. -/
inductive Regeneration (L : Libs C) (F : Faults) (s : State C) (m : Message) :
    Except Exception Message → Keys C → Prop
  | keysFailed (e : Exception) (hkeys : newKeys L F = .error e) :
    Regeneration L F s m (.error e) s.keys
  | infoFailed (rsa : Text × Text) (c : C) (e : Exception) (hkeys : newKeys L F = .ok (rsa, c))
    (hinfo : newInfo L F c (Text.cString m.data) = .error e) :
    Regeneration L F s m (.error e) { s.keys with userCipher := some c }
  | publicFailed (rsa : Text × Text) (c : C) (aesKey : AesKey) (info : Text) (fault : Fault)
    (hmade : Made L F (Text.cString m.data) rsa c aesKey info)
    (hmove : F.moveTo .publicTmp = some fault) :
    Regeneration L F s m (.error fault.exception)
      { s.keys with publicKey := fault.left, userCipher := some c }
  | privateFailed (rsa : Text × Text) (c : C) (aesKey : AesKey) (info : Text) (fault : Fault)
    (hmade : Made L F (Text.cString m.data) rsa c aesKey info)
    (hpublic : F.moveTo .publicTmp = none)
    (hmove : F.moveTo .privateTmp = some fault) :
    Regeneration L F s m (.error fault.exception)
      { s.keys with publicKey := some rsa.1, privateKey := fault.left, userCipher := some c }
  | jsonFailed (rsa : Text × Text) (c : C) (aesKey : AesKey) (info : Text) (fault : Fault)
    (hmade : Made L F (Text.cString m.data) rsa c aesKey info)
    (hpublic : F.moveTo .publicTmp = none)
    (hprivate : F.moveTo .privateTmp = none) (hmove : F.moveTo .userJsonKeyTmp = some fault) :
    Regeneration L F s m (.error fault.exception) ⟨some rsa.1, some rsa.2, fault.left, some c⟩
  | succeeded (rsa : Text × Text) (c : C) (aesKey : AesKey) (info : Text)
    (hmade : Made L F (Text.cString m.data) rsa c aesKey info)
    (hpublic : F.moveTo .publicTmp = none)
    (hprivate : F.moveTo .privateTmp = none) (hmove : F.moveTo .userJsonKeyTmp = none) :
    Regeneration L F s m
      (.ok { m.reply .regenerateUserKeysSucceeded with
        aesKey := L.base64Encode aesKey.key
        aesIv := L.base64Encode aesKey.iv })
      ⟨some rsa.1, some rsa.2, some (F.written .userJsonKeyTmp info), some c⟩

/-- The course of `create_user_key`, once the directory is there. -/
theorem createUserKey_eq (h : F.createDirectories = none) :
    createUserKey L F .publicTmp .privateTmp true s = (do
      saveNewUserKey L F .publicTmp .privateTmp
      let s ← read id
      let p ← lift ((s.files .publicTmp).elim (.error .file) .ok)
      let q ← lift ((s.files .privateTmp).elim (.error .file) .ok)
      let c ← lift (L.rsaCipher p q)
      change fun s => { s with userCipher := some c } : Attempt Exception (State C) Unit) s := by
  rw [createUserKey, bind_of_ok (raise_of_none h), bind_of_ok (read_run id),
    onlyIf_of_pos (.inl rfl)]

/-- The key that is saved is the one that is read. -/
theorem createUserKey_of_saved {rsa : Text × Text} (hdirectories : F.createDirectories = none)
    (hrsa : L.newRsaKey = .ok rsa) (hsave : F.saveKeys = none) :
    createUserKey L F .publicTmp .privateTmp true s =
      (lift (L.rsaCipher rsa.1 rsa.2) >>= fun c => change fun s => { s with userCipher := some c } :
        Attempt Exception (State C) Unit)
          ((s.put .publicTmp (some rsa.1)).put .privateTmp (some rsa.2)) := by
  have hsaved : saveNewUserKey L F .publicTmp .privateTmp s =
      (.ok ⟨⟩, (s.put .publicTmp (some rsa.1)).put .privateTmp (some rsa.2)) := by
    rw [saveNewUserKey, bind_of_ok (lift_of_ok hrsa), bind_of_ok (raise_of_none hsave), change_run]
  rw [createUserKey_eq hdirectories, bind_of_ok hsaved, bind_of_ok (read_run id)]
  exact (bind_of_ok (lift_of_ok rfl)).trans (bind_of_ok (lift_of_ok rfl))

/-- The cipher is the first thing to be replaced. -/
theorem createUserKey_course :
    (∃ e t, newKeys L F = .error e ∧
      createUserKey L F .publicTmp .privateTmp true s = (.error e, t) ∧ t.keys = s.keys) ∨
    ∃ rsa c, newKeys L F = .ok (rsa, c) ∧
      createUserKey L F .publicTmp .privateTmp true s =
        (.ok ⟨⟩, { (s.put .publicTmp (some rsa.1)).put .privateTmp (some rsa.2) with
          userCipher := some c }) := by
  rw [newKeys]
  cases hdirectories : F.createDirectories with
  | some e => exact .inl ⟨e, s, rfl, bind_of_error (raise_of_some hdirectories), rfl⟩
  | none =>
    cases hrsa : L.newRsaKey with
    | error e =>
      refine .inl ⟨e, s, rfl, ?_, rfl⟩
      rw [createUserKey_eq hdirectories, saveNewUserKey]
      exact bind_of_error (bind_of_error (lift_of_error hrsa))
    | ok rsa =>
      cases hsave : F.saveKeys with
      | some e =>
        refine .inl ⟨e, s, rfl, ?_, rfl⟩
        rw [createUserKey_eq hdirectories, saveNewUserKey]
        exact bind_of_error ((bind_of_ok (lift_of_ok hrsa)).trans
          (bind_of_error (raise_of_some hsave)))
      | none =>
        rw [createUserKey_of_saved hdirectories hrsa hsave]
        cases hcipher : L.rsaCipher rsa.1 rsa.2 with
        | error e =>
          refine .inl ⟨e, _, ?_, bind_of_error (lift_of_error rfl), rfl⟩
          change (L.rsaCipher rsa.1 rsa.2 >>= fun c => pure (rsa, c)) = .error e
          rw [hcipher]
          rfl
        | ok c =>
          refine .inr ⟨rsa, c, ?_, bind_of_ok (lift_of_ok rfl)⟩
          change (L.rsaCipher rsa.1 rsa.2 >>= fun c => pure (rsa, c)) = .ok (rsa, c)
          rw [hcipher]
          rfl

/-- The key of the user json goes to a temporary file. -/
theorem encryptUserJsonInfo_course {c : C} (obj : JsonKey) (hcipher : s.userCipher = some c) :
    (∃ e t, sealedInfo L F c obj = .error e ∧
      encryptUserJsonInfoWithUserKey L F obj .userJsonKeyTmp s = (.error e, t) ∧
        t.keys = s.keys) ∨
    ∃ info t, sealedInfo L F c obj = .ok info ∧
      encryptUserJsonInfoWithUserKey L F obj .userJsonKeyTmp s = (.ok ⟨⟩, t) ∧ t.keys = s.keys ∧
        t.files .publicTmp = s.files .publicTmp ∧ t.files .privateTmp = s.files .privateTmp ∧
          t.files .userJsonKeyTmp = some (F.written .userJsonKeyTmp info) := by
  rw [sealedInfo]
  cases hparent : F.createParent with
  | some e => exact .inl ⟨e, s, rfl, bind_of_error (raise_of_some hparent), rfl⟩
  | none =>
    cases hopen : F.openSink with
    | some e =>
      exact .inl ⟨e, s, rfl, (bind_of_ok (raise_of_none hparent)).trans
        (bind_of_error (raise_of_some hopen)), rfl⟩
    | none =>
      have hrun : encryptUserJsonInfoWithUserKey L F obj .userJsonKeyTmp s =
          (lift (L.encryptStream c (L.stringifyJsonKey obj)) >>= fun info =>
            change fun s => s.put .userJsonKeyTmp (some (F.written .userJsonKeyTmp info)) :
              Attempt Exception (State C) Unit) (s.put .userJsonKeyTmp (some [])) := by
        rw [encryptUserJsonInfoWithUserKey, bind_of_ok (raise_of_none hparent),
          bind_of_ok (raise_of_none hopen), bind_of_ok (change_run _), bind_of_ok (read_run id)]
        exact bind_of_ok (lift_of_ok (congrArg (fun o => Option.elim o _ _) hcipher))
      cases hinfo : L.encryptStream c (L.stringifyJsonKey obj) with
      | error e =>
        exact .inl ⟨e, _, rfl, hrun.trans (bind_of_error (lift_of_error hinfo)), rfl⟩
      | ok info =>
        exact .inr ⟨info, _, rfl, hrun.trans (bind_of_ok (lift_of_ok hinfo)), rfl, rfl, rfl, rfl⟩

/-- What a move does. -/
theorem moveTo_of_none {src dst : File} (h : F.moveTo src = none) :
    moveTo F src dst s = (.ok ⟨⟩, (s.put dst (s.files src)).put src none) := by
  rw [moveTo, h]
  rfl

/-- A copy that fails leaves what it has written. -/
theorem moveTo_of_some {src dst : File} {fault : Fault} (h : F.moveTo src = some fault) :
    moveTo F src dst s = (.error fault.exception, s.put dst fault.left) := by
  rw [moveTo, h]
  rfl

/-- The files are replaced one after the other. -/
theorem moves_course {rsa : Text × Text} {c : C} {aesKey : AesKey} {info : Text}
    (hmade : Made L F (Text.cString m.data) rsa c aesKey info)
    (hkeys : t.keys = { s.keys with userCipher := some c })
    (hpublic : t.files .publicTmp = some rsa.1) (hprivate : t.files .privateTmp = some rsa.2)
    (hinfo : t.files .userJsonKeyTmp = some (F.written .userJsonKeyTmp info)) :
    ∃ o u, (do
      moveTo F .publicTmp .publicPem
      moveTo F .privateTmp .privatePem
      moveTo F .userJsonKeyTmp .userJsonKey
      pure { m.reply .regenerateUserKeysSucceeded with
        aesKey := L.base64Encode aesKey.key
        aesIv := L.base64Encode aesKey.iv } : Attempt Exception (State C) Message) t = (o, u) ∧
      Regeneration L F s m o u.keys := by
  -- three moves, one after the other; each failure leaves the files moved before it
  cases hmovePublic : F.moveTo .publicTmp with
  | some fault =>
    refine ⟨_, _, bind_of_error (moveTo_of_some hmovePublic), ?_⟩
    have hu : (t.put .publicPem fault.left).keys = { t.keys with publicKey := fault.left } := rfl
    rw [hu, hkeys]
    exact .publicFailed rsa c aesKey info fault hmade hmovePublic
  | none =>
    rw [bind_of_ok (moveTo_of_none hmovePublic), hpublic]
    obtain ⟨t₁, ht₁⟩ : ∃ x, x = (t.put .publicPem (some rsa.1)).put .publicTmp none := ⟨_, rfl⟩
    rw [← ht₁]
    cases hmovePrivate : F.moveTo .privateTmp with
    | some fault =>
      refine ⟨_, _, bind_of_error (moveTo_of_some hmovePrivate), ?_⟩
      have hu : (t₁.put .privatePem fault.left).keys =
          { t.keys with publicKey := some rsa.1, privateKey := fault.left } := by
        rw [ht₁]
        rfl
      rw [hu, hkeys]
      exact .privateFailed rsa c aesKey info fault hmade hmovePublic hmovePrivate
    | none =>
      have hfile : t₁.files .privateTmp = some rsa.2 := by
        rw [ht₁]
        exact hprivate
      rw [bind_of_ok (moveTo_of_none hmovePrivate), hfile]
      obtain ⟨t₂, ht₂⟩ : ∃ x, x = (t₁.put .privatePem (some rsa.2)).put .privateTmp none := ⟨_, rfl⟩
      rw [← ht₂]
      have hcipher : t.userCipher = some c := congrArg Keys.userCipher hkeys
      cases hmoveInfo : F.moveTo .userJsonKeyTmp with
      | some fault =>
        refine ⟨_, _, bind_of_error (moveTo_of_some hmoveInfo), ?_⟩
        have hu : (t₂.put .userJsonKey fault.left).keys =
            ⟨some rsa.1, some rsa.2, fault.left, t.userCipher⟩ := by
          rw [ht₂, ht₁]
          rfl
        rw [hu, hcipher]
        exact .jsonFailed rsa c aesKey info fault hmade hmovePublic hmovePrivate hmoveInfo
      | none =>
        -- the temporary file has what was written in it
        have hfile' : t₂.files .userJsonKeyTmp = some (F.written .userJsonKeyTmp info) := by
          rw [ht₂, ht₁]
          exact hinfo
        refine ⟨_, _, bind_of_ok (moveTo_of_none hmoveInfo), ?_⟩
        have hu : ((t₂.put .userJsonKey (t₂.files .userJsonKeyTmp)).put .userJsonKeyTmp none).keys =
            ⟨some rsa.1, some rsa.2, t₂.files .userJsonKeyTmp, t.userCipher⟩ := by
          rw [ht₂, ht₁]
          rfl
        rw [hu, hcipher, hfile']
        exact .succeeded rsa c aesKey info hmade hmovePublic hmovePrivate hmoveInfo

/-- **What happens**, whatever goes wrong. -/
theorem regenerateUserKeys_course :
    ∃ o t, regenerateUserKeys L F m s = (o, t) ∧ Regeneration L F s m o t.keys := by
  rcases createUserKey_course (L := L) (F := F) (s := s) with
    ⟨e, t, hnew, hrun, hkeys⟩ | ⟨rsa, c, hnew, hrun⟩
  · refine ⟨.error e, t, bind_of_error hrun, ?_⟩
    rw [hkeys]
    exact .keysFailed e hnew
  · obtain ⟨s₁, hs₁⟩ : ∃ x, x = { (s.put .publicTmp (some rsa.1)).put .privateTmp (some rsa.2) with
      userCipher := some c } := ⟨_, rfl⟩
    rw [← hs₁] at hrun
    have hkeys : s₁.keys = { s.keys with userCipher := some c } := by
      rw [hs₁]
      rfl
    rw [regenerateUserKeys, bind_of_ok hrun]
    cases haes : L.newAesKey with
    | error e =>
      refine ⟨.error e, s₁, bind_of_error (lift_of_error ?_), ?_⟩
      · rw [generateNewUserJsonKey, haes]
        rfl
      · rw [hkeys]
        refine .infoFailed rsa c e hnew ?_
        rw [newInfo, haes]
        rfl
    | ok aesKey =>
      have hgenerated : generateNewUserJsonKey L =
          .ok ⟨some (L.base64Encode aesKey.key), some (L.base64Encode aesKey.iv), none⟩ := by
        rw [generateNewUserJsonKey, haes]
        rfl
      rw [bind_of_ok (lift_of_ok hgenerated)]
      obtain ⟨obj, hobj⟩ : ∃ x, x = (⟨some (L.base64Encode aesKey.key),
        some (L.base64Encode aesKey.iv), some (Text.cString m.data)⟩ : JsonKey) := ⟨_, rfl⟩
      rcases encryptUserJsonInfo_course (L := L) (F := F) obj
        (congrArg Keys.userCipher hkeys) with ⟨e, t, hsealed, hencrypt, ht⟩ |
        ⟨info, t, hsealed, hencrypt, ht, hpublic, hprivate, hinfo⟩
      · rw [hobj] at hencrypt hsealed
        refine ⟨.error e, t, bind_of_error hencrypt, ?_⟩
        rw [ht, hkeys]
        refine .infoFailed rsa c e hnew ?_
        rw [newInfo_of_generated haes, hsealed]
        rfl
      · rw [hobj] at hencrypt hsealed
        have hmade : Made L F (Text.cString m.data) rsa c aesKey info := by
          refine ⟨hnew, ?_⟩
          rw [newInfo_of_generated haes, hsealed]
          rfl
        rw [hs₁] at hpublic hprivate
        obtain ⟨o, u, hmoves, hcourse⟩ := moves_course hmade (ht.trans hkeys) hpublic hprivate hinfo
        exact ⟨o, u, (bind_of_ok hencrypt).trans hmoves, hcourse⟩

/-- A regeneration by its parts. -/
theorem processKernelInput_regenerate : processKernelInput L F s m.regenerate =
    answer m.message.isSome (regenerateUserKeys L F m.regenerate)
      (regenerationFailed L m.regenerate) := rfl

/-- What the handler makes of it. -/
theorem handleKernelInput_regenerate (hm : m.message.isSome) {o : Except Exception Message}
    (hrun : regenerateUserKeys L F m.regenerate s = (o, t)) :
    ∃ r u, handleKernelInput L F s m.regenerate = some u ∧ u.out = s.out ++ [r] ∧
      u.keys = t.keys ∧ (∀ r', o = .ok r' → r = r') ∧ ∀ e, o = .error e → r.cmd = .failed := by
  have hout : t.out = s.out := by
    have hquiet := quiet_regenerateUserKeys (L := L) (F := F) (m := m.regenerate) s rfl
    rwa [hrun] at hquiet
  rw [handleKernelInput, processKernelInput_regenerate]
  cases o with
  | ok r =>
    refine ⟨r, t.send r, ?_, ?_, rfl, fun r' hr' => Except.ok.inj hr', fun e he => ?_⟩
    · rw [answer_of_ok hm hrun]
    · rw [State.send_out, hout]
    · cases he
  | error e =>
    obtain ⟨r, hr⟩ : ∃ x, x = { m.regenerate.reply .failed with
      message := if e.IsPoco then some (L.messageOf e) else none } := ⟨_, rfl⟩
    obtain ⟨u, hu⟩ : ∃ x,
      x = ((t.put .publicTmp none).put .privateTmp none).put .userJsonKeyTmp none := ⟨_, rfl⟩
    refine ⟨r, u.send r, ?_, ?_, ?_, fun r' hr' => ?_, fun e' _ => ?_⟩
    · have hanswer : (do
          removeTmpFiles
          pure { m.regenerate.reply .failed with
            message := if e.IsPoco then some (L.messageOf e) else none } :
              Attempt Exception (State C) Message) t = (.ok r, u) := by
        rw [hr, hu]
        rfl
      rw [answer_of_caught hm hrun rfl hanswer]
    · rw [State.send_out, hu, State.put_out, State.put_out, State.put_out, hout]
    · rw [hu]
      rfl
    · cases hr'
    · rw [hr]
      rfl

/-- Only one thing happens. -/
theorem Regeneration.unique {o o' : Except Exception Message} {k k' : Keys C}
    (h : Regeneration L F s m o k) (h' : Regeneration L F s m o' k') : o = o' ∧ k = k' := by
  -- two constructors disagree on the first step that fails
  cases h <;> cases h' <;> simp_all [Made]

/-- Where everything is generated, every step has worked. -/
theorem Made.steps {uuid : Text} {rsa : Text × Text} {c : C} {aesKey : AesKey} {info : Text}
    (h : Made L F uuid rsa c aesKey info) :
    L.newRsaKey = .ok rsa ∧ L.rsaCipher rsa.1 rsa.2 = .ok c ∧ L.newAesKey = .ok aesKey ∧
      L.encryptStream c (L.stringifyJsonKey ⟨some (L.base64Encode aesKey.key),
        some (L.base64Encode aesKey.iv), some uuid⟩) = .ok info := by
  obtain ⟨hkeys, hinfo⟩ := h
  rw [newKeys] at hkeys
  obtain ⟨-, -, hkeys⟩ := Except.exists_of_bind_eq_ok hkeys
  obtain ⟨rsa', hrsa, hkeys⟩ := Except.exists_of_bind_eq_ok hkeys
  obtain ⟨-, -, hkeys⟩ := Except.exists_of_bind_eq_ok hkeys
  obtain ⟨c', hcipher, hkeys⟩ := Except.exists_of_bind_eq_ok hkeys
  cases hkeys
  rw [newInfo] at hinfo
  obtain ⟨aesKey', haes, hinfo⟩ := Except.exists_of_bind_eq_ok hinfo
  obtain ⟨info', hsealed, hinfo⟩ := Except.exists_of_bind_eq_ok hinfo
  cases hinfo
  rw [sealedInfo] at hsealed
  obtain ⟨-, -, hsealed⟩ := Except.exists_of_bind_eq_ok hsealed
  obtain ⟨-, -, hsealed⟩ := Except.exists_of_bind_eq_ok hsealed
  exact ⟨hrsa, hcipher, haes, hsealed⟩

/-- If there is a reply it says that the keys were made. -/
theorem Regeneration.cmd_eq {k : Keys C} (h : Regeneration L F s m (.ok r) k) :
    r.cmd = .regenerateUserKeysSucceeded := by
  cases h
  rfl

/-- What is demanded of an end of the generation. -/
def Kept (L : Libs C) (s : State C) (uuid : Text) (o : Except Exception Message) (k : Keys C) :
    Prop :=
  match o with
  | .ok r => IsNewSet L uuid k r
  | .error _ => k = s.keys

/-- The condition demands it of everything that can happen. -/
theorem regenerationHarmless_iff : RegenerationHarmless L F s (Text.cString m.data) ↔
    ∀ o k, Regeneration L F s m o k → Kept L s (Text.cString m.data) o k := by
  constructor
  · intro h o k hcourse
    cases hcourse with
    | keysFailed e hkeys => exact rfl
    | infoFailed rsa c e hkeys hinfo =>
      rw [Kept, h.info rsa c e hkeys hinfo]
      rfl
    | publicFailed rsa c aesKey info fault hmade hmove =>
      exact h.movePublic rsa c aesKey info fault hmade hmove
    | privateFailed rsa c aesKey info fault hmade hpublic hmove =>
      exact h.movePrivate rsa c aesKey info fault hmade hpublic hmove
    | jsonFailed rsa c aesKey info fault hmade hpublic hprivate hmove =>
      exact h.moveInfo rsa c aesKey info fault hmade hpublic hprivate hmove
    | succeeded rsa c aesKey info hmade hpublic hprivate hmove =>
      obtain ⟨hrsa, hcipher, haes, hinfo⟩ := hmade.steps
      rw [h.written rsa c aesKey info hmade hpublic hprivate hmove]
      exact ⟨rsa, c, aesKey, info, hrsa, hcipher, haes, rfl, rfl, hinfo, rfl⟩
  · intro h
    constructor
    · intro rsa c e hkeys hinfo
      exact congrArg Keys.userCipher (h _ _ (.infoFailed rsa c e hkeys hinfo))
    · intro rsa c aesKey info fault hmade hmove
      exact h _ _ (.publicFailed rsa c aesKey info fault hmade hmove)
    · intro rsa c aesKey info fault hmade hpublic hmove
      exact h _ _ (.privateFailed rsa c aesKey info fault hmade hpublic hmove)
    · intro rsa c aesKey info fault hmade hpublic hprivate hmove
      exact h _ _ (.jsonFailed rsa c aesKey info fault hmade hpublic hprivate hmove)
    · intro rsa c aesKey info hmade hpublic hprivate hmove
      obtain ⟨hrsa, hcipher, haes, hinfo⟩ := hmade.steps
      obtain ⟨rsa', c', aesKey', info', hrsa', hcipher', haes', -, -, hinfo', hset⟩ :=
        h _ _ (.succeeded rsa c aesKey info hmade hpublic hprivate hmove)
      cases hrsa.symm.trans hrsa'
      cases hcipher.symm.trans hcipher'
      cases hinfo.symm.trans hinfo'
      exact Option.some.inj (congrArg Keys.userJsonKey hset)

/-- A law for what was sent, where one message was sent. -/
theorem forall_sent_iff {handled : Option (State C)} {u : State C} {p : State C → Message → Prop}
    (hu : handled = some u) (hout : u.out = s.out ++ [r]) :
    (∀ t r, handled = some t → t.out = s.out ++ [r] → p t r) ↔ p u r := by
  refine ⟨fun h => h u r hu hout, fun h t' r' ht' hout' => ?_⟩
  rw [← Option.some.inj (hu.symm.trans ht')] at hout' ⊢
  rwa [← List.singleton_inj.mp (List.append_cancel_left (hout.symm.trans hout'))]

/-- **Exactly when** a request for new keys obeys the law. -/
theorem regenerationLaw_iff : RegenerationLaw L F s m ↔
    (m.message.isSome → RegenerationHarmless L F s (Text.cString m.data)) := by
  by_cases hm : m.message.isSome
  · obtain ⟨o, t, hrun, hcourse⟩ := regenerateUserKeys_course (L := L) (F := F) (s := s)
      (m := m.regenerate)
    obtain ⟨r, u, hu, hout, hkeys, hok, herror⟩ := handleKernelInput_regenerate hm hrun
    have hlaw : RegenerationLaw L F s m ↔ (r.cmd = .failed → t.keys = s.keys) ∧
        (r.cmd = .regenerateUserKeysSucceeded → IsNewSet L (Text.cString m.data) t.keys r) := by
      rw [← hkeys]
      exact forall_sent_iff hu hout
    have hcond : RegenerationHarmless L F s (Text.cString m.data) ↔
        Kept L s (Text.cString m.data) o t.keys := by
      refine (regenerationHarmless_iff (m := m.regenerate)).trans
        ⟨fun h => h o t.keys hcourse, fun h o' k' hcourse' => ?_⟩
      obtain ⟨ho, hk⟩ := hcourse.unique hcourse'
      rw [← ho, ← hk]
      exact h
    rw [hlaw, hcond, imp_iff_right hm]
    cases o with
    | ok r' =>
      rw [hok r' rfl, hcourse.cmd_eq, Kept]
      refine ⟨fun h => h.2 rfl, fun h => ⟨?_, fun _ => h⟩⟩
      exact fun hfailed => Command.noConfusion hfailed
    | error e =>
      rw [herror e rfl, Kept]
      refine ⟨fun h => h.1 rfl, fun h => ⟨fun _ => h, ?_⟩⟩
      exact fun hsucceeded => Command.noConfusion hsucceeded
  · refine iff_of_true (fun t r ht _ => ?_) fun h => absurd h hm
    rw [handleKernelInput, processKernelInput_regenerate, answer_of_not hm] at ht
    cases ht

/-- Where new keys make a new cipher, nothing may fail once there is one. -/
theorem regenerationHarmless_iff_of_new {uuid : Text}
    (hnew : ∀ rsa c, newKeys L F = .ok (rsa, c) → some c ≠ s.userCipher) :
    RegenerationHarmless L F s uuid ↔ ∀ rsa c, newKeys L F = .ok (rsa, c) →
      ∃ aesKey info, newInfo L F c uuid = .ok (aesKey, info) ∧ F.moveTo .publicTmp = none ∧
        F.moveTo .privateTmp = none ∧ F.moveTo .userJsonKeyTmp = none ∧
          F.written .userJsonKeyTmp info = info := by
  constructor
  · intro h rsa c hkeys
    have hother := hnew rsa c hkeys
    cases hinfo : newInfo L F c uuid with
    | error e => exact absurd (h.info rsa c e hkeys hinfo) hother
    | ok x =>
      have hmade : Made L F uuid rsa c x.1 x.2 := ⟨hkeys, hinfo⟩
      refine ⟨x.1, x.2, rfl, ?_⟩
      cases hpublic : F.moveTo .publicTmp with
      | some fault =>
        have hsame := h.movePublic rsa c x.1 x.2 fault hmade hpublic
        exact absurd (congrArg Keys.userCipher hsame) hother
      | none =>
        cases hprivate : F.moveTo .privateTmp with
        | some fault =>
          have hsame := h.movePrivate rsa c x.1 x.2 fault hmade hpublic hprivate
          exact absurd (congrArg Keys.userCipher hsame) hother
        | none =>
          cases hjson : F.moveTo .userJsonKeyTmp with
          | some fault =>
            have hsame := h.moveInfo rsa c x.1 x.2 fault hmade hpublic hprivate hjson
            exact absurd (congrArg Keys.userCipher hsame) hother
          | none => exact ⟨rfl, rfl, rfl, h.written rsa c x.1 x.2 hmade hpublic hprivate hjson⟩
  · intro h
    constructor
    · intro rsa c e hkeys hinfo
      obtain ⟨aesKey, info, hinfo', -⟩ := h rsa c hkeys
      cases hinfo.symm.trans hinfo'
    · intro rsa c aesKey info fault hmade hmove
      obtain ⟨-, -, -, hpublic, -⟩ := h rsa c hmade.1
      cases hmove.symm.trans hpublic
    · intro rsa c aesKey info fault hmade _ hmove
      obtain ⟨-, -, -, -, hprivate, -⟩ := h rsa c hmade.1
      cases hmove.symm.trans hprivate
    · intro rsa c aesKey info fault hmade _ _ hmove
      obtain ⟨-, -, -, -, -, hjson, -⟩ := h rsa c hmade.1
      cases hmove.symm.trans hjson
    · intro rsa c aesKey info hmade _ _ _
      obtain ⟨aesKey', info', hinfo', -, -, -, hwritten⟩ := h rsa c hmade.1
      cases hmade.2.symm.trans hinfo'
      exact hwritten

/-! ### Keys of a paired node: the law -/

/-- The keys are those that were received. -/
def IsReceivedSet (L : Libs C) (l : LinkMessage) (k : Keys C) : Prop :=
  ∃ c, L.rsaCipher l.publicKey l.privateKey = .ok c ∧
    k = ⟨some l.publicKey, some l.privateKey, some l.userJsonInfo, some c⟩

/-- **The law** for the keys of a paired node. -/
def OverwriteLaw (L : Libs C) (F : Faults) (s : State C) (l : LinkMessage) : Prop :=
  ∀ t r, handleLinkInput L F s l = some t → t.out = s.out ++ [r] →
    (r.cmd = .requestKeysFail → t.keys = s.keys) ∧
      (r.cmd = .requestKeysResponse → IsReceivedSet L l t.keys)

/-- What is in a file after it was to be replaced: the new text, or what is left of `old` when that
fails. -/
def Faults.replacing (F : Faults) (k : Text) (tmp : File) (old : Option Text) :
    Except (Exception × Option Text) Text :=
  if k = [] ∨ F.opens tmp = false then .error (.poco, old)
  else (F.moveTo tmp).elim (.ok (F.written tmp k)) fun fault => .error (fault.exception, fault.left)

/-- The two parts of a key. -/
def JsonKey.parts (o : JsonKey) : Except Exception (Text × Text) := do
  let aesKey ← getValue o.aesKey
  let aesIv ← getValue o.aesIv
  pure (aesKey, aesIv)

/-- The key of the user json is read back. -/
def readInfo (L : Libs C) (c : C) (info : Text) : Except Exception (Text × Text) := do
  let text ← L.decryptStream c info
  let o ← L.parseJsonKey text
  o.parts

/-- The two files of the key are replaced. -/
def PairReplaced (F : Faults) (s : State C) (l : LinkMessage) (p q : Text) : Prop :=
  F.replacing l.publicKey .publicPemTmp (s.files .publicPem) = .ok p ∧
    F.replacing l.privateKey .privatePemTmp (s.files .privatePem) = .ok q

/-- All three files are replaced. -/
def FilesReplaced (F : Faults) (s : State C) (l : LinkMessage) (p q i : Text) : Prop :=
  PairReplaced F s l p q ∧
    F.replacing l.userJsonInfo .userJsonKeyTmp (s.files .userJsonKey) = .ok i

/-- **The condition**, with a clause for every point of failure that is reported, and one for a
success. -/
structure OverwriteHarmless (L : Libs C) (F : Faults) (s : State C) (l : LinkMessage) : Prop where
  publicFile : ∀ e left,
    F.replacing l.publicKey .publicPemTmp (s.files .publicPem) = .error (e, left) → e.IsPoco →
      { s.keys with publicKey := left } = s.keys
  privateFile : ∀ p e left, F.replacing l.publicKey .publicPemTmp (s.files .publicPem) = .ok p →
    F.replacing l.privateKey .privatePemTmp (s.files .privatePem) = .error (e, left) → e.IsPoco →
      { s.keys with publicKey := some p, privateKey := left } = s.keys
  infoFile : ∀ p q e left, PairReplaced F s l p q →
    F.replacing l.userJsonInfo .userJsonKeyTmp (s.files .userJsonKey) = .error (e, left) →
      e.IsPoco → ⟨some p, some q, left, s.userCipher⟩ = s.keys
  cipher : ∀ p q i e, FilesReplaced F s l p q i → L.rsaCipher p q = .error e → e.IsPoco →
    ⟨some p, some q, some i, s.userCipher⟩ = s.keys
  read : ∀ p q i c e, FilesReplaced F s l p q i → L.rsaCipher p q = .ok c →
    readInfo L c i = .error e → e.IsPoco → ⟨some p, some q, some i, some c⟩ = s.keys
  written : ∀ p q i c k, FilesReplaced F s l p q i → L.rsaCipher p q = .ok c →
    readInfo L c i = .ok k → p = l.publicKey ∧ q = l.privateKey ∧ i = l.userJsonInfo

/-! ### Keys of a paired node: what happens -/

/-- How the keys are taken over, and what they are then. -/
inductive Overwriting (L : Libs C) (F : Faults) (s : State C) (l : LinkMessage) :
    Except Exception Message → Keys C → Prop
  | publicFailed (e : Exception) (left : Option Text)
    (hfile : F.replacing l.publicKey .publicPemTmp (s.files .publicPem) = .error (e, left)) :
    Overwriting L F s l (.error e) { s.keys with publicKey := left }
  | privateFailed (p : Text) (e : Exception) (left : Option Text)
    (hpublic : F.replacing l.publicKey .publicPemTmp (s.files .publicPem) = .ok p)
    (hfile : F.replacing l.privateKey .privatePemTmp (s.files .privatePem) = .error (e, left)) :
    Overwriting L F s l (.error e) { s.keys with publicKey := some p, privateKey := left }
  | infoFailed (p q : Text) (e : Exception) (left : Option Text) (hpair : PairReplaced F s l p q)
    (hfile : F.replacing l.userJsonInfo .userJsonKeyTmp (s.files .userJsonKey) = .error (e, left)) :
    Overwriting L F s l (.error e) ⟨some p, some q, left, s.userCipher⟩
  | cipherFailed (p q i : Text) (e : Exception) (hfiles : FilesReplaced F s l p q i)
    (hcipher : L.rsaCipher p q = .error e) :
    Overwriting L F s l (.error e) ⟨some p, some q, some i, s.userCipher⟩
  | readFailed (p q i : Text) (c : C) (e : Exception) (hfiles : FilesReplaced F s l p q i)
    (hcipher : L.rsaCipher p q = .ok c) (hread : readInfo L c i = .error e) :
    Overwriting L F s l (.error e) ⟨some p, some q, some i, some c⟩
  | succeeded (p q i : Text) (c : C) (k : Text × Text) (hfiles : FilesReplaced F s l p q i)
    (hcipher : L.rsaCipher p q = .ok c) (hread : readInfo L c i = .ok k) :
    Overwriting L F s l (.ok ⟨l.requestId, .requestKeysResponse, 0, k.1, k.2, none, 0⟩)
      ⟨some p, some q, some i, some c⟩

/-- The keys depend on three files. -/
theorem keys_put_congr {f : File} {x : Option Text} (h : t.keys = s.keys) :
    (t.put f x).keys = (s.put f x).keys := by
  have hpublic : t.files .publicPem = s.files .publicPem := congrArg Keys.publicKey h
  have hprivate : t.files .privatePem = s.files .privatePem := congrArg Keys.privateKey h
  have hinfo : t.files .userJsonKey = s.files .userJsonKey := congrArg Keys.userJsonKey h
  have hcipher : t.userCipher = s.userCipher := congrArg Keys.userCipher h
  simp only [State.keys, State.put, hpublic, hprivate, hinfo, hcipher]

/-- A temporary file is none of them. -/
theorem keys_put_of_ne {f : File} {x : Option Text} (hpublic : f ≠ .publicPem)
    (hprivate : f ≠ .privatePem) (hinfo : f ≠ .userJsonKey) : (s.put f x).keys = s.keys := by
  rw [State.keys, State.put_files_of_ne hpublic.symm, State.put_files_of_ne hprivate.symm,
    State.put_files_of_ne hinfo.symm]
  rfl

/-- To write what is there changes nothing. -/
theorem keys_put_self {f : File} : (s.put f (s.files f)).keys = s.keys := by
  have hfiles : (s.put f (s.files f)).files = s.files := by
    funext g
    by_cases hg : g = f
    · rw [hg, State.put_files_self]
    · exact State.put_files_of_ne hg
  rw [State.keys, hfiles]
  rfl

section File

variable {k : Text} {tmp dst : File} (hpublic : tmp ≠ .publicPem) (hprivate : tmp ≠ .privatePem)
  (hinfo : tmp ≠ .userJsonKey)
include hpublic hprivate hinfo

/-- Opening a temporary file may cut it. -/
theorem cut_course : ∃ u, (onlyIf (F.opens tmp) (change fun s => s.put tmp (some [])) :
    Attempt Exception (State C) Unit) s = (.ok ⟨⟩, u) ∧ u.keys = s.keys := by
  by_cases hopens : F.opens tmp
  · refine ⟨s.put tmp (some []), ?_, keys_put_of_ne hpublic hprivate hinfo⟩
    rw [onlyIf_of_pos hopens, change_run]
  · exact ⟨s, onlyIf_of_neg hopens, rfl⟩

/-- A write that fails leaves the file as the fault says. -/
theorem writeInFile_of_error {left : Option Text}
    (h : F.replacing k tmp (s.files dst) = .error (e, left)) :
    ∃ t, writeInFile F k tmp dst s = (.error e, t) ∧ t.keys = (s.put dst left).keys := by
  obtain ⟨u, hcut, hu⟩ := cut_course (F := F) (s := s) hpublic hprivate hinfo
  rw [Faults.replacing] at h
  split_ifs at h with hrefused
  · obtain ⟨rfl, rfl⟩ := Prod.mk.inj (Except.error.inj h)
    have hraise : (if k = [] ∨ F.opens tmp = false then some Exception.poco else none) =
        some .poco := if_pos hrefused
    refine ⟨u, (bind_of_ok hcut).trans (bind_of_error (raise_of_some hraise)), ?_⟩
    rw [hu, keys_put_self]
  · cases hmove : F.moveTo tmp with
    | none =>
      rw [hmove] at h
      cases h
    | some fault =>
      rw [hmove] at h
      obtain ⟨rfl, rfl⟩ := Prod.mk.inj (Except.error.inj h)
      have hraise : (if k = [] ∨ F.opens tmp = false then some Exception.poco else none) = none :=
        if_neg hrefused
      refine ⟨_, (bind_of_ok hcut).trans ((bind_of_ok (raise_of_none hraise)).trans
        ((bind_of_ok (change_run _)).trans (moveTo_of_some hmove))), keys_put_congr ?_⟩
      rw [keys_put_of_ne hpublic hprivate hinfo, hu]

/-- One that succeeds leaves the new content. -/
theorem writeInFile_of_ok {w : Text} (h : F.replacing k tmp (s.files dst) = .ok w) :
    ∃ t, writeInFile F k tmp dst s = (.ok ⟨⟩, t) ∧ t.keys = (s.put dst (some w)).keys := by
  obtain ⟨u, hcut, hu⟩ := cut_course (F := F) (s := s) hpublic hprivate hinfo
  rw [Faults.replacing] at h
  split_ifs at h with hrefused
  cases hmove : F.moveTo tmp with
  | some fault =>
    rw [hmove] at h
    cases h
  | none =>
    rw [hmove] at h
    have hraise : (if k = [] ∨ F.opens tmp = false then some Exception.poco else none) = none :=
      if_neg hrefused
    refine ⟨_, (bind_of_ok hcut).trans ((bind_of_ok (raise_of_none hraise)).trans
      ((bind_of_ok (change_run _)).trans (moveTo_of_none hmove))), ?_⟩
    rw [keys_put_of_ne hpublic hprivate hinfo, State.put_files_self, ← Except.ok.inj h]
    refine keys_put_congr ?_
    rw [keys_put_of_ne hpublic hprivate hinfo, hu]

end File

/-- The files are replaced one after the other, and the cipher comes last. -/
theorem overwriteUserKeys_course :
    (∃ e t, overwriteUserKeys L F l s = (.error e, t) ∧ Overwriting L F s l (.error e) t.keys) ∨
    ∃ p q i c t, FilesReplaced F s l p q i ∧ L.rsaCipher p q = .ok c ∧
      overwriteUserKeys L F l s = (.ok ⟨⟩, t) ∧ t.keys = ⟨some p, some q, some i, some c⟩ := by
  rw [overwriteUserKeys]
  -- three files, one after the other; each failure leaves what was written before it
  cases hpublic : F.replacing l.publicKey .publicPemTmp (s.files .publicPem) with
  | error x =>
    obtain ⟨t, hrun, hkeys⟩ := writeInFile_of_error (by decide) (by decide) (by decide) hpublic
    refine .inl ⟨x.1, t, bind_of_error hrun, ?_⟩
    rw [hkeys]
    exact .publicFailed x.1 x.2 hpublic
  | ok p =>
    obtain ⟨t₁, hrun₁, hkeys₁⟩ :=
      writeInFile_of_ok (by decide) (by decide) (by decide) hpublic
    -- the other files are still what they were
    have hfile₁ : t₁.files .privatePem = s.files .privatePem := congrArg Keys.privateKey hkeys₁
    rw [bind_of_ok hrun₁]
    cases hprivate : F.replacing l.privateKey .privatePemTmp (s.files .privatePem) with
    | error x =>
      rw [← hfile₁] at hprivate
      obtain ⟨t, hrun, hkeys⟩ := writeInFile_of_error (by decide) (by decide) (by decide) hprivate
      refine .inl ⟨x.1, t, bind_of_error hrun, ?_⟩
      rw [hkeys, keys_put_congr hkeys₁]
      rw [hfile₁] at hprivate
      exact .privateFailed p x.1 x.2 hpublic hprivate
    | ok q =>
      have hpair : PairReplaced F s l p q := ⟨hpublic, hprivate⟩
      rw [← hfile₁] at hprivate
      obtain ⟨t₂, hrun₂, hkeys₂⟩ :=
        writeInFile_of_ok (by decide) (by decide) (by decide) hprivate
      rw [keys_put_congr hkeys₁] at hkeys₂
      have hfile₂ : t₂.files .userJsonKey = s.files .userJsonKey := congrArg Keys.userJsonKey hkeys₂
      rw [bind_of_ok hrun₂]
      cases hinfo : F.replacing l.userJsonInfo .userJsonKeyTmp (s.files .userJsonKey) with
      | error x =>
        rw [← hfile₂] at hinfo
        obtain ⟨t, hrun, hkeys⟩ := writeInFile_of_error (by decide) (by decide) (by decide) hinfo
        refine .inl ⟨x.1, t, bind_of_error hrun, ?_⟩
        rw [hkeys, keys_put_congr hkeys₂]
        rw [hfile₂] at hinfo
        exact .infoFailed p q x.1 x.2 hpair hinfo
      | ok i =>
        have hfiles : FilesReplaced F s l p q i := ⟨hpair, hinfo⟩
        rw [← hfile₂] at hinfo
        obtain ⟨t₃, hrun₃, hkeys₃⟩ :=
          writeInFile_of_ok (by decide) (by decide) (by decide) hinfo
        rw [keys_put_congr hkeys₂] at hkeys₃
        have hpublic₃ : t₃.files .publicPem = some p := congrArg Keys.publicKey hkeys₃
        have hprivate₃ : t₃.files .privatePem = some q := congrArg Keys.privateKey hkeys₃
        -- the files are read back as they were written, and the cipher is made of them
        have hread : ((id t₃).files .publicPem).elim (.error .file) .ok =
            (.ok p : Except Exception Text) := by
          rw [id, hpublic₃, Option.elim_some]
        have hread' : ((id t₃).files .privatePem).elim (.error .file) .ok =
            (.ok q : Except Exception Text) := by
          rw [id, hprivate₃, Option.elim_some]
        rw [bind_of_ok hrun₃, bind_of_ok (read_run id), bind_of_ok (lift_of_ok hread),
          bind_of_ok (lift_of_ok hread')]
        cases hcipher : L.rsaCipher p q with
        | error e =>
          refine .inl ⟨e, t₃, bind_of_error (lift_of_error rfl), ?_⟩
          rw [hkeys₃]
          exact .cipherFailed p q i e hfiles hcipher
        | ok c =>
          refine .inr ⟨p, q, i, c, _, hfiles, hcipher, bind_of_ok (lift_of_ok rfl), ?_⟩
          exact congrArg (fun k => { k with userCipher := some c }) hkeys₃

/-- What is read back depends on the cipher and the key file. -/
theorem decryptUserJsonInfo_of_keys {p q : Option Text} {i : Text} {c : C}
    (h : t.keys = ⟨p, q, some i, some c⟩) :
    decryptUserJsonInfo L t = L.decryptStream c i >>= L.parseJsonKey := by
  have hinfo : t.files .userJsonKey = some i := congrArg Keys.userJsonKey h
  have hcipher : t.userCipher = some c := congrArg Keys.userCipher h
  rw [decryptUserJsonInfo, hinfo, hcipher]
  rfl

/-- The key file is decrypted, parsed and taken apart. -/
theorem readInfo_eq {i : Text} {c : C} :
    readInfo L c i = (L.decryptStream c i >>= L.parseJsonKey) >>= JsonKey.parts :=
  (bind_assoc _ _ _).symm

/-- The reply has the parts of the key. -/
theorem parts_run {o : JsonKey} :
    (do
      let aesKey ← lift (getValue o.aesKey)
      let aesIv ← lift (getValue o.aesIv)
      pure ⟨l.requestId, .requestKeysResponse, 0, aesKey, aesIv, none, 0⟩ :
        Attempt Exception (State C) Message) s =
      (o.parts.map fun k => ⟨l.requestId, .requestKeysResponse, 0, k.1, k.2, none, 0⟩, s) := by
  rw [JsonKey.parts]
  cases o.aesKey with
  | none => rfl
  | some aesKey =>
    cases o.aesIv with
    | none => rfl
    | some aesIv => rfl

/-- **What happens**, whatever goes wrong. -/
theorem takeOverUserKeys_course :
    ∃ o t, takeOverUserKeys L F l s = (o, t) ∧ Overwriting L F s l o t.keys := by
  rcases overwriteUserKeys_course (L := L) (F := F) (s := s) (l := l) with
    ⟨e, t, hrun, hcourse⟩ | ⟨p, q, i, c, t, hfiles, hcipher, hrun, hkeys⟩
  · exact ⟨.error e, t, bind_of_error hrun, hcourse⟩
  · have hdecrypt := decryptUserJsonInfo_of_keys (L := L) hkeys
    have hread := readInfo_eq (L := L) (i := i) (c := c)
    rw [takeOverUserKeys, bind_of_ok hrun, bind_of_ok (read_run id)]
    cases hinfo : L.decryptStream c i >>= L.parseJsonKey with
    | error e =>
      rw [hinfo] at hdecrypt hread
      refine ⟨.error e, t, bind_of_error (lift_of_error hdecrypt), ?_⟩
      rw [hkeys]
      exact .readFailed p q i c e hfiles hcipher hread
    | ok o =>
      rw [hinfo] at hdecrypt hread
      refine ⟨_, t, (bind_of_ok (lift_of_ok hdecrypt)).trans parts_run, ?_⟩
      rw [hkeys]
      cases hparts : o.parts with
      | error e => exact .readFailed p q i c e hfiles hcipher (hread.trans hparts)
      | ok k => exact .succeeded p q i c k hfiles hcipher (hread.trans hparts)

/-- Only one thing happens. -/
theorem Overwriting.unique {o o' : Except Exception Message} {k k' : Keys C}
    (h : Overwriting L F s l o k) (h' : Overwriting L F s l o' k') : o = o' ∧ k = k' := by
  cases h <;> cases h' <;> simp_all [PairReplaced, FilesReplaced]

/-- The reply of a pairing says that the keys were taken over. -/
theorem Overwriting.cmd_eq {k : Keys C} (h : Overwriting L F s l (.ok r) k) :
    r.cmd = .requestKeysResponse := by
  cases h
  rfl

/-- What is demanded of an end of the replacement. An exception that is not one of Poco ends the
node. -/
def TakenOver (L : Libs C) (s : State C) (l : LinkMessage) (o : Except Exception Message)
    (k : Keys C) : Prop :=
  match o with
  | .ok _ => IsReceivedSet L l k
  | .error e => e.IsPoco → k = s.keys

/-- The condition demands it of everything that can happen. -/
theorem overwriteHarmless_iff : OverwriteHarmless L F s l ↔
    ∀ o k, Overwriting L F s l o k → TakenOver L s l o k := by
  constructor
  · intro h o k hcourse
    cases hcourse with
    | publicFailed e left hfile => exact h.publicFile e left hfile
    | privateFailed p e left hpublic hfile => exact h.privateFile p e left hpublic hfile
    | infoFailed p q e left hpair hfile => exact h.infoFile p q e left hpair hfile
    | cipherFailed p q i e hfiles hcipher => exact h.cipher p q i e hfiles hcipher
    | readFailed p q i c e hfiles hcipher hread => exact h.read p q i c e hfiles hcipher hread
    | succeeded p q i c k hfiles hcipher hread =>
      obtain ⟨rfl, rfl, rfl⟩ := h.written p q i c k hfiles hcipher hread
      exact ⟨c, hcipher, rfl⟩
  · intro h
    constructor
    · exact fun e left hfile => h _ _ (.publicFailed e left hfile)
    · exact fun p e left hpublic hfile => h _ _ (.privateFailed p e left hpublic hfile)
    · exact fun p q e left hpair hfile => h _ _ (.infoFailed p q e left hpair hfile)
    · exact fun p q i e hfiles hcipher => h _ _ (.cipherFailed p q i e hfiles hcipher)
    · exact fun p q i c e hfiles hcipher hread => h _ _ (.readFailed p q i c e hfiles hcipher hread)
    · intro p q i c k hfiles hcipher hread
      obtain ⟨c', -, hset⟩ := h _ _ (.succeeded p q i c k hfiles hcipher hread)
      exact ⟨Option.some.inj (congrArg Keys.publicKey hset),
        Option.some.inj (congrArg Keys.privateKey hset),
        Option.some.inj (congrArg Keys.userJsonKey hset)⟩

/-- Nothing is sent while the keys are written. -/
theorem quiet_writeInFile {out : List Message} {k : Text} {tmp dst : File} :
    Keeps (fun t : State C => t.out = out) (writeInFile F k tmp dst) :=
  keeps_bind (keeps_onlyIf (keeps_change fun _ h => h)) fun _ => keeps_bind keeps_raise fun _ =>
    keeps_bind (keeps_change fun _ h => h) fun _ => quiet_moveTo

/-- Nor while they are checked. -/
theorem quiet_overwriteUserKeys {out : List Message} :
    Keeps (fun t : State C => t.out = out) (overwriteUserKeys L F l) :=
  keeps_bind quiet_writeInFile fun _ => keeps_bind quiet_writeInFile fun _ =>
    keeps_bind quiet_writeInFile fun _ => keeps_bind keeps_read fun _ =>
      keeps_bind keeps_lift fun _ => keeps_bind keeps_lift fun _ => keeps_bind keeps_lift fun _ =>
        keeps_change fun _ h => h

/-- So the reply is the only message. -/
theorem quiet_takeOverUserKeys {out : List Message} :
    Keeps (fun t : State C => t.out = out) (takeOverUserKeys L F l) :=
  keeps_bind quiet_overwriteUserKeys fun _ => keeps_bind keeps_read fun _ =>
    keeps_bind keeps_lift fun _ => keeps_bind keeps_lift fun _ => keeps_bind keeps_lift fun _ =>
      keeps_pure

/-- **Exactly when** the keys of a paired node obey the law. -/
theorem overwriteLaw_iff : OverwriteLaw L F s l ↔ OverwriteHarmless L F s l := by
  obtain ⟨o, t, hrun, hcourse⟩ := takeOverUserKeys_course (L := L) (F := F) (s := s) (l := l)
  have hout : t.out = s.out := by
    have hquiet := quiet_takeOverUserKeys (L := L) (F := F) (l := l) s rfl
    rwa [hrun] at hquiet
  have hcond : OverwriteHarmless L F s l ↔ TakenOver L s l o t.keys := by
    refine overwriteHarmless_iff.trans ⟨fun h => h o t.keys hcourse, fun h o' k' hcourse' => ?_⟩
    obtain ⟨ho, hk⟩ := hcourse.unique hcourse'
    rw [← ho, ← hk]
    exact h
  rw [hcond]
  cases o with
  | ok r =>
    have hhandled : handleLinkInput L F s l = some (t.send r) := by
      rw [handleLinkInput, handleLinkRequestKeysRespons, answer_of_ok trivial hrun]
    have hsent : (t.send r).out = s.out ++ [r] := by rw [State.send_out, hout]
    rw [TakenOver]
    refine (forall_sent_iff hhandled hsent).trans
      ⟨fun h => h.2 hcourse.cmd_eq, fun h => ⟨?_, fun _ => h⟩⟩
    rw [hcourse.cmd_eq]
    exact fun hfail => Command.noConfusion hfail
  | error e =>
    rw [TakenOver]
    by_cases hpoco : e.IsPoco
    · obtain ⟨r, hr⟩ : ∃ x, x = (⟨l.requestId, .requestKeysFail, 0, [], [],
        some (L.messageOf e), 0⟩ : Message) := ⟨_, rfl⟩
      have hanswer : (pure r : Attempt Exception (State C) Message) t = (.ok r, t) := pure_run
      rw [hr] at hanswer
      have hhandled : handleLinkInput L F s l = some (t.send r) := by
        rw [handleLinkInput, handleLinkRequestKeysRespons,
          answer_of_caught trivial hrun (if_pos hpoco) hanswer, hr]
      have hsent : (t.send r).out = s.out ++ [r] := by rw [State.send_out, hout]
      have hcmd : r.cmd = .requestKeysFail := by rw [hr]
      refine (forall_sent_iff hhandled hsent).trans
        ⟨fun h _ => h.1 hcmd, fun h => ⟨fun _ => h hpoco, ?_⟩⟩
      rw [hcmd]
      exact fun hresponse => Command.noConfusion hresponse
    · have hhandled : handleLinkInput L F s l = none := by
        rw [handleLinkInput, handleLinkRequestKeysRespons,
          answer_of_uncaught trivial hrun (if_neg hpoco)]
      refine iff_of_true (fun u r hu _ => ?_) fun h => absurd h hpoco
      rw [hhandled] at hu
      cases hu

/-- **Exactly when** keys are replaced all or not at all. -/
theorem keys_replaced_iff (L : Libs C) (F : Faults) (s : State C) :
    (∀ m, RegenerationLaw L F s m ↔
      (m.message.isSome → RegenerationHarmless L F s (Text.cString m.data))) ∧
        ∀ l, OverwriteLaw L F s l ↔ OverwriteHarmless L F s l :=
  ⟨fun _ => regenerationLaw_iff, fun _ => overwriteLaw_iff⟩

/-- The temporary file for the key of the user json cannot be opened. -/
def sinkFault : Faults := { noFaults with openSink := some .file }

/-- **A failure after the cipher was replaced** leaves a cipher that does not fit to the files. -/
theorem not_keys_replaced : ¬ ∀ (C : Type) (L : Libs C) (F : Faults) (s : State C),
    (∀ m, RegenerationLaw L F s m) ∧ ∀ l, OverwriteLaw L F s l := by
  intro h
  obtain ⟨t, ht⟩ : ∃ t, handleKernelInput plainLibs sinkFault keyHolder
    (Message.regenerate ⟨7, .regenerateUserKeys, 0, [], [], some ['u'], 0⟩) = some t := ⟨_, rfl⟩
  have hkeys := ((h _ plainLibs sinkFault keyHolder).1 _ t
    ⟨7, .failed, 0, [], [], some [], 0⟩ ht (by cases ht; rfl)).1 rfl
  cases ht
  have hcipher : some (['p'], ['q']) = some (['a'], ['b']) := congrArg Keys.userCipher hkeys
  cases hcipher

end KeyManager

end Metax
