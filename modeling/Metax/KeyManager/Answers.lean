import Metax.KeyManager.Task

/-!
# Which requests the key manager answers

A request of the kernel should be answered by exactly one reply with its id, and a failure by the
failure command of the request (`Answered`). It is so exactly if what the handler asserts outside
its `try` block holds (`guard`) and no operation throws an exception that it does not catch
(`catches`).
Decrypting a stream and getting the keys of the user asserts nothing there and catches everything;
for encrypting and for new AES keys there is no command that could tell of a failure.

An exception that is not caught is logged only, and a failed assertion ends the node.
-/

namespace Metax

namespace KeyManager

open Attempt

variable {C : Type} {L : Libs C} {F : Faults} {s t : State C} {m r : Message} {e : Exception}

/-! ### The law -/

/-- The requests that expect an answer. -/
def Awaited (c : Command) : Prop :=
  c = .encrypt ∨ c = .decrypt ∨ c = .decryptWithPortions ∨ c = .checkId ∨ c = .reencryptKey ∨
    c = .streamEncrypt ∨ c = .streamDecrypt ∨ c = .decryptKey ∨ c = .genAesKey ∨
      c = .regenerateUserKeys ∨ c = .getUserKeys

/-- The command that reports a failure. -/
def failureCommand : Command → Option Command
  | .decrypt => some .decryptionFail
  | .decryptWithPortions => some .decryptionFail
  | .decryptKey => some .decryptionFail
  | .reencryptKey => some .reencryptionFail
  | .streamDecrypt => some .streamDecryptFail
  | .regenerateUserKeys => some .failed
  | .getUserKeys => some .getUserKeysFailed
  | _ => none

/-- What a handler works out. -/
def work (L : Libs C) (F : Faults) (s : State C) (m : Message) :
    Attempt Exception (State C) Message :=
  match m.cmd with
  | .encrypt => lift (encryption L m)
  | .decrypt => lift (decryption L m L.decryptString)
  | .decryptWithPortions => lift (decryption L m fun c => decryptPortionData (L.decryptString c))
  | .checkId => lift (idCheck s m)
  | .reencryptKey => lift (reencryption L m)
  | .streamEncrypt => lift (streamEncryption L s m)
  | .streamDecrypt => lift (streamDecryption L s m)
  | .decryptKey => lift (keyDecryption L s m)
  | .genAesKey => lift (L.newAesKey.map fun aesKey => { m.reply .getAesKey with
      aesIv := L.base64Encode aesKey.iv
      aesKey := L.base64Encode aesKey.key })
  | .regenerateUserKeys => regenerateUserKeys L F m
  | .getUserKeys => lift ((getUserKeys L s).map fun keys =>
      { m.reply .getUserKeysResponse with message := some keys })
  | _ => pure m

/-- What comes of it: a reply, or the first exception. -/
def outcome (L : Libs C) (F : Faults) (s : State C) (m : Message) : Except Exception Message :=
  (work L F s m s).1

/-- **The law**: one reply with the id of the request. It is the one that was worked out, or tells
of the failure. -/
def Answered (L : Libs C) (F : Faults) (s : State C) (m : Message) : Prop :=
  ∃ t r, handleKernelInput L F s m = some t ∧ t.out = s.out ++ [r] ∧ r.requestId = m.requestId ∧
    (∀ r', outcome L F s m = .ok r' → r = r') ∧
      ∀ e, outcome L F s m = .error e → failureCommand m.cmd = some r.cmd

/-- What a handler asserts outside its `try` block. -/
def guard (s : State C) (m : Message) : Bool :=
  match m.cmd with
  | .decrypt => s.userCipher.isSome
  | .decryptWithPortions => s.userCipher.isSome
  | .decryptKey => s.userCipher.isSome
  | .regenerateUserKeys => m.message.isSome
  | _ => true

/-- The exceptions a handler catches. -/
def catches : Command → Exception → Bool
  | .decrypt, e => e.IsPoco
  | .decryptWithPortions, e => e.IsPoco
  | .decryptKey, e => e.IsPoco
  | .reencryptKey, e => e = .file
  | .streamDecrypt, _ => true
  | .regenerateUserKeys, _ => true
  | .getUserKeys, _ => true
  | _, _ => false

/-- **The condition.** -/
def Answerable (L : Libs C) (F : Faults) (s : State C) (m : Message) : Prop :=
  guard s m = true ∧ ∀ e, outcome L F s m = .error e → catches m.cmd e = true

/-! ### The shape of a handler -/

section Answer

variable {c : Prop} [Decidable c] {x : Attempt Exception (State C) Message}
  {caught : Exception → Option (Attempt Exception (State C) Message)}

/-- The shape of the handlers: an assertion, the work, and the reply or what is caught. -/
theorem answer_of_not (hc : ¬ c) : answer c x caught s = (.error .assertion, s) :=
  bind_of_error (ensure_of_neg hc)

/-- The assertion holds. -/
theorem answer_eq (hc : c) : answer c x caught s =
    (x.catching caught >>= fun r => change (·.send r)) s :=
  bind_of_ok (ensure_of_pos hc)

/-- The work ends with a reply, which is sent. -/
theorem answer_of_ok (hc : c) (hx : x s = (.ok r, t)) :
    answer c x caught s = (.ok ⟨⟩, t.send r) := by
  rw [answer_eq hc, bind_of_ok (catching_of_ok hx), change_run]

/-- It ends with an exception that is not caught, and nothing is sent. -/
theorem answer_of_uncaught (hc : c) (hx : x s = (.error e, t)) (he : caught e = none) :
    answer c x caught s = (.error e, t) := by
  have hcatching : x.catching caught s = (.error e, t) := by
    rw [catching_of_error hx, he]
    rfl
  rw [answer_eq hc, bind_of_error hcatching]

/-- It ends with one that is caught, and the failure is sent. -/
theorem answer_of_caught {y : Attempt Exception (State C) Message} {t' : State C} (hc : c)
    (hx : x s = (.error e, t)) (he : caught e = some y) (hy : y t = (.ok r, t')) :
    answer c x caught s = (.ok ⟨⟩, t'.send r) := by
  have hcatching : x.catching caught s = (.ok r, t') := by
    rw [catching_of_error hx, he]
    exact hy
  rw [answer_eq hc, bind_of_ok hcatching, change_run]

/-- A handler of this shape, with what has to be known of its parts. -/
structure Shaped (L : Libs C) (F : Faults) (s : State C) (m : Message) (c : Prop) [Decidable c]
    (caught : Exception → Option (Attempt Exception (State C) Message)) : Prop where
  process : processKernelInput L F s m = answer c (work L F s m) caught
  guard_iff : guard s m = true ↔ c
  quiet : Keeps (fun t => t.out = s.out) (work L F s m)
  id : Gives (fun r => r.requestId = m.requestId) (work L F s m)
  caught_of : ∀ e, catches m.cmd e = true → ∃ y, caught e = some y ∧ ∀ t, ∃ r t',
    y t = (.ok r, t') ∧ t'.out = t.out ∧ r.requestId = m.requestId ∧
      failureCommand m.cmd = some r.cmd
  uncaught_of : ∀ e, catches m.cmd e = false → caught e = none

/-- Without a reply the law does not hold. -/
theorem not_answered_of_quiet (h : ∀ t, handleKernelInput L F s m = some t → t.out = s.out) :
    ¬ Answered L F s m := by
  rintro ⟨t, r, ht, hout, -⟩
  have hlen := congrArg List.length ((h t ht).symm.trans hout)
  rw [List.length_append, List.length_singleton] at hlen
  omega

/-- **Exactly when** a handler of this shape answers. -/
theorem Shaped.answered_iff (h : Shaped L F s m c caught) :
    Answered L F s m ↔ Answerable L F s m := by
  by_cases hc : c
  · cases hrun : work L F s m s with
    | mk o t =>
      have hout : t.out = s.out := by
        have hquiet := h.quiet s rfl
        rwa [hrun] at hquiet
      have houtcome : outcome L F s m = o := congrArg Prod.fst hrun
      cases o with
      | ok r =>
        have hid := h.id s r t hrun
        refine iff_of_true ⟨t.send r, r, ?_, ?_, hid, ?_, ?_⟩ ⟨h.guard_iff.mpr hc, ?_⟩
        · rw [handleKernelInput, h.process, answer_of_ok hc hrun]
        · rw [State.send_out, hout]
        · intro r' hr'
          exact Except.ok.inj (houtcome.symm.trans hr')
        · intro e he
          cases houtcome.symm.trans he
        · intro e he
          cases houtcome.symm.trans he
      | error e =>
        cases hcatch : catches m.cmd e with
        | true =>
          obtain ⟨y, hy, hanswer⟩ := h.caught_of e hcatch
          obtain ⟨r, t', hrun', hout', hid, hfail⟩ := hanswer t
          refine iff_of_true ⟨t'.send r, r, ?_, ?_, hid, ?_, ?_⟩ ⟨h.guard_iff.mpr hc, ?_⟩
          · rw [handleKernelInput, h.process, answer_of_caught hc hrun hy hrun']
          · rw [State.send_out, hout', hout]
          · intro r' hr'
            cases houtcome.symm.trans hr'
          · exact fun _ _ => hfail
          · intro e' he'
            rwa [← Except.error.inj (houtcome.symm.trans he')]
        | false =>
          refine iff_of_false (not_answered_of_quiet ?_) ?_
          · intro t' ht'
            rw [handleKernelInput, h.process,
              answer_of_uncaught hc hrun (h.uncaught_of e hcatch)] at ht'
            dsimp only at ht'
            split_ifs at ht'
            rw [← Option.some.inj ht', hout]
          · rintro ⟨-, hall⟩
            rw [hall e houtcome] at hcatch
            cases hcatch
  · refine iff_of_false (not_answered_of_quiet ?_) fun hanswerable =>
      hc (h.guard_iff.mp hanswerable.1)
    intro t ht
    rw [handleKernelInput, h.process, answer_of_not hc] at ht
    cases ht

end Answer

/-! ### Ids -/

section Ids

open Except

/-- Whatever is worked out has the id of its request. -/
theorem requestId_encryption : ∀ r, encryption L m = .ok r → r.requestId = m.requestId := by
  rw [encryption]
  split_ifs
  · exact forall_ok_bind fun _ => forall_ok_bind fun _ => forall_ok_bind fun _ => forall_ok_pure rfl
  · exact forall_ok_bind fun _ => forall_ok_bind fun _ => forall_ok_bind fun _ =>
      forall_ok_bind fun _ => forall_ok_pure rfl

theorem requestId_streamEncryption :
    ∀ r, streamEncryption L s m = .ok r → r.requestId = m.requestId :=
  forall_ok_bind fun _ => forall_ok_bind fun _ => forall_ok_bind fun _ => forall_ok_pure rfl

theorem requestId_reencryption : ∀ r, reencryption L m = .ok r → r.requestId = m.requestId :=
  forall_ok_bind fun _ => forall_ok_bind fun _ => forall_ok_bind fun _ => forall_ok_bind fun _ =>
    forall_ok_bind fun _ => forall_ok_bind fun _ => forall_ok_pure rfl

theorem requestId_decryption {dec : C → Text → Except Exception Text} :
    ∀ r, decryption L m dec = .ok r → r.requestId = m.requestId :=
  forall_ok_bind fun _ => forall_ok_bind fun _ => forall_ok_bind fun _ => forall_ok_bind fun _ =>
    forall_ok_pure rfl

theorem requestId_keyDecryption : ∀ r, keyDecryption L s m = .ok r → r.requestId = m.requestId :=
  forall_ok_bind fun _ => forall_ok_bind fun _ => forall_ok_bind fun _ => forall_ok_bind fun _ =>
    forall_ok_pure rfl

theorem requestId_streamDecryption :
    ∀ r, streamDecryption L s m = .ok r → r.requestId = m.requestId :=
  forall_ok_bind fun _ => forall_ok_bind fun _ => forall_ok_pure rfl

theorem requestId_idCheck : ∀ r, idCheck s m = .ok r → r.requestId = m.requestId :=
  forall_ok_bind fun _ => forall_ok_pure rfl

/-- The same for what is worked out without the request. -/
theorem requestId_map {α : Type} {x : Except Exception α} {f : α → Message}
    (hf : ∀ a, (f a).requestId = m.requestId) :
    ∀ r, x.map f = .ok r → r.requestId = m.requestId := by
  intro r h
  cases x with
  | ok a =>
    rw [← Except.ok.inj h]
    exact hf a
  | error e => cases h

end Ids

/-! ### The handlers -/

/-- A handler without a `try` block that does not touch the state. -/
theorem answered_iff_of_uncaught (x : Except Exception Message)
    (hprocess : processKernelInput L F s m = answer True (lift x) uncaught)
    (hwork : work L F s m = lift x) (hguard : guard s m = true)
    (hid : ∀ r, x = .ok r → r.requestId = m.requestId) (hcatch : ∀ e, catches m.cmd e = false) :
    Answered L F s m ↔ Answerable L F s m := by
  refine Shaped.answered_iff (?_ : Shaped L F s m True uncaught)
  constructor
  · rw [hwork, hprocess]
  · exact iff_of_true hguard trivial
  · rw [hwork]
    exact keeps_lift
  · rw [hwork]
    exact gives_lift hid
  · intro e he
    rw [hcatch e] at he
    cases he
  · exact fun _ _ => rfl

/-- A handler that answers exceptions of a class. -/
theorem answered_iff_of_failing (c : Prop) [Decidable c] (x : Except Exception Message)
    (p : Exception → Prop) [DecidablePred p] (f : Exception → Message)
    (hprocess : processKernelInput L F s m = answer c (lift x) (failing p f))
    (hwork : work L F s m = lift x) (hguard : guard s m = true ↔ c)
    (hid : ∀ r, x = .ok r → r.requestId = m.requestId)
    (hcatch : ∀ e, catches m.cmd e = true ↔ p e) (hf : ∀ e, (f e).requestId = m.requestId)
    (hcmd : ∀ e, failureCommand m.cmd = some (f e).cmd) :
    Answered L F s m ↔ Answerable L F s m := by
  refine Shaped.answered_iff (?_ : Shaped L F s m c (failing p f))
  constructor
  · rw [hwork, hprocess]
  · exact hguard
  · rw [hwork]
    exact keeps_lift
  · rw [hwork]
    exact gives_lift hid
  · intro e he
    exact ⟨pure (f e), if_pos ((hcatch e).mp he), fun t => ⟨f e, t, rfl, rfl, hf e, hcmd e⟩⟩
  · intro e he
    refine if_neg fun hp => ?_
    rw [(hcatch e).mpr hp] at he
    cases he

/-! ### New keys -/

/-- The steps of a regeneration send nothing by themselves. -/
theorem quiet_createUserKey {out : List Message} {pub priv : File} {check : Bool} :
    Keeps (fun t : State C => t.out = out) (createUserKey L F pub priv check) := by
  refine keeps_bind keeps_raise fun _ => keeps_bind keeps_read fun t => keeps_bind ?_ fun _ => ?_
  · exact keeps_onlyIf (keeps_bind keeps_lift fun _ => keeps_bind keeps_raise fun _ =>
      keeps_change fun _ h => h)
  · exact keeps_bind keeps_read fun _ => keeps_bind keeps_lift fun _ =>
      keeps_bind keeps_lift fun _ => keeps_bind keeps_lift fun _ => keeps_change fun _ h => h

theorem quiet_encryptUserJsonInfo {out : List Message} {obj : JsonKey} {f : File} :
    Keeps (fun t : State C => t.out = out) (encryptUserJsonInfoWithUserKey L F obj f) :=
  keeps_bind keeps_raise fun _ => keeps_bind keeps_raise fun _ =>
    keeps_bind (keeps_change fun _ h => h) fun _ => keeps_bind keeps_read fun _ =>
      keeps_bind keeps_lift fun _ => keeps_bind keeps_lift fun _ => keeps_change fun _ h => h

theorem quiet_moveTo {out : List Message} {src dst : File} :
    Keeps (fun t : State C => t.out = out) (moveTo F src dst) := by
  rw [moveTo]
  cases F.moveTo src with
  | none => exact keeps_change fun _ h => h
  | some fault => exact keeps_bind (keeps_change fun _ h => h) fun _ => keeps_raise

/-- So nothing but the reply is sent for one. -/
theorem quiet_regenerateUserKeys {out : List Message} :
    Keeps (fun t : State C => t.out = out) (regenerateUserKeys L F m) :=
  keeps_bind quiet_createUserKey fun _ => keeps_bind keeps_lift fun _ =>
    keeps_bind quiet_encryptUserJsonInfo fun _ => keeps_bind quiet_moveTo fun _ =>
      keeps_bind quiet_moveTo fun _ => keeps_bind quiet_moveTo fun _ =>
        keeps_bind keeps_lift fun _ => keeps_bind keeps_lift fun _ => keeps_pure

theorem requestId_regenerateUserKeys :
    Gives (fun r => r.requestId = m.requestId) (regenerateUserKeys (C := C) L F m) :=
  gives_bind fun _ => gives_bind fun _ => gives_bind fun _ => gives_bind fun _ =>
    gives_bind fun _ => gives_bind fun _ => gives_bind fun _ => gives_bind fun _ => gives_pure rfl

/-- A regeneration has the shape of the other handlers. -/
theorem shaped_regenerateUserKeys (h : m.cmd = .regenerateUserKeys) :
    Shaped L F s m m.message.isSome (regenerationFailed L m) := by
  have hwork : work L F s m = regenerateUserKeys L F m := by rw [work, h]
  constructor
  · rw [hwork, processKernelInput, h]
    rfl
  · rw [guard, h]
  · rw [hwork]
    exact quiet_regenerateUserKeys
  · rw [hwork]
    exact requestId_regenerateUserKeys
  · intro e _
    refine ⟨_, rfl, fun t => ⟨_, _, rfl, rfl, rfl, ?_⟩⟩
    rw [h]
    rfl
  · intro e he
    rw [h] at he
    cases he

/-! ### All requests -/

/-- The requests for which there is no failure command: all depends on the work. -/
theorem answered_encrypt_iff (h : m.cmd = .encrypt) :
    Answered L F s m ↔ Answerable L F s m := by
  refine answered_iff_of_uncaught (encryption L m) ?_ ?_ ?_ requestId_encryption ?_
  · rw [processKernelInput, h]
    rfl
  · rw [work, h]
  · rw [guard, h]
  · rw [h]
    exact fun _ => rfl

theorem answered_checkId_iff (h : m.cmd = .checkId) :
    Answered L F s m ↔ Answerable L F s m := by
  refine answered_iff_of_uncaught (idCheck s m) ?_ ?_ ?_ requestId_idCheck ?_
  · rw [processKernelInput, h]
    rfl
  · rw [work, h]
  · rw [guard, h]
  · rw [h]
    exact fun _ => rfl

theorem answered_streamEncrypt_iff (h : m.cmd = .streamEncrypt) :
    Answered L F s m ↔ Answerable L F s m := by
  refine answered_iff_of_uncaught (streamEncryption L s m) ?_ ?_ ?_
    requestId_streamEncryption ?_
  · rw [processKernelInput, h]
    rfl
  · rw [work, h]
  · rw [guard, h]
  · rw [h]
    exact fun _ => rfl

theorem answered_genAesKey_iff (h : m.cmd = .genAesKey) :
    Answered L F s m ↔ Answerable L F s m := by
  refine answered_iff_of_uncaught (L.newAesKey.map fun aesKey => { m.reply .getAesKey with
    aesIv := L.base64Encode aesKey.iv
    aesKey := L.base64Encode aesKey.key }) ?_ ?_ ?_ (requestId_map fun _ => rfl) ?_
  · rw [processKernelInput, h]
    rfl
  · rw [work, h]
  · rw [guard, h]
  · rw [h]
    exact fun _ => rfl

/-- The requests that assert the user's cipher and catch what the library throws. -/
theorem answered_decrypt_iff (h : m.cmd = .decrypt) :
    Answered L F s m ↔ Answerable L F s m := by
  refine answered_iff_of_failing s.userCipher.isSome (decryption L m L.decryptString)
    Exception.IsPoco (fun _ => { m.reply .decryptionFail with
      message := some "Failed to decrypt data.".toList }) ?_ ?_ ?_ requestId_decryption ?_
        (fun _ => rfl) ?_
  · rw [processKernelInput, h]
    rfl
  · rw [work, h]
  · rw [guard, h]
  · intro e
    rw [h]
    exact decide_eq_true_iff
  · intro e
    rw [h]
    rfl

theorem answered_decryptWithPortions_iff (h : m.cmd = .decryptWithPortions) :
    Answered L F s m ↔ Answerable L F s m := by
  refine answered_iff_of_failing s.userCipher.isSome
    (decryption L m fun c => decryptPortionData (L.decryptString c)) Exception.IsPoco
    (fun _ => { m.reply .decryptionFail with
      message := some "Failed to decrypt data.".toList }) ?_ ?_ ?_ requestId_decryption ?_
        (fun _ => rfl) ?_
  · rw [processKernelInput, h]
    rfl
  · rw [work, h]
  · rw [guard, h]
  · intro e
    rw [h]
    exact decide_eq_true_iff
  · intro e
    rw [h]
    rfl

/-- The key of an object, which is decrypted with the user's private key. -/
theorem answered_decryptKey_iff (h : m.cmd = .decryptKey) :
    Answered L F s m ↔ Answerable L F s m := by
  refine answered_iff_of_failing s.userCipher.isSome (keyDecryption L s m) Exception.IsPoco
    (fun _ => { m.reply .decryptionFail with
      message := some "Failed to decrypt key.".toList }) ?_ ?_ ?_ requestId_keyDecryption ?_
        (fun _ => rfl) ?_
  · rw [processKernelInput, h]
    rfl
  · rw [work, h]
  · rw [guard, h]
  · intro e
    rw [h]
    exact decide_eq_true_iff
  · intro e
    rw [h]
    rfl

/-- The key for another user: only an unreadable key of that user is caught. -/
theorem answered_reencryptKey_iff (h : m.cmd = .reencryptKey) :
    Answered L F s m ↔ Answerable L F s m := by
  refine answered_iff_of_failing True (reencryption L m) (· = .file)
    (fun _ => { m.reply .reencryptionFail with
      message := some "Reencryption failed".toList }) ?_ ?_ ?_ requestId_reencryption ?_
        (fun _ => rfl) ?_
  · rw [processKernelInput, h]
    rfl
  · rw [work, h]
  · rw [guard, h]
    exact iff_of_true rfl trivial
  · intro e
    rw [h]
    exact decide_eq_true_iff
  · intro e
    rw [h]
    rfl

/-- The requests that catch everything. -/
theorem answered_streamDecrypt_iff (h : m.cmd = .streamDecrypt) :
    Answered L F s m ↔ Answerable L F s m := by
  refine answered_iff_of_failing True (streamDecryption L s m) (fun _ => True)
    (fun e => { m.reply .streamDecryptFail with
      uuid := m.uuid
      message := some (if e.IsPoco then "Failed to decrypt stream".toList
        else "Failed to decrypt data".toList) }) ?_ ?_ ?_ requestId_streamDecryption ?_
          (fun _ => rfl) ?_
  · rw [processKernelInput, h]
    rfl
  · rw [work, h]
  · rw [guard, h]
    exact iff_of_true rfl trivial
  · intro e
    rw [h]
    exact iff_of_true rfl trivial
  · intro e
    rw [h]
    rfl

theorem answered_getUserKeys_iff (h : m.cmd = .getUserKeys) :
    Answered L F s m ↔ Answerable L F s m := by
  refine answered_iff_of_failing True ((getUserKeys L s).map fun keys =>
    { m.reply .getUserKeysResponse with message := some keys }) (fun _ => True)
    (fun e => { m.reply .getUserKeysFailed with
      message := some (if e.IsPoco then "Failed to get user keys: ".toList ++ L.messageOf e
        else "Failed to get user keys".toList) }) ?_ ?_ ?_ (requestId_map fun _ => rfl) ?_
          (fun _ => rfl) ?_
  · rw [processKernelInput, h]
    rfl
  · rw [work, h]
  · rw [guard, h]
    exact iff_of_true rfl trivial
  · intro e
    rw [h]
    exact iff_of_true rfl trivial
  · intro e
    rw [h]
    rfl

/-- A public key whose exponent is its modulus. The library reads it, and encrypts nothing with
it. -/
def oddKey : Text :=
  ("-----BEGIN PUBLIC KEY-----\n" ++
    "MDowDQYJKoZIhvcNAQEBBQADKQAwJgIRAIAAAAAAAAAAAAAAAAAAAC0CEQCAAAAA\n" ++
    "AAAAAAAAAAAAAAAt\n" ++
    "-----END PUBLIC KEY-----\n").toList

/-- Ciphers that change nothing. A text that is no public key is answered as a file that cannot be
read, and an encryption that fails as another error of the library. -/
def plainLibs : Libs (Text × Text) where
  newAesKey := .ok ⟨['k'], ['i']⟩
  cipherKey := fun key iv => .ok ⟨key, iv⟩
  createCipher := fun aesKey => .ok (aesKey.key, aesKey.iv)
  newRsaKey := .ok (['p'], ['q'])
  rsaCipher := fun p q => .ok (p, q)
  publicCipher := fun p =>
    if "-----BEGIN PUBLIC KEY-----".toList.isPrefixOf p then .ok (p, []) else .error .file
  encryptString := fun _ t => .ok t
  decryptString := fun _ t => .ok t
  encryptBase64 := fun c t => if c.1 = oddKey then .error .poco else .ok t
  decryptBase64 := fun _ t => .ok t
  encryptStream := fun _ t => .ok t
  decryptStream := fun _ t => .ok t
  base64Decode := .ok
  base64Encode := id
  parseJsonKey := fun t => .ok ⟨some t, some t, none⟩
  stringifyJsonKey := fun j => j.aesKey.getD []
  stringifyUserKeys := fun p q _ => p ++ q
  messageOf := fun _ => []

/-- Nothing goes wrong with the files. -/
def noFaults : Faults := ⟨none, none, none, none, fun _ => true, fun _ t => t, fun _ => none⟩

/-- A node with keys. -/
def keyHolder : State (Text × Text) where
  files := fun f => if f = .publicPem then some ['a'] else if f = .privatePem then some ['b']
    else if f = .userJsonKey then some ['c'] else none
  userCipher := some (['a'], ['b'])
  streamCiphers := ∅
  out := []

/-- A key is to be encrypted for another user. -/
def reencryptRequest (p : Text) : Message := ⟨7, .reencryptKey, 0, ['k'], ['i'], some p, 0⟩

-- A text that is no public key is reported.
example : (handleKernelInput plainLibs noFaults keyHolder (reencryptRequest ['x'])).map State.out =
    some [⟨7, .reencryptionFail, 0, [], [], some "Reencryption failed".toList, 0⟩] := rfl

end KeyManager

end Metax
