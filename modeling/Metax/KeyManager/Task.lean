import Metax.KeyManager.Data
import Metax.KeyManager.Portions

/-!
# The key manager

The handlers of `key_manager.cpp`. A handler of the kernel's packages asserts something, works out a
reply, turns some of the exceptions on the way into a reply that tells of the failure, and sends the
reply. It differs from handler to handler what is asserted outside the `try` block and which
exceptions it catches. What a handler does not catch is logged, except for a failed assertion, which
ends the node.

Temporary files are always removed without an error.
-/

namespace Metax

namespace KeyManager

open Attempt Text

variable {C : Type} (L : Libs C) (F : Faults) (s : State C) (m : Message)

/-- `poco_assert` in a computation. -/
def require (c : Prop) [Decidable c] : Except Exception Unit :=
  if c then .ok () else .error .assertion

/-- The shape of a handler. -/
def answer (c : Prop) [Decidable c] (work : Attempt Exception (State C) Message)
    (caught : Exception → Option (Attempt Exception (State C) Message)) :
    Attempt Exception (State C) Unit := do
  ensure .assertion c
  let r ← work.catching caught
  change (·.send r)

/-- A handler without a `try` block. -/
def uncaught (_ : Exception) : Option (Attempt Exception (State C) Message) := none

/-- The exceptions of a class are answered. -/
def failing (p : Exception → Prop) [DecidablePred p] (r : Exception → Message) (e : Exception) :
    Option (Attempt Exception (State C) Message) :=
  if p e then some (pure (r e)) else none

/-- `get_aes_key`. -/
def getAesKey (aesKey aesIv : Text) : Except Exception AesKey := do
  let key ← L.base64Decode aesKey
  let iv ← L.base64Decode aesIv
  L.cipherKey key iv

/-! ### Encrypting -/

/-- `encrypt_data`. -/
def encryptData (c : C) : Except Exception Text := L.encryptString c m.data

/-- `encrypt_data_with_new_aes_key`. -/
def encryptDataWithNewAesKey : Except Exception Message := do
  let aesKey ← L.newAesKey
  let c ← L.createCipher aesKey
  let encData ← encryptData L m c
  pure { m.reply .encrypted with
    message := some encData
    aesIv := L.base64Encode aesKey.iv
    aesKey := L.base64Encode aesKey.key }

/-- What `handle_kernel_encrypt_request` works out. The size is asserted with a given key only. -/
def encryption : Except Exception Message :=
  if m.aesKey = [] ∧ m.aesIv = [] then encryptDataWithNewAesKey L m
  else do
    let aesKey ← getAesKey L m.aesKey m.aesIv
    require (m.size ≠ 0)
    let c ← L.createCipher aesKey
    let encData ← encryptData L m c
    pure { m.reply .encrypted with message := some encData }

/-- `handle_kernel_encrypt_request`. -/
def handleKernelEncryptRequest : Attempt Exception (State C) Unit :=
  answer True (lift (encryption L m)) uncaught

/-- What `handle_kernel_stream_encrypt` works out. -/
def streamEncryption : Except Exception Message := do
  require (m.size ≠ 0)
  let c ← (s.streamCiphers.lookup m.uuid).elim (.error .assertion) .ok
  let encData ← encryptData L m c
  pure { m.reply .encrypted with message := some encData, origSize := m.size }

/-- `handle_kernel_stream_encrypt`. -/
def handleKernelStreamEncrypt : Attempt Exception (State C) Unit :=
  answer True (lift (streamEncryption L s m)) uncaught

/-- `encrypt_with_public_key`. -/
def encryptWithPublicKey (p str : Text) : Except Exception Text := do
  let c ← L.publicCipher p
  L.encryptBase64 c str

/-- What `handle_kernel_reencrypt_key_request` works out. A string of a null pointer throws what is
no exception of Poco. -/
def reencryption : Except Exception Message := do
  require (m.aesKey ≠ [] ∧ m.aesIv ≠ [])
  let pb ← m.message.elim (.error .other) fun p => .ok (cString p)
  let iv ← L.base64Decode m.aesIv
  let aesIv ← encryptWithPublicKey L pb iv
  let key ← L.base64Decode m.aesKey
  let aesKey ← encryptWithPublicKey L pb key
  pure { m.reply .reencryptedKey with aesIv := aesIv, aesKey := aesKey }

/-- `handle_kernel_reencrypt_key_request`. -/
def handleKernelReencryptKeyRequest : Attempt Exception (State C) Unit :=
  answer True (lift (reencryption L m)) <| failing (· = .file) fun _ =>
    { m.reply .reencryptionFail with message := some "Reencryption failed".toList }

/-! ### Decrypting -/

/-- What the handlers work out that decrypt data. -/
def decryption (dec : C → Text → Except Exception Text) : Except Exception Message := do
  require (m.aesKey ≠ [] ∧ m.aesIv ≠ [])
  let skey ← getAesKey L m.aesKey m.aesIv
  let c ← L.createCipher skey
  let decData ← dec c m.data
  pure { m.reply .decrypted with message := some decData }

/-- `handle_kernel_decrypt_request`. -/
def handleKernelDecryptRequest : Attempt Exception (State C) Unit :=
  answer s.userCipher.isSome (lift (decryption L m L.decryptString)) <|
    failing Exception.IsPoco fun _ =>
      { m.reply .decryptionFail with message := some "Failed to decrypt data.".toList }

/-- `decrypt_portion_data`. -/
def decryptPortionData {α : Type} (dec : List α → Except Exception (List α)) (msg : List α) :
    Except Exception (List α) := do
  let i := msg.length / portionSize
  let decData ← (List.range i).foldlM (fun decData i => do
    let data ← dec ((msg.drop (i * portionSize)).take portionSize)
    pure (decData ++ data)) []
  if i * portionSize < msg.length then do
    let data ← dec (msg.drop (i * portionSize))
    pure (decData ++ data)
  else pure decData

/-- The class of an exception apart, the portions are decrypted as for a cipher that may fail. -/
theorem toOption_decryptPortionData (cipher : Cipher) (dec : Bytes → Except Exception Bytes)
    (h : ∀ x, (dec x).toOption = cipher.decryptString x) (msg : Bytes) :
    (decryptPortionData dec msg).toOption = cipher.decryptPortionData msg := by
  have hstep : ∀ (decData : Bytes) (i : ℕ),
      (do
        let data ← dec ((msg.drop (i * portionSize)).take portionSize)
        pure (decData ++ data) : Except Exception Bytes).toOption =
      (cipher.decryptString ((msg.drop (i * portionSize)).take portionSize)).map
        (decData ++ ·) := by
    intro decData i
    rw [Except.toOption_bind, h, Option.map_eq_bind]
    rfl
  rw [decryptPortionData, Cipher.decryptPortionData, Except.toOption_bind,
    Except.toOption_foldlM hstep]
  cases (List.range (msg.length / portionSize)).foldlM (fun decData i =>
      (cipher.decryptString ((msg.drop (i * portionSize)).take portionSize)).map (decData ++ ·)) []
    with
  | none =>
    split_ifs <;> rfl
  | some decData =>
    dsimp only [Option.bind_some]
    split_ifs
    · rw [Except.toOption_bind, h, Option.map_eq_bind]
      rfl
    · rfl

/-- `handle_kernel_decrypt_with_portions_request`. -/
def handleKernelDecryptWithPortionsRequest : Attempt Exception (State C) Unit :=
  answer s.userCipher.isSome
    (lift (decryption L m fun c => decryptPortionData (L.decryptString c))) <|
      failing Exception.IsPoco fun _ =>
        { m.reply .decryptionFail with message := some "Failed to decrypt data.".toList }

/-- What `handle_kernel_decrypt_key` works out. -/
def keyDecryption : Except Exception Message := do
  require (m.aesKey ≠ [] ∧ m.aesIv ≠ [])
  let c ← s.userCipher.elim (.error .assertion) .ok
  let k ← L.decryptBase64 c m.aesKey
  let i ← L.decryptBase64 c m.aesIv
  pure { m.reply .decrypted with aesKey := L.base64Encode k, aesIv := L.base64Encode i }

/-- `handle_kernel_decrypt_key`. -/
def handleKernelDecryptKey : Attempt Exception (State C) Unit :=
  answer s.userCipher.isSome (lift (keyDecryption L s m)) <|
    failing Exception.IsPoco fun _ =>
      { m.reply .decryptionFail with message := some "Failed to decrypt key.".toList }

/-- `decrypt_stream`. -/
def streamDecryption : Except Exception Message := do
  let c ← (s.streamCiphers.lookup m.uuid).elim (.error .poco) .ok
  let decData ← L.decryptString c m.data
  pure { m.reply .livestreamDecrypted with message := some decData, uuid := m.uuid }

/-- `handle_kernel_stream_decrypt`. -/
def handleKernelStreamDecrypt : Attempt Exception (State C) Unit :=
  answer True (lift (streamDecryption L s m)) <| failing (fun _ => True) fun e =>
    { m.reply .streamDecryptFail with
      uuid := m.uuid
      message := some (if e.IsPoco then "Failed to decrypt stream".toList
        else "Failed to decrypt data".toList) }

/-! ### Keys -/

/-- `handle_kernel_generate_aes_key`. -/
def handleKernelGenerateAesKey : Attempt Exception (State C) Unit :=
  answer True (lift (L.newAesKey.map fun aesKey => { m.reply .getAesKey with
    aesIv := L.base64Encode aesKey.iv
    aesKey := L.base64Encode aesKey.key })) uncaught

/-- `handle_kernel_gen_key_for_stream`. -/
def handleKernelGenKeyForStream : Attempt Exception (State C) Unit :=
  answer (m.aesKey = [] ∧ m.aesIv = []) (do
    let aesKey ← lift L.newAesKey
    let c ← lift (L.createCipher aesKey)
    change fun s => { s with streamCiphers := s.streamCiphers.insert m.uuid c }
    pure { m.reply .encrypted with
      aesIv := L.base64Encode aesKey.iv
      aesKey := L.base64Encode aesKey.key }) uncaught

/-- `handle_kernel_prepare_cipher_for_stream`, which sends nothing. -/
def handleKernelPrepareCipherForStream : Attempt Exception (State C) Unit := do
  ensure .assertion (m.aesKey ≠ [] ∧ m.aesIv ≠ [])
  let aesKey ← lift (getAesKey L m.aesKey m.aesIv)
  let c ← lift (L.createCipher aesKey)
  change fun s => { s with streamCiphers := s.streamCiphers.insert m.uuid c }

/-- `trim`. -/
def trim (t : Text) : Text := ((t.dropWhile isSpace).reverse.dropWhile isSpace).reverse

/-- What `handle_kernel_check_id_request` works out. A file that is not there reads as empty. -/
def idCheck : Except Exception Message := do
  let c := trim ((s.files .publicPem).getD [])
  require m.message.isSome
  pure { m with cmd := if c = cString m.data then .idFound else .idNotFound }

/-- `handle_kernel_check_id_request`. -/
def handleKernelCheckIdRequest : Attempt Exception (State C) Unit :=
  answer True (lift (idCheck s m)) uncaught

/-- `decrypt_user_json_info`. -/
def decryptUserJsonInfo : Except Exception JsonKey := do
  let c ← s.userCipher.elim (.error .assertion) .ok
  let info ← (s.files .userJsonKey).elim (.error .file) .ok
  let text ← L.decryptStream c info
  L.parseJsonKey text

/-- `get_user_keys`. -/
def getUserKeys : Except Exception Text := do
  let pb := (s.files .publicPem).getD []
  let pr := (s.files .privatePem).getD []
  let ujk ← decryptUserJsonInfo L s
  if pb = [] ∨ pr = [] then .error .poco else pure (L.stringifyUserKeys pb pr ujk)

/-- `handle_kernel_get_user_keys`. -/
def handleKernelGetUserKeys : Attempt Exception (State C) Unit :=
  answer True (lift ((getUserKeys L s).map fun keys =>
    { m.reply .getUserKeysResponse with message := some keys })) <|
      failing (fun _ => True) fun e => { m.reply .getUserKeysFailed with
        message := some (if e.IsPoco then "Failed to get user keys: ".toList ++ L.messageOf e
          else "Failed to get user keys".toList) }

/-! ### New keys -/

/-- A new RSA key is generated and saved. -/
def saveNewUserKey (pub priv : File) : Attempt Exception (State C) Unit := do
  let rsa ← lift L.newRsaKey
  raise F.saveKeys
  change fun s => (s.put pub (some rsa.1)).put priv (some rsa.2)

/-- `create_user_key`. Without `check` a key is generated only if there is none. -/
def createUserKey (pub priv : File) (check : Bool) : Attempt Exception (State C) Unit := do
  raise F.createDirectories
  let s ← read id
  onlyIf (check ∨ s.files priv = none) (saveNewUserKey L F pub priv)
  let s ← read id
  let p ← lift ((s.files pub).elim (.error .file) .ok)
  let q ← lift ((s.files priv).elim (.error .file) .ok)
  let c ← lift (L.rsaCipher p q)
  change fun s => { s with userCipher := some c }

/-- `generate_new_user_json_key`. -/
def generateNewUserJsonKey : Except Exception JsonKey :=
  L.newAesKey.map fun aesKey =>
    ⟨some (L.base64Encode aesKey.key), some (L.base64Encode aesKey.iv), none⟩

/-- `encrypt_user_json_info_with_user_key`. The file is cut before anything is encrypted. -/
def encryptUserJsonInfoWithUserKey (obj : JsonKey) (f : File) :
    Attempt Exception (State C) Unit := do
  raise F.createParent
  raise F.openSink
  change fun s => s.put f (some [])
  let s ← read id
  let c ← lift (s.userCipher.elim (.error .poco) .ok)
  let info ← lift (L.encryptStream c (L.stringifyJsonKey obj))
  change fun s => s.put f (some (F.written f info))

/-- `Poco::File::moveTo`, which copies and removes. -/
def moveTo (src dst : File) : Attempt Exception (State C) Unit := do
  match F.moveTo src with
  | some fault => do
    change fun s => s.put dst fault.left
    raise (some fault.exception)
  | none => change fun s => (s.put dst (s.files src)).put src none

/-- `remove_tmp_files`. -/
def removeTmpFiles : Attempt Exception (State C) Unit :=
  change fun s => ((s.put .publicTmp none).put .privateTmp none).put .userJsonKeyTmp none

/-- `getValue<std::string>`. -/
def getValue (x : Option Text) : Except Exception Text := x.elim (.error .poco) .ok

/-- What `handle_kernel_regenerate_user_keys` tries to do. -/
def regenerateUserKeys : Attempt Exception (State C) Message := do
  createUserKey L F .publicTmp .privateTmp true
  let obj ← lift (generateNewUserJsonKey L)
  let obj := { obj with uuid := some (cString m.data) }
  encryptUserJsonInfoWithUserKey L F obj .userJsonKeyTmp
  moveTo F .publicTmp .publicPem
  moveTo F .privateTmp .privatePem
  moveTo F .userJsonKeyTmp .userJsonKey
  let aesKey ← lift (getValue obj.aesKey)
  let aesIv ← lift (getValue obj.aesIv)
  pure { m.reply .regenerateUserKeysSucceeded with aesKey := aesKey, aesIv := aesIv }

/-- What is done when that fails. -/
def regenerationFailed (e : Exception) : Option (Attempt Exception (State C) Message) := some do
  removeTmpFiles
  pure { m.reply .failed with message := if e.IsPoco then some (L.messageOf e) else none }

/-- `handle_kernel_regenerate_user_keys`. -/
def handleKernelRegenerateUserKeys : Attempt Exception (State C) Unit :=
  answer m.message.isSome (regenerateUserKeys L F m) (regenerationFailed L m)

/-! ### Packages of the kernel -/

/-- `process_kernel_input`. -/
def processKernelInput : Attempt Exception (State C) Unit :=
  match m.cmd with
  | .encrypt => handleKernelEncryptRequest L m
  | .decrypt => handleKernelDecryptRequest L s m
  | .decryptWithPortions => handleKernelDecryptWithPortionsRequest L s m
  | .checkId => handleKernelCheckIdRequest s m
  | .reencryptKey => handleKernelReencryptKeyRequest L m
  | .genKeyForStream => handleKernelGenKeyForStream L m
  | .prepareCipherForStream => handleKernelPrepareCipherForStream L m
  | .streamEncrypt => handleKernelStreamEncrypt L s m
  | .streamDecrypt => handleKernelStreamDecrypt L s m
  | .decryptKey => handleKernelDecryptKey L s m
  | .genAesKey => handleKernelGenerateAesKey L m
  | .regenerateUserKeys => handleKernelRegenerateUserKeys L F m
  | .getUserKeys => handleKernelGetUserKeys L s m
  | _ => pure ()

/-- `handle_kernel_input`. -/
def handleKernelInput : Option (State C) :=
  match processKernelInput L F s m s with
  | (.ok _, t) => some t
  | (.error e, t) => if e = .assertion then none else some t

/-! ### Keys of a paired node -/

/-- `write_in_file`. Whether everything was written is not looked at. -/
def writeInFile (k : Text) (tmp dst : File) : Attempt Exception (State C) Unit := do
  onlyIf (F.opens tmp) (change fun s => s.put tmp (some []))
  raise (if k = [] ∨ F.opens tmp = false then some .poco else none)
  change fun s => s.put tmp (some (F.written tmp k))
  moveTo F tmp dst

/-- `overwrite_user_keys`. -/
def overwriteUserKeys (l : LinkMessage) : Attempt Exception (State C) Unit := do
  writeInFile F l.publicKey .publicPemTmp .publicPem
  writeInFile F l.privateKey .privatePemTmp .privatePem
  writeInFile F l.userJsonInfo .userJsonKeyTmp .userJsonKey
  let s ← read id
  let p ← lift ((s.files .publicPem).elim (.error .file) .ok)
  let q ← lift ((s.files .privatePem).elim (.error .file) .ok)
  let c ← lift (L.rsaCipher p q)
  change fun s => { s with userCipher := some c }

/-- What `handle_link_request_keys_respons` tries to do. -/
def takeOverUserKeys (l : LinkMessage) : Attempt Exception (State C) Message := do
  overwriteUserKeys L F l
  let s ← read id
  let o ← lift (decryptUserJsonInfo L s)
  let aesKey ← lift (getValue o.aesKey)
  let aesIv ← lift (getValue o.aesIv)
  pure ⟨l.requestId, .requestKeysResponse, 0, aesKey, aesIv, none, 0⟩

/-- `handle_link_request_keys_respons`. -/
def handleLinkRequestKeysRespons (l : LinkMessage) : Attempt Exception (State C) Unit :=
  answer True (takeOverUserKeys L F l) <| failing Exception.IsPoco fun e =>
    ⟨l.requestId, .requestKeysFail, 0, [], [], some (L.messageOf e), 0⟩

/-- `handle_link_input`. Every exception ends the node. -/
def handleLinkInput (l : LinkMessage) : Option (State C) :=
  match handleLinkRequestKeysRespons L F l s with
  | (.ok _, t) => some t
  | (.error _, _) => none

end KeyManager

end Metax
