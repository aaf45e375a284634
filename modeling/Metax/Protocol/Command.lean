import Mathlib.Data.List.Basic

/-!
# Commands

The enumeration `command`, in the order of the source: the code of a command on the wire is its
position. A peer may send any 32-bit code, so the enumeration is closed with `unknown`, which
stands for the codes behind `max_command`.
-/

namespace Metax

/-- The enumeration `command`, and `unknown` for a code that is none of it. -/
inductive Command
  | connect | disconnect | connected | disconnected | ack | nack | bind | shutdown | data | send
  | broadcast | broadcastExcept | receivedData | create | id | prepareStreaming
  | cleanStreamRequest | get | save | auth | del | deleted | getData | saveConfirm | shareConfirm
  | saveOffer | update | updated | share | sendToPeer | saveFail | getFail | shareFail
  | sendToFail | reencryptionFail | decryptionFail | routerFail | deliverFail | updateFail
  | failed | authData | saveData | cancel | finalize | findPeer | peerFound | sendToPeerConfirm
  | removePeer | removePeerConfirm | removePeerFailed | addPeer | addPeerConfirm | getPeerList
  | getPeerListResponse | clearRequest | refuse | noPermissions | noResources | lookUp | keyPath
  | storageCfg | addInCache | writeStorageCfg | deleteFromCache | encrypt | encrypted | decrypt
  | decrypted | checkId | idFound | idNotFound | reencryptKey | reencryptedKey
  | moveCacheToStorage | moveCacheToStorageCompleted | onUpdateRegister | onUpdateRegistered
  | onUpdateRegisterFail | getPublicKey | getPublicKeyResponse | updateListenersPath | kernelCfg
  | saveStream | saveStreamOffer | livestreamContent | livestreamCancel | getLivestreamContent
  | genKeyForStream | streamEncrypt | streamDecrypt | prepareCipherForStream
  | cancelLivestreamGet | userJson | initializedKeys | acceptShare | shareAccepted
  | acceptShareFail | decryptKey | saveStreamFail | getLivestreamFail | livestreamDecrypted
  | streamAuth | streamDecryptFail | deleteFail | notifyUpdate | deviceId | getOnlinePeers
  | getOnlinePeersResponse | copy | copySucceeded | copyFailed | routerConfig | getMetaxInfo
  | getMetaxInfoResponse | journalize | backupCfg | sendJournalInfo | getJournalInfo | sendUuids
  | getUuid | delUuids | reconnectToPeers | startStorageSync | notifyDelete | onUpdateUnregister
  | onUpdateUnregistered | onUpdateUnregisterFail | syncFinished | setMetaxInfo | setMetaxInfoOk
  | setMetaxInfoFail | recordingStart | recordingStop | recordingFail | recordingStarted
  | recordingStopped | getUserKeys | getUserKeysResponse | genAesKey | getAesKey | dumpUserInfo
  | dumpUserInfoSucceeded | syncStarted | startPairing | getGeneratedCode | cancelPairing
  | getPairingPeers | getPairingPeersResponse | requestKeys | requestKeysResponse
  | regenerateUserKeys | regenerateUserKeysSucceeded | regenerateUserKeysFail | startPairingFail
  | requestKeysFail | addPeerFailed | addFriend | addFriendConfirm | addFriendFailed
  | getFriendList | getFriendListResponse | getFriend | getFriendFound | getFriendNotFound
  | noSpace | verifyPeer | peerVerified | peerNotVerified | getUserKeysFailed | keyInitFail
  | decryptWithPortions | maxCommand | unknown
  deriving DecidableEq, Repr

namespace Command

/-- The number that stands for the command on the wire. -/
def code (c : Command) : ℕ := c.ctorIdx

/-- The command a number from the wire is cast to. -/
def ofCode (n : ℕ) : Command := .ofNat n

@[simp]
theorem ofCode_code (c : Command) : ofCode c.code = c := ofNat_ctorIdx c

theorem code_lt (c : Command) : c.code < 256 := by
  cases c <;> decide

end Command

end Metax
