import Metax.UserManager.Keys

/-!
# Replacing the user json

A user json from another device comes as encrypted bytes. The user manager writes them over its
file, decrypts them, parses the text over its user json, validates it, takes the object of the
owned keys from it, and sends the text to the kernel, which parses it once more. What fails on the
way is not taken back.

So either everything is replaced, which is so exactly if the bytes can be decrypted to a valid user
json, or at least the file is lost: the node does not start from it any more
(`allOrNothing_iff`, `not_startable_of_not_acceptable`).
-/

namespace Metax

namespace UserManager

open Exit

variable {J E : Type} {L : Libs J E} {s t : State J E} {k : Option UserJson} {copy : E}
  {now : UInt64}

/-! ### The copy of the kernel -/

/-- `initialize_user_json` of the kernel. -/
def initializeUserJson (L : Libs J E) (k : Option UserJson) (json : J) : Exit (Option UserJson) :=
  orThrow (L.parse json) k fun j => assert j.Valid (done (some j))

/-- What a message of the user manager makes of the kernel's user json. -/
def receive (L : Libs J E) (k : Option UserJson) : Output J E → Option (Option UserJson)
  | .userJson json _ => (initializeUserJson L k json).state
  | _ => some k

/-! ### The law -/

/-- A user json with the members that `parse_user_json_from_string` adds. -/
def UserJson.withDefaults (j : UserJson) (now : UInt64) : UserJson :=
  { j with version := j.version.orElse 1, lastUpdated := j.lastUpdated.orElse now }

/-- All copies are those of the received json `j` with the text `json`. -/
structure Replaced (L : Libs J E) (s t : State J E) (k : Option UserJson) (copy : E)
    (now : UInt64) (json : J) (j : UserJson) : Prop where
  decrypted : ∃ cipher, s.userJsonCipher = some cipher ∧
    L.decrypt cipher.1 cipher.2 copy = some json
  parsed : L.parse json = some j
  userJson : t.userJson = some (j.withDefaults now)
  ownedData : t.ownedData = if j.ownedData.get.isSome then .ofUserJson else .null
  kernel : k = some j
  sent : ∃ uuid rest, t.out = s.out ++ .userJson json uuid :: rest
  file : t.file = some copy

/-- A node with this file, uuid and cipher can start. -/
def Startable (L : Libs J E) (s : State J E) : Prop :=
  ∃ cipher, s.userJsonCipher = some cipher ∧ ∀ now, ∃ t,
    (State.fresh s.file : State J E).initUserJson L
      ⟨some s.userJsonUuid, some cipher.1, some cipher.2, false⟩ now = done t

/-- All copies are as they were, and the node can start. -/
structure Unchanged (L : Libs J E) (s t : State J E) (k k' : Option UserJson) : Prop where
  userJson : t.userJson = s.userJson
  ownedData : t.ownedData = s.ownedData
  kernel : k' = k
  file : t.file = s.file
  startable : Startable L t

/-- **The law**: a copy that is received replaces all or nothing. `k` is what the kernel has. -/
def AllOrNothing (L : Libs J E) (s : State J E) (k : Option UserJson) (copy : E) (now : UInt64) :
    Prop :=
  ∃ t k', s.handleKernelInput L (.saveData copy) now = some t ∧
    Run.run (receive L) k (t.out.drop s.out.length) = some k' ∧
      ((∃ json j, Replaced L s t k' copy now json j) ∨ Unchanged L s t k k')

/-- **The condition**: the copy is decrypted to the text of a valid user json, and the uuid it was
asked for under can be parsed. -/
def Acceptable (L : Libs J E) (s : State J E) (copy : E) : Prop :=
  ∃ cipher json j uuid, s.userJsonCipher = some cipher ∧
    L.decrypt cipher.1 cipher.2 copy = some json ∧ L.parse json = some j ∧ j.Valid ∧
      L.parseUuid s.userJsonUuid = some uuid

/-! ### What is replaced -/

/-- A text is taken over if it is that of a valid user json. -/
theorem parseUserJsonFromString_of_valid {json : J} {j : UserJson} (hparse : L.parse json = some j)
    (hvalid : j.Valid) : s.parseUserJsonFromString L json now = done { s with
      userJson := some (j.withDefaults now)
      ownedData := if j.ownedData.get.isSome then .ofUserJson else .null } := by
  rw [State.parseUserJsonFromString, hparse]
  exact if_pos hvalid

/-- An acceptable copy replaces everything. -/
theorem Acceptable.replaced (k : Option UserJson) (now : UInt64) (h : Acceptable L s copy) :
    ∃ t k' json j, s.handleKernelInput L (.saveData copy) now = some t ∧
      Run.run (receive L) k (t.out.drop s.out.length) = some k' ∧
        Replaced L s t k' copy now json j := by
  obtain ⟨cipher, json, j, uuid, hcipher, hdecrypt, hparse, hvalid, huuid⟩ := h
  have hdone : s.parseRecievedUserJson L copy now = done { s with
      file := some copy
      userJson := some (j.withDefaults now)
      ownedData := if j.ownedData.get.isSome then .ofUserJson else .null
      out := s.out ++ [.userJson json uuid] ++ [.onUpdateRegister uuid] } := by
    rw [State.parseRecievedUserJson, assert_of_pos (by rw [hcipher]; rfl)]
    simp only [hcipher, orThrow, hdecrypt, parseUserJsonFromString_of_valid hparse hvalid,
      done_andThen, State.sendUserJsonToKernel, State.registerOnUpdate, State.send, huuid]
  refine ⟨_, some j, json, j, by rw [State.handleKernelInput, State.processKernelInput, hdone]; rfl,
    ?_, ?_⟩
  · have hreceive : initializeUserJson L k json = done (some j) := by
      rw [initializeUserJson, hparse]
      exact assert_of_pos hvalid
    simp only [List.append_assoc, List.drop_left, List.cons_append, List.nil_append, Run.run_cons,
      receive, hreceive, Exit.state, Option.bind_some, Run.run_nil]
  · exact ⟨⟨cipher, hcipher, hdecrypt⟩, hparse, rfl, rfl, rfl,
      ⟨uuid, [.onUpdateRegister uuid], List.append_assoc _ _ _⟩, rfl⟩

/-! ### What is lost -/

/-- The file is a received copy, and nothing is sent unless it is acceptable. -/
structure Overwritten (L : Libs J E) (s : State J E) (copy : E) (t : State J E) : Prop where
  file : t.file = some copy
  cipher : t.userJsonCipher = s.userJsonCipher
  uuid : t.userJsonUuid = s.userJsonUuid
  quiet : t.out = s.out ∨ Acceptable L s copy

theorem overwritten_saveData (ht : s.handleKernelInput L (.saveData copy) now = some t) :
    Overwritten L s copy t := by
  suffices hends : (s.parseRecievedUserJson L copy now).Ends (Overwritten L s copy)
      (Overwritten L s copy) from hends.of_state ht
  rw [State.parseRecievedUserJson, ends_assert]
  intro _
  refine ends_orThrow ⟨rfl, rfl, rfl, .inl rfl⟩ fun cipher hcipher => ?_
  refine ends_orThrow ⟨rfl, rfl, rfl, .inl rfl⟩ fun json hjson => ?_
  rw [ends_andThen, State.parseUserJsonFromString]
  refine ends_orThrow ⟨rfl, rfl, rfl, .inl rfl⟩ fun j hj => ?_
  rw [ends_ite]
  constructor
  · intro hvalid
    rw [ends_done, ends_andThen]
    refine ends_orThrow ⟨rfl, rfl, rfl, .inl rfl⟩ fun uuid huuid => ?_
    -- from here on the copy has been accepted
    have haccept : Acceptable L s copy :=
      ⟨cipher, json, j, uuid, hcipher, hjson, hj, hvalid, huuid⟩
    rw [ends_done]
    exact ends_orThrow ⟨rfl, rfl, rfl, .inr haccept⟩ fun _ _ => ⟨rfl, rfl, rfl, .inr haccept⟩
  · exact fun _ => ⟨rfl, rfl, rfl, .inl rfl⟩

/-- A file that is read at the start is acceptable. -/
theorem ends_processUserJsonGet (copy : E) (hfile : s.file = some copy) :
    (s.processUserJsonGet L now).Ends (fun _ => Acceptable L s copy) fun _ => True := by
  rw [State.processUserJsonGet, hfile]
  dsimp only
  rw [ends_assert]
  intro _
  refine ends_orThrow trivial fun cipher hcipher => ?_
  refine ends_orThrow trivial fun json hjson => ?_
  rw [ends_andThen, State.parseUserJsonFromString]
  refine ends_orThrow trivial fun j hj => ?_
  rw [ends_ite]
  constructor
  · intro hvalid
    rw [ends_done]
    exact ends_orThrow trivial fun uuid huuid =>
      ⟨cipher, json, j, uuid, hcipher, hjson, hj, hvalid, huuid⟩
  · exact fun _ => trivial

/-- What a node can start from is acceptable. -/
theorem Startable.acceptable (h : Startable L s) (hfile : s.file = some copy) :
    Acceptable L s copy := by
  obtain ⟨cipher, hcipher, hstart⟩ := h
  obtain ⟨t, ht⟩ := hstart 0
  suffices hends : ((State.fresh s.file : State J E).initUserJson L
      ⟨some s.userJsonUuid, some cipher.1, some cipher.2, false⟩ 0).Ends
        (fun _ => Acceptable L s copy) fun _ => True by
    rwa [ht] at hends
  rw [State.initUserJson, ends_andThen, State.createCipher, ends_ite]
  constructor
  · intro _
    rw [ends_done, ends_assert]
    intro _
    dsimp only
    rw [if_neg Bool.false_ne_true]
    refine Ends.mono (ends_processUserJsonGet copy ?_) ?_ fun _ h => h
    · exact hfile
    · rintro - ⟨cipher', json, j, uuid, hcipher', hrest⟩
      obtain rfl : cipher = cipher' := Option.some.inj hcipher'
      exact ⟨cipher, json, j, uuid, hcipher, hrest⟩
  · exact fun _ => trivial

theorem Overwritten.not_startable (h : Overwritten L s copy t) (hnot : ¬ Acceptable L s copy) :
    ¬ Startable L t := by
  intro hstart
  have haccept := hstart.acceptable h.file
  rw [Acceptable, h.cipher, h.uuid] at haccept
  exact hnot haccept

/-- **After a copy that is not acceptable the node does not start any more.** -/
theorem not_startable_of_not_acceptable (hnot : ¬ Acceptable L s copy)
    (ht : s.handleKernelInput L (.saveData copy) now = some t) : ¬ Startable L t :=
  (overwritten_saveData ht).not_startable hnot

/-- **Exactly when** a received copy replaces all or nothing. -/
theorem allOrNothing_iff (L : Libs J E) (s : State J E) (k : Option UserJson) (copy : E)
    (now : UInt64) : AllOrNothing L s k copy now ↔ Acceptable L s copy := by
  constructor
  · rintro ⟨t, k', ht, -, ⟨json, j, hreplaced⟩ | hunchanged⟩
    · by_contra hnot
      have hover := overwritten_saveData ht
      obtain ⟨uuid, rest, hsent⟩ := hreplaced.sent
      have hquiet : t.out = s.out := hover.quiet.resolve_right hnot
      rw [hquiet] at hsent
      exact List.cons_ne_nil _ _ (List.self_eq_append_right.mp hsent)
    · by_contra hnot
      exact not_startable_of_not_acceptable hnot ht hunchanged.startable
  · intro h
    obtain ⟨t, k', json, j, ht, hk, hreplaced⟩ := h.replaced k now
    exact ⟨t, k', ht, hk, .inl ⟨json, j, hreplaced⟩⟩

/-- **Bytes that are encrypted with another key** are in the file afterwards. -/
theorem not_allOrNothing : ¬ ∀ (J E : Type) (L : Libs J E) (s : State J E) (k : Option UserJson)
    (copy : E) (now : UInt64), AllOrNothing L s k copy now := by
  intro h
  have haccept := (allOrNothing_iff _ _ _ _ _).mp (h _ _ History.transparentLibs History.started
    (some ⟨.is 1, .is 1, .is ∅, .is 1⟩) (['x'], ['i'], ⟨.is 1, .is 2, .is ∅, .is 5⟩) 7)
  obtain ⟨cipher, json, j, uuid, hcipher, hdecrypt, -⟩ := haccept
  have hstarted : History.started.userJsonCipher = some (['k'], ['i']) := rfl
  obtain rfl : (['k'], ['i']) = cipher := Option.some.inj (hstarted.symm.trans hcipher)
  cases hdecrypt

end UserManager

end Metax
