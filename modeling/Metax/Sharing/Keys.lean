import Metax.Sharing.Tracking

/-!
# A shared key is the key of the object

Nodes share objects with each other and share on what was shared with them, in any order. Whatever
key a node has for an object, somebody has written the object with it (`written_of_owned`), and what
the IMS is given for another user is that key, encrypted for the public key it has named, unless the
object is not encrypted (`confirmed_for`).

Users are taken to accept what a node has made for them. Of the cryptographic library it is assumed
that base64 and a cipher are undone by the other direction; `Sealed` is what an encryption may
yield, which need not be the same each time.
-/

namespace Metax

namespace Sharing

open KeyManager (Libs encryptWithPublicKey reencryption keyDecryption)
open Text (cString)

variable {ι C : Type} [DecidableEq ι]

/-- What encryption is for. `encode` is base64, and `Sealed` the texts that a public key makes of a
text. -/
structure Cryptography where
  encode : Text → Text
  Sealed : Text → Text → Text → Prop

namespace Cryptography

variable (K : Cryptography)

/-- The library does what it is for, at a node with this public key. -/
structure Lawful (L : Libs C) (t : KeyManager.State C) (pub : Text) : Prop where
  encode : L.base64Encode = K.encode
  decode : ∀ x, L.base64Decode (K.encode x) = .ok x
  encrypts : ∀ p x y, encryptWithPublicKey L p x = .ok y → K.Sealed p x y
  decrypts : ∀ c x y x', t.userCipher = some c → K.Sealed pub x y → L.decryptBase64 c y = .ok x' →
    x' = x

/-- The key an object is written with: none, or one in base64. -/
def Proper (key iv : Text) : Prop :=
  key = [] ∧ iv = [] ∨ ∃ x y, key = K.encode x ∧ iv = K.encode y

/-- What is given for a public key: nothing if the object has no key, else the key and the
initialization vector, both encrypted. -/
def Given (written : List (UUID × Text × Text)) (pub : Option Text) (u : UUID) (key iv : Text) :
    Prop :=
  key = [] ∧ iv = [] ∧ (u, [], []) ∈ written ∨
    (key ≠ [] ∧ iv ≠ []) ∧ ∃ p x y, pub = some p ∧ K.Sealed p x key ∧ K.Sealed p y iv ∧
      (u, K.encode x, K.encode y) ∈ written

/-- What is known of keys when objects were written with these. -/
def flow (written : List (UUID × Text × Text)) (pub : Text) : Flow where
  made u key iv := (u, key, iv) ∈ written ∧ K.Proper key iv
  given message := K.Given written (message.map cString)
  mine := K.Given written (some pub)
  total := False

end Cryptography

/-! ### The network -/

/-- The nodes, and the keys objects were written with. -/
structure Net (ι C : Type) where
  nodes : ι → Node C
  written : List (UUID × Text × Text)

/-- The key that is written. -/
def Event.written : Event C → List (UUID × Text × Text)
  | .saved u o => [(u, o.aesKey, o.aesIv)]
  | _ => []

/-- **A step** of a node of the network. -/
def Net.step (s : Net ι C) (e : ι × Event C) : Option (Net ι C) :=
  ((s.nodes e.1).step e.2).map fun n =>
    ⟨Function.update s.nodes e.1 n, e.2.written ++ s.written⟩

/-- A node has made this for the public key: all share requests it can be the answer to name it. -/
def MadeFor (s : Net ι C) (pub : Text) (p : ImsPackage) : Prop :=
  ∃ j, ∃ c ∈ (s.nodes j).kernel.toIms, c.cmd = .shareConfirm ∧ c.uuid = p.uuid ∧
    c.aesKey = p.aesKey ∧ c.aesIv = p.aesIv ∧ ∀ q ∈ (s.nodes j).kernel.asked,
      q.cmd = .share → q.requestId = c.requestId → q.message.map cString = some pub

/-- What users and libraries keep to. -/
def Honest (K : Cryptography) (pub : ι → Text) (s : Net ι C) : ι × Event C → Prop
  | (i, .ims p) => p.cmd = .acceptShare → MadeFor s (pub i) p
  | (i, .keyManager L _) => K.Lawful L (s.nodes i).keyManager (pub i)
  | (_, .saved _ o) => K.Proper o.aesKey o.aesIv
  | _ => True

/-! ### Keys are kept -/

section Flow

variable {K : Cryptography} {w w' : List (UUID × Text × Text)} {pub : Text} {p : Option Text}
  {u : UUID} {key iv : Text} {L : Libs C} {t : KeyManager.State C}

/-- What was given for some writes is given for more. -/
theorem Cryptography.Given.mono (h : K.Given w p u key iv) (hw : w ⊆ w') :
    K.Given w' p u key iv := by
  obtain ⟨hkey, hiv, hmem⟩ | ⟨hne, q, x, y, hp, hx, hy, hmem⟩ := h
  · exact .inl ⟨hkey, hiv, hw hmem⟩
  · exact .inr ⟨hne, q, x, y, hp, hx, hy, hw hmem⟩

theorem Cryptography.given_nil (h : K.Given w p u [] []) : (u, [], []) ∈ w := by
  obtain ⟨-, -, hmem⟩ | ⟨hne, -⟩ := h
  · exact hmem
  · exact absurd rfl hne.1

theorem Cryptography.open_flow : (K.flow w pub).Open :=
  ⟨fun _ _ hmade => .inl ⟨rfl, rfl, hmade.1⟩,
    fun _ hmine => ⟨K.given_nil hmine, .inl ⟨rfl, rfl⟩⟩⟩

/-- An assertion of the key manager that holds. -/
theorem of_require {q : Prop} [Decidable q] {a : Unit} (h : KeyManager.require q = .ok a) : q := by
  by_contra hq
  cases (if_neg hq).symm.trans h

/-- What a key manager makes of a key for a public key is given for it. -/
theorem Cryptography.given_of_reencryption (hK : K.Lawful L t pub) {m x : KeyManager.Message}
    (hx : reencryption L m = .ok x) (hmem : (u, m.aesKey, m.aesIv) ∈ w)
    (hproper : K.Proper m.aesKey m.aesIv) (hne : x.aesKey ≠ [] ∧ x.aesIv ≠ []) :
    K.Given w (m.message.map cString) u x.aesKey x.aesIv := by
  obtain ⟨a, hrequire, hx⟩ := Except.exists_of_bind_eq_ok hx
  obtain ⟨pb, hpb, hx⟩ := Except.exists_of_bind_eq_ok hx
  obtain ⟨iv, hiv, hx⟩ := Except.exists_of_bind_eq_ok hx
  obtain ⟨aesIv, haesIv, hx⟩ := Except.exists_of_bind_eq_ok hx
  obtain ⟨key, hkey, hx⟩ := Except.exists_of_bind_eq_ok hx
  obtain ⟨aesKey, haesKey, hx⟩ := Except.exists_of_bind_eq_ok hx
  obtain rfl := Except.ok.inj hx
  have hmessage : m.message.map cString = some pb := by
    cases hm : m.message with
    | none =>
      rw [hm] at hpb
      cases hpb
    | some text =>
      rw [hm] at hpb
      exact congrArg some (Except.ok.inj hpb)
  obtain ⟨hk, hi⟩ | ⟨a, b, ha, hb⟩ := hproper
  · exact absurd hk (of_require hrequire).1
  · rw [ha, hK.decode] at hkey
    rw [hb, hK.decode] at hiv
    obtain rfl := Except.ok.inj hkey
    obtain rfl := Except.ok.inj hiv
    rw [ha, hb] at hmem
    exact .inr ⟨hne, pb, a, b, hmessage, hK.encrypts _ _ _ haesKey, hK.encrypts _ _ _ haesIv, hmem⟩

/-- What was given for the public key of a node is decrypted to a key of the object. -/
theorem Cryptography.made_of_keyDecryption (hK : K.Lawful L t pub) {m x : KeyManager.Message}
    (hx : keyDecryption L t m = .ok x) (hgiven : K.Given w (some pub) u m.aesKey m.aesIv) :
    (u, x.aesKey, x.aesIv) ∈ w ∧ K.Proper x.aesKey x.aesIv := by
  obtain ⟨a, hrequire, hx⟩ := Except.exists_of_bind_eq_ok hx
  obtain ⟨c, hc, hx⟩ := Except.exists_of_bind_eq_ok hx
  obtain ⟨k, hk, hx⟩ := Except.exists_of_bind_eq_ok hx
  obtain ⟨i, hi, hx⟩ := Except.exists_of_bind_eq_ok hx
  obtain rfl := Except.ok.inj hx
  have hcipher : t.userCipher = some c := by
    cases ht : t.userCipher with
    | none =>
      rw [ht] at hc
      cases hc
    | some c' =>
      rw [ht] at hc
      exact congrArg some (Except.ok.inj hc)
  obtain ⟨hkey, -⟩ | ⟨-, p, a, b, hp, ha, hb, hmem⟩ := hgiven
  · exact absurd hkey (of_require hrequire).1
  · obtain rfl := Option.some.inj hp
    obtain rfl := hK.decrypts c a m.aesKey k hcipher ha hk
    obtain rfl := hK.decrypts c b m.aesIv i hcipher hb hi
    dsimp only
    rw [hK.encode]
    exact ⟨hmem, .inr ⟨k, i, rfl, rfl⟩⟩

/-- **The key manager follows the flow** that the cryptography allows. -/
theorem Cryptography.sound_flow (hK : K.Lawful L t pub) : (K.flow w pub).Sound L t :=
  ⟨fun _ _ _ hx hmade hne => K.given_of_reencryption hK hx hmade.1 hmade.2 hne,
    fun _ _ _ hx hmine => K.made_of_keyDecryption hK hx hmine⟩

end Flow

/-! ### The network keeps its keys -/

variable {K : Cryptography} {pub : ι → Text} {s s' : Net ι C} {e : ι × Event C}

/-- A flow that says less. -/
theorem Tracked.weaken {f g : Flow} {n : Node C} (h : Tracked f n)
    (hmade : ∀ u key iv, f.made u key iv → g.made u key iv)
    (hgiven : ∀ message u key iv, f.given message u key iv → g.given message u key iv)
    (hmine : ∀ u key iv, f.mine u key iv → g.mine u key iv) (htotal : g.total → f.total) :
    Tracked g n := by
  refine ⟨h.balance, h.nodup, fun m hm => ?_, fun m hm => ?_,
    fun u o ho => hmade u _ _ (h.owned u o ho), fun c hc hcmd => ?_,
    fun hall => h.underway (htotal hall)⟩
  · refine (h.orders m hm).of_lookup rfl rfl fun r ims horder => ?_
    cases horder with
    | share hr hcmd hkey hasked => exact .share hr hcmd (hmade _ _ _ hkey) hasked
    | accept hr hcmd hkey => exact .accept hr hcmd (hmine _ _ _ hkey)
  · refine (h.replies m hm).of_lookup rfl rfl fun r ims hreply => ?_
    cases hreply with
    | reencrypted hr hcmd hkey hasked =>
      exact .reencrypted hr hcmd (fun hne => hgiven _ _ _ _ (hkey hne)) hasked
    | notReencrypted hr hcmd => exact .notReencrypted hr hcmd
    | decrypted hr hcmd hkey => exact .decrypted hr hcmd (hmade _ _ _ hkey)
    | notDecrypted hr hcmd => exact .notDecrypted hr hcmd
  · obtain ⟨message, hasked, hkey⟩ := h.confirms c hc hcmd
    exact ⟨message, hasked, hgiven _ _ _ _ hkey⟩

/-- Objects are written with more keys in the course of time. -/
theorem Tracked.mono {w w' : List (UUID × Text × Text)} {pub : Text} {n : Node C}
    (h : Tracked (K.flow w pub) n) (hw : w ⊆ w') : Tracked (K.flow w' pub) n :=
  h.weaken (fun _ _ _ hmade => ⟨hw hmade.1, hmade.2⟩) (fun _ _ _ _ hgiven => hgiven.mono hw)
    (fun _ _ _ hmine => hmine.mono hw) id

/-- **The invariant**: all nodes keep to the keys objects were written with. -/
def Keeping (K : Cryptography) (pub : ι → Text) (s : Net ι C) : Prop :=
  ∀ i, Tracked (K.flow s.written (pub i)) (s.nodes i)

omit [DecidableEq ι] in
/-- What a node has made for a public key is given for it. -/
theorem MadeFor.given {pubs : Text} {p : ImsPackage} (h : MadeFor s pubs p)
    (hs : Keeping K pub s) : K.Given s.written (some pubs) p.uuid p.aesKey p.aesIv := by
  obtain ⟨j, c, hc, hcmd, hu, hkey, hiv, hall⟩ := h
  obtain ⟨message, ⟨q, hq, hqcmd, hqid, -, rfl⟩, hgiven⟩ := (hs j).confirms c hc hcmd
  rw [← hu, ← hkey, ← hiv, ← hall q hq hqcmd hqid]
  exact hgiven

omit [DecidableEq ι] in
/-- What is honest keeps to the flow. -/
theorem ok_of_honest {i : ι} {e : Event C} (hs : Keeping K pub s) (h : Honest K pub s (i, e)) :
    (K.flow (e.written ++ s.written) (pub i)).Ok (s.nodes i) e := by
  cases e with
  | ims p => exact fun hp => (h hp).given hs
  | keyManager L F => exact ⟨K.sound_flow h, False.elim⟩
  | reply => trivial
  | saved u o => exact ⟨List.mem_cons_self, h⟩
  | deleted u => trivial
  | elsewhere c => trivial

/-- **Every step of a node keeps it.** -/
theorem Keeping.step (hs : Keeping K pub s) (hok : Honest K pub s e) (hstep : s.step e = some s') :
    Keeping K pub s' := by
  obtain ⟨i, e⟩ := e
  obtain ⟨n, hn, rfl⟩ := Option.map_eq_some_iff.mp hstep
  have hmono : s.written ⊆ e.written ++ s.written := List.subset_append_right _ _
  intro j
  by_cases hj : j = i
  · subst hj
    dsimp only
    rw [Function.update_self]
    exact ((hs j).mono hmono).step K.open_flow (ok_of_honest hs hok) hn
  · dsimp only
    rw [Function.update_of_ne hj]
    exact (hs j).mono hmono

/-- All nodes at the start. -/
def Net.init (keyManagers : ι → KeyManager.State C) (requestCounter : ι → ID32) : Net ι C where
  nodes i := .init (keyManagers i) (requestCounter i)
  written := []

variable {keyManagers : ι → KeyManager.State C} {c : ι → ID32} {es : List (ι × Event C)}

/-- The run lemma. -/
theorem keeping_of_run (hrun : Run.run Net.step (Net.init keyManagers c) es = some s)
    (hhonest : Run.Along Net.step (Honest K pub) (Net.init keyManagers c) es) : Keeping K pub s :=
  Run.invariant_of_run (Keeping K pub) (fun _ _ _ hs hok hstep => hs.step hok hstep)
    (fun _ => tracked_init) hhonest hrun

/-- **A shared key is the key of the object**: whichever node has a key for an object, also after it
was shared any number of times, some node has written the object with this key. -/
theorem written_of_owned (hrun : Run.run Net.step (Net.init keyManagers c) es = some s)
    (hhonest : Run.Along Net.step (Honest K pub) (Net.init keyManagers c) es) {i : ι} {u : UUID}
    {o : Owned} (ho : (s.nodes i).kernel.ownedData.lookup u = some o) :
    (u, o.aesKey, o.aesIv) ∈ s.written :=
  ((keeping_of_run hrun hhonest i).owned u o ho).1

/-- **What is confirmed**: with a confirmation goes a share request of the same id and object. The
key and the initialization vector are encrypted for the public key it has named, or the object was
written without a key. -/
theorem confirmed_for (hrun : Run.run Net.step (Net.init keyManagers c) es = some s)
    (hhonest : Run.Along Net.step (Honest K pub) (Net.init keyManagers c) es) {i : ι}
    {p : ImsPackage} (hp : p ∈ (s.nodes i).kernel.toIms) (hcmd : p.cmd = .shareConfirm) :
    ∃ q ∈ (s.nodes i).kernel.asked, q.cmd = .share ∧ q.requestId = p.requestId ∧
      q.uuid = p.uuid ∧ K.Given s.written (q.message.map cString) p.uuid p.aesKey p.aesIv := by
  obtain ⟨message, ⟨q, hq, hqcmd, hid, hu, rfl⟩, hgiven⟩ :=
    (keeping_of_run hrun hhonest i).confirms p hp hcmd
  exact ⟨q, hq, hqcmd, hid, hu, hgiven⟩

/-! ### Two nodes -/

/-- The public key is written in front of a text. -/
def prefixing : Cryptography := ⟨fun t => t, fun pub x y => y = pub ++ x⟩

/-- The public keys of two nodes. -/
def pairKeys (i : Bool) : Text := if i then ['B'] else ['A']

/-- Two nodes at the start. -/
def pair : Net Bool Text := .init (fun i => holder (pairKeys i)) fun _ => 0

/-- What happens at one of them. -/
def located (i : Bool) (es : List (Event Text)) : List (Bool × Event Text) := es.map fun e => (i, e)

/-- The first node writes an object and shares it with the second, which accepts it and shares it
with the first. -/
def thereAndBack : List (Bool × Event Text) :=
  located false (.saved 5 ⟨['k'], ['i'], 1⟩ :: shareWith 7 5 ['B'] :: turn) ++
    located true (acceptShare 8 5 ['B', 'k'] ['B', 'i'] :: turn ++ shareWith 9 5 ['A'] :: turn)

/-- What can be seen of a step of the two. -/
def Seen (s : Net Bool Text) : Bool × Event Text → Prop
  | (i, .ims p) => p.cmd = .acceptShare → MadeFor s (pairKeys i) p
  | (i, .keyManager _ _) => (s.nodes i).keyManager.userCipher = some (pairKeys i)
  | (_, .saved _ o) => o.aesKey ≠ [] ∧ o.aesIv ≠ []
  | _ => True

/-- What the key manager works with. -/
def Event.Prefixing : Event Text → Prop
  | .keyManager L _ => L = prefixLibs
  | _ => True

theorem lawful_prefixing {t : KeyManager.State Text} {pub : Text} (ht : t.userCipher = some pub) :
    prefixing.Lawful prefixLibs t pub := by
  refine ⟨rfl, fun _ => rfl, fun p x y hy => ?_, fun c x y x' hc hsealed hx => ?_⟩
  · exact (Except.ok.inj hy).symm
  · obtain rfl := Option.some.inj (ht.symm.trans hc)
    obtain rfl := Except.ok.inj hx
    rw [show y = pub ++ x from hsealed, List.drop_left]

theorem Seen.honest {s : Net Bool Text} {e : Bool × Event Text}
    (h : Seen s e ∧ Event.Prefixing e.2) : Honest prefixing pairKeys s e := by
  obtain ⟨i, e⟩ := e
  cases e with
  | ims p => exact h.1
  | keyManager L F =>
    obtain ⟨hcipher, rfl⟩ := h
    exact lawful_prefixing hcipher
  | reply => trivial
  | saved u o => exact .inr ⟨o.aesKey, o.aesIv, rfl, rfl⟩
  | deleted u => trivial
  | elsewhere c => trivial

instance (s : Net Bool Text) (pub : Text) (p : ImsPackage) : Decidable (MadeFor s pub p) :=
  inferInstanceAs (Decidable (∃ j, ∃ c ∈ (s.nodes j).kernel.toIms, c.cmd = .shareConfirm ∧
    c.uuid = p.uuid ∧ c.aesKey = p.aesKey ∧ c.aesIv = p.aesIv ∧
      ∀ q ∈ (s.nodes j).kernel.asked, q.cmd = .share → q.requestId = c.requestId →
        q.message.map cString = some pub))

instance (s : Net Bool Text) : ∀ e, Decidable (Seen s e)
  | (_, .ims _) => inferInstanceAs (Decidable (_ → _))
  | (_, .keyManager _ _) => inferInstanceAs (Decidable (_ = _))
  | (_, .saved _ _) => inferInstanceAs (Decidable (_ ∧ _))
  | (_, .reply) | (_, .deleted _) | (_, .elsewhere _) => .isTrue trivial

/-- The run of the witnesses, in which a key is shared and shared back. -/
theorem honest_thereAndBack :
    Run.Along Net.step (Honest prefixing pairKeys) pair thereAndBack := by
  have hseen : Run.Along Net.step Seen pair thereAndBack := by decide
  have hprefixing : ∀ e ∈ thereAndBack, Event.Prefixing e.2 := by
    simp [thereAndBack, located, turn, shareWith, acceptShare, Event.Prefixing]
  exact (hseen.and (Run.along_of_forall hprefixing)).mono fun _ _ => Seen.honest

theorem run_thereAndBack : ∃ s, Run.run Net.step pair thereAndBack = some s ∧
    (s.nodes true).kernel.ownedData.lookup 5 = some ⟨['k'], ['i'], 1⟩ ∧
      ⟨9, .shareConfirm, 5, ['A', 'k'], ['A', 'i'], none⟩ ∈ (s.nodes true).kernel.toIms :=
  ⟨_, rfl, rfl, by decide⟩

theorem written_of_owned_thereAndBack : ∃ s, Run.run Net.step pair thereAndBack = some s ∧
    ((5 : UUID), ['k'], ['i']) ∈ s.written := by
  obtain ⟨s, hrun, howned, -⟩ := run_thereAndBack
  exact ⟨s, hrun, written_of_owned hrun honest_thereAndBack howned⟩

theorem confirmed_for_thereAndBack : ∃ s, Run.run Net.step pair thereAndBack = some s ∧
    ∃ q ∈ (s.nodes true).kernel.asked, q.cmd = .share ∧ q.requestId = 9 ∧ q.uuid = 5 ∧
      prefixing.Given s.written (q.message.map cString) 5 ['A', 'k'] ['A', 'i'] := by
  obtain ⟨s, hrun, -, hconfirm⟩ := run_thereAndBack
  exact ⟨s, hrun, confirmed_for hrun honest_thereAndBack hconfirm rfl⟩

end Sharing

end Metax
