import Metax.Library.Run
import Metax.Trust.Data

/-!
# Trusted peers survive a restart

Every change of the trusted peers writes all of them to the file. As long as the file can be opened
each time and the keys are texts JSON can carry, the file has what is in memory (`read_of_run`), and
every start finds what a device was bound to (`restores_of_run`).

The codec is a parameter, with what is asked of a JSON library: that it reads what it wrote
(`Codec.Reads`). `plainCodec` is one for texts without quotation marks.
-/

namespace Metax

namespace Trust

open Ledger (Table)

variable {codec : Codec} {s t u : Node} {e : Event} {es : List Event} {strict : Bool}
  {file : Option Text} {peers : TrustedPeers} {d : Digest} {p : PeerInfo}

/-! ### Steps that leave the trusted peers alone -/

/-- Entries that say nothing of what is trusted. -/
def Entry.Quiet : Entry → Prop
  | .verified _ _ _ | .removed _ => False
  | _ => True

/-- A step that leaves the trusted peers and their file alone. -/
structure Aside (s t : Node) : Prop where
  trusted : t.trusted = s.trusted
  file : t.file = s.file
  log : ∃ l, t.log = l ++ s.log ∧ ∀ e ∈ l, e.Quiet

/-- Steps that leave the trusted peers alone can be put in sequence. -/
theorem Aside.refl (s : Node) : Aside s s := ⟨rfl, rfl, [], rfl, List.forall_mem_nil _⟩

theorem Aside.trans (h : Aside s t) (h' : Aside t u) : Aside s u := by
  obtain ⟨l, hl, hquiet⟩ := h.log
  obtain ⟨l', hl', hquiet'⟩ := h'.log
  refine ⟨h'.trusted.trans h.trusted, h'.file.trans h.file, l' ++ l, ?_, fun e he => ?_⟩
  · rw [hl', hl, List.append_assoc]
  · exact (List.mem_append.mp he).elim (hquiet' e) (hquiet e)

/-- An entry about something else. -/
theorem aside_write {e : Entry} (he : e.Quiet) : Aside s (s.write e) :=
  ⟨rfl, rfl, [e], rfl, fun _ h => List.mem_singleton.mp h ▸ he⟩

/-- The link by itself. -/
theorem aside_linkStep {e : Link.Event} (h : s.linkStep e = some t) : Aside s t := by
  obtain ⟨link, -, rfl⟩ := Option.map_eq_some_iff.mp h
  exact ⟨rfl, rfl, [], rfl, List.forall_mem_nil _⟩

/-- The router is told of a peer. -/
theorem aside_notify (peer : ID32) : Aside s (s.notify peer) := by
  rw [Node.notify]
  split
  · exact .refl s
  · split_ifs
    · exact .refl s
    · exact aside_write trivial

/-- A connection is opened. -/
theorem aside_connect {gid : ID32} (h : s.connect gid = some t) : Aside s t := by
  obtain ⟨m, hm, rfl⟩ := Option.map_eq_some_iff.mp h
  refine (aside_linkStep hm).trans ⟨rfl, rfl, [_], rfl, fun e he => ?_⟩
  obtain rfl := List.mem_singleton.mp he
  trivial

/-- A peer names its device, and the question is on its way. -/
theorem aside_handleLinkPeerDeviceId {peer : ID32} {di : Option Digest} {publicKey : Text}
    {loadInfo : ℕ} (h : s.handleLinkPeerDeviceId peer di publicKey loadInfo = some t) :
    Aside s t := by
  obtain ⟨m, hm, rfl⟩ := Option.map_eq_some_iff.mp h
  refine (aside_linkStep hm).trans ?_
  cases di with
  | none => exact .refl m
  | some di =>
    dsimp only
    split_ifs
    · exact ⟨rfl, rfl, [_], rfl, fun _ he => List.mem_singleton.mp he ▸ trivial⟩
    · have hset : Aside m { m with publicKeys := m.publicKeys.insert peer publicKey } :=
        ⟨rfl, rfl, [], rfl, List.forall_mem_nil _⟩
      exact hset.trans (aside_notify peer)

/-- Data is given to the router. -/
theorem aside_handleRouterMessageOfLinkPeer {peer : ID32} {p : Link.Peer} {data : Bytes}
    (h : s.handleRouterMessageOfLinkPeer peer p data = some t) : Aside s t := by
  rw [Node.handleRouterMessageOfLinkPeer] at h
  split_ifs at h
  · exact aside_linkStep h
  · obtain rfl := Option.some.inj h
    exact aside_write trivial

/-- An answer arrives in the link. -/
theorem aside_handleConfigAnswer {a : VerifyResponse} (h : s.handleConfigAnswer a = some t) :
    Aside s t := by
  rw [Node.handleConfigAnswer] at h
  split at h
  · obtain rfl := Option.some.inj h
    exact .refl s
  · split_ifs at h
    · obtain ⟨m, hm, rfl⟩ := Option.map_eq_some_iff.mp h
      exact (aside_linkStep hm).trans (aside_notify _)
    · exact aside_linkStep h

/-- To write the file changes nothing in memory. -/
@[simp]
theorem trusted_writeFile {w : Write} : (s.writeFile codec w).trusted = s.trusted := by
  cases w <;> rfl

@[simp]
theorem log_writeFile {w : Write} : (s.writeFile codec w).log = s.log := by
  cases w <;> rfl

/-! ### Reading the file -/

/-- What JSON is relied on for: an object with distinct names is read back, in some order, and what
is read is text. -/
structure Codec.Reads (codec : Codec) : Prop where
  parse_stringify : ∀ o : List (Text × PeerInfo), (o.map Prod.fst).Nodup →
    (∀ e ∈ o, codec.isText e.1 = true ∧ codec.isText e.2.deviceKey = true ∧
      codec.isText e.2.userKey = true) →
    ∃ o', codec.parse (codec.stringify o) = some o' ∧
      o'.Perm (o.map fun e => (e.1, some e.2.toJson))
  isText_of_parse : ∀ text o, codec.parse text = some o → ∀ name p, (name, some p) ∈ o →
    (∀ k ∈ p.deviceKey, codec.isText k = true) ∧ ∀ k ∈ p.userKey, codec.isText k = true
  isText_hex : ∀ d, codec.isText (Hex.encode d) = true

/-- All keys are texts. -/
def Textual (codec : Codec) (peers : TrustedPeers) : Prop :=
  ∀ d p, peers.lookup d = some p → codec.isText p.deviceKey = true ∧ codec.isText p.userKey = true

/-- The two keys of a device are what is stored of it. -/
theorem toJson_injective : Function.Injective PeerInfo.toJson := by
  intro p q h
  obtain ⟨hdevice, huser⟩ := PeerJson.mk.inj h
  cases p
  cases q
  rw [PeerInfo.mk.injEq]
  exact ⟨Option.some.inj hdevice, Option.some.inj huser⟩

/-- An entry with both keys is read as it is. -/
theorem readPeer_toJson : readPeer peers (Hex.encode d, some p.toJson) = peers.insert d p := by
  rw [readPeer, Hex.decode_encode]
  rfl

/-- Whole entries of distinct devices are all read. -/
theorem lookup_foldl_readPeer {o : List (Text × Option PeerJson)} (hnodup : (o.map Prod.fst).Nodup)
    (hwhole : ∀ e ∈ o, ∃ d p, e = (Hex.encode d, some (PeerInfo.toJson p))) :
    (o.foldl readPeer peers).lookup d = some p ↔
      (Hex.encode d, some p.toJson) ∈ o ∨ (∀ e ∈ o, e.1 ≠ Hex.encode d) ∧ peers.lookup d = some p
        := by
  induction o generalizing peers with
  | nil => simp
  | cons e o ih =>
    obtain ⟨d', p', rfl⟩ := hwhole e List.mem_cons_self
    obtain ⟨hnew, hnodup⟩ := List.nodup_cons.mp hnodup
    rw [List.foldl_cons, readPeer_toJson,
      ih hnodup fun e he => hwhole e (List.mem_cons_of_mem _ he), Ledger.lookup_insert_ite]
    have hfst {e : Text × Option PeerJson} (he : e ∈ o) : e.1 ≠ Hex.encode d' := fun h =>
      hnew (h ▸ List.mem_map.mpr ⟨e, he, rfl⟩)
    split_ifs with hd
    · -- the device of the first entry, which is not named again
      subst hd
      constructor
      · rintro (he | ⟨-, hp⟩)
        · exact absurd rfl (hfst he)
        · obtain rfl := Option.some.inj hp
          exact .inl List.mem_cons_self
      · rintro (he | ⟨hall, -⟩)
        · rcases List.mem_cons.mp he with heq | he
          · have hjson := Option.some.inj (Prod.mk.inj heq).2
            exact .inr ⟨fun e he => hfst he, congrArg some (toJson_injective hjson).symm⟩
          · exact absurd rfl (hfst he)
        · exact absurd rfl (hall _ List.mem_cons_self)
    · have hne : Hex.encode d' ≠ Hex.encode d := fun h => hd (Hex.encode_injective h).symm
      rw [List.mem_cons, List.forall_mem_cons, Prod.mk.injEq, eq_comm (a := Hex.encode d)]
      simp only [hne, false_and, false_or, ne_eq, not_false_eq_true, true_and]

/-- What is written of some entries. -/
theorem mem_entries_map {o : Text × Option PeerJson} :
    o ∈ (entries peers).map (fun e => (e.1, some e.2.toJson)) ↔
      ∃ d p, peers.lookup d = some p ∧ o = (Hex.encode d, some (PeerInfo.toJson p)) := by
  rw [entries, List.map_map, List.mem_map]
  constructor
  · rintro ⟨⟨d, p⟩, he, rfl⟩
    exact ⟨d, p, AList.mem_lookup_iff.mpr he, rfl⟩
  · rintro ⟨d, p, hp, rfl⟩
    exact ⟨⟨d, p⟩, AList.mem_lookup_iff.mp hp, rfl⟩

/-- Every device has one entry, so the names are distinct. -/
theorem nodup_entries : ((entries peers).map Prod.fst).Nodup := by
  rw [entries, List.map_map]
  have heq : (Prod.fst ∘ fun e : Sigma fun _ : Digest => PeerInfo => (Hex.encode e.1, e.2)) =
      Hex.encode ∘ Sigma.fst := rfl
  rw [heq, ← List.map_map]
  exact List.Nodup.map Hex.encode_injective peers.nodupKeys

/-- **The file has it all**: what is written is read back. -/
theorem lookup_readTrustedPeers (hreads : codec.Reads) (htexts : Textual codec peers) :
    (readTrustedPeers codec (some (getTrustedPeerList codec peers))).lookup d =
      peers.lookup d := by
  have htext : ∀ e ∈ entries peers, codec.isText e.1 = true ∧
      codec.isText e.2.deviceKey = true ∧ codec.isText e.2.userKey = true := by
    intro e he
    obtain ⟨⟨d, p⟩, hmem, rfl⟩ := List.mem_map.mp he
    exact ⟨hreads.isText_hex d, htexts d p (AList.mem_lookup_iff.mpr hmem)⟩
  obtain ⟨o, ho, hperm⟩ := hreads.parse_stringify (entries peers) nodup_entries htext
  have hnodup : (o.map Prod.fst).Nodup := by
    rw [(hperm.map Prod.fst).nodup_iff, List.map_map]
    exact nodup_entries
  have hmem {e : Text × Option PeerJson} : e ∈ o ↔
      ∃ d p, peers.lookup d = some p ∧ e = (Hex.encode d, some (PeerInfo.toJson p)) :=
    hperm.mem_iff.trans mem_entries_map
  have hwhole : ∀ e ∈ o, ∃ d p, e = (Hex.encode d, some (PeerInfo.toJson p)) := by
    intro e he
    obtain ⟨d, p, -, heq⟩ := hmem.mp he
    exact ⟨d, p, heq⟩
  have hread : readTrustedPeers codec (some (getTrustedPeerList codec peers)) =
      o.foldl readPeer ∅ := by
    rw [readTrustedPeers, Option.bind_some, getTrustedPeerList, ho, Option.getD_some]
  refine Option.ext fun p => ?_
  rw [hread, lookup_foldl_readPeer hnodup hwhole, hmem]
  constructor
  · rintro (⟨d', p', hp, heq⟩ | ⟨-, hnone⟩)
    · obtain ⟨hd, hjson⟩ := Prod.mk.inj heq
      rw [Hex.encode_injective hd, toJson_injective (Option.some.inj hjson)]
      exact hp
    · cases hnone
  · exact fun hp => .inl ⟨d, p, hp, rfl⟩

/-- What is read are texts. -/
theorem textual_readTrustedPeers (hreads : codec.Reads) :
    Textual codec (readTrustedPeers codec file) := by
  rw [readTrustedPeers]
  obtain ⟨o, ho⟩ : ∃ o, o = (file.bind codec.parse).getD [] := ⟨_, rfl⟩
  have htext : ∀ name p, (name, some p) ∈ o →
      (∀ k ∈ p.deviceKey, codec.isText k = true) ∧ ∀ k ∈ p.userKey, codec.isText k = true := by
    intro name p hp
    cases hparse : file.bind codec.parse with
    | none =>
      rw [ho, hparse] at hp
      cases hp
    | some o' =>
      obtain ⟨text, -, hparse'⟩ := Option.bind_eq_some_iff.mp hparse
      rw [ho, hparse] at hp
      exact hreads.isText_of_parse text o' hparse' name p hp
  rw [← ho]
  have hempty : Textual codec (∅ : TrustedPeers) := fun d p h => by cases h
  clear ho
  generalize (∅ : TrustedPeers) = peers at hempty ⊢
  induction o generalizing peers with
  | nil => exact hempty
  | cons e o ih =>
    refine ih (fun name p hp => htext name p (List.mem_cons_of_mem _ hp)) _ ?_
    obtain ⟨name, json⟩ := e
    rw [readPeer]
    split
    · rename_i p d hjson hd
      obtain ⟨hdevice, huser⟩ := htext name p (hjson ▸ List.mem_cons_self)
      -- what is there before the keys are read
      obtain ⟨old, hold⟩ : ∃ old, old = (peers.lookup d).getD ⟨[], []⟩ := ⟨_, rfl⟩
      have holdtext : codec.isText old.deviceKey = true ∧ codec.isText old.userKey = true := by
        rw [hold]
        cases hlook : peers.lookup d with
        | none => exact ⟨hreads.isText_hex [], hreads.isText_hex []⟩
        | some q => exact hempty d q hlook
      rw [← hold]
      dsimp only
      split
      · exact Ledger.forall_lookup_insert hempty holdtext
      · rename_i dk hdk _
        exact Ledger.forall_lookup_insert hempty ⟨hdevice dk hdk, holdtext.2⟩
      · rename_i dk uk hdk huk
        exact Ledger.forall_lookup_insert hempty ⟨hdevice dk hdk, huser uk huk⟩
    · exact hempty

/-! ### Every run -/

/-- The file is written, and a new key is a text. -/
def Writable (codec : Codec) (s : Node) : Event → Prop
  | .addPeer message w => w = .whole ∧ codec.isText (KeyManager.trim message) = true
  | .removePeer _ w => w = .whole
  | .readConfig w => w = .whole ∧ ∀ r ∈ s.toConfig.head?, codec.isText r.publicKey = true
  | _ => True

instance (codec : Codec) (s : Node) : ∀ e, Decidable (Writable codec s e)
  | .addPeer _ _ => inferInstanceAs (Decidable (_ ∧ _))
  | .removePeer _ _ => inferInstanceAs (Decidable (_ = _))
  | .readConfig _ => inferInstanceAs (Decidable (_ ∧ ∀ r ∈ s.toConfig.head?, _))
  | .connect _ | .deviceId _ _ _ _ | .data _ _ | .shutdown _ | .remove _ | .readLink | .restart =>
    .isTrue trivial

/-- **The invariant**: the file has what is in memory, and all of it is text. -/
structure Durable (codec : Codec) (s : Node) : Prop where
  restores : ∀ d, (readTrustedPeers codec s.file).lookup d = s.trusted.lookup d
  texts : Textual codec s.trusted

/-- Only the trusted peers and the file matter. -/
theorem Durable.of_eq (h : Durable codec s) (htrusted : t.trusted = s.trusted)
    (hfile : t.file = s.file) : Durable codec t := by
  constructor
  · rw [htrusted, hfile]
    exact h.restores
  · rw [htrusted]
    exact h.texts

/-- What was written is in the file. -/
theorem durable_writeFile (hreads : codec.Reads) (htexts : Textual codec s.trusted) :
    Durable codec (s.writeFile codec .whole) :=
  ⟨fun _ => lookup_readTrustedPeers hreads htexts, htexts⟩

/-- A device that is added has its own key, and no user key yet. -/
theorem textual_addPeer (htexts : Textual codec peers) {deviceKey : Text}
    (hnil : codec.isText [] = true) (hkey : codec.isText deviceKey = true) :
    Textual codec (addPeer peers d deviceKey) := by
  rw [addPeer]
  split
  · exact Ledger.forall_lookup_insert htexts ⟨hkey, hnil⟩
  · exact htexts

/-- **Step lemma.** -/
theorem Durable.step (hreads : codec.Reads) (h : Durable codec s) (hwritable : Writable codec s e)
    (hstep : step codec s e = some t) : Durable codec t := by
  have haside {u : Node} (hst : Aside s u) : Durable codec u := h.of_eq hst.trusted hst.file
  cases e with
  | connect gid => exact haside (aside_connect hstep)
  | deviceId peer di publicKey loadInfo =>
    obtain ⟨p, -, hstep⟩ := Option.bind_eq_some_iff.mp hstep
    exact haside (aside_handleLinkPeerDeviceId hstep)
  | data peer data =>
    obtain ⟨p, -, hstep⟩ := Option.bind_eq_some_iff.mp hstep
    exact haside (aside_handleRouterMessageOfLinkPeer hstep)
  | shutdown peer => exact haside (aside_linkStep hstep)
  | remove peer => exact haside (aside_linkStep hstep)
  | readConfig w =>
    rw [Trust.step] at hstep
    split at hstep
    · cases hstep
    · rename_i r rs hqueue
      obtain rfl := Option.some.inj hstep
      obtain ⟨rfl, hkey⟩ := hwritable
      have hkey := hkey r (by rw [hqueue]; rfl)
      rw [Node.handleLinkVerifyPeerRequest]
      split
      · exact h.of_eq rfl rfl
      · rename_i p hp
        split_ifs
        · refine Durable.of_eq (durable_writeFile hreads ?_) rfl rfl
          exact Ledger.forall_lookup_insert h.texts ⟨(h.texts _ _ hp).1, hkey⟩
        · exact h.of_eq rfl rfl
  | readLink =>
    rw [Trust.step] at hstep
    split at hstep
    · cases hstep
    · rename_i a as _
      have hread : Durable codec { s with toLink := as } := h.of_eq rfl rfl
      have hst := aside_handleConfigAnswer hstep
      exact hread.of_eq hst.trusted hst.file
  | addPeer message w =>
    obtain ⟨rfl, hkey⟩ := hwritable
    obtain rfl := Option.some.inj hstep
    exact durable_writeFile hreads (textual_addPeer h.texts (hreads.isText_hex []) hkey)
  | removePeer message w =>
    obtain rfl : w = .whole := hwritable
    obtain rfl := Option.some.inj hstep
    refine Durable.of_eq (durable_writeFile hreads fun d p hp => ?_) rfl rfl
    exact h.texts d p (Ledger.of_lookup_erase hp).2
  | restart =>
    obtain rfl := Option.some.inj hstep
    exact ⟨fun _ => rfl, textual_readTrustedPeers hreads⟩

/-- At the start the memory is what the file has. -/
theorem durable_init (hreads : codec.Reads) : Durable codec (Node.init codec strict file) :=
  ⟨fun _ => rfl, textual_readTrustedPeers hreads⟩

/-- A start finds in the file what was in memory. -/
def Restores (codec : Codec) (s : Node) : Event → Prop
  | .restart => ∀ d, (readTrustedPeers codec s.file).lookup d = s.trusted.lookup d
  | _ => True

/-- Each start finds in the file what was in memory. -/
theorem restores_of_run (hreads : codec.Reads)
    (hwritable : Run.Along (step codec) (Writable codec) (Node.init codec strict file) es) :
    Run.Along (step codec) (Restores codec) (Node.init codec strict file) es := by
  refine Run.Along.of_invariant (Durable codec)
    (fun s e t h hok hstep => h.step hreads hok hstep) (fun s e h _ => ?_) (durable_init hreads)
    hwritable
  cases e with
  | restart => exact h.restores
  | connect | deviceId | data | shutdown | remove | readConfig | readLink | addPeer | removePeer =>
    trivial

/-- **Nothing is forgotten**: in every run in which the file can be written, what would be read from
it is what is in memory. -/
theorem read_of_run (hreads : codec.Reads)
    (hrun : Run.run (step codec) (Node.init codec strict file) es = some s)
    (hwritable : Run.Along (step codec) (Writable codec) (Node.init codec strict file) es)
    (d : Digest) : (readTrustedPeers codec s.file).lookup d = s.trusted.lookup d := by
  have hdurable : Durable codec s := Run.invariant_of_run (Durable codec)
    (fun s e t h hok hstep => h.step hreads hok hstep) (durable_init hreads) hwritable hrun
  exact hdurable.restores d

/-! ### JSON without escapes -/

/-- The name of a key of the device. -/
def deviceKeyName : Text := ['d', 'e', 'v', 'i', 'c', 'e', '_', 'k', 'e', 'y']

/-- The name of a key of the user. -/
def userKeyName : Text := ['u', 's', 'e', 'r', '_', 'k', 'e', 'y']

/-- What is between the quotation marks of the objects, from the first name on. -/
def jsonPieces : Text × PeerInfo → List (Text × PeerInfo) → List Text
  | (name, p), rest => name :: [':', '{'] :: deviceKeyName :: [':'] :: p.deviceKey :: [','] ::
      userKeyName :: [':'] :: p.userKey ::
    match rest with
    | [] => [['}', '}']]
    | e :: es => ['}', ','] :: jsonPieces e es

/-- Reads these pieces. -/
def readPieces : List Text → Option (List (Text × Option PeerJson))
  | name :: _ :: _ :: _ :: dk :: _ :: _ :: _ :: uk :: _ :: rest =>
    if rest = [] then some [(name, some ⟨some dk, some uk⟩)]
    else (readPieces rest).map ((name, some ⟨some dk, some uk⟩) :: ·)
  | _ => none

/-- A codec for texts without quotation marks; the digest of a key is the key. -/
def plainCodec : Codec where
  md5 t := t.map fun c => UInt8.ofNat c.toNat
  stringify
    | [] => ['{', '}']
    | e :: es => List.intercalate ['"'] (['{'] :: jsonPieces e es)
  parse t :=
    match t.splitOn '"' with
    | [['{', '}']] => some []
    | ['{'] :: pieces => readPieces pieces
    | _ => none
  isText t := decide ('"' ∉ t)

/-- An entry with all its keys, as it is read. -/
def wholeEntry (e : Text × PeerInfo) : Text × Option PeerJson := (e.1, some e.2.toJson)

/-- The codec of the witness reads what it writes, piece by piece. -/
theorem readPieces_jsonPieces (e : Text × PeerInfo) (es : List (Text × PeerInfo)) :
    readPieces (jsonPieces e es) = some ((e :: es).map wholeEntry) := by
  induction es generalizing e with
  | nil => rfl
  | cons e' es ih =>
    obtain ⟨name, p⟩ := e
    obtain ⟨name', p'⟩ := e'
    have hne : jsonPieces (name', p') es ≠ [] := by
      cases es <;> exact List.cons_ne_nil _ _
    rw [jsonPieces, readPieces, if_neg hne, ih]
    rfl

/-- No piece has a quotation mark if no key has one. -/
theorem notMem_of_mem_jsonPieces {e : Text × PeerInfo} {es : List (Text × PeerInfo)}
    (h : ∀ x ∈ e :: es, '"' ∉ x.1 ∧ '"' ∉ x.2.deviceKey ∧ '"' ∉ x.2.userKey) :
    ∀ l ∈ jsonPieces e es, '"' ∉ l := by
  have hfixed : '"' ∉ deviceKeyName ∧ '"' ∉ userKeyName := by decide
  induction es generalizing e with
  | nil =>
    obtain ⟨hname, hdevice, huser⟩ := h e List.mem_cons_self
    simp [jsonPieces, hname, hdevice, huser, hfixed]
  | cons e' es ih =>
    obtain ⟨hname, hdevice, huser⟩ := h e List.mem_cons_self
    have hrest := ih fun x hx => h x (List.mem_cons_of_mem _ hx)
    simpa [jsonPieces, hname, hdevice, huser, hfixed] using hrest

/-- The keys that are read are pieces. -/
theorem mem_of_readPieces {pieces : List Text} {o : List (Text × Option PeerJson)}
    (h : readPieces pieces = some o) {name : Text} {p : PeerJson} (hp : (name, some p) ∈ o) :
    (∀ k ∈ p.deviceKey, k ∈ pieces) ∧ ∀ k ∈ p.userKey, k ∈ pieces := by
  fun_induction readPieces pieces generalizing o with
  | case1 name' a b c dk a' b' c' uk d =>
    obtain rfl := Option.some.inj h
    obtain ⟨-, hpe⟩ := Prod.mk.inj (List.mem_singleton.mp hp)
    obtain rfl := Option.some.inj hpe
    simp
  | case2 name' a b c dk a' b' c' uk d rest _ ih =>
    obtain ⟨o', ho', rfl⟩ := Option.map_eq_some_iff.mp h
    rcases List.mem_cons.mp hp with heq | hp
    · obtain ⟨-, hpe⟩ := Prod.mk.inj heq
      obtain rfl := Option.some.inj hpe
      simp
    · obtain ⟨hdevice, huser⟩ := ih ho' hp
      exact ⟨fun k hk => by simp [hdevice k hk], fun k hk => by simp [huser k hk]⟩
  | case3 => cases h

/-- **The codec of the witness can be relied on.** -/
theorem reads_plainCodec : plainCodec.Reads where
  parse_stringify o _ htext := by
    have hquote (t : Text) : plainCodec.isText t = true ↔ '"' ∉ t := decide_eq_true_iff
    cases o with
    | nil => exact ⟨[], rfl, .refl _⟩
    | cons e es =>
      have hpieces : ∀ l ∈ ['{'] :: jsonPieces e es, '"' ∉ l := by
        refine List.forall_mem_cons.mpr ⟨by decide, notMem_of_mem_jsonPieces fun x hx => ?_⟩
        obtain ⟨hname, hdevice, huser⟩ := htext x hx
        exact ⟨(hquote _).mp hname, (hquote _).mp hdevice, (hquote _).mp huser⟩
      refine ⟨(e :: es).map wholeEntry, ?_, .refl _⟩
      have hsplit := List.splitOn_intercalate '"' hpieces (List.cons_ne_nil _ _)
      have hparse (t : Text) (l : List Text) (h : t.splitOn '"' = ['{'] :: l) :
          plainCodec.parse t = readPieces l := by
        simp only [plainCodec, h]
      exact (hparse _ _ hsplit).trans (readPieces_jsonPieces e es)
  isText_of_parse text o ho name p hp := by
    have hquote (t : Text) (h : t ∈ text.splitOn '"') : plainCodec.isText t = true :=
      decide_eq_true (Text.notMem_of_mem_splitOn h)
    simp only [plainCodec] at ho
    split at ho
    · obtain rfl := Option.some.inj ho
      cases hp
    · rename_i pieces hsplit
      obtain ⟨hdevice, huser⟩ := mem_of_readPieces ho hp
      have hmem {k : Text} (hk : k ∈ pieces) : k ∈ text.splitOn '"' := by
        rw [hsplit]
        exact List.mem_cons_of_mem _ hk
      exact ⟨fun k hk => hquote k (hmem (hdevice k hk)), fun k hk => hquote k (hmem (huser k hk))⟩
    · cases ho
  isText_hex d := by
    refine decide_eq_true fun h => ?_
    obtain ⟨b, -, hb⟩ := List.mem_flatMap.mp h
    have hdigit : ∀ n < 16, n.digitChar ≠ '"' := by decide
    have hlt := b.toNat_lt
    rcases List.mem_cons.mp hb with h | h
    · exact hdigit _ (by omega) h.symm
    · exact hdigit _ (Nat.mod_lt _ (by decide)) (List.mem_singleton.mp h).symm

/-- A device is added, comes with a user key, and comes again after a restart. -/
def twoStarts : List Event :=
  [.addPeer ['D'] .whole, .connect Link.noGroup,
    .deviceId Link.requestLowerBound (some [68]) ['U'] 0, .readConfig .whole, .readLink, .restart,
    .connect Link.noGroup, .deviceId Link.requestLowerBound (some [68]) ['U'] 0, .readConfig .whole]

/-- In the run of the witness the file is written each time. -/
theorem writable_twoStarts : Run.Along (step plainCodec) (Writable plainCodec)
    (Node.init plainCodec true none) twoStarts := by decide

/-- After the second start the user key of the device is in the file. -/
theorem read_of_run_twoStarts : ∃ s,
    Run.run (step plainCodec) (Node.init plainCodec true none) twoStarts = some s ∧
      (readTrustedPeers plainCodec s.file).lookup [68] = s.trusted.lookup [68] :=
  ⟨_, rfl, read_of_run reads_plainCodec rfl writable_twoStarts [68]⟩

end Trust

end Metax
