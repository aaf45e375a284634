import Mathlib.Logic.Function.Basic
import Metax.Messages.Tracing

/-!
# Messages between nodes

Any number of nodes, each with its kernel and the key of its user. A kernel that is asked something
by another gets it under an id of its own router, and a `Path` joins the two ids. Of the routers
only this is taken: they ask what was to be asked, under an id that is new at the other node, and
they bring along a path only what was sent into it. In which order the nodes take their steps, what
is lost on the way and what comes twice is left open.

`delivered_of_run`: what the IMS of a node is given was addressed to the key of its user.
`received_of_confirmed`: an IMS that is told that its message was confirmed had sent it to a key
whose node gave just this message to its IMS, and that one confirmed it.
-/

namespace Metax

namespace Messages

open Text (cString)
open Deletion (idBound)

variable {ι : Type}

/-- What the kernel of one node asks the kernel of another: `srcId` is the id at the one, and
`dstId` the id at the other. -/
structure Path (ι : Type) where
  src : ι
  srcId : ID32
  dst : ι
  dstId : ID32
  cmd : Command
  uuid : UUID
  key : Text
  version : ℕ

/-- The nodes, and who has been asked. -/
structure Net (ι : Type) where
  nodes : ι → Kernel
  paths : List (Path ι)

/-- The nodes at the start. -/
def Net.init (users : ι → UUID) (pems : ι → Option Text) (counters : ι → ID32) : Net ι where
  nodes i := Kernel.init (users i) (pems i) (counters i)
  paths := []

/-- A step of a node, or a node is asked. -/
inductive NetEvent (ι : Type)
  | node (i : ι) (e : Event)
  | ask (p : Path ι)

/-- One kernel takes a step. -/
def Net.step [DecidableEq ι] (n : Net ι) : NetEvent ι → Option (Net ι)
  | .node i e => (Messages.step (n.nodes i) e).map fun s => ⟨Function.update n.nodes i s, n.paths⟩
  | .ask p =>
    (Messages.step (n.nodes p.dst) (.findPeer p.dstId p.cmd p.uuid p.key p.version)).map fun s =>
      ⟨Function.update n.nodes p.dst s, p :: n.paths⟩

/-- What comes to a node from the others. -/
def Net.env (n : Net ι) (i : ι) : Env where
  Known id cmd u key := ∃ p ∈ n.paths, p.dst = i ∧ p.dstId = id ∧ p.cmd = cmd ∧ p.uuid = u ∧
    p.key = key
  Given id data := ∃ p ∈ n.paths, p.dst = i ∧ p.dstId = id ∧
    .router p.srcId .sendToPeer 0 data 0 ∈ (n.nodes p.src).log
  Acked id := ∃ p ∈ n.paths, p.src = i ∧ p.srcId = id ∧
    .router p.dstId .sendToPeerConfirm 0 [] 0 ∈ (n.nodes p.dst).log

/-- **What is taken of the routers and of the IMS.** A node is asked what another node has sent its
router, under an id of the router that is new there. What else a router brings along was sent along
a path; an IMS confirms what it was given; and the ids of a kernel do not wrap. -/
def Net.Honest (n : Net ι) : NetEvent ι → Prop
  | .node i e => (∀ id cmd u key version, e ≠ .findPeer id cmd u key version) ∧
    (n.env i).Ok (n.nodes i) e
  | .ask p => .router p.srcId p.cmd p.uuid p.key p.version ∈ (n.nodes p.src).log ∧
    (p.cmd = .findPeer ∨ IsNotice p.cmd) ∧ idBound ≤ p.dstId ∧
      ∀ q ∈ n.paths, q.dst = p.dst → q.dstId ≠ p.dstId

variable {n m : Net ι} {i j : ι} {own : ι → Text} {p q : Path ι} {e : Event} {s : Kernel}
  {id ims : ID32} {u v : UUID} {key data x : Text} {cmd : Command}

/-- More has come to a node when more has been asked and written. -/
theorem env_le (hpaths : ∀ p ∈ n.paths, p ∈ m.paths)
    (hlogs : ∀ i, (n.nodes i).log ⊆ (m.nodes i).log) (i : ι) : (n.env i).Le (m.env i) := by
  constructor
  · rintro id cmd u key ⟨p, hp, hrest⟩
    exact ⟨p, hpaths p hp, hrest⟩
  · rintro id data ⟨p, hp, hdst, hid, hmem⟩
    exact ⟨p, hpaths p hp, hdst, hid, hlogs p.src hmem⟩
  · rintro id ⟨p, hp, hsrc, hid, hmem⟩
    exact ⟨p, hpaths p hp, hsrc, hid, hlogs p.dst hmem⟩

/-- **The invariant.** -/
structure Sound (own : ι → Text) (n : Net ι) : Prop where
  traced : ∀ i, Traced (n.env i) (own i) (n.nodes i)
  listening : ∀ i, Listening (n.nodes i)
  asked : ∀ p ∈ n.paths, .router p.srcId p.cmd p.uuid p.key p.version ∈ (n.nodes p.src).log
  kind : ∀ p ∈ n.paths, p.cmd = .findPeer ∨ IsNotice p.cmd
  high : ∀ p ∈ n.paths, idBound ≤ p.dstId
  once : ∀ p ∈ n.paths, ∀ q ∈ n.paths, p.dst = q.dst → p.dstId = q.dstId → p = q

/-- A node is to be asked. -/
theorem Sound.path (h : Sound own n) (hp : n.Honest (.ask p)) :
    Sound own ⟨n.nodes, p :: n.paths⟩ := by
  obtain ⟨hasked, hkind, hhigh, hnew⟩ := hp
  have hle (j : ι) := env_le (n := n) (m := ⟨n.nodes, p :: n.paths⟩)
    (fun q hq => List.mem_cons_of_mem p hq) (fun j => List.Subset.refl _) j
  refine ⟨fun j => (h.traced j).of_le (hle j), h.listening, List.forall_mem_cons.mpr
    ⟨hasked, h.asked⟩, List.forall_mem_cons.mpr ⟨hkind, h.kind⟩, List.forall_mem_cons.mpr
    ⟨hhigh, h.high⟩, fun q hq q' hq' hdst hid => ?_⟩
  rcases List.mem_cons.mp hq with rfl | hold <;> rcases List.mem_cons.mp hq' with rfl | hold'
  · rfl
  · exact absurd hid.symm (hnew q' hold' hdst.symm)
  · exact absurd hid (hnew q hold hdst)
  · exact h.once q hold q' hold' hdst hid

section Steps

variable [DecidableEq ι]

/-- One node has taken a step. -/
theorem Sound.move (h : Sound own n) (hok : (n.env i).Ok (n.nodes i) e)
    (hstep : Messages.step (n.nodes i) e = some s) :
    Sound own ⟨Function.update n.nodes i s, n.paths⟩ := by
  have hlogs : ∀ j, (n.nodes j).log ⊆ (Function.update n.nodes i s j).log :=
    (Function.forall_update_iff n.nodes fun j (t : Kernel) => (n.nodes j).log ⊆ t.log).mpr
      ⟨log_subset_of_step hstep, fun j _ => List.Subset.refl _⟩
  have hle (j : ι) := env_le (n := n) (m := ⟨Function.update n.nodes i s, n.paths⟩)
    (fun p hp => hp) hlogs j
  refine ⟨?_, ?_, fun p hp => hlogs p.src (h.asked p hp), h.kind, h.high, h.once⟩
  · exact (Function.forall_update_iff n.nodes fun j t => Traced (Net.env _ j) (own j) t).mpr
      ⟨((h.traced i).step hok hstep).of_le (hle i), fun j _ => (h.traced j).of_le (hle j)⟩
  · exact (Function.forall_update_iff n.nodes fun j t => Listening t).mpr
      ⟨(h.listening i).step hstep, fun j _ => h.listening j⟩

/-- **The step lemma.** -/
theorem Sound.step (h : Sound own n) {e : NetEvent ι} (hok : n.Honest e)
    (hstep : n.step e = some m) : Sound own m := by
  cases e with
  | node i e =>
    obtain ⟨s, hs, rfl⟩ := Option.map_eq_some_iff.mp hstep
    exact h.move hok.2 hs
  | ask p =>
    rw [Net.step] at hstep
    obtain ⟨s, hs, rfl⟩ := Option.map_eq_some_iff.mp hstep
    have hcmd : p.cmd ≠ .sendToPeer := by
      rcases hok.2.1 with hcmd | hcmd | hcmd <;> rw [hcmd] <;> decide
    refine (h.path hok).move (e := .findPeer p.dstId p.cmd p.uuid p.key p.version) ?_ hs
    exact ⟨hok.2.2.1, hcmd, p, List.mem_cons_self, rfl, rfl, rfl, rfl, rfl⟩

end Steps

theorem sound_init {users : ι → UUID} {pems : ι → Option Text} {counters : ι → ID32}
    (hcounters : ∀ i, counters i < idBound) :
    Sound (fun i => KeyManager.trim ((pems i).getD [])) (Net.init users pems counters) := by
  refine ⟨fun i => traced_init (hcounters i), fun i => listening_init, ?_, ?_, ?_, ?_⟩ <;>
    exact List.forall_mem_nil _

/-! ### What the nodes can rely on -/

/-- The message that goes along a path, by the node that sends it. -/
theorem Sound.sent_of_path (h : Sound own n) (hp : p ∈ n.paths) (hcmd : p.cmd = .findPeer)
    (hmem : .router p.srcId .sendToPeer 0 data 0 ∈ (n.nodes p.src).log) :
    ∃ ims, .sent p.srcId ims p.key data ∈ (n.nodes p.src).log := by
  have hlog := (h.traced p.src).log
  obtain ⟨i, k, hsends⟩ := (hlog _ hmem).sends p.srcId 0 data 0 rfl
  obtain ⟨i', d, hlooks⟩ :=
    (hlog _ (h.asked p hp)).looksFor p.srcId p.uuid p.key p.version (by rw [hcmd])
  obtain ⟨rfl, rfl, rfl⟩ := (h.traced p.src).sentOnce _ _ _ _ _ _ _ hsends hlooks
  exact ⟨i, hsends⟩

/-- What the IMS of a node may be told was addressed to its key. -/
theorem Sound.delivered (h : Sound own n)
    (htold : .ims id .sendToPeer v data ∈ (n.nodes j).log) (hid : idBound ≤ id) :
    ∃ p ∈ n.paths, p.dst = j ∧ p.dstId = id ∧ (n.nodes j).ownKey = cString p.key ∧
      (p.cmd = .findPeer ∧ (∃ ims, .sent p.srcId ims p.key data ∈ (n.nodes p.src).log) ∨
        p.cmd = .notifyUpdate ∧ data = eventText "updated" p.uuid ∨
          p.cmd = .notifyDelete ∧ data = eventText "deleted" p.uuid) := by
  obtain hlt | ⟨c, w, k, hknown, hown, htells⟩ :=
    ((h.traced j).log _ htold).told id v data rfl
  · exact absurd hlt (Nat.not_lt.mpr hid)
  have hknown' := hknown
  obtain ⟨p, hp, rfl, rfl, rfl, rfl, rfl⟩ := hknown
  refine ⟨p, hp, rfl, rfl, (h.traced p.dst).ownKey.trans hown, htells.imp_left ?_⟩
  rintro ⟨hcmd, q, hq, hdst, hqid, hmem⟩
  obtain rfl := h.once q hq p hp hdst hqid
  exact ⟨hcmd, h.sent_of_path hq hcmd hmem⟩

/-- A message that was confirmed was given to the IMS of a node with the key it was sent to. -/
theorem Sound.received (h : Sound own n)
    (hconfirmed : .ims ims .sendToPeerConfirm v x ∈ (n.nodes i).log) :
    ∃ id key data j id', .sent id ims key data ∈ (n.nodes i).log ∧
      (n.nodes j).ownKey = cString key ∧ .ims id' .sendToPeer 0 data ∈ (n.nodes j).log ∧
        .router id' .sendToPeerConfirm 0 [] 0 ∈ (n.nodes j).log := by
  obtain ⟨id, k, d, hsent, p, hp, rfl, rfl, hack⟩ :=
    ((h.traced i).log _ hconfirmed).confirmed ims v x rfl
  obtain ⟨d', htold⟩ := ((h.traced p.dst).log _ hack).confirms p.dstId 0 [] 0 rfl
  obtain ⟨q, hq, hdst, hid, hown, hcause⟩ := h.delivered htold (h.high p hp)
  obtain rfl := h.once q hq p hp hdst hid
  have hnone (hnotice : IsNotice q.cmd) : False :=
    (h.traced q.src).noNotice _ _ _ _ _ (h.asked q hp) hnotice ims k d hsent
  rcases hcause with ⟨-, i', hsent'⟩ | ⟨hcmd, -⟩ | ⟨hcmd, -⟩
  · obtain ⟨-, rfl, rfl⟩ := (h.traced q.src).sentOnce _ _ _ _ _ _ _ hsent hsent'
    exact ⟨q.srcId, q.key, d, q.dst, q.dstId, hsent, hown, htold, hack⟩
  · exact (hnone (.inl hcmd)).elim
  · exact (hnone (.inr hcmd)).elim

section Runs

variable [DecidableEq ι] {users : ι → UUID} {pems : ι → Option Text} {counters : ι → ID32}
  {events : List (NetEvent ι)}

theorem sound_of_run (hcounters : ∀ i, counters i < idBound)
    (hhonest : Run.Along Net.step Net.Honest (Net.init users pems counters) events)
    (hrun : Run.run Net.step (Net.init users pems counters) events = some n) :
    Sound (fun i => KeyManager.trim ((pems i).getD [])) n :=
  Run.invariant_of_run (Sound _) (fun _ _ _ h hok hstep => h.step hok hstep)
    (sound_init hcounters) hhonest hrun

/-- **A message reaches only those it is addressed to**: in every run, what the IMS of a node is
given under an id of its router was addressed to the key of its user. It is the text of a message
that the IMS of some node sent to this key, or it tells of an object that was updated or deleted at
a node where this key was registered for the object at that time. -/
theorem delivered_of_run (hcounters : ∀ i, counters i < idBound)
    (hhonest : Run.Along Net.step Net.Honest (Net.init users pems counters) events)
    (hrun : Run.run Net.step (Net.init users pems counters) events = some n)
    (htold : .ims id .sendToPeer v data ∈ (n.nodes j).log) (hid : idBound ≤ id) :
    ∃ i key, (n.nodes j).ownKey = cString key ∧
      ((∃ id' ims, .sent id' ims key data ∈ (n.nodes i).log) ∨
        ∃ id' cmd u version newer older,
          (n.nodes i).log = newer ++ .router id' cmd u key version :: older ∧
            key ∈ registered u older ∧
              (cmd = .notifyUpdate ∧ data = eventText "updated" u ∨
                cmd = .notifyDelete ∧ data = eventText "deleted" u)) := by
  have hsound := sound_of_run hcounters hhonest hrun
  obtain ⟨p, hp, -, -, hown, hcause⟩ := hsound.delivered htold hid
  refine ⟨p.src, p.key, hown, hcause.imp (fun hsent => ⟨p.srcId, hsent.2⟩) fun hevent => ?_⟩
  have hnotice : IsNotice p.cmd := hevent.imp And.left And.left
  -- the notice in the log of the other node is as old as its list then
  obtain ⟨newer, older, hlog, hpast⟩ := (hsound.listening p.src).told.of_mem (hsound.asked p hp)
  exact ⟨p.srcId, p.cmd, p.uuid, p.version, newer, older, hlog, (hpast hnotice).1, hevent⟩

/-- **No false receipts**: in every run, when an IMS is told that a message was confirmed, it had
sent a message to a key, and a node with this key gave just this message to its IMS, which confirmed
it. -/
theorem received_of_confirmed (hcounters : ∀ i, counters i < idBound)
    (hhonest : Run.Along Net.step Net.Honest (Net.init users pems counters) events)
    (hrun : Run.run Net.step (Net.init users pems counters) events = some n)
    (hconfirmed : .ims ims .sendToPeerConfirm v x ∈ (n.nodes i).log) :
    ∃ id key data j id', .sent id ims key data ∈ (n.nodes i).log ∧
      (n.nodes j).ownKey = cString key ∧ .ims id' .sendToPeer 0 data ∈ (n.nodes j).log ∧
        .router id' .sendToPeerConfirm 0 [] 0 ∈ (n.nodes j).log :=
  (sound_of_run hcounters hhonest hrun).received hconfirmed

end Runs

/-! ### A message and its receipt -/

section Example

def pemsOfTwo : Bool → Option Text
  | false => some ['A']
  | true => some ['B']

/-- The nodes at the start. -/
def twoNodes : Net Bool := Net.init (fun _ => 7) pemsOfTwo fun _ => 0

/-- The one node sends the other a message, which confirms it. -/
def oneMessage : List (NetEvent Bool) :=
  [.node false (.imsSend 3 0 ['B'] ['h', 'i']),
    .ask ⟨false, 0, true, 0x10000000, .findPeer, 0, ['B'], 0⟩,
    .node true (.checked 0x10000000), .node false (.peerFound 0),
    .node true (.sendToPeer 0x10000000 ['h', 'i']), .node true (.imsConfirm 0x10000000),
    .node false (.sendToPeerConfirm 0)]

theorem run_oneMessage : ∃ n : Net Bool, Run.run Net.step twoNodes oneMessage = some n ∧
    .ims 0x10000000 .sendToPeer 0 ['h', 'i'] ∈ (n.nodes true).log ∧
      .ims 3 .sendToPeerConfirm 0 [] ∈ (n.nodes false).log := by
  refine ⟨_, rfl, ?_, ?_⟩
  · exact List.mem_cons_of_mem _ (List.mem_cons_of_mem _ List.mem_cons_self)
  · exact List.mem_cons_of_mem _ List.mem_cons_self

theorem honest_oneMessage : Run.Along Net.step Net.Honest twoNodes oneMessage := by
  have hroom : (0 : ID32) + 1 < idBound := by decide
  refine Run.along_cons ⟨fun _ _ _ _ _ he => (by cases he), hroom⟩ rfl ?_
  refine Run.along_cons ⟨List.mem_cons_self, .inl rfl, le_refl _, List.forall_mem_nil _⟩ rfl ?_
  refine Run.along_cons ⟨fun _ _ _ _ _ he => (by cases he), trivial⟩ rfl ?_
  refine Run.along_cons ⟨fun _ _ _ _ _ he => (by cases he), 0, ['B'], 0, List.mem_cons_self⟩ rfl ?_
  refine Run.along_cons ⟨fun _ _ _ _ _ he => (by cases he),
    ⟨_, List.mem_cons_self, rfl, rfl, List.mem_cons_self⟩, List.mem_cons_self⟩ rfl ?_
  refine Run.along_cons ⟨fun _ _ _ _ _ he => (by cases he), ['h', 'i'], List.mem_cons_self⟩ rfl ?_
  refine Run.along_cons ⟨fun _ _ _ _ _ he => (by cases he), _, List.mem_cons_self, rfl, rfl, ?_⟩
    rfl trivial
  exact List.mem_cons_of_mem _ List.mem_cons_self

theorem delivered_of_run_oneMessage : ∃ n : Net Bool,
    Run.run Net.step twoNodes oneMessage = some n ∧
      ∃ i key, (n.nodes true).ownKey = cString key ∧
        ((∃ id' ims, .sent id' ims key ['h', 'i'] ∈ (n.nodes i).log) ∨
          ∃ id' cmd u version newer older,
            (n.nodes i).log = newer ++ .router id' cmd u key version :: older ∧
              key ∈ registered u older ∧
                (cmd = .notifyUpdate ∧ ['h', 'i'] = eventText "updated" u ∨
                  cmd = .notifyDelete ∧ ['h', 'i'] = eventText "deleted" u)) := by
  obtain ⟨n, hrun, htold, -⟩ := run_oneMessage
  exact ⟨n, hrun, delivered_of_run (fun _ => by decide) honest_oneMessage hrun htold (le_refl _)⟩

theorem received_of_confirmed_oneMessage : ∃ n : Net Bool,
    Run.run Net.step twoNodes oneMessage = some n ∧
      ∃ id key data j id', .sent id 3 key data ∈ (n.nodes false).log ∧
        (n.nodes j).ownKey = cString key ∧ .ims id' .sendToPeer 0 data ∈ (n.nodes j).log ∧
          .router id' .sendToPeerConfirm 0 [] 0 ∈ (n.nodes j).log := by
  obtain ⟨n, hrun, -, hconfirmed⟩ := run_oneMessage
  exact ⟨n, hrun, received_of_confirmed (fun _ => by decide) honest_oneMessage hrun hconfirmed⟩

end Example

end Messages

end Metax
