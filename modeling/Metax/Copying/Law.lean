import Metax.Copying.Step

/-!
# The law of copying

What is demanded of a copy request is said of the log: the new master object is a copy of the old
one with a new uuid for every piece (`IsCopyOf`), there is at most one final response, a success is
reported when everything was copied once (`Complete`), and where a copy has failed, what was copied
before is deleted.

The uuids of the pieces are those that the generator yields one after the other. The new master
object lists them all if the generator does not repeat itself.

An exception can break off the asking for the pieces: a name is no uuid, or the number of a request
is taken. What was asked for by then is copied nevertheless, and the last of it saves a new master
object that lists only that. `Whole` tells the answers after which this does not happen.
-/

namespace Metax

namespace Copying

variable {random : ℕ → UUID} {l l' : List Entry} {e : Entry} {old : Master} {m : MasterJson}
  {new : List UUID} {rid ims : ID32} {copyUuid : UUID}

/-! ### The new master object -/

/-- The uuids the generator yields from the number `k` on. -/
def drawnFrom (random : ℕ → UUID) (k n : ℕ) : List UUID :=
  (List.range n).map fun i => random (k + i)

/-- The new master object has the size, the content type and the content of the old one and lists
every piece of it, with all that is said of it, under one of the uuids. -/
structure IsCopyOf (old : Master) (new : List UUID) (m : MasterJson) : Prop where
  size : old.size = some m.size
  contentType : m.contentType = old.contentType
  content : old.content = m.content.map some
  pieces : ∃ ps : List (UUID × Piece), old.pieces = some (ps.map fun x => (some x.1, x.2)) ∧
    new.length = ps.length ∧
      (new.Nodup → ∀ u p, m.pieces.lookup u = some p ↔ (u, p) ∈ new.zip (ps.map Prod.snd))

/-- The content was sent to be saved. -/
def Saved (c : Content) (l : List Entry) : Prop :=
  ∃ id u, .saveStorage id u (some c) ∈ l ∨ ∃ n, .saveRouter id u (some c) n ∈ l

/-- The content is a copy of a master object that was read, with fresh uuids. -/
def IsCopy (random : ℕ → UUID) (l : List Entry) (m : MasterJson) : Prop :=
  ∃ old k n, .gotMaster old ∈ l ∧ IsCopyOf old (drawnFrom random k n) m

/-! ### The responses -/

/-- The entry is a final response. -/
def Entry.isAnswer : Entry → Bool
  | .respond _ _ => true
  | _ => false

/-- The final responses. -/
def answers (l : List Entry) : List Entry := l.filter Entry.isAnswer

/-- Every piece of the old object was copied under one of the uuids, and the new master object,
which lists them, was saved. -/
def Complete (random : ℕ → UUID) (l : List Entry) : Prop :=
  ∃ old k n c, .gotMaster old ∈ l ∧ IsCopyOf old (drawnFrom random k n) c.master ∧
    (∀ ps, old.pieces = some ps → ∀ x ∈ ps.zip (drawnFrom random k n),
      ∃ id u, x.1.1 = some u ∧ .copyStorage id u x.2 ∈ l ∧ .pieceCopied id x.2 ∈ l) ∧
      Saved c l ∧ ∃ id, .masterCopied id ∈ l

/-- **The law.** -/
structure Lawful (random : ℕ → UUID) (ims : ID32) (l : List Entry) : Prop where
  saved : ∀ c, Saved c l → IsCopy random l c.master
  once : answers l = [] ∨ (∃ a b, answers l = [.respond ims (.copySucceeded a b)]) ∨
    ∃ a err, answers l = [.respond ims (.copyFailed a err)]
  succeeded : ∀ i a b t, .respond i (.copySucceeded a b) :: t <:+ l → Complete random t
  told : ∀ t, .failed :: t <:+ l → answers t = [] → ∃ a err, .respond ims (.copyFailed a err) ∈ l
  undone : ∀ l' t, l = l' ++ .failed :: t → ∀ id u, .pieceCopied id u ∈ t →
    ∃ id', .deleteStorage id' u ∈ l'

/-! ### The asking is not broken off -/

/-- The numbers that the counter gives to `n` requests. -/
def numbers : ID32 → ℕ → List ID32
  | _, 0 => []
  | c, n + 1 => c :: numbers (Deletion.nextCounter c) n

/-- The pieces can be asked for: their names are uuids, and the numbers of their requests are
free. -/
structure Askable (s : Copying) (ps : List (Option UUID × Piece)) : Prop where
  names : ∀ x ∈ ps, x.1 ≠ none
  nodup : (numbers s.requestCounter ps.length).Nodup
  free : ∀ i ∈ numbers s.requestCounter ps.length, s.requests.lookup i = none

instance (s : Copying) (ps : List (Option UUID × Piece)) : Decidable (s.Askable ps) :=
  decidable_of_iff ((∀ x ∈ ps, x.1 ≠ none) ∧ (numbers s.requestCounter ps.length).Nodup ∧
      ∀ i ∈ numbers s.requestCounter ps.length, s.requests.lookup i = none)
    ⟨fun h => ⟨h.1, h.2.1, h.2.2⟩, fun h => ⟨h.names, h.nodup, h.free⟩⟩

/-- All pieces can be asked for, or not even the first one. A master object without a size, or with
a content that is no text, is given up before that. -/
def Unbroken (s : Copying) (m : Master) : Prop :=
  m.size ≠ none → m.content ≠ some none →
    ∀ ps ∈ m.pieces, s.Askable ps ∨ ¬ s.Askable (ps.take 1)

instance (s : Copying) (m : Master) : Decidable (s.Unbroken m) :=
  inferInstanceAs (Decidable (m.size ≠ none → m.content ≠ some none →
    ∀ ps ∈ m.pieces, s.Askable ps ∨ ¬ s.Askable (ps.take 1)))

/-- The master object that an answer brings. One that has to be decrypted is brought by the key
manager. -/
def Event.master : Event → Option Master
  | .storageGetData _ m none | .routerGetData _ m none | .decrypted _ m => m
  | _ => none

/-- The helper goes before the pieces are asked for. -/
def withoutHelper (s : Copying) : Event → Copying
  | .routerGetData id _ _ => s.eraseRequest id
  | _ => s

/-- The answer does not break off the asking for the pieces. -/
def Whole (s : Copying) (e : Event) : Prop := ∀ m ∈ e.master, (s.withoutHelper e).Unbroken m

instance (s : Copying) (e : Event) : Decidable (s.Whole e) :=
  inferInstanceAs (Decidable (∀ m ∈ e.master, (s.withoutHelper e).Unbroken m))

end Copying

end Metax
