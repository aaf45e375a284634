import Metax.Livestream.Data

/-!
# What a recording holds

A recording should hold the content between its start and its end (`Lawful`): the pieces of its
master object tile its size, and the saved chunks of them are that content.

A chunk is the whole buffer, so a recording also holds what was in the buffer when it started
(`Owned.live`). It holds what it should exactly if that was nothing (`lawful_iff`).

`Owned` says where each recording is: not begun, held by a livestream, or over. One that is held has
in its pieces and in the buffer together what came since its start, behind what was waiting then,
and so it goes on whatever comes and whichever others start and stop meanwhile (`owned_run`).
-/

namespace Metax

namespace Livestream

variable {s t : State} {u v rec uuid : UUID} {li : LivestreamInfo} {r : RecordingInfo}
  {p p' p'' : Posted} {c d : Bytes} {id : ID32} {R R' : UUID → Prop}

/-! ### What a recording should hold -/

/-- The pieces tile the bytes between two positions. -/
def Contiguous : ℕ → List Piece → ℕ → Prop
  | b, [], e => b = e
  | b, q :: qs, e => q.start = b ∧ Contiguous (b + q.size) qs e

/-- The chunk saved under a uuid. -/
def chunkOf (p : Posted) (u : UUID) : Option Bytes :=
  match p.lookup u with
  | some (.chunk c) => some c
  | _ => none

/-- The chunks of the pieces, one behind the other. -/
def contents (p : Posted) : List Piece → Option Bytes
  | [] => some []
  | q :: qs => (chunkOf p q.uuid).bind fun c => (contents p qs).map (c ++ ·)

/-- A recording is saved, and holds `c`. -/
def Holds (p : Posted) (recording : UUID) (c : Bytes) : Prop :=
  ∃ m, p.lookup recording = some (.master m) ∧ Contiguous 0 m.pieces m.size ∧
    contents p m.pieces = some c

/-- **The law**: a recording that goes on holds something, and one that is over holds what was
received between its start and its end. -/
def Lawful (s : State) : Prop :=
  (∀ u li, s.hosted.lookup u = some li → ∀ r ∈ li.recordings, ∃ c, Holds s.posted r.recording c) ∧
    ∀ f ∈ s.finished, Holds s.posted f.recording f.received

theorem chunkOf_eq_some : chunkOf p u = some c ↔ p.lookup u = some (.chunk c) := by
  rw [chunkOf]
  split
  · rename_i c' h
    rw [h, Option.some.injEq, Option.some.injEq, Saved.chunk.injEq]
  · rename_i h
    exact iff_of_false nofun fun hc => h c hc

/-- A piece is put behind the last one. -/
theorem Contiguous.append {a b : ℕ} {qs : List Piece} (h : Contiguous a qs b) (u : UUID) (n : ℕ) :
    Contiguous a (qs ++ [⟨u, b, n⟩]) (b + n) := by
  induction qs generalizing a with
  | nil => exact ⟨h.symm, congrArg (· + n) h⟩
  | cons q qs ih => exact ⟨h.1, ih h.2⟩

/-- Its chunk comes behind the contents. -/
theorem contents_append {qs : List Piece} {q : Piece} (h : contents p qs = some c)
    (hq : chunkOf p q.uuid = some d) : contents p (qs ++ [q]) = some (c ++ d) := by
  induction qs generalizing c with
  | nil =>
    cases h
    simp [contents, hq]
  | cons q' qs ih =>
    obtain ⟨c₁, h₁, h₂⟩ := Option.bind_eq_some_iff.mp h
    obtain ⟨c₂, h₃, rfl⟩ := Option.map_eq_some_iff.mp h₂
    rw [List.cons_append, contents, h₁, ih h₃, Option.bind_some, Option.map_some,
      List.append_assoc]

/-- A recording holds one content. -/
theorem Holds.unique (h : Holds p rec c) (h' : Holds p rec d) : c = d := by
  obtain ⟨m, hm, -, hc⟩ := h
  obtain ⟨m', hm', -, hd⟩ := h'
  cases hm.symm.trans hm'
  exact Option.some.inj (hc.symm.trans hd)

/-! ### Saves

Between two states everything that was saved stays, except the master objects in a set `R`, which
may become others.
-/

/-- What stays. -/
structure Grows (p p' : Posted) (R : UUID → Prop) : Prop where
  chunk : ∀ u c, p.lookup u = some (.chunk c) → p'.lookup u = some (.chunk c)
  master : ∀ u m, ¬ R u → p.lookup u = some (.master m) → p'.lookup u = some (.master m)
  kind : ∀ u m, p.lookup u = some (.master m) → ∃ m', p'.lookup u = some (.master m')
  playlist : ∀ u v, p.lookup u = some (.playlist v) → p'.lookup u = some (.playlist v)

/-- The two saves of a recording. -/
structure Saves (p : Posted) (r : RecordingInfo) : Prop where
  master : ∃ m, p.lookup r.recording = some (.master m)
  playlist : p.lookup r.uuid = some (.playlist r.recording)

/-- What is saved stays, from step to step. -/
theorem Grows.refl (p : Posted) : Grows p p R where
  chunk _ _ h := h
  master _ _ _ h := h
  kind _ m h := ⟨m, h⟩
  playlist _ _ h := h

theorem Grows.trans (h : Grows p p' R) (h' : Grows p' p'' R') :
    Grows p p'' fun u => R u ∨ R' u where
  chunk u c hc := h'.chunk u c (h.chunk u c hc)
  master u m hu hm := h'.master u m (fun h => hu (.inr h)) (h.master u m (fun h => hu (.inl h)) hm)
  kind u m hm := by
    obtain ⟨m', hm'⟩ := h.kind u m hm
    exact h'.kind u m' hm'
  playlist u v hv := h'.playlist u v (h.playlist u v hv)

theorem Grows.mono (h : Grows p p' R) (hR : ∀ u, R u → R' u) : Grows p p' R' :=
  { h with master := fun u m hu => h.master u m fun hu' => hu (hR u hu') }

/-- A save under a new uuid. -/
theorem grows_insert (hnew : p.lookup u = none) (x : Saved) :
    Grows p (p.insert u x) fun _ => False := by
  have hkeep {w : UUID} {y : Saved} (hy : p.lookup w = some y) :
      (p.insert u x).lookup w = some y := by
    refine (AList.lookup_insert_ne fun hw => ?_).trans hy
    rw [hw, hnew] at hy
    cases hy
  exact ⟨fun _ _ => hkeep, fun _ _ _ => hkeep, fun _ m h => ⟨m, hkeep h⟩, fun _ _ => hkeep⟩

theorem Saves.ne (h : Saves p r) {r' : RecordingInfo} (h' : Saves p r') :
    r.recording ≠ r'.uuid := by
  intro heq
  obtain ⟨m, hm⟩ := h.master
  rw [heq, h'.playlist] at hm
  cases hm

/-- The two saves of a recording stay. -/
theorem Saves.mono (h : Saves p r) (hgrows : Grows p p' R) : Saves p' r := by
  obtain ⟨m, hm⟩ := h.master
  exact ⟨hgrows.kind _ _ hm, hgrows.playlist _ _ h.playlist⟩

theorem lookup_postRecording (h : Saves p r) :
    (postRecording p r).lookup r.recording = some (.master r.master) := by
  rw [postRecording, AList.lookup_insert_ne (h.ne h), AList.lookup_insert]

/-- **A recording is saved.** Only its own master object changes. -/
theorem grows_postRecording (h : Saves p r) :
    Grows p (postRecording p r) fun u => u = r.recording := by
  obtain ⟨m, hm⟩ := h.master
  have hlookup (w : UUID) : (postRecording p r).lookup w =
      if w = r.uuid then some (.playlist r.recording)
      else if w = r.recording then some (.master r.master) else p.lookup w := by
    rw [postRecording, Ledger.lookup_insert_ite, Ledger.lookup_insert_ite]
  constructor
  · intro w c hc
    rw [hlookup, if_neg, if_neg, hc]
    · rintro rfl
      rw [hm] at hc
      cases hc
    · rintro rfl
      rw [h.playlist] at hc
      cases hc
  · intro w m' hw hm'
    rw [hlookup, if_neg, if_neg hw, hm']
    rintro rfl
    rw [h.playlist] at hm'
    cases hm'
  · intro w m' hm'
    rw [hlookup, if_neg]
    · split_ifs
      · exact ⟨_, rfl⟩
      · exact ⟨m', hm'⟩
    · rintro rfl
      rw [h.playlist] at hm'
      cases hm'
  · intro w x hx
    rw [hlookup]
    split_ifs with hw hw'
    · rw [← hx, hw, h.playlist]
    · rw [hw', hm] at hx
      cases hx
    · exact hx

/-- All recordings of a livestream are saved. -/
theorem grows_foldl {rs : List RecordingInfo} (h : ∀ r ∈ rs, Saves p r) :
    Grows p (rs.foldl postRecording p) fun u => ∃ r ∈ rs, r.recording = u := by
  induction rs generalizing p with
  | nil => exact Grows.refl p
  | cons r rs ih =>
    have hpost := grows_postRecording (h r List.mem_cons_self)
    have hrest := ih fun r' hr' => (h r' (List.mem_cons_of_mem _ hr')).mono hpost
    refine (hpost.trans hrest).mono ?_
    rintro w (rfl | ⟨r', hr', rfl⟩)
    · exact ⟨r, List.mem_cons_self, rfl⟩
    · exact ⟨r', List.mem_cons_of_mem _ hr', rfl⟩

/-- Recordings that end together are saved each under its own uuid. -/
theorem lookup_foldl {rs : List RecordingInfo} (h : ∀ r ∈ rs, Saves p r)
    (hnodup : (rs.map RecordingInfo.recording).Nodup) (hr : r ∈ rs) :
    (rs.foldl postRecording p).lookup r.recording = some (.master r.master) := by
  induction rs generalizing p with
  | nil => cases hr
  | cons r' rs ih =>
    rw [List.map_cons, List.nodup_cons] at hnodup
    have hpost := grows_postRecording (h r' List.mem_cons_self)
    have hsaves : ∀ r ∈ rs, Saves (postRecording p r') r := fun r hr =>
      (h r (List.mem_cons_of_mem _ hr)).mono hpost
    rw [List.foldl_cons]
    obtain rfl | hr := List.mem_cons.mp hr
    · refine (grows_foldl hsaves).master _ _ ?_ (lookup_postRecording (h r List.mem_cons_self))
      rintro ⟨q, hq, hrec⟩
      exact hnodup.1 (List.mem_map.mpr ⟨q, hq, hrec⟩)
    · exact ih hsaves hnodup.2 hr

theorem contents_mono (hgrows : Grows p p' R) {qs : List Piece} (h : contents p qs = some c) :
    contents p' qs = some c := by
  induction qs generalizing c with
  | nil => exact h
  | cons q qs ih =>
    obtain ⟨c₁, h₁, h₂⟩ := Option.bind_eq_some_iff.mp h
    obtain ⟨c₂, h₃, rfl⟩ := Option.map_eq_some_iff.mp h₂
    have h₁' : chunkOf p' q.uuid = some c₁ :=
      chunkOf_eq_some.mpr (hgrows.chunk _ _ (chunkOf_eq_some.mp h₁))
    rw [contents, h₁', ih h₃, Option.bind_some, Option.map_some]

/-- A recording that is over holds what it held. -/
theorem Holds.mono (h : Holds p rec c) (hgrows : Grows p p' R) (hrec : ¬ R rec) :
    Holds p' rec c := by
  obtain ⟨m, hm, hcont, hc⟩ := h
  exact ⟨m, hgrows.master _ _ hrec hm, hcont, contents_mono hgrows hc⟩

/-! ### Recordings that go on -/

/-- A recording of a livestream: with the buffer it holds what was waiting when it started and what
was heard since. -/
structure Live (p : Posted) (li : LivestreamInfo) (r : RecordingInfo) : Prop where
  master : p.lookup r.recording = some (.master r.master)
  playlist : p.lookup r.uuid = some (.playlist r.recording)
  contiguous : Contiguous 0 r.master.pieces r.master.size
  heard : r.heardBefore ≤ li.heard.length
  content : ∃ c, contents p r.master.pieces = some c ∧
    c ++ li.recChunk = r.waiting ++ li.heard.drop r.heardBefore

theorem Live.saves (h : Live p li r) : Saves p r := ⟨⟨_, h.master⟩, h.playlist⟩

/-- One that goes on does, as long as its master object is not saved again. -/
theorem Live.mono (h : Live p li r) (hgrows : Grows p p' R) (hrec : ¬ R r.recording) :
    Live p' li r := by
  obtain ⟨c, hc, heq⟩ := h.content
  exact ⟨hgrows.master _ _ hrec h.master, hgrows.playlist _ _ h.playlist, h.contiguous, h.heard,
    c, contents_mono hgrows hc, heq⟩

/-- **The buffer becomes a piece.** The recording then holds all that it should and what was waiting
when it started. -/
theorem Live.addChunk (h : Live p li r) (hnew : p.lookup uuid = none)
    (hgrows : Grows (p.insert uuid (.chunk li.recChunk)) p' R) :
    Contiguous 0 (r.addChunk li uuid).master.pieces (r.addChunk li uuid).master.size ∧
      contents p' (r.addChunk li uuid).master.pieces =
        some (r.waiting ++ li.heard.drop r.heardBefore) := by
  obtain ⟨c, hc, heq⟩ := h.content
  refine ⟨h.contiguous.append uuid _, ?_⟩
  rw [← heq]
  refine contents_append (contents_mono ((grows_insert hnew _).trans hgrows) hc) ?_
  exact chunkOf_eq_some.mpr (hgrows.chunk _ _ (AList.lookup_insert _))

/-! ### Owners

Every recording is in one place only: it is about to start, it is in the list of a livestream, or it
is over.
-/

/-- Where a recording is. -/
inductive Owner
  | pending (id : ID32)
  | live (u : UUID)
  | ended
  deriving DecidableEq

/-- The invariant, for the owners of the recordings. -/
structure Owned (own : UUID → Owner) (s : State) : Prop where
  live : ∀ u li, s.hosted.lookup u = some li → ∀ r ∈ li.recordings,
    own r.recording = .live u ∧ Live s.posted li r
  nodup : ∀ u li, s.hosted.lookup u = some li →
    (li.recordings.map RecordingInfo.recording).Nodup
  pending : ∀ id u rec, s.requests.lookup id = some (.recordingStart u (some rec)) →
    own rec = .pending id ∧ s.posted.lookup rec = some (.master .template)
  ended : ∀ f ∈ s.finished, own f.recording = .ended ∧
    Holds s.posted f.recording (f.waiting ++ f.received)

variable {own : UUID → Owner}

theorem owned_init (enableHosting : Bool) (own : UUID → Owner) :
    Owned own (.init enableHosting) := by
  constructor
  · intro u li h
    cases h
  · intro u li h
    cases h
  · intro id u rec h
    cases h
  · intro f hf
    cases hf

/-- Requests go. -/
theorem Owned.setRequests (h : Owned own s) {requests : Ledger.Table ID32 Request}
    (hreq : ∀ id u rec, requests.lookup id = some (.recordingStart u (some rec)) →
      s.requests.lookup id = some (.recordingStart u (some rec))) :
    Owned own { s with requests } :=
  ⟨h.live, h.nodup, fun id u rec hid => h.pending id u rec (hreq id u rec hid), h.ended⟩

theorem Owned.eraseRequest (h : Owned own s) (id : ID32) :
    Owned own { s with requests := s.requests.erase id } := by
  refine h.setRequests fun id' u rec hid => ?_
  obtain ⟨-, hid⟩ := Ledger.of_lookup_erase hid
  exact hid

/-- **A livestream changes**, and what it saves. Recordings of other livestreams stay what they are,
and none that is about to start or is over changes. -/
theorem Owned.setHosted (h : Owned own s) {own' : UUID → Owner}
    {hosted : Ledger.Table UUID LivestreamInfo} {finished : List Finished}
    (hgrows : Grows s.posted p' fun w => own w = .live u)
    (howner : ∀ w, own w ≠ .live u → own' w = own w)
    (hother : ∀ v, v ≠ u → hosted.lookup v = s.hosted.lookup v)
    (hlive : ∀ li, hosted.lookup u = some li →
      ∀ r ∈ li.recordings, own' r.recording = .live u ∧ Live p' li r)
    (hnodup : ∀ li, hosted.lookup u = some li →
      (li.recordings.map RecordingInfo.recording).Nodup)
    (hover : ∀ f ∈ finished, own' f.recording = .ended ∧
      Holds p' f.recording (f.waiting ++ f.received)) :
    Owned own' { s with posted := p', hosted, finished := s.finished ++ finished } := by
  constructor
  · intro v li hli r hr
    by_cases hv : v = u
    · rw [hv] at hli ⊢
      exact hlive li hli r hr
    · obtain ⟨hown, hr⟩ := h.live v li ((hother v hv).symm.trans hli) r hr
      have hne : own r.recording ≠ .live u := by
        rw [hown]
        exact fun heq => hv (Owner.live.inj heq)
      exact ⟨(howner _ hne).trans hown, hr.mono hgrows hne⟩
  · intro v li hli
    by_cases hv : v = u
    · rw [hv] at hli
      exact hnodup li hli
    · exact h.nodup v li ((hother v hv).symm.trans hli)
  · intro id v rec hid
    obtain ⟨hown, hposted⟩ := h.pending id v rec hid
    have hne : own rec ≠ .live u := by
      rw [hown]
      exact Owner.noConfusion
    exact ⟨(howner _ hne).trans hown, hgrows.master _ _ hne hposted⟩
  · intro f hf
    obtain hf | hf := List.mem_append.mp hf
    · obtain ⟨hown, hholds⟩ := h.ended f hf
      have hne : own f.recording ≠ .live u := by
        rw [hown]
        exact Owner.noConfusion
      exact ⟨(howner _ hne).trans hown, hholds.mono hgrows hne⟩
    · exact hover f hf

/-- **A request to record.** Its recording has a new uuid. -/
theorem Owned.createMaster (h : Owned own s) (hnew : s.posted.lookup uuid = none) :
    Owned (Function.update own uuid (.pending id))
      (createAndSaveMasterForRecording s id u uuid) := by
  have hgrows := grows_insert hnew (.master .template)
  have howner {w : UUID} {x : Saved} (hw : s.posted.lookup w = some x) :
      Function.update own uuid (.pending id) w = own w := by
    refine Function.update_of_ne (fun heq => ?_) _ _
    rw [heq, hnew] at hw
    cases hw
  constructor
  · intro v li hli r hr
    obtain ⟨hown, hr⟩ := h.live v li hli r hr
    exact ⟨(howner hr.master).trans hown, hr.mono hgrows not_false⟩
  · exact h.nodup
  · intro id' v rec hrec
    have hlookup : (s.requests.insert id (.recordingStart u (some uuid))).lookup id' =
        some (.recordingStart v (some rec)) := hrec
    obtain ⟨hid', hrec⟩ | ⟨-, hlookup⟩ := Ledger.eq_or_of_lookup_insert hlookup
    · cases hrec
      rw [hid', Function.update_self]
      exact ⟨rfl, AList.lookup_insert _⟩
    · obtain ⟨hown, hposted⟩ := h.pending id' v rec hlookup
      exact ⟨(howner hposted).trans hown, hgrows.master _ _ not_false hposted⟩
  · intro f hf
    obtain ⟨hown, hholds⟩ := h.ended f hf
    have hposted := hholds
    obtain ⟨m, hm, -⟩ := hposted
    exact ⟨(howner hm).trans hown, hholds.mono hgrows not_false⟩

/-- A recording that is about to start gets to a livestream. -/
theorem Owned.claim (h : Owned own s)
    (hid : s.requests.lookup id = some (.recordingStart u (some rec))) :
    Owned (Function.update own rec (.live u)) { s with requests := s.requests.erase id } := by
  have howner {w : UUID} (hw : own w ≠ .pending id) :
      Function.update own rec (.live u) w = own w := by
    refine Function.update_of_ne (fun heq => hw ?_) _ _
    rw [heq]
    exact (h.pending id u rec hid).1
  constructor
  · intro v li hli r hr
    obtain ⟨hown, hr⟩ := h.live v li hli r hr
    refine ⟨(howner ?_).trans hown, hr⟩
    rw [hown]
    exact Owner.noConfusion
  · exact h.nodup
  · intro id' v rec' hrec
    have hlookup : (s.requests.erase id).lookup id' = some (.recordingStart v (some rec')) := hrec
    obtain ⟨hne, hlookup⟩ := Ledger.of_lookup_erase hlookup
    obtain ⟨hown, hposted⟩ := h.pending id' v rec' hlookup
    refine ⟨(howner ?_).trans hown, hposted⟩
    rw [hown]
    exact fun heq => hne (Owner.pending.inj heq)
  · intro f hf
    obtain ⟨hown, hholds⟩ := h.ended f hf
    refine ⟨(howner ?_).trans hown, hholds⟩
    rw [hown]
    exact Owner.noConfusion

/-! ### The handlers -/

/-- **The buffer is saved for all recordings.** -/
theorem addLivestreamChunkToAllRecordings_spec (hlive : ∀ r ∈ li.recordings, Live p li r)
    (hnodup : (li.recordings.map RecordingInfo.recording).Nodup) (hnew : p.lookup uuid = none) :
    ∃ p', addLivestreamChunkToAllRecordings p li uuid =
        (p', { li with recordings := li.recordings.map (RecordingInfo.addChunk li uuid) }) ∧
      (Grows p p' fun w => ∃ r ∈ li.recordings, r.recording = w) ∧
      ∀ r ∈ li.recordings, p'.lookup r.recording = some (.master (r.addChunk li uuid).master) ∧
        Contiguous 0 (r.addChunk li uuid).master.pieces (r.addChunk li uuid).master.size ∧
        contents p' (r.addChunk li uuid).master.pieces =
          some (r.waiting ++ li.heard.drop r.heardBefore) := by
  rw [addLivestreamChunkToAllRecordings]
  split_ifs with hempty
  · refine ⟨p, ?_, Grows.refl p, fun r hr => ?_⟩
    · cases li
      cases hempty
      rfl
    · rw [hempty] at hr
      cases hr
  · have hchunk := grows_insert hnew (.chunk li.recChunk)
    have hsaves : ∀ r ∈ li.recordings.map (RecordingInfo.addChunk li uuid),
        Saves (p.insert uuid (.chunk li.recChunk)) r := by
      intro q hq
      obtain ⟨r, hr, rfl⟩ := List.mem_map.mp hq
      have hsaves := (hlive r hr).saves.mono hchunk
      exact ⟨hsaves.master, hsaves.playlist⟩
    have hnames : (li.recordings.map (RecordingInfo.addChunk li uuid)).map
        RecordingInfo.recording = li.recordings.map RecordingInfo.recording := by
      rw [List.map_map]
      rfl
    have hfold := grows_foldl hsaves
    refine ⟨_, rfl, (hchunk.trans hfold).mono ?_, fun r hr => ?_⟩
    · rintro w (hw | ⟨q, hq, rfl⟩)
      · exact hw.elim
      · obtain ⟨r, hr, rfl⟩ := List.mem_map.mp hq
        exact ⟨r, hr, rfl⟩
    · exact ⟨lookup_foldl hsaves (by rwa [hnames]) (List.mem_map_of_mem hr),
        (hlive r hr).addChunk hnew hfold⟩

/-- **Content comes** and waits in the buffer. -/
theorem Live.hear (h : Live p li r) (n : ℕ) :
    Live p { li with
      heard := li.heard ++ d
      recChunk := li.recChunk ++ d
      recChunkSize := n } r := by
  obtain ⟨c, hc, heq⟩ := h.content
  refine ⟨h.master, h.playlist, h.contiguous, ?_, c, hc, ?_⟩
  · exact h.heard.trans (by rw [List.length_append]; exact Nat.le_add_right _ _)
  · dsimp only
    rw [List.drop_append_of_le_length h.heard, ← List.append_assoc, heq, List.append_assoc]

/-- **Content comes in.** -/
theorem addContentToRecordingChunk_spec (hlive : ∀ r ∈ li.recordings, Live p li r)
    (hnodup : (li.recordings.map RecordingInfo.recording).Nodup) (hnew : p.lookup uuid = none)
    (d : Bytes) (origSize : ℕ) :
    ∃ p' li', addContentToRecordingChunk p { li with heard := li.heard ++ d } d origSize uuid =
        (p', li') ∧
      (Grows p p' fun w => ∃ r ∈ li.recordings, r.recording = w) ∧
      li'.recordings.map RecordingInfo.recording = li.recordings.map RecordingInfo.recording ∧
      ∀ r ∈ li'.recordings, Live p' li' r := by
  rw [addContentToRecordingChunk]
  by_cases hempty : li.recordings = []
  · rw [if_pos hempty]
    refine ⟨_, _, rfl, Grows.refl p, rfl, fun r hr => ?_⟩
    have hr' : r ∈ li.recordings := hr
    rw [hempty] at hr'
    cases hr'
  · obtain ⟨li', hli'⟩ : ∃ li' : LivestreamInfo, li' = { li with
        heard := li.heard ++ d
        recChunk := li.recChunk ++ d
        recChunkSize := (li.recChunkSize + origSize) % 2 ^ 32 } := ⟨_, rfl⟩
    have hrecs : li'.recordings = li.recordings := by rw [hli']
    have hhear : ∀ r ∈ li'.recordings, Live p li' r := by
      intro r hr
      rw [hli']
      exact (hlive r (hrecs ▸ hr)).hear _
    rw [if_neg hempty]
    dsimp only
    split_ifs <;> rw [← hli']
    · rw [← hrecs] at hnodup
      obtain ⟨p', heq, hgrows, hsaved⟩ :=
        addLivestreamChunkToAllRecordings_spec hhear hnodup hnew
      rw [heq, ← hrecs]
      refine ⟨_, _, rfl, hgrows, ?_, fun q hq => ?_⟩
      · rw [List.map_map]
        rfl
      · obtain ⟨r, hr, rfl⟩ := List.mem_map.mp hq
        obtain ⟨hmaster, hcont, hcontents⟩ := hsaved r hr
        have hr' := hhear r hr
        exact ⟨hmaster, hgrows.playlist _ _ hr'.playlist, hcont, hr'.heard, _, hcontents,
          List.append_nil _⟩
    · exact ⟨_, _, rfl, Grows.refl p, congrArg _ hrecs, hhear⟩

/-- A livestream changes, and no recording ends. -/
theorem Owned.update (h : Owned own s) {li' : LivestreamInfo}
    (hgrows : Grows s.posted p' fun w => own w = .live u)
    (hlive : ∀ r ∈ li'.recordings, own r.recording = .live u ∧ Live p' li' r)
    (hnodup : (li'.recordings.map RecordingInfo.recording).Nodup) :
    Owned own { s with posted := p', hosted := s.hosted.insert u li' } := by
  have hset : Owned own { s with
      posted := p'
      hosted := s.hosted.insert u li'
      finished := s.finished ++ [] } := by
    refine h.setHosted hgrows (fun _ _ => rfl) (fun v hv => AList.lookup_insert_ne hv)
      (fun li hli => ?_) (fun li hli => ?_) (List.forall_mem_nil _)
    · rw [AList.lookup_insert] at hli
      exact Option.some.inj hli ▸ hlive
    · rw [AList.lookup_insert] at hli
      exact Option.some.inj hli ▸ hnodup
  rwa [List.append_nil] at hset

/-- **The buffer is full**: it becomes the next chunk of all recordings of its livestream. -/
theorem Owned.content (h : Owned own s) (hnew : s.posted.lookup uuid = none) (d : Bytes)
    (origSize : ℕ) : Owned own (handleRouterLivestreamContent s u d origSize uuid) := by
  rw [handleRouterLivestreamContent]
  cases hli : s.hosted.lookup u with
  | none => exact h
  | some li =>
    rw [Option.elim_some]
    have hlive := h.live u li hli
    obtain ⟨p', li', heq, hgrows, hnames, hlive'⟩ := addContentToRecordingChunk_spec
      (fun r hr => (hlive r hr).2) (h.nodup u li hli) hnew d origSize
    rw [heq]
    refine h.update (hgrows.mono ?_) (fun r hr => ⟨?_, hlive' r hr⟩) (hnames ▸ h.nodup u li hli)
    · rintro w ⟨r, hr, rfl⟩
      exact (hlive r hr).1
    · have hmem : r.recording ∈ li.recordings.map RecordingInfo.recording :=
        hnames ▸ List.mem_map_of_mem hr
      obtain ⟨r', hr', heq'⟩ := List.mem_map.mp hmem
      rw [← heq']
      exact (hlive r' hr').1

/-- A new livestream has no recordings. -/
theorem Owned.saveStream (h : Owned own s) :
    Owned own (processRouterSaveStreamRequest s id u) := by
  have hreq {id' : ID32} {v rec : UUID}
      (hlookup : (s.requests.insert id (.saveStream u)).lookup id' =
        some (.recordingStart v (some rec))) :
      s.requests.lookup id' = some (.recordingStart v (some rec)) := by
    obtain ⟨-, hrec⟩ | ⟨-, hlookup⟩ := Ledger.eq_or_of_lookup_insert hlookup
    · cases hrec
    · exact hlookup
  rw [processRouterSaveStreamRequest]
  cases hli : s.hosted.lookup u with
  | none =>
    have hset := h.setRequests fun id' v rec => hreq
    exact hset.update (Grows.refl _) (List.forall_mem_nil _) List.nodup_nil
  | some li =>
    have hset := h.setRequests fun id' v rec => hreq
    have herase := hset.eraseRequest li.requestId
    refine herase.update (Grows.refl _) (fun r hr => ?_) (h.nodup u li hli)
    obtain ⟨hown, hr⟩ := h.live u li hli r hr
    exact ⟨hown, hr.master, hr.playlist, hr.contiguous, hr.heard, hr.content⟩

/-- **A recording starts.** It has what is in the buffer to come. -/
theorem Owned.start (h : Owned own s)
    (hid : s.requests.lookup id = some (.recordingStart u (some rec)))
    (hnew : s.posted.lookup uuid = none)
    (ht : handleSaveConfirmForRecordingStart s id u rec uuid = some t) :
    Owned (Function.update own rec (.live u)) t := by
  obtain ⟨li, hli, rfl⟩ := Option.map_eq_some_iff.mp ht
  obtain ⟨hpending, hposted⟩ := h.pending id u rec hid
  have hclaim := h.claim hid
  have hgrows := grows_insert hnew (.playlist rec)
  have hold : ∀ r ∈ li.recordings, Function.update own rec (.live u) r.recording = .live u ∧
      Live s.posted li r := hclaim.live u li hli
  refine hclaim.update (hgrows.mono fun _ hw => hw.elim) (fun r hr => ?_) ?_
  · obtain hr | hr := List.mem_append.mp hr
    · obtain ⟨hown, hr⟩ := hold r hr
      have hr := hr.mono hgrows not_false
      exact ⟨hown, hr.master, hr.playlist, hr.contiguous, hr.heard, hr.content⟩
    · cases List.mem_singleton.mp hr
      refine ⟨Function.update_self _ _ _, hgrows.master _ _ not_false hposted,
        AList.lookup_insert _, rfl, le_rfl, [], rfl, ?_⟩
      rw [List.nil_append, List.drop_length, List.append_nil]
  · rw [List.map_append, List.nodup_append]
    refine ⟨h.nodup u li hli, List.nodup_singleton _, fun w hw w' hw' heq => ?_⟩
    obtain ⟨r, hr, rfl⟩ := List.mem_map.mp hw
    have hown := (h.live u li hli r hr).1
    rw [heq, List.mem_singleton.mp hw'] at hown
    cases hpending.symm.trans hown

/-- **A recording is stopped.** The buffer becomes its last piece. -/
theorem Owned.stop (h : Owned own s) (hli : s.hosted.lookup u = some li)
    (hnew : s.posted.lookup uuid = none) (playlist : UUID) :
    ∃ own', Owned own' (stopRecording s u li playlist uuid) := by
  rw [stopRecording]
  cases hfind : li.recordings.find? fun r => r.uuid = playlist with
  | none => exact ⟨own, h⟩
  | some r =>
    have hr : r ∈ li.recordings := List.mem_of_find?_eq_some hfind
    obtain ⟨r', l₁, l₂, hl₁, hr', hlist, herase⟩ :=
      List.exists_of_eraseP hr (List.find?_some hfind)
    obtain rfl : r = r' := by
      have hfind' : (l₁ ++ r' :: l₂).find? (fun r => r.uuid = playlist) = some r' :=
        List.find?_eq_some_iff_append.mpr
          ⟨hr', l₁, l₂, rfl, fun a ha => by simpa using hl₁ a ha⟩
      exact Option.some.inj (hfind.symm.trans (hlist ▸ hfind'))
    obtain ⟨hown, hlive⟩ := h.live u li hli r hr
    have hchunk := grows_insert hnew (.chunk li.recChunk)
    have hsaves : Saves (s.posted.insert uuid (.chunk li.recChunk)) (r.addChunk li uuid) :=
      ⟨(hlive.saves.mono hchunk).master, (hlive.saves.mono hchunk).playlist⟩
    have hpost := grows_postRecording hsaves
    have hgrows : Grows s.posted _ fun w => w = r.recording :=
      (hchunk.trans hpost).mono fun w hw => hw.resolve_left id
    have hrest : ∀ q ∈ l₁ ++ l₂, q ∈ li.recordings ∧ q.recording ≠ r.recording := by
      have hnodup := h.nodup u li hli
      rw [hlist, List.map_append, List.map_cons] at hnodup
      have hnotMem := (List.nodup_middle.mp hnodup).notMem
      intro q hq
      refine ⟨hlist ▸ ?_, fun heq => hnotMem ?_⟩
      · exact List.mem_append.mpr ((List.mem_append.mp hq).imp_right (List.mem_cons_of_mem _))
      · rw [← List.map_append, ← heq]
        exact List.mem_map_of_mem hq
    refine ⟨Function.update own r.recording .ended,
      h.setHosted (hgrows.mono fun w hw => hw ▸ hown) (fun w hw => ?_)
        (fun v hv => AList.lookup_insert_ne hv) (fun li' hli' q hq => ?_) (fun li' hli' => ?_)
        (List.forall_mem_singleton.mpr ⟨Function.update_self _ _ _, ?_⟩)⟩
    · refine Function.update_of_ne (fun heq => hw ?_) _ _
      rw [heq, hown]
    · rw [AList.lookup_insert, herase] at hli'
      cases hli'
      obtain ⟨hq, hne⟩ := hrest q hq
      obtain ⟨hownq, hq⟩ := h.live u li hli q hq
      have hq := hq.mono hgrows hne
      exact ⟨(Function.update_of_ne hne _ _).trans hownq, hq.master, hq.playlist, hq.contiguous,
        hq.heard, hq.content⟩
    · rw [AList.lookup_insert, herase] at hli'
      cases hli'
      have hnodup := h.nodup u li hli
      rw [hlist, List.map_append, List.map_cons] at hnodup
      rw [List.map_append]
      exact (List.nodup_middle.mp hnodup).of_cons
    · obtain ⟨hcont, hcontents⟩ := hlive.addChunk hnew hpost
      exact ⟨_, lookup_postRecording hsaves, hcont, hcontents⟩

/-- **A livestream ends.** The buffer becomes the last piece of all its recordings. -/
theorem Owned.cleanUp (h : Owned own s) (hnew : s.posted.lookup uuid = none)
    (ht : cleanUpHostedLivestream s id u uuid = some t) : ∃ own', Owned own' t := by
  obtain ⟨li, hli, ht⟩ := Option.bind_eq_some_iff.mp ht
  split_ifs at ht
  have hlive := h.live u li hli
  obtain ⟨p', heq, hgrows, hsaved⟩ := addLivestreamChunkToAllRecordings_spec
    (fun r hr => (hlive r hr).2) (h.nodup u li hli) hnew
  dsimp only at ht
  rw [heq] at ht
  obtain rfl := Option.some.inj ht
  have hnone {li' : LivestreamInfo} : (s.hosted.erase u).lookup u ≠ some li' := by
    rw [AList.lookup_erase]
    intro hnone
    cases hnone
  refine ⟨fun w => if own w = .live u then .ended else own w,
    (h.setHosted (hgrows.mono ?_) (fun w hw => if_neg hw) (fun v hv => AList.lookup_erase_ne hv)
      (fun li' hli' => (hnone hli').elim) (fun li' hli' => (hnone hli').elim)
      (fun f hf => ?_)).eraseRequest id⟩
  · rintro w ⟨r, hr, rfl⟩
    exact (hlive r hr).1
  · obtain ⟨q, hq, rfl⟩ := List.mem_map.mp hf
    obtain ⟨r, hr, rfl⟩ := List.mem_map.mp hq
    obtain ⟨hmaster, hcont, hcontents⟩ := hsaved r hr
    exact ⟨if_pos (hlive r hr).1, _, hmaster, hcont, hcontents⟩

/-- **Step lemma.** -/
theorem owned_step {e : Event} (h : Owned own s) (hfresh : Fresh s e) (ht : step s e = some t) :
    ∃ own', Owned own' t := by
  cases e with
  | saveStream id u =>
    rw [step, handleRouterSaveStreamRequest] at ht
    split_ifs at ht
    · obtain rfl := Option.some.inj ht
      exact ⟨own, h.saveStream⟩
    · obtain rfl := Option.some.inj ht
      exact ⟨own, h⟩
  | content u d origSize uuid =>
    obtain rfl := Option.some.inj ht
    exact ⟨own, h.content (hfresh uuid rfl) d origSize⟩
  | routerRecordingStart id u uuid =>
    rw [step, handleRouterRecordingStart] at ht
    split_ifs at ht
    · obtain rfl := Option.some.inj ht
      exact ⟨own, h⟩
    · obtain rfl := Option.some.inj ht
      -- a recording that is started has a master object of its own, under a name nobody used
      exact ⟨_, h.createMaster (hfresh uuid rfl)⟩
  | imsRecordingStart id u uuid =>
    rw [step, handleImsRecordingStart] at ht
    split_ifs at ht
    · obtain rfl := Option.some.inj ht
      refine ⟨own, h.setRequests fun id' v rec hid => ?_⟩
      obtain ⟨-, hrec⟩ | ⟨-, hid⟩ := Ledger.eq_or_of_lookup_insert hid
      · cases hrec
      · exact hid
    · obtain rfl := Option.some.inj ht
      exact ⟨_, h.createMaster (hfresh uuid rfl)⟩
  | saveConfirm id uuid =>
    rw [step, handleStorageSaveConfirm] at ht
    -- the recording comes to be under the name of its first file
    split at ht
    · rename_i u rec hid
      exact ⟨_, h.start hid (hfresh uuid rfl) ht⟩
    · obtain rfl := Option.some.inj ht
      exact ⟨own, h⟩
  | noSpace id =>
    obtain rfl := Option.some.inj ht
    rw [handleStorageNoSpace]
    split
    · exact ⟨own, h.eraseRequest id⟩
    · exact ⟨own, h⟩
  -- a stop without a stream or a playlist does nothing
  | recordingStop u playlist uuid =>
    obtain rfl := Option.some.inj ht
    rw [handleRecordingStop]
    cases hli : s.hosted.lookup u with
    | none => exact ⟨own, h⟩
    | some li =>
      cases playlist with
      | none => exact ⟨own, h⟩
      | some playlist => exact h.stop hli (hfresh uuid rfl) playlist
  -- only the request that feeds the recording ends it
  | cancel id uuid =>
    rw [step, handleRouterCancel] at ht
    split at ht
    · obtain rfl := Option.some.inj ht
      exact ⟨own, h⟩
    · exact h.cleanUp (hfresh uuid rfl) ht
    · obtain rfl := Option.some.inj ht
      exact ⟨own, h.eraseRequest id⟩

theorem Owned.lawful_iff_exact (h : Owned own s) :
    Lawful s ↔ ∀ f ∈ s.finished, f.waiting = [] := by
  constructor
  · intro hlawful f hf
    have hheld := (h.ended f hf).2.unique (hlawful.2 f hf)
    exact List.append_left_eq_self.mp hheld
  · intro hempty
    refine ⟨fun u li hli r hr => ?_, fun f hf => ?_⟩
    · obtain ⟨-, hr⟩ := h.live u li hli r hr
      obtain ⟨c, hc, -⟩ := hr.content
      exact ⟨c, _, hr.master, hr.contiguous, hc⟩
    · have hheld := (h.ended f hf).2
      rwa [hempty f hf, List.nil_append] at hheld

/-- The run lemma. -/
theorem owned_run {enableHosting : Bool} {es : List Event}
    (hfresh : Run.Along step Fresh (.init enableHosting) es)
    (hrun : Run.run step (.init enableHosting) es = some s) : ∃ own, Owned own s :=
  Run.invariant_of_run (fun s => ∃ own, Owned own s)
    (fun _ _ _ h hok ht => h.elim fun _ h => owned_step h hok ht)
    ⟨fun _ => .ended, owned_init enableHosting _⟩ hfresh hrun

/-- **Recordings hold what they should** exactly if nothing was in the buffer when they started. -/
theorem lawful_iff (enableHosting : Bool) (es : List Event)
    (hfresh : Run.Along step Fresh (.init enableHosting) es)
    (hrun : Run.run step (.init enableHosting) es = some s) :
    Lawful s ↔ ∀ f ∈ s.finished, f.waiting = [] := by
  obtain ⟨own, hown⟩ := owned_run hfresh hrun
  exact hown.lawful_iff_exact

/-- Two recordings start together. One is stopped, and the other one holds on to the end. -/
def together : List Event :=
  [.saveStream 1 7, .imsRecordingStart 2 7 10, .routerRecordingStart 3 7 11, .saveConfirm 2 12,
    .saveConfirm 3 13, .content 7 [1, 2] 2 14, .recordingStop 7 (some 12) 15, .content 7 [3] 1 16,
    .cancel 1 17]

/-- Both recordings hold what was received in their time. -/
theorem lawful_together : ∃ s, Run.run step (.init true) together = some s ∧
    s.finished = [⟨10, [], [1, 2]⟩, ⟨11, [], [1, 2, 3]⟩] ∧ Lawful s :=
  ⟨_, rfl, rfl, (lawful_iff true together (by decide) rfl).mpr (by decide)⟩

/-- Between the start of the first recording and that of the second one there is content. -/
def overlapping : List Event :=
  [.saveStream 1 7, .imsRecordingStart 2 7 10, .saveConfirm 2 12, .content 7 [1] 1 14,
    .routerRecordingStart 3 7 11, .saveConfirm 3 13, .content 7 [2] 1 15,
    .recordingStop 7 (some 13) 16]

/-- **The second recording holds content of before its start.** -/
theorem not_lawful : ¬ ∀ (enableHosting : Bool) (es : List Event) (s : State),
    Run.Along step Fresh (.init enableHosting) es →
      Run.run step (.init enableHosting) es = some s → Lawful s := by
  intro h
  have hfresh : Run.Along step Fresh (.init true) overlapping := by decide
  obtain ⟨s, hs, hfinished⟩ : ∃ s, Run.run step (.init true) overlapping = some s ∧
      s.finished = [⟨11, [1], [2]⟩] := ⟨_, rfl, rfl⟩
  obtain ⟨own, hown⟩ := owned_run hfresh hs
  have hempty := hown.lawful_iff_exact.mp (h true overlapping s hfresh hs)
  rw [hfinished] at hempty
  cases hempty _ (List.mem_singleton.mpr rfl)

end Livestream

end Metax
