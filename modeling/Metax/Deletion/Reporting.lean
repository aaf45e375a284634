import Metax.Deletion.Invariant

/-!
# What is reported of a delete request

Over every order of answers the invariant leaves one response, which is sent when nothing is posted
any more. `deleted` says that all that was asked to be deleted was, which is less with
`keep_chunks`.
-/

namespace Metax

namespace Deletion

/-- **Delete reporting**: at most one of the two responses is sent, `deleted` only after a copy of
the object and of every piece that was read was deleted, and one is sent when nothing is posted any
more. -/
theorem reported (dataCopyCount : ℕ) (rid : ID32) (uuid : UUID) (keepChunks : Bool) (ims : ID32)
    (es : List Event)
    (hpossible : Run.Along (step dataCopyCount) Possible (start rid uuid keepChunks ims) es)
    (s : Deletion)
    (hrun : Run.run (step dataCopyCount) (start rid uuid keepChunks ims) es = some s) :
    (answers s.log).length ≤ 1 ∧
      (∀ i u l, .respond i (.deleted u) :: l <:+ s.log → Covered keepChunks rid l) ∧
      ((∀ id, s.posted.lookup id = none) → ∃ a, answers s.log = [.respond ims a]) := by
  have hinv : Inv rid uuid keepChunks ims s :=
    Run.invariant_of_run (Inv rid uuid keepChunks ims)
      (fun _ _ _ h hok hstep => inv_step h hok hstep) inv_start hpossible hrun
  obtain hreading | ⟨hunder, hwaits⟩ := hinv
  · have hnone : answers s.log = [] := by
      cases hreading with
      | main p hposted hp hidle => exact answers_of_quiet hidle.quiet
      | helper i r hi hr hhelper hposted hidle => exact answers_of_quiet hidle.quiet
    refine ⟨by rw [hnone]; exact Nat.zero_le 1, sound_of_answers hnone, fun hdone => ?_⟩
    obtain ⟨p, hposted, -⟩ | ⟨id, r, -, -, -, hposted, -⟩ := hreading
    · rw [hdone] at hposted
      cases hposted
    · rw [hdone] at hposted
      cases hposted
  · refine ⟨?_, hunder.sound, fun hdone => ?_⟩
    · obtain ⟨-, hnone, -⟩ | ⟨-, a, hone⟩ := hunder.answered
      · rw [hnone]
        exact Nat.zero_le 1
      · rw [hone]
        exact le_rfl
    · -- a request that is still there waits for something
      obtain ⟨-, -, hsome⟩ | ⟨-, hone⟩ := hunder.answered
      · obtain ⟨r, hr⟩ := Option.isSome_iff_exists.mp hsome
        have hw := (waits_some hr).mp (hwaits rid)
        rw [hdone] at hw
        obtain hw | ⟨hw, -⟩ := hw
        · cases hw
        · cases hw
      · exact hone

/-- An object of two pieces: the second is not in the storage, and a peer has both. -/
def twoPieces : List Event :=
  [.storageAck 0, .storageGetData 0 (some ⟨some [some 7, some 8], .value 3⟩) false,
    .storageDeleted 1, .storageNack 2, .storageDeleted 0, .routerDeleted 1, .routerDeleted 2,
    .routerCancel 0, .routerDeleted 2, .routerCancel 1, .routerCancel 2]

theorem reported_twoPieces : ∃ s, Run.run (step 3) (start 0 5 false 9) twoPieces = some s ∧
    ∃ a, answers s.log = [.respond 9 a] := by
  obtain ⟨s, hrun, hposted⟩ : ∃ s, Run.run (step 3) (start 0 5 false 9) twoPieces = some s ∧
      s.posted = ∅ := ⟨_, rfl, rfl⟩
  refine ⟨s, hrun, (reported 3 0 5 false 9 twoPieces (by decide) s hrun).2.2 fun id => ?_⟩
  rw [hposted]
  exact AList.lookup_empty id

/-- **A request to keep the chunks** is reported with no piece deleted. -/
theorem not_reported : ¬ ∀ (dataCopyCount : ℕ) (rid : ID32) (uuid : UUID) (keepChunks : Bool)
    (ims : ID32) (es : List Event),
    Run.Along (step dataCopyCount) Possible (start rid uuid keepChunks ims) es → ∀ s,
    Run.run (step dataCopyCount) (start rid uuid keepChunks ims) es = some s →
    (answers s.log).length ≤ 1 ∧
      (∀ i u l, .respond i (.deleted u) :: l <:+ s.log → Covered false rid l) ∧
      ((∀ id, s.posted.lookup id = none) → ∃ a, answers s.log = [.respond ims a]) := by
  intro h
  obtain ⟨s, hrun, hlog⟩ : ∃ s, Run.run (step 3) (start 0 5 true 9)
      [.storageAck 0, .storageDeleted 0] = some s ∧ s.log =
        [.deleteRouter 0 5 1 2, .respond 9 (.deleted 5), .copyDeleted 0, .deleteStorage 0 5,
          .lookUp 0 5] := ⟨_, rfl, rfl⟩
  have hcovered := (h 3 0 5 true 9 _ (by decide) s hrun).2.1 9 5
    [.copyDeleted 0, .deleteStorage 0 5, .lookUp 0 5] (hlog ▸ List.suffix_cons _ _)
  obtain ⟨m, hm⟩ := hcovered.read rfl
  simp at hm

end Deletion

end Metax
