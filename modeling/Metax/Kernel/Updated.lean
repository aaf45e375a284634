import Metax.Kernel.Confirmed

/-!
# An update keeps the old object until the new one is in place

Deletes come from two places: a confirmed update deletes the pieces of the old object, and a
failed save or update deletes the pieces it has saved itself. The log tells them apart, so
that no piece of the old object is deleted before the new master object has a copy, none by an
update that fails, and no piece of the new object by an update that is confirmed.
-/

namespace Metax

open Run (run)

namespace Kernel

variable {codec : Codec} {cfg : KernelCfg} {fresh : Prop} {k : Kernel} {rid : ID32}
  {evs : List Event} {old : OldMaster}

/-- The answers to a request are all the same one. -/
theorem Sound.answer_unique {i i' : ID32} {resp resp' : Response} (hk : Sound fresh k)
    (h : .respond rid i resp ∈ k.log) (h' : .respond rid i' resp' ∈ k.log) : resp' = resp := by
  by_contra hne
  have hnodup : [Entry.respond rid i resp, .respond rid i' resp'].Nodup := by
    rw [List.nodup_cons, List.mem_singleton]
    refine ⟨fun he => ?_, List.nodup_singleton _⟩
    injection he with _ _ hresp
    exact hne hresp.symm
  have hsub : [Entry.respond rid i resp, .respond rid i' resp'] ⊆ k.log := by
    rintro e he
    rcases List.mem_cons.mp he with rfl | he
    · exact h
    · exact List.mem_singleton.mp he ▸ h'
  have hcount := (List.subperm_of_subset hnodup hsub).countP_le (Entry.answers rid)
  have htwo : [Entry.respond rid i resp, .respond rid i' resp'].countP (Entry.answers rid) = 2 := by
    simp [Entry.answers]
  have hone := (hk.soundFor rid).answers
  omega

/-- The old master object comes before everything else that is done for the update. -/
theorem Sound.old_first {newer older : List Entry} {e : Entry} (hk : Sound fresh k)
    (hold : .gotOldMaster rid old ∈ k.log) (hlog : k.log = newer ++ e :: older)
    (hown : e.owner = rid) (hneutral : e.neutral = false) (hne : ∀ m, e ≠ .gotOldMaster rid m) :
    .gotOldMaster rid old ∈ older := by
  have hpast := (hk.soundFor rid).past
  rw [hlog] at hpast hold
  refine hpast.mem_older hold (hne old).symm fun o hjust hin => ?_
  exact Bool.noConfusion (hneutral.symm.trans (hjust rfl e hin hown))

/-- Where a delete comes from: the old object of a confirmed update, or what a failed save has
saved itself. -/
theorem Sound.delete_cases {newer older : List Entry} {id : ID32} {p : UUID} (hk : Sound True k)
    (hold : .gotOldMaster rid old ∈ k.log) (hlog : k.log = newer ++ .delete rid id p :: older) :
    (∃ i r, .respond rid i r ∈ older ∧ r.isConfirm = true ∧ p ∈ old.pieces) ∨
      (∃ uuid, .failedUnit rid uuid ∈ older) ∧ p ∉ old.pieces := by
  have hpast := (hk.soundFor rid).past
  rw [hlog] at hpast
  have hold' : .gotOldMaster rid old ∈ older :=
    hk.old_first hold hlog rfl rfl fun m he => Entry.noConfusion he
  rcases History.past_append_cons hpast rfl with ⟨i, r, hmem, hr, old', hold'', hp⟩ | ⟨hfailed, hp⟩
  · -- there is one old master object
    have hreq : old' = old := by
      by_contra hne
      have hne' : (.gotOldMaster rid old' : Entry) ≠ .gotOldMaster rid old := by
        intro he
        injection he with _ he
        exact hne he
      rcases (History.past_of_append hpast).2.of_pair hold'' hold' hne' with
        ⟨o, hj, hin⟩ | ⟨o, hj, hin⟩
      · exact Bool.noConfusion (hj rfl _ hin rfl)
      · exact Bool.noConfusion (hj rfl _ hin rfl)
    exact .inl ⟨i, r, hmem, hr, hreq ▸ hp⟩
  · exact .inr ⟨hfailed, hp trivial old hold'⟩

/-- **An update keeps the old object until the new one is in place.** For the update `rid` with
the old master object `old`: its pieces are deleted only after the new master object has had a
copy; not at all if the update fails; and a confirmed update deletes no piece of the new object.
The uuids of new pieces must not be those of old ones. -/
theorem update_keeps_old (h : run (step codec cfg) initial evs = some k)
    (hnew : ∀ e ∈ evs, e.New) (hold : .gotOldMaster rid old ∈ k.log) :
    (∀ newer older id p, k.log = newer ++ .delete rid id p :: older → p ∈ old.pieces →
      ∃ r m, .built rid r m ∈ older ∧ .copied rid .master r.uuid ∈ older) ∧
    (∀ i resp, .respond rid i resp ∈ k.log → resp.isConfirm = false →
      ∀ id p, .delete rid id p ∈ k.log → p ∉ old.pieces) ∧
    ∀ i resp, .respond rid i resp ∈ k.log → resp.isConfirm = true →
      ∀ r m, .built rid r m ∈ k.log → ∀ id p, .delete rid id p ∈ k.log → p ∉ m.pieces := by
  have hk : Sound True k := sound_run (fun _ => hnew) h
  have hpast := (hk.soundFor rid).past
  refine ⟨fun newer older id p hlog hp => ?_, fun i resp hresp hfail id p hdelete hp => ?_,
    fun i resp hresp hconfirm r m hbuilt id p hdelete hp => ?_⟩
  · rcases hk.delete_cases hold hlog with ⟨i, resp, hmem, hconfirm, -⟩ | ⟨-, hnot⟩
    · rw [hlog] at hpast
      obtain ⟨n, o, ho, hjust⟩ := (History.past_of_append hpast).2.of_mem hmem
      obtain ⟨-, r, m, hbuilt, hcopied⟩ := hjust rfl hconfirm
      rw [ho]
      exact ⟨r, m, List.mem_append_right n (List.mem_cons_of_mem _ hbuilt),
        List.mem_append_right n (List.mem_cons_of_mem _ hcopied)⟩
    · exact absurd hp hnot
  · obtain ⟨newer, older, hlog⟩ := List.append_of_mem hdelete
    rcases hk.delete_cases hold hlog with ⟨i', resp', hmem, hconfirm, -⟩ | ⟨-, hnot⟩
    · have hmem' : .respond rid i' resp' ∈ k.log :=
        hlog ▸ List.mem_append_right newer (List.mem_cons_of_mem _ hmem)
      rw [hk.answer_unique hresp hmem', hfail] at hconfirm
      exact Bool.noConfusion hconfirm
    · exact hnot hp
  · obtain ⟨newer, older, hlog⟩ := List.append_of_mem hdelete
    rcases hk.delete_cases hold hlog with ⟨-, -, -, -, hin⟩ | ⟨⟨uuid, hfailed⟩, -⟩
    · obtain ⟨n, o, ho, hjust⟩ := hpast.of_mem hbuilt
      have hold' : .gotOldMaster rid old ∈ o :=
        hk.old_first hold ho rfl rfl fun _ he => Entry.noConfusion he
      exact (hjust rfl).2.2 trivial old hold' p hp hin
    · -- a save that has failed is not confirmed, and one that is confirmed does not fail
      have hfailed' : .failedUnit rid uuid ∈ k.log :=
        hlog ▸ List.mem_append_right newer (List.mem_cons_of_mem _ hfailed)
      rcases hpast.of_pair hresp hfailed' Entry.noConfusion with ⟨o, hjust, hin⟩ | ⟨o, hjust, hin⟩
      · exact (hjust rfl hconfirm).1 ⟨_, hin, rfl, rfl⟩
      · exact hjust rfl ⟨_, hin, rfl, hconfirm⟩

/-- An old object of one piece. -/
def sampleOld : OldMaster := ⟨.value 1, "text", some [some 9]⟩

/-- An update of that object by three bytes: the storage takes the new master object, and then
the old piece is deleted. -/
theorem update_keeps_old_of_three : ∃ k older, run (step .plain ⟨1, 21000000, 1⟩) initial
    [.imsUpdate 7 ⟨.message [1, 2, 3] [], false, .default, "text", 0, 0⟩ 5,
      .oldMaster 0 sampleOld none true fun _ => 4, .storageSaveConfirm 1] = some k ∧
    k.log = .delete 0 2 9 :: older ∧
      ∃ r m, .built 0 r m ∈ older ∧ .copied 0 .master r.uuid ∈ older := by
  have hrun : run (step .plain ⟨1, 21000000, 1⟩) initial
    [.imsUpdate 7 ⟨.message [1, 2, 3] [], false, .default, "text", 0, 0⟩ 5,
      .oldMaster 0 sampleOld none true fun _ => 4, .storageSaveConfirm 1] = some _ := rfl
  have hpieces : (9 : UUID) ∈ sampleOld.pieces := by decide
  refine ⟨_, _, hrun, rfl, (update_keeps_old hrun ?_ ?_).1 [] _ 2 9 rfl hpieces⟩
  · intro e he
    simp only [List.mem_cons, List.not_mem_nil, or_false] at he
    rcases he with rfl | rfl | rfl
    · trivial
    · exact fun _ => show (4 : UUID) ∉ sampleOld.pieces by decide
    · trivial
  · exact List.mem_of_getElem? (i := 7) rfl

end Kernel

end Metax
