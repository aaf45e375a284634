import Metax.Storage.CacheAccounting

/-!
# The clean-up of the cache

`cleanup_cache` walks through the files in the order of their last modification and removes them
until one is recent enough and the rest fits the limit (`cleanupLoop_spec`). What is expected of it
is `CleanedUp`: the removed files are the oldest ones, nothing outdated and nothing too much is
kept, and nothing is removed without need.

The clock and the times of the files are signed 64-bit numbers of microseconds. The age limit is an
unsigned one and is subtracted from the clock as a signed one, modulo `2 ^ 64`. When it is at most
`2 ^ 63` larger than the clock this gives the moment that is meant (`spares_of_age_le`). For a
larger age limit it gives a moment to come, and files are removed that fit both limits:
`cleanedUp_iff_spares` says which.
-/

namespace Metax

namespace Storage

open DbJson

variable {s t : DbJson} {u : UUID} {v gone kept : List UUID} {now old : Int64}

/-- A listing of the cache directory in the order of the last modification. -/
structure Listing (s : DbJson) (v : List UUID) : Prop where
  all : v.Perm s.cachePath.keys
  sorted : v.Pairwise fun a b => ∀ f ∈ s.cachePath.lookup a, ∀ g ∈ s.cachePath.lookup b,
    f.lastModified ≤ g.lastModified

/-- The file exceeds the age limit, if one is set. -/
def TooOld (s : DbJson) (now : Int64) (f : CacheFile) : Prop :=
  s.cacheAge ≠ 0 ∧ f.lastModified.toInt + s.cacheAge.toNat < now.toInt

/-- The moment the files are compared with. -/
def cutoff (s : DbJson) (now : Int64) : Int64 := now - s.cacheAge.toInt64

/-- The file was last modified before the moment the files are compared with. -/
def Outdated (s : DbJson) (old : Int64) (f : CacheFile) : Prop :=
  s.cacheAge ≠ 0 ∧ f.lastModified < old

/-- The bytes of some of the cached files. -/
def sizes (s : DbJson) (v : List UUID) : ℕ := (v.map s.cachedSize).sum

/-- The database after the clean-up, when all removals go well. -/
def afterCleanup (s : DbJson) (now : Int64) (v : List UUID) : DbJson :=
  s.cleanupCache now (v.map fun u => (u, true))

/-- The files of `gone` were removed and those of `kept` were not. -/
structure CleanedUpTo (s : DbJson) (now : Int64) (gone kept : List UUID) (t : DbJson) : Prop where
  files : ∀ u, t.cachePath.lookup u = if u ∈ gone then none else s.cachePath.lookup u
  age : ∀ u ∈ kept, ∀ f ∈ s.cachePath.lookup u, ¬ TooOld s now f
  limit : t.cacheTotal ≤ s.cacheLimit.toNat ∨ kept = []
  needed : ∀ a u b, gone = a ++ u :: b → ∀ f ∈ s.cachePath.lookup u,
    TooOld s now f ∨ s.cacheLimit.toNat < sizes s (u :: b ++ kept)
  counter : t.cacheSize.toNat = t.cacheTotal

/-- **The postcondition**: the removed files are a prefix of the listing. -/
def CleanedUp (s : DbJson) (now : Int64) (v : List UUID) : Prop :=
  ∃ gone kept, v = gone ++ kept ∧ CleanedUpTo s now gone kept (afterCleanup s now v)

/-- A file that fits the age limit, and with all later ones the size limit, does not count as
outdated. -/
def Spares (s : DbJson) (now : Int64) (v : List UUID) : Prop :=
  ∀ a u b, v = a ++ u :: b → ∀ f ∈ s.cachePath.lookup u, ¬ TooOld s now f →
    sizes s (u :: b) ≤ s.cacheLimit.toNat → ¬ Outdated s (cutoff s now) f

/-! ### The loop -/

theorem sizes_cons : sizes s (u :: v) = s.cachedSize u + sizes s v := List.sum_cons

theorem sizes_congr (h : ∀ u ∈ v, t.cachePath.lookup u = s.cachePath.lookup u) :
    sizes t v = sizes s v := by
  rw [sizes, sizes, List.map_congr_left fun u hu => ?_]
  rw [cachedSize, cachedSize, Ledger.weight, Ledger.weight, h u hu]

/-- Where the loop stops: everything before was outdated or too much, and the file it stops at is
neither. -/
structure StopsAt (s : DbJson) (old : Int64) (gone kept : List UUID) (t : DbJson) : Prop where
  files : ∀ u, t.cachePath.lookup u = if u ∈ gone then none else s.cachePath.lookup u
  counter : t.cacheSize.toNat = sizes s kept
  reason : ∀ a u b, gone = a ++ u :: b → ∀ f ∈ s.cachePath.lookup u,
    Outdated s old f ∨ s.cacheLimit.toNat < sizes s (u :: b ++ kept)
  stop : ∀ u b, kept = u :: b → (∀ f ∈ s.cachePath.lookup u, ¬ Outdated s old f) ∧
    sizes s kept ≤ s.cacheLimit.toNat

/-- A removal before the loop goes on. -/
theorem StopsAt.remove {r : DbJson} {x : UUID} {f : CacheFile} (hx : x ∉ gone ++ kept)
    (hf : s.cachePath.lookup x = some f) (hdir : r.cachePath = s.cachePath.erase x)
    (hage : r.cacheAge = s.cacheAge) (hlim : r.cacheLimit = s.cacheLimit)
    (hgo : Outdated s old f ∨ s.cacheLimit.toNat < sizes s (x :: gone ++ kept))
    (h : StopsAt r old gone kept t) : StopsAt s old (x :: gone) kept t := by
  have hkeep : ∀ u ∈ gone ++ kept, r.cachePath.lookup u = s.cachePath.lookup u := fun u hu => by
    rw [hdir, AList.lookup_erase_ne]
    rintro rfl
    exact hx hu
  have hkept : ∀ w, (∀ u ∈ w, u ∈ gone ++ kept) → sizes r w = sizes s w := fun w hw =>
    sizes_congr fun u hu => hkeep u (hw u hu)
  refine ⟨fun u => ?_, ?_, ?_, ?_⟩
  · rw [h.files, hdir, Ledger.lookup_erase_ite]
    by_cases hu : u = x
    · subst hu
      simp
    · simp [hu]
  · rw [h.counter]
    exact hkept kept fun u hu => List.mem_append_right gone hu
  · intro a u b heq g hg
    cases a with
    | nil =>
      obtain ⟨rfl, rfl⟩ := List.cons.inj heq
      obtain rfl := Option.some.inj (hf.symm.trans hg)
      exact hgo
    | cons y a =>
      have hgone : gone = a ++ u :: b := (List.cons.inj heq).2
      have hmem : ∀ w ∈ u :: b ++ kept, w ∈ gone ++ kept := by
        intro w hw
        rw [hgone, List.append_assoc]
        exact List.mem_append_right a hw
      have hr' := h.reason a u b hgone g ((hkeep u (hmem u (by simp))).symm ▸ hg)
      rw [hkept _ hmem, hlim] at hr'
      exact hr'.imp (fun ho => ⟨hage ▸ ho.1, ho.2⟩) id
  · intro u b heq
    obtain ⟨hfit, hle⟩ := h.stop u b heq
    have hu : u ∈ gone ++ kept := by
      rw [heq]
      simp
    refine ⟨fun g hg ho => ?_, ?_⟩
    · exact hfit g ((hkeep u hu).symm ▸ hg) ⟨hage.symm ▸ ho.1, ho.2⟩
    · rw [← hlim, ← hkept kept fun u hu => List.mem_append_right gone hu]
      exact hle

/-- A loop that stops at once. -/
theorem StopsAt.here (hcount : s.cacheSize.toNat = sizes s v)
    (hstop : ∀ u b, v = u :: b → (∀ f ∈ s.cachePath.lookup u, ¬ Outdated s old f) ∧
      sizes s v ≤ s.cacheLimit.toNat) : StopsAt s old [] v s where
  files _ := (if_neg List.not_mem_nil).symm
  counter := hcount
  reason a u b h := absurd h.symm (List.append_ne_nil_of_right_ne_nil a (List.cons_ne_nil u b))
  stop := hstop

/-- **The loop** stops at the first file that is not outdated and fits the limit with those behind
it. -/
theorem stopsAt_cleanupLoop (hnodup : v.Nodup)
    (hlook : ∀ u ∈ v, ∃ f, s.cachePath.lookup u = some f)
    (hcount : s.cacheSize.toNat = sizes s v) :
    ∃ gone kept, v = gone ++ kept ∧
      StopsAt s old gone kept (s.cleanupLoop old (v.map fun u => (u, true))) := by
  induction v generalizing s with
  | nil => exact ⟨[], [], rfl, .here hcount fun u b h => absurd h.symm (List.cons_ne_nil u b)⟩
  | cons x v ih =>
    obtain ⟨hx, hnodup⟩ := List.nodup_cons.mp hnodup
    obtain ⟨f, hf⟩ := hlook x List.mem_cons_self
    have hlimit : s.cacheLimit < s.cacheSize ↔ s.cacheLimit.toNat < sizes s (x :: v) := by
      rw [UInt64.lt_iff_toNat_lt, hcount]
    rw [List.map_cons, cleanupLoop, hf]
    dsimp only
    by_cases hout : (s.cacheAge ≠ 0 ∧ f.lastModified < old) ∨ s.cacheLimit < s.cacheSize
    · rw [if_pos hout, if_pos rfl]
      obtain ⟨r, hr⟩ : ∃ r, r = { s with
          cacheSize := s.cacheSize - UInt64.ofNat f.content.length
          cachePath := s.cachePath.erase x } := ⟨_, rfl⟩
      have hdir : r.cachePath = s.cachePath.erase x := by rw [hr]
      have hkeep : ∀ u ∈ v, r.cachePath.lookup u = s.cachePath.lookup u := fun u hu => by
        rw [hdir, AList.lookup_erase_ne]
        rintro rfl
        exact hx hu
      have hcount' : r.cacheSize.toNat = sizes r v := by
        rw [sizes_cons, cachedSize_of_lookup hf] at hcount
        rw [sizes_congr hkeep, hr]
        exact (Ledger.toNat_debit (by omega)).trans (by omega)
      rw [← hr]
      obtain ⟨gone, kept, rfl, hstop⟩ := ih hnodup
        (fun u hu => (hkeep u hu).symm ▸ hlook u (List.mem_cons_of_mem x hu)) hcount'
      exact ⟨x :: gone, kept, rfl, hstop.remove hx hf hdir (by rw [hr]) (by rw [hr])
        (hout.imp id hlimit.mp)⟩
    · rw [if_neg hout]
      obtain ⟨hnot, hle⟩ := not_or.mp hout
      refine ⟨[], x :: v, rfl, .here hcount fun u b h => ?_⟩
      obtain ⟨rfl, rfl⟩ := List.cons.inj h
      refine ⟨fun g hg => ?_, Nat.not_lt.mp fun hlt => hle (hlimit.mpr hlt)⟩
      obtain rfl := Option.some.inj (hf.symm.trans hg)
      exact hnot

/-! ### What the listing is about -/

theorem Listing.nodup (h : Listing s v) : v.Nodup := h.all.nodup_iff.mpr s.cachePath.keys_nodup

theorem Listing.lookup (h : Listing s v) (hu : u ∈ v) : ∃ f, s.cachePath.lookup u = some f := by
  have hkey : u ∈ s.cachePath := AList.mem_keys.mpr (h.all.mem_iff.mp hu)
  exact Option.isSome_iff_exists.mp (AList.lookup_isSome.mpr hkey)

/-- The files of a directory are as many bytes as any listing says. -/
theorem cacheTotal_eq_sizes (hnodup : v.Nodup)
    (hmem : ∀ u, u ∈ v ↔ ∃ f, s.cachePath.lookup u = some f) : s.cacheTotal = sizes s v := by
  induction v generalizing s with
  | nil =>
    refine cacheTotal_eq_zero fun u => cachedSize_of_notMem ?_
    by_contra hne
    exact List.not_mem_nil ((hmem u).mpr (Option.ne_none_iff_exists'.mp hne))
  | cons x v ih =>
    obtain ⟨hx, hnodup⟩ := List.nodup_cons.mp hnodup
    obtain ⟨r, hr⟩ : ∃ r, r = { s with cachePath := s.cachePath.erase x } := ⟨_, rfl⟩
    have hdir : r.cachePath = s.cachePath.erase x := by rw [hr]
    have hmem' : ∀ u, u ∈ v ↔ ∃ f, r.cachePath.lookup u = some f := by
      intro u
      rw [hdir, Ledger.lookup_erase_ite]
      by_cases hu : u = x
      · subst hu
        simp [hx]
      · rw [if_neg hu, ← hmem u]
        simp [hu]
    have hkeep : ∀ u ∈ v, r.cachePath.lookup u = s.cachePath.lookup u := fun u hu => by
      rw [hdir, AList.lookup_erase_ne]
      rintro rfl
      exact hx hu
    have hbalance := cacheTotal_erase (s := s) (u := x)
    have htotal : r.cacheTotal = sizes r v := ih hnodup hmem'
    rw [cacheTotal, hdir, sizes_congr hkeep] at htotal
    rw [sizes_cons]
    omega

theorem Listing.mem_iff (h : Listing s v) : u ∈ v ↔ ∃ f, s.cachePath.lookup u = some f := by
  refine ⟨h.lookup, fun hf => ?_⟩
  have hkey : u ∈ s.cachePath := AList.lookup_isSome.mp (Option.isSome_iff_exists.mpr hf)
  exact h.all.mem_iff.mpr (AList.mem_keys.mp hkey)

/-- No file is outdated that comes behind one that is not. -/
theorem Listing.not_outdated (h : Listing s (gone ++ kept)) (hkept : ∀ u b, kept = u :: b →
    ∀ f ∈ s.cachePath.lookup u, ¬ Outdated s old f) :
    ∀ u ∈ kept, ∀ f ∈ s.cachePath.lookup u, ¬ Outdated s old f := by
  intro u hu f hf hout
  cases kept with
  | nil => exact List.not_mem_nil hu
  | cons x b =>
    obtain ⟨g, hg⟩ := h.lookup (List.mem_append_right gone List.mem_cons_self)
    have hle : g.lastModified ≤ f.lastModified := by
      rcases List.mem_cons.mp hu with rfl | hu
      · obtain rfl := Option.some.inj (hf.symm.trans hg)
        exact Int64.le_refl _
      · have hpair := (List.pairwise_append.mp h.sorted).2.1
        exact List.rel_of_pairwise_cons hpair hu g hg f hf
    exact hkept x b rfl g hg ⟨hout.1, Int64.lt_of_le_of_lt hle hout.2⟩

/-- The unsigned age, taken as a signed number and subtracted, is the age modulo `2 ^ 64`. -/
theorem toInt_cutoff : (cutoff s now).toInt = (now.toInt - s.cacheAge.toNat).bmod (2 ^ 64) := by
  have hsigned : s.cacheAge.toInt64.toInt = (s.cacheAge.toNat : ℤ).bmod (2 ^ 64) :=
    BitVec.toInt_eq_toNat_bmod s.cacheAge.toBitVec
  rw [cutoff, Int64.toInt_sub, hsigned, Int.sub_bmod_bmod]

/-- As long as no moment before the smallest number is meant, the moment is the one that is
meant. -/
theorem toInt_cutoff_of_le (h : (s.cacheAge.toNat : ℤ) ≤ now.toInt + 2 ^ 63) :
    (cutoff s now).toInt = now.toInt - s.cacheAge.toNat := by
  have hlt := now.toInt_lt
  rw [toInt_cutoff, Int.bmod_eq_of_le (by omega) (by omega)]

/-- Who exceeds the age limit is outdated for the code as well. -/
theorem TooOld.outdated {f : CacheFile} (h : TooOld s now f) : Outdated s (cutoff s now) f := by
  refine ⟨h.1, ?_⟩
  have hold := h.2
  have hfirst := f.lastModified.le_toInt
  rw [Int64.lt_iff_toInt_lt, toInt_cutoff_of_le (by omega)]
  omega

/-- An age limit that is at most `2 ^ 63` larger than the clock is what it says. -/
theorem spares_of_age_le (h : (s.cacheAge.toNat : ℤ) ≤ now.toInt + 2 ^ 63) : Spares s now v := by
  intro a u b _ f _ hyoung _ hout
  refine hyoung ⟨hout.1, ?_⟩
  have hlt := Int64.lt_iff_toInt_lt.mp hout.2
  rw [toInt_cutoff_of_le h] at hlt
  omega

/-! ### The postcondition -/

/-- What is left adds up to the files that were kept. -/
theorem StopsAt.cacheTotal_eq (hv : Listing s (gone ++ kept)) (h : StopsAt s old gone kept t) :
    t.cacheTotal = sizes s kept := by
  obtain ⟨-, hkept, hdisjoint⟩ := List.nodup_append'.mp hv.nodup
  have hkeep : ∀ u ∈ kept, t.cachePath.lookup u = s.cachePath.lookup u := fun u hu => by
    rw [h.files, if_neg fun hg => hdisjoint hg hu]
  rw [← sizes_congr hkeep]
  refine cacheTotal_eq_sizes hkept fun u => ?_
  rw [h.files]
  split_ifs with hu
  · simpa using fun hk => hdisjoint hu hk
  · rw [← hv.mem_iff, List.mem_append, or_iff_right hu]

/-- Two ways to cut a listing that remove the same files are the same. -/
theorem Listing.cut_unique {gone' kept' : List UUID} (hv : Listing s (gone ++ kept))
    (heq : gone ++ kept = gone' ++ kept') (hfiles : ∀ u, t.cachePath.lookup u =
      if u ∈ gone then none else s.cachePath.lookup u) (hfiles' : ∀ u, t.cachePath.lookup u =
      if u ∈ gone' then none else s.cachePath.lookup u) : gone = gone' ∧ kept = kept' := by
  have hmem : ∀ u ∈ gone ++ kept, (u ∈ gone ↔ u ∈ gone') := by
    intro u hu
    obtain ⟨f, hf⟩ := hv.lookup hu
    have hboth := (hfiles u).symm.trans (hfiles' u)
    rw [hf] at hboth
    split_ifs at hboth with h h' h'
    · exact iff_of_true h h'
    · exact iff_of_false h h'
  have hdisjoint := (List.nodup_append'.mp hv.nodup).2.2
  rcases List.append_eq_append_iff.mp heq with ⟨as, rfl, hkept⟩ | ⟨as, rfl, hkept⟩
  · cases as with
    | nil => simpa using hkept
    | cons x as =>
      -- `x` was removed by the second cut only
      have hx : x ∈ kept := hkept ▸ List.mem_cons_self
      have hgone := (hmem x (List.mem_append_right gone hx)).mpr (by simp)
      exact absurd hx (hdisjoint hgone)
  · cases as with
    | nil => simpa using hkept.symm
    | cons x as =>
      have hx : x ∈ gone' ++ x :: as := by simp
      have hgone := (hmem x (List.mem_append_left kept hx)).mp hx
      have hnodup := (List.nodup_append'.mp hv.nodup).1
      exact absurd List.mem_cons_self ((List.nodup_append'.mp hnodup).2.2 hgone)

/-- **The clean-up does what it should exactly if it spares what fits.** -/
theorem cleanedUp_iff_spares (hv : Listing s v) (hcount : CacheAccounts s) :
    CleanedUp s now v ↔ Spares s now v := by
  have hsizes : s.cacheSize.toNat = sizes s v := by
    rw [hcount, cacheTotal_eq_sizes hv.nodup fun u => hv.mem_iff]
  have hloop : ∃ gone kept, v = gone ++ kept ∧ StopsAt s (cutoff s now) gone kept
      (s.cleanupLoop (cutoff s now) (v.map fun u => (u, true))) :=
    stopsAt_cleanupLoop hv.nodup (fun u hu => hv.lookup hu) hsizes
  obtain ⟨gone, kept, rfl, hstop⟩ := hloop
  have hfit := hv.not_outdated fun u b hkept => (hstop.stop u b hkept).1
  constructor
  · rintro ⟨gone', kept', heq, hclean⟩ a u b hcut f hf hyoung hle hout
    obtain ⟨rfl, rfl⟩ := hv.cut_unique heq hstop.files hclean.files
    -- the file was removed, since all that were kept are not outdated
    have hgone : u ∈ gone := by
      have hmem : u ∈ gone ++ kept := hcut ▸ List.mem_append_right a List.mem_cons_self
      exact (List.mem_append.mp hmem).resolve_right fun hkept => hfit u hkept f hf hout
    obtain ⟨c, d, rfl⟩ := List.append_of_mem hgone
    have hsame : c = a ∧ d ++ kept = b := by
      have hnodup := hv.nodup
      rw [List.append_assoc, List.cons_append, List.nodup_middle] at hnodup
      have hu := (List.nodup_cons.mp hnodup).1
      rw [List.append_assoc, List.cons_append] at hcut
      have hinj := (List.append_cons_inj_of_notMem (fun hc => hu (List.mem_append_left _ hc))
        fun hd => hu (List.mem_append_right c hd)).mp hcut
      exact ⟨hinj.1, hinj.2.2⟩
    obtain ⟨rfl, rfl⟩ := hsame
    rcases hclean.needed c u d rfl f hf with hold | hbig
    · exact hyoung hold
    · exact absurd hle hbig.not_ge
  · intro hspares
    have htotal : (afterCleanup s now (gone ++ kept)).cacheTotal = sizes s kept :=
      hstop.cacheTotal_eq hv
    refine ⟨gone, kept, rfl, hstop.files, fun u hu f hf hold => hfit u hu f hf hold.outdated,
      ?_, ?_,
      hstop.counter.trans htotal.symm⟩
    · rcases kept with _ | ⟨u, b⟩
      · exact .inr rfl
      · exact .inl (htotal.trans_le (hstop.stop u b rfl).2)
    · intro a u b hgone f hf
      by_contra hnot
      obtain ⟨hyoung, hle⟩ := not_or.mp hnot
      have hcut : gone ++ kept = a ++ u :: (b ++ kept) := by
        rw [hgone, List.append_assoc]
        rfl
      rcases hstop.reason a u b hgone f hf with hout | hbig
      · exact hspares a u (b ++ kept) hcut f hf hyoung (Nat.not_lt.mp hle) hout
      · exact hle hbig

/-- Two files, and room for one of them. -/
def twoFiles : DbJson :=
  opened "" ∅
    (((∅ : Ledger.Table UUID CacheFile).insert 2 ⟨[4, 5, 6], 20⟩).insert 1 ⟨[1, 2, 3], 10⟩)
    6 0 60 4 0

theorem listing_twoFiles : Listing twoFiles [1, 2] where
  all := by decide
  sorted := by
    refine List.pairwise_pair.mpr fun f hf g hg => ?_
    obtain rfl : ⟨[1, 2, 3], 10⟩ = f := Option.some.inj hf
    obtain rfl : ⟨[4, 5, 6], 20⟩ = g := Option.some.inj hg
    decide

theorem cleanedUp_twoFiles : CleanedUp twoFiles 30 [1, 2] :=
  (cleanedUp_iff_spares listing_twoFiles (by decide)).mpr (spares_of_age_le (by decide))

/-- One file, room for it, and an age limit of some five hundred thousand years. -/
def oneFile : DbJson :=
  opened "" ∅ ((∅ : Ledger.Table UUID CacheFile).insert 1 ⟨[1], 1700000000000000⟩) 1 0 300000000000
    100 0

theorem listing_oneFile : Listing oneFile [1] where
  all := by decide
  sorted := List.pairwise_singleton _ _

/-- **With such an age limit a file is removed that is one minute old.** -/
theorem not_cleanedUp : ¬ ∀ (s : DbJson) (now : Int64) (v : List UUID), Listing s v →
    CacheAccounts s → CleanedUp s now v := by
  intro h
  obtain ⟨gone, kept, heq, hclean⟩ := h oneFile 1700000060000000 [1] listing_oneFile (by decide)
  have hnone : (afterCleanup oneFile 1700000060000000 [1]).cachePath.lookup 1 = none := by decide
  have hgone : gone = [] ++ 1 :: [] ∧ kept = [] := by
    rcases List.append_eq_singleton_iff.mp heq.symm with ⟨rfl, -⟩ | hone
    · exact absurd ((hclean.files 1).symm.trans hnone) (by decide)
    · exact hone
  rcases hclean.needed [] 1 [] hgone.1 ⟨[1], 1700000000000000⟩ rfl with ⟨-, hold⟩ | hbig
  · exact absurd hold (by decide)
  · rw [hgone.2] at hbig
    exact absurd hbig (by decide)

end Storage

end Metax
