import Metax.Library.Text
import Metax.Platform.Package

/-!
# Texts of uuids

`UUID.text` is the text Poco writes for a uuid. Poco reads more texts than these: upper case and
texts without hyphens name uuids too. `UUID.ofText` reads exactly what is written.
-/

namespace Metax

namespace UUID

/-- The text Poco writes for a uuid. -/
def text (u : UUID) : Text := u.toString.toList

/-- The value of a hexadecimal digit. -/
def hexValue (c : Char) : ℕ := if c.isDigit then c.toNat - '0'.toNat else c.toNat - 'a'.toNat + 10

/-- The number some hexadecimal digits stand for. -/
def ofHex (t : Text) : ℕ := t.foldl (fun n c => 16 * n + hexValue c) 0

/-- Read a text as it is written, in lower case and with hyphens. -/
def ofText (t : Text) : Option UUID :=
  let u : UUID := .ofNat 128 (ofHex (t.filter (· ≠ '-')))
  if u.text = t then some u else none

theorem hexValue_digitChar {n : ℕ} (h : n < 16) : hexValue n.digitChar = n := by
  have hall : ∀ m < 16, hexValue m.digitChar = m := by decide
  exact hall n h

theorem ofHex_append_singleton (t : Text) (c : Char) :
    ofHex (t ++ [c]) = 16 * ofHex t + hexValue c := by
  simp [ofHex]

theorem ofHex_hexDigits (w n : ℕ) : ofHex (hexDigits w n) = n % 16 ^ w := by
  induction w generalizing n with
  | zero => simp [hexDigits, ofHex, Nat.mod_one]
  | succ w ih =>
    rw [hexDigits, ofHex_append_singleton, ih, hexValue_digitChar (by omega), pow_succ',
      Nat.mod_mul]
    omega

theorem hyphen_notMem_hexDigits (w n : ℕ) : '-' ∉ hexDigits w n := by
  induction w generalizing n with
  | zero => exact List.not_mem_nil
  | succ w ih =>
    have hall : ∀ m < 16, '-' ≠ m.digitChar := by decide
    rw [hexDigits, List.mem_append, List.mem_singleton, not_or]
    exact ⟨ih _, hall _ (by omega)⟩

/-- Without its hyphens a text is the digits. -/
theorem filter_text (u : UUID) : u.text.filter (· ≠ '-') = hexDigits 32 u.toNat := by
  obtain ⟨d, hd⟩ : ∃ d, d = hexDigits 32 u.toNat := ⟨_, rfl⟩
  have hself (t : Text) (h : t.Sublist d) : t.filter (· ≠ '-') = t := by
    refine List.filter_eq_self.mpr fun c hc => ?_
    have hmem := h.subset hc
    rw [hd] at hmem
    exact decide_eq_true fun hne => hyphen_notMem_hexDigits _ _ (hne ▸ hmem)
  have htext : u.text = d.take 8 ++ '-' :: (d.drop 8).take 4 ++ '-' :: (d.drop 12).take 4 ++
      '-' :: (d.drop 16).take 4 ++ '-' :: d.drop 20 := by
    rw [text, toString, hd, String.toList_ofList]
  -- the five groups are the digits again
  have h₁ : (d.drop 8).take 4 ++ d.drop 12 = d.drop 8 := by
    rw [← List.drop_drop (i := 4) (j := 8), List.take_append_drop]
  have h₂ : (d.drop 12).take 4 ++ d.drop 16 = d.drop 12 := by
    rw [← List.drop_drop (i := 4) (j := 12), List.take_append_drop]
  have h₃ : (d.drop 16).take 4 ++ d.drop 20 = d.drop 16 := by
    rw [← List.drop_drop (i := 4) (j := 16), List.take_append_drop]
  have hgroup (k : ℕ) : ((d.drop k).take 4).Sublist d :=
    (List.take_sublist _ _).trans (List.drop_sublist _ _)
  rw [htext, ← hd]
  simp only [List.filter_append, List.filter_cons, ne_eq, not_true_eq_false, decide_false,
    Bool.false_eq_true, if_false]
  simp only [← ne_eq]
  rw [hself _ (List.take_sublist 8 d), hself _ (hgroup 8), hself _ (hgroup 12),
    hself _ (hgroup 16), hself _ (List.drop_sublist 20 d)]
  simp only [List.append_assoc, h₁, h₂, h₃, List.take_append_drop]

theorem mem_hexDigits {w n : ℕ} {c : Char} (h : c ∈ hexDigits w n) : ∃ m < 16, c = m.digitChar := by
  induction w generalizing n with
  | zero => cases h
  | succ w ih =>
    rw [hexDigits, List.mem_append, List.mem_singleton] at h
    rcases h with h | rfl
    · exact ih h
    · exact ⟨n % 16, by omega, rfl⟩

/-- A text has hyphens and hexadecimal digits only. -/
theorem notMem_text {u : UUID} {c : Char} (hhyphen : c ≠ '-') (hdigit : ∀ m < 16, c ≠ m.digitChar) :
    c ∉ u.text := by
  intro hc
  have hfilter : c ∈ u.text.filter (· ≠ '-') :=
    List.mem_filter.mpr ⟨hc, decide_eq_true hhyphen⟩
  rw [filter_text] at hfilter
  obtain ⟨m, hm, rfl⟩ := mem_hexDigits hfilter
  exact hdigit m hm rfl

theorem ofText_text (u : UUID) : ofText u.text = some u := by
  have hlt : u.toNat < 16 ^ 32 := u.isLt.trans_eq (by decide)
  have hu : BitVec.ofNat 128 (ofHex (u.text.filter (· ≠ '-'))) = u := by
    rw [filter_text, ofHex_hexDigits, Nat.mod_eq_of_lt hlt, BitVec.ofNat_toNat, BitVec.setWidth_eq]
  simp only [ofText, hu, if_true]

theorem text_injective : Function.Injective text := by
  intro u v h
  have hread := congrArg ofText h
  rw [ofText_text, ofText_text] at hread
  exact Option.some.inj hread

end UUID

end Metax
