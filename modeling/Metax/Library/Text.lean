import Mathlib.Data.List.Basic
import Mathlib.Data.List.TakeWhile
import Mathlib.Algebra.Order.Ring.Nat

/-!
# Text as C++ programs take it apart

A text is a list of characters, one for each byte. `lines` is the loop over `std::getline`,
`tokens` a string tokenizer without options, `readUnsigned` the operator `>>` on an unsigned
number. None of them fails; `number?` says which texts are numbers to begin with.

An encoding is not looked at: what is compared and split are bytes, as in the programs.
-/

/-- A byte string that is read as text. -/
abbrev Text := List Char

namespace Text

/-- What a pointer to characters is taken for: the text ends at the first null. -/
def cString (t : Text) : Text := t.takeWhile (· ≠ '\x00')

/-- The lines `std::getline` finds. What is behind the last line break is a line of its own,
unless it is empty. -/
def lines (t : Text) : List Text :=
  let parts := t.splitOn '\n'
  if parts.getLast? = some [] then parts.dropLast else parts

/-- The tokens between separators. Empty tokens count, an empty text has none. -/
def tokens (sep : Char) (t : Text) : List Text := if t = [] then [] else t.splitOn sep

/-- Joined with a separator in between: `Poco::cat`. -/
def cat (sep : Char) (l : List Text) : Text := [sep].intercalate l

/-- `isspace`. -/
def isSpace (c : Char) : Bool := c = ' ' || ('\t' ≤ c && c ≤ '\r')

/-- The number some digits stand for. -/
def ofDigits (digits : Text) : ℕ := Nat.ofDigitChars 10 digits 0

/-- Whether a number has a minus sign in front, and what is behind its sign. -/
def splitSign : Text → Bool × Text
  | '-' :: t => (true, t)
  | '+' :: t => (false, t)
  | t => (false, t)

/-- An unsigned number of the given size with its sign: `-n` is read as the complement of `n`. -/
def signed (size : ℕ) (negative : Bool) (n : ℕ) : ℕ := if negative then (size - n) % size else n

/-- `stream >> n` for an unsigned `n` below `size` that holds `old`. Without anything to read `n`
stays as it is, without digits it becomes zero, and a number that is too large becomes the largest
one. What follows the digits is left alone. -/
def readUnsigned (size old : ℕ) (t : Text) : ℕ :=
  match t.dropWhile isSpace with
  | [] => old
  | c :: t =>
    let (negative, t) := splitSign (c :: t)
    let digits := t.takeWhile Char.isDigit
    if digits = [] then 0
    else if size ≤ ofDigits digits then size - 1
    else signed size negative (ofDigits digits)

/-- A text that is an unsigned number: a sign or none, digits, and nothing else. -/
def number? (size : ℕ) (t : Text) : Option ℕ :=
  let (negative, digits) := splitSign t
  if digits ≠ [] ∧ digits.all Char.isDigit ∧ ofDigits digits < size then
    some (signed size negative (ofDigits digits))
  else none

variable {sep : Char} {t : Text} {parts : List Text} {size old n : ℕ}

/-- A text without a null is not cut. -/
theorem cString_eq_self (h : '\x00' ∉ t) : cString t = t := by
  refine List.takeWhile_eq_self_iff.mpr fun c hc => decide_eq_true ?_
  rintro rfl
  exact h hc

/-! ### What is put together is taken apart again -/

theorem splitOn_flatMap (h : ∀ l ∈ parts, '\n' ∉ l) :
    (parts.flatMap (· ++ ['\n'])).splitOn '\n' = parts ++ [[]] := by
  induction parts with
  | nil => rfl
  | cons l parts ih =>
    obtain ⟨hl, hparts⟩ := List.forall_mem_cons.mp h
    rw [List.flatMap_cons, List.append_assoc, List.singleton_append,
      List.splitOn_append_cons_self_of_not_mem hl, ih hparts, List.cons_append]

/-- Lines that are each ended by a line break are found again. -/
theorem lines_flatMap (h : ∀ l ∈ parts, '\n' ∉ l) :
    lines (parts.flatMap (· ++ ['\n'])) = parts := by
  simp only [lines, splitOn_flatMap h, List.getLast?_concat, if_true, List.dropLast_concat]

/-- Tokens that are joined are found again. -/
theorem tokens_cat (h : ∀ l ∈ parts, sep ∉ l) (hne : cat sep parts ≠ []) :
    tokens sep (cat sep parts) = parts := by
  have hparts : parts ≠ [] := by
    rintro rfl
    exact hne rfl
  rw [tokens, if_neg hne, cat, List.splitOn_intercalate sep h hparts]

/-- The separator is in no part. -/
theorem notMem_of_mem_splitOn {l : Text} (h : l ∈ t.splitOn sep) : sep ∉ l := by
  induction t generalizing l with
  | nil =>
    obtain rfl := List.mem_singleton.mp h
    exact List.not_mem_nil
  | cons c t ih =>
    rw [List.splitOn_cons_eq_if_modifyHead] at h
    split at h
    · rcases List.mem_cons.mp h with rfl | h
      · exact List.not_mem_nil
      · exact ih h
    · rename_i hc
      -- the first character joins the first part
      cases hparts : t.splitOn sep with
      | nil => exact absurd hparts (List.splitOn_ne_nil _ _)
      | cons l' parts =>
        rw [hparts] at h ih
        rcases List.mem_cons.mp h with rfl | h
        · refine List.not_mem_cons_of_ne_of_not_mem (fun heq => hc ?_) (ih List.mem_cons_self)
          exact beq_iff_eq.mpr heq.symm
        · exact ih (List.mem_cons_of_mem _ h)

/-! ### Numbers -/

theorem toNat_of_isDigit {c : Char} (h : c.isDigit) : 48 ≤ c.toNat ∧ c.toNat ≤ 57 := by
  simpa [Char.isDigit, UInt32.le_iff_toNat_le] using h

theorem ne_of_isDigit {c c' : Char} (h : c.isDigit) (h' : c'.isDigit = false) : c ≠ c' := by
  rintro rfl
  rw [h] at h'
  cases h'

theorem splitSign_of_isDigit {c : Char} (h : c.isDigit) : splitSign (c :: t) = (false, c :: t) := by
  unfold splitSign
  split
  · rename_i heq
    exact absurd (List.cons.inj heq).1 (ne_of_isDigit h rfl)
  · rename_i heq
    exact absurd (List.cons.inj heq).1 (ne_of_isDigit h rfl)
  · rfl

theorem isSpace_of_isDigit {c : Char} (h : c.isDigit) : isSpace c = false := by
  have hlow := (toNat_of_isDigit h).1
  have hblank : (decide (c = ' ')) = false := decide_eq_false (ne_of_isDigit h rfl)
  have hcontrol : (decide (c ≤ '\r')) = false := by
    refine decide_eq_false fun hle => ?_
    have : c.toNat ≤ 13 := hle
    omega
  rw [isSpace, hblank, hcontrol, Bool.and_false]
  rfl

theorem isDigit_toString : ∀ c ∈ (toString n).toList, c.isDigit := by
  intro c hc
  rw [Nat.toString_eq_ofList_toDigits, String.toList_ofList] at hc
  exact Nat.isDigit_of_mem_toDigits (by omega) (by omega) hc

theorem ofDigits_toString : ofDigits (toString n).toList = n := by
  rw [Nat.toString_eq_ofList_toDigits, String.toList_ofList, ofDigits,
    Nat.ofDigitChars_ten_toDigits]

theorem toString_ne_nil : (toString n).toList ≠ [] := by
  rw [Nat.toString_eq_ofList_toDigits, String.toList_ofList]
  exact Nat.toDigits_ne_nil

/-- What is written as a number is read as that number. -/
theorem readUnsigned_toString (h : n < size) : readUnsigned size old (toString n).toList = n := by
  have hall : ∀ c ∈ (toString n).toList, c.isDigit := isDigit_toString
  have hvalue : ofDigits (toString n).toList = n := ofDigits_toString
  obtain ⟨c, t, hcons⟩ : ∃ c t, (toString n).toList = c :: t :=
    List.exists_cons_of_ne_nil toString_ne_nil
  rw [hcons] at hall hvalue ⊢
  have hc := hall c List.mem_cons_self
  rw [readUnsigned, List.dropWhile_cons_of_neg (by rw [isSpace_of_isDigit hc]; decide)]
  have htake : (c :: t).takeWhile Char.isDigit = c :: t := List.takeWhile_eq_self_iff.mpr hall
  simp only [splitSign_of_isDigit hc, htake, hvalue, signed]
  rw [if_neg (List.cons_ne_nil c t), if_neg (by omega)]
  rfl

/-- What is written as a negative number is read as its complement. -/
theorem readUnsigned_neg (h : n < size) :
    readUnsigned size old ('-' :: (toString n).toList) = (size - n) % size := by
  have htake : (toString n).toList.takeWhile Char.isDigit = (toString n).toList :=
    List.takeWhile_eq_self_iff.mpr isDigit_toString
  rw [readUnsigned, List.dropWhile_cons_of_neg (by decide)]
  simp only [splitSign, htake, ofDigits_toString, signed]
  rw [if_neg toString_ne_nil, if_neg (by omega)]
  rfl

end Text
