import Metax.Library.Text

/-!
# Range headers

`parse_range` of the request handlers reads a range header with a hand-written scanner, in signed
64-bit arithmetic, whose overflow is undefined. `Accepts` says which headers there are: `bytes=a-b`,
`bytes=a-` and `bytes=-n`, with numbers that fit. The scanner should accept exactly these, with the
values of their numbers, and throw on every other string (`Law`).

It does so exactly when no number it reads overflows and nothing follows the number of a suffix
(`law_iff_tame`).
-/

namespace Metax

namespace WebApi

open Text

/-- How a parser fails: it throws, or an overflow makes its behaviour undefined. -/
inductive Failure
  | invalid
  | overflow
  deriving DecidableEq

/-- The result of signed 64-bit arithmetic. -/
def int64 (n : ℤ) : Except Failure ℤ :=
  if -2 ^ 63 ≤ n ∧ n < 2 ^ 63 then .ok n else .error .overflow

/-- The loop over the digits of a number. -/
def readDigits : ℤ → Text → Except Failure (ℤ × Text)
  | n, [] => .ok (n, [])
  | n, c :: t =>
    if c.isDigit then do
      let n ← int64 (n * 10)
      let n ← int64 (n + (c.toNat - '0'.toNat : ℕ))
      readDigits n t
    else .ok (n, c :: t)

/-- The header ends here, or a comma or a blank comes next. -/
def ends : Text → Bool
  | [] => true
  | c :: _ => c = ',' || isSpace c

/-- `bytes=-n`. -/
def parseSuffix (t : Text) : Except Failure (ℤ × ℤ) := do
  let (length, _) ← readDigits 0 t
  if length ≠ 0 then .ok (-1, length) else .error .invalid

/-- `bytes=a-` and `bytes=a-b`. -/
def parseFrom (t : Text) : Except Failure (ℤ × ℤ) := do
  let (start, t) ← readDigits 0 t
  match t with
  | [] => .error .invalid
  | c :: t =>
    if c = '-' then
      if ends t then .ok (start, -1)
      else do
        let (length, t) ← readDigits 0 t
        let length ← int64 (length - start)
        let length ← int64 (length + 1)
        if ¬ ends t ∨ length ≤ 0 then .error .invalid else .ok (start, length)
    else .error .invalid

/-- What is behind the unit. -/
def parseBody : Text → Except Failure (ℤ × ℤ)
  | [] => .error .invalid
  | c :: t =>
    if c = '-' then parseSuffix t
    else if c.isDigit then parseFrom (c :: t)
    else .error .invalid

/-- `parse_range`. -/
def parseRange (range : Text) : Except Failure (ℤ × ℤ) :=
  let t := range.dropWhile isSpace
  match t.dropWhile (· ≠ '=') with
  | [] => .error .invalid
  | _ :: body =>
    if t.takeWhile (· ≠ '=') = "bytes".toList then parseBody body else .error .invalid

/-! ### The headers there are -/

/-- A string of digits. -/
def IsNumber (t : Text) : Prop := t ≠ [] ∧ ∀ c ∈ t, c.isDigit

/-- What is behind the unit, with what it denotes: the first byte and the length, the first byte,
or the length of a suffix. All numbers fit. -/
inductive Denotes : Text → ℤ × ℤ → Prop
  | bounded (a b tail : Text) (ha : IsNumber a) (hb : IsNumber b)
    (hle : ofDigits a ≤ ofDigits b) (hfits : ofDigits b < 2 ^ 63)
    (hlength : ofDigits b - ofDigits a + 1 < 2 ^ 63) (htail : ends tail) :
    Denotes (a ++ '-' :: (b ++ tail)) (ofDigits a, ofDigits b - ofDigits a + 1)
  | unbounded (a tail : Text) (ha : IsNumber a) (hfits : ofDigits a < 2 ^ 63)
    (htail : ends tail) : Denotes (a ++ '-' :: tail) (ofDigits a, -1)
  | suffix (n : Text) (hn : IsNumber n) (hpos : 0 < ofDigits n) (hfits : ofDigits n < 2 ^ 63) :
    Denotes ('-' :: n) (-1, ofDigits n)

/-- Blanks, the unit, and what is behind it. -/
def HasBody (range body : Text) : Prop :=
  ∃ blanks : Text, (∀ c ∈ blanks, isSpace c) ∧ range = blanks ++ "bytes=".toList ++ body

/-- A header with what it denotes. -/
def Accepts (range : Text) (v : ℤ × ℤ) : Prop := ∃ body, HasBody range body ∧ Denotes body v

/-- **The law.** -/
def Law (range : Text) : Prop :=
  (∀ v, Accepts range v → parseRange range = .ok v) ∧
    ((∀ v, ¬ Accepts range v) → parseRange range = .error .invalid)

/-- The digits a text starts with, and their number. -/
def leading (t : Text) : Text := t.takeWhile Char.isDigit

def number (t : Text) : ℕ := ofDigits (leading t)

/-- What is behind the digits. -/
def rest (t : Text) : Text := t.dropWhile Char.isDigit

/-- No number that is read overflows, and nothing follows the number of a suffix. -/
def TameBody : Text → Prop
  | [] => True
  | c :: t =>
    if c = '-' then number t < 2 ^ 63 ∧ (number t = 0 ∨ rest t = [])
    else if c.isDigit then number (c :: t) < 2 ^ 63 ∧
      ∀ t', rest (c :: t) = '-' :: t' → ends t' = false →
        number t' < 2 ^ 63 ∧ (number t' : ℤ) - number (c :: t) + 1 < 2 ^ 63
    else True

/-- The condition on a header. -/
def Tame (range : Text) : Prop := ∀ body, HasBody range body → TameBody body

/-! ### Reading a number -/

section Digits

variable {t r a : Text} {n : ℕ}

theorem leading_append_rest (t : Text) : leading t ++ rest t = t := List.takeWhile_append_dropWhile

theorem leading_append (ha : ∀ c ∈ a, c.isDigit) (hr : ∀ c ∈ r.head?, c.isDigit = false) :
    leading (a ++ r) = a := by
  rw [leading, List.takeWhile_append_of_pos ha]
  cases r with
  | nil => simp
  | cons c r => simp [hr c rfl]

theorem rest_append (ha : ∀ c ∈ a, c.isDigit) (hr : ∀ c ∈ r.head?, c.isDigit = false) :
    rest (a ++ r) = r := by
  have hsplit := leading_append_rest (a ++ r)
  rw [leading_append ha hr] at hsplit
  exact List.append_cancel_left hsplit

theorem isDigit_of_mem_leading {c : Char} (h : c ∈ leading t) : c.isDigit :=
  List.mem_takeWhile_imp h

/-- What ends a number is not a digit. -/
theorem head_of_ends (h : ends t) : ∀ c ∈ t.head?, c.isDigit = false := by
  intro c hc
  cases t with
  | nil => cases hc
  | cons c' t =>
    obtain rfl := Option.some.inj hc
    by_contra hdigit
    rw [Bool.not_eq_false] at hdigit
    rw [ends, isSpace_of_isDigit hdigit, Bool.or_false, decide_eq_true_eq] at h
    subst h
    cases hdigit

/-- A number does not end where it starts. -/
theorem ends_append (ha : IsNumber a) : ends (a ++ r) = false := by
  obtain ⟨c, a, rfl⟩ := List.exists_cons_of_ne_nil ha.1
  have hc := ha.2 c List.mem_cons_self
  rw [List.cons_append, ends, isSpace_of_isDigit hc, Bool.or_false, decide_eq_false_iff_not]
  exact ne_of_isDigit hc rfl

theorem le_ofDigitChars (n : ℕ) (t : Text) : n ≤ Nat.ofDigitChars 10 t n := by
  induction t generalizing n with
  | nil => simp
  | cons c t ih =>
    rw [Nat.ofDigitChars_cons]
    have := ih (10 * n + (c.toNat - '0'.toNat))
    omega

theorem int64_of_lt (h : n < 2 ^ 63) : int64 (n : ℤ) = .ok (n : ℤ) :=
  if_pos ⟨by omega, by omega⟩

theorem int64_of_le (h : 2 ^ 63 ≤ n) : int64 (n : ℤ) = .error .overflow :=
  if_neg fun hfits => absurd hfits.2 (by omega)

theorem ok_bind {α β : Type} (a : α) (f : α → Except Failure β) :
    (Except.ok a >>= f) = f a := rfl

theorem error_bind {α β : Type} (e : Failure) (f : α → Except Failure β) :
    (Except.error e >>= f) = .error e := rfl

/-- The loop reads the digits it starts with, unless their number overflows. -/
theorem readDigits_eq (n : ℕ) (t : Text) (hn : n < 2 ^ 63) : readDigits n t =
    if Nat.ofDigitChars 10 (leading t) n < 2 ^ 63 then
      .ok ((Nat.ofDigitChars 10 (leading t) n : ℤ), rest t) else .error .overflow := by
  induction t generalizing n with
  | nil =>
    rw [if_pos (by simpa [leading] using hn)]
    rfl
  | cons c t ih =>
    by_cases hc : c.isDigit
    · have hleading : leading (c :: t) = c :: leading t := List.takeWhile_cons_of_pos hc
      have hrest : rest (c :: t) = rest t := List.dropWhile_cons_of_pos hc
      rw [readDigits, if_pos hc, hleading, hrest, Nat.ofDigitChars_cons]
      generalize c.toNat - '0'.toNat = d
      have hle := le_ofDigitChars (10 * n + d) (leading t)
      have hmul : (n : ℤ) * 10 = ((n * 10 : ℕ) : ℤ) := by omega
      have hadd : ((n * 10 : ℕ) : ℤ) + (d : ℤ) = ((10 * n + d : ℕ) : ℤ) := by omega
      rw [hmul]
      -- either the product overflows, or the sum, or the loop goes on
      by_cases hprod : n * 10 < 2 ^ 63
      · rw [int64_of_lt hprod, ok_bind, hadd]
        by_cases hsum : 10 * n + d < 2 ^ 63
        · rw [int64_of_lt hsum, ok_bind, ih _ hsum]
        · rw [int64_of_le (Nat.le_of_not_lt hsum), error_bind, if_neg (by omega)]
      · rw [int64_of_le (Nat.le_of_not_lt hprod), error_bind, if_neg (by omega)]
    · have hleading : leading (c :: t) = [] := List.takeWhile_cons_of_neg hc
      have hrest : rest (c :: t) = c :: t := List.dropWhile_cons_of_neg hc
      rw [readDigits, if_neg hc, hleading, hrest, Nat.ofDigitChars_nil, if_pos hn]

theorem readDigits_zero (t : Text) : readDigits 0 t =
    if number t < 2 ^ 63 then .ok ((number t : ℤ), rest t) else .error .overflow :=
  readDigits_eq 0 t (by omega)

end Digits

/-! ### What is behind the unit -/

/-- What a first byte, with or without a last one, denotes. -/
def denoteFrom (t : Text) : Option (ℤ × ℤ) :=
  match rest t with
  | [] => none
  | c :: t' =>
    if c = '-' then
      if ends t' then if number t < 2 ^ 63 then some (number t, -1) else none
      else if leading t' ≠ [] ∧ ends (rest t') ∧ number t ≤ number t' ∧ number t' < 2 ^ 63 ∧
          number t' - number t + 1 < 2 ^ 63 then
        some (number t, number t' - number t + 1)
      else none
    else none

/-- What a body denotes. -/
def denote : Text → Option (ℤ × ℤ)
  | [] => none
  | c :: t =>
    if c = '-' then
      if rest t = [] ∧ 0 < number t ∧ number t < 2 ^ 63 then some (-1, number t) else none
    else if c.isDigit then denoteFrom (c :: t)
    else none

section Body

variable {body range t : Text} {v : ℤ × ℤ}

theorem denote_of_isDigit {a : Text} (ha : IsNumber a) : denote (a ++ t) = denoteFrom (a ++ t) := by
  obtain ⟨c, a, rfl⟩ := List.exists_cons_of_ne_nil ha.1
  have hc := ha.2 c List.mem_cons_self
  rw [List.cons_append, denote, if_neg (ne_of_isDigit hc rfl), if_pos hc]

theorem denote_of_denotes (h : Denotes body v) : denote body = some v := by
  have hdash (t : Text) : ∀ c ∈ ('-' :: t).head?, c.isDigit = false := by
    intro c hc
    obtain rfl := Option.some.inj hc
    rfl
  cases h with
  | bounded a b tail ha hb hle hfits hlength htail =>
    rw [denote_of_isDigit ha, denoteFrom, rest_append ha.2 (hdash _)]
    simp only [if_true, ends_append hb, number, leading_append ha.2 (hdash _),
      leading_append hb.2 (head_of_ends htail), rest_append hb.2 (head_of_ends htail)]
    rw [if_neg Bool.false_ne_true, if_pos ⟨hb.1, htail, hle, hfits, hlength⟩]
  | unbounded a tail ha hfits htail =>
    rw [denote_of_isDigit ha, denoteFrom, rest_append ha.2 (hdash _)]
    simp only [if_true, htail, number, leading_append ha.2 (hdash _), if_pos hfits]
  | suffix n hn hpos hfits =>
    have hend : ∀ c ∈ ([] : Text).head?, c.isDigit = false := by
      intro c hc
      cases hc
    have hleading : leading n = n := by
      simpa using leading_append hn.2 hend
    have hrest : rest n = [] := by
      simpa using rest_append hn.2 hend
    rw [denote, if_pos rfl, number, hleading, if_pos ⟨hrest, hpos, hfits⟩]

theorem isNumber_leading (h : leading t ≠ []) : IsNumber (leading t) :=
  ⟨h, fun _ hc => isDigit_of_mem_leading hc⟩

theorem leading_ne_nil {c : Char} (hc : c.isDigit) : leading (c :: t) ≠ [] := by
  rw [leading, List.takeWhile_cons_of_pos hc]
  exact List.cons_ne_nil _ _

theorem denotes_of_denote (h : denote body = some v) : Denotes body v := by
  cases body with
  | nil => cases h
  | cons c t =>
    rw [denote] at h
    split_ifs at h with hdash hn hdigit
    · -- a suffix
      obtain ⟨hrest, hpos, hfits⟩ := hn
      obtain rfl := Option.some.inj h
      have hleading : leading t = t := by
        have hsplit := leading_append_rest t
        rwa [hrest, List.append_nil] at hsplit
      rw [number, hleading] at hpos hfits ⊢
      have hne : t ≠ [] := by
        rintro rfl
        exact absurd hpos (by simp [ofDigits])
      rw [hdash]
      refine .suffix t ⟨hne, fun c hc => ?_⟩ hpos hfits
      rw [← hleading] at hc
      exact isDigit_of_mem_leading hc
    · have ha := isNumber_leading (leading_ne_nil (t := t) hdigit)
      have hsplit := leading_append_rest (c :: t)
      generalize hbody : c :: t = body at *
      rw [denoteFrom] at h
      split at h
      · cases h
      · rename_i c' t' hrest
        split_ifs at h with hminus hends hfits hb
        · obtain rfl := Option.some.inj h
          have hdenotes : Denotes (leading body ++ '-' :: t') (number body, -1) :=
            .unbounded _ _ ha hfits hends
          rwa [← hminus, ← hrest, hsplit] at hdenotes
        · obtain rfl := Option.some.inj h
          obtain ⟨hne, htail, hle, hfits, hlength⟩ := hb
          have hdenotes : Denotes (leading body ++ '-' :: (leading t' ++ rest t'))
              (number body, number t' - number body + 1) :=
            .bounded _ _ _ ha (isNumber_leading hne) hle hfits hlength htail
          rwa [leading_append_rest, ← hminus, ← hrest, hsplit] at hdenotes

/-- The grammar and its reader agree. -/
theorem denotes_iff : Denotes body v ↔ denote body = some v :=
  ⟨denote_of_denotes, denotes_of_denote⟩

/-! ### The scanner on a body -/

/-- The scanner does what it should on a body. -/
def LawBody (body : Text) : Prop :=
  parseBody body = (denote body).elim (.error .invalid) .ok

theorem lawBody_suffix : LawBody ('-' :: t) ↔ TameBody ('-' :: t) := by
  rw [LawBody, parseBody, if_pos rfl, denote, if_pos rfl, TameBody, if_pos rfl, parseSuffix,
    readDigits_zero]
  by_cases hfits : number t < 2 ^ 63
  · rw [if_pos hfits, ok_bind]
    by_cases hzero : number t = 0
    · simp [hzero]
    · have hpos := Nat.pos_of_ne_zero hzero
      by_cases hrest : rest t = []
      · rw [if_pos ⟨hrest, hpos, hfits⟩]
        refine iff_of_true ?_ ⟨hfits, .inr hrest⟩
        simp [hzero]
      · rw [if_neg fun h => hrest h.1]
        refine iff_of_false ?_ fun h => h.2.elim hzero hrest
        simp [hzero]
  · rw [if_neg hfits, if_neg fun h => hfits h.2.2, error_bind]
    refine iff_of_false ?_ fun h => hfits h.1
    exact fun h => by cases h

theorem int64_sub {m n : ℕ} (hm : m < 2 ^ 63) (hn : n < 2 ^ 63) :
    int64 ((m : ℤ) - n) = .ok ((m : ℤ) - n) :=
  if_pos ⟨by omega, by omega⟩

theorem int64_length {m n : ℕ} (hn : n < 2 ^ 63) : int64 ((m : ℤ) - n + 1) =
    if (m : ℤ) - n + 1 < 2 ^ 63 then .ok ((m : ℤ) - n + 1) else .error .overflow := by
  split_ifs with h
  · exact if_pos ⟨by omega, h⟩
  · exact if_neg fun hfits => h hfits.2

/-- The second number and the length. -/
theorem law_bounded {t' : Text} (hfits : number t < 2 ^ 63) (hends : ends t' = false) :
    ((if number t' < 2 ^ 63 then Except.ok ((number t' : ℤ), rest t') else .error .overflow) >>=
      fun p => int64 (p.1 - number t) >>= fun length => int64 (length + 1) >>= fun length =>
        if ¬ ends p.2 ∨ length ≤ 0 then .error .invalid else .ok ((number t : ℤ), length)) =
      Option.elim (if leading t' ≠ [] ∧ ends (rest t') ∧ number t ≤ number t' ∧
          number t' < 2 ^ 63 ∧ number t' - number t + 1 < 2 ^ 63 then
            some ((number t : ℤ), (number t' : ℤ) - number t + 1) else none)
        (.error Failure.invalid) .ok ↔
      number t' < 2 ^ 63 ∧ (number t' : ℤ) - number t + 1 < 2 ^ 63 := by
  by_cases hfits' : number t' < 2 ^ 63
  · rw [if_pos hfits', ok_bind, int64_sub hfits' hfits, ok_bind, int64_length hfits]
    by_cases hlength : (number t' : ℤ) - number t + 1 < 2 ^ 63
    · rw [if_pos hlength, ok_bind]
      refine iff_of_true ?_ ⟨hfits', hlength⟩
      by_cases hgood : ends (rest t') ∧ number t ≤ number t'
      · -- without digits nothing would end here
        have hne : leading t' ≠ [] := by
          intro hnil
          have hsplit := leading_append_rest t'
          rw [hnil, List.nil_append] at hsplit
          rw [hsplit, hends] at hgood
          cases hgood.1
        rw [if_neg, if_pos ⟨hne, hgood.1, hgood.2, hfits', by omega⟩]
        · rfl
        · rintro (h | h)
          · exact h hgood.1
          · omega
      · rw [if_pos, if_neg fun h => hgood ⟨h.2.1, h.2.2.1⟩]
        · rfl
        · by_contra h
          rw [not_or, not_not] at h
          exact hgood ⟨h.1, by omega⟩
    · rw [if_neg hlength, error_bind]
      refine iff_of_false (fun h => ?_) fun h => hlength h.2
      split_ifs at h with hb
      · cases h
      · cases h
  · rw [if_neg hfits', error_bind, if_neg fun h => hfits' h.2.2.2.1]
    exact iff_of_false (fun h => by cases h) fun h => hfits' h.1

theorem denoteFrom_of_le (h : 2 ^ 63 ≤ number t) : denoteFrom t = none := by
  rw [denoteFrom]
  split
  · rfl
  · split_ifs with _ _ hfits hb
    · omega
    · rfl
    · omega
    · rfl
    · rfl

/-- A number, and what is behind it. -/
theorem lawBody_from {c : Char} (hc : c.isDigit) : LawBody (c :: t) ↔ TameBody (c :: t) := by
  have hminus : c ≠ '-' := ne_of_isDigit hc rfl
  rw [LawBody, parseBody, if_neg hminus, if_pos hc, denote, if_neg hminus, if_pos hc, TameBody,
    if_neg hminus, if_pos hc, parseFrom, readDigits_zero]
  generalize c :: t = body
  by_cases hfits : number body < 2 ^ 63
  · rw [if_pos hfits, ok_bind, denoteFrom]
    cases hrest : rest body with
    | nil => exact iff_of_true rfl ⟨hfits, fun t' h => by cases h⟩
    | cons c' t' =>
      by_cases hdash : c' = '-'
      · subst hdash
        simp only [if_true]
        cases hends : ends t' with
        | true =>
          rw [if_pos rfl, if_pos rfl, if_pos hfits]
          refine iff_of_true rfl ⟨hfits, fun t'' ht hends' => ?_⟩
          obtain rfl := (List.cons.inj ht).2
          rw [hends] at hends'
          cases hends'
        | false =>
          rw [if_neg Bool.false_ne_true, if_neg Bool.false_ne_true, readDigits_zero]
          have htame : (number body < 2 ^ 63 ∧ ∀ t'', '-' :: t' = '-' :: t'' → ends t'' = false →
              number t'' < 2 ^ 63 ∧ (number t'' : ℤ) - number body + 1 < 2 ^ 63) ↔
                number t' < 2 ^ 63 ∧ (number t' : ℤ) - number body + 1 < 2 ^ 63 := by
            constructor
            · exact fun h => h.2 t' rfl hends
            · refine fun h => ⟨hfits, fun t'' ht _ => ?_⟩
              rwa [← (List.cons.inj ht).2]
          rw [htame]
          exact law_bounded hfits hends
      · simp only [if_neg hdash]
        refine iff_of_true rfl ⟨hfits, fun t'' ht => ?_⟩
        exact absurd (List.cons.inj ht).1 hdash
  · rw [if_neg hfits, error_bind, denoteFrom_of_le (Nat.le_of_not_lt hfits)]
    exact iff_of_false (fun h => by cases h) fun h => hfits h.1

/-- On a body the scanner does what it should exactly where it is tame. -/
theorem lawBody_iff_tameBody : LawBody body ↔ TameBody body := by
  cases body with
  | nil => exact iff_of_true rfl trivial
  | cons c t =>
    by_cases hdash : c = '-'
    · subst hdash
      exact lawBody_suffix
    · by_cases hc : c.isDigit
      · exact lawBody_from hc
      · rw [LawBody, parseBody, denote, TameBody]
        simp only [if_neg hdash, if_neg hc]
        exact iff_of_true rfl trivial

theorem HasBody.dropWhile (h : HasBody range body) :
    range.dropWhile isSpace = "bytes=".toList ++ body := by
  obtain ⟨blanks, hblanks, rfl⟩ := h
  rw [List.append_assoc, List.dropWhile_append_of_pos hblanks]
  rfl

/-- The body of a header is found. -/
theorem parseRange_of_hasBody (h : HasBody range body) : parseRange range = parseBody body := by
  rw [parseRange, h.dropWhile]
  rfl

/-- A header without a body is rejected. -/
theorem parseRange_of_forall (h : ∀ body, ¬ HasBody range body) :
    parseRange range = .error .invalid := by
  simp only [parseRange]
  split
  · rfl
  · rename_i c body hdrop
    refine if_neg fun hunit => h body ?_
    have hc : c = '=' := by
      have hhead := List.head?_dropWhile_not (· ≠ '=') (range.dropWhile isSpace)
      rw [hdrop] at hhead
      simpa using hhead
    refine ⟨range.takeWhile isSpace, fun c hc => List.mem_takeWhile_imp hc, ?_⟩
    have hsplit := List.takeWhile_append_dropWhile (p := (· ≠ '=')) (l := range.dropWhile isSpace)
    rw [hdrop, hunit, hc] at hsplit
    calc range = range.takeWhile isSpace ++ range.dropWhile isSpace :=
          List.takeWhile_append_dropWhile.symm
      _ = range.takeWhile isSpace ++ ("bytes".toList ++ '=' :: body) := by rw [← hsplit]
      _ = range.takeWhile isSpace ++ "bytes=".toList ++ body := by
          rw [List.append_assoc]
          rfl

/-- A header has one body. -/
theorem hasBody_unique {body' : Text} (h : HasBody range body) (h' : HasBody range body') :
    body = body' :=
  List.append_cancel_left (h.dropWhile.symm.trans h'.dropWhile)

end Body

/-- **The scanner does what it should exactly on tame headers.** -/
theorem law_iff_tame (range : Text) : Law range ↔ Tame range := by
  by_cases hbody : ∃ body, HasBody range body
  · obtain ⟨body, hbody⟩ := hbody
    have haccepts (v : ℤ × ℤ) : Accepts range v ↔ denote body = some v := by
      rw [← denotes_iff]
      constructor
      · rintro ⟨body', hbody', hv⟩
        rwa [hasBody_unique hbody hbody']
      · exact fun hv => ⟨body, hbody, hv⟩
    have hlaw : Law range ↔ LawBody body := by
      rw [Law, LawBody, parseRange_of_hasBody hbody]
      simp only [haccepts]
      cases denote body with
      | none => simp
      | some v => simp
    rw [hlaw, lawBody_iff_tameBody]
    constructor
    · intro h body' hbody'
      rwa [← hasBody_unique hbody hbody']
    · exact fun h => h body hbody
  · rw [not_exists] at hbody
    refine iff_of_true ⟨?_, fun _ => parseRange_of_forall hbody⟩ fun body h => absurd h (hbody body)
    rintro v ⟨body, h, -⟩
    exact absurd h (hbody body)

/-- An overflow is neither a result nor a rejection. -/
theorem Law.ne_overflow {range : Text} (h : Law range) : parseRange range ≠ .error .overflow := by
  intro hoverflow
  by_cases haccepts : ∃ v, Accepts range v
  · obtain ⟨v, hv⟩ := haccepts
    have hok := h.1 v hv
    rw [hoverflow] at hok
    cases hok
  · have hinvalid := h.2 (not_exists.mp haccepts)
    rw [hoverflow] at hinvalid
    cases hinvalid

/-- **A suffix of `2 ^ 64 + 1` bytes overflows.** -/
theorem not_law : ¬ ∀ range : Text, Law range := by
  intro h
  exact (h "bytes=-18446744073709551617".toList).ne_overflow (by decide)

/-- What follows a suffix is not looked at. -/
example : parseRange "bytes=-5x".toList = .ok (-1, 5) := by decide

end WebApi

end Metax
