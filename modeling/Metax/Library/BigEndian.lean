import Mathlib.Data.List.Induction
import Mathlib.Algebra.Order.Ring.Nat
import Mathlib.Tactic.Ring

/-!
# Numbers in network byte order

`encode w n` writes the low `8 * w` bits of `n` as `w` bytes, most significant byte first, and
`decode` reads such a byte string back.
-/

namespace BigEndian

/-- The `w` bytes of `n`, most significant first. -/
def encode : ℕ → ℕ → List UInt8
  | 0, _ => []
  | w + 1, n => encode w (n / 256) ++ [UInt8.ofNat (n % 256)]

/-- The number a byte string stands for. -/
def decode (l : List UInt8) : ℕ := l.foldl (fun n b => 256 * n + b.toNat) 0

@[simp]
theorem length_encode (w n : ℕ) : (encode w n).length = w := by
  induction w generalizing n with
  | zero => rfl
  | succ w ih => simp [encode, ih]

theorem decode_append_singleton (l : List UInt8) (b : UInt8) :
    decode (l ++ [b]) = 256 * decode l + b.toNat := by
  simp [decode]

theorem decode_lt (l : List UInt8) : decode l < 256 ^ l.length := by
  induction l using List.reverseRecOn with
  | nil => simp [decode]
  | append_singleton l b ih =>
    have hb := b.toNat_lt
    rw [decode_append_singleton, List.length_append, List.length_singleton, pow_succ]
    omega

/-- Reading back what was written loses nothing but the bits above the field. -/
theorem decode_encode_mod (w n : ℕ) : decode (encode w n) = n % 256 ^ w := by
  induction w generalizing n with
  | zero => simp [encode, decode, Nat.mod_one]
  | succ w ih =>
    have hbyte : (UInt8.ofNat (n % 256)).toNat = n % 256 := by simp
    rw [encode, decode_append_singleton, ih, hbyte, pow_succ', Nat.mod_mul]
    omega

theorem decode_encode {w n : ℕ} (h : n < 256 ^ w) : decode (encode w n) = n := by
  rw [decode_encode_mod, Nat.mod_eq_of_lt h]

end BigEndian
