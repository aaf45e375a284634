import Mathlib.Data.List.Basic

/-!
# Bytes as hexadecimal digits

A byte is written as two digits, the high half first, in lower case. Digits of both cases are read
back, and what is written is read back as it was (`decode_encode`).
-/

namespace Hex

/-- The two digits of a byte. -/
def digits (b : UInt8) : List Char := [(b.toNat / 16).digitChar, (b.toNat % 16).digitChar]

/-- Bytes as digits. -/
def encode (bs : List UInt8) : List Char := bs.flatMap digits

/-- What a digit stands for. -/
def value (c : Char) : Option ℕ :=
  if '0' ≤ c ∧ c ≤ '9' then some (c.toNat - 48)
  else if 'a' ≤ c ∧ c ≤ 'f' then some (c.toNat - 87)
  else if 'A' ≤ c ∧ c ≤ 'F' then some (c.toNat - 55)
  else none

/-- Digits as bytes. -/
def decode : List Char → Option (List UInt8)
  | [] => some []
  | [_] => none
  | c :: c' :: cs => (value c).bind fun x => (value c').bind fun y =>
    (decode cs).map fun bs => UInt8.ofNat (16 * x + y) :: bs

@[simp]
theorem encode_nil : encode [] = [] := rfl

@[simp]
theorem encode_cons {b : UInt8} {bs : List UInt8} : encode (b :: bs) = digits b ++ encode bs := rfl

/-- A digit is read as what it was written for. -/
theorem value_digitChar : ∀ n < 16, value n.digitChar = some n := by decide

/-- **What is written is read back.** -/
theorem decode_encode (bs : List UInt8) : decode (encode bs) = some bs := by
  induction bs with
  | nil => rfl
  | cons b bs ih =>
    have hb := b.toNat_lt
    have hhigh := value_digitChar (b.toNat / 16) (by omega)
    have hlow := value_digitChar (b.toNat % 16) (Nat.mod_lt _ (by decide))
    have hhalves : 16 * (b.toNat / 16) + b.toNat % 16 = b.toNat := Nat.div_add_mod _ _
    rw [encode_cons, digits, List.cons_append, List.cons_append, List.nil_append, decode, hhigh,
      hlow, ih, Option.bind_some, Option.bind_some, Option.map_some, hhalves, UInt8.ofNat_toNat]

theorem encode_injective : Function.Injective encode := fun a b h =>
  Option.some.inj ((decode_encode a).symm.trans ((congrArg decode h).trans (decode_encode b)))

end Hex
