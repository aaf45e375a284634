import Mathlib.Data.UInt
import Mathlib.Data.BitVec

/-!
# Names, byte strings and packages

The vocabulary shared by the tasks of a node: uuids, byte strings, and the payload part of
`default_package`, whose `size` field is a `uint32_t`.
-/

namespace Metax

/-- A uuid. -/
abbrev UUID := BitVec 128

/-- Request ids. The counter of the source starts over at `2 ^ 28`; the ids in use at a time
are taken to be distinct. -/
abbrev ID32 := ℕ

/-- A byte string. -/
abbrev Bytes := List UInt8

/-- The last `w` hexadecimal digits of a number. -/
def hexDigits : ℕ → ℕ → List Char
  | 0, _ => []
  | w + 1, n => hexDigits w (n / 16) ++ [(n % 16).digitChar]

/-- The text form of a uuid: its hexadecimal digits in groups of 8-4-4-4-12. -/
def UUID.toString (u : UUID) : String :=
  let d := hexDigits 32 u.toNat
  String.ofList (d.take 8 ++ '-' :: (d.drop 8).take 4 ++ '-' :: (d.drop 12).take 4 ++
    '-' :: (d.drop 16).take 4 ++ '-' :: d.drop 20)

/-- The payload of a `default_package`. Its length fits the 32-bit field `size`. -/
structure Package where
  message : Bytes
  size_lt : message.length < 2 ^ 32

namespace Package

instance : DecidableEq Package := fun p q =>
  decidable_of_iff (p.message = q.message)
    ⟨fun h => by cases p; cases q; simp_all, by rintro rfl; rfl⟩

/-- The field `size`. -/
def size (p : Package) : ℕ := p.message.length

theorem size_lt_two_pow (p : Package) : p.size < 2 ^ 32 := p.size_lt

theorem size_nil : ([] : Bytes).length < 2 ^ 32 := by simp

theorem size_singleton (b : UInt8) : [b].length < 2 ^ 32 := by simp

/-- The package `default_package()`. -/
def empty : Package := ⟨[], size_nil⟩

end Package

end Metax
