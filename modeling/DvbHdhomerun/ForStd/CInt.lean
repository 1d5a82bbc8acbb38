/-!
# `int` and `size_t`

The conversions of C between a 32-bit `int` and a 64-bit `size_t`, and when they and the
addition of two `int`s keep the numbers they stand for.
-/

namespace CInt

/-- `INT_MAX`. -/
def intMax : Nat := 0x7fffffff

/-- An `int` where a `size_t` is wanted: the sign is extended. -/
def toSize (i : Int32) : UInt64 := i.toInt64.toUInt64

/-- A `size_t` where an `int` is wanted: its low 32 bits. -/
def ofSize (n : UInt64) : Int32 := n.toUInt32.toInt32

/-- A number that is not negative keeps its value as a `size_t`. -/
theorem toNat_toSize {i : Int32} (h : 0 ≤ i.toInt) : ((toSize i).toNat : Int) = i.toInt := by
  have hle : 0 ≤ i.toInt64 := by
    rw [Int64.le_iff_toInt_le, Int32.toInt_toInt64]
    exact h
  rw [toSize, Int64.toNat_toUInt64_of_le hle, ← Int64.toNat_toInt, Int32.toInt_toInt64]
  exact Int.toNat_of_nonneg h

/-- A `size_t` of at most `INT_MAX` keeps its value as an `int`. -/
theorem toInt_ofSize {n : UInt64} (h : n.toNat ≤ intMax) : (ofSize n).toInt = n.toNat := by
  have hlow : n.toUInt32.toNat = n.toNat := by
    rw [UInt64.toNat_toUInt32, Nat.mod_eq_of_lt]
    exact Nat.lt_of_le_of_lt h (by decide)
  have hlt : 2 * n.toUInt32.toBitVec.toNat < 2 ^ 32 := by
    show 2 * n.toUInt32.toNat < 2 ^ 32
    rw [hlow]
    exact Nat.lt_of_le_of_lt (Nat.mul_le_mul_left 2 h) (by decide)
  show n.toUInt32.toBitVec.toInt = _
  rw [BitVec.toInt_eq_toNat_of_lt hlt]
  exact congrArg Int.ofNat hlow

/-- A sum of at most `INT_MAX` does not overflow. -/
theorem toInt_add {a b : Int32} (ha : 0 ≤ a.toInt) (hb : 0 ≤ b.toInt)
    (h : a.toInt + b.toInt ≤ intMax) : (a + b).toInt = a.toInt + b.toInt := by
  have hmax : a.toInt + b.toInt ≤ 0x7fffffff := h
  rw [Int32.toInt_add]
  exact Int.bmod_eq_of_le (by omega) (by omega)

end CInt
