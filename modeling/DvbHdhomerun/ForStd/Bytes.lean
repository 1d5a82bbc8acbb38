import Mathlib.Algebra.Group.Nat.Defs
import Mathlib.Data.List.Basic

/-!
# Little-endian fields in a block of memory

Reading and overwriting a slice of a list of bytes, and the little-endian bytes of a
number. A structure that lives in memory is then a byte list, its fields are slices of
it, and what a program leaves unwritten is whatever was there before.
-/

namespace List

/-- The `n` items from index `off` on. -/
def slice (l : List α) (off n : Nat) : List α := (l.drop off).take n

/-- `l` with the items from index `off` on replaced by `new`. -/
def overwrite (l : List α) (off : Nat) (new : List α) : List α :=
  l.take off ++ new ++ l.drop (off + new.length)

/-- Overwriting inside a list keeps its length. -/
theorem length_overwrite {l new : List α} {off : Nat} (h : off + new.length ≤ l.length) :
    (l.overwrite off new).length = l.length := by
  simp only [overwrite, length_append, length_take, length_drop]
  omega

/-- Reading back what was written. -/
theorem slice_overwrite_self {l new : List α} {off : Nat} (h : off + new.length ≤ l.length) :
    (l.overwrite off new).slice off new.length = new := by
  have hoff : (l.take off).length = off := by
    rw [length_take]
    omega
  rw [slice, overwrite, append_assoc, drop_left' hoff, take_left' rfl]

/-- A write does not change what lies before it. -/
theorem slice_overwrite_before {l new : List α} {off off' n : Nat} (h : off' + n ≤ off)
    (hl : off ≤ l.length) : (l.overwrite off new).slice off' n = l.slice off' n := by
  have hlen : (l.take off).length = off := by
    rw [length_take]
    omega
  rw [slice, overwrite, append_assoc, drop_append_of_le_length (by omega), drop_take,
    take_append_of_le_length (by rw [length_take, length_drop]; omega), take_take, slice,
    Nat.min_eq_left (by omega)]

/-- A write does not change what lies behind it. -/
theorem slice_overwrite_after {l new : List α} {off off' n : Nat} (h : off + new.length ≤ off')
    (hl : off ≤ l.length) : (l.overwrite off new).slice off' n = l.slice off' n := by
  have hlen : (l.take off ++ new).length = off + new.length := by
    rw [length_append, length_take]
    omega
  rw [slice, overwrite, drop_append, drop_of_length_le (by omega), nil_append, drop_drop, hlen,
    slice]
  congr 2
  omega

end List

namespace Bytes

/-- The `n` low bytes of `v`, least significant first. -/
def ofNat : Nat → Nat → List UInt8
  | 0, _ => []
  | n + 1, v => UInt8.ofNat v :: ofNat n (v / 256)

/-- The number whose little-endian bytes are `bs`. -/
def toNat : List UInt8 → Nat
  | [] => 0
  | b :: bs => b.toNat + 256 * toNat bs

/-- A number takes the bytes it is given. -/
@[simp] theorem length_ofNat (n v : Nat) : (ofNat n v).length = n := by
  induction n generalizing v with
  | zero => rfl
  | succ n ih => rw [ofNat, List.length_cons, ih]

/-- Writing a number as `n` bytes and reading it back keeps its low `n` bytes. -/
theorem toNat_ofNat (n v : Nat) : toNat (ofNat n v) = v % 256 ^ n := by
  induction n generalizing v with
  | zero => simp only [ofNat, toNat, Nat.pow_zero, Nat.mod_one]
  | succ n ih =>
    rw [ofNat, toNat, ih, Nat.pow_succ, Nat.mul_comm _ 256, Nat.mod_mul, UInt8.toNat_ofNat']

end Bytes
