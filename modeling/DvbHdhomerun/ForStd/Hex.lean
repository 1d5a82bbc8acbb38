import Mathlib.Data.Nat.Digits.Lemmas

/-!
# Hexadecimal numerals

A number as a list of hexadecimal digits, upper case and without leading zeros, and the
value of such a list. `value_upper` is the round trip.
-/

namespace Hex

/-- The digit for a value below 16. -/
def digit (d : Nat) : Char := if d < 10 then Char.ofNat (48 + d) else Char.ofNat (55 + d)

/-- The value of a hexadecimal digit. -/
def digitValue (c : Char) : Option Nat :=
  if '0' ≤ c ∧ c ≤ '9' then some (c.toNat - 48)
  else if 'A' ≤ c ∧ c ≤ 'F' then some (c.toNat - 55)
  else if 'a' ≤ c ∧ c ≤ 'f' then some (c.toNat - 87)
  else none

/-- The upper case numeral of a number. -/
def upper (n : Nat) : List Char :=
  if n = 0 then ['0'] else ((Nat.digits 16 n).map digit).reverse

/-- One more digit at the end of a numeral. -/
def push (acc : Option Nat) (c : Char) : Option Nat :=
  acc.bind fun a => (digitValue c).map fun d => d + 16 * a

/-- The value of a numeral; there is none without digits. -/
def value (cs : List Char) : Option Nat := if cs = [] then none else cs.foldl push (some 0)

/-- Digits are ASCII characters. -/
theorem toNat_of_digitValue {c : Char} (h : digitValue c ≠ none) : 0 < c.toNat ∧ c.toNat < 128 := by
  unfold digitValue at h
  have hval : ∀ a b : Char, a ≤ b ↔ a.toNat ≤ b.toNat := fun a b => Iff.rfl
  simp only [hval] at h
  split at h
  · rename_i hc
    exact ⟨Nat.lt_of_lt_of_le (by decide) hc.1, Nat.lt_of_le_of_lt hc.2 (by decide)⟩
  · split at h
    · rename_i hc
      exact ⟨Nat.lt_of_lt_of_le (by decide) hc.1, Nat.lt_of_le_of_lt hc.2 (by decide)⟩
    · split at h
      · rename_i hc
        exact ⟨Nat.lt_of_lt_of_le (by decide) hc.1, Nat.lt_of_le_of_lt hc.2 (by decide)⟩
      · exact absurd rfl h

/-- Digits have the values they were written for. -/
theorem digitValue_digit {d : Nat} (h : d < 16) : digitValue (digit d) = some d := by
  interval_cases d <;> rfl

/-- A numeral consists of digits. -/
theorem exists_digit_of_mem_upper {n : Nat} {c : Char} (h : c ∈ upper n) :
    ∃ d < 16, c = digit d := by
  unfold upper at h
  split at h
  · exact ⟨0, by decide, List.mem_singleton.mp h⟩
  · obtain ⟨d, hd, rfl⟩ := List.mem_map.mp (List.mem_reverse.mp h)
    exact ⟨d, Nat.digits_lt_base (by decide) hd, rfl⟩

/-- Every number has a digit. -/
theorem upper_ne_nil (n : Nat) : upper n ≠ [] := by
  unfold upper
  split
  · exact List.cons_ne_nil _ _
  · rename_i h
    simp [Nat.digits_eq_nil_iff_eq_zero, h]

/-- Reading digits, least significant last, adds them up. -/
private theorem foldl_push_digits (ds : List Nat) (h : ∀ d ∈ ds, d < 16) :
    (ds.map digit).reverse.foldl push (some 0) = some (Nat.ofDigits 16 ds) := by
  induction ds with
  | nil => rfl
  | cons d ds ih =>
    have hd : d < 16 := h d List.mem_cons_self
    have hds : ∀ d ∈ ds, d < 16 := fun d hd => h d (List.mem_cons_of_mem _ hd)
    rw [List.map_cons, List.reverse_cons, List.foldl_append, ih hds]
    simp [push, digitValue_digit hd, Nat.ofDigits_cons]

/-- Reading back the numeral of a number gives the number. -/
theorem value_upper (n : Nat) : value (upper n) = some n := by
  rw [value, if_neg (upper_ne_nil n), upper]
  split
  · rename_i h
    rw [h]
    rfl
  · rw [foldl_push_digits _ fun d hd => Nat.digits_lt_base (by decide) hd, Nat.ofDigits_digits]

end Hex
