import Mathlib.Data.List.TakeWhile

/-!
# Lines of a stream

`getline` of the C++ library on a stream that is given by what it still holds, and the
lines that a loop of such calls reads.

* `split_append`: a piece without the delimiter that is ended by one is read as a line
* `split_flatMap`: lines that are each ended by a delimiter are read back
-/

namespace Lines

variable {α : Type u} [DecidableEq α] {d : α}

/-- `getline(is, str, d)`: the string and the rest of the stream, `none` at its end. -/
def getline (d : α) : List α → Option (List α × List α)
  | [] => none
  | c :: is => some ((c :: is).takeWhile (· ≠ d), ((c :: is).dropWhile (· ≠ d)).tail)

/-- What is left behind a line is shorter than the input. -/
theorem length_of_getline {is line rest : List α} (h : getline d is = some (line, rest)) :
    rest.length < is.length := by
  cases is with
  | nil => exact nomatch h
  | cons c is =>
    cases h
    have hle : ((c :: is).dropWhile (· ≠ d)).length ≤ (c :: is).length :=
      (List.dropWhile_suffix _).length_le
    rw [List.length_tail]
    rw [List.length_cons] at hle ⊢
    omega

/-- The lines that are read until the stream is at its end. -/
def split (d : α) (is : List α) : List (List α) :=
  match _h : getline d is with
  | none => []
  | some (line, rest) => line :: split d rest
termination_by is.length
decreasing_by exact length_of_getline _h

/-- Without a line there is nothing to split. -/
theorem split_of_none {is : List α} (h : getline d is = none) : split d is = [] := by
  rw [split]
  split <;> rename_i heq
  · rfl
  · rw [h] at heq
    exact nomatch heq

/-- The first line, and the lines of the rest. -/
theorem split_of_some {is line rest : List α} (h : getline d is = some (line, rest)) :
    split d is = line :: split d rest := by
  rw [split]
  split <;> rename_i heq
  · rw [h] at heq
    exact nomatch heq
  · rw [h] at heq
    cases heq
    rfl

/-- What is read when no delimiter is left, an empty string at the end included. -/
theorem getline_of_not_mem {is : List α} (h : d ∉ is) :
    (getline d is).getD ([], []) = (is, []) := by
  cases is with
  | nil => rfl
  | cons c is =>
    have hpos : ∀ x ∈ c :: is, decide (x ≠ d) = true := by
      intro x hx
      rw [decide_eq_true_eq]
      rintro rfl
      exact h hx
    rw [getline, Option.getD_some, List.takeWhile_eq_self_iff.mpr hpos,
      List.dropWhile_eq_nil_iff.mpr hpos, List.tail_nil]

/-- A line with its delimiter at the front of the stream. -/
theorem getline_append {line : List α} (hline : d ∉ line) (rest : List α) :
    getline d (line ++ d :: rest) = some (line, rest) := by
  have hpos : ∀ c ∈ line, decide (c ≠ d) = true := by
    intro c hc
    rw [decide_eq_true_eq]
    rintro rfl
    exact hline hc
  have htake : (line ++ d :: rest).takeWhile (· ≠ d) = line := by
    rw [List.takeWhile_append_of_pos hpos, List.takeWhile_cons_of_neg (by simp), List.append_nil]
  have hdrop : (line ++ d :: rest).dropWhile (· ≠ d) = d :: rest := by
    rw [List.dropWhile_append_of_pos hpos, List.dropWhile_cons_of_neg (by simp)]
  obtain ⟨c, is, hcons⟩ := List.exists_cons_of_ne_nil
    (List.append_ne_nil_of_right_ne_nil line (List.cons_ne_nil d rest))
  rw [hcons] at htake hdrop ⊢
  rw [getline, htake, hdrop, List.tail_cons]

/-- A line with its delimiter is split off. -/
theorem split_append {line : List α} (hline : d ∉ line) (rest : List α) :
    split d (line ++ d :: rest) = line :: split d rest :=
  split_of_some (getline_append hline rest)

/-- Lines that are each ended by a delimiter are found again. -/
theorem split_flatMap {lines : List (List α)} (h : ∀ line ∈ lines, d ∉ line) :
    split d (lines.flatMap (· ++ [d])) = lines := by
  induction lines with
  | nil => exact split_of_none rfl
  | cons line lines ih =>
    rw [List.flatMap_cons, List.append_assoc, List.singleton_append,
      split_append (h line List.mem_cons_self), ih fun l hl => h l (List.mem_cons_of_mem line hl)]

/-- No line holds a delimiter. -/
theorem not_mem_of_mem_split {is line : List α} (hline : line ∈ split d is) : d ∉ line := by
  induction is using split.induct d with
  | case1 is hget =>
    rw [split_of_none hget] at hline
    exact absurd hline List.not_mem_nil
  | case2 is first rest hget ih =>
    rw [split_of_some hget] at hline
    rcases List.mem_cons.mp hline with rfl | hrest
    · cases is with
      | nil => exact nomatch hget
      | cons c is =>
        cases hget
        intro hmem
        have hne := List.mem_takeWhile_imp hmem
        simp at hne
    · exact ih hrest

/-- The characters of a line come from the stream. -/
theorem mem_of_mem_split {is line : List α} {c : α} (hline : line ∈ split d is) (hc : c ∈ line) :
    c ∈ is := by
  induction is using split.induct d with
  | case1 is hget =>
    rw [split_of_none hget] at hline
    exact absurd hline List.not_mem_nil
  | case2 is first rest hget ih =>
    rw [split_of_some hget] at hline
    cases is with
    | nil => exact nomatch hget
    | cons c' is =>
      cases hget
      rcases List.mem_cons.mp hline with rfl | hrest
      · exact (List.takeWhile_prefix _).subset hc
      · exact (List.dropWhile_suffix _).subset (List.mem_of_mem_tail (ih hrest))

end Lines
