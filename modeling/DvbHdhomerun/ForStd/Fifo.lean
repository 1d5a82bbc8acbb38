import Mathlib.Data.List.Basic

/-!
# Bounded FIFO buffers

A FIFO that holds at most `cap` items. `put` copies as much as fits and says how much
that was, `get` takes at most what is asked for, in the manner of a ring buffer that
never blocks. The bound is a field, so an overfull buffer cannot be built.

A stream of records can be sent through such a buffer as long as every `put` finds room
for a whole record: `Framed enc f frames` says that `f` holds exactly the records
`frames`, each encoded by `enc`.
-/

/-- A FIFO buffer of at most `cap` items, oldest first. -/
structure Fifo (α : Type u) (cap : Nat) where
  data : List α
  bound : data.length ≤ cap

namespace Fifo

variable {α : Type u} {cap : Nat}

/-- The empty buffer. -/
def empty : Fifo α cap := ⟨[], Nat.zero_le cap⟩

/-- Number of items held. -/
def len (f : Fifo α cap) : Nat := f.data.length

/-- Number of items for which there is room. -/
def avail (f : Fifo α cap) : Nat := cap - f.len

/-- Append as many of `xs` as fit; the number of items copied and the new buffer. -/
def put (f : Fifo α cap) (xs : List α) : Nat × Fifo α cap :=
  (min xs.length f.avail,
    ⟨f.data ++ xs.take f.avail, by
      have := f.bound
      simp only [List.length_append, List.length_take, avail, len]
      omega⟩)

/-- Take the `n` oldest items, or all of them when there are fewer. -/
def get (f : Fifo α cap) (n : Nat) : List α × Fifo α cap :=
  (f.data.take n, ⟨f.data.drop n, by
    have := f.bound
    simp only [List.length_drop]
    omega⟩)

/-- No more is held than there is room for. -/
theorem len_le (f : Fifo α cap) : f.len ≤ cap := f.bound

/-- What is held and what is free make up the capacity. -/
theorem len_add_avail (f : Fifo α cap) : f.len + f.avail = cap := by
  have := f.len_le
  simp only [avail]
  omega

/-- A `put` appends what fits. -/
@[simp] theorem put_data (f : Fifo α cap) (xs : List α) :
    (f.put xs).2.data = f.data ++ xs.take f.avail := rfl

/-- A `put` counts what fits. -/
@[simp] theorem put_count (f : Fifo α cap) (xs : List α) :
    (f.put xs).1 = min xs.length f.avail := rfl

/-- A `get` yields the oldest items. -/
@[simp] theorem get_items (f : Fifo α cap) (n : Nat) : (f.get n).1 = f.data.take n := rfl

/-- A `get` leaves the others. -/
@[simp] theorem get_data (f : Fifo α cap) (n : Nat) : (f.get n).2.data = f.data.drop n := rfl

/-- Buffers that hold the same are equal. -/
@[ext] theorem ext {f g : Fifo α cap} (h : f.data = g.data) : f = g := by
  cases f
  cases g
  cases h
  rfl

/-- With room for everything a `put` appends everything. -/
theorem put_data_of_room {f : Fifo α cap} {xs : List α} (h : xs.length ≤ f.avail) :
    (f.put xs).2.data = f.data ++ xs := by
  rw [put_data, List.take_of_length_le h]

/-- A `put` that reports fewer items than it was given met a buffer without room. -/
theorem put_count_lt_iff {f : Fifo α cap} {xs : List α} :
    (f.put xs).1 < xs.length ↔ f.avail < xs.length := by
  rw [put_count]
  omega

/-- A `get` yields nothing only when there is nothing. -/
theorem get_items_eq_nil_iff {f : Fifo α cap} {n : Nat} (hn : 0 < n) :
    (f.get n).1 = [] ↔ f.data = [] := by
  rw [get_items, List.take_eq_nil_iff]
  constructor
  · intro h
    exact h.resolve_left (Nat.ne_of_gt hn)
  · exact Or.inr

/-! ## Images -/

section Map

variable {β : Type v} (g : α → β)

/-- The buffer of the images. -/
def map (f : Fifo α cap) : Fifo β cap :=
  ⟨f.data.map g, by
    rw [List.length_map]
    exact f.bound⟩

/-- The images are as many. -/
theorem len_map (f : Fifo α cap) : (f.map g).len = f.len := List.length_map g

/-- A `get` yields and leaves the images of what it would have. -/
theorem map_get (f : Fifo α cap) (n : Nat) :
    (f.get n).1.map g = ((f.map g).get n).1 ∧ (f.get n).2.map g = ((f.map g).get n).2 := by
  refine ⟨?_, ext ?_⟩
  · simp only [get_items, map, List.map_take]
  · simp only [get_data, map, List.map_drop]

/-- A `put` of the images counts the same and leaves the images. -/
theorem map_put (f : Fifo α cap) (xs : List α) :
    (f.put xs).1 = ((f.map g).put (xs.map g)).1 ∧
      (f.put xs).2.map g = ((f.map g).put (xs.map g)).2 := by
  have havail : (f.map g).avail = f.avail := by rw [avail, avail, len_map]
  refine ⟨?_, ext ?_⟩
  · rw [put_count, put_count, havail, List.length_map]
  · rw [put_data, havail]
    simp only [put_data, map, List.map_append, List.map_take]

end Map

/-! ## Records of a fixed length -/

section Framed

variable {β : Type v} {k : Nat} {enc : β → List α}

/-- The buffer holds exactly the records `frames`, oldest first. -/
def Framed (enc : β → List α) (f : Fifo α cap) (frames : List β) : Prop :=
  f.data = frames.flatMap enc

/-- The records together are as long as their number says. -/
theorem length_flatMap_enc (hk : ∀ b, (enc b).length = k) (frames : List β) :
    (frames.flatMap enc).length = k * frames.length := by
  induction frames with
  | nil => rfl
  | cons b bs ih =>
    rw [List.flatMap_cons, List.length_append, hk, ih, List.length_cons, Nat.mul_succ]
    omega

/-- So is a buffer that holds them. -/
theorem Framed.len_eq {f : Fifo α cap} {frames : List β} (hk : ∀ b, (enc b).length = k)
    (h : Framed enc f frames) : f.len = k * frames.length := by
  rw [len, h, length_flatMap_enc hk]

/-- Putting a record for which there is room appends it. -/
theorem Framed.put {f : Fifo α cap} {frames : List β} (h : Framed enc f frames) {b : β}
    (hroom : (enc b).length ≤ f.avail) : Framed enc (f.put (enc b)).2 (frames ++ [b]) := by
  rw [Framed, put_data_of_room hroom, h, List.flatMap_append, List.flatMap_singleton]

/-- Getting one record's length takes exactly the oldest record. -/
theorem Framed.get_items {f : Fifo α cap} {b : β} {bs : List β} (hk : ∀ b, (enc b).length = k)
    (h : Framed enc f (b :: bs)) : (f.get k).1 = enc b := by
  rw [Fifo.get_items, h, List.flatMap_cons, List.take_left' (hk b)]

/-- Getting one record's length leaves the other records whole. -/
theorem Framed.get_rest {f : Fifo α cap} {b : β} {bs : List β} (hk : ∀ b, (enc b).length = k)
    (h : Framed enc f (b :: bs)) : Framed enc (f.get k).2 bs := by
  rw [Framed, get_data, h, List.flatMap_cons, List.drop_left' (hk b)]

/-- Without records the buffer is empty. -/
theorem Framed.nil_data {f : Fifo α cap} (h : Framed enc f []) : f.data = [] := h

/-- A `get` of one record's length that yields something takes the oldest record. -/
theorem Framed.of_get {f : Fifo α cap} {frames : List β} {x : α} {xs : List α}
    (hk : ∀ b, (enc b).length = k) (h : Framed enc f frames) (hget : (f.get k).1 = x :: xs) :
    ∃ b bs, frames = b :: bs ∧ enc b = x :: xs ∧ Framed enc (f.get k).2 bs := by
  cases frames with
  | nil =>
    rw [Fifo.get_items, h.nil_data, List.take_nil] at hget
    exact nomatch hget
  | cons b bs =>
    rw [h.get_items hk] at hget
    exact ⟨b, bs, rfl, hget, h.get_rest hk⟩

/-- Every item belongs to some record, and every record's items are held. -/
theorem Framed.mem_iff {f : Fifo α cap} {frames : List β} (h : Framed enc f frames) {x : α} :
    x ∈ f.data ↔ ∃ b ∈ frames, x ∈ enc b := by
  rw [h, List.mem_flatMap]

/-- The room left over by whole records, when the capacity is not a multiple of their
    length: a record that does not fit is still partly copied. -/
theorem Framed.avail_pos {f : Fifo α cap} {frames : List β} (hk : ∀ b, (enc b).length = k)
    (hcap : cap % k ≠ 0) (h : Framed enc f frames) : 0 < f.avail := by
  have hlen := h.len_eq hk
  have hle := f.len_le
  have hne : f.len ≠ cap := by
    intro heq
    rw [hlen] at heq
    rw [← heq, Nat.mul_mod_right] at hcap
    exact hcap rfl
  simp only [avail]
  omega

end Framed

end Fifo
