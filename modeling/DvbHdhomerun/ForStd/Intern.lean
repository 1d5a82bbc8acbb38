import Mathlib.Data.Finset.Card

/-!
# Interning keys in a table of bounded size

A table hands out the position of a key's first request and gives the same position to every
later request for that key. A new key is turned away when the table is full.

* `Intern.request`: one request
* `Intern.requests`: a sequence of requests, with the answers
* `getElem?_of_mem_answers`, `exists_answer_of_new`, `answer_eq_iff`: the answers are the
  places of the final table, one for each key
* `length_requests`: the table fills up with the different keys
-/

namespace Intern

variable {κ : Type u} [BEq κ] {cap : Nat}

/-- The answer to one request, and the table after it. -/
def request (cap : Nat) (table : List κ) (key : κ) : Option Nat × List κ :=
  match table.idxOf? key with
  | some i => (some i, table)
  | none =>
    if table.length < cap then (some table.length, table ++ [key])
    else (none, table)

/-- The requests answered in order, and the table after the last. -/
def requests (cap : Nat) (table : List κ) : List κ → List (κ × Option Nat) × List κ
  | [] => ([], table)
  | key :: keys =>
    let first := request cap table key
    let rest := requests cap first.2 keys
    ((key, first.1) :: rest.1, rest.2)

/-- The first request and the rest on the table it leaves. -/
theorem requests_cons (table : List κ) (key : κ) (keys : List κ) :
    requests cap table (key :: keys) =
      ((key, (request cap table key).1) :: (requests cap (request cap table key).2 keys).1,
        (requests cap (request cap table key).2 keys).2) := rfl

/-- Two sequences of requests in a row. -/
theorem requests_append (table : List κ) (keys keys' : List κ) :
    (requests cap table (keys ++ keys')).2 = (requests cap (requests cap table keys).2 keys').2 := by
  induction keys generalizing table with
  | nil => rfl
  | cons key keys ih => exact ih (request cap table key).2

variable [LawfulBEq κ]

/-- What one request does: it finds the key, takes the next free place, or is turned away. -/
theorem request_cases (cap : Nat) (table : List κ) (key : κ) :
    (∃ i, table[i]? = some key ∧ request cap table key = (some i, table)) ∨
    (key ∉ table ∧ table.length < cap ∧
      request cap table key = (some table.length, table ++ [key])) ∨
    (key ∉ table ∧ cap ≤ table.length ∧ request cap table key = (none, table)) := by
  unfold request
  cases h : table.idxOf? key with
  | some i =>
    obtain ⟨hi, hkey, _⟩ := List.findIdx?_eq_some_iff_getElem.mp h
    refine .inl ⟨i, ?_, rfl⟩
    rw [List.getElem?_eq_getElem hi, eq_of_beq hkey]
  | none =>
    have hmem : key ∉ table := List.idxOf?_eq_none_iff.mp h
    by_cases hlen : table.length < cap
    · exact .inr (.inl ⟨hmem, hlen, if_pos hlen⟩)
    · exact .inr (.inr ⟨hmem, Nat.le_of_not_lt hlen, if_neg hlen⟩)

/-- A table without repetitions that fits. -/
structure Valid {κ : Type u} (cap : Nat) (table : List κ) : Prop where
  nodup : table.Nodup
  length_le : table.length ≤ cap

/-- A request keeps the keys different and within the room. -/
theorem Valid.request {table : List κ} (h : Valid cap table) (key : κ) :
    Valid cap (request cap table key).2 := by
  obtain ⟨i, _, heq⟩ | ⟨hmem, hlen, heq⟩ | ⟨_, _, heq⟩ := request_cases cap table key
  · rw [heq]
    exact h
  · rw [heq]
    refine ⟨List.nodup_append.mpr ⟨h.nodup, List.nodup_singleton key, ?_⟩, ?_⟩
    · intro a ha b hb
      rw [List.mem_singleton.mp hb]
      exact fun hab => hmem (hab ▸ ha)
    · rw [List.length_append, List.length_singleton]
      exact hlen
  · rw [heq]
    exact h

/-- So do any requests. -/
theorem Valid.requests {table : List κ} (h : Valid cap table) (keys : List κ) :
    Valid cap (requests cap table keys).2 := by
  induction keys generalizing table with
  | nil => exact h
  | cons key keys ih => exact ih (h.request key)

/-- Entries are never moved. -/
theorem prefix_request (table : List κ) (key : κ) : table <+: (request cap table key).2 := by
  obtain ⟨i, _, heq⟩ | ⟨_, _, heq⟩ | ⟨_, _, heq⟩ := request_cases cap table key
  · exact heq ▸ List.prefix_refl table
  · exact heq ▸ List.prefix_append table [key]
  · exact heq ▸ List.prefix_refl table

/-- Keys are only ever added behind those of the table. -/
theorem prefix_requests (table : List κ) (keys : List κ) :
    table <+: (requests cap table keys).2 := by
  induction keys generalizing table with
  | nil => exact List.prefix_refl _
  | cons key keys ih => exact (prefix_request table key).trans (ih _)

/-- An answer is the place of the key from then on. -/
theorem getElem?_of_answer {table : List κ} {key : κ} {i : Nat}
    (h : (request cap table key).1 = some i) : (request cap table key).2[i]? = some key := by
  obtain ⟨j, hj, heq⟩ | ⟨_, _, heq⟩ | ⟨_, _, heq⟩ := request_cases cap table key
  · rw [heq] at h ⊢
    cases h
    exact hj
  · rw [heq] at h ⊢
    cases h
    rw [List.getElem?_concat_length]
  · rw [heq] at h
    exact nomatch h

/-- A place of the new table that the old one does not have has just been handed out. -/
theorem answered_of_new {table : List κ} {key : κ} {i : Nat} (hold : table.length ≤ i)
    (hnew : i < (request cap table key).2.length) : (request cap table key).1 = some i := by
  obtain ⟨j, _, heq⟩ | ⟨_, _, heq⟩ | ⟨_, _, heq⟩ := request_cases cap table key
  · rw [heq] at hnew
    exact absurd hnew (Nat.not_lt.mpr hold)
  · rw [heq, List.length_append, List.length_singleton] at hnew
    rw [heq, Nat.le_antisymm (Nat.le_of_lt_succ hnew) hold]
  · rw [heq] at hnew
    exact absurd hnew (Nat.not_lt.mpr hold)

/-! ## Sequences of requests -/

/-- Every answer is the place of its key in the final table. -/
theorem getElem?_of_mem_answers {table : List κ} {keys : List κ} {key : κ} {i : Nat}
    (h : (key, some i) ∈ (requests cap table keys).1) :
    (requests cap table keys).2[i]? = some key := by
  induction keys generalizing table with
  | nil => exact nomatch h
  | cons key' keys ih =>
    rw [requests_cons] at h ⊢
    rcases List.mem_cons.mp h with heq | hrest
    · obtain ⟨rfl, hi⟩ := Prod.ext_iff.mp heq
      have hnow := getElem?_of_answer hi.symm
      obtain ⟨hlt, _⟩ := List.getElem?_eq_some_iff.mp hnow
      -- later requests leave the entry where it is
      have hpre : (request cap table key).2 <+: (requests cap (request cap table key).2 keys).2 :=
        prefix_requests _ keys
      obtain ⟨rest, hrest⟩ := hpre
      rw [← hrest, List.getElem?_append_left hlt, hnow]
    · exact ih hrest

/-- Every place that was not taken before has been handed out. -/
theorem exists_answer_of_new {table : List κ} {keys : List κ} {i : Nat}
    (hold : table.length ≤ i) (hnew : i < (requests cap table keys).2.length) :
    ∃ key, (key, some i) ∈ (requests cap table keys).1 := by
  induction keys generalizing table with
  | nil => exact absurd hnew (Nat.not_lt.mpr hold)
  | cons key keys ih =>
    rw [requests_cons] at hnew ⊢
    by_cases hnow : i < (request cap table key).2.length
    · refine ⟨key, List.mem_cons.mpr (.inl ?_)⟩
      rw [answered_of_new hold hnow]
    · obtain ⟨key', hkey'⟩ := ih (Nat.le_of_not_lt hnow) hnew
      exact ⟨key', List.mem_cons_of_mem _ hkey'⟩

/-- Two answers are the same exactly when their keys are. -/
theorem answer_eq_iff {table : List κ} (hvalid : Valid cap table) {keys : List κ} {key key' : κ}
    {i i' : Nat} (h : (key, some i) ∈ (requests cap table keys).1)
    (h' : (key', some i') ∈ (requests cap table keys).1) : i = i' ↔ key = key' := by
  have hi := getElem?_of_mem_answers h
  have hi' := getElem?_of_mem_answers h'
  constructor
  · intro heq
    rw [heq, hi'] at hi
    exact (Option.some.inj hi).symm
  · intro heq
    obtain ⟨hlt, _⟩ := List.getElem?_eq_some_iff.mp hi
    refine (List.getElem?_inj hlt (hvalid.requests keys).nodup).mp ?_
    rw [hi, hi', heq]

/-- The table has a place for every different key as long as it has room. -/
theorem length_requests [DecidableEq κ] {table : List κ} (hvalid : Valid cap table)
    (keys : List κ) :
    (requests cap table keys).2.length = min cap (table ++ keys).toFinset.card := by
  induction keys generalizing table with
  | nil =>
    rw [List.append_nil, List.toFinset_card_of_nodup hvalid.nodup]
    exact (Nat.min_eq_right hvalid.length_le).symm
  | cons key keys ih =>
    rw [requests_cons]
    simp only
    rw [ih (hvalid.request key)]
    obtain ⟨i, hkey, heq⟩ | ⟨_, _, heq⟩ | ⟨_, hfull, heq⟩ := request_cases cap table key
    · -- the key was there already
      have hmem : key ∈ table := List.mem_of_getElem? hkey
      have hset : (table ++ keys).toFinset = (table ++ key :: keys).toFinset := by
        ext k
        simp only [List.mem_toFinset, List.mem_append, List.mem_cons]
        grind
      rw [heq, hset]
    · rw [heq, List.append_assoc, List.singleton_append]
    · -- the table alone fills up all places
      have hcard : ∀ keys : List κ, cap ≤ (table ++ keys).toFinset.card := by
        intro keys
        have hsub : table.toFinset ⊆ (table ++ keys).toFinset := by
          rw [List.toFinset_append]
          exact Finset.subset_union_left
        have hle := Finset.card_le_card hsub
        rw [List.toFinset_card_of_nodup hvalid.nodup] at hle
        exact Nat.le_trans hfull hle
      rw [heq, Nat.min_eq_left (hcard keys), Nat.min_eq_left (hcard (key :: keys))]

end Intern
