import Mathlib.Data.List.Sort

/-!
# List lemmas for the standard library

What sorting and a traversal that can fail make of a list, lists in which a
property holds until another does, and lists with their positions or paired with another.
-/

namespace List

/-- Sorting by distinct keys forgets the order. -/
theorem Perm.mergeSort_eq {α : Type u} {κ : Type v} [LinearOrder κ] {key : α → κ} {l l' : List α}
    (hperm : l.Perm l') (hnodup : (l.map key).Nodup) :
    (l.mergeSort fun a b => !decide (key b < key a)) =
      l'.mergeSort fun a b => !decide (key b < key a) := by
  have hle : ∀ a b, (!decide (key b < key a)) = true ↔ key a ≤ key b := by
    intro a b
    rw [Bool.not_eq_true', decide_eq_false_iff_not, not_lt]
  have htrans : ∀ a b c, (!decide (key b < key a)) = true → (!decide (key c < key b)) = true →
      (!decide (key c < key a)) = true := by
    intro a b c
    rw [hle, hle, hle]
    exact le_trans
  have htotal : ∀ a b, ((!decide (key b < key a)) || !decide (key a < key b)) = true := by
    intro a b
    rw [Bool.or_eq_true, hle, hle]
    exact le_total _ _
  have hl := mergeSort_perm l fun a b => !decide (key b < key a)
  have hl' := mergeSort_perm l' fun a b => !decide (key b < key a)
  -- two sorted permutations are equal when equal keys mean equal elements
  refine Perm.eq_of_pairwise ?_ (pairwise_mergeSort htrans htotal l)
    (pairwise_mergeSort htrans htotal l') (hl.trans (hperm.trans hl'.symm))
  intro a b ha hb hab hba
  rw [hle] at hab hba
  have ha' : a ∈ l := hl.mem_iff.mp ha
  have hb' : b ∈ l := hperm.mem_iff.mpr (hl'.mem_iff.mp hb)
  exact inj_on_of_nodup_map hnodup ha' hb' (le_antisymm hab hba)

/-- A traversal that succeeds does so in any order, with the results in that order. -/
theorem Perm.mapM_some {α : Type u} {β : Type v} {f : α → Option β} {l l' : List α}
    (hperm : l.Perm l') {bs : List β} (h : l.mapM f = some bs) :
    ∃ bs', l'.mapM f = some bs' ∧ bs.Perm bs' := by
  induction hperm generalizing bs with
  | nil => exact ⟨bs, h, .refl bs⟩
  | cons a _ ih =>
    rw [mapM_cons] at h
    obtain ⟨b, hb, h⟩ := Option.bind_eq_some_iff.mp h
    obtain ⟨rest, hrest, h⟩ := Option.bind_eq_some_iff.mp h
    cases h
    obtain ⟨rest', hrest', hp⟩ := ih hrest
    refine ⟨b :: rest', ?_, hp.cons b⟩
    rw [mapM_cons, hb, hrest']
    rfl
  | swap a₁ a₂ l =>
    rw [mapM_cons, mapM_cons] at h
    obtain ⟨b₂, hb₂, h⟩ := Option.bind_eq_some_iff.mp h
    obtain ⟨rest, hrest, h⟩ := Option.bind_eq_some_iff.mp h
    obtain ⟨b₁, hb₁, hrest⟩ := Option.bind_eq_some_iff.mp hrest
    obtain ⟨rest', hrest', hrest⟩ := Option.bind_eq_some_iff.mp hrest
    cases hrest
    cases h
    refine ⟨b₁ :: b₂ :: rest', ?_, .swap b₁ b₂ rest'⟩
    rw [mapM_cons, mapM_cons, hb₁, hb₂, hrest']
    rfl
  | trans _ _ ih₁ ih₂ =>
    obtain ⟨bs₁, h₁, hp₁⟩ := ih₁ h
    obtain ⟨bs₂, h₂, hp₂⟩ := ih₂ h₁
    exact ⟨bs₂, h₂, hp₁.trans hp₂⟩

/-- The results of a traversal that succeeds are those of the members. -/
theorem mem_mapM_some {α : Type u} {β : Type v} {f : α → Option β} {l : List α} {bs : List β}
    (h : l.mapM f = some bs) {b : β} : b ∈ bs ↔ ∃ a ∈ l, f a = some b := by
  induction l generalizing bs with
  | nil =>
    cases h
    simp
  | cons a l ih =>
    rw [mapM_cons] at h
    obtain ⟨b', hb', h⟩ := Option.bind_eq_some_iff.mp h
    obtain ⟨rest, hrest, h⟩ := Option.bind_eq_some_iff.mp h
    cases h
    simp [ih hrest, hb', eq_comm]

/-- In a traversal that succeeds no member fails. -/
theorem isSome_of_mapM_some {α : Type u} {β : Type v} {f : α → Option β} {l : List α}
    {bs : List β} (h : l.mapM f = some bs) {a : α} (ha : a ∈ l) : (f a).isSome := by
  induction l generalizing bs with
  | nil => exact absurd ha not_mem_nil
  | cons a' l ih =>
    rw [mapM_cons] at h
    obtain ⟨b, hb, h⟩ := Option.bind_eq_some_iff.mp h
    obtain ⟨rest, hrest, -⟩ := Option.bind_eq_some_iff.mp h
    cases mem_cons.mp ha with
    | inl heq => rw [heq, hb, Option.isSome_some]
    | inr hmem => exact ih hrest hmem

/-! ## Until -/

/-- Some element has `q`, and all before it have `p`. -/
def Until {α : Type u} (p q : α → Prop) (l : List α) : Prop :=
  ∃ before x after, l = before ++ x :: after ∧ (∀ y ∈ before, p y) ∧ q x

/-- Nothing comes in the empty list. -/
theorem not_until_nil {α : Type u} {p q : α → Prop} : ¬ Until p q [] := by
  rintro ⟨before, x, after, heq, -⟩
  exact append_ne_nil_of_right_ne_nil before (cons_ne_nil x after) heq.symm

/-- The first item ends the list, or is passed over. -/
theorem until_cons {α : Type u} {p q : α → Prop} {a : α} {l : List α} :
    Until p q (a :: l) ↔ q a ∨ p a ∧ Until p q l := by
  constructor
  · rintro ⟨before, x, after, heq, hp, hq⟩
    cases before with
    | nil =>
      cases heq
      exact .inl hq
    | cons b before =>
      cases heq
      rw [forall_mem_cons] at hp
      exact .inr ⟨hp.1, before, x, after, rfl, hp.2, hq⟩
  · rintro (hq | ⟨ha, before, x, after, rfl, hp, hq⟩)
    · exact ⟨[], a, l, rfl, fun y hy => absurd hy not_mem_nil, hq⟩
    · exact ⟨a :: before, x, after, rfl, forall_mem_cons.mpr ⟨ha, hp⟩, hq⟩

/-! ## Numbered and paired lists -/

/-- The elements with their positions. -/
def numbered {α : Type u} (l : List α) : List (Nat × α) := l.mapIdx Prod.mk

/-- One more item has the length so far as its number. -/
theorem numbered_concat {α : Type u} (l : List α) (a : α) :
    (l ++ [a]).numbered = l.numbered ++ [(l.length, a)] := by
  rw [numbered, mapIdx_concat, numbered]

/-- Numbering keeps the length. -/
@[simp] theorem length_numbered {α : Type u} (l : List α) : l.numbered.length = l.length := by
  rw [numbered, length_mapIdx]

/-- Every item stands at its number. -/
theorem getElem?_numbered {α : Type u} {l : List α} {i n : Nat} {a : α} :
    l.numbered[n]? = some (i, a) ↔ i = n ∧ l[n]? = some a := by
  rw [numbered, getElem?_mapIdx]
  cases l[n]? with
  | none => simp
  | some b => simp [eq_comm]

/-- A numbered item is the one at its number. -/
theorem mem_numbered {α : Type u} {l : List α} {i : Nat} {a : α} :
    (i, a) ∈ l.numbered ↔ l[i]? = some a := by
  rw [mem_iff_getElem?]
  constructor
  · rintro ⟨n, hn⟩
    obtain ⟨rfl, ha⟩ := getElem?_numbered.mp hn
    exact ha
  · exact fun ha => ⟨i, getElem?_numbered.mpr ⟨rfl, ha⟩⟩

/-- What is added to the longer list has no partner. -/
theorem zip_concat_left {α : Type u} {β : Type v} {l : List α} {bs : List β} (a : α)
    (h : bs.length ≤ l.length) : (l ++ [a]).zip bs = l.zip bs := by
  induction bs generalizing l with
  | nil => rw [zip_nil_right, zip_nil_right]
  | cons b bs ih =>
    cases l with
    | nil => exact absurd h (Nat.not_succ_le_zero _)
    | cons a' l => rw [cons_append, zip_cons_cons, zip_cons_cons, ih (Nat.le_of_succ_le_succ h)]

/-- One more item on the right meets the next one on the left. -/
theorem zip_concat_right {α : Type u} {β : Type v} {l : List α} {bs : List β} {a : α} (b : β)
    (h : l[bs.length]? = some a) : l.zip (bs ++ [b]) = l.zip bs ++ [(a, b)] := by
  induction bs generalizing l with
  | nil =>
    cases l with
    | nil => exact nomatch h
    | cons a' l =>
      cases h
      simp
  | cons b' bs ih =>
    cases l with
    | nil => exact nomatch h
    | cons a' l =>
      rw [length_cons, getElem?_cons_succ] at h
      rw [cons_append, zip_cons_cons, zip_cons_cons, ih h, cons_append]

end List
