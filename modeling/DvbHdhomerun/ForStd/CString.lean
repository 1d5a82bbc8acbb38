import Mathlib.Data.List.TakeWhile

/-!
# C strings in memory

The functions of `<string.h>` on a block of bytes. A string is what stands before the
first NUL; a block without one is read as if a NUL followed its last byte.

* `chars_strncpy_set`: what arrives through `strncpy` and a forced final NUL
* `strncmp_eq_zero_iff`: what equality of the first `n` bytes means
* `mem_strncpyLoop`, `mem_strncmpLoop`: which bytes of their arguments the functions look at
-/

namespace CString

/-- The bytes of a string. -/
def ofString (s : String) : List UInt8 := s.toList.flatMap String.utf8EncodeChar

/-- The string at the start of a block. -/
def chars (mem : List UInt8) : List UInt8 := mem.takeWhile (· ≠ 0)

/-- `strlen`. -/
def strlen (mem : List UInt8) : Nat := (chars mem).length

/-- The `n` bytes that `strncpy(dst, src, n)` leaves in `dst`: at most `n` of the string,
    the rest NULs. -/
def strncpy (src : List UInt8) (n : Nat) : List UInt8 :=
  (chars src).take n ++ List.replicate (n - strlen src) 0

/-- `strncmp(s1, s2, n)`: the difference of the first bytes that differ, up to `n` of them
    and not beyond a NUL. -/
def strncmp (s1 s2 : List UInt8) : Nat → Int
  | 0 => 0
  | n + 1 =>
    let c1 := s1.headD 0
    let c2 := s2.headD 0
    if c1 ≠ c2 then (c1.toNat : Int) - c2.toNat
    else if c1 = 0 then 0
    else strncmp s1.tail s2.tail n

/-- Strings with the same bytes are equal. -/
theorem ofString_injective {s t : String} (h : ofString s = ofString t) : s = t := by
  rw [← String.toByteArray_inj, ← String.utf8Encode_toList, ← String.utf8Encode_toList,
    List.utf8Encode, List.utf8Encode]
  exact congrArg List.toByteArray h

/-- A character other than NUL of the ASCII range is one byte, which is not NUL. -/
private theorem utf8EncodeChar_ascii {c : Char} (h0 : 0 < c.toNat) (h : c.toNat < 128) :
    ∃ b, b ≠ 0 ∧ String.utf8EncodeChar c = [b] := by
  have hle : c.val.toNat ≤ 0x7f := Nat.le_of_lt_succ h
  refine ⟨UInt8.ofNat c.val.toNat, ?_, if_pos hle⟩
  intro hzero
  have hval := congrArg UInt8.toNat hzero
  rw [UInt8.toNat_ofNat', Nat.mod_eq_of_lt (Nat.lt_of_le_of_lt hle (by decide))] at hval
  exact absurd hval (Nat.ne_of_gt h0)

/-- An ASCII string has as many bytes as characters, and none of them is NUL. -/
theorem ofString_ascii {s : String} (h : ∀ c ∈ s.toList, 0 < c.toNat ∧ c.toNat < 128) :
    (ofString s).length = s.toList.length ∧ ∀ b ∈ ofString s, b ≠ 0 := by
  unfold ofString
  generalize s.toList = cs at h ⊢
  induction cs with
  | nil => exact ⟨rfl, nofun⟩
  | cons c cs ih =>
    obtain ⟨hc0, hc⟩ := h c List.mem_cons_self
    obtain ⟨b, hb, hcode⟩ := utf8EncodeChar_ascii hc0 hc
    obtain ⟨hlen, hne⟩ := ih fun c' hc' => h c' (List.mem_cons_of_mem _ hc')
    rw [List.flatMap_cons, hcode, List.singleton_append, List.length_cons, List.length_cons, hlen]
    refine ⟨rfl, fun b' hb' => ?_⟩
    rcases List.mem_cons.mp hb' with rfl | hb'
    · exact hb
    · exact hne b' hb'

/-- A NUL ends the string. -/
theorem chars_cons_zero (mem : List UInt8) : chars (0 :: mem) = [] := rfl

/-- Every other byte belongs to it. -/
theorem chars_cons_of_ne {b : UInt8} (hb : b ≠ 0) (mem : List UInt8) :
    chars (b :: mem) = b :: chars mem := by
  rw [chars, List.takeWhile_cons_of_pos (by simpa using hb), ← chars]

/-- No byte of the string is NUL. -/
theorem ne_zero_of_mem_chars {b : UInt8} {mem : List UInt8} (h : b ∈ chars mem) : b ≠ 0 := by
  have hb := List.mem_takeWhile_imp h
  simpa using hb

/-- A string that ends in a block is not read beyond it. -/
theorem chars_append_of_mem {a : List UInt8} (h : 0 ∈ a) (b : List UInt8) :
    chars (a ++ b) = chars a := by
  induction a with
  | nil => exact absurd h List.not_mem_nil
  | cons c a ih =>
    rw [List.cons_append]
    by_cases hc : c = 0
    · rw [hc, chars_cons_zero, chars_cons_zero]
    · have h' : 0 ∈ a := (List.mem_cons.mp h).resolve_left fun h0 => hc h0.symm
      rw [chars_cons_of_ne hc, chars_cons_of_ne hc, ih h']

/-- A string that is ended inside its memory is shorter than that. -/
theorem strlen_lt_of_mem {a : List UInt8} (h : 0 ∈ a) : strlen a < a.length := by
  apply Nat.lt_of_le_of_ne
  · exact (List.takeWhile_prefix _).length_le
  · intro hlen
    have hall : chars a = a := (List.takeWhile_prefix _).eq_of_length hlen
    rw [← hall] at h
    exact ne_zero_of_mem_chars h rfl

/-- A block without a NUL is read to its end, and the string goes on behind it. -/
theorem chars_append_of_ne {a : List UInt8} (h : ∀ c ∈ a, c ≠ 0) (b : List UInt8) :
    chars (a ++ b) = a ++ chars b :=
  List.takeWhile_append_of_pos fun c hc => by simpa using h c hc

/-- A string is read back from its bytes, whatever number of NULs follows. -/
theorem chars_append_replicate {s : List UInt8} (hs : ∀ b ∈ s, b ≠ 0) (m : Nat) :
    chars (s ++ List.replicate m 0) = s := by
  have hnuls : chars (List.replicate m 0) = [] := by
    cases m with
    | zero => rfl
    | succ m => rfl
  rw [chars_append_of_ne hs, hnuls, List.append_nil]

/-- Bytes without NUL are all characters. -/
theorem chars_eq_self {s : List UInt8} (hs : ∀ b ∈ s, b ≠ 0) : chars s = s := by
  have h := chars_append_replicate hs 0
  rwa [List.replicate_zero, List.append_nil] at h

/-- `strncpy` writes all `n` bytes. -/
theorem length_strncpy (src : List UInt8) (n : Nat) : (strncpy src n).length = n := by
  rw [strncpy, List.length_append, List.length_take, List.length_replicate, strlen]
  omega

/-- `strncpy` into `n + 1` bytes of which the last is then made NUL: the string arrives, cut
    to `n` bytes. -/
theorem chars_strncpy_set (src : List UInt8) (n : Nat) :
    chars ((strncpy src (n + 1)).set n 0) = (chars src).take n := by
  have hne : ∀ b ∈ (chars src).take n, b ≠ 0 :=
    fun b hb => ne_zero_of_mem_chars (List.mem_of_mem_take hb)
  suffices ∃ m, (strncpy src (n + 1)).set n 0 = (chars src).take n ++ List.replicate m 0 by
    obtain ⟨m, hm⟩ := this
    rw [hm, chars_append_replicate hne]
  by_cases hlen : (chars src).length ≤ n
  · -- the string fits, and the last byte is one of the NULs behind it
    refine ⟨n + 1 - strlen src, ?_⟩
    have htake : (chars src).take (n + 1) = (chars src).take n := by
      rw [List.take_of_length_le (Nat.le_succ_of_le hlen), List.take_of_length_le hlen]
    have hle : ((chars src).take n).length ≤ n := by
      rw [List.length_take]
      omega
    rw [strncpy, htake, List.set_append_right _ _ hle, List.set_replicate_self]
  · -- the string is cut, and the last byte is one of its own
    refine ⟨1, ?_⟩
    have hlt : n < (chars src).length := Nat.lt_of_not_le hlen
    have hpad : n + 1 - strlen src = 0 := by
      rw [strlen]
      omega
    have hcut : ((chars src).take n).length = n := List.length_take_of_le (Nat.le_of_lt hlt)
    rw [strncpy, hpad, List.replicate_zero, List.append_nil, List.take_succ_eq_append_getElem hlt,
      List.set_append_right _ _ (Nat.le_of_eq hcut), hcut, Nat.sub_self]
    rfl

/-- A block that has ended reads as one that starts with NUL. -/
private theorem chars_eq (s : List UInt8) :
    chars s = if s.headD 0 = 0 then [] else s.headD 0 :: chars s.tail := by
  cases s with
  | nil => rfl
  | cons b s =>
    rw [List.headD_cons, List.tail_cons]
    split
    · rename_i hb
      rw [hb, chars_cons_zero]
    · rename_i hb
      exact chars_cons_of_ne hb s

/-- Bytes with no difference are equal. -/
private theorem toNat_sub_eq_zero {a b : UInt8} : (a.toNat : Int) - b.toNat = 0 ↔ a = b := by
  rw [← UInt8.toNat_inj]
  omega

/-- `strncmp` sees two blocks as equal when their strings agree in the first `n` bytes. -/
theorem strncmp_eq_zero_iff {s1 s2 : List UInt8} {n : Nat} :
    strncmp s1 s2 n = 0 ↔ (chars s1).take n = (chars s2).take n := by
  induction n generalizing s1 s2 with
  | zero => simp [strncmp]
  | succ n ih =>
    rw [chars_eq s1, chars_eq s2]
    unfold strncmp
    generalize s1.headD 0 = c1
    generalize s2.headD 0 = c2
    by_cases hc : c1 = c2
    · subst hc
      by_cases h0 : c1 = 0
      · simp [h0]
      · simp [h0, ih]
    · -- the first bytes differ: at most one of them is the end of a string
      simp only [ne_eq, hc, not_false_eq_true, if_true, toNat_sub_eq_zero, false_iff]
      by_cases h1 : c1 = 0
      · have h2 : c2 ≠ 0 := fun h2 => hc (h1.trans h2.symm)
        simp [h1, h2]
      · by_cases h2 : c2 = 0
        · simp [h1, h2]
        · simp [h1, h2, hc]

/-! ## What the functions look at

The loops of `lib/string.c`, each with the indices at which it reads its argument. They start
at the index `i`, and `mem`, `src` and the like are the bytes from there on.
-/

/-- The loop of `strlen`. -/
def strlenLoop (i : Nat) : List UInt8 → Nat × List Nat
  | [] => (i, [i])
  | c :: mem =>
    if c = 0 then (i, [i])
    else
      let rest := strlenLoop (i + 1) mem
      (rest.1, i :: rest.2)

/-- The loop returns the length and reads up to the NUL. -/
theorem strlenLoop_eq (i : Nat) (mem : List UInt8) :
    strlenLoop i mem = (i + strlen mem, List.range' i (strlen mem + 1)) := by
  induction mem generalizing i with
  | nil => rfl
  | cons c mem ih =>
    unfold strlenLoop
    split
    · rename_i hc
      rw [hc]
      rfl
    · rename_i hc
      have hlen : strlen (c :: mem) = strlen mem + 1 := by
        rw [strlen, chars_cons_of_ne hc, List.length_cons, strlen]
      have hend : i + 1 + strlen mem = i + (strlen mem + 1) := by omega
      rw [ih, hlen, ← hend]
      rfl

/-- The loop of `strncpy`. The pointer into the source stays on the NUL. -/
def strncpyLoop (i : Nat) (src : List UInt8) : Nat → List UInt8 × List Nat
  | 0 => ([], [])
  | n + 1 =>
    let c := src.headD 0
    let rest := if c ≠ 0 then strncpyLoop (i + 1) src.tail n else strncpyLoop i src n
    (c :: rest.1, i :: rest.2)

/-- The loop of `strncmp`. Both arguments are read at each index. -/
def strncmpLoop (i : Nat) (s1 s2 : List UInt8) : Nat → Int × List Nat
  | 0 => (0, [])
  | n + 1 =>
    let c1 := s1.headD 0
    let c2 := s2.headD 0
    if c1 ≠ c2 then ((c1.toNat : Int) - c2.toNat, [i])
    else if c1 = 0 then (0, [i])
    else
      let rest := strncmpLoop (i + 1) s1.tail s2.tail n
      (rest.1, i :: rest.2)

/-- A string that has ended is empty, and another one is its first byte and the rest. -/
private theorem strlen_eq (s : List UInt8) :
    strlen s = if s.headD 0 = 0 then 0 else strlen s.tail + 1 := by
  rw [strlen, chars_eq]
  split
  · rfl
  · rw [List.length_cons, strlen]

/-- The loop computes `strncpy`. -/
theorem strncpyLoop_fst (i : Nat) (src : List UInt8) (n : Nat) :
    (strncpyLoop i src n).1 = strncpy src n := by
  induction n generalizing i src with
  | zero => rw [strncpy, Nat.zero_sub, List.take_zero]; rfl
  | succ n ih =>
    unfold strncpyLoop
    by_cases hc : src.headD 0 = 0
    · have hchars : chars src = [] := by rw [chars_eq, if_pos hc]
      simp only [hc, ne_eq, not_true_eq_false, if_false, ih]
      simp [strncpy, strlen, hchars, List.replicate_succ]
    · have hchars : chars src = src.headD 0 :: chars src.tail := by rw [chars_eq, if_neg hc]
      simp only [hc, ne_eq, not_false_eq_true, if_true, ih]
      have hlen : strlen src = strlen src.tail + 1 := by rw [strlen_eq, if_neg hc]
      rw [strncpy, strncpy, hchars, hlen, List.take_succ_cons, Nat.add_sub_add_right]
      rfl

/-- The loop computes `strncmp`. -/
theorem strncmpLoop_fst (i : Nat) (s1 s2 : List UInt8) (n : Nat) :
    (strncmpLoop i s1 s2 n).1 = strncmp s1 s2 n := by
  induction n generalizing i s1 s2 with
  | zero => rfl
  | succ n ih =>
    unfold strncmpLoop strncmp
    simp only
    split
    · rfl
    · split
      · rfl
      · exact ih (i + 1) s1.tail s2.tail

/-- It writes `n` times. -/
theorem length_strncpyLoop_snd (i : Nat) (src : List UInt8) (n : Nat) :
    (strncpyLoop i src n).2.length = n := by
  induction n generalizing i src with
  | zero => rfl
  | succ n ih =>
    unfold strncpyLoop
    simp only [List.length_cons]
    split
    · rw [ih]
    · rw [ih]

/-- `strncpy` reads its source up to the NUL, and no more than `n` bytes of it. -/
theorem mem_strncpyLoop {i k : Nat} {src : List UInt8} {n : Nat} :
    k ∈ (strncpyLoop i src n).2 ↔ i ≤ k ∧ k < i + n ∧ k ≤ i + strlen src := by
  induction n generalizing i src with
  | zero =>
    simp only [strncpyLoop, List.not_mem_nil, false_iff]
    omega
  | succ n ih =>
    have hlen := strlen_eq src
    unfold strncpyLoop
    simp only [List.mem_cons]
    split at hlen
    · rename_i hc
      simp only [hc, ne_eq, not_true_eq_false, if_false, ih]
      omega
    · rename_i hc
      simp only [hc, ne_eq, not_false_eq_true, if_true, ih]
      omega

/-- `strncmp` reads no more than `n` bytes of its arguments. -/
theorem mem_strncmpLoop {i k : Nat} {s1 s2 : List UInt8} {n : Nat}
    (h : k ∈ (strncmpLoop i s1 s2 n).2) : i ≤ k ∧ k < i + n := by
  induction n generalizing i s1 s2 with
  | zero => exact absurd h List.not_mem_nil
  | succ n ih =>
    unfold strncmpLoop at h
    simp only at h
    split at h
    · rw [List.mem_singleton] at h
      omega
    · split at h
      · rw [List.mem_singleton] at h
        omega
      · rcases List.mem_cons.mp h with rfl | h
        · omega
        · have hk := ih h
          omega

end CString
