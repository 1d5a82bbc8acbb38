import DvbHdhomerun.Kernel.DataWrite

/-!
# The paged write and the write at once

The loop of `hdhomerun_data_write` ends after at most `count` turns, each of which moves a
piece of between one byte and a page inside the buffer.

* `pagedWrites_fed`: over readable buffers it feeds what the write at once feeds
* `pagedWrite_accounts_iff`: when the return value tells what has been fed
-/

namespace DvbHdhomerun

/-! ## Copying -/

section Copy

variable {mem : Int → Option UInt8}

/-- A copy in two parts. -/
theorem copyFromUser_add (off : Int) (m n : Nat) :
    copyFromUser mem off (m + n) =
      (copyFromUser mem off m).bind fun bytes =>
        (copyFromUser mem (off + m) n).map (bytes ++ ·) := by
  induction m generalizing off with
  | zero => simp [copyFromUser]
  | succ m ih =>
    rw [Nat.succ_add, copyFromUser, copyFromUser, ih]
    have hoff : off + 1 + (m : Int) = off + (m + 1 : Nat) := by
      push_cast
      omega
    rw [hoff]
    cases mem off with
    | none => rfl
    | some byte =>
      cases copyFromUser mem (off + 1) m with
      | none => rfl
      | some bytes =>
        simp only [Option.bind_some, Option.map_some, Option.map_map]
        rfl

/-- A copy that succeeds has the length that was asked for. -/
theorem length_copyFromUser {off : Int} {n : Nat} {bytes : List UInt8}
    (h : copyFromUser mem off n = some bytes) : bytes.length = n := by
  induction n generalizing off bytes with
  | zero =>
    cases h
    rfl
  | succ n ih =>
    obtain ⟨byte, -, hmap⟩ := Option.bind_eq_some_iff.mp h
    obtain ⟨rest, hrest, rfl⟩ := Option.map_eq_some_iff.mp hmap
    rw [List.length_cons, ih hrest]

/-- The copy fails exactly if some byte cannot be read. -/
theorem copyFromUser_eq_none_iff {off : Int} {n : Nat} :
    copyFromUser mem off n = none ↔ ∃ i : Nat, i < n ∧ mem (off + i) = none := by
  induction n generalizing off with
  | zero => simp [copyFromUser]
  | succ n ih =>
    rw [copyFromUser]
    cases hbyte : mem off with
    | none =>
      refine iff_of_true rfl ⟨0, Nat.succ_pos n, ?_⟩
      rw [← hbyte]
      exact congrArg mem (Int.add_zero off)
    | some byte =>
      rw [Option.bind_some, Option.map_eq_none_iff, ih]
      -- the copy goes on one byte further
      have hshift : ∀ i : Nat, off + 1 + (i : Int) = off + (i + 1 : Nat) := by
        intro i
        push_cast
        omega
      constructor
      · rintro ⟨i, hi, hnone⟩
        exact ⟨i + 1, Nat.succ_lt_succ hi, by rw [← hshift, hnone]⟩
      · rintro ⟨i, hi, hnone⟩
        cases i with
        | zero =>
          have hzero : mem off = none := by
            rw [← hnone]
            exact congrArg mem (Int.add_zero off).symm
          rw [hbyte] at hzero
          exact nomatch hzero
        | succ i => exact ⟨i, Nat.lt_of_succ_lt_succ hi, by rw [hshift, hnone]⟩

end Copy

/-! ## One turn -/

/-- The piece of a turn: from one byte to a page, inside the buffer, with no overflow. -/
structure Turn.Inside (p : PageSize) (b : UserBuffer) (turn : Turn) : Prop where
  copied_nonneg : 0 ≤ turn.copied.toInt
  toCopy_pos : 1 ≤ turn.toCopy.toInt
  toCopy_le : turn.toCopy.toInt ≤ p.size.toNat
  inside : turn.copied.toInt + turn.toCopy.toInt ≤ b.count.toNat
  add_eq : (turn.copied + turn.toCopy).toInt = turn.copied.toInt + turn.toCopy.toInt
  fed_eq : b.read turn.copied.toInt turn.toCopy.toInt.toNat = some turn.fed

/-- What the two variables stand for in a turn that begins with `k` bytes copied. -/
theorem toCopy_spec (p : PageSize) {b : UserBuffer} {copied : Int32} {k : Nat}
    (hk : copied.toInt = k) (hlt : k < b.count.toNat) :
    (toCopy p b copied).toInt = (min (b.count.toNat - k) p.size.toNat : Nat) ∧
      (CInt.toSize (toCopy p b copied)).toNat = min (b.count.toNat - k) p.size.toNat ∧
      (copied + toCopy p b copied).toInt = (k + min (b.count.toNat - k) p.size.toNat : Nat) := by
  have hbound : b.count.toNat ≤ CInt.intMax := b.count_le
  have hsize : (CInt.toSize copied).toNat = k := by
    have hcast := CInt.toNat_toSize (i := copied) (by omega)
    omega
  have hrest : (b.count - CInt.toSize copied).toNat = b.count.toNat - k := by
    have hle : CInt.toSize copied ≤ b.count := by
      rw [UInt64.le_iff_toNat_le]
      omega
    rw [UInt64.toNat_sub_of_le _ _ hle, hsize]
  have hvalue : (toCopy p b copied).toInt = (min (b.count.toNat - k) p.size.toNat : Nat) := by
    unfold toCopy
    simp only
    -- what is left fits a page, or a page is copied
    split <;> rename_i hpage <;> rw [UInt64.lt_iff_toNat_lt, hrest] at hpage
    · rw [CInt.toInt_ofSize (by omega), hrest, Nat.min_eq_left (by omega)]
    · rw [CInt.toInt_ofSize (by omega), Nat.min_eq_right (by omega)]
  have hback := CInt.toNat_toSize (i := toCopy p b copied) (by omega)
  have hsum := CInt.toInt_add (a := copied) (b := toCopy p b copied) (by omega) (by omega) (by omega)
  exact ⟨hvalue, by omega, by omega⟩

/-! ## The loop -/

/-- How the loop ends that begins with `k` bytes copied: everything is fed, or the copy of
    some later piece fails, after nothing or at least a page. -/
private def Ends (p : PageSize) (b : UserBuffer) (k : Nat) (ret : Int) (fed : List UInt8) : Prop :=
  (ret = b.count.toNat ∧ b.read k (b.count.toNat - k) = some fed) ∨
  (ret = -EFAULT ∧ ∃ n, b.read k n = some fed ∧ (n = 0 ∨ p.size.toNat ≤ n) ∧
    k + n < b.count.toNat ∧
    b.read (k + n : Nat) (min (b.count.toNat - (k + n)) p.size.toNat) = none)

/-- Before the end that `Ends` describes comes one more piece. -/
private theorem Ends.cons {p : PageSize} {b : UserBuffer} {k m : Nat} {ret : Int}
    {bytes fed : List UInt8} (hm : m = min (b.count.toNat - k) p.size.toNat)
    (hbytes : b.read k m = some bytes) (h : Ends p b (k + m) ret fed) :
    Ends p b k ret (bytes ++ fed) := by
  have hpos := p.pos
  have hread : ∀ n, b.read (k + m : Nat) n = some fed → b.read k (m + n) = some (bytes ++ fed) := by
    intro n hn
    have hcast : ((k + m : Nat) : Int) = (k : Int) + m := by push_cast; rfl
    rw [hcast] at hn
    rw [UserBuffer.read, copyFromUser_add]
    rw [UserBuffer.read] at hbytes hn
    rw [hbytes, Option.bind_some, hn, Option.map_some]
  rcases h with ⟨hret, hrest⟩ | ⟨hret, n, hrest, hn, hlt, hnone⟩
  · left
    refine ⟨hret, ?_⟩
    have hsplit := hread _ hrest
    rwa [show m + (b.count.toNat - (k + m)) = b.count.toNat - k by omega] at hsplit
  · right
    refine ⟨hret, m + n, hread n hrest, .inr ?_, by omega, ?_⟩
    · omega
    · rwa [← Nat.add_assoc]

/-- From any point inside the buffer the loop ends, with enough fuel, and all its pieces are
    as they should be. -/
private theorem writeLoop_spec (p : PageSize) (b : UserBuffer) {fuel : Nat} {copied : Int32}
    {k : Nat} (turns : List Turn) (hk : copied.toInt = k) (hle : k ≤ b.count.toNat)
    (hfuel : b.count.toNat - k < fuel) :
    ∃ ret more, writeLoop p b fuel copied turns = some ⟨ret, turns ++ more⟩ ∧
      (∀ turn ∈ more, turn.Inside p b) ∧ Ends p b k ret (fedOf more) := by
  -- every turn moves at least one byte, so that the fuel lasts
  induction fuel generalizing copied k turns with
  | zero => exact absurd hfuel (Nat.not_lt_zero _)
  | succ fuel ih =>
    have hsize : (CInt.toSize copied).toNat = k := by
      have hcast := CInt.toNat_toSize (i := copied) (by omega)
      omega
    by_cases hlt : k < b.count.toNat
    · have htest : CInt.toSize copied < b.count := by
        rw [UInt64.lt_iff_toNat_lt, hsize]
        exact hlt
      obtain ⟨hvalue, hcopy, hsum⟩ := toCopy_spec p hk hlt
      obtain ⟨m, hm⟩ : ∃ m, m = min (b.count.toNat - k) p.size.toNat := ⟨_, rfl⟩
      rw [← hm] at hvalue hcopy hsum
      have hpos := p.pos
      rw [writeLoop, if_pos htest]
      simp only [hcopy, hk]
      cases hbytes : b.read k m with
      | none =>
        -- the piece cannot be copied: the loop is left with what it has fed so far
        refine ⟨-EFAULT, [], by rw [List.append_nil], fun turn h => absurd h List.not_mem_nil, ?_⟩
        right
        refine ⟨rfl, 0, rfl, .inl rfl, hlt, ?_⟩
        rwa [Nat.add_zero, ← hm]
      | some bytes =>
        -- the rest of the run begins with one piece more copied
        obtain ⟨ret, more, hloop, hinside, hends⟩ :=
          ih (turns ++ [⟨copied, toCopy p b copied, bytes⟩]) hsum (by omega) (by omega)
        refine ⟨ret, ⟨copied, toCopy p b copied, bytes⟩ :: more, ?_, ?_, hends.cons hm hbytes⟩
        · simp only [hloop, List.append_assoc, List.singleton_append]
        · intro turn hturn
          rcases List.mem_cons.mp hturn with rfl | hmem
          · refine ⟨?_, ?_, ?_, ?_, ?_, ?_⟩ <;> simp only [hk, hvalue]
            · omega
            · omega
            · omega
            · omega
            · rw [hsum]
              push_cast
              rfl
            · exact hbytes
          · exact hinside turn hmem
    · -- everything has been copied
      have htest : ¬ CInt.toSize copied < b.count := by
        rw [UInt64.lt_iff_toNat_lt, hsize]
        exact hlt
      have hend : k = b.count.toNat := by omega
      rw [writeLoop, if_neg htest]
      refine ⟨copied.toInt, [], by rw [List.append_nil], fun turn h => absurd h List.not_mem_nil, ?_⟩
      left
      refine ⟨by rw [hk, hend], ?_⟩
      rw [hend, Nat.sub_self]
      rfl

/-- More fuel changes nothing. -/
theorem writeLoop_mono {p : PageSize} {b : UserBuffer} {fuel fuel' : Nat} {copied : Int32}
    {turns : List Turn} {w : DataWritten} (h : writeLoop p b fuel copied turns = some w)
    (hle : fuel ≤ fuel') : writeLoop p b fuel' copied turns = some w := by
  induction fuel generalizing fuel' copied turns with
  | zero => exact nomatch h
  | succ fuel ih =>
    obtain ⟨fuel', rfl⟩ := Nat.exists_eq_succ_of_ne_zero (show fuel' ≠ 0 by omega)
    rw [writeLoop] at h ⊢
    split at h
    · rename_i htest
      rw [if_pos htest]
      simp only at h ⊢
      split at h
      · exact h
      · exact ih h (by omega)
    · rename_i htest
      rw [if_neg htest]
      exact h

/-- The write ends, whatever the fuel beyond `count`. -/
private theorem dataWrite_spec (p : PageSize) (b : UserBuffer) :
    ∃ w, (∀ fuel, b.count.toNat < fuel → hdhomerunDataWrite p b fuel = some w) ∧
      (∀ turn ∈ w.turns, turn.Inside p b) ∧ Ends p b 0 w.ret (fedOf w.turns) := by
  have hzero : (0 : Int32).toInt = (0 : Nat) := rfl
  have hfuel : b.count.toNat - 0 < b.count.toNat + 1 := Nat.lt_succ_self _
  obtain ⟨ret, turns, hloop, hinside, hends⟩ :=
    writeLoop_spec p b [] hzero (Nat.zero_le _) hfuel
  exact ⟨⟨ret, turns⟩, fun fuel hlt => writeLoop_mono hloop hlt, hinside, hends⟩

/-! ## Readable buffers -/

/-- A buffer all of which can be read. What lies around it may not. -/
structure ReadableBuffer extends UserBuffer where
  bytes : List UInt8
  read_eq : toUserBuffer.read 0 count.toNat = some bytes

/-- A copy of a part succeeds when the copy of the whole does. -/
private theorem ReadableBuffer.read_ne_none (b : ReadableBuffer) {off n : Nat}
    (hle : off + n ≤ b.count.toNat) : b.read off n ≠ none := by
  intro hnone
  obtain ⟨i, hi, hbyte⟩ := copyFromUser_eq_none_iff.mp hnone
  have hall : b.read 0 b.count.toNat = none := by
    refine copyFromUser_eq_none_iff.mpr ⟨off + i, by omega, ?_⟩
    rw [← hbyte]
    apply congrArg b.mem
    push_cast
    omega
  rw [b.read_eq] at hall
  exact nomatch hall

/-- Memory with `bytes` at offset 0 and nothing behind them. -/
def memoryOf (bytes : List UInt8) (off : Int) : Option UInt8 := bytes[off.toNat]?

/-- A copy from the memory that holds `bytes` is a part of them. -/
private theorem copyFromUser_memoryOf (bytes : List UInt8) {off n : Nat}
    (h : off + n ≤ bytes.length) :
    copyFromUser (memoryOf bytes) off n = some ((bytes.drop off).take n) := by
  induction n generalizing off with
  | zero => rw [copyFromUser, List.take_zero]
  | succ n ih =>
    have hlt : off < bytes.length := by omega
    have hbyte : memoryOf bytes off = some bytes[off] := List.getElem?_eq_getElem hlt
    have hnext : (off : Int) + 1 = (off + 1 : Nat) := rfl
    rw [copyFromUser, hbyte, Option.bind_some, hnext, ih (by omega), Option.map_some,
      List.drop_eq_getElem_cons hlt, List.take_succ_cons]

/-- A copy of all of them. -/
private theorem copyFromUser_all (bytes : List UInt8) :
    copyFromUser (memoryOf bytes) 0 bytes.length = some bytes := by
  have hread : copyFromUser (memoryOf bytes) (0 : Nat) bytes.length =
      some ((bytes.drop 0).take bytes.length) := copyFromUser_memoryOf bytes (by omega)
  rw [List.drop_zero, List.take_length] at hread
  exact hread

/-- Any bytes that one write may pass, as a buffer in memory. -/
def ReadableBuffer.ofBytes (bytes : List UInt8) (h : bytes.length ≤ CInt.intMax) :
    ReadableBuffer :=
  have hcount : (UInt64.ofNat bytes.length).toNat = bytes.length :=
    UInt64.toNat_ofNat_of_lt (Nat.lt_of_le_of_lt h (by decide))
  { mem := memoryOf bytes
    count := UInt64.ofNat bytes.length
    count_le := by
      rw [hcount]
      exact h
    bytes := bytes
    read_eq := by
      show copyFromUser (memoryOf bytes) 0 (UInt64.ofNat bytes.length).toNat = some bytes
      rw [hcount, copyFromUser_all] }

/-- The write of a readable buffer comes to its end and feeds the buffer. -/
def Completes (p : PageSize) (b : ReadableBuffer) (w : DataWritten) : Prop :=
  (∀ fuel, b.count.toNat < fuel → hdhomerunDataWrite p b.toUserBuffer fuel = some w) ∧
    w.ret = b.count.toNat ∧ (∀ turn ∈ w.turns, turn.Inside p b.toUserBuffer) ∧
    fedOf w.turns = b.bytes

/-- The loop ends. -/
theorem exists_completes (p : PageSize) (b : ReadableBuffer) : ∃ w, Completes p b w := by
  obtain ⟨w, hw, hinside, hends⟩ := dataWrite_spec p b.toUserBuffer
  rcases hends with ⟨hret, hfed⟩ | ⟨-, n, -, -, hlt, hnone⟩
  · have hread := hfed.symm.trans b.read_eq
    exact ⟨w, hw, hret, hinside, Option.some.inj hread⟩
  · exact absurd hnone (b.read_ne_none (by omega))

/-- The write in one piece feeds all the bytes. -/
theorem atOnce_fed (writeBuffer : Option UInt64) (b : ReadableBuffer) :
    (hdhomerunDataWriteAtOnce writeBuffer b.toUserBuffer true).2.1 = b.bytes := by
  unfold hdhomerunDataWriteAtOnce
  simp only [Bool.not_true, Bool.and_false, Bool.false_eq_true, if_false, b.read_eq]

/-- The write at once feeds the same. -/
theorem fedAtOnce_eq (writeBuffer : Option UInt64) (bs : List ReadableBuffer) :
    fedAtOnce writeBuffer (bs.map ReadableBuffer.toUserBuffer) =
      bs.flatMap ReadableBuffer.bytes := by
  induction bs generalizing writeBuffer with
  | nil => rfl
  | cons b bs ih =>
    rw [List.map_cons, fedAtOnce, List.flatMap_cons]
    simp only [atOnce_fed, ih]

/-- Over any sequence of writes of readable buffers: each write ends, with pieces of between
    one byte and a page inside its buffer and no overflow, and together they feed what the
    writes at once feed, the buffers one after the other. -/
theorem pagedWrites_fed (p : PageSize) (writeBuffer : Option UInt64) (bs : List ReadableBuffer) :
    (∃ ws, List.Forall₂ (Completes p) bs ws ∧
      (ws.flatMap fun w => fedOf w.turns) = bs.flatMap ReadableBuffer.bytes) ∧
      fedAtOnce writeBuffer (bs.map ReadableBuffer.toUserBuffer) =
        bs.flatMap ReadableBuffer.bytes := by
  refine ⟨?_, fedAtOnce_eq writeBuffer bs⟩
  induction bs with
  | nil => exact ⟨[], .nil, rfl⟩
  | cons b bs ih =>
    obtain ⟨ws, hall, hfed⟩ := ih
    obtain ⟨w, hw⟩ := exists_completes p b
    refine ⟨w :: ws, .cons hw hall, ?_⟩
    rw [List.flatMap_cons, List.flatMap_cons, hfed, hw.2.2.2]

/-- A buffer of two pages and a byte, and one of exactly two pages. -/
theorem pagedWrites_fed_pages :
    ∃ (p : PageSize) (b₁ b₂ : ReadableBuffer), 2 * p.size.toNat < b₁.count.toNat ∧
      b₂.count.toNat = 2 * p.size.toNat ∧
      (∃ ws, List.Forall₂ (Completes p) [b₁, b₂] ws ∧
        (ws.flatMap fun w => fedOf w.turns) = b₁.bytes ++ b₂.bytes) ∧
      fedAtOnce none [b₁.toUserBuffer, b₂.toUserBuffer] = b₁.bytes ++ b₂.bytes := by
  let p : PageSize := ⟨4096, by decide⟩
  let b₁ := ReadableBuffer.ofBytes (List.replicate 8193 0x47) (by
    rw [List.length_replicate]
    decide)
  let b₂ := ReadableBuffer.ofBytes (List.replicate 8192 0x48) (by
    rw [List.length_replicate]
    decide)
  have hcount₁ : b₁.count = 8193 := congrArg UInt64.ofNat List.length_replicate
  have hcount₂ : b₂.count = 8192 := congrArg UInt64.ofNat List.length_replicate
  have hbytes : [b₁, b₂].flatMap ReadableBuffer.bytes = b₁.bytes ++ b₂.bytes := by
    rw [List.flatMap_cons, List.flatMap_singleton]
  obtain ⟨hpaged, honce⟩ := pagedWrites_fed p none [b₁, b₂]
  rw [hbytes] at hpaged honce
  refine ⟨p, b₁, b₂, ?_, ?_, hpaged, honce⟩
  · rw [hcount₁]
    decide
  · rw [hcount₂]
    decide

/-! ## Faults -/

/-- A return value that is no error tells how many bytes have been fed, from the beginning of
    the buffer; with an error nothing has. -/
def Accounts (b : UserBuffer) (ret : Int) (fed : List UInt8) : Prop :=
  (0 ≤ ret → b.read 0 ret.toNat = some fed) ∧ (ret < 0 → fed = [])

/-- Every byte of the buffer can be read, or some byte of the first piece cannot. -/
def FaultsEarly (p : PageSize) (b : UserBuffer) : Prop :=
  (∀ i : Nat, i < b.count.toNat → b.mem i ≠ none) ∨
    ∃ i : Nat, i < min b.count.toNat p.size.toNat ∧ b.mem i = none

/-- A copy fails at the first byte that cannot be read. -/
private theorem read_eq_none_iff {b : UserBuffer} {n : Nat} :
    b.read 0 n = none ↔ ∃ i : Nat, i < n ∧ b.mem i = none := by
  rw [UserBuffer.read, copyFromUser_eq_none_iff]
  simp only [Int.zero_add]

/-- The write at once accounts for what it feeds, whatever can be read. -/
theorem accounts_atOnce (writeBuffer : Option UInt64) (b : UserBuffer) (kmalloc : Bool) :
    Accounts b (hdhomerunDataWriteAtOnce writeBuffer b kmalloc).1
      (hdhomerunDataWriteAtOnce writeBuffer b kmalloc).2.1 := by
  unfold hdhomerunDataWriteAtOnce
  extract_lets grow
  split
  · exact ⟨fun h => absurd h (by decide), fun _ => rfl⟩
  · cases hread : b.read 0 b.count.toNat with
    | none =>
      have hneg : ¬ (0 : Int) ≤ -EFAULT := by decide
      exact ⟨fun h => absurd h hneg, fun _ => rfl⟩
    | some bytes =>
      have hcount : ¬ (b.count.toNat : Int) < 0 := by omega
      exact ⟨fun _ => hread, fun h => absurd h hcount⟩

/-- The return value accounts for what was fed exactly when no fault comes after a page. -/
private theorem Ends.accounts_iff {p : PageSize} {b : UserBuffer} {ret : Int} {fed : List UInt8}
    (h : Ends p b 0 ret fed) : Accounts b ret fed ↔ FaultsEarly p b := by
  have hpos := p.pos
  rcases h with ⟨hret, hfed⟩ | ⟨hret, n, hfed, hn, hlt, hnone⟩
  · -- the whole buffer has been fed, so all of it could be read
    have hread : b.read 0 b.count.toNat = some fed := hfed
    refine iff_of_true ⟨fun _ => ?_, fun hneg => ?_⟩ (.inl fun i hi hbyte => ?_)
    · rw [hret]
      exact hread
    · omega
    · rw [read_eq_none_iff.mpr ⟨i, hi, hbyte⟩] at hread
      exact nomatch hread
  · have hfed' : b.read 0 n = some fed := hfed
    rw [Nat.zero_add] at hlt hnone
    obtain ⟨i, hi, hbyte⟩ := copyFromUser_eq_none_iff.mp hnone
    have hbyte' : b.mem (n + i : Nat) = none := by
      rw [← hbyte]
      apply congrArg b.mem
      push_cast
      rfl
    -- the law holds of the error only if nothing was fed before it
    have hlaw : Accounts b ret fed ↔ n = 0 := by
      constructor
      · intro hacc
        have hnil := hacc.2 (by rw [hret]; decide)
        rw [← length_copyFromUser hfed', hnil, List.length_nil]
      · intro hzero
        refine ⟨fun hge => ?_, fun _ => ?_⟩
        · rw [hret] at hge
          exact absurd hge (by decide)
        · rw [hzero] at hfed'
          exact (Option.some.inj hfed').symm
    rw [hlaw]
    constructor
    · intro hzero
      subst hzero
      rw [Nat.zero_add] at hbyte'
      exact .inr ⟨i, by omega, hbyte'⟩
    · rintro (hall | ⟨j, hj, hfault⟩)
      · exact absurd hbyte' (hall (n + i) (by omega))
      · -- the first page has been fed, so it could be read
        by_contra hne
        rw [read_eq_none_iff.mpr ⟨j, by omega, hfault⟩] at hfed'
        exact nomatch hfed'

/-- The write ends, and its return value tells what has been fed exactly if no copy fails
    or the first one does. -/
theorem pagedWrite_accounts_iff (p : PageSize) (b : UserBuffer) :
    ∃ w, (∀ fuel, b.count.toNat < fuel → hdhomerunDataWrite p b fuel = some w) ∧
      (Accounts b w.ret (fedOf w.turns) ↔ FaultsEarly p b) := by
  obtain ⟨w, hw, -, hends⟩ := dataWrite_spec p b
  exact ⟨w, hw, hends.accounts_iff⟩

/-- Two pages of 4096 bytes, of which the second cannot be read: the first is fed, and the
    write returns an error. -/
theorem pagedWrite_feeds_and_fails :
    ¬ ∀ p b fuel w, hdhomerunDataWrite p b fuel = some w → Accounts b w.ret (fedOf w.turns) := by
  intro hall
  let p : PageSize := ⟨4096, by decide⟩
  let b : UserBuffer := ⟨fun off => if off < 4096 then some 0x47 else none, 8192, by decide⟩
  obtain ⟨w, hw, -, hends⟩ := dataWrite_spec p b
  have hacc := hall p b _ w (hw _ (Nat.lt_succ_self _))
  have hcount : b.count.toNat = 8192 := rfl
  have hsize : p.size.toNat = 4096 := rfl
  have hmem : ∀ off, b.mem off = if off < 4096 then some 0x47 else none := fun _ => rfl
  rcases hends.accounts_iff.mp hacc with hread | ⟨i, hi, hfault⟩
  · have hout : ¬ ((4096 : Nat) : Int) < 4096 := by omega
    apply hread 4096 (by rw [hcount]; decide)
    rw [hmem, if_neg hout]
  · rw [hcount, hsize] at hi
    have hin : (i : Int) < 4096 := by omega
    rw [hmem, if_pos hin] at hfault
    exact absurd hfault (Option.some_ne_none _)

end DvbHdhomerun
