import DvbHdhomerun.User.Tuner

/-!
# What a filter string admits

The device takes its PID filter as a string: PIDs and ranges of PIDs, in hexadecimal and
separated by blanks. `filterAdmits` is that meaning, and `admits_getStrFromPidFilter` says
what the strings of `GetStrFromPidFilter` admit: the PIDs of the list, or everything up to
0x1FFF when the list is empty. The string determines the list, order and repetitions included
(`filterString_faithful`).
-/

namespace DvbHdhomerun

/-- A token `0xH`. -/
def readPid : List Char → Option Nat
  | '0' :: 'x' :: digits => Hex.value digits
  | _ => none

/-- The bounds of a token `0xH` or `0xL-0xH`. -/
def readRange (token : List Char) : Option (Nat × Nat) :=
  match token.splitOn '-' with
  | [pid] => (readPid pid).map fun p => (p, p)
  | [low, high] => (readPid low).bind fun l => (readPid high).map fun h => (l, h)
  | _ => none

/-- The ranges of a filter string. -/
def filterTokens (filter : List Char) : List (List Char) :=
  (filter.splitOn ' ').filter fun token => token ≠ []

/-- Some token of the filter contains the PID. -/
def filterAdmits (filter : String) (pid : Nat) : Bool :=
  (filterTokens filter.toList).any fun token =>
    match readRange token with
    | some (low, high) => low ≤ pid && pid ≤ high
    | none => false

/-- The PIDs of a filter without ranges, in order. -/
def readPids (filter : String) : Option (List Nat) := (filterTokens filter.toList).mapM readPid

/-! ## Tokens -/

/-- A numeral holds nothing but digits. -/
private theorem not_mem_upper {n : Nat} {c : Char} (hc : ∀ d < 16, Hex.digit d ≠ c) :
    c ∉ Hex.upper n := by
  intro h
  obtain ⟨d, hd, rfl⟩ := Hex.exists_digit_of_mem_upper h
  exact hc d hd rfl

/-- The token of a PID, without the blank behind it. -/
private def token (pid : Nat) : List Char := '0' :: 'x' :: Hex.upper pid

/-- No blank in a range. -/
private theorem space_not_mem_token (pid : Nat) : ' ' ∉ token pid := by
  have hupper : ' ' ∉ Hex.upper pid := not_mem_upper (by decide)
  simp [token, hupper]

/-- No dash in a range of one PID. -/
private theorem dash_not_mem_token (pid : Nat) : '-' ∉ token pid := by
  have hupper : '-' ∉ Hex.upper pid := not_mem_upper (by decide)
  simp [token, hupper]

/-- A range of one PID is read back. -/
private theorem readRange_token (pid : Nat) : readRange (token pid) = some (pid, pid) := by
  unfold readRange
  rw [List.splitOn_eq_singleton (dash_not_mem_token pid)]
  simp only [token, readPid, Hex.value_upper, Option.map_some]

/-- Splitting the string for a list of PIDs gives back the tokens. -/
private theorem filterTokens_pids (pids : List Nat) :
    filterTokens (pids.flatMap HdhomerunTuner.pidToken) = pids.map token := by
  unfold filterTokens
  induction pids with
  | nil => rfl
  | cons pid pids ih =>
    have hcons : (pid :: pids).flatMap HdhomerunTuner.pidToken =
        token pid ++ ' ' :: pids.flatMap HdhomerunTuner.pidToken := by
      simp [HdhomerunTuner.pidToken, token]
    rw [hcons, List.splitOn_append_cons_self_of_not_mem (space_not_mem_token pid),
      List.filter_cons_of_pos (by simp [token]), ih, List.map_cons]

/-- The strings of `GetStrFromPidFilter` admit the PIDs of the list, and the pass-all range
    when there are none. -/
theorem HdhomerunTuner.admits_getStrFromPidFilter (t : HdhomerunTuner) (pid : Nat) :
    filterAdmits t.getStrFromPidFilter pid = true ↔
      if t.mPidFilters = [] then pid ≤ 0x1FFF else pid ∈ t.mPidFilters := by
  unfold HdhomerunTuner.getStrFromPidFilter
  split
  · -- one range
    have htokens : filterTokens HdhomerunTuner.passAll.toList = [HdhomerunTuner.passAll.toList] := by
      decide
    have hrange : readRange HdhomerunTuner.passAll.toList = some (0, 0x1FFF) := by decide
    simp only [filterAdmits, htokens, List.any_cons, hrange, List.any_nil]
    simp
  · unfold filterAdmits
    rw [String.toList_ofList, filterTokens_pids, List.any_map]
    simp only [Function.comp_def, readRange_token, List.any_eq_true, Bool.and_eq_true,
      decide_eq_true_eq]
    constructor
    · rintro ⟨p, hp, hle, hge⟩
      rw [← Nat.le_antisymm hle hge]
      exact hp
    · intro hp
      exact ⟨pid, hp, Nat.le_refl _, Nat.le_refl _⟩

/-! ## Reading a string back -/

/-- So are all of them. -/
private theorem mapM_readPid_tokens (pids : List Nat) :
    (pids.map token).mapM readPid = some pids := by
  induction pids with
  | nil => rfl
  | cons pid pids ih =>
    have hpid : readPid (token pid) = some pid := Hex.value_upper pid
    rw [List.map_cons, List.mapM_cons, hpid, ih]
    rfl

namespace HdhomerunTuner

/-- Reading a string of `GetStrFromPidFilter` gives back the list; the range that stands for
    the empty list is no list of PIDs. -/
theorem readPids_getStrFromPidFilter (t : HdhomerunTuner) :
    readPids t.getStrFromPidFilter = if t.mPidFilters = [] then none else some t.mPidFilters := by
  unfold getStrFromPidFilter
  split
  · decide
  · rw [readPids, String.toList_ofList, filterTokens_pids, mapM_readPid_tokens]

/-- The string is a function of the list, and the list one of the string. -/
theorem getStrFromPidFilter_inj {t t' : HdhomerunTuner} :
    t.getStrFromPidFilter = t'.getStrFromPidFilter ↔ t.mPidFilters = t'.mPidFilters := by
  constructor
  · intro h
    have hread := congrArg readPids h
    rw [readPids_getStrFromPidFilter, readPids_getStrFromPidFilter] at hread
    -- an empty list is told from all others by being unreadable
    split at hread <;> rename_i hnil <;> split at hread <;> rename_i hnil'
    · rw [hnil, hnil']
    · exact nomatch hread
    · exact nomatch hread
    · exact Option.some.inj hread
  · intro h
    unfold getStrFromPidFilter
    rw [h]

/-- A list of PIDs is read back from its string, and the empty list has the one range
    0x0000-0x1FFF. So two lists have the same string exactly if they are equal, and only the
    empty one has the string that lets everything pass. -/
theorem filterString_faithful (t t' : HdhomerunTuner) :
    (if t.mPidFilters = [] then
      (filterTokens t.getStrFromPidFilter.toList).map readRange = [some (0x0000, 0x1FFF)]
    else readPids t.getStrFromPidFilter = some t.mPidFilters) ∧
      (t.getStrFromPidFilter = t'.getStrFromPidFilter ↔ t.mPidFilters = t'.mPidFilters) ∧
      (t.getStrFromPidFilter = passAll ↔ t.mPidFilters = []) := by
  refine ⟨?_, getStrFromPidFilter_inj, ?_⟩
  · split <;> rename_i hnil
    · have hstr : t.getStrFromPidFilter = passAll := if_pos hnil
      rw [hstr]
      decide
    · rw [readPids_getStrFromPidFilter, if_neg hnil]
  · -- `passAll` is the string of a tuner without PIDs
    have hempty : ({ t with mPidFilters := [] } : HdhomerunTuner).getStrFromPidFilter = passAll :=
      if_pos rfl
    rw [← hempty]
    exact getStrFromPidFilter_inj

end HdhomerunTuner

end DvbHdhomerun
