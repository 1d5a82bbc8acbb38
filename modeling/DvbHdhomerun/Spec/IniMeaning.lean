import DvbHdhomerun.User.ConfIniFile

/-!
# The meaning of a configuration file

A line with a `[` names the section of the lines behind it, a line `key=value` gives a value
to a key of that section, and the first value given counts; a line with a `#` says nothing.
`openIniFile_meaning` says that this is what `OpenIniFile` and `GetSecValue` come to.
-/

namespace DvbHdhomerun

namespace ConfIniFile

/-- A section header: no `#`, and a `[` anywhere. -/
def IsHeader (line : List UInt8) : Prop := '#'.toUInt8 ∉ line ∧ '['.toUInt8 ∈ line

instance (line : List UInt8) : Decidable (IsHeader line) :=
  inferInstanceAs (Decidable (_ ∧ _))

/-- The section in effect behind some lines: the latest header without its first and last
    characters, and `sect` when there is none. -/
def sectionAfter (sect : List UInt8) (lines : List (List UInt8)) : List UInt8 :=
  match (lines.filter fun line => IsHeader line).getLast? with
  | none => sect
  | some header => header.tail.dropLast

/-- Behind the lines `before`, `line` gives the value `value` to `key` in `sect`: it has no `#`
    and no `[`, and its first `=` separates key and value. -/
structure IsEntry (before : List (List UInt8)) (line sect key value : List UInt8) : Prop where
  noComment : '#'.toUInt8 ∉ line
  noHeader : '['.toUInt8 ∉ line
  key_eq : '='.toUInt8 ∉ key
  line_eq : line = key ++ '='.toUInt8 :: value
  sect_eq : sectionAfter [] before = sect

/-- Some line gives a value to the key, and the first one that does gives `value`. -/
def FirstEntry (lines : List (List UInt8)) (sect key value : List UInt8) : Prop :=
  ∃ before line after, lines = before ++ line :: after ∧ IsEntry before line sect key value ∧
    ∀ before' line' after' value', before = before' ++ line' :: after' →
      ¬ IsEntry before' line' sect key value'

/-! ## One line -/

/-- The key and the value in a line, if it is one of this kind. -/
def keyValue (line : List UInt8) : Option (List UInt8 × List UInt8) :=
  if '#'.toUInt8 ∈ line ∨ '['.toUInt8 ∈ line ∨ '='.toUInt8 ∉ line then none
  else Lines.getline '='.toUInt8 line

/-- A line without `#` and `[` is split at its first `=`. -/
theorem keyValue_append {key value : List UInt8}
    (hcomment : '#'.toUInt8 ∉ key ++ '='.toUInt8 :: value)
    (hheader : '['.toUInt8 ∉ key ++ '='.toUInt8 :: value) (hkey : '='.toUInt8 ∉ key) :
    keyValue (key ++ '='.toUInt8 :: value) = some (key, value) := by
  have heq : '='.toUInt8 ∈ key ++ '='.toUInt8 :: value :=
    List.mem_append_right _ List.mem_cons_self
  have hline : ¬ ('#'.toUInt8 ∈ key ++ '='.toUInt8 :: value ∨
      '['.toUInt8 ∈ key ++ '='.toUInt8 :: value ∨ '='.toUInt8 ∉ key ++ '='.toUInt8 :: value) := by
    rw [not_or, not_or, not_not]
    exact ⟨hcomment, hheader, heq⟩
  rw [keyValue, if_neg hline, Lines.getline_append hkey]

/-- The lines that give a value to a key. -/
theorem keyValue_eq_some_iff {line key value : List UInt8} :
    keyValue line = some (key, value) ↔ '#'.toUInt8 ∉ line ∧ '['.toUInt8 ∉ line ∧
      '='.toUInt8 ∉ key ∧ line = key ++ '='.toUInt8 :: value := by
  constructor
  · intro h
    have hline := h
    unfold keyValue at hline
    split at hline
    · exact nomatch hline
    · rename_i hkind
      rw [not_or, not_or, not_not] at hkind
      obtain ⟨hcomment, hheader, heq⟩ := hkind
      -- cut the line at its first `=`
      obtain ⟨k, v, rfl, hkey⟩ := List.eq_append_cons_of_mem heq
      rw [keyValue_append hcomment hheader hkey] at h
      cases h
      exact ⟨hcomment, hheader, hkey, rfl⟩
  · rintro ⟨hcomment, hheader, hkey, rfl⟩
    exact keyValue_append hcomment hheader hkey

/-- A header gives no value. -/
theorem keyValue_of_isHeader {line : List UInt8} (h : IsHeader line) : keyValue line = none :=
  if_pos (.inr (.inl h.2))

/-- A header without its first and last characters; a header of one character has none left,
    although `size() - 2` wraps. -/
theorem substr_header {line : List UInt8} (h : line ≠ []) :
    substr line 1 (sizeSub line.length 2) = some line.tail.dropLast := by
  obtain ⟨c, rest, rfl⟩ := List.exists_cons_of_ne_nil h
  have hpos : ¬ (c :: rest).length < 1 := by
    rw [List.length_cons]
    omega
  rw [substr, if_neg hpos, List.drop_one, List.tail_cons, List.dropLast_eq_take]
  unfold sizeSub
  split <;> rename_i hsize <;> rw [List.length_cons] at hsize ⊢
  · -- the line is the header alone
    have hnil : rest = [] := List.length_eq_zero_iff.mp (by omega)
    rw [hnil, List.take_nil, List.take_nil]
  · rfl

/-- In a line without NUL the search finds exactly the characters it holds. -/
theorem hasChar_eq {line : List UInt8} (hnul : 0 ∉ line) (c : Char) :
    hasChar line c = decide (c.toUInt8 ∈ line) := by
  have hself : CString.chars line = line := by
    apply CString.chars_eq_self
    rintro b hb rfl
    exact hnul hb
  rw [hasChar, hself]

/-- What a line does to the variables of the loop. -/
def Reader.after (r : Reader) (line : List UInt8) : Reader :=
  if IsHeader line then { r with sect := line.tail.dropLast }
  else match keyValue line with
    | none => r
    | some (key, value) =>
      { r with mSectionKeyValue := insertKeyValue r.mSectionKeyValue r.sect key value }

/-- No line makes the body of the loop throw. -/
theorem readLine_eq (r : Reader) {line : List UInt8} (hnul : 0 ∉ line)
    (hnl : '\n'.toUInt8 ∉ line) : readLine r line = some (r.after line) := by
  unfold readLine Reader.after
  simp only [hasChar_eq hnul, decide_eq_true_eq]
  -- one case for each kind of line, in the order of the tests
  by_cases hempty : line = []
  · subst hempty
    rfl
  rw [if_neg hempty]
  by_cases hcomment : '#'.toUInt8 ∈ line
  · have hnot : ¬ IsHeader line := fun h => h.1 hcomment
    rw [if_pos hcomment, if_neg hnot, keyValue, if_pos (.inl hcomment)]
  rw [if_neg hcomment]
  by_cases hheader : '['.toUInt8 ∈ line
  · have hhead : IsHeader line := ⟨hcomment, hheader⟩
    rw [if_pos hheader, if_pos hhead, substr_header hempty, Option.map_some]
  have hnot : ¬ IsHeader line := fun h => hheader h.2
  rw [if_neg hheader, if_neg hnot]
  by_cases heq : '='.toUInt8 ∈ line
  · obtain ⟨key, value, rfl, hkey⟩ := List.eq_append_cons_of_mem heq
    have hvalue : '\n'.toUInt8 ∉ value := fun hmem =>
      hnl (List.mem_append_right _ (List.mem_cons_of_mem _ hmem))
    rw [if_pos heq, keyValue_append hcomment hheader hkey, Lines.getline_append hkey,
      Option.getD_some, Lines.getline_of_not_mem hvalue]
  · rw [if_neg heq, keyValue, if_pos (.inr (.inr heq))]

/-! ## The file -/

/-- The loop over a file without NULs goes through its lines and never throws. -/
theorem readFile_eq (r : Reader) {file : List UInt8} (hnul : 0 ∉ file) :
    readFile r file = some ((Lines.split '\n'.toUInt8 file).foldl Reader.after r) := by
  have hlines : ∀ line ∈ Lines.split '\n'.toUInt8 file, 0 ∉ line :=
    fun line hline hmem => hnul (Lines.mem_of_mem_split hline hmem)
  clear hnul
  induction file using Lines.split.induct '\n'.toUInt8 generalizing r with
  | case1 file hget => rw [readFile_of_none r hget, Lines.split_of_none hget, List.foldl_nil]
  | case2 file line rest hget ih =>
    have hsplit := Lines.split_of_some hget
    have hmem : line ∈ Lines.split '\n'.toUInt8 file := hsplit ▸ List.mem_cons_self
    rw [readFile_of_some r hget, hsplit, List.foldl_cons,
      readLine_eq r (hlines line hmem) (Lines.not_mem_of_mem_split hmem), Option.bind_some]
    exact ih _ fun l hl => hlines l (hsplit ▸ List.mem_cons_of_mem line hl)

/-! ## The maps -/

/-- The value of a key in a section. -/
def lookup (m : MapSecKeyVal) (sect key : List UInt8) : Option (List UInt8) :=
  (m sect).bind fun keyVal => keyVal key

/-- `GetSecValue` looks the key up, and leaves the value alone when it is not there. -/
theorem getSecValue_eq (conf : ConfIniFile) (sect key value : List UInt8) :
    conf.getSecValue sect key value =
      ((lookup conf.mSectionKeyValue sect key).isSome,
        (lookup conf.mSectionKeyValue sect key).getD value) := by
  unfold getSecValue lookup
  cases conf.mSectionKeyValue sect with
  | none => rfl
  | some keyVal =>
    simp only [Option.bind_some]
    cases keyVal key <;> rfl

/-- A value is added for a key of a section that has none yet. -/
theorem lookup_insertKeyValue (m : MapSecKeyVal) (sect key value s k : List UInt8) :
    lookup (insertKeyValue m sect key value) s k =
      (lookup m s k).or (if sect = s ∧ key = k then some value else none) := by
  unfold lookup insertKeyValue mapInsert
  by_cases hs : sect = s
  · subst hs
    simp only [Function.update_self, Option.map_some, Option.bind_some, true_and]
    by_cases hk : key = k
    · subst hk
      rw [Function.update_self, if_pos rfl]
      cases m sect with
      | none => rfl
      | some keyVal =>
        rw [Option.getD_some, Option.bind_some]
        cases keyVal key <;> rfl
    · rw [Function.update_of_ne (Ne.symm hk), if_neg hk, Option.or_none]
      cases m sect <;> rfl
  · have hnot : ¬ (sect = s ∧ key = k) := fun h => hs h.1
    simp only [Function.update_of_ne (Ne.symm hs), if_neg hnot, Option.or_none]

/-! ## The lines -/

/-- The value that a line gives to a key of a section when `current` is in effect. -/
def valueOf (current line sect key : List UInt8) : Option (List UInt8) :=
  (keyValue line).bind fun kv => if current = sect ∧ kv.1 = key then some kv.2 else none

/-- The first value that the lines give to a key of a section. -/
def firstValue (current : List UInt8) (lines : List (List UInt8)) (sect key : List UInt8) :
    Option (List UInt8) :=
  match lines with
  | [] => none
  | line :: lines =>
    (valueOf current line sect key).or (firstValue (sectionAfter current [line]) lines sect key)

/-- A header begins a section. -/
theorem sectionAfter_of_isHeader (sect : List UInt8) {line : List UInt8} (h : IsHeader line) :
    sectionAfter sect [line] = line.tail.dropLast := by
  rw [sectionAfter, List.filter_cons_of_pos (by simpa using h)]
  rfl

/-- Any other line stays in the section. -/
theorem sectionAfter_of_not_isHeader (sect : List UInt8) {line : List UInt8}
    (h : ¬ IsHeader line) : sectionAfter sect [line] = sect := by
  rw [sectionAfter, List.filter_cons_of_neg (by simpa using h)]
  rfl

/-- The section behind some lines goes on through those that follow. -/
theorem sectionAfter_append (sect : List UInt8) (lines lines' : List (List UInt8)) :
    sectionAfter sect (lines ++ lines') = sectionAfter (sectionAfter sect lines) lines' := by
  unfold sectionAfter
  rw [List.filter_append, List.getLast?_append]
  cases (lines'.filter fun line => IsHeader line).getLast? <;> rfl

/-- One line first. -/
theorem sectionAfter_cons (sect line : List UInt8) (lines : List (List UInt8)) :
    sectionAfter sect (line :: lines) = sectionAfter (sectionAfter sect [line]) lines :=
  sectionAfter_append sect [line] lines

/-- A value is found in the first lines or else in those that follow. -/
theorem firstValue_append (current : List UInt8) (ls ls' : List (List UInt8))
    (sect key : List UInt8) :
    firstValue current (ls ++ ls') sect key =
      (firstValue current ls sect key).or (firstValue (sectionAfter current ls) ls' sect key) := by
  induction ls generalizing current with
  | nil => rfl
  | cons line ls ih =>
    have hsect : sectionAfter (sectionAfter current [line]) ls = sectionAfter current (line :: ls) :=
      (sectionAfter_cons current line ls).symm
    rw [List.cons_append, firstValue, firstValue, ih, Option.or_assoc, hsect]

/-- The reader's section is the one in effect. -/
theorem Reader.after_sect (r : Reader) (line : List UInt8) :
    (r.after line).sect = sectionAfter r.sect [line] := by
  unfold Reader.after
  split <;> rename_i hheader
  · rw [sectionAfter_of_isHeader _ hheader]
  · rw [sectionAfter_of_not_isHeader _ hheader]
    split <;> rfl

/-- A line adds its value unless the key has one. -/
theorem Reader.lookup_after (r : Reader) (line sect key : List UInt8) :
    lookup (r.after line).mSectionKeyValue sect key =
      (lookup r.mSectionKeyValue sect key).or (valueOf r.sect line sect key) := by
  unfold Reader.after valueOf
  split <;> rename_i hheader
  · rw [keyValue_of_isHeader hheader, Option.bind_none, Option.or_none]
  · split <;> rename_i hkv <;> rw [hkv]
    · rw [Option.bind_none, Option.or_none]
    · exact lookup_insertKeyValue _ _ _ _ _ _

/-- The variables behind the loop, in terms of the lines. -/
theorem Reader.foldl_after (r : Reader) (lines : List (List UInt8)) :
    (lines.foldl Reader.after r).sect = sectionAfter r.sect lines ∧
      ∀ sect key, lookup (lines.foldl Reader.after r).mSectionKeyValue sect key =
        (lookup r.mSectionKeyValue sect key).or (firstValue r.sect lines sect key) := by
  induction lines generalizing r with
  | nil =>
    refine ⟨rfl, fun sect key => ?_⟩
    rw [List.foldl_nil, firstValue, Option.or_none]
  | cons line lines ih =>
    obtain ⟨hsect, hlookup⟩ := ih (r.after line)
    rw [r.after_sect] at hsect hlookup
    rw [List.foldl_cons, sectionAfter_cons]
    refine ⟨hsect, fun sect key => ?_⟩
    rw [hlookup, r.lookup_after, Option.or_assoc, firstValue]

/-! ## First entries -/

/-- No value is found exactly if no line gives one. -/
theorem firstValue_eq_none_iff {current : List UInt8} {lines : List (List UInt8)}
    {sect key : List UInt8} :
    firstValue current lines sect key = none ↔
      ∀ before line after, lines = before ++ line :: after →
        valueOf (sectionAfter current before) line sect key = none := by
  induction lines generalizing current with
  | nil =>
    refine iff_of_true rfl fun before line after h => ?_
    exact absurd h.symm (List.append_ne_nil_of_right_ne_nil _ (List.cons_ne_nil _ _))
  | cons first lines ih =>
    rw [firstValue, Option.or_eq_none_iff, ih]
    constructor
    · -- a line is the first one, or stands behind it
      rintro ⟨hfirst, hrest⟩ before line after h
      cases before with
      | nil =>
        cases h
        exact hfirst
      | cons b before =>
        cases h
        rw [sectionAfter_cons]
        exact hrest before line after rfl
    · intro h
      refine ⟨h [] first lines rfl, fun before line after hlines => ?_⟩
      rw [← sectionAfter_cons]
      exact h (first :: before) line after (by rw [hlines, List.cons_append])

/-- The value found is given by a line before which no line gives one. -/
theorem firstValue_eq_some_iff {current : List UInt8} {lines : List (List UInt8)}
    {sect key value : List UInt8} :
    firstValue current lines sect key = some value ↔
      ∃ before line after, lines = before ++ line :: after ∧
        valueOf (sectionAfter current before) line sect key = some value ∧
        firstValue current before sect key = none := by
  induction lines generalizing current with
  | nil =>
    refine iff_of_false (fun h => nomatch h) ?_
    rintro ⟨before, line, after, h, -, -⟩
    exact absurd h.symm (List.append_ne_nil_of_right_ne_nil _ (List.cons_ne_nil _ _))
  | cons first lines ih =>
    rw [firstValue]
    constructor
    · -- the first line gives the value, or it gives none and the rest is searched
      intro h
      cases hfirst : valueOf current first sect key with
      | some v =>
        rw [hfirst, Option.some_or] at h
        exact ⟨[], first, lines, rfl, hfirst.trans h, rfl⟩
      | none =>
        rw [hfirst, Option.none_or] at h
        obtain ⟨before, line, after, rfl, hvalue, hnone⟩ := ih.mp h
        refine ⟨first :: before, line, after, rfl, ?_, ?_⟩
        · rw [sectionAfter_cons]
          exact hvalue
        · rw [firstValue, hfirst, hnone, Option.none_or]
    · rintro ⟨before, line, after, hlines, hvalue, hnone⟩
      cases before with
      | nil =>
        cases hlines
        have hfirst : valueOf current first sect key = some value := hvalue
        rw [hfirst, Option.some_or]
      | cons b before =>
        cases hlines
        rw [firstValue, Option.or_eq_none_iff] at hnone
        rw [hnone.1, Option.none_or]
        rw [sectionAfter_cons] at hvalue
        exact ih.mpr ⟨before, line, after, rfl, hvalue, hnone.2⟩

/-- An entry is a line that gives its value in the section in effect. -/
theorem isEntry_iff {before : List (List UInt8)} {line sect key value : List UInt8} :
    IsEntry before line sect key value ↔
      valueOf (sectionAfter [] before) line sect key = some value := by
  unfold valueOf
  constructor
  · rintro ⟨hcomment, hheader, hkey, hline, hsect⟩
    rw [keyValue_eq_some_iff.mpr ⟨hcomment, hheader, hkey, hline⟩, Option.bind_some,
      if_pos ⟨hsect, rfl⟩]
  · intro h
    obtain ⟨kv, hkv, hvalue⟩ := Option.bind_eq_some_iff.mp h
    obtain ⟨k, v⟩ := kv
    split at hvalue
    · rename_i hboth
      obtain ⟨hsect, rfl⟩ := hboth
      cases hvalue
      obtain ⟨hcomment, hheader, hkey, hline⟩ := keyValue_eq_some_iff.mp hkv
      exact ⟨hcomment, hheader, hkey, hline, hsect⟩
    · exact nomatch hvalue

/-- The first entry is what a search of all lines finds. -/
theorem firstEntry_iff {lines : List (List UInt8)} {sect key value : List UInt8} :
    FirstEntry lines sect key value ↔ firstValue [] lines sect key = some value := by
  have hnone : ∀ before : List (List UInt8), firstValue [] before sect key = none ↔
      ∀ before' line' after' value', before = before' ++ line' :: after' →
        ¬ IsEntry before' line' sect key value' := by
    intro before
    rw [firstValue_eq_none_iff]
    simp only [isEntry_iff, Option.eq_none_iff_forall_ne_some]
    exact ⟨fun h b l a v hb => h b l a hb v, fun h b l a hb v => h b l a v hb⟩
  unfold FirstEntry
  simp only [firstValue_eq_some_iff, hnone, isEntry_iff]

/-- After `OpenIniFile` on a file without NULs, which never throws, `GetSecValue` returns true
    exactly when some line gives a value to the key in the section; the value is the one of
    the first such line, and is left alone when there is none. -/
theorem openIniFile_meaning (prior : ConfIniFile) {file : List UInt8} (hnul : 0 ∉ file) :
    ∃ conf, prior.openIniFile (some file) = some (true, conf) ∧
      ∀ sect key value,
        ((conf.getSecValue sect key value).1 = true ↔
          ∃ before line after found, Lines.split '\n'.toUInt8 file = before ++ line :: after ∧
            IsEntry before line sect key found) ∧
        (∀ found, FirstEntry (Lines.split '\n'.toUInt8 file) sect key found →
          conf.getSecValue sect key value = (true, found)) ∧
        ((conf.getSecValue sect key value).1 = false →
          (conf.getSecValue sect key value).2 = value) := by
  -- whatever was in the object is cleared first
  let start : Reader := ⟨[], mapClear prior.mSectionKeyValue⟩
  let lines := Lines.split '\n'.toUInt8 file
  have hopen : prior.openIniFile (some file) =
      some (true, ⟨(lines.foldl Reader.after start).mSectionKeyValue⟩) := by
    show (readFile start file).map _ = _
    rw [readFile_eq start hnul]
    rfl
  refine ⟨_, hopen, fun sect key value => ?_⟩
  have hlookup : lookup (lines.foldl Reader.after start).mSectionKeyValue sect key =
      firstValue [] lines sect key := (start.foldl_after lines).2 sect key
  rw [getSecValue_eq, hlookup]
  refine ⟨?_, fun found hfound => ?_, fun hfalse => ?_⟩
  · have hsome : (firstValue [] lines sect key).isSome = true ↔
        ∃ found, firstValue [] lines sect key = some found := Option.isSome_iff_exists
    rw [hsome]
    constructor
    · rintro ⟨found, hfound⟩
      obtain ⟨before, line, after, hlines, hentry, -⟩ := firstEntry_iff.mpr hfound
      exact ⟨before, line, after, found, hlines, hentry⟩
    · rintro ⟨before, line, after, found, hlines, hentry⟩
      apply Option.ne_none_iff_exists'.mp
      intro hnone
      have hline := firstValue_eq_none_iff.mp hnone before line after hlines
      rw [isEntry_iff.mp hentry] at hline
      exact absurd hline (Option.some_ne_none found)
  · rw [firstEntry_iff.mp hfound]
    rfl
  · rw [Option.isSome_eq_false_iff, Option.isNone_iff_eq_none] at hfalse
    rw [hfalse]
    rfl

/-- The lines `[a]` and `k=v`. -/
private def twoLines : List UInt8 := [0x5b, 0x61, 0x5d, 0x0a, 0x6b, 0x3d, 0x76, 0x0a]

/-- A section with one key in it. -/
theorem openIniFile_meaning_two :
    ∃ conf, ConfIniFile.openIniFile ⟨fun _ => none⟩ (some twoLines) = some (true, conf) ∧
      ∀ sect key value,
        ((conf.getSecValue sect key value).1 = true ↔
          ∃ before line after found, Lines.split '\n'.toUInt8 twoLines = before ++ line :: after ∧
            IsEntry before line sect key found) ∧
        (∀ found, FirstEntry (Lines.split '\n'.toUInt8 twoLines) sect key found →
          conf.getSecValue sect key value = (true, found)) ∧
        ((conf.getSecValue sect key value).1 = false →
          (conf.getSecValue sect key value).2 = value) :=
  openIniFile_meaning ⟨fun _ => none⟩ (by decide)

end ConfIniFile

end DvbHdhomerun
