import DvbHdhomerun.Spec.IniMeaning

/-!
# Writing a configuration and reading it back

A configuration is written as `[section]` and `key=value` lines. A value may be any text
without a `#`, but a line with a `[` anywhere is read as a header, so that a value with a `[`
names a section: `readsBack_iff` says which configurations are read back.
-/

namespace DvbHdhomerun

/-- None of the characters is in the string, nor is a NUL. -/
def Without (chars : List Char) (s : List UInt8) : Prop := 0 ∉ s ∧ ∀ c ∈ chars, c.toUInt8 ∉ s

instance (chars : List Char) (s : List UInt8) : Decidable (Without chars s) :=
  -- the characters of the list are tried, not all there are
  @instDecidableAnd _ _ inferInstance (List.decidableBAll (fun c => c.toUInt8 ∉ s) chars)

/-- A key and its value. -/
structure ConfEntry where
  key : List UInt8
  value : List UInt8
  key_ok : Without ['\n', '=', '[', '#'] key
  value_ok : Without ['\n', '#'] value

/-- A section: its name and its entries. -/
structure ConfSection where
  name : List UInt8
  name_ok : Without ['\n', '[', ']', '#'] name
  entries : List ConfEntry

/-- The line `key=value`. -/
def ConfEntry.line (e : ConfEntry) : List UInt8 := e.key ++ '='.toUInt8 :: e.value

/-- The line `[name]`. -/
def ConfSection.header (s : ConfSection) : List UInt8 :=
  '['.toUInt8 :: (s.name ++ [']'.toUInt8])

/-- The section as lines, the header first. -/
def ConfSection.lines (s : ConfSection) : List (List UInt8) :=
  s.header :: s.entries.map ConfEntry.line

namespace Conf

/-- A configuration as lines. -/
def lines (conf : List ConfSection) : List (List UInt8) := conf.flatMap ConfSection.lines

/-- Lines as the contents of a file. -/
def text (lines : List (List UInt8)) : List UInt8 := lines.flatMap (· ++ ['\n'.toUInt8])

/-- The entries with the names of their sections. -/
def entries (conf : List ConfSection) : List (List UInt8 × ConfEntry) :=
  conf.flatMap fun s => s.entries.map fun e => (s.name, e)

/-- The first value given for a key under a section. -/
def firstGiven (conf : List ConfSection) (sect key : List UInt8) : Option (List UInt8) :=
  ((entries conf).find? fun p => p.1 = sect ∧ p.2.key = key).map fun p => p.2.value

/-- `GetSecValue` returns what has been written. -/
def ReadsBack (prior : ConfIniFile) (conf : List ConfSection) : Prop :=
  ∃ ini, prior.openIniFile (some (text (lines conf))) = some (true, ini) ∧
    ∀ sect key value old, firstGiven conf sect key = some value →
      ini.getSecValue sect key old = (true, value)

/-- The variable `section` of the loop in `OpenIniFile` behind some lines. -/
def sectionVar (lines : List (List UInt8)) : Option (List UInt8) :=
  (ConfIniFile.readFile ⟨[], fun _ => none⟩ (text lines)).map ConfIniFile.Reader.sect

/-- No `key=value` line changes the section of the lines behind it. -/
def KeepsSection (conf : List ConfSection) : Prop :=
  ∀ front s back es e es', conf = front ++ s :: back → s.entries = es ++ e :: es' →
    sectionVar (lines front ++ s.header :: es.map ConfEntry.line ++ [e.line]) =
      sectionVar (lines front ++ s.header :: es.map ConfEntry.line)

/-- A value with a `[` is in a line that names its own section when it is read as a header. -/
def NamesOwn (conf : List ConfSection) : Prop :=
  ∀ s ∈ conf, ∀ e ∈ s.entries, '['.toUInt8 ∈ e.value → e.line.tail.dropLast = s.name

/-- The first value given for a key under a section has no `[`. -/
def FirstsPlain (conf : List ConfSection) : Prop :=
  ∀ sect key value, firstGiven conf sect key = some value → '['.toUInt8 ∉ value

/-! ## Lines -/

open ConfIniFile

/-- A line has no other byte than its key, its value and the `=`. -/
theorem not_mem_line (e : ConfEntry) {c : UInt8} (hc : c ≠ '='.toUInt8) (hkey : c ∉ e.key)
    (hvalue : c ∉ e.value) : c ∉ e.line := by
  rw [ConfEntry.line, List.mem_append, List.mem_cons]
  rintro (h | h | h)
  · exact hkey h
  · exact hc h
  · exact hvalue h

/-- A `key=value` line is taken for a header exactly if its value has a `[`. -/
theorem isHeader_line_iff (e : ConfEntry) : IsHeader e.line ↔ '['.toUInt8 ∈ e.value := by
  have hcomment : '#'.toUInt8 ∉ e.line :=
    not_mem_line e (by decide) (e.key_ok.2 '#' (by decide)) (e.value_ok.2 '#' (by decide))
  constructor
  · rintro ⟨-, hmem⟩
    by_contra hvalue
    exact not_mem_line e (by decide) (e.key_ok.2 '[' (by decide)) hvalue hmem
  · intro hvalue
    exact ⟨hcomment, List.mem_append_right _ (List.mem_cons_of_mem _ hvalue)⟩

/-- A line is read as its key and value unless the value has a `[`. -/
theorem keyValue_line {e : ConfEntry} (h : '['.toUInt8 ∉ e.value) :
    keyValue e.line = some (e.key, e.value) := by
  have hcomment : '#'.toUInt8 ∉ e.line :=
    not_mem_line e (by decide) (e.key_ok.2 '#' (by decide)) (e.value_ok.2 '#' (by decide))
  have hheader : '['.toUInt8 ∉ e.line :=
    not_mem_line e (by decide) (e.key_ok.2 '[' (by decide)) h
  exact keyValue_append hcomment hheader (e.key_ok.2 '=' (by decide))

/-- A header has no other byte than its name and the brackets. -/
theorem not_mem_header (s : ConfSection) {c : UInt8} (hopen : c ≠ '['.toUInt8)
    (hclose : c ≠ ']'.toUInt8) (hname : c ∉ s.name) : c ∉ s.header := by
  rw [ConfSection.header, List.mem_cons, List.mem_append, List.mem_singleton]
  rintro (h | h | h)
  · exact hopen h
  · exact hname h
  · exact hclose h

/-- A header is read as one. -/
theorem isHeader_header (s : ConfSection) : IsHeader s.header :=
  ⟨not_mem_header s (by decide) (by decide) (s.name_ok.2 '#' (by decide)), List.mem_cons_self⟩

/-- Between the brackets is the name. -/
theorem tail_dropLast_header (s : ConfSection) : s.header.tail.dropLast = s.name := by
  rw [ConfSection.header, List.tail_cons, List.dropLast_concat]

/-- Nothing that is written has a NUL or a newline in a line. -/
theorem line_ok {conf : List ConfSection} {line : List UInt8} (h : line ∈ lines conf) :
    0 ∉ line ∧ '\n'.toUInt8 ∉ line := by
  obtain ⟨s, -, hline⟩ := List.mem_flatMap.mp h
  rcases List.mem_cons.mp hline with rfl | hmem
  · exact ⟨not_mem_header s (by decide) (by decide) s.name_ok.1,
      not_mem_header s (by decide) (by decide) (s.name_ok.2 '\n' (by decide))⟩
  · obtain ⟨e, -, rfl⟩ := List.mem_map.mp hmem
    exact ⟨not_mem_line e (by decide) e.key_ok.1 e.value_ok.1,
      not_mem_line e (by decide) (e.key_ok.2 '\n' (by decide)) (e.value_ok.2 '\n' (by decide))⟩

/-- The loop over written lines. -/
theorem readFile_text (r : Reader) {lines : List (List UInt8)}
    (h : ∀ line ∈ lines, 0 ∉ line ∧ '\n'.toUInt8 ∉ line) :
    readFile r (text lines) = some (lines.foldl Reader.after r) := by
  have hnul : 0 ∉ text lines := by
    intro hmem
    obtain ⟨line, hline, hc⟩ := List.mem_flatMap.mp hmem
    rcases List.mem_append.mp hc with hc | hc
    · exact (h line hline).1 hc
    · exact absurd hc (by decide)
  rw [readFile_eq r hnul, text, Lines.split_flatMap fun line hline => (h line hline).2]

/-! ## Sections -/

/-- The section in effect after plain lines. -/
theorem sectionVar_eq {lines : List (List UInt8)}
    (h : ∀ line ∈ lines, 0 ∉ line ∧ '\n'.toUInt8 ∉ line) :
    sectionVar lines = some (sectionAfter [] lines) := by
  rw [sectionVar, readFile_text _ h, Option.map_some, (Reader.foldl_after _ lines).1]

/-- What stands in a file up to some entry. -/
private theorem before_ok {conf front back : List ConfSection} {s : ConfSection}
    {es es' : List ConfEntry} (hconf : conf = front ++ s :: back) (hes : s.entries = es ++ es') :
    ∀ line ∈ lines front ++ s.header :: es.map ConfEntry.line, 0 ∉ line ∧ '\n'.toUInt8 ∉ line := by
  intro line hline
  have hmem : line ∈ lines conf := by
    rw [hconf, lines, List.flatMap_append, List.flatMap_cons, ConfSection.lines, hes, List.map_append]
    rcases List.mem_append.mp hline with h | h
    · exact List.mem_append_left _ h
    · refine List.mem_append_right _ (List.mem_append_left _ ?_)
      rw [← List.cons_append]
      exact List.mem_append_left _ h
  exact line_ok hmem

/-- Under a header the section stays while no line names another one. -/
private theorem sectionAfter_entries {name : List UInt8} {es : List ConfEntry}
    (h : ∀ e ∈ es, '['.toUInt8 ∈ e.value → e.line.tail.dropLast = name) :
    sectionAfter name (es.map ConfEntry.line) = name := by
  induction es with
  | nil => rfl
  | cons e es ih =>
    have hfirst : sectionAfter name [e.line] = name := by
      by_cases hvalue : '['.toUInt8 ∈ e.value
      · rw [sectionAfter_of_isHeader _ ((isHeader_line_iff e).mpr hvalue)]
        exact h e List.mem_cons_self hvalue
      · exact sectionAfter_of_not_isHeader _ (mt (isHeader_line_iff e).mp hvalue)
    rw [List.map_cons, sectionAfter_cons, hfirst]
    exact ih fun e' he' => h e' (List.mem_cons_of_mem e he')

/-- If no entry changes the section, those that are read as headers name it. -/
private theorem names_of_sectionAfter {name : List UInt8} {es : List ConfEntry}
    (h : ∀ before e after, es = before ++ e :: after →
      sectionAfter name ((before ++ [e]).map ConfEntry.line) =
        sectionAfter name (before.map ConfEntry.line)) :
    ∀ e ∈ es, '['.toUInt8 ∈ e.value → e.line.tail.dropLast = name := by
  induction es with
  | nil => exact fun e he => absurd he List.not_mem_nil
  | cons e es ih =>
    have hfirst : sectionAfter name [e.line] = name := h [] e es rfl
    intro e' he' hvalue
    rcases List.mem_cons.mp he' with rfl | hmem
    · rwa [sectionAfter_of_isHeader _ ((isHeader_line_iff e').mpr hvalue)] at hfirst
    · -- behind the first entry the section is still `name`
      refine ih (fun before e₁ after hes => ?_) e' hmem hvalue
      have hstep := h (e :: before) e₁ after (by rw [hes]; rfl)
      rwa [List.cons_append, List.map_cons, List.map_cons, sectionAfter_cons, hfirst,
        sectionAfter_cons, hfirst] at hstep

/-- The section after the lines up to some entry. -/
private theorem sectionVar_upTo {conf front back : List ConfSection} {s : ConfSection}
    {es es' : List ConfEntry} (hconf : conf = front ++ s :: back) (hes : s.entries = es ++ es') :
    sectionVar (lines front ++ s.header :: es.map ConfEntry.line) =
      some (sectionAfter s.name (es.map ConfEntry.line)) := by
  rw [sectionVar_eq (before_ok hconf hes), sectionAfter_append, sectionAfter_cons,
    sectionAfter_of_isHeader _ (isHeader_header s), tail_dropLast_header]

/-- The section after one entry more. -/
private theorem sectionVar_upTo_snoc {conf front back : List ConfSection} {s : ConfSection}
    {es es' : List ConfEntry} {e : ConfEntry} (hconf : conf = front ++ s :: back)
    (hes : s.entries = es ++ e :: es') :
    sectionVar (lines front ++ s.header :: es.map ConfEntry.line ++ [e.line]) =
      some (sectionAfter s.name ((es ++ [e]).map ConfEntry.line)) := by
  have hline : lines front ++ s.header :: es.map ConfEntry.line ++ [e.line] =
      lines front ++ s.header :: (es ++ [e]).map ConfEntry.line := by
    rw [List.append_assoc, List.cons_append, List.map_append]
    rfl
  have hes' : s.entries = (es ++ [e]) ++ es' := by rw [hes, List.append_assoc]; rfl
  rw [hline, sectionVar_upTo hconf hes']

/-- No line changes the section exactly if those that are read as headers name the one that
    they stand in. -/
theorem keepsSection_iff (conf : List ConfSection) : KeepsSection conf ↔ NamesOwn conf := by
  constructor
  · intro hkeeps s hs
    obtain ⟨front, back, hconf⟩ := List.append_of_mem hs
    apply names_of_sectionAfter
    intro es e es' hes
    have hstep := hkeeps front s back es e es' hconf hes
    rw [sectionVar_upTo_snoc hconf hes, sectionVar_upTo hconf hes] at hstep
    exact Option.some.inj hstep
  · intro hown front s back es e es' hconf hes
    have hs : s ∈ conf := hconf ▸ List.mem_append_right _ List.mem_cons_self
    have hmem : ∀ e' ∈ es ++ [e], e' ∈ s.entries := by
      intro e' he'
      rw [hes, ← List.singleton_append, ← List.append_assoc]
      exact List.mem_append_left es' he'
    rw [sectionVar_upTo_snoc hconf hes, sectionVar_upTo hconf hes,
      sectionAfter_entries fun e' he' => hown s hs e' (hmem e' he'),
      sectionAfter_entries fun e' he' => hown s hs e' (hmem e' (List.mem_append_left _ he'))]

/-! ## Values -/

/-- The first value given for a key that stands in a line which is not read as a header. -/
def firstStored (conf : List ConfSection) (sect key : List UInt8) : Option (List UInt8) :=
  ((entries conf).find? fun p =>
    (p.1 = sect ∧ p.2.key = key) ∧ '['.toUInt8 ∉ p.2.value).map fun p => p.2.value

/-- What one section's lines give, as long as none of them names another section. -/
private theorem firstValue_entries {name : List UInt8} {es : List ConfEntry}
    (h : ∀ e ∈ es, '['.toUInt8 ∈ e.value → e.line.tail.dropLast = name)
    (sect key : List UInt8) :
    firstValue name (es.map ConfEntry.line) sect key =
      ((es.map fun e => (name, e)).find? fun p =>
        (p.1 = sect ∧ p.2.key = key) ∧ '['.toUInt8 ∉ p.2.value).map fun p => p.2.value := by
  induction es with
  | nil => rfl
  | cons e es ih =>
    have hone : ∀ e' ∈ [e], '['.toUInt8 ∈ e'.value → e'.line.tail.dropLast = name := by
      intro e' he'
      rw [List.mem_singleton.mp he']
      exact h e List.mem_cons_self
    have hsect : sectionAfter name [e.line] = name := sectionAfter_entries hone
    rw [List.map_cons, List.map_cons, firstValue, hsect,
      ih fun e' he' => h e' (List.mem_cons_of_mem e he'), List.find?_cons, valueOf]
    by_cases hvalue : '['.toUInt8 ∈ e.value
    · rw [keyValue_of_isHeader ((isHeader_line_iff e).mpr hvalue)]
      simp [hvalue]
    · rw [keyValue_line hvalue, Option.bind_some]
      by_cases hgiven : name = sect ∧ e.key = key
      · simp [hgiven, hvalue]
      · simp [hgiven]

/-- What the whole file gives. -/
private theorem firstValue_lines {conf : List ConfSection} (h : NamesOwn conf)
    (current sect key : List UInt8) :
    firstValue current (lines conf) sect key = firstStored conf sect key := by
  induction conf generalizing current with
  | nil => rfl
  | cons s conf ih =>
    have hrest : NamesOwn conf := fun s' hs' => h s' (List.mem_cons_of_mem s hs')
    have hheader : valueOf current s.header sect key = none := by
      rw [valueOf, keyValue_of_isHeader (isHeader_header s), Option.bind_none]
    have hname : sectionAfter current [s.header] = s.name := by
      rw [sectionAfter_of_isHeader _ (isHeader_header s), tail_dropLast_header]
    have hsection : firstValue current s.lines sect key =
        firstValue s.name (s.entries.map ConfEntry.line) sect key := by
      rw [ConfSection.lines, firstValue, hheader, hname, Option.none_or]
    rw [lines, List.flatMap_cons, firstValue_append, hsection,
      firstValue_entries (h s List.mem_cons_self)]
    have hlines := ih hrest (sectionAfter current s.lines)
    rw [lines] at hlines
    rw [hlines, firstStored, firstStored, entries, entries, List.flatMap_cons, List.find?_append,
      Option.map_or]

/-- The first value given is the first one stored exactly if it has no `[`. -/
private theorem firstStored_eq_iff {conf : List ConfSection} {sect key value : List UInt8}
    (h : firstGiven conf sect key = some value) :
    firstStored conf sect key = some value ↔ '['.toUInt8 ∉ value := by
  unfold firstGiven at h
  unfold firstStored
  constructor
  · intro hstored
    obtain ⟨p, hfind, rfl⟩ := Option.map_eq_some_iff.mp hstored
    have hp := List.find?_some hfind
    rw [decide_eq_true_eq] at hp
    exact hp.2
  · intro hplain
    -- both searches stop at the same entry
    generalize entries conf = ps at h ⊢
    induction ps with
    | nil => exact nomatch h
    | cons p ps ih =>
      rw [List.find?_cons] at h ⊢
      by_cases hgiven : p.1 = sect ∧ p.2.key = key
      · simp only [hgiven, and_self, decide_true, Option.map_some, Option.some.injEq] at h
        subst h
        simp [hgiven, hplain]
      · simp only [hgiven, decide_false, false_and] at h ⊢
        exact ih h

/-- The text reads back exactly when the entries that count are plain. -/
theorem readsBack_iff_firstsPlain (prior : ConfIniFile) {conf : List ConfSection}
    (h : NamesOwn conf) : ReadsBack prior conf ↔ FirstsPlain conf := by
  let start : Reader := ⟨[], mapClear prior.mSectionKeyValue⟩
  have hopen : prior.openIniFile (some (text (lines conf))) =
      some (true, ⟨((lines conf).foldl Reader.after start).mSectionKeyValue⟩) := by
    show (readFile start _).map _ = _
    rw [readFile_text start fun line => line_ok]
    rfl
  -- what the map holds after the loop is what the lines give first
  have hlookup : ∀ sect key,
      lookup ((lines conf).foldl Reader.after start).mSectionKeyValue sect key =
        firstStored conf sect key := by
    intro sect key
    rw [(start.foldl_after (lines conf)).2, firstValue_lines h]
    rfl
  constructor
  · rintro ⟨ini, hini, hall⟩ sect key value hgiven
    rw [hopen] at hini
    cases hini
    have hget := hall sect key value [] hgiven
    rw [getSecValue_eq, hlookup, Prod.mk.injEq, Option.isSome_iff_exists] at hget
    obtain ⟨⟨found, hfound⟩, hvalue⟩ := hget
    rw [hfound, Option.getD_some] at hvalue
    exact (firstStored_eq_iff hgiven).mp (hvalue ▸ hfound)
  · intro hplain
    refine ⟨_, hopen, fun sect key value old hgiven => ?_⟩
    rw [getSecValue_eq, hlookup,
      (firstStored_eq_iff hgiven).mpr (hplain sect key value hgiven)]
    rfl

/-- A configuration is read back and no `key=value` line changes the section, exactly if the
    first value given for each key under its section has no `[`, and every other value with
    one is in a line that, without its first and last characters, is the name of its section. -/
theorem readsBack_iff (prior : ConfIniFile) (conf : List ConfSection) :
    (ReadsBack prior conf ∧ KeepsSection conf) ↔ (FirstsPlain conf ∧ NamesOwn conf) := by
  rw [keepsSection_iff]
  constructor
  · exact fun ⟨hreads, hown⟩ => ⟨(readsBack_iff_firstsPlain prior hown).mp hreads, hown⟩
  · exact fun ⟨hplain, hown⟩ => ⟨(readsBack_iff_firstsPlain prior hown).mpr hplain, hown⟩

/-- The section `s` with the line `k=a[1]`, which is read as the header of a section `=a[1`. -/
theorem value_taken_for_header :
    ¬ ∀ prior conf, ReadsBack prior conf ∧ KeepsSection conf := by
  intro hall
  let e : ConfEntry := ⟨[0x6b], [0x61, 0x5b, 0x31, 0x5d], by decide, by decide⟩
  let s : ConfSection := ⟨[0x73], by decide, [e]⟩
  have hown := (keepsSection_iff [s]).mp (hall ⟨fun _ => none⟩ [s]).2
  have hname := hown s List.mem_cons_self e List.mem_cons_self (by decide)
  exact absurd hname (by decide)

end Conf

end DvbHdhomerun
