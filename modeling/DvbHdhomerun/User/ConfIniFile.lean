import DvbHdhomerun.ForStd.CString
import DvbHdhomerun.ForStd.Lines

/-!
# The daemon's configuration file

`ConfIniFile` of userhdhomerun. Strings are lists of bytes; a `std::map` is the function
that looks a key up.
-/

namespace DvbHdhomerun

/-- `mapKeyVal`. -/
abbrev MapKeyVal := List UInt8 → Option (List UInt8)

/-- `mapSecKeyVal`. -/
abbrev MapSecKeyVal := List UInt8 → Option MapKeyVal

/-- `map::insert`, which leaves an entry with the same key as it is. -/
def mapInsert {β : Type} (m : List UInt8 → Option β) (key : List UInt8) (value : β) :
    List UInt8 → Option β :=
  Function.update m key (some ((m key).getD value))

/-- `s.substr(pos, n)`, `none` when it throws. -/
def substr (s : List UInt8) (pos n : Nat) : Option (List UInt8) :=
  if s.length < pos then none else some ((s.drop pos).take n)

/-- `a - b` in the type `size_t`. -/
def sizeSub (a b : Nat) : Nat := if a < b then UInt64.size + a - b else a - b

/-- `strchr(s.c_str(), c) != NULL`. -/
def hasChar (s : List UInt8) (c : Char) : Bool := c.toUInt8 ∈ CString.chars s

/-- `map::clear`. -/
def mapClear {β : Type} (_ : List UInt8 → Option β) : List UInt8 → Option β := fun _ => none

/-- What `OpenIniFile` has read. -/
structure ConfIniFile where
  mSectionKeyValue : MapSecKeyVal

namespace ConfIniFile

/-- The variables of the loop in `OpenIniFile`. -/
structure Reader where
  /-- the variable `section` -/
  sect : List UInt8
  mSectionKeyValue : MapSecKeyVal

/-- `m_sectionKeyValue` with a section, if it is new, and a key in it, if that is new. -/
def insertKeyValue (m : MapSecKeyVal) (sect key value : List UInt8) : MapSecKeyVal :=
  let m : MapSecKeyVal := mapInsert m sect fun _ => none
  Function.update m sect ((m sect).map fun keyVal => mapInsert keyVal key value)

/-- The body of the loop, `none` when it throws. -/
def readLine (r : Reader) (line : List UInt8) : Option Reader :=
  if line = [] then some r
  else if hasChar line '#' then some r
  else if hasChar line '[' then
    (substr line 1 (sizeSub line.length 2)).map fun sect => { r with sect }
  else if hasChar line '=' then
    let (key, str) := (Lines.getline '='.toUInt8 line).getD ([], [])
    let (value, _) := (Lines.getline '\n'.toUInt8 str).getD ([], [])
    some { r with mSectionKeyValue := insertKeyValue r.mSectionKeyValue r.sect key value }
  else some r

/-- The loop over the rest of the file. -/
def readFile (r : Reader) (file : List UInt8) : Option Reader :=
  match _h : Lines.getline '\n'.toUInt8 file with
  | none => some r
  | some (line, rest) => (readLine r line).bind fun r => readFile r rest
termination_by file.length
decreasing_by exact Lines.length_of_getline _h

/-- No line is left. -/
theorem readFile_of_none {file : List UInt8} (r : Reader)
    (h : Lines.getline '\n'.toUInt8 file = none) : readFile r file = some r := by
  rw [readFile]
  split <;> rename_i heq
  · rfl
  · rw [h] at heq
    exact nomatch heq

/-- One line, and the rest of the file. -/
theorem readFile_of_some {file line rest : List UInt8} (r : Reader)
    (h : Lines.getline '\n'.toUInt8 file = some (line, rest)) :
    readFile r file = (readLine r line).bind fun r => readFile r rest := by
  rw [readFile]
  split <;> rename_i heq
  · rw [h] at heq
    exact nomatch heq
  · rw [h] at heq
    cases heq
    rfl

/-- `OpenIniFile`: the return value and the object, `none` when it throws. `file` is `none` when
    the file cannot be opened. -/
def openIniFile (conf : ConfIniFile) (file : Option (List UInt8)) : Option (Bool × ConfIniFile) :=
  let conf : ConfIniFile := ⟨mapClear conf.mSectionKeyValue⟩
  match file with
  | none => some (false, conf)
  | some file =>
    (readFile ⟨[], conf.mSectionKeyValue⟩ file).map fun r => (true, ⟨r.mSectionKeyValue⟩)

/-- The return value, and `_value` afterwards. -/
def getSecValue (conf : ConfIniFile) (sect key value : List UInt8) : Bool × List UInt8 :=
  match conf.mSectionKeyValue sect with
  | none => (false, value)
  | some keyVal =>
    match keyVal key with
    | none => (false, value)
    | some found => (true, found)

end ConfIniFile

end DvbHdhomerun
