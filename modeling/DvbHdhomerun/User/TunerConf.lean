import DvbHdhomerun.User.ConfIniFile
import DvbHdhomerun.User.Controller

/-!
# The configuration of the tuners

How the constructor of `HdhomerunTuner` reads the ini file. Every tuner opens it anew, and a
file that cannot be opened leaves the defaults (`readConf`). A start of the daemon is a
`Session` in which all tuners have read the same file (`DaemonStart`).
-/

namespace DvbHdhomerun

/-- The characters of a `std::string`, one for each byte. -/
def stringOfBytes (bytes : List UInt8) : String := .ofList (bytes.map fun b => Char.ofNat b.toNat)

namespace HdhomerunTuner

/-- `conf.GetSecValue(m_name, key, ..)`: the value, if there is one. -/
def secValue (conf : ConfIniFile) (name key : String) : Option String :=
  let (found, value) := conf.getSecValue (CString.ofString name) (CString.ofString key) []
  if found then some (stringOfBytes value) else none

/-- What the constructor finds in the ini file for the tuner with this name, `none` when
    `OpenIniFile` throws. `file` is `none` when the file cannot be opened. -/
def readConf (file : Option (List UInt8)) (name : String) : Option TunerConf :=
  (ConfIniFile.openIniFile ⟨fun _ => none⟩ file).map fun (opened, conf) =>
    if opened then
      { tunerType := secValue conf name "tuner_type"
        useFullName := secValue conf name "use_full_name"
        disable := secValue conf name "disable" }
    else ⟨none, none, none⟩

end HdhomerunTuner

/-! ## No file throws -/

namespace ConfIniFile

/-- `substr(1, ..)` throws on an empty line only, and that is passed over. -/
theorem readLine_ne_none (r : Reader) (line : List UInt8) : readLine r line ≠ none := by
  unfold readLine
  split
  · simp
  · rename_i hline
    split
    · simp
    · split
      · have hlength : ¬ line.length < 1 := by
          have hpos := List.length_pos_iff.mpr hline
          omega
        simp [substr, hlength]
      · split <;> simp

theorem readFile_ne_none (r : Reader) (file : List UInt8) : readFile r file ≠ none := by
  induction file using Lines.split.induct '\n'.toUInt8 generalizing r with
  | case1 file hget => simp [readFile_of_none r hget]
  | case2 file line rest hget ih =>
    obtain ⟨r', hline⟩ := Option.ne_none_iff_exists'.mp (readLine_ne_none r line)
    rw [readFile_of_some r hget, hline]
    exact ih r'

end ConfIniFile

/-- Whatever the file holds, reading it ends without an exception. -/
theorem HdhomerunTuner.readConf_isSome (file : Option (List UInt8)) (name : String) :
    (readConf file name).isSome := by
  cases file with
  | none => rfl
  | some file =>
    have hread := ConfIniFile.readFile_ne_none ⟨[], mapClear fun _ => none⟩ file
    simpa [readConf, ConfIniFile.openIniFile, Option.isSome_iff_ne_none] using hread

/-- A start of the daemon, in which the tuners have read this ini file. -/
structure DaemonStart where
  iniFile : Option (List UInt8)
  session : Session
  conf_eq : ∀ name, HdhomerunTuner.readConf iniFile name = some (session.lib.conf name)

/-- What the daemon meets when the ini file is this one. -/
def DaemonStart.ofFile (iniFile : Option (List UInt8)) (s : Session) : DaemonStart where
  iniFile := iniFile
  session :=
    { s with
      lib := { s.lib with
        conf := fun name =>
          (HdhomerunTuner.readConf iniFile name).get (HdhomerunTuner.readConf_isSome _ _) } }
  conf_eq := fun _ => (Option.some_get _).symm

end DvbHdhomerun
