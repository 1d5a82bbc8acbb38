import DvbHdhomerun.Kernel.Register

/-!
# What a registration reads and writes of the names

The same path as in `Register`, by its accesses to two arrays of `char`: the `name` of
`struct hdhomerun_register_tuner_data` (of the request, of its copy in the driver data, and of
the entries it is compared with) and `ops.info.name` of the frontend. What `printk` reads of
a name is not among them.
-/

namespace DvbHdhomerun

/-- An access, by the index from the start of the array. An index behind the end is that of a
    byte which follows the array in memory. -/
inductive NameAccess where
  | readName (i : Nat)
  | readInfoName (i : Nat)
  | writeInfoName (i : Nat)
  deriving DecidableEq

namespace Hdhomerun

/-- `fullName` with its accesses: `strlen`, the space, `strncpy` and the final NUL. -/
def fullNameTraced (name : Vector UInt8 128) (tunerData : RegisterTunerData) :
    List NameAccess × Vector UInt8 128 :=
  let (len, read) := CString.strlenLoop 0 name.toList
  let name := name.setIfInBounds len 32
  let (suffix, copied) := CString.strncpyLoop 0 tunerData.memFromName (128 - len - 1)
  let name := Vector.ofFn fun i : Fin 128 =>
    if i.val < len + 1 then name.get i else suffix.getD (i.val - (len + 1)) 0
  (read.map .readInfoName ++ [.writeInfoName len] ++
      (copied.zipIdx.flatMap fun p => [.readName p.1, .writeInfoName (len + 1 + p.2)]) ++
      [.writeInfoName 127],
    name.setIfInBounds 127 0)

/-- The trace does not change what is computed. -/
theorem fullNameTraced_snd (name : Vector UInt8 128) (tunerData : RegisterTunerData) :
    (fullNameTraced name tunerData).2 = fullName name tunerData := by
  unfold fullNameTraced fullName
  rw [CString.strlenLoop_eq, Nat.zero_add]
  simp only [CString.strncpyLoop_fst]
  rw [← Vector.toList_inj, Vector.toList_set, Vector.toList_setIfInBounds]
  rfl

/-- `dvb_hdhomerun_register` ends before the frontend is there. -/
def EndsBeforeName (r : KernelResults) : Prop :=
  r.dvbRegisterAdapter < 0 ∨ r.dvbDmxInit < 0 ∨ r.dvbDmxdevInit < 0 ∨ r.addHwFrontend < 0 ∨
    r.addMemFrontend < 0 ∨ r.connectFrontend < 0 ∨ r.dvbAttach = false

instance (r : KernelResults) : Decidable (EndsBeforeName r) :=
  inferInstanceAs (Decidable (_ ∨ _ ∨ _ ∨ _ ∨ _ ∨ _ ∨ _))

/-- The accesses to the name in `dvb_hdhomerun_register`. -/
def registerAccesses (tunerData : RegisterTunerData) (r : KernelResults) : List NameAccess :=
  if EndsBeforeName r then []
  else if tunerData.useFullName then
    (fullNameTraced (charArray 128 (attachName tunerData.type)) tunerData).1
  else []

end Hdhomerun

namespace TunerTable

/-- `findTuner` with its accesses; `strncmp` reads both names at each of its indices. -/
def findTunerTraced (tunerData : RegisterTunerData) :
    List PlatformDevice → List NameAccess × Option (Option Int32)
  | [] => ([], some none)
  | dev :: devs =>
    match dev.drvdata with
    | none => ([], none)
    | some hdhomerun =>
      let tmp := hdhomerun.tunerData
      let (cmp, read) := CString.strncmpLoop 0 tunerData.name.toList tmp.name.toList 10
      if cmp = 0 then (read.map .readName, some (some tmp.id))
      else
        let (accesses, found) := findTunerTraced tunerData devs
        (read.map .readName ++ accesses, found)

/-- The trace does not change what is found. -/
theorem findTunerTraced_snd (tunerData : RegisterTunerData) (devs : List PlatformDevice) :
    (findTunerTraced tunerData devs).2 = findTuner tunerData devs := by
  induction devs with
  | nil => rfl
  | cons dev devs ih =>
    cases hdrvdata : dev.drvdata with
    | none => simp only [findTunerTraced, findTuner, hdrvdata]
    | some hdhomerun =>
      simp only [findTunerTraced, findTuner, hdrvdata, CString.strncmpLoop_fst]
      split
      · rfl
      · exact ih

/-- The accesses to names in `dvb_hdhomerun_register_hdhomerun`. -/
def registerHdhomerunAccesses (t : TunerTable) (tunerData : RegisterTunerData)
    (r : KernelResults) : List NameAccess :=
  let (accesses, found) := findTunerTraced tunerData t.platformDevice
  match found with
  | some none =>
    if t.numOfDevices < hdhomerunMaxTuners then
      if r.platformDeviceRegisterSimple < 0 then accesses
      else if !r.probeKzalloc then accesses
      else
        accesses ++
          Hdhomerun.registerAccesses { tunerData with id := Int32.ofNat t.numOfDevices } r
    else accesses
  | _ => accesses

/-- The accesses to names in the `ioctl`. -/
def controlIoctlAccesses (t : TunerTable) (arg : RegisterTunerData) (r : KernelResults) :
    List NameAccess :=
  if !r.accessOk then []
  else if r.copyFromUser ≠ 0 then []
  else if (t.data.dataInit arg.numOfDevices.toNat r).1 ≠ 0 then []
  else t.registerHdhomerunAccesses arg r

end TunerTable

end DvbHdhomerun
