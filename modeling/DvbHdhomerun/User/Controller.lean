import DvbHdhomerun.Kernel.Register
import DvbHdhomerun.User.Control

/-!
# Starting the daemon

`HdhomerunController::HdhomerunController` of userhdhomerun: the tuners of the discovered
devices are collected, sorted by name and registered with the kernel one after the other
(`Control::Ioctl`). What discovery, libhdhomerun and the ini file say are inputs.
-/

namespace DvbHdhomerun

/-- `struct hdhomerun_discover_device_t`. -/
structure DiscoverDevice where
  deviceId : UInt32
  ipAddr : UInt32
  tunerCount : UInt8
  deriving DecidableEq

/-- What libhdhomerun answers and what the ini file holds. A tuner is named by the id and the
    address of its device and its index. -/
structure LibHdhomerun where
  discoverValidateDeviceId : UInt32 → Bool
  deviceGetName : UInt32 → UInt32 → Nat → String
  deviceGetModelStr : UInt32 → UInt32 → Nat → Option String
  deviceSetTunerFilter : UInt32 → UInt32 → Nat → Int
  /-- the section of the ini file with a given name -/
  conf : String → TunerConf

namespace LibHdhomerun

/-- The tuner object for a tuner of a device. -/
def newTuner (lib : LibHdhomerun) (device : DiscoverDevice) (j : Nat) : Option HdhomerunTuner :=
  let name := lib.deviceGetName device.deviceId device.ipAddr j
  HdhomerunTuner.new name (lib.conf name) (lib.deviceGetModelStr device.deviceId device.ipAddr j)
    (lib.deviceSetTunerFilter device.deviceId device.ipAddr j)

/-- The tuners of one device that are not disabled; `none` when the daemon exits. -/
def deviceTuners (lib : LibHdhomerun) (device : DiscoverDevice) : Option (List HdhomerunTuner) :=
  if lib.discoverValidateDeviceId device.deviceId && device.tunerCount ≤ 10 then
    ((List.range device.tunerCount.toNat).mapM (lib.newTuner device)).map fun tuners =>
      tuners.filter fun t => !t.mIsDisabled
  else none

/-- The tuners of all devices found, `none` when the daemon exits. Discovery that fails
    (`none`) gives a negative number of devices, and no loop runs. -/
def findTuners (lib : LibHdhomerun) : Option (List DiscoverDevice) → Option (List HdhomerunTuner)
  | none => some []
  | some [] => none
  | some devices => (devices.mapM lib.deviceTuners).map List.flatten

end LibHdhomerun

namespace Control

/-- The struct that `Ioctl` hands to the kernel. -/
def registerTunerData (numOfTuners : Nat) (name : String) (type : TunerType) (useFullName : Bool) :
    RegisterTunerData where
  numOfDevices := UInt8.ofNat numOfTuners
  name := (Hdhomerun.charArray 12 (CString.ofString name)).set 11 0
  padding := .replicate 3 0
  id := 0
  type := type.code
  useFullName := useFullName

/-- `Ioctl`: the id the kernel gives, `none` when the request fails. -/
def ioctl (numOfTuners : Nat) (name : String) (type : TunerType) (useFullName : Bool)
    (r : KernelResults) (table : TunerTable) : Option (Option Int32 × TunerTable) :=
  let tunerData := registerTunerData numOfTuners name type useFullName
  -- a failed `open` gives -1, which is not tested for, and the `ioctl` on it fails
  if !r.openControl then some (none, table)
  else
    (table.controlIoctl tunerData r).map fun (ret, tunerData, table) =>
      (if ret ≠ 0 then none else some tunerData.id, table)

end Control

/-- `CompareHdhomerunTuner`. -/
def compareHdhomerunTuner (tuner1 tuner2 : HdhomerunTuner) : Bool := tuner1.mName < tuner2.mName

/-- A request for registration and its answer, with the kernel's table before and after. -/
structure Registration where
  name : String
  id : Option Int32
  before : TunerTable
  after : TunerTable

/-- `HdhomerunController`, and the requests for registration that its constructor made. -/
structure HdhomerunController where
  mTuners : List HdhomerunTuner
  registrations : List Registration

namespace HdhomerunController

/-- `SetDataDeviceName` and `SetKernelId` after a successful request. -/
def setRegistered (t : HdhomerunTuner) (kernelId : Int32) : HdhomerunTuner :=
  { t with
    mNameDataDevice := "/dev/hdhomerun_data" ++ toString kernelId.toInt
    mKernelId := kernelId }

/-- The registration loop over the sorted tuners; `results` are those of its requests in order. -/
def createDvbDevices (numOfTuners : Nat) :
    List HdhomerunTuner → (Nat → KernelResults) → TunerTable →
      Option (HdhomerunController × TunerTable)
  | [], _, table => some (⟨[], []⟩, table)
  | t :: ts, results, before =>
    match Control.ioctl numOfTuners t.mName t.mType t.mUseFullName (results 0) before with
    | none => none
    | some (id, after) =>
      let t' := match id with
        | some kernelId => setRegistered t kernelId
        | none => t
      (createDvbDevices numOfTuners ts (fun j => results (j + 1)) after).map fun (c, table) =>
        (⟨t' :: c.mTuners, ⟨t.mName, id, before, after⟩ :: c.registrations⟩, table)

/-- `std::sort` with `CompareHdhomerunTuner`. -/
def sortTuners (tuners : List HdhomerunTuner) : List HdhomerunTuner :=
  tuners.mergeSort fun t1 t2 => !compareHdhomerunTuner t2 t1

end HdhomerunController

/-- What one start of the daemon meets. -/
structure Session where
  lib : LibHdhomerun
  /-- `hdhomerun_discover_find_devices_custom_v2`, `none` when it fails -/
  discovered : Option (List DiscoverDevice)
  results : Nat → KernelResults

/-- The constructor: the controller, `none` when the daemon exits, and the kernel's table
    afterwards. -/
def HdhomerunController.new (s : Session) (table : TunerTable) :
    Option (Option HdhomerunController × TunerTable) :=
  match s.lib.findTuners s.discovered with
  | none => some (none, table)
  | some tuners =>
    (createDvbDevices tuners.length (sortTuners tuners) s.results table).map fun (c, table) =>
      (some c, table)

end DvbHdhomerun
