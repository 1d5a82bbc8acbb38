import DvbHdhomerun.ForStd.Bytes
import DvbHdhomerun.ForStd.CString

/-!
# Registration of a tuner

The path of `HDHOMERUN_REGISTER_TUNER` through the kernel module:
`hdhomerun_control_ioctl` (dvb_hdhomerun_control.c), `dvb_hdhomerun_data_init` and
`dvb_hdhomerun_data_create_device` (dvb_hdhomerun_data.c),
`dvb_hdhomerun_register_hdhomerun` and `dvb_hdhomerun_register` (dvb_hdhomerun_init.c).
What the kernel functions called on the way return is an input (`KernelResults`). A
function that dereferences a NULL or an error pointer has no result.
-/

namespace DvbHdhomerun

/-- `ENOMEM`. -/
def ENOMEM : Int := 12

/-- `EFAULT`. -/
def EFAULT : Int := 14

/-- `ENODEV`. -/
def ENODEV : Int := 19

/-- `ENOTTY`. -/
def ENOTTY : Int := 25

/-- `HDHOMERUN_MAX_TUNERS`. -/
def hdhomerunMaxTuners : Nat := 8

/-- `struct hdhomerun_register_tuner_data`. -/
structure RegisterTunerData where
  numOfDevices : UInt8
  name : Vector UInt8 12
  /-- the bytes between `name` and `id` -/
  padding : Vector UInt8 3
  id : Int32
  type : Int32
  useFullName : Bool
  deriving DecidableEq

/-- The memory from `name` to the end of the struct. -/
def RegisterTunerData.memFromName (d : RegisterTunerData) : List UInt8 :=
  d.name.toList ++ d.padding.toList ++ Bytes.ofNat 4 d.id.toUInt32.toNat ++
    Bytes.ofNat 4 d.type.toUInt32.toNat ++ [if d.useFullName then 1 else 0]

/-- `dev_t`, without the encoding of `MKDEV`. -/
structure DevT where
  major : Nat
  minor : Nat
  deriving DecidableEq

/-- What the kernel functions called for one request return. An error pointer is the
    negative number in it. -/
structure KernelResults where
  /-- the daemon's `open` of the control device gives a descriptor -/
  openControl : Bool
  accessOk : Bool
  /-- the number of bytes not copied -/
  copyFromUser : Nat
  classCreate : Int
  allocChrdevRegion : Int
  /-- the first device number of the region -/
  chrdevRegion : DevT
  platformDeviceRegisterSimple : Int
  /-- `kzalloc` in `dvb_hdhomerun_probe` -/
  probeKzalloc : Bool
  dvbRegisterAdapter : Int
  dvbDmxInit : Int
  dvbDmxdevInit : Int
  addHwFrontend : Int
  addMemFrontend : Int
  connectFrontend : Int
  /-- `dvb_attach` gives a frontend -/
  dvbAttach : Bool
  dvbRegisterFrontend : Int
  /-- `kzalloc` in `dvb_hdhomerun_data_create_device` -/
  dataKzalloc : Bool
  getZeroedPage : Bool
  cdevAdd : Int
  deviceCreate : Int
  copyToUser : Nat

/-- What a registration acquires. -/
inductive Resource where
  | adapter
  | demux
  | dmxdev
  | hwFrontend
  | memFrontend
  | connection
  | frontend
  | frontendRegistration
  | dataState
  | writePage
  | cdev
  | deviceNode
  deriving DecidableEq

/-- What happens to a resource during a registration. -/
inductive ResourceEvent where
  | acquire (r : Resource)
  | release (r : Resource)
  deriving DecidableEq

/-! ## dvb_hdhomerun_data.c -/

/-- `struct hdhomerun_data_state`, without the pointers. -/
structure HdhomerunDataState where
  id : Int32
  dev : DevT
  deriving DecidableEq

/-- The variables of dvb_hdhomerun_data.c. -/
structure DataDevices where
  /-- `hdhomerun_major`, `none` for -1 -/
  hdhomerunMajor : Option DevT
  hdhomerunNumOfDevices : Nat
  /-- `hdhomerun_data_states` -/
  hdhomerunDataStates : Nat → Option HdhomerunDataState

namespace DataDevices

/-- The module has been loaded. -/
def loaded : DataDevices := ⟨none, 0, fun _ => none⟩

/-- `dvb_hdhomerun_data_init`: the character device region, allocated once. -/
def dataInit (s : DataDevices) (numOfDevices : Nat) (r : KernelResults) : Int × DataDevices :=
  match s.hdhomerunMajor with
  | some _ => (0, s)
  | none =>
    if r.classCreate < 0 then (r.classCreate, s)
    else if r.allocChrdevRegion < 0 then
      -- the count is kept although there is no region
      (r.allocChrdevRegion, { s with hdhomerunNumOfDevices := numOfDevices })
    else
      (r.allocChrdevRegion,
        { s with hdhomerunMajor := some r.chrdevRegion, hdhomerunNumOfDevices := numOfDevices })

/-- The return value, what was acquired, and the variables afterwards. -/
def dataCreateDevice (s : DataDevices) (id : Int32) (r : KernelResults) :
    Int × List ResourceEvent × DataDevices :=
  match s.hdhomerunMajor with
  | none => (-1, [], s)
  | some major =>
    if !r.dataKzalloc then (-ENOMEM, [], s)
    else if !r.getZeroedPage then (-ENOMEM, [.acquire .dataState], s)
    else
      let state : HdhomerunDataState := ⟨id, ⟨major.major, major.minor + id.toNatClampNeg⟩⟩
      -- a failed `cdev_add` is logged, and the device node is created all the same
      let cdev := if r.cdevAdd < 0 then [] else [ResourceEvent.acquire .cdev]
      let events := [.acquire .dataState, .acquire .writePage] ++ cdev
      if r.deviceCreate < 0 then (r.deviceCreate, events, s)
      else
        (r.cdevAdd, events ++ [.acquire .deviceNode],
          { s with hdhomerunDataStates :=
              Function.update s.hdhomerunDataStates id.toNatClampNeg (some state) })

end DataDevices

/-! ## dvb_hdhomerun_register -/

/-- `struct dvb_hdhomerun`, so far as registration sets and reads it. -/
structure Hdhomerun where
  /-- `plat_dev->id` -/
  platDevId : Int32
  tunerData : RegisterTunerData
  /-- `fe->ops.info.name`, `none` while `fe` is NULL -/
  fe : Option (Vector UInt8 128)

namespace Hdhomerun

/-- `ops.info.name` of the frontend that the tuner's type selects. -/
def attachName (type : Int32) : List UInt8 :=
  if type = 1 then CString.ofString "HDHomeRun DVB-C"
  else if type = 2 then CString.ofString "HDHomeRun DVB-T"
  else if type = 3 then CString.ofString "HDHomeRun ATSC"
  -- the default case
  else CString.ofString "HDHomeRun ATSC"

/-- An array of `char` that is initialised with a string. -/
def charArray (n : Nat) (s : List UInt8) : Vector UInt8 n :=
  ⟨(CString.strncpy s n).toArray, CString.length_strncpy s n⟩

/-- The name of the frontend when the tuner's full name is wanted. -/
def fullName (name : Vector UInt8 128) (tunerData : RegisterTunerData) : Vector UInt8 128 :=
  let len := CString.strlen name.toList
  let name := name.setIfInBounds len 32
  let suffix := CString.strncpy tunerData.memFromName (128 - len - 1)
  let name := Vector.ofFn fun i : Fin 128 =>
    if i.val < len + 1 then name[i] else suffix.getD (i.val - (len + 1)) 0
  -- the last byte is made NUL whatever has been copied
  name.set 127 0

/-- The labels of `dvb_hdhomerun_register`, each with what is released from there on. -/
def errDvbUnregisterAdapter : List ResourceEvent := [.release .adapter]

/-- `err_dvb_dmx_release`. -/
def errDvbDmxRelease : List ResourceEvent := .release .demux :: errDvbUnregisterAdapter

/-- `err_dvb_dmxdev_release`. -/
def errDvbDmxdevRelease : List ResourceEvent := .release .dmxdev :: errDvbDmxRelease

/-- `err_remove_hw_frontend`. -/
def errRemoveHwFrontend : List ResourceEvent := .release .hwFrontend :: errDvbDmxdevRelease

/-- `err_remove_mem_frontend`. -/
def errRemoveMemFrontend : List ResourceEvent := .release .memFrontend :: errRemoveHwFrontend

/-- `err_disconnect_frontend`. -/
def errDisconnectFrontend : List ResourceEvent := .release .connection :: errRemoveMemFrontend

/-- `err_release_frontend`. -/
def errReleaseFrontend : List ResourceEvent := .release .frontend :: errDisconnectFrontend

/-- What `dvb_hdhomerun_register` returns and leaves behind. -/
structure Registered where
  ret : Int
  events : List ResourceEvent
  hdhomerun : Hdhomerun
  data : DataDevices

/-- `dvb_hdhomerun_register`: one acquisition after the other, unwound when one fails. -/
def dvbHdhomerunRegister (h : Hdhomerun) (data : DataDevices) (r : KernelResults) : Registered :=
  let acquired (rs : List Resource) : List ResourceEvent := rs.map .acquire
  if r.dvbRegisterAdapter < 0 then ⟨r.dvbRegisterAdapter, [], h, data⟩
  else if r.dvbDmxInit < 0 then
    ⟨r.dvbDmxInit, acquired [.adapter] ++ errDvbUnregisterAdapter, h, data⟩
  else if r.dvbDmxdevInit < 0 then
    ⟨r.dvbDmxdevInit, acquired [.adapter, .demux] ++ errDvbDmxRelease, h, data⟩
  else if r.addHwFrontend < 0 then
    ⟨r.addHwFrontend, acquired [.adapter, .demux, .dmxdev] ++ errDvbDmxdevRelease, h, data⟩
  else if r.addMemFrontend < 0 then
    ⟨r.addMemFrontend,
      acquired [.adapter, .demux, .dmxdev, .hwFrontend] ++ errRemoveHwFrontend, h, data⟩
  else if r.connectFrontend < 0 then
    ⟨r.connectFrontend,
      acquired [.adapter, .demux, .dmxdev, .hwFrontend, .memFrontend] ++ errRemoveMemFrontend,
      h, data⟩
  else if !r.dvbAttach then
    ⟨-1,
      acquired [.adapter, .demux, .dmxdev, .hwFrontend, .memFrontend, .connection] ++
        errDisconnectFrontend, { h with fe := none }, data⟩
  else
    let name := charArray 128 (attachName h.tunerData.type)
    let name := if h.tunerData.useFullName then fullName name h.tunerData else name
    let h := { h with fe := some name }
    let events := acquired
      [.adapter, .demux, .dmxdev, .hwFrontend, .memFrontend, .connection, .frontend]
    if r.dvbRegisterFrontend < 0 then
      ⟨r.dvbRegisterFrontend, events ++ errReleaseFrontend, h, data⟩
    else
      -- whatever this returns is returned, and nothing of the above is released
      let (ret, dataEvents, data) := data.dataCreateDevice h.platDevId r
      ⟨ret, events ++ [.acquire .frontendRegistration] ++ dataEvents, h, data⟩

end Hdhomerun

/-! ## dvb_hdhomerun_register_hdhomerun -/

/-- An entry of `platform_device`: a device and its driver data, NULL after a failed
    registration. -/
structure PlatformDevice where
  id : Int32
  drvdata : Option Hdhomerun

/-- The variables of dvb_hdhomerun_init.c and dvb_hdhomerun_data.c.
    `hdhomerun_num_of_devices` is the number of entries. -/
structure TunerTable where
  platformDevice : List PlatformDevice
  bound : platformDevice.length ≤ hdhomerunMaxTuners
  data : DataDevices

namespace TunerTable

/-- The module has been loaded. -/
def loaded : TunerTable := ⟨[], Nat.zero_le _, .loaded⟩

/-- `hdhomerun_num_of_devices`. -/
def numOfDevices (t : TunerTable) : Nat := t.platformDevice.length

/-- The loop that looks for the tuner: its id if it is there, and no result when the driver
    data of an entry on the way is NULL. -/
def findTuner (tunerData : RegisterTunerData) : List PlatformDevice → Option (Option Int32)
  | [] => some none
  | dev :: devs =>
    match dev.drvdata with
    | none => none
    | some hdhomerun =>
      let tmp := hdhomerun.tunerData
      if CString.strncmp tunerData.name.toList tmp.name.toList 10 = 0 then some (some tmp.id)
      else findTuner tunerData devs

/-- The return value, `*tuner_data` and the variables afterwards. -/
def registerHdhomerun (t : TunerTable) (tunerData : RegisterTunerData) (r : KernelResults) :
    Option (Int × RegisterTunerData × TunerTable) :=
  match findTuner tunerData t.platformDevice with
  | none => none
  | some (some id) => some (0, { tunerData with id }, t)
  | some none =>
    if h : t.numOfDevices < hdhomerunMaxTuners then
      -- `IS_ERR(platform_device)` is about the array, which is not an error pointer: an error
      -- pointer in the new entry, or the NULL that a failed probe leaves, is dereferenced
      if r.platformDeviceRegisterSimple < 0 then none
      else if !r.probeKzalloc then none
      else
        let id := Int32.ofNat t.numOfDevices
        let tunerData := { tunerData with id }
        let reg := Hdhomerun.dvbHdhomerunRegister ⟨id, tunerData, none⟩ t.data r
        let drvdata := if reg.ret < 0 then none else some reg.hdhomerun
        -- the entry counts, and the request succeeds, also when the registration failed
        some (0, tunerData,
          { platformDevice := t.platformDevice ++ [⟨id, drvdata⟩]
            bound := by
              rw [List.length_append, List.length_singleton]
              exact h
            data := reg.data })
    else some (-ENODEV, tunerData, t)

/-- `hdhomerun_control_ioctl` for `HDHOMERUN_REGISTER_TUNER`: the return value, the caller's
    struct and the variables afterwards. -/
def controlIoctl (t : TunerTable) (arg : RegisterTunerData) (r : KernelResults) :
    Option (Int × RegisterTunerData × TunerTable) :=
  if !r.accessOk then some (-EFAULT, arg, t)
  else if r.copyFromUser ≠ 0 then
    -- there is no `break` on this path, and the default case follows
    some (-ENOTTY, arg, t)
  else
    let (retval, data) := t.data.dataInit arg.numOfDevices.toNat r
    let t := { t with data }
    if retval ≠ 0 then some (-EFAULT, arg, t)
    else
      match t.registerHdhomerun arg r with
      | none => none
      | some (retval, tunerData, t) =>
        if retval ≠ 0 then some (-EFAULT, arg, t)
        else some (r.copyToUser, if r.copyToUser = 0 then tunerData else arg, t)

end TunerTable

end DvbHdhomerun
