import DvbHdhomerun.Kernel.Register

/-!
# What one request for registration does

`controlIoctl_outcome` lists the ways a request can end, with the table it leaves and all that
was tested on the way. Then the function that sets up a tuner: it succeeds exactly when every
function it calls does (`dvbHdhomerunRegister_succeeds`, `dvbHdhomerunRegister_fails`).
-/

namespace DvbHdhomerun

namespace TunerTable

/-- The table after the data devices have been set up for a request. -/
def inited (t : TunerTable) (arg : RegisterTunerData) (r : KernelResults) : TunerTable :=
  { t with data := (t.data.dataInit arg.numOfDevices.toNat r).2 }

/-- What `dvb_hdhomerun_register` is called with for a new tuner, and what it does. -/
def newRegistration (t : TunerTable) (arg : RegisterTunerData) (r : KernelResults) :
    Hdhomerun.Registered :=
  Hdhomerun.dvbHdhomerunRegister
    ⟨Int32.ofNat t.numOfDevices, { arg with id := Int32.ofNat t.numOfDevices }, none⟩
    (t.inited arg r).data r

/-- The entry of a new tuner; without driver data after a failure. -/
def newEntry (t : TunerTable) (arg : RegisterTunerData) (r : KernelResults) : PlatformDevice where
  id := Int32.ofNat t.numOfDevices
  drvdata :=
    if (t.newRegistration arg r).ret < 0 then none else some (t.newRegistration arg r).hdhomerun

/-- The request comes as far as `dvb_hdhomerun_register_hdhomerun`. -/
structure Passes (t : TunerTable) (arg : RegisterTunerData) (r : KernelResults) : Prop where
  accessOk : r.accessOk = true
  copyFromUser : r.copyFromUser = 0
  dataInit : (t.data.dataInit arg.numOfDevices.toNat r).1 = 0

/-- The request comes as far as `dvb_hdhomerun_register`. -/
structure Registers (t : TunerTable) (arg : RegisterTunerData) (r : KernelResults) : Prop
    extends Passes t arg r where
  /-- no entry has the name -/
  unknown : findTuner arg t.platformDevice = some none
  room : t.numOfDevices < hdhomerunMaxTuners
  platformDeviceRegisterSimple : 0 ≤ r.platformDeviceRegisterSimple
  probeKzalloc : r.probeKzalloc = true

/-- The ways a request can end. -/
inductive Outcome (t : TunerTable) (arg : RegisterTunerData) (r : KernelResults) :
    Option (Int × RegisterTunerData × TunerTable) → Prop
  /-- an error before the table is looked at -/
  | refused {ret : Int} {t' : TunerTable} (hpass : ¬ Passes t arg r) (hret : ret ≠ 0)
    (htable : t' = t ∨ t' = t.inited arg r) : Outcome t arg r (some (ret, arg, t'))
  /-- no entry has the name, and none is free -/
  | full (hlookup : findTuner arg t.platformDevice = some none)
    (hroom : ¬ t.numOfDevices < hdhomerunMaxTuners) :
    Outcome t arg r (some (-EFAULT, arg, t.inited arg r))
  /-- the NULL driver data of an entry has been dereferenced -/
  | dead (hlookup : findTuner arg t.platformDevice = none) : Outcome t arg r none
  /-- an error pointer or the NULL driver data of the new device has been dereferenced -/
  | fault (hdevice : ¬ (0 ≤ r.platformDeviceRegisterSimple ∧ r.probeKzalloc = true)) :
    Outcome t arg r none
  /-- the name is that of an entry -/
  | known {id : Int32} {arg' : RegisterTunerData}
    (hlookup : findTuner arg t.platformDevice = some (some id))
    (harg : r.copyToUser = 0 → arg' = { arg with id }) :
    Outcome t arg r (some (r.copyToUser, arg', t.inited arg r))
  /-- a new entry -/
  | new {t' : TunerTable} {arg' : RegisterTunerData} (hreg : t.Registers arg r)
    (hentries : t'.platformDevice = t.platformDevice ++ [t.newEntry arg r])
    (hdata : t'.data = (t.newRegistration arg r).data)
    (harg : r.copyToUser = 0 → arg' = { arg with id := Int32.ofNat t.numOfDevices }) :
    Outcome t arg r (some (r.copyToUser, arg', t'))

/-- A request that does not pass the checks before `dvb_hdhomerun_register_hdhomerun`. -/
private theorem controlIoctl_of_refused {t : TunerTable} {arg : RegisterTunerData}
    {r : KernelResults} (h : ¬ t.Passes arg r) : Outcome t arg r (t.controlIoctl arg r) := by
  unfold controlIoctl
  split
  · exact .refused h (by decide) (.inl rfl)
  · rename_i haccess
    split
    · exact .refused h (by decide) (.inl rfl)
    · rename_i hcopy
      have hinit : (t.data.dataInit arg.numOfDevices.toNat r).1 ≠ 0 :=
        fun h0 => h ⟨by simpa using haccess, not_not.mp hcopy, h0⟩
      simp only [if_pos hinit]
      exact .refused h (by decide) (.inr rfl)

/-- A request that passes the checks ends as `dvb_hdhomerun_register_hdhomerun` does. -/
private theorem controlIoctl_of_none {t : TunerTable} {arg : RegisterTunerData}
    {r : KernelResults} (hpass : t.Passes arg r)
    (h : (t.inited arg r).registerHdhomerun arg r = none) : t.controlIoctl arg r = none := by
  have h' : TunerTable.registerHdhomerun
      { t with data := (t.data.dataInit arg.numOfDevices.toNat r).2 } arg r = none := h
  unfold controlIoctl
  simp only [hpass.accessOk, Bool.not_true, Bool.false_eq_true, if_false, hpass.copyFromUser,
    ne_eq, not_true_eq_false, hpass.dataInit, h']

/-- Behind the tests the request is `register_hdhomerun` and the copy back. -/
private theorem controlIoctl_of_some {t t' : TunerTable} {arg tunerData : RegisterTunerData}
    {r : KernelResults} {retval : Int} (hpass : t.Passes arg r)
    (h : (t.inited arg r).registerHdhomerun arg r = some (retval, tunerData, t')) :
    t.controlIoctl arg r =
      if retval ≠ 0 then some (-EFAULT, arg, t')
      else some (r.copyToUser, if r.copyToUser = 0 then tunerData else arg, t') := by
  have h' : TunerTable.registerHdhomerun
      { t with data := (t.data.dataInit arg.numOfDevices.toNat r).2 } arg r =
        some (retval, tunerData, t') := h
  unfold controlIoctl
  simp only [hpass.accessOk, Bool.not_true, Bool.false_eq_true, if_false, hpass.copyFromUser,
    ne_eq, not_true_eq_false, hpass.dataInit, h']

/-- Every request ends in one of these ways. -/
theorem controlIoctl_outcome (t : TunerTable) (arg : RegisterTunerData) (r : KernelResults) :
    Outcome t arg r (t.controlIoctl arg r) := by
  by_cases hpass : t.Passes arg r
  case neg => exact controlIoctl_of_refused hpass
  cases hfind : findTuner arg t.platformDevice with
  | none =>
    have hreg : (t.inited arg r).registerHdhomerun arg r = none := by
      rw [registerHdhomerun, show findTuner arg (t.inited arg r).platformDevice = none from hfind]
    rw [controlIoctl_of_none hpass hreg]
    exact .dead hfind
  | some found =>
    have hfind' : findTuner arg (t.inited arg r).platformDevice = some found := hfind
    cases found with
    | some id =>
      have hreg : (t.inited arg r).registerHdhomerun arg r =
          some (0, { arg with id }, t.inited arg r) := by
        rw [registerHdhomerun, hfind']
      rw [controlIoctl_of_some hpass hreg]
      exact .known hfind fun h0 => if_pos h0
    | none =>
      by_cases hroom : t.numOfDevices < hdhomerunMaxTuners
      case neg =>
        have hroom' : ¬ (t.inited arg r).numOfDevices < hdhomerunMaxTuners := hroom
        have hreg : (t.inited arg r).registerHdhomerun arg r =
            some (-ENODEV, arg, t.inited arg r) := by
          rw [registerHdhomerun, hfind']
          exact dif_neg hroom'
        rw [controlIoctl_of_some hpass hreg]
        exact .full hfind hroom
      have hroom' : (t.inited arg r).numOfDevices < hdhomerunMaxTuners := hroom
      by_cases hplatform : r.platformDeviceRegisterSimple < 0
      · -- the error pointer in the new entry is dereferenced
        have hreg : (t.inited arg r).registerHdhomerun arg r = none := by
          rw [registerHdhomerun, hfind']
          simp only [dif_pos hroom', if_pos hplatform]
        rw [controlIoctl_of_none hpass hreg]
        exact .fault fun h => absurd h.1 (Int.not_le.mpr hplatform)
      · cases hprobe : r.probeKzalloc with
        | false =>
          have hreg : (t.inited arg r).registerHdhomerun arg r = none := by
            rw [registerHdhomerun, hfind']
            simp only [dif_pos hroom', if_neg hplatform, hprobe, Bool.not_false, if_true]
          rw [controlIoctl_of_none hpass hreg]
          exact .fault fun h => Bool.false_ne_true (hprobe.symm.trans h.2)
        | true =>
          have hnew : t.Registers arg r :=
            ⟨hpass, hfind, hroom, Int.not_lt.mp hplatform, hprobe⟩
          obtain ⟨t', hreg, hentries, hdata⟩ : ∃ t', (t.inited arg r).registerHdhomerun arg r =
              some (0, { arg with id := Int32.ofNat t.numOfDevices }, t') ∧
              t'.platformDevice = t.platformDevice ++ [t.newEntry arg r] ∧
              t'.data = (t.newRegistration arg r).data := by
            rw [registerHdhomerun, hfind']
            simp only [dif_pos hroom', if_neg hplatform, hprobe, Bool.not_true,
              Bool.false_eq_true, if_false]
            exact ⟨_, rfl, rfl, rfl⟩
          rw [controlIoctl_of_some hpass hreg]
          exact .new hnew hentries hdata fun h0 => if_pos h0

end TunerTable

/-! ## Setting up a tuner -/

/-- Every function that `dvb_hdhomerun_register` and `dvb_hdhomerun_data_create_device` call
    succeeds. -/
structure KernelResults.RegisterSucceeds (r : KernelResults) : Prop where
  dvbRegisterAdapter : 0 ≤ r.dvbRegisterAdapter
  dvbDmxInit : 0 ≤ r.dvbDmxInit
  dvbDmxdevInit : 0 ≤ r.dvbDmxdevInit
  addHwFrontend : 0 ≤ r.addHwFrontend
  addMemFrontend : 0 ≤ r.addMemFrontend
  connectFrontend : 0 ≤ r.connectFrontend
  dvbAttach : r.dvbAttach = true
  dvbRegisterFrontend : 0 ≤ r.dvbRegisterFrontend
  dataKzalloc : r.dataKzalloc = true
  getZeroedPage : r.getZeroedPage = true
  cdevAdd : 0 ≤ r.cdevAdd
  deviceCreate : 0 ≤ r.deviceCreate

/-- Nothing fails; the device region starts at 250:0. -/
def KernelResults.allSucceed : KernelResults where
  openControl := true
  accessOk := true
  copyFromUser := 0
  classCreate := 0
  allocChrdevRegion := 0
  chrdevRegion := ⟨250, 0⟩
  platformDeviceRegisterSimple := 0
  probeKzalloc := true
  dvbRegisterAdapter := 0
  dvbDmxInit := 0
  dvbDmxdevInit := 0
  addHwFrontend := 0
  addMemFrontend := 0
  connectFrontend := 0
  dvbAttach := true
  dvbRegisterFrontend := 0
  dataKzalloc := true
  getZeroedPage := true
  cdevAdd := 0
  deviceCreate := 0
  copyToUser := 0

namespace DataDevices

/-- Taking the device numbers sets up no data device. -/
theorem dataInit_hdhomerunDataStates (s : DataDevices) (n : Nat) (r : KernelResults) :
    (s.dataInit n r).2.hdhomerunDataStates = s.hdhomerunDataStates := by
  unfold dataInit
  split
  · rfl
  · split
    · rfl
    · split <;> rfl

/-- There is a device region when the setup reports success. -/
theorem dataInit_hdhomerunMajor {s : DataDevices} {n : Nat} {r : KernelResults}
    (h : (s.dataInit n r).1 = 0) : (s.dataInit n r).2.hdhomerunMajor ≠ none := by
  unfold dataInit at h ⊢
  split
  · rename_i major hmajor
    rw [hmajor]
    exact Option.some_ne_none major
  · rename_i hmajor
    simp only [hmajor] at h
    split at h
    · omega
    · split at h
      · omega
      · simp only [*, if_false]
        exact Option.some_ne_none _

/-- The state of the data device with a given id. -/
def newState (major : DevT) (id : Int32) : HdhomerunDataState :=
  ⟨id, ⟨major.major, major.minor + id.toNatClampNeg⟩⟩

/-- A data device that is set up whole. -/
theorem dataCreateDevice_succeeds {s : DataDevices} {id : Int32} {r : KernelResults}
    {major : DevT} (hmajor : s.hdhomerunMajor = some major) (h : r.RegisterSucceeds) :
    s.dataCreateDevice id r =
      (r.cdevAdd, [.acquire .dataState, .acquire .writePage, .acquire .cdev, .acquire .deviceNode],
        { s with hdhomerunDataStates :=
            Function.update s.hdhomerunDataStates id.toNatClampNeg (some (newState major id)) }) := by
  simp [dataCreateDevice, newState, hmajor, h.dataKzalloc, h.getZeroedPage,
    Int.not_lt.mpr h.cdevAdd, Int.not_lt.mpr h.deviceCreate]

/-- A data device is refused when one of its calls fails. -/
theorem dataCreateDevice_fails {s : DataDevices} {id : Int32} {r : KernelResults}
    (h : ¬ (r.dataKzalloc = true ∧ r.getZeroedPage = true ∧ 0 ≤ r.cdevAdd ∧
      0 ≤ r.deviceCreate)) :
    (s.dataCreateDevice id r).1 < 0 := by
  unfold dataCreateDevice
  split
  · exact Int.negSucc_lt_zero 0
  · split
    · exact Int.negSucc_lt_zero 11
    · rename_i hkzalloc
      split
      · exact Int.negSucc_lt_zero 11
      · rename_i hpage
        simp only
        split
        · assumption
        · rename_i hcreate
          have hcdev : ¬ 0 ≤ r.cdevAdd := by
            intro hcdev
            exact h ⟨by simpa using hkzalloc, by simpa using hpage, hcdev, Int.not_lt.mp hcreate⟩
          exact Int.not_le.mp hcdev

end DataDevices

namespace Hdhomerun

/-- The name of the frontend of a tuner. -/
def frontendName (tunerData : RegisterTunerData) : Vector UInt8 128 :=
  let name := charArray 128 (attachName tunerData.type)
  if tunerData.useFullName then fullName name tunerData else name

/-- What a successful registration acquires. -/
def registrationEvents : List ResourceEvent :=
  [Resource.adapter, .demux, .dmxdev, .hwFrontend, .memFrontend, .connection, .frontend,
    .frontendRegistration, .dataState, .writePage, .cdev, .deviceNode].map .acquire

/-- A successful registration keeps all it has acquired. -/
theorem dvbHdhomerunRegister_succeeds {h : Hdhomerun} {data : DataDevices} {r : KernelResults}
    {major : DevT} (hmajor : data.hdhomerunMajor = some major) (hr : r.RegisterSucceeds) :
    h.dvbHdhomerunRegister data r =
      ⟨r.cdevAdd, registrationEvents,
        { h with fe := some (frontendName h.tunerData) },
        { data with
          hdhomerunDataStates := Function.update data.hdhomerunDataStates
            h.platDevId.toNatClampNeg (some (DataDevices.newState major h.platDevId)) }⟩ := by
  have hadapter := Int.not_lt.mpr hr.dvbRegisterAdapter
  have hdmx := Int.not_lt.mpr hr.dvbDmxInit
  have hdmxdev := Int.not_lt.mpr hr.dvbDmxdevInit
  have hhw := Int.not_lt.mpr hr.addHwFrontend
  have hmem := Int.not_lt.mpr hr.addMemFrontend
  have hconnect := Int.not_lt.mpr hr.connectFrontend
  have hfrontend := Int.not_lt.mpr hr.dvbRegisterFrontend
  simp only [dvbHdhomerunRegister, hadapter, hdmx, hdmxdev, hhw, hmem, hconnect, hfrontend,
    hr.dvbAttach, Bool.not_true, Bool.false_eq_true, if_false,
    DataDevices.dataCreateDevice_succeeds hmajor hr]
  rfl

/-- A test of a result: a negative one is returned. -/
private theorem ret_neg_of_test {ret : Int} {events : List ResourceEvent} {h : Hdhomerun}
    {data : DataDevices} {rest : Registered} (hrest : 0 ≤ ret → rest.ret < 0) :
    (if ret < 0 then ⟨ret, events, h, data⟩ else rest).ret < 0 := by
  split
  · assumption
  · exact hrest (Int.not_lt.mp ‹_›)

/-- When one of the functions fails, so does the registration. -/
theorem dvbHdhomerunRegister_fails {h : Hdhomerun} {data : DataDevices} {r : KernelResults}
    (hr : ¬ r.RegisterSucceeds) : (h.dvbHdhomerunRegister data r).ret < 0 := by
  unfold dvbHdhomerunRegister
  apply ret_neg_of_test
  intro hadapter
  apply ret_neg_of_test
  intro hdmx
  apply ret_neg_of_test
  intro hdmxdev
  apply ret_neg_of_test
  intro hhw
  apply ret_neg_of_test
  intro hmem
  apply ret_neg_of_test
  intro hconnect
  cases hattach : r.dvbAttach with
  | false => exact Int.negSucc_lt_zero 0
  | true =>
    apply ret_neg_of_test
    intro hfrontend
    -- what is left is the data device
    apply DataDevices.dataCreateDevice_fails
    rintro ⟨hkzalloc, hpage, hcdev, hcreate⟩
    exact hr ⟨hadapter, hdmx, hdmxdev, hhw, hmem, hconnect, hattach, hfrontend, hkzalloc, hpage,
      hcdev, hcreate⟩

end Hdhomerun

namespace TunerTable

/-- The index of an entry survives the conversions. -/
theorem toNatClampNeg_ofNat {n : Nat} (h : n < hdhomerunMaxTuners) :
    (Int32.ofNat n).toNatClampNeg = n := by
  have hall : ∀ n < 8, (Int32.ofNat n).toNatClampNeg = n := by decide
  exact hall n h

/-- The driver data of a tuner that was set up under an index. -/
def newHdhomerun (i : Nat) (arg : RegisterTunerData) : Hdhomerun :=
  let tunerData := { arg with id := Int32.ofNat i }
  ⟨Int32.ofNat i, tunerData, some (Hdhomerun.frontendName tunerData)⟩

/-- What the registration of a new tuner leaves behind. -/
structure SetUp (t : TunerTable) (arg : RegisterTunerData) (r : KernelResults) (major : DevT) :
    Prop where
  region : (t.inited arg r).data.hdhomerunMajor = some major
  entry : t.newEntry arg r = ⟨Int32.ofNat t.numOfDevices, some (newHdhomerun t.numOfDevices arg)⟩
  events : (t.newRegistration arg r).events = Hdhomerun.registrationEvents
  data : (t.newRegistration arg r).data =
    { (t.inited arg r).data with
      hdhomerunDataStates := Function.update t.data.hdhomerunDataStates t.numOfDevices
        (some (DataDevices.newState major (Int32.ofNat t.numOfDevices))) }

/-- A request that registers, with every call succeeding, sets up its device. -/
theorem setUp_of_succeeds {t : TunerTable} {arg : RegisterTunerData} {r : KernelResults}
    (hreg : t.Registers arg r) (hr : r.RegisterSucceeds) : ∃ major, t.SetUp arg r major := by
  obtain ⟨major, hmajor⟩ :=
    Option.ne_none_iff_exists'.mp (DataDevices.dataInit_hdhomerunMajor hreg.dataInit)
  have hstates : (t.inited arg r).data.hdhomerunDataStates = t.data.hdhomerunDataStates :=
    DataDevices.dataInit_hdhomerunDataStates _ _ _
  have hnew : t.newRegistration arg r = _ := Hdhomerun.dvbHdhomerunRegister_succeeds
    (h := ⟨Int32.ofNat t.numOfDevices, { arg with id := Int32.ofNat t.numOfDevices }, none⟩)
    hmajor hr
  refine ⟨major, hmajor, ?_, by rw [hnew], ?_⟩
  · rw [newEntry, hnew, if_neg (Int.not_lt.mpr hr.cdevAdd)]
    rfl
  · rw [hnew, ← hstates]
    simp only [toNatClampNeg_ofNat hreg.room]

/-- Otherwise the new entry has no device behind it. -/
theorem newEntry_fails {t : TunerTable} {arg : RegisterTunerData} {r : KernelResults}
    (hr : ¬ r.RegisterSucceeds) : (t.newEntry arg r).drvdata = none :=
  if_pos (Hdhomerun.dvbHdhomerunRegister_fails hr)

end TunerTable

end DvbHdhomerun
