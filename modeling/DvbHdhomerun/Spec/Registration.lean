import DvbHdhomerun.ForStd.Intern
import DvbHdhomerun.User.Controller

/-!
# Registration is interning of names

When no kernel function fails, a request for registration is a request to a table of at most
`HDHOMERUN_MAX_TUNERS` names, and the id of a tuner is the position of its name
(`Control.ioctl_interned`). Two names are one key when they agree in the ten bytes that
`strncmp` looks at.

* `KernelResults.Succeed`: no kernel function fails
* `TunerTable.Live`: the state of the module when none has failed so far
-/

namespace DvbHdhomerun

/-- No kernel function called for the request fails. -/
structure KernelResults.Succeed (r : KernelResults) : Prop where
  openControl : r.openControl = true
  accessOk : r.accessOk = true
  copyFromUser : r.copyFromUser = 0
  classCreate : 0 ≤ r.classCreate
  allocChrdevRegion : r.allocChrdevRegion = 0
  platformDeviceRegisterSimple : 0 ≤ r.platformDeviceRegisterSimple
  probeKzalloc : r.probeKzalloc = true
  dvbRegisterAdapter : 0 ≤ r.dvbRegisterAdapter
  dvbDmxInit : 0 ≤ r.dvbDmxInit
  dvbDmxdevInit : 0 ≤ r.dvbDmxdevInit
  addHwFrontend : 0 ≤ r.addHwFrontend
  addMemFrontend : 0 ≤ r.addMemFrontend
  connectFrontend : 0 ≤ r.connectFrontend
  dvbAttach : r.dvbAttach = true
  dvbRegisterFrontend : 0 ≤ r.dvbRegisterFrontend
  dataKzalloc : r.dataKzalloc = true
  getZeroedPage : r.getZeroedPage = true
  cdevAdd : r.cdevAdd = 0
  deviceCreate : 0 ≤ r.deviceCreate
  copyToUser : r.copyToUser = 0

/-- The string in the name field. -/
def RegisterTunerData.nameStr (d : RegisterTunerData) : List UInt8 := CString.chars d.name.toList

/-- What `strncmp(.., 10)` tells names apart by. -/
def nameKey (name : List UInt8) : List UInt8 := name.take 10

namespace PlatformDevice

/-- The name of the tuner, empty without driver data. -/
def name (dev : PlatformDevice) : List UInt8 :=
  match dev.drvdata with
  | some hdhomerun => hdhomerun.tunerData.nameStr
  | none => []

/-- The entry at index `i` is a registered tuner with id `i`. -/
structure LiveAt (dev : PlatformDevice) (i : Nat) : Prop where
  id : dev.id = Int32.ofNat i
  drvdata : ∃ hdhomerun, dev.drvdata = some hdhomerun ∧ hdhomerun.tunerData.id = Int32.ofNat i

end PlatformDevice

namespace TunerTable

/-- Every entry is a registered tuner, and the first of them had the device region set up. -/
structure Live (t : TunerTable) : Prop where
  entry : ∀ i (dev : PlatformDevice), t.platformDevice[i]? = some dev → dev.LiveAt i
  major : t.platformDevice ≠ [] → t.data.hdhomerunMajor ≠ none

/-- A module that has just been loaded has no platform device. -/
theorem live_loaded : loaded.Live := ⟨nofun, fun h => absurd rfl h⟩

/-- The names of the registered tuners in the order of their ids. -/
def names (t : TunerTable) : List (List UInt8) := t.platformDevice.map PlatformDevice.name

/-- The table as an interning table. -/
def keys (t : TunerTable) : List (List UInt8) := t.names.map nameKey

/-- Every platform device has one key. -/
theorem length_keys (t : TunerTable) : t.keys.length = t.numOfDevices := by
  rw [keys, names, List.length_map, List.length_map, numOfDevices]

/-- The search loop finds the position of the key, counted from `k` on. -/
private theorem findTuner_eq_from (tunerData : RegisterTunerData) (devs : List PlatformDevice)
    (k : Nat) (hlive : ∀ i (dev : PlatformDevice), devs[i]? = some dev → dev.LiveAt (k + i)) :
    findTuner tunerData devs =
      some (((devs.map fun dev => nameKey dev.name).idxOf? (nameKey tunerData.nameStr)).map
        fun i => Int32.ofNat (k + i)) := by
  induction devs generalizing k with
  | nil => rfl
  | cons dev devs ih =>
    obtain ⟨hdhomerun, hdrv, hid⟩ := (hlive 0 dev rfl).drvdata
    have hname : dev.name = hdhomerun.tunerData.nameStr := by rw [PlatformDevice.name, hdrv]
    rw [findTuner, hdrv, List.map_cons, List.idxOf?_cons, hname]
    simp only
    -- either this entry has the key, or the search goes on
    by_cases heq : nameKey hdhomerun.tunerData.nameStr = nameKey tunerData.nameStr
    · have hcmp : CString.strncmp tunerData.name.toList hdhomerun.tunerData.name.toList 10 = 0 :=
        CString.strncmp_eq_zero_iff.mpr heq.symm
      rw [if_pos hcmp, if_pos (beq_iff_eq.mpr heq), hid]
      rfl
    · have hcmp : CString.strncmp tunerData.name.toList hdhomerun.tunerData.name.toList 10 ≠ 0 :=
        fun h => heq (CString.strncmp_eq_zero_iff.mp h).symm
      have hrest : ∀ i (dev : PlatformDevice), devs[i]? = some dev → dev.LiveAt (k + 1 + i) := by
        intro i dev' hdev
        have hi := hlive (i + 1) dev' hdev
        rwa [show k + (i + 1) = k + 1 + i by omega] at hi
      rw [if_neg hcmp, if_neg (by simpa using heq), ih (k + 1) hrest]
      cases ((devs.map fun dev => nameKey dev.name).idxOf? (nameKey tunerData.nameStr)) with
      | none => rfl
      | some i =>
        have hidx : k + 1 + i = k + (i + 1) := by omega
        simp only [Option.map_some, hidx]

/-- `find_tuner` finds the first platform device with the name's key. -/
theorem findTuner_eq {t : TunerTable} (hlive : t.Live) (tunerData : RegisterTunerData) :
    findTuner tunerData t.platformDevice =
      some ((t.keys.idxOf? (nameKey tunerData.nameStr)).map Int32.ofNat) := by
  have h := findTuner_eq_from tunerData t.platformDevice 0
    fun i dev hdev => (Nat.zero_add i).symm ▸ hlive.entry i dev hdev
  simp only [Nat.zero_add] at h
  rw [h, keys, names, List.map_map]
  rfl

end TunerTable

/-- Without failures the tuner is registered, and its data device is created. -/
theorem Hdhomerun.dvbHdhomerunRegister_succeed {r : KernelResults} (hr : r.Succeed)
    (h : Hdhomerun) {data : DataDevices} (hmajor : data.hdhomerunMajor ≠ none) :
    (dvbHdhomerunRegister h data r).ret = 0 ∧
      (dvbHdhomerunRegister h data r).hdhomerun.tunerData = h.tunerData ∧
      (dvbHdhomerunRegister h data r).data.hdhomerunMajor = data.hdhomerunMajor := by
  obtain ⟨major, hmaj⟩ := Option.ne_none_iff_exists'.mp hmajor
  simp [dvbHdhomerunRegister, DataDevices.dataCreateDevice, hmaj,
    Int.not_lt.mpr hr.dvbRegisterAdapter, Int.not_lt.mpr hr.dvbDmxInit,
    Int.not_lt.mpr hr.dvbDmxdevInit, Int.not_lt.mpr hr.addHwFrontend,
    Int.not_lt.mpr hr.addMemFrontend, Int.not_lt.mpr hr.connectFrontend, hr.dvbAttach,
    Int.not_lt.mpr hr.dvbRegisterFrontend, hr.dataKzalloc, hr.getZeroedPage, hr.cdevAdd,
    Int.not_lt.mpr hr.deviceCreate]

namespace TunerTable

/-- A request to register `name` got the answer and left the table that interning the name
    gives. -/
structure Interned (t : TunerTable) (name : List UInt8) (answer : Option Int32)
    (t' : TunerTable) : Prop where
  live : t'.Live
  answer_eq :
    answer = (Intern.request hdhomerunMaxTuners t.keys (nameKey name)).1.map Int32.ofNat
  keys_eq : t'.keys = (Intern.request hdhomerunMaxTuners t.keys (nameKey name)).2
  names_eq : t'.names = t.names ∨ t'.names = t.names ++ [name]
  rejected : answer = none → t' = t

section Request

variable {t t' : TunerTable} {name : List UInt8}

/-- A key that is in the table is answered with its position. -/
private theorem request_eq_found {i : Nat} (h : t.keys.idxOf? (nameKey name) = some i) :
    Intern.request hdhomerunMaxTuners t.keys (nameKey name) = (some i, t.keys) := by
  rw [Intern.request, h]

/-- A new key goes to the end while there is room. -/
private theorem request_eq_of_new (h : t.keys.idxOf? (nameKey name) = none)
    (hlen : t.numOfDevices < hdhomerunMaxTuners) :
    Intern.request hdhomerunMaxTuners t.keys (nameKey name) =
      (some t.numOfDevices, t.keys ++ [nameKey name]) := by
  rw [Intern.request, h, length_keys]
  exact if_pos hlen

/-- A new key is turned down by a full table. -/
private theorem request_eq_of_full (h : t.keys.idxOf? (nameKey name) = none)
    (hlen : ¬t.numOfDevices < hdhomerunMaxTuners) :
    Intern.request hdhomerunMaxTuners t.keys (nameKey name) = (none, t.keys) := by
  rw [Intern.request, h, length_keys]
  exact if_neg hlen

/-- A name that is registered keeps its id and changes nothing. -/
theorem interned_found (hlive : t.Live) {i : Nat}
    (h : t.keys.idxOf? (nameKey name) = some i) : t.Interned name (some (Int32.ofNat i)) t where
  live := hlive
  answer_eq := by rw [request_eq_found h, Option.map_some]
  keys_eq := by rw [request_eq_found h]
  names_eq := .inl rfl
  rejected := nofun

/-- A new name is turned down by a full table, which stays as it is. -/
theorem interned_full (hlive : t.Live) (h : t.keys.idxOf? (nameKey name) = none)
    (hlen : ¬t.numOfDevices < hdhomerunMaxTuners) : t.Interned name none t where
  live := hlive
  answer_eq := by rw [request_eq_of_full h hlen, Option.map_none]
  keys_eq := by rw [request_eq_of_full h hlen]
  names_eq := .inl rfl
  rejected _ := rfl

/-- A new name takes the next id. -/
theorem interned_new (hlive : t.Live) (h : t.keys.idxOf? (nameKey name) = none)
    (hlen : t.numOfDevices < hdhomerunMaxTuners) {dev : PlatformDevice}
    (hdev : dev.LiveAt t.numOfDevices) (hname : dev.name = name)
    (hpd : t'.platformDevice = t.platformDevice ++ [dev])
    (hmajor : t'.data.hdhomerunMajor ≠ none) :
    t.Interned name (some (Int32.ofNat t.numOfDevices)) t' where
  live :=
    { entry := by
        -- an old entry, or the new one at the end
        intro i dev' hi
        rw [hpd, List.getElem?_append] at hi
        split at hi
        · exact hlive.entry i dev' hi
        · rename_i hge
          rw [List.getElem?_singleton] at hi
          split at hi
          · have hlast : i = t.numOfDevices := by
              rw [numOfDevices]
              omega
            cases hi
            exact hlast ▸ hdev
          · exact nomatch hi
      major := fun _ => hmajor }
  answer_eq := by rw [request_eq_of_new h hlen, Option.map_some]
  keys_eq := by
    rw [request_eq_of_new h hlen, keys, keys, names, names, hpd, List.map_append, List.map_append,
      List.map_singleton, List.map_singleton, hname]
  names_eq := by
    rw [names, names, hpd, List.map_append, List.map_singleton, hname]
    exact .inr rfl
  rejected := nofun

end Request

/-- `dvb_hdhomerun_register_hdhomerun` interns the name. -/
theorem registerHdhomerun_interned {t : TunerTable} (hlive : t.Live) {r : KernelResults}
    (hr : r.Succeed) (hmajor : t.data.hdhomerunMajor ≠ none) (tunerData : RegisterTunerData) :
    ∃ ret tunerData' t', t.registerHdhomerun tunerData r = some (ret, tunerData', t') ∧
      t.Interned tunerData.nameStr (if ret ≠ 0 then none else some tunerData'.id) t' := by
  have hfind := findTuner_eq hlive tunerData
  unfold registerHdhomerun
  rw [hfind]
  cases hidx : t.keys.idxOf? (nameKey tunerData.nameStr) with
  | some i => exact ⟨_, _, _, rfl, interned_found hlive hidx⟩
  | none =>
    by_cases hlen : t.numOfDevices < hdhomerunMaxTuners
    · simp only [Option.map_none, hlen, dif_pos, Int.not_lt.mpr hr.platformDeviceRegisterSimple,
        if_false, hr.probeKzalloc, Bool.not_true, Bool.false_eq_true]
      -- the new device is set up whole
      obtain ⟨hret, htd, hmaj⟩ := Hdhomerun.dvbHdhomerunRegister_succeed hr
        ⟨Int32.ofNat t.numOfDevices, { tunerData with id := Int32.ofNat t.numOfDevices }, none⟩
        hmajor
      refine ⟨_, _, _, rfl, interned_new hlive hidx hlen ⟨rfl, _, if_neg ?_, ?_⟩ ?_ rfl ?_⟩
      · rw [hret]
        exact Int.lt_irrefl 0
      · rw [htd]
      · rw [PlatformDevice.name, hret]
        simp only [Int.lt_irrefl, if_false, htd, RegisterTunerData.nameStr]
      · rw [hmaj]
        exact hmajor
    · simp only [Option.map_none, hlen, dif_neg, not_false_eq_true]
      exact ⟨_, _, _, rfl, interned_full hlive hidx hlen⟩

/-- Only a full table rejects. -/
private theorem Interned.full {t t' : TunerTable} {name : List UInt8}
    (h : t.Interned name none t') : t.platformDevice ≠ [] := by
  have hnone : (Intern.request hdhomerunMaxTuners t.keys (nameKey name)).1 = none :=
    Option.map_eq_none_iff.mp h.answer_eq.symm
  obtain ⟨i, _, heq⟩ | ⟨_, _, heq⟩ | ⟨_, hlen, _⟩ :=
    Intern.request_cases hdhomerunMaxTuners t.keys (nameKey name)
  · rw [heq] at hnone
    exact nomatch hnone
  · rw [heq] at hnone
    exact nomatch hnone
  · intro hnil
    rw [length_keys, numOfDevices, hnil] at hlen
    exact absurd hlen (by decide)

/-- The first request sets up the device region, a later one finds it. -/
theorem dataInit_succeed {r : KernelResults} (hr : r.Succeed) (s : DataDevices) (n : Nat) :
    (s.dataInit n r).1 = 0 ∧ (s.dataInit n r).2.hdhomerunMajor ≠ none ∧
      (s.hdhomerunMajor ≠ none → (s.dataInit n r).2 = s) := by
  unfold DataDevices.dataInit
  cases hmajor : s.hdhomerunMajor with
  | some major => exact ⟨rfl, by simp [hmajor], fun _ => rfl⟩
  | none =>
    have halloc : ¬r.allocChrdevRegion < 0 := by
      rw [hr.allocChrdevRegion]
      exact Int.lt_irrefl 0
    simp only [if_neg (Int.not_lt.mpr hr.classCreate), if_neg halloc]
    exact ⟨hr.allocChrdevRegion, Option.some_ne_none _, fun h => absurd rfl h⟩

/-- `HDHOMERUN_REGISTER_TUNER` interns the name. -/
theorem controlIoctl_interned {t : TunerTable} (hlive : t.Live) {r : KernelResults}
    (hr : r.Succeed) (arg : RegisterTunerData) :
    ∃ ret tunerData t', t.controlIoctl arg r = some (ret, tunerData, t') ∧
      t.Interned arg.nameStr (if ret ≠ 0 then none else some tunerData.id) t' := by
  obtain ⟨hret, hmajor, hsame⟩ := dataInit_succeed hr t.data arg.numOfDevices.toNat
  -- the table with the device region set up
  obtain ⟨t₁, ht₁⟩ : ∃ t₁, t₁ = { t with data := (t.data.dataInit arg.numOfDevices.toNat r).2 } :=
    ⟨_, rfl⟩
  have hlive₁ : t₁.Live := by
    rw [ht₁]
    exact ⟨hlive.entry, fun _ => hmajor⟩
  have hmajor₁ : t₁.data.hdhomerunMajor ≠ none := by
    rw [ht₁]
    exact hmajor
  obtain ⟨ret, tunerData, t', hreg, hint⟩ := registerHdhomerun_interned hlive₁ hr hmajor₁ arg
  have hkeys : t₁.keys = t.keys := by
    rw [ht₁]
    rfl
  have hnames : t₁.names = t.names := by
    rw [ht₁]
    rfl
  have hint' : t.Interned arg.nameStr (if ret ≠ 0 then none else some tunerData.id) t' :=
    { live := hint.live
      answer_eq := hkeys ▸ hint.answer_eq
      keys_eq := hkeys ▸ hint.keys_eq
      names_eq := hnames ▸ hint.names_eq
      rejected := by
        intro hnone
        have hne : t₁.platformDevice ≠ [] := Interned.full (hnone ▸ hint)
        have hpd : t₁.platformDevice = t.platformDevice := by rw [ht₁]
        rw [hint.rejected hnone, ht₁, hsame (hlive.major (hpd ▸ hne))] }
  unfold controlIoctl
  simp only [hr.accessOk, Bool.not_true, Bool.false_eq_true, if_false, hr.copyFromUser, ne_eq,
    not_true_eq_false, hret, ← ht₁, hreg]
  by_cases hr0 : ret = 0
  · simp only [hr0, not_true_eq_false, if_false, hr.copyToUser, if_true]
    refine ⟨_, _, _, rfl, ?_⟩
    simpa [hr0] using hint'
  · simp only [hr0, not_false_eq_true, if_true]
    refine ⟨_, _, _, rfl, ?_⟩
    have hfault : -EFAULT ≠ 0 := by decide
    simpa [hr0, hfault] using hint'

end TunerTable

/-- The name arrives in the kernel cut to eleven bytes. -/
theorem Control.nameStr_registerTunerData (n : Nat) (name : String) (type : TunerType)
    (useFullName : Bool) :
    (registerTunerData n name type useFullName).nameStr =
      (CString.chars (CString.ofString name)).take 11 := by
  have hlist : (registerTunerData n name type useFullName).name.toList =
      (CString.strncpy (CString.ofString name) 12).set 11 0 := by
    rw [registerTunerData, Vector.toList_set]
    rfl
  rw [RegisterTunerData.nameStr, hlist]
  exact CString.chars_strncpy_set (CString.ofString name) 11

/-- `Control::Ioctl` interns the name: the id is its position in the table. -/
theorem Control.ioctl_interned {t : TunerTable} (hlive : t.Live) {r : KernelResults}
    (hr : r.Succeed) (n : Nat) (name : String) (type : TunerType) (useFullName : Bool) :
    ∃ id t', ioctl n name type useFullName r t = some (id, t') ∧
      t.Interned ((CString.chars (CString.ofString name)).take 11) id t' := by
  obtain ⟨ret, tunerData, t', hioctl, hint⟩ :=
    t.controlIoctl_interned hlive hr (registerTunerData n name type useFullName)
  rw [nameStr_registerTunerData] at hint
  refine ⟨_, t', ?_, hint⟩
  unfold ioctl
  simp only [hr.openControl, Bool.not_true, Bool.false_eq_true, if_false, hioctl, Option.map_some]

end DvbHdhomerun
