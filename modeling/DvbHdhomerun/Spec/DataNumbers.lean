import Mathlib.Data.List.Induction
import DvbHdhomerun.Spec.RequestOutcome
import DvbHdhomerun.Spec.TunerIds

/-!
# Device numbers of the data devices

The first request of the first daemon that has tuners reserves as many device numbers as that
daemon has tuners. The number of a data device is its id added to the first of them, and the
ids go on over later daemons. `dataNumbers_iff` says when all numbers are reserved ones.
-/

namespace DvbHdhomerun

/-- What `dvb_hdhomerun_register` calls is part of what a request calls. -/
theorem KernelResults.Succeed.registerSucceeds {r : KernelResults} (h : r.Succeed) :
    r.RegisterSucceeds where
  dvbRegisterAdapter := h.dvbRegisterAdapter
  dvbDmxInit := h.dvbDmxInit
  dvbDmxdevInit := h.dvbDmxdevInit
  addHwFrontend := h.addHwFrontend
  addMemFrontend := h.addMemFrontend
  connectFrontend := h.connectFrontend
  dvbAttach := h.dvbAttach
  dvbRegisterFrontend := h.dvbRegisterFrontend
  dataKzalloc := h.dataKzalloc
  getZeroedPage := h.getZeroedPage
  cdevAdd := Int.le_of_eq h.cdevAdd.symm
  deviceCreate := h.deviceCreate

/-- The results in which every call succeeds. -/
theorem KernelResults.allSucceed_succeed : allSucceed.Succeed := by
  constructor <;> decide

namespace TunerTable

/-- The size of the reserved region, `none` while there is none. -/
def region (t : TunerTable) : Option Nat :=
  t.data.hdhomerunMajor.map fun _ => t.data.hdhomerunNumOfDevices

/-- Every data device has a number of the reserved region, and no two have the same. -/
structure DataNumbersOk (t : TunerTable) : Prop where
  reserved : ∀ i state, t.data.hdhomerunDataStates i = some state →
    ∃ first, t.data.hdhomerunMajor = some first ∧ state.id = Int32.ofNat i ∧
      i < t.data.hdhomerunNumOfDevices ∧ state.dev.major = first.major ∧
      first.minor ≤ state.dev.minor ∧
      state.dev.minor < first.minor + t.data.hdhomerunNumOfDevices
  distinct : ∀ i j state state', t.data.hdhomerunDataStates i = some state →
    t.data.hdhomerunDataStates j = some state' → i ≠ j → state.dev ≠ state'.dev

/-- Every entry has a data device, and no other index has one. -/
structure DataNumbered (t : TunerTable) : Prop where
  live : t.Live
  states : ∀ i, t.data.hdhomerunDataStates i =
    if i < t.numOfDevices then
      t.data.hdhomerunMajor.map fun first => DataDevices.newState first (Int32.ofNat i)
    else none

/-- A module that has just been loaded. -/
theorem dataNumbered_loaded : loaded.DataNumbered := ⟨live_loaded, fun _ => rfl⟩

/-- The data device of an entry. -/
private theorem DataNumbered.state {t : TunerTable} (h : t.DataNumbered) {i : Nat}
    {state : HdhomerunDataState} (hstate : t.data.hdhomerunDataStates i = some state) :
    i < t.numOfDevices ∧ ∃ first, t.data.hdhomerunMajor = some first ∧
      state = ⟨Int32.ofNat i, ⟨first.major, first.minor + i⟩⟩ := by
  rw [h.states i] at hstate
  split at hstate
  · rename_i hi
    obtain ⟨first, hfirst, rfl⟩ := Option.map_eq_some_iff.mp hstate
    have hid := toNatClampNeg_ofNat (Nat.lt_of_lt_of_le hi t.bound)
    exact ⟨hi, first, hfirst, by rw [DataDevices.newState, hid]⟩
  · cases hstate

/-- The numbers are reserved ones as long as there are no more entries than these. -/
theorem DataNumbered.dataNumbersOk_iff {t : TunerTable} (h : t.DataNumbered) :
    t.DataNumbersOk ↔ t.numOfDevices ≤ t.region.getD 0 := by
  constructor
  · intro hok
    by_cases hzero : t.numOfDevices = 0
    · omega
    -- the last entry has the highest number
    have hlast : t.numOfDevices - 1 < t.numOfDevices := by omega
    have hne : t.platformDevice ≠ [] := fun hnil => hzero (congrArg List.length hnil)
    obtain ⟨first, hfirst⟩ := Option.ne_none_iff_exists'.mp (h.live.major hne)
    have hstate := h.states (t.numOfDevices - 1)
    rw [if_pos hlast, hfirst, Option.map_some] at hstate
    obtain ⟨-, -, -, hlt, -⟩ := hok.reserved _ _ hstate
    rw [region, hfirst, Option.map_some, Option.getD_some]
    omega
  · intro hle
    constructor
    · intro i state hstate
      obtain ⟨hi, first, hfirst, rfl⟩ := h.state hstate
      rw [region, hfirst, Option.map_some, Option.getD_some] at hle
      refine ⟨first, hfirst, rfl, by omega, rfl, Nat.le_add_right _ _, ?_⟩
      exact Nat.add_lt_add_left (by omega) _
    · intro i j state state' hstate hstate' hij heq
      obtain ⟨-, first, hfirst, rfl⟩ := h.state hstate
      obtain ⟨-, first', hfirst', rfl⟩ := h.state hstate'
      cases hfirst.symm.trans hfirst'
      have hminor := congrArg DevT.minor heq
      exact hij (Nat.add_left_cancel hminor)

/-! ## Requests -/

/-- The setup of the data devices reserves the region once. -/
private theorem DataNumbered.inited {t : TunerTable} (h : t.DataNumbered) {r : KernelResults}
    (hr : r.Succeed) (arg : RegisterTunerData) :
    (t.inited arg r).DataNumbered ∧
      (t.inited arg r).region = some (t.region.getD arg.numOfDevices.toNat) := by
  obtain ⟨-, hmajor, hsame⟩ := dataInit_succeed hr t.data arg.numOfDevices.toNat
  cases hold : t.data.hdhomerunMajor with
  | some first =>
    -- `hdhomerun_major` is set: the function returns at once
    have hinited : t.inited arg r = t := by
      rw [TunerTable.inited, hsame (by rw [hold]; exact Option.some_ne_none _)]
    rw [hinited]
    refine ⟨h, ?_⟩
    rw [region, hold]
    rfl
  | none =>
    -- there is no entry yet
    have hnil : t.platformDevice = [] := by
      by_contra hne
      exact h.live.major hne hold
    have hinit : t.data.dataInit arg.numOfDevices.toNat r =
        (0, { t.data with
          hdhomerunMajor := some r.chrdevRegion
          hdhomerunNumOfDevices := arg.numOfDevices.toNat }) := by
      unfold DataDevices.dataInit
      simp only [hold, if_neg (Int.not_lt.mpr hr.classCreate), hr.allocChrdevRegion,
        Int.lt_irrefl, if_false]
    refine ⟨⟨⟨h.live.entry, fun _ => hmajor⟩, fun i => ?_⟩, ?_⟩
    · have hi : ¬ i < (t.inited arg r).numOfDevices := by
        show ¬ i < t.platformDevice.length
        rw [hnil]
        exact Nat.not_lt_zero i
      rw [if_neg hi]
      show (t.data.dataInit arg.numOfDevices.toNat r).2.hdhomerunDataStates i = none
      rw [DataDevices.dataInit_hdhomerunDataStates, h.states i]
      exact if_neg hi
    · rw [region, region, hold, TunerTable.inited, hinit]
      rfl

/-- A new entry gets the next data device. -/
private theorem DataNumbered.new {t t' : TunerTable} {arg : RegisterTunerData} {r : KernelResults}
    (h : (t.inited arg r).DataNumbered) (hlive : t'.Live) {first : DevT}
    (hsetUp : t.SetUp arg r first)
    (hentries : t'.platformDevice = t.platformDevice ++ [t.newEntry arg r])
    (hdata : t'.data = (t.newRegistration arg r).data) :
    t'.DataNumbered ∧ t'.region = (t.inited arg r).region := by
  have hlength : t'.numOfDevices = t.numOfDevices + 1 := by
    rw [numOfDevices, hentries, List.length_append, List.length_singleton, numOfDevices]
  rw [hsetUp.data] at hdata
  refine ⟨⟨hlive, fun i => ?_⟩, by rw [region, hdata, region]⟩
  have hmajor : t'.data.hdhomerunMajor = some first := by
    rw [hdata]
    exact hsetUp.region
  rw [hmajor, hlength, hdata]
  simp only
  -- one state is written, and its index is the number of entries before
  by_cases hlast : i = t.numOfDevices
  · subst hlast
    rw [Function.update_self, if_pos (Nat.lt_succ_self _), Option.map_some]
  · have hstates := h.states i
    rw [hsetUp.region] at hstates
    rw [Function.update_of_ne hlast, ← DataDevices.dataInit_hdhomerunDataStates t.data
      arg.numOfDevices.toNat r]
    refine Eq.trans hstates ?_
    have hiff : i < (t.inited arg r).numOfDevices ↔ i < t.numOfDevices + 1 := by
      show i < t.numOfDevices ↔ _
      omega
    rw [if_congr hiff rfl rfl]

/-- One request keeps the numbering; the first one decides about the region. -/
theorem DataNumbered.controlIoctl {t : TunerTable} (h : t.DataNumbered) {r : KernelResults}
    (hr : r.Succeed) (arg : RegisterTunerData) :
    ∃ ret arg' t', t.controlIoctl arg r = some (ret, arg', t') ∧ t'.DataNumbered ∧
      t'.region = some (t.region.getD arg.numOfDevices.toNat) := by
  obtain ⟨ret, arg', t', hioctl, hint⟩ := controlIoctl_interned h.live hr arg
  obtain ⟨hinited, hregion⟩ := h.inited hr arg
  refine ⟨ret, arg', t', hioctl, ?_⟩
  have houtcome := t.controlIoctl_outcome arg r
  rw [hioctl] at houtcome
  cases houtcome with
  | refused hpass =>
    exact absurd ⟨hr.accessOk, hr.copyFromUser, (dataInit_succeed hr _ _).1⟩ hpass
  | full => exact ⟨hinited, hregion⟩
  | known => exact ⟨hinited, hregion⟩
  | new hreg hentries hdata =>
    obtain ⟨first, hsetUp⟩ := setUp_of_succeeds hreg hr.registerSucceeds
    rw [← hregion]
    exact hinited.new hint.live hsetUp hentries hdata

end TunerTable

/-! ## Sessions -/

namespace Session

/-- The tuners that the daemon finds; none when it exits before. -/
def tuners (s : Session) : List HdhomerunTuner := (s.lib.findTuners s.discovered).getD []

/-- The names of the tuners, as far as the kernel tells them apart. -/
def keys (s : Session) : List (List UInt8) :=
  s.tuners.map fun t => nameKey (kernelName t.mName)

/-- The names in the order of the requests. -/
def requestedKeys (s : Session) : List (List UInt8) :=
  (HdhomerunController.sortTuners s.tuners).map fun t => nameKey (kernelName t.mName)

/-- The keys a session asks for are those of its tuners. -/
theorem mem_requestedKeys {s : Session} {key : List UInt8} :
    key ∈ s.requestedKeys ↔ key ∈ s.keys :=
  ((List.mergeSort_perm _ _).map _).mem_iff

/-- The number of tuners as it is sent to the kernel, `none` without a request. -/
def count (s : Session) : Option Nat :=
  if s.tuners = [] then none else some (UInt8.ofNat s.tuners.length).toNat

end Session

namespace HdhomerunController

/-- The registration loop keeps the numbering. -/
theorem createDvbDevices_dataNumbered {n : Nat} (ts : List HdhomerunTuner)
    {results : Nat → KernelResults} (hok : ∀ j, (results j).Succeed) {table : TunerTable}
    (h : table.DataNumbered) :
    ∃ c table', createDvbDevices n ts results table = some (c, table') ∧ table'.DataNumbered ∧
      table'.region = table.region.or (if ts = [] then none else some (UInt8.ofNat n).toNat) := by
  induction ts generalizing results table with
  | nil => exact ⟨_, _, rfl, h, (Option.or_none).symm⟩
  | cons t ts ih =>
    -- after the first request there is a region, and it stays
    obtain ⟨ret, arg', table₁, hioctl, hnum, hregion⟩ := h.controlIoctl (hok 0)
      (Control.registerTunerData n t.mName t.mType t.mUseFullName)
    obtain ⟨c, table', hloop, hnum', hregion'⟩ := ih (fun j => hok (j + 1)) hnum
    have hcontrol : Control.ioctl n t.mName t.mType t.mUseFullName (results 0) table =
        some (if ret ≠ 0 then none else some arg'.id, table₁) := by
      simp only [Control.ioctl, (hok 0).openControl, Bool.not_true, Bool.false_eq_true, if_false,
        hioctl, Option.map_some]
    simp only [createDvbDevices, hcontrol, hloop, Option.map_some]
    refine ⟨_, _, rfl, hnum', ?_⟩
    rw [hregion', hregion, if_neg (List.cons_ne_nil t ts), Option.some_or]
    cases table.region with
    | none => rfl
    | some size => rfl

end HdhomerunController

namespace LoadedModule

/-- The region has room for the tuners: there are at most as many different names, of which the
    table keeps eight, as the first daemon with a tuner has tuners. -/
def RegionFits (sessions : List Session) : Prop :=
  min hdhomerunMaxTuners (sessions.flatMap Session.keys).toFinset.card ≤
    (sessions.findSome? Session.count).getD 0

/-- The module after some sessions, in terms of what they asked for. -/
structure DataHistory (sessions : List Session) (m : LoadedModule) : Prop where
  numbered : m.table.DataNumbered
  region : m.table.region = sessions.findSome? Session.count
  keys : m.table.keys =
    (Intern.requests hdhomerunMaxTuners [] (sessions.flatMap Session.requestedKeys)).2

/-- One more session. -/
private theorem DataHistory.step {sessions : List Session} {m : LoadedModule}
    (h : DataHistory sessions m) {s : Session} (hok : s.Succeeds) :
    ∃ m', m.step s = some m' ∧ DataHistory (sessions ++ [s]) m' := by
  have hregion : (sessions ++ [s]).findSome? Session.count =
      (sessions.findSome? Session.count).or s.count := by
    rw [List.findSome?_append, List.findSome?_singleton]
  have hkeys : (Intern.requests hdhomerunMaxTuners []
      ((sessions ++ [s]).flatMap Session.requestedKeys)).2 =
        (Intern.requests hdhomerunMaxTuners m.table.keys s.requestedKeys).2 := by
    rw [List.flatMap_append, List.flatMap_singleton, Intern.requests_append, h.keys]
  unfold LoadedModule.step HdhomerunController.new
  cases hfind : s.lib.findTuners s.discovered with
  | none =>
    -- the daemon exits before it registers a tuner
    have htuners : s.tuners = [] := by rw [Session.tuners, hfind, Option.getD_none]
    refine ⟨_, rfl, h.numbered, ?_, ?_⟩
    · rw [hregion, Session.count, if_pos htuners, Option.or_none]
      exact h.region
    · have hsort : HdhomerunController.sortTuners [] = [] := List.mergeSort_nil
      rw [hkeys, Session.requestedKeys, htuners, hsort]
      rfl
  | some tuners =>
    have htuners : s.tuners = tuners := by rw [Session.tuners, hfind, Option.getD_some]
    have hperm : (HdhomerunController.sortTuners tuners).Perm tuners := List.mergeSort_perm _ _
    have hfresh : ∀ t ∈ HdhomerunController.sortTuners tuners, t.mKernelId = -1 :=
      fun t ht => LibHdhomerun.mKernelId_of_mem_findTuners hfind t (hperm.mem_iff.mp ht)
    obtain ⟨c, table, hloop, hreqs, -, hregs⟩ :=
      HdhomerunController.createDvbDevices_requests (n := tuners.length) hok h.numbered.live hfresh
    obtain ⟨c', table', hloop', hnum, hregion'⟩ :=
      HdhomerunController.createDvbDevices_dataNumbered (n := tuners.length)
        (HdhomerunController.sortTuners tuners) hok h.numbered
    cases hloop.symm.trans hloop'
    simp only [hloop, Option.map_some]
    refine ⟨_, rfl, hnum, ?_, ?_⟩
    · have hnil : HdhomerunController.sortTuners tuners = [] ↔ s.tuners = [] := by
        rw [htuners, ← List.length_eq_zero_iff, hperm.length_eq, List.length_eq_zero_iff]
      rw [hregion, hregion', h.region, Session.count, if_congr hnil rfl rfl, htuners]
    · -- the requests carry the names of the sorted tuners
      have hnames : c.registrations.map (fun reg => nameKey (kernelName reg.name)) =
          s.requestedKeys := by
        have hmap := congrArg (List.map fun name => nameKey (kernelName name)) hregs
        rw [List.map_map, List.map_map] at hmap
        rw [Session.requestedKeys, htuners]
        exact hmap
      rw [hkeys, ← hnames, hreqs.requests_eq]

/-- Every sequence of sessions runs to its end and keeps the history. -/
private theorem dataHistory_of_sessions (sessions : List Session)
    (hok : ∀ s ∈ sessions, s.Succeeds) :
    ∃ m, Run.exec step loaded sessions = some m ∧ DataHistory sessions m := by
  induction sessions using List.reverseRecOn with
  | nil => exact ⟨loaded, rfl, TunerTable.dataNumbered_loaded, rfl, rfl⟩
  | append_singleton sessions s ih =>
    obtain ⟨m, hrun, h⟩ := ih fun s' hs' => hok s' (List.mem_append_left _ hs')
    obtain ⟨m', hs, h'⟩ := h.step (hok s (List.mem_append_right _ List.mem_cons_self))
    refine ⟨m', ?_, h'⟩
    rw [Run.exec_append_of_some hrun, Run.exec_cons_of_some hs, Run.exec_nil]

/-- All numbers lie in the region exactly when it has room for the tuners. -/
private theorem DataHistory.dataNumbersOk_iff {sessions : List Session} {m : LoadedModule}
    (h : DataHistory sessions m) : m.table.DataNumbersOk ↔ RegionFits sessions := by
  have hvalid : Intern.Valid hdhomerunMaxTuners ([] : List (List UInt8)) :=
    ⟨List.nodup_nil, Nat.zero_le _⟩
  have hset : (sessions.flatMap Session.requestedKeys).toFinset =
      (sessions.flatMap Session.keys).toFinset := by
    ext key
    simp only [List.mem_toFinset, List.mem_flatMap, Session.mem_requestedKeys]
  -- as many entries as names that were new when they came, up to eight
  have hlength := Intern.length_requests hvalid (sessions.flatMap Session.requestedKeys)
  rw [List.nil_append, ← h.keys, TunerTable.length_keys, hset] at hlength
  rw [h.numbered.dataNumbersOk_iff, hlength, h.region, RegionFits]

/-- After any sessions in which no kernel function fails, every data device has a number of
    its own in the reserved region exactly if the region fits the tuners. -/
theorem dataNumbers_iff (sessions : List Session) (hok : ∀ s ∈ sessions, s.Succeeds) :
    ∃ m, Run.exec step loaded sessions = some m ∧
      (m.table.DataNumbersOk ↔ RegionFits sessions) := by
  obtain ⟨m, hrun, h⟩ := dataHistory_of_sessions sessions hok
  exact ⟨m, hrun, h.dataNumbersOk_iff⟩

/-! ### A second tuner in the second session -/

/-- Two devices with a tuner each, on a network where the first `n` of them are switched on. -/
private def switchedOn (n : Nat) : Session where
  lib :=
    { discoverValidateDeviceId := fun _ => true
      deviceGetName := fun deviceId _ _ => if deviceId = 1 then "10000001-0" else "10000002-0"
      deviceGetModelStr := fun _ _ _ => some "hdhomerun_atsc"
      deviceSetTunerFilter := fun _ _ _ => 1
      conf := fun _ => ⟨none, none, none⟩ }
  discovered := some ([⟨1, 0, 1⟩, ⟨2, 0, 1⟩].take n)
  results := fun _ => KernelResults.allSucceed

/-- A session in which nothing fails. -/
private theorem succeeds_switchedOn (n : Nat) : (switchedOn n).Succeeds :=
  fun _ => KernelResults.allSucceed_succeed

/-- A session with two tuners, then one with one. -/
theorem dataNumbers_one_less :
    ∃ m, Run.exec step loaded [switchedOn 2, switchedOn 1] = some m ∧ m.table.DataNumbersOk := by
  have hok : ∀ s ∈ [switchedOn 2, switchedOn 1], s.Succeeds := by
    simpa using ⟨succeeds_switchedOn 2, succeeds_switchedOn 1⟩
  have hfits : RegionFits [switchedOn 2, switchedOn 1] := by
    unfold RegionFits
    decide
  obtain ⟨m, hrun, hiff⟩ := dataNumbers_iff [switchedOn 2, switchedOn 1] hok
  exact ⟨m, hrun, hiff.mpr hfits⟩

/-- The first daemon finds one tuner and the second one two: the second data device has a
    number that is not reserved. -/
theorem dataNumbers_one_more :
    ¬ ∀ sessions : List Session, (∀ s ∈ sessions, s.Succeeds) →
      ∃ m, Run.exec step loaded sessions = some m ∧ m.table.DataNumbersOk := by
  intro hall
  have hok : ∀ s ∈ [switchedOn 1, switchedOn 2], s.Succeeds := by
    simpa using ⟨succeeds_switchedOn 1, succeeds_switchedOn 2⟩
  obtain ⟨m, hrun, hnumbers⟩ := hall [switchedOn 1, switchedOn 2] hok
  obtain ⟨m', hrun', h⟩ := dataHistory_of_sessions [switchedOn 1, switchedOn 2] hok
  cases hrun.symm.trans hrun'
  have hfits := h.dataNumbersOk_iff.mp hnumbers
  unfold RegionFits at hfits
  exact absurd hfits (by decide)

end LoadedModule

end DvbHdhomerun
