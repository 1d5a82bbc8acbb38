import Mathlib.Data.String.Basic
import DvbHdhomerun.ForStd.List
import DvbHdhomerun.Spec.DataNumbers

/-!
# The order of discovery

The daemon sorts its tuners by name before it registers them, so the ids do not depend on the
order in which the devices answered: `new_eq_of_perm`.

Without failures a request is a function of the entries alone (`TunerTable.answer`), and so is
the registration loop (`HdhomerunController.registerAll`).
-/

namespace DvbHdhomerun

namespace TunerTable

/-- What a request answers and makes of the entries when no kernel function fails. -/
def answer (devs : List PlatformDevice) (arg : RegisterTunerData) :
    Option (Option Int32 × List PlatformDevice) :=
  match findTuner arg devs with
  | none => none
  | some (some id) => some (some id, devs)
  | some none =>
    if devs.length < hdhomerunMaxTuners then
      some (some (Int32.ofNat devs.length),
        devs ++ [⟨Int32.ofNat devs.length, some (newHdhomerun devs.length arg)⟩])
    else some (none, devs)

/-- With every kernel call succeeding, the request depends on the platform devices alone. -/
theorem controlIoctl_answer (t : TunerTable) {r : KernelResults} (hr : r.Succeed)
    (arg : RegisterTunerData) :
    ((t.controlIoctl arg r).map fun (ret, arg', t') =>
        (if ret ≠ 0 then none else some arg'.id, t'.platformDevice)) =
      answer t.platformDevice arg := by
  have houtcome := t.controlIoctl_outcome arg r
  have hpass : t.Passes arg r := ⟨hr.accessOk, hr.copyFromUser, (dataInit_succeed hr _ _).1⟩
  have hcopy : (r.copyToUser : Int) = 0 := by
    rw [hr.copyToUser]
    rfl
  -- without failures the outcome depends on what the search finds, and on the room
  cases hres : t.controlIoctl arg r with
  | none =>
    rw [hres] at houtcome
    cases houtcome with
    | dead hlookup =>
      simp only [answer, hlookup]
      rfl
    | fault hdevice => exact absurd ⟨hr.platformDeviceRegisterSimple, hr.probeKzalloc⟩ hdevice
  | some res =>
    rw [hres] at houtcome
    cases houtcome with
    | refused hfails => exact absurd hpass hfails
    | full hlookup hroom =>
      have hroom' : ¬ t.platformDevice.length < hdhomerunMaxTuners := hroom
      simp only [Option.map_some, answer, hlookup, if_neg hroom']
      rfl
    | known hlookup harg =>
      simp only [Option.map_some, answer, hlookup, hcopy, ne_eq, not_true_eq_false, if_false,
        harg hr.copyToUser]
      rfl
    | new hreg hentries hdata harg =>
      obtain ⟨first, hsetUp⟩ := setUp_of_succeeds hreg hr.registerSucceeds
      have hroom : t.platformDevice.length < hdhomerunMaxTuners := hreg.room
      simp only [Option.map_some, answer, hreg.unknown, hcopy, ne_eq, not_true_eq_false, if_false,
        harg hr.copyToUser, if_pos hroom, hentries, hsetUp.entry]
      rfl

end TunerTable

/-- The daemon sees the same answer. -/
theorem Control.ioctl_answer {r : KernelResults} (hr : r.Succeed) (n : Nat) (name : String)
    (type : TunerType) (useFullName : Bool) (table : TunerTable) :
    ((ioctl n name type useFullName r table).map fun (id, table') => (id, table'.platformDevice)) =
      TunerTable.answer table.platformDevice (registerTunerData n name type useFullName) := by
  rw [← table.controlIoctl_answer hr]
  simp only [ioctl, hr.openControl, Bool.not_true, Bool.false_eq_true, if_false, Option.map_map]
  rfl

namespace HdhomerunController

/-- A tuner with the answer to its request. -/
def numbered (t : HdhomerunTuner) : Option Int32 → HdhomerunTuner
  | some kernelId => setRegistered t kernelId
  | none => t

/-- The registration loop when no kernel function fails, as a function of the entries. -/
def registerAll (n : Nat) :
    List HdhomerunTuner → List PlatformDevice →
      Option (List HdhomerunTuner × List PlatformDevice)
  | [], devs => some ([], devs)
  | t :: ts, devs =>
    (TunerTable.answer devs (Control.registerTunerData n t.mName t.mType t.mUseFullName)).bind
      fun (id, devs') =>
        (registerAll n ts devs').map fun (ts', devs'') => (numbered t id :: ts', devs'')

/-- The loop over the sorted tuners is `registerAll`. -/
theorem createDvbDevices_registerAll {n : Nat} {ts : List HdhomerunTuner}
    {results : Nat → KernelResults} (hok : ∀ j, (results j).Succeed) (table : TunerTable) :
    ((createDvbDevices n ts results table).map fun (c, table') =>
        (c.mTuners, table'.platformDevice)) =
      registerAll n ts table.platformDevice := by
  induction ts generalizing results table with
  | nil => rfl
  | cons t ts ih =>
    rw [registerAll, ← Control.ioctl_answer (hok 0)]
    simp only [createDvbDevices]
    cases Control.ioctl n t.mName t.mType t.mUseFullName (results 0) table with
    | none => rfl
    | some answered =>
      obtain ⟨id, table₁⟩ := answered
      simp only [Option.map_some, Option.bind_some, ← ih (fun j => hok (j + 1)), Option.map_map]
      cases id <;> rfl

end HdhomerunController

/-! ## Discovery -/

namespace LibHdhomerun

/-- Discovery in another order finds the same tuners in another order, or the daemon exits. -/
theorem findTuners_perm {lib : LibHdhomerun} {devices devices' : List DiscoverDevice}
    (hperm : devices.Perm devices') {tuners : List HdhomerunTuner}
    (h : lib.findTuners (some devices) = some tuners) :
    ∃ tuners', lib.findTuners (some devices') = some tuners' ∧ tuners.Perm tuners' := by
  cases devices with
  | nil =>
    cases h
  | cons device devices =>
    obtain ⟨lists, hlists, rfl⟩ := Option.map_eq_some_iff.mp h
    obtain ⟨lists', hlists', hp⟩ := hperm.mapM_some hlists
    cases devices' with
    | nil => exact absurd hperm.length_eq (Nat.succ_ne_zero _)
    | cons device' devices' =>
      exact ⟨lists'.flatten, Option.map_eq_some_iff.mpr ⟨lists', hlists', rfl⟩, hp.flatten⟩

end LibHdhomerun

/-- Tuners with different names are sorted into one order. -/
theorem HdhomerunController.sortTuners_eq_of_perm {ts ts' : List HdhomerunTuner}
    (hperm : ts.Perm ts') (hnodup : (ts.map (·.mName)).Nodup) :
    sortTuners ts = sortTuners ts' :=
  hperm.mergeSort_eq hnodup

namespace HdhomerunController

/-- What the constructor leaves of a session: the tuners with their ids, and the entries. -/
def outcome (s : Session) (table : TunerTable) :
    Option (Option (List HdhomerunTuner) × List PlatformDevice) :=
  (HdhomerunController.new s table).map fun (c, table') =>
    (c.map (·.mTuners), table'.platformDevice)

/-- A start of the daemon is its discovery followed by the registrations. -/
private theorem outcome_eq {lib : LibHdhomerun} {discovered : Option (List DiscoverDevice)}
    {results : Nat → KernelResults} (hok : ∀ j, (results j).Succeed) (table : TunerTable) :
    outcome ⟨lib, discovered, results⟩ table =
      match lib.findTuners discovered with
      | none => some (none, table.platformDevice)
      | some tuners =>
        (registerAll tuners.length (sortTuners tuners) table.platformDevice).map
          fun (ts, devs) => (some ts, devs) := by
  unfold outcome HdhomerunController.new
  cases lib.findTuners discovered with
  | none => rfl
  | some tuners =>
    simp only [← createDvbDevices_registerAll hok, Option.map_map]
    rfl

/-- In both orders the daemon exits, or it registers the same tuners in the same order. -/
private theorem sorted_eq_of_perm {lib : LibHdhomerun} {devices devices' : List DiscoverDevice}
    (hperm : devices.Perm devices')
    (hnames : ∀ tuners, lib.findTuners (some devices) = some tuners →
      (tuners.map (·.mName)).Nodup) :
    (lib.findTuners (some devices) = none ∧ lib.findTuners (some devices') = none) ∨
      ∃ tuners tuners', lib.findTuners (some devices) = some tuners ∧
        lib.findTuners (some devices') = some tuners' ∧ tuners.length = tuners'.length ∧
        sortTuners tuners = sortTuners tuners' := by
  cases hfind : lib.findTuners (some devices) with
  | none =>
    -- a device that makes the daemon exit does so at any place
    cases hfind' : lib.findTuners (some devices') with
    | none => exact .inl ⟨rfl, rfl⟩
    | some tuners' =>
      obtain ⟨tuners, h, -⟩ := LibHdhomerun.findTuners_perm hperm.symm hfind'
      rw [hfind] at h
      cases h
  | some tuners =>
    obtain ⟨tuners', hfind', hp⟩ := LibHdhomerun.findTuners_perm hperm hfind
    exact .inr ⟨tuners, tuners', rfl, hfind', hp.length_eq,
      sortTuners_eq_of_perm hp (hnames tuners hfind)⟩

/-- Whatever the order of discovery, and whatever successful calls return: the daemon gets the
    same tuners with the same ids and leaves the same entries, and on a table of live entries
    it does get as far as that. With the same results everything else is the same too. -/
theorem new_eq_of_perm {lib : LibHdhomerun} {devices devices' : List DiscoverDevice}
    (hperm : devices.Perm devices')
    (hnames : ∀ tuners, lib.findTuners (some devices) = some tuners →
      (tuners.map (·.mName)).Nodup)
    {results results' : Nat → KernelResults} (hok : ∀ j, (results j).Succeed)
    (hok' : ∀ j, (results' j).Succeed) (table : TunerTable) :
    outcome ⟨lib, some devices, results⟩ table = outcome ⟨lib, some devices', results'⟩ table ∧
      (results = results' →
        HdhomerunController.new ⟨lib, some devices, results⟩ table =
          HdhomerunController.new ⟨lib, some devices', results'⟩ table) ∧
      (table.Live → outcome ⟨lib, some devices, results⟩ table ≠ none) := by
  rw [outcome_eq hok, outcome_eq hok']
  -- both orders are sorted into the same list
  rcases sorted_eq_of_perm hperm hnames with ⟨hfind, hfind'⟩ |
    ⟨tuners, tuners', hfind, hfind', hlength, hsorted⟩
  · refine ⟨by rw [hfind, hfind'], fun _ => ?_, fun _ => ?_⟩
    · simp only [HdhomerunController.new, hfind, hfind']
    · rw [hfind]
      exact Option.some_ne_none _
  · simp only [hfind, hfind', hlength, hsorted, true_and]
    refine ⟨fun hresults => ?_, fun hlive => ?_⟩
    · simp only [HdhomerunController.new, hfind, hfind', hlength, hsorted, hresults]
    · -- on live entries no request dereferences NULL
      have hfresh : ∀ t ∈ sortTuners tuners, t.mKernelId = -1 := by
        intro t ht
        have hmem : t ∈ tuners := (List.mergeSort_perm _ _).mem_iff.mp ht
        exact LibHdhomerun.mKernelId_of_mem_findTuners hfind t hmem
      obtain ⟨c, table', hloop, -⟩ :=
        createDvbDevices_requests (n := tuners.length) hok hlive hfresh
      rw [← hlength, ← hsorted, ← createDvbDevices_registerAll hok, hloop]
      exact Option.some_ne_none _

/-! ### Two devices -/

/-- Two devices with a tuner each. -/
private def twoDevices : LibHdhomerun where
  discoverValidateDeviceId _ := true
  deviceGetName deviceId _ _ := if deviceId = 1 then "10000001-0" else "10000002-0"
  deviceGetModelStr _ _ _ := some "hdhomerun_atsc"
  deviceSetTunerFilter _ _ _ := 1
  conf _ := ⟨none, none, none⟩

/-- Two devices, discovered in the one order and in the other. -/
theorem new_eq_of_swap :
    outcome ⟨twoDevices, some [⟨1, 0, 1⟩, ⟨2, 0, 1⟩], fun _ => KernelResults.allSucceed⟩ .loaded =
      outcome ⟨twoDevices, some [⟨2, 0, 1⟩, ⟨1, 0, 1⟩], fun _ => KernelResults.allSucceed⟩
        .loaded := by
  have hok : ∀ _ : Nat, KernelResults.allSucceed.Succeed :=
    fun _ => KernelResults.allSucceed_succeed
  refine (new_eq_of_perm (List.Perm.swap _ _ []) (fun tuners h => ?_) hok hok _).1
  have hnames : (twoDevices.findTuners (some [⟨1, 0, 1⟩, ⟨2, 0, 1⟩])).map
      (List.map HdhomerunTuner.mName) = some ["10000001-0", "10000002-0"] := by decide
  rw [h, Option.map_some] at hnames
  rw [Option.some.inj hnames]
  decide

end HdhomerunController

end DvbHdhomerun
