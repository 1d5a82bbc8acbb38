import DvbHdhomerun.ForStd.Run
import DvbHdhomerun.Kernel.Exit
import DvbHdhomerun.Spec.RequestOutcome

/-!
# The entries of the registration table

An entry counts as soon as its platform device exists, and the request succeeds, whether or
not the tuner could be set up. A failure there leaves an entry without driver data, at which
the search of the next request and the unloading of the module stop.
`table_live_iff` says which requests keep every entry alive.
-/

namespace DvbHdhomerun

/-- The registration table, and for every entry what its registration has acquired and
    released. -/
structure Registry where
  table : TunerTable
  events : List (List ResourceEvent)

/-- A request for registration: the caller's struct, and what the kernel functions return. -/
abbrev RegisterRequest := RegisterTunerData × KernelResults

namespace Registry

/-- The module has been loaded. -/
def loaded : Registry := ⟨.loaded, []⟩

/-- One request. When a pointer was dereferenced that is none, the caller is killed and what
    had been set up for the data devices stays. -/
def step (s : Registry) (req : RegisterRequest) : Option Registry :=
  match s.table.controlIoctl req.1 req.2 with
  | none => some { s with table := s.table.inited req.1 req.2 }
  | some (_, _, table) =>
    if table.numOfDevices = s.table.numOfDevices then some { s with table }
    else some ⟨table, s.events ++ [(s.table.newRegistration req.1 req.2).events]⟩

/-- Something was acquired and not released again. -/
def Held (events : List ResourceEvent) (r : Resource) : Prop :=
  .acquire r ∈ events ∧ .release r ∉ events

/-- No entry is dead: each is a device with driver data and has a state of its data device, and
    neither the search for a name nor the unloading of the module dereferences NULL. -/
structure NoDeadEntry (t : TunerTable) : Prop where
  entry : ∀ i < t.numOfDevices, ∃ dev hdhomerun state, t.platformDevice[i]? = some dev ∧
    dev.drvdata = some hdhomerun ∧ t.data.hdhomerunDataStates i = some state
  search : ∀ tunerData, TunerTable.findTuner tunerData t.platformDevice ≠ none
  exit : t.dvbHdhomerunExit ≠ none

/-- Entry `i` is a tuner with this id: its adapter, its frontend and its data device exist. -/
structure LiveEntry (s : Registry) (i : Nat) (hdhomerun : Hdhomerun) : Prop where
  drvdata : ∃ dev, s.table.platformDevice[i]? = some dev ∧ dev.drvdata = some hdhomerun
  id : hdhomerun.tunerData.id = Int32.ofNat i
  fe : hdhomerun.fe ≠ none
  state : ∃ state, s.table.data.hdhomerunDataStates i = some state ∧ state.id = Int32.ofNat i
  held : ∃ events, s.events[i]? = some events ∧
    ∀ r ∈ [Resource.adapter, .frontendRegistration, .dataState, .cdev, .deviceNode], Held events r

/-- What a request is to leave behind: no dead entry, and if it returns 0 the tuner that it
    named is live under the id that it returned. -/
def AfterRequest (s : Registry) (req : RegisterRequest) (s' : Registry) : Prop :=
  NoDeadEntry s'.table ∧ ∀ arg table,
    s.table.controlIoctl req.1 req.2 = some (0, arg, table) →
      ∃ i hdhomerun, LiveEntry s' i hdhomerun ∧ arg.id = Int32.ofNat i ∧
        CString.strncmp req.1.name.toList hdhomerun.tunerData.name.toList 10 = 0

/-- The requests that do: every function called to set up a new tuner succeeds. -/
def SetsUp (s : Registry) (req : RegisterRequest) : Prop :=
  s.table.Registers req.1 req.2 → req.2.RegisterSucceeds

/-! ## One request -/

/-- A request that adds no entry, and one that does. -/
inductive StepCase (s : Registry) (req : RegisterRequest) (s' : Registry) : Prop
  /-- if it returns 0 the name is that of an entry -/
  | same (hreg : ¬ s.table.Registers req.1 req.2) (hevents : s'.events = s.events)
    (htable : s'.table = s.table ∨ s'.table = s.table.inited req.1 req.2)
    (hret : ∀ arg table, s.table.controlIoctl req.1 req.2 = some (0, arg, table) →
      TunerTable.findTuner req.1 s.table.platformDevice = some (some arg.id))
  | new (hreg : s.table.Registers req.1 req.2)
    (hentries : s'.table.platformDevice = s.table.platformDevice ++ [s.table.newEntry req.1 req.2])
    (hdata : s'.table.data = (s.table.newRegistration req.1 req.2).data)
    (hevents : s'.events = s.events ++ [(s.table.newRegistration req.1 req.2).events])
    (hret : ∀ arg table, s.table.controlIoctl req.1 req.2 = some (0, arg, table) →
      arg.id = Int32.ofNat s.table.numOfDevices)

/-- Every request is one of the two. -/
theorem step_case {s s' : Registry} {req : RegisterRequest} (hs : step s req = some s') :
    StepCase s req s' := by
  have houtcome := s.table.controlIoctl_outcome req.1 req.2
  unfold step at hs
  cases hres : s.table.controlIoctl req.1 req.2 with
  | none =>
    -- a pointer that is none was dereferenced
    rw [hres] at houtcome hs
    cases hs
    have hreg : ¬ s.table.Registers req.1 req.2 := by
      intro hreg
      cases houtcome with
      | dead hlookup =>
        rw [hreg.unknown] at hlookup
        cases hlookup
      | fault hdevice => exact hdevice ⟨hreg.platformDeviceRegisterSimple, hreg.probeKzalloc⟩
    refine .same hreg rfl (.inr rfl) fun arg table h => ?_
    rw [hres] at h
    cases h
  | some res =>
    rw [hres] at houtcome hs
    simp only at hs
    cases houtcome with
    | @refused ret table hpass hne htable =>
      -- the number of entries tells a new one
      have hlength : table.numOfDevices = s.table.numOfDevices := by
        cases htable with
        | inl h => rw [h]
        | inr h => rw [h]; rfl
      rw [if_pos hlength] at hs
      cases hs
      refine .same (fun hreg => hpass hreg.toPasses) rfl htable fun arg table' h => ?_
      rw [hres] at h
      cases h
      exact absurd rfl hne
    | full hlookup hroom =>
      have hlength : (s.table.inited req.1 req.2).numOfDevices = s.table.numOfDevices := rfl
      rw [if_pos hlength] at hs
      cases hs
      refine .same (fun hreg => hroom hreg.room) rfl (.inr rfl) fun arg table h => ?_
      rw [hres] at h
      cases h
    | @known id arg hlookup harg =>
      have hlength : (s.table.inited req.1 req.2).numOfDevices = s.table.numOfDevices := rfl
      rw [if_pos hlength] at hs
      cases hs
      have hreg : ¬ s.table.Registers req.1 req.2 := by
        intro hreg
        rw [hreg.unknown] at hlookup
        cases hlookup
      refine .same hreg rfl (.inr rfl) fun arg' table h => ?_
      rw [hres] at h
      obtain ⟨hcopy, harg', -⟩ : (req.2.copyToUser : Int) = 0 ∧ arg = arg' ∧ _ := by
        simpa using h
      rw [hlookup, ← harg', harg (by omega)]
    | @new table arg hreg hentries hdata harg =>
      have hlength : table.numOfDevices ≠ s.table.numOfDevices := by
        simp only [TunerTable.numOfDevices, hentries, List.length_append, List.length_singleton]
        omega
      rw [if_neg hlength] at hs
      cases hs
      refine .new hreg hentries hdata rfl fun arg' table' h => ?_
      rw [hres] at h
      obtain ⟨hcopy, harg', -⟩ : (req.2.copyToUser : Int) = 0 ∧ arg = arg' ∧ _ := by
        simpa using h
      rw [← harg', harg (by omega)]

/-! ## Live tables -/

/-- Every entry is live, and the events are those of the entries. -/
structure Alive (s : Registry) : Prop where
  length : s.events.length = s.table.numOfDevices
  live : ∀ i < s.table.numOfDevices, ∃ hdhomerun, LiveEntry s i hdhomerun

/-- A module that has just been loaded. -/
private theorem alive_loaded : Alive loaded where
  length := rfl
  live := fun _ h => absurd h (Nat.not_lt_zero _)

/-- The search passes entries with driver data, and stops only at one with the name. -/
private theorem findTuner_of_drvdata (tunerData : RegisterTunerData) (devs : List PlatformDevice)
    (h : ∀ (i : Nat) (dev : PlatformDevice), devs[i]? = some dev → dev.drvdata ≠ none) :
    ∃ found, TunerTable.findTuner tunerData devs = some found ∧ ∀ id, found = some id →
      ∃ (i : Nat) (dev : PlatformDevice) (hdhomerun : Hdhomerun), devs[i]? = some dev ∧
        dev.drvdata = some hdhomerun ∧
        CString.strncmp tunerData.name.toList hdhomerun.tunerData.name.toList 10 = 0 ∧
        hdhomerun.tunerData.id = id := by
  induction devs with
  | nil => exact ⟨none, rfl, fun id h => nomatch h⟩
  | cons dev devs ih =>
    obtain ⟨hdhomerun, hdrv⟩ := Option.ne_none_iff_exists'.mp (h 0 dev rfl)
    rw [TunerTable.findTuner, hdrv]
    simp only
    split
    · rename_i hcmp
      refine ⟨_, rfl, fun id hid => ?_⟩
      cases hid
      exact ⟨0, dev, hdhomerun, rfl, hdrv, hcmp, rfl⟩
    · obtain ⟨found, hfound, hid⟩ := ih fun i dev hdev => h (i + 1) dev hdev
      refine ⟨found, hfound, fun id hsome => ?_⟩
      obtain ⟨i, dev', hdhomerun', hdev, hrest⟩ := hid id hsome
      exact ⟨i + 1, dev', hdhomerun', hdev, hrest⟩

/-- The loop of the exit function passes entries with a data state and a frontend. -/
private theorem exitLoop_ne_none {data : DataDevices} (devs : List PlatformDevice) (k : Nat)
    (h : ∀ (i : Nat) (dev : PlatformDevice), devs[i]? = some dev →
      data.hdhomerunDataStates (k + i) ≠ none ∧ dev.dvbHdhomerunRemove ≠ none) :
    TunerTable.exitLoop data k devs ≠ none := by
  induction devs generalizing k with
  | nil => exact Option.some_ne_none _
  | cons dev devs ih =>
    -- the data device, the platform device, and the rest of the loop
    obtain ⟨hstate, hremove⟩ := h 0 dev rfl
    obtain ⟨state, hstate⟩ := Option.ne_none_iff_exists'.mp hstate
    obtain ⟨removed, hremove⟩ := Option.ne_none_iff_exists'.mp hremove
    have hdelete : data.dataDeleteDevice k ≠ none := by
      rw [DataDevices.dataDeleteDevice, show k = k + 0 from rfl, hstate]
      exact Option.some_ne_none _
    obtain ⟨deleted, hdelete⟩ := Option.ne_none_iff_exists'.mp hdelete
    have hrest : TunerTable.exitLoop data (k + 1) devs ≠ none := by
      apply ih
      intro i dev' hdev
      rw [show k + 1 + i = k + (i + 1) by omega]
      exact h (i + 1) dev' hdev
    obtain ⟨rest, hrest⟩ := Option.ne_none_iff_exists'.mp hrest
    rw [TunerTable.exitLoop, hdelete, hremove, hrest]
    exact Option.some_ne_none _

/-- An entry has driver data and is live. -/
private theorem Alive.entry {s : Registry} (h : Alive s) (i : Nat) (dev : PlatformDevice)
    (hdev : s.table.platformDevice[i]? = some dev) :
    ∃ hdhomerun, dev.drvdata = some hdhomerun ∧ LiveEntry s i hdhomerun := by
  obtain ⟨hi, -⟩ := List.getElem?_eq_some_iff.mp hdev
  obtain ⟨hdhomerun, hlive⟩ := h.live i hi
  obtain ⟨dev', hdev', hdrv⟩ := hlive.drvdata
  cases hdev.symm.trans hdev'
  exact ⟨hdhomerun, hdrv, hlive⟩

/-- In a live table the search stops at nothing but a live entry with the name. -/
private theorem Alive.findTuner {s : Registry} (h : Alive s) (tunerData : RegisterTunerData) :
    ∃ found, TunerTable.findTuner tunerData s.table.platformDevice = some found ∧
      ∀ id, found = some id → ∃ i hdhomerun, LiveEntry s i hdhomerun ∧ id = Int32.ofNat i ∧
        CString.strncmp tunerData.name.toList hdhomerun.tunerData.name.toList 10 = 0 := by
  have hdrv : ∀ (i : Nat) (dev : PlatformDevice), s.table.platformDevice[i]? = some dev →
      dev.drvdata ≠ none := by
    intro i dev hdev
    obtain ⟨hdhomerun, hdrv, -⟩ := h.entry i dev hdev
    rw [hdrv]
    exact Option.some_ne_none _
  obtain ⟨found, hfound, hid⟩ := findTuner_of_drvdata tunerData s.table.platformDevice hdrv
  refine ⟨found, hfound, fun id hsome => ?_⟩
  obtain ⟨i, dev, hdhomerun, hdev, hdrv, hcmp, rfl⟩ := hid id hsome
  obtain ⟨hdhomerun', hdrv', hlive⟩ := h.entry i dev hdev
  cases hdrv.symm.trans hdrv'
  exact ⟨i, hdhomerun, hlive, hlive.id, hcmp⟩

/-- So none is without driver data. -/
private theorem Alive.noDeadEntry {s : Registry} (h : Alive s) : NoDeadEntry s.table := by
  constructor
  case entry =>
    intro i hi
    obtain ⟨hdhomerun, hlive⟩ := h.live i hi
    obtain ⟨dev, hdev, hdrv⟩ := hlive.drvdata
    obtain ⟨state, hstate, -⟩ := hlive.state
    exact ⟨dev, hdhomerun, state, hdev, hdrv, hstate⟩
  case search =>
    intro tunerData
    obtain ⟨found, hfound, -⟩ := h.findTuner tunerData
    rw [hfound]
    exact Option.some_ne_none _
  case exit =>
    have hloop : TunerTable.exitLoop s.table.data 0 s.table.platformDevice ≠ none := by
      apply exitLoop_ne_none
      intro i dev hdev
      obtain ⟨hdhomerun, hdrv, hlive⟩ := h.entry i dev hdev
      obtain ⟨state, hstate, -⟩ := hlive.state
      -- a live entry has its frontend, so that `unregister` finds one
      obtain ⟨fe, hfe⟩ := Option.ne_none_iff_exists'.mp hlive.fe
      rw [Nat.zero_add, hstate, PlatformDevice.dvbHdhomerunRemove, hdrv]
      refine ⟨Option.some_ne_none _, ?_⟩
      simp only [Hdhomerun.dvbHdhomerunUnregister, hfe]
      exact Option.some_ne_none _
    intro hnone
    exact hloop (Option.map_eq_none_iff.mp hnone)

/-- What makes an entry live is left alone by a change to other entries. -/
private theorem LiveEntry.mono {s s' : Registry} {i : Nat} {hdhomerun : Hdhomerun}
    (h : LiveEntry s i hdhomerun)
    (hdev : s'.table.platformDevice[i]? = s.table.platformDevice[i]?)
    (hstate : s'.table.data.hdhomerunDataStates i = s.table.data.hdhomerunDataStates i)
    (hevents : s'.events[i]? = s.events[i]?) : LiveEntry s' i hdhomerun where
  drvdata := hdev ▸ h.drvdata
  id := h.id
  fe := h.fe
  state := hstate ▸ h.state
  held := hevents ▸ h.held

/-- A request that adds no entry leaves the others live. -/
private theorem Alive.same {s s' : Registry} {req : RegisterRequest} (h : Alive s)
    (hevents : s'.events = s.events)
    (htable : s'.table = s.table ∨ s'.table = s.table.inited req.1 req.2) :
    Alive s' ∧ ∀ i hdhomerun, LiveEntry s i hdhomerun → LiveEntry s' i hdhomerun := by
  have hentries : s'.table.platformDevice = s.table.platformDevice := by
    rcases htable with h | h <;> rw [h]
    rfl
  have hstates : s'.table.data.hdhomerunDataStates = s.table.data.hdhomerunDataStates := by
    rcases htable with h | h <;> rw [h]
    exact DataDevices.dataInit_hdhomerunDataStates _ _ _
  have hlive : ∀ i hdhomerun, LiveEntry s i hdhomerun → LiveEntry s' i hdhomerun :=
    fun i hdhomerun hl => hl.mono (by rw [hentries]) (by rw [hstates]) (by rw [hevents])
  refine ⟨⟨?_, fun i hi => ?_⟩, hlive⟩
  · rw [hevents, h.length, TunerTable.numOfDevices, TunerTable.numOfDevices, hentries]
  · rw [TunerTable.numOfDevices, hentries] at hi
    obtain ⟨hdhomerun, hl⟩ := h.live i hi
    exact ⟨hdhomerun, hlive i hdhomerun hl⟩

/-- A tuner that has been set up is live, and so are the entries before it. -/
private theorem Alive.new {s s' : Registry} {req : RegisterRequest} (h : Alive s)
    (hreg : s.table.Registers req.1 req.2) (hsucc : req.2.RegisterSucceeds)
    (hentries : s'.table.platformDevice = s.table.platformDevice ++ [s.table.newEntry req.1 req.2])
    (hdata : s'.table.data = (s.table.newRegistration req.1 req.2).data)
    (hevents : s'.events = s.events ++ [(s.table.newRegistration req.1 req.2).events]) :
    Alive s' ∧ LiveEntry s' s.table.numOfDevices
      (TunerTable.newHdhomerun s.table.numOfDevices req.1) := by
  obtain ⟨major, hsetUp⟩ := TunerTable.setUp_of_succeeds hreg hsucc
  rw [hsetUp.entry] at hentries
  rw [hsetUp.events] at hevents
  rw [hsetUp.data] at hdata
  have hlength : s'.table.numOfDevices = s.table.numOfDevices + 1 := by
    rw [TunerTable.numOfDevices, hentries, List.length_append, List.length_singleton,
      TunerTable.numOfDevices]
  -- the new entry, with its data device and all its resources
  have hnew : LiveEntry s' s.table.numOfDevices
      (TunerTable.newHdhomerun s.table.numOfDevices req.1) := by
    constructor
    case drvdata =>
      refine ⟨⟨Int32.ofNat s.table.numOfDevices,
        some (TunerTable.newHdhomerun s.table.numOfDevices req.1)⟩, ?_, rfl⟩
      rw [hentries]
      exact List.getElem?_concat_length
    case id => rfl
    case fe => exact Option.some_ne_none _
    case state =>
      refine ⟨DataDevices.newState major (Int32.ofNat s.table.numOfDevices), ?_, rfl⟩
      rw [hdata]
      exact Function.update_self _ _ _
    case held =>
      refine ⟨Hdhomerun.registrationEvents, ?_, ?_⟩
      · rw [hevents, ← h.length]
        exact List.getElem?_concat_length
      · unfold Held
        decide
  refine ⟨⟨?_, fun i hi => ?_⟩, hnew⟩
  · rw [hevents, List.length_append, h.length, hlength]
    rfl
  · by_cases hlast : i = s.table.numOfDevices
    · exact ⟨_, hlast ▸ hnew⟩
    · -- an entry that was there before
      have hi' : i < s.table.numOfDevices := by omega
      obtain ⟨hdhomerun, hlive⟩ := h.live i hi'
      refine ⟨hdhomerun, hlive.mono ?_ ?_ ?_⟩
      · rw [hentries, List.getElem?_append_left hi']
      · rw [hdata]
        exact Function.update_of_ne hlast _ _
      · rw [hevents, List.getElem?_append_left (h.length ▸ hi')]

/-- A request that sets up what it adds leaves a live table. -/
private theorem Alive.step {s s' : Registry} {req : RegisterRequest} (h : Alive s)
    (hok : SetsUp s req) (hs : step s req = some s') : Alive s' ∧ AfterRequest s req s' := by
  cases step_case hs with
  | same hreg hevents htable hret =>
    obtain ⟨halive, hmono⟩ := h.same hevents htable
    refine ⟨halive, halive.noDeadEntry, fun arg table hioctl => ?_⟩
    -- the request has returned the id of the entry it found
    obtain ⟨found, hfound, hid⟩ := h.findTuner req.1
    obtain ⟨i, hdhomerun, hlive, hi, hcmp⟩ :=
      hid arg.id (Option.some.inj (hfound.symm.trans (hret arg table hioctl)))
    exact ⟨i, hdhomerun, hmono i hdhomerun hlive, hi, hcmp⟩
  | new hreg hentries hdata hevents hret =>
    obtain ⟨halive, hnew⟩ := h.new hreg (hok hreg) hentries hdata hevents
    refine ⟨halive, halive.noDeadEntry, fun arg table hioctl => ?_⟩
    -- the request names the tuner that it has set up
    refine ⟨_, _, hnew, hret arg table hioctl, ?_⟩
    exact CString.strncmp_eq_zero_iff.mpr rfl

/-- A new entry whose registration failed is dead. -/
private theorem setsUp_of_noDeadEntry {s s' : Registry} {req : RegisterRequest}
    (hs : step s req = some s') (h : NoDeadEntry s'.table) : SetsUp s req := by
  intro hregisters
  by_contra hfails
  cases step_case hs with
  | same hreg => exact hreg hregisters
  | new _ hentries =>
    have hlength : s.table.numOfDevices < s'.table.numOfDevices := by
      rw [TunerTable.numOfDevices, TunerTable.numOfDevices, hentries, List.length_append,
        List.length_singleton]
      exact Nat.lt_succ_self _
    -- the last entry is the new one
    obtain ⟨dev, hdhomerun, state, hdev, hdrv, -⟩ := h.entry _ hlength
    rw [hentries, TunerTable.numOfDevices, List.getElem?_concat_length] at hdev
    cases hdev
    rw [TunerTable.newEntry_fails hfails] at hdrv
    cases hdrv

/-! ## Runs -/

/-- After every request of a run no entry is dead, and every request that returns 0 names a
    live tuner, exactly if each request that comes to set up a tuner succeeds in it. -/
theorem table_live_iff (reqs : List RegisterRequest) :
    Run.EveryStep step AfterRequest loaded reqs ↔ Run.Guarded step SetsUp loaded reqs := by
  have hstep : ∀ s req s', Alive s → SetsUp s req → step s req = some s' → Alive s' :=
    fun s req s' h hok hs => (h.step hok hs).1
  have hiff : ∀ s req s', Alive s → step s req = some s' →
      (AfterRequest s req s' ↔ SetsUp s req) := by
    intro s req s' h hs
    constructor
    · exact fun hafter => setsUp_of_noDeadEntry hs hafter.1
    · exact fun hok => (h.step hok hs).2
  exact Run.everyStep_iff_guarded hstep hiff alive_loaded

/-- The page for the write buffer of the first tuner cannot be had: its entry stays, without
    driver data. -/
theorem dead_entry : ¬ ∀ reqs, Run.EveryStep step AfterRequest loaded reqs := by
  intro hall
  let arg : RegisterTunerData := ⟨1, .replicate 12 0, .replicate 3 0, 0, 3, false⟩
  let r : KernelResults := { KernelResults.allSucceed with getZeroedPage := false }
  obtain ⟨⟨hafter, -⟩, -⟩ := hall [(arg, r)] _ rfl
  obtain ⟨dev, hdhomerun, state, hdev, hdrv, -⟩ := hafter.entry 0 (by decide)
  cases hdev
  cases hdrv

end Registry

end DvbHdhomerun
