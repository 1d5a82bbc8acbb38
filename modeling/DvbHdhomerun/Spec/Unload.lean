import DvbHdhomerun.Spec.TableEntries
import DvbHdhomerun.Spec.Unwinding

/-!
# What unloading the module gives back

`dvb_hdhomerun_exit` releases for each tuner what its registration has acquired, all but the
connection of the demux to its frontend and the state of the data device: nothing releases
these. It completes and does so exactly if every tuner that came to be set up was
(`unload_iff`); a registration that failed leaves an entry at which the loop faults, or whose
adapter stays.
-/

namespace DvbHdhomerun

open ResourceEvent

namespace Registry

/-- What neither `dvb_hdhomerun_unregister` nor `dvb_hdhomerun_data_delete_device` releases. -/
def leaked : List Resource := [.connection, .dataState]

/-- Over its registration and the unloading of the module a tuner has acquired each resource
    once and then released it once, apart from the leaked ones. -/
def GivenBack (events released : List ResourceEvent) : Prop :=
  ∀ res, about res (events ++ released) =
    if res ∈ leaked then [.acquire res] else [.acquire res, .release res]

/-- The module can be unloaded, and every tuner is given back. -/
def UnloadsCleanly (s : Registry) : Prop :=
  ∃ released data, s.table.dvbHdhomerunExit = some (released, data) ∧
    List.Forall₂ GivenBack s.events released

/-! ## Tuners that were set up -/

/-- What the exit function releases for a tuner that was set up. -/
def unloadEvents : List ResourceEvent :=
  [.release .writePage, .release .cdev, .release .deviceNode, .release .memFrontend,
    .release .hwFrontend, .release .dmxdev, .release .demux, .release .frontendRegistration,
    .release .frontend, .release .adapter]

/-- The unloading gives back what a registration takes. -/
theorem givenBack_unloadEvents : GivenBack Hdhomerun.registrationEvents unloadEvents := by
  intro res
  cases res <;> decide

/-- The driver data of an entry and its frontend are there. -/
def HasFrontend (dev : PlatformDevice) : Prop :=
  ∃ hdhomerun fe, dev.drvdata = some hdhomerun ∧ hdhomerun.fe = some fe

/-- Every entry is a tuner that was set up. -/
structure Whole (s : Registry) : Prop where
  events : s.events = List.replicate s.table.numOfDevices Hdhomerun.registrationEvents
  states : ∀ i < s.table.numOfDevices, s.table.data.hdhomerunDataStates i ≠ none
  entries : ∀ dev ∈ s.table.platformDevice, HasFrontend dev

/-- A module that has just been loaded. -/
private theorem whole_loaded : Whole loaded where
  events := rfl
  states := fun _ h => absurd h (Nat.not_lt_zero _)
  entries := fun _ h => absurd h List.not_mem_nil

/-- One more request that sets its device up. -/
private theorem Whole.step {s s' : Registry} {req : RegisterRequest} (h : Whole s)
    (hok : SetsUp s req) (hs : step s req = some s') : Whole s' := by
  cases step_case hs with
  | same hreg hevents htable hret =>
    have hentries : s'.table.platformDevice = s.table.platformDevice := by
      rcases htable with htable | htable <;> rw [htable]
      rfl
    have hstates : s'.table.data.hdhomerunDataStates = s.table.data.hdhomerunDataStates := by
      rcases htable with htable | htable <;> rw [htable]
      exact DataDevices.dataInit_hdhomerunDataStates _ _ _
    have hlength : s'.table.numOfDevices = s.table.numOfDevices := by
      rw [TunerTable.numOfDevices, hentries, TunerTable.numOfDevices]
    constructor
    · rw [hevents, hlength]
      exact h.events
    · rw [hlength, hstates]
      exact h.states
    · rw [hentries]
      exact h.entries
  | new hreg hentries hdata hevents hret =>
    -- the new entry is set up whole
    obtain ⟨major, hsetUp⟩ := TunerTable.setUp_of_succeeds hreg (hok hreg)
    rw [hsetUp.entry] at hentries
    rw [hsetUp.events] at hevents
    rw [hsetUp.data] at hdata
    have hlength : s'.table.numOfDevices = s.table.numOfDevices + 1 := by
      simp [TunerTable.numOfDevices, hentries]
    constructor
    · rw [hevents, h.events, hlength, List.replicate_succ']
    · intro i hi
      simp only [hdata]
      by_cases hlast : i = s.table.numOfDevices
      · rw [hlast, Function.update_self]
        exact Option.some_ne_none _
      · rw [Function.update_of_ne hlast]
        exact h.states i (by omega)
    · intro dev hdev
      rw [hentries, List.mem_append, List.mem_singleton] at hdev
      cases hdev with
      | inl hold => exact h.entries dev hold
      | inr hnew =>
        rw [hnew]
        exact ⟨_, _, rfl, rfl⟩

/-- The loop of the exit function over tuners that were set up. -/
private theorem exitLoop_eq (data : DataDevices) (devs : List PlatformDevice) (k : Nat)
    (hstates : ∀ i < devs.length, data.hdhomerunDataStates (k + i) ≠ none)
    (hdevs : ∀ dev ∈ devs, HasFrontend dev) :
    TunerTable.exitLoop data k devs = some (List.replicate devs.length unloadEvents) := by
  induction devs generalizing k with
  | nil => rfl
  | cons dev devs ih =>
    obtain ⟨state, hstate⟩ :=
      Option.ne_none_iff_exists'.mp (hstates 0 (Nat.zero_lt_succ _))
    obtain ⟨hdhomerun, fe, hdrv, hfe⟩ := hdevs dev List.mem_cons_self
    have hrest : TunerTable.exitLoop data (k + 1) devs =
        some (List.replicate devs.length unloadEvents) := by
      apply ih
      · intro i hi
        rw [show k + 1 + i = k + (i + 1) by omega]
        apply hstates
        simp only [List.length_cons]
        omega
      · exact fun dev' hdev => hdevs dev' (List.mem_cons_of_mem _ hdev)
    rw [Nat.add_zero] at hstate
    simp [TunerTable.exitLoop, DataDevices.dataDeleteDevice, hstate,
      PlatformDevice.dvbHdhomerunRemove, hdrv, Hdhomerun.dvbHdhomerunUnregister, hfe, hrest,
      List.replicate_succ, unloadEvents]

/-- Then the unloading leaves nothing. -/
private theorem Whole.unloadsCleanly {s : Registry} (h : Whole s) : UnloadsCleanly s := by
  have hloop := exitLoop_eq s.table.data s.table.platformDevice 0
    (fun i hi => by rw [Nat.zero_add]; exact h.states i hi) h.entries
  refine ⟨_, _, by rw [TunerTable.dvbHdhomerunExit, hloop]; rfl, ?_⟩
  rw [h.events]
  show List.Forall₂ GivenBack (List.replicate s.table.numOfDevices _)
    (List.replicate s.table.numOfDevices _)
  induction s.table.numOfDevices with
  | zero => exact .nil
  | succ n ih =>
    rw [List.replicate_succ, List.replicate_succ]
    exact .cons givenBack_unloadEvents ih

/-! ## Tuners that were not -/

/-- A registration has not had the page of the write buffer, or has kept its adapter. -/
def Unfinished (events : List ResourceEvent) : Prop :=
  .acquire .writePage ∉ events ∨ .release .adapter ∉ events

/-- A test before the page is asked for. -/
private theorem unfinished_of_test {failed : Prop} [Decidable failed] {ret : Int}
    {events : List ResourceEvent} {h : Hdhomerun} {data : DataDevices}
    {rest : Hdhomerun.Registered} (hevents : .acquire .writePage ∉ events)
    (hrest : Unfinished rest.events) :
    Unfinished (if failed then ⟨ret, events, h, data⟩ else rest : Hdhomerun.Registered).events := by
  split
  · exact .inl hevents
  · exact hrest

/-- The page comes after the last step that can release the adapter. -/
private theorem register_unfinished (h : Hdhomerun) (data : DataDevices) (r : KernelResults) :
    Unfinished (h.dvbHdhomerunRegister data r).events := by
  unfold Hdhomerun.dvbHdhomerunRegister
  iterate 8 apply unfinished_of_test (by decide)
  right
  simp only [List.mem_append, not_or]
  exact ⟨by decide, data.release_not_mem_dataCreateDevice h.platDevId r .adapter⟩

/-- There is an entry without driver data, whose registration is unfinished. -/
def HasDead (s : Registry) : Prop :=
  ∃ (i : Nat) (dev : PlatformDevice) (events : List ResourceEvent),
    s.table.platformDevice[i]? = some dev ∧ dev.drvdata = none ∧ s.events[i]? = some events ∧
      Unfinished events

/-- Entries stay in the table. -/
private theorem HasDead.step {s s' : Registry} {req : RegisterRequest} (h : HasDead s)
    (hs : step s req = some s') : HasDead s' := by
  obtain ⟨i, dev, events, hdev, hdrv, hevents, hunfinished⟩ := h
  refine ⟨i, dev, events, ?_, hdrv, ?_, hunfinished⟩
  · cases step_case hs with
    | same hreg hsame htable hret =>
      rcases htable with htable | htable <;> rw [htable]
      · exact hdev
      · exact hdev
    | new hreg hentries hdata hnew hret =>
      rw [hentries, List.getElem?_append_left (List.getElem?_eq_some_iff.mp hdev).1, hdev]
  · cases step_case hs with
    | same hreg hsame htable hret => rw [hsame, hevents]
    | new hreg hentries hdata hnew hret =>
      rw [hnew, List.getElem?_append_left (List.getElem?_eq_some_iff.mp hevents).1, hevents]

/-- A tuner that comes to be set up and is not leaves such an entry. -/
private theorem hasDead_of_fails {s s' : Registry} {req : RegisterRequest} (h : Whole s)
    (hfails : ¬ SetsUp s req) (hs : step s req = some s') : HasDead s' := by
  obtain ⟨hregisters, hr⟩ : s.table.Registers req.1 req.2 ∧ ¬ req.2.RegisterSucceeds := by
    simpa [SetsUp] using hfails
  cases step_case hs with
  | same hreg hevents htable hret => exact absurd hregisters hreg
  | new hreg hentries hdata hevents hret =>
    refine ⟨s.table.numOfDevices, s.table.newEntry req.1 req.2,
      (s.table.newRegistration req.1 req.2).events, ?_, TunerTable.newEntry_fails hr, ?_,
      register_unfinished _ _ req.2⟩
    · rw [hentries]
      exact List.getElem?_concat_length
    · have hlength : s.events.length = s.table.numOfDevices := by simp [h.events]
      rw [hevents, ← hlength]
      exact List.getElem?_concat_length

/-- For an entry without driver data only the data device is deleted. -/
private theorem exitLoop_of_dead {data : DataDevices} {devs : List PlatformDevice} {k i : Nat}
    {released : List (List ResourceEvent)} {dev : PlatformDevice}
    (hloop : TunerTable.exitLoop data k devs = some released) (hdev : devs[i]? = some dev)
    (hdrv : dev.drvdata = none) :
    released[i]? = some [.release .writePage, .release .cdev, .release .deviceNode] := by
  induction devs generalizing k i released with
  | nil => simp at hdev
  | cons first devs ih =>
    rw [TunerTable.exitLoop] at hloop
    obtain ⟨deleted, hdeleted, hloop⟩ := Option.bind_eq_some_iff.mp hloop
    obtain ⟨removed, hremoved, hloop⟩ := Option.bind_eq_some_iff.mp hloop
    obtain ⟨rest, hrest, rfl⟩ := Option.map_eq_some_iff.mp hloop
    cases i with
    | zero =>
      cases hdev
      -- without driver data `remove` gives nothing back
      rw [PlatformDevice.dvbHdhomerunRemove, hdrv] at hremoved
      rw [DataDevices.dataDeleteDevice] at hdeleted
      split at hdeleted
      · cases hdeleted
      · cases hdeleted
        cases hremoved
        rfl
    | succ i =>
      rw [List.getElem?_cons_succ] at hdev ⊢
      exact ih hrest hdev

/-- What is deleted for such an entry does not give the tuner back. -/
private theorem not_givenBack {events : List ResourceEvent} (h : Unfinished events) :
    ¬ GivenBack events [.release .writePage, .release .cdev, .release .deviceNode] := by
  intro hback
  -- an event about a resource that is not leaked
  have hmem : ∀ event : ResourceEvent, event ∈ [acquire event.resource, release event.resource] →
      event.resource ∉ leaked →
      event ∈ events ++ [.release .writePage, .release .cdev, .release .deviceNode] := by
    intro event hevent hleaked
    have habout := hback event.resource
    rw [if_neg hleaked] at habout
    rw [← habout] at hevent
    exact (List.mem_filter.mp hevent).1
  cases h with
  | inl hpage =>
    have h := hmem (.acquire .writePage) (by decide) (by decide)
    simp [hpage] at h
  | inr hadapter =>
    have h := hmem (.release .adapter) (by decide) (by decide)
    simp [hadapter] at h

/-- What an unfinished registration holds is not given back. -/
private theorem HasDead.not_unloadsCleanly {s : Registry} (h : HasDead s) :
    ¬ UnloadsCleanly s := by
  obtain ⟨i, dev, events, hdev, hdrv, hevents, hunfinished⟩ := h
  rintro ⟨released, data, hexit, hback⟩
  obtain ⟨released, hloop, hsame⟩ := Option.map_eq_some_iff.mp hexit
  cases hsame
  have hreleased := exitLoop_of_dead hloop hdev hdrv
  obtain ⟨hi, hevents⟩ := List.getElem?_eq_some_iff.mp hevents
  obtain ⟨hi', hreleased⟩ := List.getElem?_eq_some_iff.mp hreleased
  have hget := hback.get hi hi'
  simp only [List.get_eq_getElem, hevents, hreleased] at hget
  exact not_givenBack hunfinished hget

/-! ## Runs -/

/-- After a run of requests the module can be unloaded, and every tuner is given back but for
    the leaked resources, exactly if each request that came to set up a tuner succeeded
    in it. -/
theorem unload_iff {reqs : List RegisterRequest} {s : Registry}
    (hrun : Run.exec step loaded reqs = some s) :
    UnloadsCleanly s ↔ Run.Guarded step SetsUp loaded reqs := by
  have hwhole : ∀ s req s', Whole s → SetsUp s req → step s req = some s' → Whole s' :=
    fun s req s' h hok hs => h.step hok hs
  constructor
  · intro hclean
    by_contra hfails
    obtain ⟨as, req, bs, s₁, s₂, rfl, hrun₁, hs, hguard, hfails⟩ :=
      Run.exists_first_unguarded hfails
    have hdead : HasDead s₂ :=
      hasDead_of_fails (hguard.keeps hwhole whole_loaded hrun₁) hfails hs
    -- the requests after the failure
    rw [Run.exec_append_of_some hrun₁, Run.exec_cons_of_some hs] at hrun
    have hdead' : HasDead s :=
      Run.exec_keeps (fun s req s' (h : HasDead s) hs => h.step hs) hdead hrun
    exact hdead'.not_unloadsCleanly hclean
  · exact fun hguard => (hguard.keeps hwhole whole_loaded hrun).unloadsCleanly

/-- Two tuners are set up, and the second one is asked for again. -/
theorem unload_iff_two :
    let arg (c : UInt8) : RegisterTunerData := ⟨2, .replicate 12 c, .replicate 3 0, 0, 3, false⟩
    let reqs : List RegisterRequest :=
      [(arg 48, .allSucceed), (arg 49, .allSucceed), (arg 49, .allSucceed)]
    ∃ s, Run.exec step loaded reqs = some s ∧ s.table.numOfDevices = 2 ∧ UnloadsCleanly s := by
  intro arg reqs
  have hok : KernelResults.allSucceed.RegisterSucceeds := by constructor <;> decide
  have hcount : (Run.exec step loaded reqs).map (·.table.numOfDevices) = some 2 := by decide
  obtain ⟨s, hrun, hcount⟩ := Option.map_eq_some_iff.mp hcount
  refine ⟨s, hrun, hcount, (unload_iff hrun).mpr ?_⟩
  exact fun _ _ => ⟨fun _ => hok, fun _ _ => ⟨fun _ => hok, fun _ _ => ⟨fun _ => hok, trivial⟩⟩⟩

end Registry

end DvbHdhomerun
