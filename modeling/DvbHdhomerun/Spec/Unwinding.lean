import DvbHdhomerun.Kernel.Register
import Mathlib.Data.List.Nodup

/-!
# Unwinding of a failed registration

`dvb_hdhomerun_register` releases in reverse order what it has acquired when one of its own
steps fails. The failures of `dvb_hdhomerun_data_create_device`, which it ends with, are
returned without a release: `register_unwinds_iff`.
-/

namespace DvbHdhomerun

namespace ResourceEvent

/-- The resource that is acquired or released. -/
def resource : ResourceEvent → Resource
  | .acquire res => res
  | .release res => res

/-- What happens to one resource, in order. -/
def about (res : Resource) (events : List ResourceEvent) : List ResourceEvent :=
  events.filter fun event => event.resource = res

/-- Every resource that was acquired has been released exactly once. -/
def Unwound (events : List ResourceEvent) : Prop :=
  ∀ res, about res events = [] ∨ about res events = [.acquire res, .release res]

/-- Events are told apart one by one. -/
theorem about_append (res : Resource) (events events' : List ResourceEvent) :
    about res (events ++ events') = about res events ++ about res events' :=
  List.filter_append events events'

/-- What happens to one resource when the same is done to each of several. -/
private theorem about_map {event : Resource → ResourceEvent} (hevent : ∀ r, (event r).resource = r)
    (res : Resource) {rs : List Resource} (h : rs.Nodup) :
    about res (rs.map event) = if res ∈ rs then [event res] else [] := by
  unfold about
  rw [List.filter_map]
  have hsame : ((fun e => decide (resource e = res)) ∘ event) = (· == res) := by
    funext r
    show decide ((event r).resource = res) = (r == res)
    rw [hevent]
    rfl
  rw [hsame, List.filter_beq, h.count]
  split <;> simp

/-- Each of the resources is acquired once. -/
theorem about_acquire (res : Resource) {rs : List Resource} (h : rs.Nodup) :
    about res (rs.map acquire) = if res ∈ rs then [acquire res] else [] :=
  about_map (fun _ => rfl) res h

/-- Each of the resources is released once. -/
theorem about_release (res : Resource) {rs : List Resource} (h : rs.Nodup) :
    about res (rs.map release) = if res ∈ rs then [release res] else [] :=
  about_map (fun _ => rfl) res h

/-- Releasing in reverse order what has been acquired leaves nothing. -/
theorem unwound_of_reverse {rs : List Resource} (h : rs.Nodup) :
    Unwound (rs.map acquire ++ rs.reverse.map release) := by
  intro res
  rw [about_append, about_acquire res h, about_release res (List.nodup_reverse.mpr h)]
  simp only [List.mem_reverse]
  split
  · exact .inr rfl
  · exact .inl rfl

/-- Something that was acquired and not released is left. -/
theorem not_unwound {events : List ResourceEvent} {res : Resource} (hacq : acquire res ∈ events)
    (hrel : release res ∉ events) : ¬ Unwound events := by
  intro h
  have hmem : acquire res ∈ about res events :=
    List.mem_filter.mpr ⟨hacq, decide_eq_true rfl⟩
  rcases h res with hnil | hboth
  · rw [hnil] at hmem
    exact List.not_mem_nil hmem
  · have hrelease : release res ∈ about res events := by
      rw [hboth]
      exact List.mem_cons_of_mem _ List.mem_cons_self
    exact hrel (List.mem_filter.mp hrelease).1

end ResourceEvent

open ResourceEvent

namespace DataDevices

/-- `dvb_hdhomerun_data_create_device` returns an error: there is no device region, an
    allocation fails, or adding the cdev or the device node does. -/
def CreateFails (data : DataDevices) (r : KernelResults) : Prop :=
  data.hdhomerunMajor = none ∨ r.dataKzalloc = false ∨ r.getZeroedPage = false ∨
    r.deviceCreate < 0 ∨ r.cdevAdd < 0

/-- The data device reports an error exactly when one of its calls fails. -/
theorem dataCreateDevice_neg_iff (data : DataDevices) (id : Int32) (r : KernelResults) :
    (data.dataCreateDevice id r).1 < 0 ↔ data.CreateFails r := by
  unfold dataCreateDevice CreateFails
  cases data.hdhomerunMajor with
  | none => simp
  | some major =>
    cases r.dataKzalloc with
    | false => simp [ENOMEM]
    | true =>
      cases r.getZeroedPage with
      | false => simp [ENOMEM]
      | true =>
        by_cases hcreate : r.deviceCreate < 0
        · simp [hcreate]
        · simp [hcreate]

/-- No path of the function releases anything. -/
theorem release_not_mem_dataCreateDevice (data : DataDevices) (id : Int32) (r : KernelResults)
    (res : Resource) : .release res ∉ (data.dataCreateDevice id r).2.1 := by
  unfold dataCreateDevice
  split
  · simp
  · split
    · simp
    · split
      · simp
      · simp only
        split <;> split <;> simp

end DataDevices

namespace Hdhomerun

/-- What is acquired before `dvb_hdhomerun_data_create_device` is called. -/
def frontResources : List Resource :=
  [.adapter, .demux, .dmxdev, .hwFrontend, .memFrontend, .connection, .frontend,
    .frontendRegistration]

/-- Every step before `dvb_hdhomerun_data_create_device` succeeds. -/
structure ReachesDataDevice (r : KernelResults) : Prop where
  dvbRegisterAdapter : 0 ≤ r.dvbRegisterAdapter
  dvbDmxInit : 0 ≤ r.dvbDmxInit
  dvbDmxdevInit : 0 ≤ r.dvbDmxdevInit
  addHwFrontend : 0 ≤ r.addHwFrontend
  addMemFrontend : 0 ≤ r.addMemFrontend
  connectFrontend : 0 ≤ r.connectFrontend
  dvbAttach : r.dvbAttach = true
  dvbRegisterFrontend : 0 ≤ r.dvbRegisterFrontend

/-- A registration fails in one of its own steps and releases what it has acquired, in
    reverse order, or it ends with what the creation of the data device does. -/
private def RegisterOutcome (h : Hdhomerun) (data : DataDevices) (r : KernelResults)
    (reg : Registered) : Prop :=
  (¬ ReachesDataDevice r ∧ ∃ rs : List Resource, rs.Nodup ∧
    reg.events = rs.map acquire ++ rs.reverse.map release) ∨
  (ReachesDataDevice r ∧ reg.ret = (data.dataCreateDevice h.platDevId r).1 ∧
    reg.events = frontResources.map acquire ++ (data.dataCreateDevice h.platDevId r).2.1)

/-- `dvb_hdhomerun_register`, by the first call that fails. -/
private theorem dvbHdhomerunRegister_outcome (h : Hdhomerun) (data : DataDevices)
    (r : KernelResults) : RegisterOutcome h data r (dvbHdhomerunRegister h data r) := by
  -- after `n` steps the first `n` resources are there, and the label releases them
  have hprefix : ∀ n, (frontResources.take n).Nodup := fun n =>
    List.Nodup.sublist (List.take_sublist n _) (by decide)
  unfold dvbHdhomerunRegister
  extract_lets acquired
  split <;> rename_i hadapter
  · exact .inl ⟨fun hr => by have := hr.dvbRegisterAdapter; omega, _, hprefix 0, rfl⟩
  split <;> rename_i hdmx
  · exact .inl ⟨fun hr => by have := hr.dvbDmxInit; omega, _, hprefix 1, rfl⟩
  split <;> rename_i hdmxdev
  · exact .inl ⟨fun hr => by have := hr.dvbDmxdevInit; omega, _, hprefix 2, rfl⟩
  split <;> rename_i hhw
  · exact .inl ⟨fun hr => by have := hr.addHwFrontend; omega, _, hprefix 3, rfl⟩
  split <;> rename_i hmem
  · exact .inl ⟨fun hr => by have := hr.addMemFrontend; omega, _, hprefix 4, rfl⟩
  split <;> rename_i hconnect
  · exact .inl ⟨fun hr => by have := hr.connectFrontend; omega, _, hprefix 5, rfl⟩
  split <;> rename_i hattach
  · refine .inl ⟨fun hr => ?_, _, hprefix 6, rfl⟩
    rw [hr.dvbAttach] at hattach
    exact absurd hattach (by decide)
  split <;> rename_i hregister
  · exact .inl ⟨fun hr => by have := hr.dvbRegisterFrontend; omega, _, hprefix 7, rfl⟩
  · refine .inr ⟨⟨?_, ?_, ?_, ?_, ?_, ?_, by simpa using hattach, ?_⟩, rfl, rfl⟩ <;> omega

/-- A registration that returns an error has released everything it acquired, exactly if not
    both its own steps succeed and the creation of the data device fails. -/
theorem register_unwinds_iff (h : Hdhomerun) (data : DataDevices) (r : KernelResults) :
    ((dvbHdhomerunRegister h data r).ret < 0 → Unwound (dvbHdhomerunRegister h data r).events) ↔
      ¬ (ReachesDataDevice r ∧ data.CreateFails r) := by
  rcases h.dvbHdhomerunRegister_outcome data r with ⟨hnot, rs, hnodup, hevents⟩ |
    ⟨hreach, hret, hevents⟩
  · refine iff_of_true (fun _ => ?_) fun hfails => hnot hfails.1
    rw [hevents]
    exact unwound_of_reverse hnodup
  · -- the adapter, for one, stays registered
    have hleft : ¬ Unwound (dvbHdhomerunRegister h data r).events := by
      rw [hevents]
      have hacquired : acquire .adapter ∈ frontResources.map acquire := by decide
      apply not_unwound (List.mem_append_left _ hacquired)
      rw [List.mem_append, not_or]
      exact ⟨by decide, data.release_not_mem_dataCreateDevice h.platDevId r .adapter⟩
    rw [hret, data.dataCreateDevice_neg_iff]
    constructor
    · exact fun himp hfails => hleft (himp hfails.2)
    · exact fun hnot hfails => absurd ⟨hreach, hfails⟩ hnot

/-- There is no page for the write buffer: the error is returned, and the adapter and all
    that was built on it stay registered. -/
theorem register_leaves_adapter :
    ¬ ∀ h data r, (dvbHdhomerunRegister h data r).ret < 0 →
      Unwound (dvbHdhomerunRegister h data r).events := by
  intro hall
  let h : Hdhomerun := ⟨0, ⟨1, .replicate 12 0, .replicate 3 0, 0, 1, false⟩, none⟩
  let data : DataDevices := { DataDevices.loaded with hdhomerunMajor := some ⟨250, 0⟩ }
  let r : KernelResults :=
    ⟨true, true, 0, 0, 0, ⟨250, 0⟩, 0, true, 0, 0, 0, 0, 0, 0, true, 0, true, false, 0, 0, 0⟩
  have hevents : (dvbHdhomerunRegister h data r).events =
      frontResources.map acquire ++ [.acquire .dataState] := rfl
  have hunwound := hall h data r (by decide)
  rw [hevents] at hunwound
  have hacquired : acquire .adapter ∈ frontResources.map acquire ++ [.acquire .dataState] := by decide
  exact not_unwound hacquired (by decide) hunwound

end Hdhomerun

end DvbHdhomerun
