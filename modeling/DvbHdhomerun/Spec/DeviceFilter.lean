import DvbHdhomerun.Spec.FilterHistory

/-!
# The filter of the device

The device holds a copy of the PID list: the string last given to
`hdhomerun_device_set_tuner_filter`. `StartStreaming` refreshes it, `StopStreaming` takes a PID
off the list and does not. `deviceFilter_tracks_iff` says which calls keep the two in step.
-/

namespace DvbHdhomerun

/-- Every call on the device succeeds. -/
def FeedCall.Succeeds : FeedCall → Prop
  | .start _ d => 0 < d.setTunerFilter ∧ 0 < d.streamStart
  | .stop _ => True

namespace HdhomerunTuner

/-- While the stream is on, the device filters by the current list. -/
def FilterTracks (t : HdhomerunTuner) : Prop :=
  t.mStream = true → t.lastFilter = some t.getStrFromPidFilter

/-- A stop of a listed PID leaves no other PID listed. -/
def StopsLast (t : HdhomerunTuner) : FeedCall → Prop
  | .start _ _ => True
  | .stop pid => pid ∈ t.mPidFilters → t.mPidFilters.erase pid = []

/-! ## Strings of different lists -/

/-- Taking a PID off the list changes the string. -/
theorem getStrFromPidFilter_erase_ne {t : HdhomerunTuner} {pid : Nat} (h : pid ∈ t.mPidFilters) :
    t.getStrFromPidFilter ≠ (t.removePidFromFilter pid).getStrFromPidFilter := by
  intro heq
  have hlen := congrArg List.length (getStrFromPidFilter_inj.mp heq)
  have hpos := List.length_pos_of_mem h
  rw [removePidFromFilter, List.length_erase_of_mem h] at hlen
  omega

/-! ## Calls -/

/-- The device's filter is the list's, and a list that is not empty belongs to a stream. -/
private structure TrackInv (t : HdhomerunTuner) : Prop where
  tracks : FilterTracks t
  /-- only a start puts a PID on the list -/
  stream : t.mPidFilters ≠ [] → t.mStream = true

/-- A start refreshes the filter whatever it was before. -/
private theorem trackInv_start (t : HdhomerunTuner) (pid : Nat) (d : DeviceResults) :
    TrackInv (t.startStreaming pid d) := by
  obtain ⟨hlist, hstream, hfilter⟩ := t.startStreaming_spec pid d
  refine ⟨fun _ => ?_, fun _ => hstream⟩
  rw [hfilter, getStrFromPidFilter_inj.mpr hlist]

/-- A stop keeps filter and list together exactly if the list does not change or ends up empty. -/
private theorem TrackInv.stop_iff {t : HdhomerunTuner} (hinv : TrackInv t) (pid : Nat) :
    FilterTracks (t.stopStreaming pid) ↔ StopsLast t (.stop pid) := by
  obtain ⟨hlist, hstream, hfilter⟩ := t.stopStreaming_spec pid
  have hstr : (t.stopStreaming pid).getStrFromPidFilter =
      (t.removePidFromFilter pid).getStrFromPidFilter := getStrFromPidFilter_inj.mpr hlist
  unfold FilterTracks
  rw [hstream, hfilter, hstr, Bool.and_eq_true, decide_eq_true_eq]
  constructor
  · intro h hmem
    by_contra hleft
    have hon := hinv.stream (List.ne_nil_of_mem hmem)
    have hnew := h ⟨hon, hleft⟩
    -- the filter is still the one of the list before
    rw [hinv.tracks hon, Option.some.injEq] at hnew
    exact getStrFromPidFilter_erase_ne hmem hnew
  · rintro h ⟨hon, hleft⟩
    have hnot : pid ∉ t.mPidFilters := fun hmem => hleft (h hmem)
    have hsame : t.mPidFilters.erase pid = t.mPidFilters := List.erase_of_not_mem hnot
    rw [hinv.tracks hon]
    exact congrArg some (getStrFromPidFilter_inj.mpr hsame.symm)

/-- A stop of anything but the last PID refreshes the filter. -/
private theorem TrackInv.stop {t : HdhomerunTuner} (hinv : TrackInv t) {pid : Nat}
    (hok : StopsLast t (.stop pid)) : TrackInv (t.stopStreaming pid) := by
  obtain ⟨hlist, hstream, -⟩ := t.stopStreaming_spec pid
  refine ⟨(hinv.stop_iff pid).mpr hok, fun hleft => ?_⟩
  rw [hlist] at hleft
  have hne : t.mPidFilters ≠ [] := fun hnil => hleft (by rw [hnil, List.erase_nil])
  rw [hstream, hinv.stream hne]
  simpa using hleft

/-- What a call may do to the filter, as a condition on the tuner before it. -/
private theorem TrackInv.feedCall_iff {t : HdhomerunTuner} (hinv : TrackInv t) (call : FeedCall) :
    FilterTracks (t.feedCall call) ↔ StopsLast t call := by
  cases call with
  | start pid d => exact iff_of_true (trackInv_start t pid d).tracks trivial
  | stop pid => exact hinv.stop_iff pid

/-- Every call but the excepted ones keeps the invariant. -/
private theorem TrackInv.feedCall {t : HdhomerunTuner} (hinv : TrackInv t) {call : FeedCall}
    (hok : StopsLast t call) : TrackInv (t.feedCall call) := by
  cases call with
  | start pid d => exact trackInv_start t pid d
  | stop pid => exact hinv.stop hok

/-! ## Runs -/

/-- After every call the device filters by the current list while the stream is on, exactly
    if no call stops a listed PID while another one is listed. -/
theorem deviceFilter_tracks_iff {name : String} {conf : TunerConf} {modelStr : Option String}
    {ret : Int} {t : HdhomerunTuner} (hnew : new name conf modelStr ret = some t)
    (calls : List FeedCall) :
    Run.EveryStep feedStep (fun _ _ t' => FilterTracks t') t calls ↔
      Run.Guarded feedStep StopsLast t calls := by
  obtain ⟨hstream, hlist, -, -⟩ := new_spec hnew
  have hinit : TrackInv t := by
    refine ⟨fun hon => ?_, fun hne => absurd hlist hne⟩
    rw [hstream] at hon
    exact absurd hon Bool.false_ne_true
  have hstep : ∀ t call t', TrackInv t → StopsLast t call → feedStep t call = some t' →
      TrackInv t' := by
    intro t call t' hinv hok hs
    cases hs
    exact hinv.feedCall hok
  have hiff : ∀ t call t', TrackInv t → feedStep t call = some t' →
      (FilterTracks t' ↔ StopsLast t call) := by
    intro t call t' hinv hs
    cases hs
    exact hinv.feedCall_iff call
  exact Run.everyStep_iff_guarded hstep hiff hinit

/-- A device on which every call succeeds. -/
private def goodDevice : DeviceResults := ⟨1, 1, 1, 1, 1, none, ⟨100, 100⟩⟩

/-- A configuration for ATSC. -/
private def atscConf : TunerConf := ⟨some "ATSC", none, none⟩

/-- The tuner that it makes. -/
private def atscTuner : HdhomerunTuner := { fresh "1234ABCD-0" 1 with mType := .atsc }

/-- It does. -/
private theorem new_atscTuner : new "1234ABCD-0" atscConf none 1 = some atscTuner := rfl

/-- One PID is started and stopped. -/
theorem deviceFilter_tracks_one :
    Run.EveryStep feedStep (fun _ _ t' => FilterTracks t') atscTuner
      [.start 0x100 goodDevice, .stop 0x100] := by
  apply (deviceFilter_tracks_iff new_atscTuner _).mpr
  intro t hs
  refine ⟨trivial, fun t' _ => ⟨?_, trivial⟩⟩
  cases hs
  show 0x100 ∈ [0x100] → [0x100].erase 0x100 = []
  decide

/-- Two PIDs are started and one of them is stopped: the device goes on admitting it. -/
theorem stopped_pid_admitted :
    ¬ ∀ name conf modelStr ret t calls, new name conf modelStr ret = some t →
      (∀ call ∈ calls, FeedCall.Succeeds call) →
      Run.EveryStep feedStep (fun _ _ t' => FilterTracks t') t calls := by
  intro hall
  have hcalls : ∀ call ∈ [FeedCall.start 0x100 goodDevice, .start 0x101 goodDevice, .stop 0x101],
      call.Succeeds := by
    simp [FeedCall.Succeeds, goodDevice]
  have hrun := hall _ _ _ _ _ _ new_atscTuner hcalls
  let t := (atscTuner.startStreaming 0x100 goodDevice).startStreaming 0x101 goodDevice
  have hlast : FilterTracks (t.stopStreaming 0x101) := (((hrun _ rfl).2 _ rfl).2 _ rfl).1
  have hstops := ((trackInv_start _ 0x101 goodDevice).stop_iff 0x101).mp hlast
  have hlist : t.mPidFilters = [0x100, 0x101] := by decide
  have hleft := hstops (by rw [hlist]; decide)
  rw [hlist] at hleft
  exact absurd hleft (by decide)

end HdhomerunTuner

end DvbHdhomerun
