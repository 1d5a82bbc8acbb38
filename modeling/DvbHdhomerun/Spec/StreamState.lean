import DvbHdhomerun.Spec.FilterHistory

/-!
# The stream flag and the stream of the device

`m_stream` is the tuner's word for what the device does. `StartStreaming` sets it whatever
`hdhomerun_device_stream_start` returns, and the destructor leaves it to `StopStreaming`,
which returns early while a PID is listed.

* `streamFlag_true_iff`: when a set flag means a stream that was started with success
* `destroy_stopped_iff`: when no stream is left running by the destructor
-/

namespace DvbHdhomerun

/-- The call starts or stops the stream of the device. -/
def DeviceCall.isStreamCall : DeviceCall → Bool
  | .streamStart _ | .streamStop => true
  | _ => false

/-- Every start that succeeded has been followed by a stop. -/
def AllStopped (calls : List DeviceCall) : Prop :=
  ∀ ret after, .streamStart ret :: after <:+ calls → 0 < ret → .streamStop ∈ after

/-- After a stop, calls that do not start the stream leave everything stopped. -/
theorem allStopped_append_stop {calls after : List DeviceCall}
    (h : ∀ ret, .streamStart ret ∉ after) (hstop : .streamStop ∈ after) :
    AllStopped (calls ++ after) := by
  intro ret rest hsuffix _
  cases List.suffix_or_suffix_of_suffix hsuffix (List.suffix_append calls after) with
  | inl hinside => exact absurd (hinside.subset List.mem_cons_self) (h ret)
  | inr houtside =>
    rcases List.mem_cons.mp (houtside.subset hstop) with heq | hmem
    · cases heq
    · exact hmem

/-- Calls that start nothing leave everything stopped. -/
theorem AllStopped.append {calls after : List DeviceCall} (hcalls : AllStopped calls)
    (h : ∀ ret, .streamStart ret ∉ after) : AllStopped (calls ++ after) := by
  intro ret rest hsuffix hret
  obtain ⟨pre, hpre⟩ := hsuffix
  rcases List.append_eq_append_iff.mp hpre with ⟨mid, hmid, hrest⟩ | ⟨mid, hmid, hrest⟩
  · cases mid with
    | nil =>
      rw [List.nil_append] at hrest
      exact absurd (hrest ▸ List.mem_cons_self) (h ret)
    | cons call mid =>
      cases hrest
      have hmem := hcalls ret mid ⟨pre, hmid.symm⟩ hret
      exact List.mem_append_left _ hmem
  · exact absurd (hrest ▸ List.mem_append_right _ List.mem_cons_self) (h ret)

namespace HdhomerunTuner

/-- The starts and stops of the stream among the calls made. -/
def streamCalls (t : HdhomerunTuner) : List DeviceCall := t.device.filter DeviceCall.isStreamCall

/-- The latest start or stop of the stream is a start that succeeded. -/
def Streaming (t : HdhomerunTuner) : Prop :=
  ∃ ret, t.streamCalls.getLast? = some (.streamStart ret) ∧ 0 < ret

/-- A set flag means a stream that was started with success. -/
def FlagTrue (t : HdhomerunTuner) : Prop := t.mStream = true → t.Streaming

/-- When the latest start of the stream failed, a start of a PID makes the next one. -/
def Retries (t : HdhomerunTuner) (call : FeedCall) (t' : HdhomerunTuner) : Prop :=
  ∀ ret pid d, t.streamCalls.getLast? = some (.streamStart ret) → ret ≤ 0 → call = .start pid d →
    t'.streamCalls = t.streamCalls ++ [.streamStart d.streamStart]

/-- A start that finds the flag unset starts the stream with success. -/
def StartsStream (t : HdhomerunTuner) : FeedCall → Prop
  | .start _ d => t.mStream = false → 0 < d.streamStart
  | .stop _ => True

/-! ## Calls -/

/-- The stream calls recorded last are those of what is logged. -/
theorem streamCalls_log (t : HdhomerunTuner) (calls : List DeviceCall) :
    (t.log calls).streamCalls = t.streamCalls ++ calls.filter DeviceCall.isStreamCall := by
  simp [streamCalls, log, List.filter_append]

/-- `StartStreaming` starts the stream of the device unless `m_stream` is set. -/
theorem startStreaming_streamCalls (t : HdhomerunTuner) (pid : Nat) (d : DeviceResults) :
    (t.startStreaming pid d).streamCalls =
      if t.mStream then t.streamCalls else t.streamCalls ++ [.streamStart d.streamStart] := by
  have hcalls : (t.addPidToFilter pid).streamCalls = t.streamCalls := by
    rw [streamCalls, device_addPidToFilter, streamCalls]
  unfold startStreaming
  simp only [mStream_log, mStream_addPidToFilter]
  cases t.mStream with
  | true =>
    simp only [Bool.not_true, Bool.false_eq_true, if_false, if_true, streamCalls_log, hcalls,
      List.append_assoc]
    exact List.append_nil _
  | false =>
    simp only [Bool.not_false, Bool.false_eq_true, if_false, if_true]
    show ((((t.addPidToFilter pid).log _).log _).log _).streamCalls = _
    simp only [streamCalls_log, hcalls, List.append_assoc]
    rfl

/-- A stop ends the stream of the device, or leaves the flag and the device as they are. -/
theorem stopStreaming_device (t : HdhomerunTuner) (pid : Nat) :
    ((t.stopStreaming pid).mStream = false ∧
      (t.stopStreaming pid).device = t.device ++ [.threadFinished, .streamStop, .getVideoStats]) ∨
    ((t.stopStreaming pid).mStream = t.mStream ∧ (t.stopStreaming pid).device = t.device) := by
  unfold stopStreaming
  simp only
  split
  · exact .inr ⟨rfl, rfl⟩
  · split
    · exact .inl ⟨rfl, rfl⟩
    · exact .inr ⟨rfl, rfl⟩

/-- After a start the flag is set, so it is true exactly if the stream was on or comes on. -/
private theorem flagTrue_start_iff {t : HdhomerunTuner} (htrue : FlagTrue t) (pid : Nat)
    (d : DeviceResults) : FlagTrue (t.startStreaming pid d) ↔ StartsStream t (.start pid d) := by
  obtain ⟨-, hstream, -⟩ := t.startStreaming_spec pid d
  have hcalls := t.startStreaming_streamCalls pid d
  unfold FlagTrue Streaming StartsStream
  rw [hcalls]
  cases hold : t.mStream with
  | true => exact iff_of_true (fun _ => htrue hold) fun h => absurd h.symm Bool.false_ne_true
  | false =>
    -- the start of the stream that this call makes is the latest one
    rw [if_neg Bool.false_ne_true, List.getLast?_concat]
    constructor
    · intro h _
      obtain ⟨ret, hlast, hret⟩ := h hstream
      cases hlast
      exact hret
    · exact fun h _ => ⟨d.streamStart, rfl, h rfl⟩

/-- A stop unsets the flag, or touches neither the flag nor the device. -/
private theorem FlagTrue.stop {t : HdhomerunTuner} (htrue : FlagTrue t) (pid : Nat) :
    FlagTrue (t.stopStreaming pid) := by
  intro hon
  -- either the flag is unset now, or nothing has happened to flag and device
  rcases t.stopStreaming_device pid with ⟨hoff, -⟩ | ⟨hstream, hdevice⟩
  · rw [hoff] at hon
    exact absurd hon Bool.false_ne_true
  · rw [hstream] at hon
    unfold Streaming streamCalls
    rw [hdevice]
    exact htrue hon

/-- A call keeps the flag true exactly when the start of the stream it makes succeeds. -/
private theorem flagTrue_feedCall_iff {t : HdhomerunTuner} (htrue : FlagTrue t) (call : FeedCall) :
    FlagTrue (t.feedCall call) ↔ StartsStream t call := by
  cases call with
  | start pid d => exact flagTrue_start_iff htrue pid d
  | stop pid => exact iff_of_true (htrue.stop pid) trivial

/-- With a true flag a failed start cannot have left it set, so the next start tries again. -/
private theorem FlagTrue.retries {t : HdhomerunTuner} (htrue : FlagTrue t) (call : FeedCall) :
    Retries t call (t.feedCall call) := by
  rintro ret pid d hlast hret rfl
  have hoff : t.mStream = false := by
    by_contra hon
    obtain ⟨ret', hlast', hret'⟩ := htrue (Bool.eq_true_of_not_eq_false hon)
    cases hlast.symm.trans hlast'
    omega
  show (t.startStreaming pid d).streamCalls = _
  rw [startStreaming_streamCalls, hoff, if_neg Bool.false_ne_true]

/-! ## Failed starts -/

/-- Between calls a set flag always means a stream that was started with success, and a
    failed start is made again, exactly if no start that finds the flag unset fails. -/
theorem streamFlag_true_iff {name : String} {conf : TunerConf} {modelStr : Option String}
    {ret : Int} {t : HdhomerunTuner} (hnew : new name conf modelStr ret = some t)
    (calls : List FeedCall) :
    (Run.EveryState feedStep FlagTrue t calls ∧ Run.EveryStep feedStep Retries t calls) ↔
      Run.Guarded feedStep StartsStream t calls := by
  obtain ⟨hstream, -, -, -⟩ := new_spec hnew
  have hinit : FlagTrue t := by
    intro hon
    rw [hstream] at hon
    exact absurd hon Bool.false_ne_true
  have hstep : ∀ t call t', FlagTrue t → StartsStream t call → feedStep t call = some t' →
      FlagTrue t' := by
    intro t call t' htrue hok hs
    cases hs
    exact (flagTrue_feedCall_iff htrue call).mpr hok
  have hok : ∀ t call t', FlagTrue t → feedStep t call = some t' → FlagTrue t' →
      StartsStream t call := by
    intro t call t' htrue hs htrue'
    cases hs
    exact (flagTrue_feedCall_iff htrue call).mp htrue'
  have hstates : Run.EveryState feedStep FlagTrue t calls ↔
      Run.Guarded feedStep StartsStream t calls :=
    Run.everyState_iff_guarded hstep (fun _ h => h) hok hinit
  -- a failed start leaves a true flag unset, so the next start tries again
  have hretries : Run.Guarded feedStep StartsStream t calls →
      Run.EveryStep feedStep Retries t calls := by
    apply Run.EveryStep.of_invariant hstep _ hinit
    intro t call t' htrue _ hs
    cases hs
    exact htrue.retries call
  constructor
  · exact fun h => hstates.mp h.1
  · exact fun h => ⟨hstates.mpr h, hretries h⟩

/-- A device that starts its stream or does not. -/
private def streamDevice (streamStart : Int) : DeviceResults :=
  ⟨1, streamStart, 1, 1, 1, none, ⟨100, 100⟩⟩

/-- A section that sets the type to DVB-T. -/
private def dvbtConf : TunerConf := ⟨some "DVB-T", none, none⟩

/-- The tuner the constructor builds from it. -/
private def dvbtTuner : HdhomerunTuner := { fresh "1234ABCD-0" 1 with mType := .dvbt }

/-- The constructor takes the type from the section. -/
private theorem new_dvbtTuner : new "1234ABCD-0" dvbtConf none 1 = some dvbtTuner := rfl

/-- A start that succeeds. -/
theorem streamFlag_true_once :
    Run.EveryState feedStep FlagTrue dvbtTuner [.start 0x100 (streamDevice 1)] ∧
      Run.EveryStep feedStep Retries dvbtTuner [.start 0x100 (streamDevice 1)] := by
  apply (streamFlag_true_iff new_dvbtTuner _).mpr
  intro t _
  exact ⟨fun _ => (by decide : (0 : Int) < 1), trivial⟩

/-- A start that fails: the flag is set over a device that does not stream. -/
theorem failed_start_remembered :
    ¬ ∀ name conf modelStr ret t calls, new name conf modelStr ret = some t →
      Run.EveryState feedStep FlagTrue t calls ∧ Run.EveryStep feedStep Retries t calls := by
  intro hall
  have htrue := (hall _ _ _ _ _ [.start 0x100 (streamDevice 0)] new_dvbtTuner).1.last rfl
  obtain ⟨ret, hlast, hret⟩ := htrue (by decide)
  have hcalls := dvbtTuner.startStreaming_streamCalls 0x100 (streamDevice 0)
  have hfailed : (dvbtTuner.startStreaming 0x100 (streamDevice 0)).streamCalls =
      [.streamStart 0] := hcalls
  have hlast' := hfailed ▸ hlast
  cases hlast'
  exact Int.lt_irrefl 0 hret

/-! ## The destructor -/

/-- The flag is unset and every stream of the device has been stopped. -/
def Stopped (t : HdhomerunTuner) : Prop := t.mStream = false ∧ AllStopped t.device

/-- With the flag unset nothing streams. -/
private def OffStopped (t : HdhomerunTuner) : Prop := t.mStream = false → AllStopped t.device

/-- `StopStreaming` stops the device whenever it clears `m_stream`. -/
private theorem OffStopped.stopStreaming {t : HdhomerunTuner} (h : OffStopped t) (pid : Nat) :
    OffStopped (t.stopStreaming pid) := by
  intro hoff
  rcases t.stopStreaming_device pid with ⟨-, hdevice⟩ | ⟨hstream, hdevice⟩
  · rw [hdevice]
    exact allStopped_append_stop (by simp) (by simp)
  · rw [hdevice]
    exact h (hstream ▸ hoff)

/-- So after every feed call a tuner whose flag is off is stopped. -/
private theorem OffStopped.feedCall {t : HdhomerunTuner} (h : OffStopped t) (call : FeedCall) :
    OffStopped (t.feedCall call) := by
  cases call with
  | start pid d =>
    -- the flag is set whether the stream starts or not
    obtain ⟨-, hstream, -⟩ := t.startStreaming_spec pid d
    intro hoff
    exact absurd (hoff.symm.trans hstream) Bool.false_ne_true
  | stop pid => exact h.stopStreaming pid

/-- The destructor is a `StopStreaming`. -/
private theorem OffStopped.stop {t : HdhomerunTuner} (h : OffStopped t) : OffStopped t.stop :=
  fun hoff => (h hoff).append (by simp)

/-- The destructor stops the stream exactly if no PID is listed: its `StopStreaming(0x2000)`
    takes no PID off the list. -/
private theorem stopped_destroy_iff {t : HdhomerunTuner} (hoff : OffStopped t)
    (hstream : t.mPidFilters ≠ [] → t.mStream = true) (hall : pidAll ∉ t.mPidFilters) :
    Stopped t.destroy ↔ t.mPidFilters = [] := by
  obtain ⟨-, hflag, -⟩ := t.stopStreaming_spec pidAll
  rw [List.erase_of_not_mem hall] at hflag
  constructor
  · rintro ⟨hdestroyed, -⟩
    by_contra hleft
    have hon : t.destroy.mStream = true := by
      show (t.stopStreaming pidAll).mStream = true
      rw [hflag, hstream hleft]
      simpa using hleft
    exact Bool.false_ne_true (hdestroyed.symm.trans hon)
  · intro hnil
    have hdestroyed : t.destroy.mStream = false := by
      show (t.stopStreaming pidAll).mStream = false
      rw [hflag, hnil]
      simp
    exact ⟨hdestroyed, hoff.stopStreaming pidAll hdestroyed⟩

/-- After any calls the destructor stops the stream, with or without `ThreadPthread::stop`
    before it, exactly if for no PID the latest call that concerns it is a start of it. -/
theorem destroy_stopped_iff {name : String} {conf : TunerConf} {modelStr : Option String}
    {ret : Int} {t : HdhomerunTuner} (hnew : new name conf modelStr ret = some t)
    (calls : List FeedCall) :
    (Stopped (t.feedCalls calls).destroy ∧ Stopped (t.feedCalls calls).stop.destroy) ↔
      ∀ pid, pid ≠ pidAll → ¬ FeedCall.LatestStarts calls pid := by
  obtain ⟨hstream, hlist, -, hdevice⟩ := new_spec hnew
  have hhist := FilterHistory.of_new hstream hlist calls
  have hinit : OffStopped t := by
    intro _ r after hsuffix
    rw [hdevice] at hsuffix
    have hmem := hsuffix.subset List.mem_cons_self
    simp at hmem
  -- an unset flag means a stopped stream, and a listed PID keeps the flag set
  have hoff : OffStopped (t.feedCalls calls) := by
    apply Run.exec_keeps _ hinit (exec_feedStep t calls)
    intro t call t' h hs
    cases hs
    exact h.feedCall call
  have hall : pidAll ∉ (t.feedCalls calls).mPidFilters := fun h => ((hhist.listed pidAll).mp h).1 rfl
  have hon : (t.feedCalls calls).mPidFilters ≠ [] → (t.feedCalls calls).mStream = true :=
    fun hleft => hhist.stream.mpr (.inl hleft)
  have hdestroy := stopped_destroy_iff hoff hon hall
  have hstop : Stopped (t.feedCalls calls).stop.destroy ↔ (t.feedCalls calls).mPidFilters = [] :=
    stopped_destroy_iff hoff.stop hon hall
  rw [hdestroy, hstop, and_self, List.eq_nil_iff_forall_not_mem]
  simp only [hhist.listed, not_and]

/-- One PID is started and stopped before the destructor runs. -/
theorem destroy_stopped_one :
    Stopped (dvbtTuner.feedCalls [.start 0x100 (streamDevice 1), .stop 0x100]).destroy ∧
      Stopped (dvbtTuner.feedCalls [.start 0x100 (streamDevice 1), .stop 0x100]).stop.destroy := by
  apply (destroy_stopped_iff new_dvbtTuner _).mpr
  intro pid hall (hlatest : FeedCall.LatestStarts ([.start 0x100 _] ++ [.stop 0x100]) pid)
  obtain ⟨hne, hstart⟩ := FeedCall.latestStarts_stop.mp hlatest
  have hstart' : FeedCall.LatestStarts ([] ++ [.start 0x100 _]) pid := hstart
  rcases (FeedCall.latestStarts_start hall).mp hstart' with heq | ⟨-, hnil⟩
  · exact hne heq
  · exact FeedCall.not_latestStarts_nil pid hnil

/-- One PID is started and not stopped: the destructor leaves it streaming. -/
theorem destroy_leaves_stream :
    ¬ ∀ name conf modelStr ret t calls, new name conf modelStr ret = some t →
      Stopped (t.feedCalls calls).destroy ∧ Stopped (t.feedCalls calls).stop.destroy := by
  intro hall
  have hstopped := (hall _ _ _ _ _ [.start 0x100 (streamDevice 1)] new_dvbtTuner).1
  exact absurd hstopped.1 (by decide)

end HdhomerunTuner

end DvbHdhomerun
