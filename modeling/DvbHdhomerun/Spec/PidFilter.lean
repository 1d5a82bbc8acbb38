import DvbHdhomerun.ForStd.Run
import DvbHdhomerun.Spec.FilterString

/-!
# Feeds and the PID filter

The demux starts and stops feeds, several of them perhaps for one PID, and PID 0x2000 asks
for the whole transport stream. The tuner keeps a list of PIDs without counts, and an empty
list stands both for "nothing wanted" and for "everything wanted". `feeds_served_iff` says
which sequences of starts and stops it serves.
-/

namespace DvbHdhomerun

namespace HdhomerunTuner

/-- The string last given to `hdhomerun_device_set_tuner_filter`. -/
def lastFilter (t : HdhomerunTuner) : Option String :=
  t.device.reverse.findSome? fun
    | .setTunerFilter filter _ => some filter
    | _ => none

/-- Calls that set no filter leave the last one in force. -/
theorem lastFilter_log {t : HdhomerunTuner} {calls : List DeviceCall}
    (h : ∀ filter ret, DeviceCall.setTunerFilter filter ret ∉ calls) :
    (t.log calls).lastFilter = t.lastFilter := by
  have hnone : (calls.reverse.findSome? fun
      | DeviceCall.setTunerFilter filter _ => some filter
      | _ => none) = none := by
    refine List.findSome?_eq_none_iff.mpr fun call hcall => ?_
    cases call with
    | setTunerFilter filter ret => exact absurd (List.mem_reverse.mp hcall) (h filter ret)
    | _ => rfl
  simp only [lastFilter, log, List.reverse_append, List.findSome?_append, hnone, Option.none_or]

/-- Device calls leave `m_stream` as it is. -/
@[simp] theorem mStream_log (t : HdhomerunTuner) (calls : List DeviceCall) :
    (t.log calls).mStream = t.mStream := rfl

/-- The filter that is set last is the last filter. -/
theorem lastFilter_log_setTunerFilter (t : HdhomerunTuner) (filter : String) (ret : Int) :
    (t.log [.setTunerFilter filter ret]).lastFilter = some filter := by
  simp [lastFilter, log]

/-! ## Starts and stops -/

/-- Any PID is added, and 0x2000 clears the list. -/
theorem mem_addPidToFilter {t : HdhomerunTuner} {pid q : Nat} :
    q ∈ (t.addPidToFilter pid).mPidFilters ↔
      pid ≠ pidAll ∧ (q ∈ t.mPidFilters ∨ q = pid) := by
  unfold addPidToFilter
  split
  · rename_i h
    simp [h]
  · rename_i h
    split
    · rename_i hmem
      constructor
      · exact fun hq => ⟨h, .inl hq⟩
      · rintro ⟨-, hq | rfl⟩
        · exact hq
        · exact hmem
    · simp [h]

/-- A PID that is listed is not added again. -/
theorem nodup_addPidToFilter {t : HdhomerunTuner} (pid : Nat) (h : t.mPidFilters.Nodup) :
    (t.addPidToFilter pid).mPidFilters.Nodup := by
  unfold addPidToFilter
  split
  · exact List.nodup_nil
  · split
    · exact h
    · rename_i hmem
      show (t.mPidFilters ++ [pid]).Nodup
      rw [← List.concat_eq_append]
      exact h.concat hmem

/-- After a start the filter in force is the one for the new list, and the stream is on. -/
theorem startStreaming_spec (t : HdhomerunTuner) (pid : Nat) (d : DeviceResults) :
    (t.startStreaming pid d).mPidFilters = (t.addPidToFilter pid).mPidFilters ∧
      (t.startStreaming pid d).mStream = true ∧
      (t.startStreaming pid d).lastFilter = some (t.addPidToFilter pid).getStrFromPidFilter := by
  unfold startStreaming
  simp only
  split
  · -- the stream is started, which sets no filter
    refine ⟨rfl, rfl, ?_⟩
    rw [lastFilter_log (by simp)]
    show (((t.addPidToFilter pid).log _).log _).lastFilter = _
    rw [lastFilter_log (by simp), lastFilter_log_setTunerFilter]
  · rename_i hstream
    refine ⟨rfl, by simpa using hstream, ?_⟩
    rw [lastFilter_log (by simp), lastFilter_log_setTunerFilter]

/-- A stop leaves the filter in force; the stream goes on exactly if a PID is left. -/
theorem stopStreaming_spec (t : HdhomerunTuner) (pid : Nat) :
    (t.stopStreaming pid).mPidFilters = t.mPidFilters.erase pid ∧
      (t.stopStreaming pid).mStream = (t.mStream && t.mPidFilters.erase pid ≠ []) ∧
      (t.stopStreaming pid).lastFilter = t.lastFilter := by
  unfold stopStreaming
  simp only
  split <;> rename_i hleft
  · -- the call returns at once
    refine ⟨rfl, ?_, rfl⟩
    have hleft' : t.mPidFilters.erase pid ≠ [] := hleft
    simp [hleft', removePidFromFilter]
  · have hnil : t.mPidFilters.erase pid = [] := not_not.mp hleft
    split
    · refine ⟨rfl, by simp [hnil], ?_⟩
      show ((t.removePidFromFilter pid).log _).lastFilter = _
      rw [lastFilter_log (by simp)]
      rfl
    · rename_i hstream
      refine ⟨rfl, ?_, rfl⟩
      simpa [hnil] using hstream

end HdhomerunTuner

/-! ## Feeds -/

/-- A tuner and the PIDs of the feeds that have been started on it and not stopped. -/
structure Feeds where
  tuner : HdhomerunTuner
  active : List Nat

/-- What the demux asks of the tuner. -/
inductive FeedCall where
  | start (pid : Nat) (d : DeviceResults)
  | stop (pid : Nat)

namespace Feeds

/-- Only a feed that has been started is stopped. -/
def step (s : Feeds) : FeedCall → Option Feeds
  | .start pid d => some ⟨s.tuner.startStreaming pid d, pid :: s.active⟩
  | .stop pid =>
    if pid ∈ s.active then some ⟨s.tuner.stopStreaming pid, s.active.erase pid⟩ else none

/-- A tuner fresh from its constructor. -/
def init (name : String) (ret : Int) : Feeds := ⟨.fresh name ret, []⟩

/-- The filter admits everything a feed of `pid` wants. -/
def Admitted (filter : String) (pid : Nat) : Prop :=
  if pid = pidAll then ∀ q ≤ 0x1FFF, filterAdmits filter q = true
  else filterAdmits filter pid = true

/-- Every active feed gets its data, and nothing streams without a feed. -/
structure Served (s : Feeds) : Prop where
  streams : s.active ≠ [] → s.tuner.mStream = true ∧
    ∃ filter, s.tuner.lastFilter = some filter ∧ ∀ pid ∈ s.active, Admitted filter pid
  stopped : s.active = [] → s.tuner.mStream = false

/-- The calls that leave every active feed served: a PID is started while no feed of the
    whole stream is active and every other active PID is still listed; the whole stream is
    started while no active PID lies above it; a stop leaves a PID in the list, or no feed. -/
def Keeps (s : Feeds) : FeedCall → Prop
  | .start pid _ =>
    if pid = pidAll then ∀ q ∈ s.active, q ≤ pidAll
    else pidAll ∉ s.active ∧ ∀ q ∈ s.active, q ≠ pid → q ∈ s.tuner.mPidFilters
  | .stop pid => s.tuner.mPidFilters.erase pid ≠ [] ∨ s.active.erase pid = []

/-! ## The list and the feeds -/

/-- What holds while every call keeps to the condition. -/
private structure ListInv (s : Feeds) : Prop where
  served : Served s
  nodup : s.tuner.mPidFilters.Nodup
  /-- a listed PID belongs to some feed -/
  listed : ∀ q ∈ s.tuner.mPidFilters, q ∈ s.active ∧ q ≠ pidAll
  /-- with a feed of the whole stream the list is empty -/
  all : pidAll ∈ s.active → s.tuner.mPidFilters = []

/-- A tuner with no feeds has an empty list. -/
private theorem ListInv.init (name : String) (ret : Int) : ListInv (init name ret) where
  served := ⟨fun h => absurd rfl h, fun _ => rfl⟩
  nodup := List.nodup_nil
  listed := fun _ h => (nomatch h)
  all := fun h => (nomatch h)

/-- What the filter of a list admits of the wishes of a feed. -/
private theorem admitted_iff {t : HdhomerunTuner} {pid : Nat} :
    Admitted t.getStrFromPidFilter pid ↔
      if t.mPidFilters = [] then pid ≤ pidAll
      else if pid = pidAll then ∀ q ≤ 0x1FFF, q ∈ t.mPidFilters else pid ∈ t.mPidFilters := by
  have hall : pidAll = 0x1FFF + 1 := rfl
  unfold Admitted
  simp only [HdhomerunTuner.admits_getStrFromPidFilter]
  split <;> split <;> rename_i hpid hnil
  · simp [hpid]
  · rfl
  · omega
  · rfl

/-- A start leaves every active feed served exactly if it is one of those that `Keeps` allows. -/
private theorem served_start_iff {s : Feeds} (hinv : ListInv s) (pid : Nat) (d : DeviceResults) :
    Served ⟨s.tuner.startStreaming pid d, pid :: s.active⟩ ↔ Keeps s (.start pid d) := by
  obtain ⟨-, hstream, hfilter⟩ := s.tuner.startStreaming_spec pid d
  have hserved : Served ⟨s.tuner.startStreaming pid d, pid :: s.active⟩ ↔
      ∀ q ∈ pid :: s.active, Admitted (s.tuner.addPidToFilter pid).getStrFromPidFilter q := by
    constructor
    · intro h
      obtain ⟨-, filter, hlast, hadmits⟩ := h.streams (List.cons_ne_nil _ _)
      cases hfilter.symm.trans hlast
      exact hadmits
    · intro h
      exact ⟨fun _ => ⟨hstream, _, hfilter, h⟩, fun hnil => absurd hnil (List.cons_ne_nil _ _)⟩
  have hmem : ∀ q, q ∈ (s.tuner.addPidToFilter pid).mPidFilters ↔
      pid ≠ pidAll ∧ (q ∈ s.tuner.mPidFilters ∨ q = pid) :=
    fun q => HdhomerunTuner.mem_addPidToFilter
  rw [hserved]
  simp only [admitted_iff, Keeps]
  by_cases hpid : pid = pidAll
  · -- the list is cleared, everything up to 0x1FFF passes
    have hnil : (s.tuner.addPidToFilter pid).mPidFilters = [] := by
      rw [List.eq_nil_iff_forall_not_mem]
      intro q hq
      exact ((hmem q).mp hq).1 hpid
    simp only [hnil, if_true, if_pos hpid, List.forall_mem_cons]
    exact and_iff_right (Nat.le_of_eq hpid)
  · -- exactly the PIDs of the list pass
    have hne : (s.tuner.addPidToFilter pid).mPidFilters ≠ [] :=
      List.ne_nil_of_mem ((hmem pid).mpr ⟨hpid, .inr rfl⟩)
    simp only [hne, if_false, if_neg hpid, hmem]
    constructor
    · intro h
      have hnotall : pidAll ∉ s.active := by
        intro hall
        -- two PIDs pass at most if the list was empty before
        have hadm := h pidAll (List.mem_cons_of_mem _ hall)
        rw [if_pos rfl, hinv.all hall] at hadm
        have h0 := (hadm 0 (by decide)).2
        have h1 := (hadm 1 (by decide)).2
        simp only [List.not_mem_nil, false_or] at h0 h1
        omega
      refine ⟨hnotall, fun q hq hqpid => ?_⟩
      have hqall : q ≠ pidAll := fun he => hnotall (he ▸ hq)
      have hadm := h q (List.mem_cons_of_mem _ hq)
      rw [if_neg hqall] at hadm
      exact hadm.2.resolve_right hqpid
    · rintro ⟨hnotall, hlisted⟩ q hq
      rcases List.mem_cons.mp hq with rfl | hq
      · rw [if_neg hpid]
        exact ⟨hpid, .inr rfl⟩
      · have hqall : q ≠ pidAll := fun he => hnotall (he ▸ hq)
        rw [if_neg hqall]
        by_cases hqpid : q = pid
        · exact ⟨hpid, .inr hqpid⟩
        · exact ⟨hpid, .inl (hlisted q hq hqpid)⟩

/-- A start that keeps to the condition. -/
private theorem ListInv.start {s : Feeds} (hinv : ListInv s) {pid : Nat} {d : DeviceResults}
    (hok : Keeps s (.start pid d)) : ListInv ⟨s.tuner.startStreaming pid d, pid :: s.active⟩ := by
  obtain ⟨hlist, -, -⟩ := s.tuner.startStreaming_spec pid d
  refine ⟨(served_start_iff hinv pid d).mpr hok, ?_, ?_, ?_⟩
  · rw [hlist]
    exact HdhomerunTuner.nodup_addPidToFilter pid hinv.nodup
  · intro q hq
    rw [hlist, HdhomerunTuner.mem_addPidToFilter] at hq
    obtain ⟨hpid, hold | rfl⟩ := hq
    · exact ⟨List.mem_cons_of_mem _ (hinv.listed q hold).1, (hinv.listed q hold).2⟩
    · exact ⟨List.mem_cons_self, hpid⟩
  · -- a feed of the whole stream can only be the new one, and that clears the list
    intro hall
    rw [hlist, List.eq_nil_iff_forall_not_mem]
    intro q hq
    have hpid := (HdhomerunTuner.mem_addPidToFilter.mp hq).1
    simp only [Keeps, if_neg hpid] at hok
    rcases List.mem_cons.mp hall with heq | hmem
    · exact hpid heq.symm
    · exact hok.1 hmem

/-- A stop leaves every active feed served exactly if a PID is left in the list, or no feed. -/
private theorem served_stop_iff {s : Feeds} (hinv : ListInv s) {pid : Nat} (hpid : pid ∈ s.active) :
    Served ⟨s.tuner.stopStreaming pid, s.active.erase pid⟩ ↔ Keeps s (.stop pid) := by
  obtain ⟨-, hstream, hfilter⟩ := s.tuner.stopStreaming_spec pid
  obtain ⟨hon, filter, hlast, hadmits⟩ := hinv.served.streams (List.ne_nil_of_mem hpid)
  rw [hon, Bool.true_and] at hstream
  simp only [Keeps]
  constructor
  · intro h
    by_cases hnil : s.tuner.mPidFilters.erase pid = []
    · -- the stream is off, so no feed may be left
      rw [or_iff_right (not_not.mpr hnil)]
      by_contra hleft
      have hstream' := (h.streams hleft).1
      simp only [hstream, hnil] at hstream'
      simp at hstream'
    · exact .inl hnil
  · intro hkeep
    refine ⟨fun hleft => ?_, fun hnil => ?_⟩
    · have hne := hkeep.resolve_right hleft
      refine ⟨by simpa [hstream] using hne, filter, by rw [hfilter, hlast], fun q hq => ?_⟩
      exact hadmits q (List.mem_of_mem_erase hq)
    · -- a PID left in the list would belong to a feed
      simp only [hstream, decide_eq_false_iff_not, not_not]
      rw [List.eq_nil_iff_forall_not_mem]
      intro q hq
      obtain ⟨hqpid, hqlist⟩ := hinv.nodup.mem_erase_iff.mp hq
      have hqact : q ∈ s.active.erase pid :=
        (List.mem_erase_of_ne hqpid).mpr (hinv.listed q hqlist).1
      exact List.ne_nil_of_mem hqact hnil

/-- A stop of an active feed that keeps to the condition. -/
private theorem ListInv.stop {s : Feeds} (hinv : ListInv s) {pid : Nat} (hpid : pid ∈ s.active)
    (hok : Keeps s (.stop pid)) : ListInv ⟨s.tuner.stopStreaming pid, s.active.erase pid⟩ := by
  obtain ⟨hlist, -, -⟩ := s.tuner.stopStreaming_spec pid
  refine ⟨(served_stop_iff hinv hpid).mpr hok, ?_, ?_, ?_⟩
  · rw [hlist]
    exact hinv.nodup.erase pid
  · intro q hq
    rw [hlist, hinv.nodup.mem_erase_iff] at hq
    obtain ⟨hqpid, hqlist⟩ := hq
    obtain ⟨hact, hall⟩ := hinv.listed q hqlist
    exact ⟨(List.mem_erase_of_ne hqpid).mpr hact, hall⟩
  · intro hall
    rw [hlist, hinv.all (List.mem_of_mem_erase hall), List.erase_nil]

/-! ## Runs -/

/-- Every active feed is served after every call, and nothing streams without a feed,
    exactly if every call is one of those that `Keeps` allows. -/
theorem feeds_served_iff (name : String) (ret : Int) (calls : List FeedCall) :
    Run.EveryState step Served (init name ret) calls ↔
      Run.Guarded step Keeps (init name ret) calls := by
  have hstep : ∀ s call s', ListInv s → Keeps s call → step s call = some s' → ListInv s' := by
    intro s call s' hinv hok hs
    cases call with
    | start pid d =>
      cases hs
      exact hinv.start hok
    | stop pid =>
      simp only [step] at hs
      split at hs <;> rename_i hpid
      · cases hs
        exact hinv.stop hpid hok
      · exact nomatch hs
  -- a call that leaves the feeds served has met the condition
  have hkeeps : ∀ s call s', ListInv s → step s call = some s' → Served s' → Keeps s call := by
    intro s call s' hinv hs hserved
    cases call with
    | start pid d =>
      cases hs
      exact (served_start_iff hinv pid d).mp hserved
    | stop pid =>
      simp only [step] at hs
      split at hs <;> rename_i hpid
      · cases hs
        exact (served_stop_iff hinv hpid).mp hserved
      · exact nomatch hs
  exact Run.everyState_iff_guarded hstep (fun _ h => h.served) hkeeps (ListInv.init name ret)

/-- Two feeds of one PID, and one of them is stopped: the stream ends under the other. -/
theorem second_feed_starved :
    ¬ ∀ name ret calls, Run.EveryState step Served (init name ret) calls := by
  intro hall
  let d : DeviceResults := ⟨1, 1, 1, 1, 1, none, ⟨100, 100⟩⟩
  have hserved := (hall "1234ABCD-0" 1 [.start 0x100 d, .start 0x100 d, .stop 0x100]).last rfl
  have hstream := (hserved.streams (by decide)).1
  exact absurd hstream (by decide)

end Feeds

end DvbHdhomerun
