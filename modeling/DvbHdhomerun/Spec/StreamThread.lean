import DvbHdhomerun.User.Thread

/-!
# One streaming thread at a time

`m_running` is set by the new thread itself, so that a thread that has not begun yet looks
like one that has ended. As long as the caller never takes the one for the other, there is
at most one streaming thread, and none runs on after the caller has seen its end.
-/

namespace DvbHdhomerun

namespace TunerThreads

/-- At most one thread is inside the loop of `run`. -/
def AtMostOneLoop (s : TunerThreads) : Prop :=
  ∀ (i j : Nat) (p q : ThreadPc), s.threads[i]? = some p → s.threads[j]? = some q →
    p.inLoop = true → q.inLoop = true → i = j

/-- Threads created before the caller last waited for the end do not execute `run`. -/
def StoppedStay (s : TunerThreads) : Prop :=
  ∀ (i : Nat) (p : ThreadPc), i < s.stopped → s.threads[i]? = some p → p.inRun = false

/-- The caller finds `m_running` unset only when every thread created so far has set it. -/
def LooksAfterStart (s : TunerThreads) : Action → Prop
  | .caller _ =>
    match s.caller with
    | .waitFinished | .waitStop => s.mRunning = false → ThreadPc.created ∉ s.threads
    | _ => True
  | _ => True

instance (s : TunerThreads) (a : Action) : Decidable (LooksAfterStart s a) := by
  cases a with
  | caller created =>
    unfold LooksAfterStart
    cases s.caller <;> infer_instance
  | _ => exact inferInstanceAs (Decidable True)

/-! ## The calls -/

/-- A start that finds the stream off does to the tuner what `HdhomerunTuner.startStreaming`
    says, and creates a thread. -/
theorem exec_startStreaming {s : TunerThreads} (pid : Nat) (d : DeviceResults)
    (hidle : s.caller = .idle) (hoff : s.tuner.mStream = false) :
    Run.exec step s [.startStreaming pid d, .caller true, .caller true, .caller true] =
      some { s with
        tuner := s.tuner.startStreaming pid d
        threads := s.threads ++ [.created] } := by
  have hoff' : (s.tuner.addPidToFilter pid).mStream = false := by
    rw [HdhomerunTuner.mStream_addPidToFilter, hoff]
  simp [Run.exec, step, hidle, enterStart, callerStep, HdhomerunTuner.log, hoff', log, setStream,
    HdhomerunTuner.startStreaming]

/-- A stop that leaves no PID, and finds the thread ended when it looks, does to the tuner
    what `HdhomerunTuner.stopStreaming` says. -/
theorem exec_stopStreaming {s : TunerThreads} (pid : Nat) (hidle : s.caller = .idle)
    (hon : s.tuner.mStream = true) (hlast : s.tuner.mPidFilters.erase pid = [])
    (hrunning : s.mRunning = false) :
    Run.exec step s [.stopStreaming pid, .caller true, .caller true, .caller true] =
      some { s with
        tuner := s.tuner.stopStreaming pid
        stopped := s.threads.length } := by
  simp [Run.exec, step, hidle, enterStop, HdhomerunTuner.removePidFromFilter, hlast, callerStep,
    hon, hrunning, setStream, log, returnStopped, HdhomerunTuner.log, HdhomerunTuner.stopStreaming]

/-! ## The invariant -/

/-- Every thread that was created has finished. -/
def AllFinished (s : TunerThreads) : Prop := ∀ p ∈ s.threads, p = .finished

/-- The stream is off and nobody waits for a thread, or a thread is about to be created. -/
def Quiet (s : TunerThreads) : Prop :=
  s.caller = .createThread ∨ s.tuner.mStream = false ∧ s.caller ≠ .waitFinished

/-- What holds while the caller looks only after the thread has begun. -/
structure ThreadInv (s : TunerThreads) : Prop where
  /-- at most one thread has not finished -/
  single : ∀ (i j : Nat) (p q : ThreadPc), s.threads[i]? = some p → s.threads[j]? = some q →
    p ≠ .finished → q ≠ .finished → i = j
  running : ∀ p ∈ s.threads, p ≠ .created → p ≠ .finished → s.mRunning = true
  quiet : Quiet s → AllFinished s
  starting : ∀ d, s.caller = .startStream d → s.tuner.mStream = false
  creating : s.caller = .createThread → s.tuner.mStream = true
  stopped : ∀ (i : Nat) (p : ThreadPc), i < s.stopped → s.threads[i]? = some p → p = .finished
  stopped_le : s.stopped ≤ s.threads.length

/-- There is no thread yet. -/
theorem ThreadInv.init (t : HdhomerunTuner) : ThreadInv (init t) where
  single := fun _ _ _ _ h => (nomatch h)
  running := fun _ h => (nomatch h)
  quiet := fun _ _ h => (nomatch h)
  starting := fun _ _ => rfl
  creating := fun h => (nomatch h)
  stopped := fun _ _ h => (nomatch h)
  stopped_le := Nat.le_refl 0

/-- A caller's step that does not touch the threads. -/
private theorem ThreadInv.move {s s' : TunerThreads} (hinv : ThreadInv s)
    (hthreads : s'.threads = s.threads) (hrunning : s'.mRunning = s.mRunning)
    (hstopped : s'.stopped = s.stopped) (hquiet : Quiet s' → Quiet s)
    (hstarting : ∀ d, s'.caller = .startStream d → s'.tuner.mStream = false)
    (hcreating : s'.caller = .createThread → s'.tuner.mStream = true) : ThreadInv s' := by
  refine ⟨?_, ?_, fun h => ?_, hstarting, hcreating, ?_, ?_⟩
  · rw [hthreads]
    exact hinv.single
  · rw [hthreads, hrunning]
    exact hinv.running
  · unfold AllFinished
    rw [hthreads]
    exact hinv.quiet (hquiet h)
  · rw [hthreads, hstopped]
    exact hinv.stopped
  · rw [hthreads, hstopped]
    exact hinv.stopped_le

/-- A caller's step to any place but the one before `m_stream = true` and the one before
    `pthread_create`. -/
private theorem ThreadInv.pass {s s' : TunerThreads} (hinv : ThreadInv s)
    (hthreads : s'.threads = s.threads) (hrunning : s'.mRunning = s.mRunning)
    (hstopped : s'.stopped = s.stopped)
    (hquiet : s'.tuner.mStream = false → s'.caller ≠ .waitFinished → Quiet s)
    (hstart : ∀ d, s'.caller ≠ .startStream d) (hcreate : s'.caller ≠ .createThread) :
    ThreadInv s' := by
  refine hinv.move hthreads hrunning hstopped (fun h => ?_) (fun d h => absurd h (hstart d))
    (fun h => absurd h hcreate)
  rcases h with h | ⟨hoff, hwait⟩
  · exact absurd h hcreate
  · exact hquiet hoff hwait

/-- The caller returns from waiting: it has looked after every thread had started. -/
private theorem ThreadInv.returned {s s' : TunerThreads} (hinv : ThreadInv s)
    (hlooks : ThreadPc.created ∉ s.threads) (hrunning : s.mRunning = false)
    (hthreads : s'.threads = s.threads) (hrunning' : s'.mRunning = s.mRunning)
    (hidle : s'.caller = .idle) (hstopped : s'.stopped = s.threads.length) : ThreadInv s' := by
  have hfinished : AllFinished s := by
    -- a thread that has begun and not ended would keep `m_running` set
    intro p hp
    by_contra hne
    have hcreated : p ≠ .created := fun h => hlooks (h ▸ hp)
    have hrun := hinv.running p hp hcreated hne
    rw [hrunning] at hrun
    exact nomatch hrun
  refine ⟨?_, ?_, fun _ => ?_, fun d hd => ?_, fun hc => ?_, fun i p _ hp => ?_, ?_⟩
  · rw [hthreads]
    exact hinv.single
  · rw [hthreads, hrunning']
    exact hinv.running
  · unfold AllFinished
    rw [hthreads]
    exact hfinished
  · rw [hidle] at hd
    exact nomatch hd
  · rw [hidle] at hc
    exact nomatch hc
  · rw [hthreads] at hp
    exact hfinished p (List.mem_of_getElem? hp)
  · rw [hthreads, hstopped]

/-- A thread is created when all others have finished. -/
private theorem ThreadInv.create {s s' : TunerThreads} (hinv : ThreadInv s)
    (hcaller : s.caller = .createThread) (hthreads : s'.threads = s.threads ++ [.created])
    (hstream : s'.tuner.mStream = s.tuner.mStream) (hidle : s'.caller = .idle)
    (hstopped : s'.stopped = s.stopped) : ThreadInv s' := by
  -- the stream was off when the caller decided to create it
  have hfinished := hinv.quiet (.inl hcaller)
  have hlast : ∀ (i : Nat) (p : ThreadPc), s'.threads[i]? = some p → p ≠ .finished →
      i = s.threads.length ∧ p = .created := by
    intro i p hp hne
    rw [hthreads] at hp
    by_cases hi : i < s.threads.length
    · rw [List.getElem?_append_left hi] at hp
      exact absurd (hfinished p (List.mem_of_getElem? hp)) hne
    · rw [List.getElem?_append_right (Nat.not_lt.mp hi), List.getElem?_singleton] at hp
      split at hp
      · cases hp
        exact ⟨by omega, rfl⟩
      · exact nomatch hp
  refine ⟨?_, ?_, fun hq => ?_, fun d hd => ?_, fun hc => ?_, fun i p hi hp => ?_, ?_⟩
  · intro i j p q hp hq hpne hqne
    rw [(hlast i p hp hpne).1, (hlast j q hq hqne).1]
  · intro p hp hcreated hne
    obtain ⟨i, hi⟩ := List.mem_iff_getElem?.mp hp
    exact absurd (hlast i p hi hne).2 hcreated
  · -- the stream is on
    rcases hq with hc | ⟨hoff, -⟩
    · rw [hidle] at hc
      exact nomatch hc
    · rw [hstream, hinv.creating hcaller] at hoff
      exact nomatch hoff
  · rw [hidle] at hd
    exact nomatch hd
  · rw [hidle] at hc
    exact nomatch hc
  · have hle := hinv.stopped_le
    rw [hstopped] at hi
    rw [hthreads, List.getElem?_append_left (by omega)] at hp
    exact hinv.stopped i p hi hp
  · have hle := hinv.stopped_le
    rw [hthreads, hstopped, List.length_append]
    omega

/-- A thread goes on from `p` to `p'`. -/
private theorem ThreadInv.thread {s : TunerThreads} (hinv : ThreadInv s) {i : Nat} {p : ThreadPc}
    (p' : ThreadPc) (r : Bool) (hi : s.threads[i]? = some p) (hp : p ≠ .finished)
    (hcreated : p' ≠ .created) (hrunning : p' ≠ .finished → r = true) :
    ThreadInv { s.setThread i p' with mRunning := r } := by
  have hget : ∀ (j : Nat) (q : ThreadPc), (s.threads.set i p')[j]? = some q → j = i ∧ q = p' ∨
      j ≠ i ∧ s.threads[j]? = some q := by
    intro j q hq
    by_cases hj : j = i
    · subst hj
      rw [List.getElem?_set_self (List.getElem?_eq_some_iff.mp hi).1] at hq
      cases hq
      exact .inl ⟨rfl, rfl⟩
    · rw [List.getElem?_set_ne (Ne.symm hj)] at hq
      exact .inr ⟨hj, hq⟩
  -- only thread `i` has not finished
  have honly : ∀ (j : Nat) (q : ThreadPc), (s.threads.set i p')[j]? = some q → q ≠ .finished →
      j = i ∧ q = p' := by
    intro j q hq hne
    rcases hget j q hq with h | ⟨hj, hold⟩
    · exact h
    · exact absurd (hinv.single j i q p hold hi hne hp) hj
  have hnotquiet : ¬ Quiet s := fun h => hp (hinv.quiet h p (List.mem_of_getElem? hi))
  refine ⟨?_, ?_, fun h => absurd h hnotquiet, hinv.starting, hinv.creating, ?_, ?_⟩
  · intro j k q q' hq hq' hne hne'
    rw [(honly j q hq hne).1, (honly k q' hq' hne').1]
  · intro q hq hqcreated hne
    obtain ⟨j, hj⟩ := List.mem_iff_getElem?.mp hq
    obtain ⟨-, rfl⟩ := honly j q hj hne
    exact hrunning hne
  · intro j q hj hq
    rcases hget j q hq with ⟨rfl, -⟩ | ⟨-, hold⟩
    · exact absurd (hinv.stopped j p hj hi) hp
    · exact hinv.stopped j q hj hold
  · show s.stopped ≤ (s.threads.set i p').length
    rw [List.length_set]
    exact hinv.stopped_le

/-- A step of a thread. -/
private theorem ThreadInv.threadStep {s s' : TunerThreads} (hinv : ThreadInv s) {i : Nat}
    (hs : s.threadStep i = some s') : ThreadInv s' := by
  -- a thread between its first and its last statement keeps `m_running` set
  have hgo : ∀ p p', s.threads[i]? = some p → p ≠ .created → p ≠ .finished → p' ≠ .created →
      ThreadInv (s.setThread i p') := fun p p' hi hcreated hne hcreated' =>
    hinv.thread p' s.mRunning hi hne hcreated' fun _ =>
      hinv.running p (List.mem_of_getElem? hi) hcreated hne
  unfold TunerThreads.threadStep at hs
  split at hs <;> rename_i hi <;> cases hs
  · exact hinv.thread .opening true hi (by decide) (by decide) fun _ => rfl
  · exact hgo _ _ hi (by decide) (by decide) (by decide)
  · exact hgo _ _ hi (by decide) (by decide) (by split <;> decide)
  · exact hgo _ _ hi (by decide) (by decide) (by split <;> decide)
  · exact hgo _ _ hi (by decide) (by decide) (by decide)
  · exact hgo _ _ hi (by decide) (by decide) (by decide)
  · exact hinv.thread .finished false hi (by decide) (by decide) fun h => absurd rfl h

/-- A step of the caller. -/
private theorem ThreadInv.callerStep {s s' : TunerThreads} (hinv : ThreadInv s) {created : Bool}
    (hlooks : LooksAfterStart s (.caller created)) (hs : s.callerStep created = some s') :
    ThreadInv s' := by
  unfold LooksAfterStart at hlooks
  unfold TunerThreads.callerStep at hs
  split at hs <;> rename_i hcaller
  · exact nomatch hs
  · -- startTest
    split at hs <;> rename_i hstream <;> cases hs
    · have hoff : s.tuner.mStream = false := by simpa using hstream
      refine hinv.move rfl rfl rfl (fun _ => .inr ⟨hoff, ?_⟩) (fun _ _ => hoff) (fun h => ?_)
      · simp [hcaller]
      · exact nomatch h
    · have hon : s.tuner.mStream = true := by simpa using hstream
      refine hinv.pass rfl rfl rfl (fun hoff _ => ?_) (fun _ => by simp) (by simp)
      exact absurd (hon.symm.trans hoff) (by decide)
  · -- startStream
    cases hs
    refine hinv.move rfl rfl rfl (fun _ => .inr ⟨hinv.starting _ hcaller, ?_⟩)
      (fun _ h => (nomatch h)) (fun _ => rfl)
    simp [hcaller]
  · -- createThread
    cases hs
    cases created with
    | true => exact hinv.create hcaller rfl rfl rfl rfl
    | false => exact hinv.pass rfl rfl rfl (fun _ _ => .inl hcaller) (fun _ => by simp) (by simp)
  · -- stopTest
    split at hs <;> rename_i hstream <;> cases hs
    · refine hinv.pass rfl rfl rfl (fun hoff _ => ?_) (fun _ => by simp) (by simp)
      exact absurd (hstream.symm.trans hoff) (by decide)
    · refine hinv.pass rfl rfl rfl (fun hoff _ => ?_) (fun _ => by simp) (by simp)
      exact .inr ⟨hoff, by simp [hcaller]⟩
  · -- clearStream
    cases hs
    exact hinv.pass rfl rfl rfl (fun _ hwait => absurd rfl hwait) (fun _ => by simp) (by simp)
  · -- waitFinished
    split at hs <;> rename_i hrunning <;> cases hs
    · exact hinv
    · have hrunning' : s.mRunning = false := by simpa using hrunning
      rw [hcaller] at hlooks
      exact hinv.returned (hlooks hrunning') hrunning' rfl rfl rfl rfl
  · -- setStop
    cases hs
    refine hinv.pass rfl rfl rfl (fun hoff _ => ?_) (fun _ => by simp) (by simp)
    exact .inr ⟨hoff, by simp [hcaller]⟩
  · -- waitStop
    split at hs <;> rename_i hrunning <;> cases hs
    · exact hinv
    · have hrunning' : s.mRunning = false := by simpa using hrunning
      rw [hcaller] at hlooks
      exact hinv.returned (hlooks hrunning') hrunning' rfl rfl rfl rfl

/-- The caller enters a call: nothing happens to `m_stream`. -/
private theorem ThreadInv.enter {s s' : TunerThreads} (hinv : ThreadInv s)
    (hidle : s.caller = .idle) (hthreads : s'.threads = s.threads)
    (hrunning : s'.mRunning = s.mRunning) (hstopped : s'.stopped = s.stopped)
    (hstream : s'.tuner.mStream = s.tuner.mStream) (hstart : ∀ d, s'.caller ≠ .startStream d)
    (hcreate : s'.caller ≠ .createThread) : ThreadInv s' := by
  refine hinv.pass hthreads hrunning hstopped (fun hoff _ => ?_) hstart hcreate
  exact .inr ⟨by rw [← hstream, hoff], by simp [hidle]⟩

/-- One step of either. -/
theorem ThreadInv.step {s s' : TunerThreads} {a : Action} (hinv : ThreadInv s)
    (hlooks : LooksAfterStart s a) (hs : s.step a = some s') : ThreadInv s' := by
  cases a with
  | startStreaming pid d =>
    simp only [TunerThreads.step] at hs
    split at hs <;> rename_i hidle <;> cases hs
    refine hinv.enter hidle rfl rfl rfl ?_ (fun _ => by simp [enterStart]) (by simp [enterStart])
    exact s.tuner.mStream_addPidToFilter pid
  | stopStreaming pid =>
    simp only [TunerThreads.step] at hs
    split at hs <;> rename_i hidle <;> cases hs
    unfold enterStop
    simp only
    split
    · exact hinv.enter hidle rfl rfl rfl rfl (fun _ => by simp [hidle]) (by simp [hidle])
    · exact hinv.enter hidle rfl rfl rfl rfl (fun _ => by simp) (by simp)
  | stop =>
    simp only [TunerThreads.step] at hs
    split at hs <;> rename_i hidle <;> cases hs
    exact hinv.enter hidle rfl rfl rfl rfl (fun _ => by simp) (by simp)
  | caller created => exact hinv.callerStep hlooks hs
  | thread i => exact hinv.threadStep hs

/-- One loop at most, and what is stopped stays so. -/
private theorem ThreadInv.safe {s : TunerThreads} (hinv : ThreadInv s) :
    AtMostOneLoop s ∧ StoppedStay s := by
  constructor
  · intro i j p q hp hq hploop hqloop
    refine hinv.single i j p q hp hq (fun h => ?_) (fun h => ?_)
    · rw [h] at hploop
      exact nomatch hploop
    · rw [h] at hqloop
      exact nomatch hqloop
  · intro i p hi hp
    rw [hinv.stopped i p hi hp]
    rfl

/-- In a run in which the caller never takes a thread that has not begun for one that has
    ended, at most one thread is in the loop, and no thread runs on after it was waited for. -/
theorem one_loop_and_stopped (t : HdhomerunTuner) (acts : List Action)
    (hok : Run.Guarded step LooksAfterStart (init t) acts) :
    Run.EveryState step (fun s => AtMostOneLoop s ∧ StoppedStay s) (init t) acts := by
  have hstep : ∀ s a s', ThreadInv s → LooksAfterStart s a → s.step a = some s' → ThreadInv s' :=
    fun _ _ _ => ThreadInv.step
  exact Run.EveryState.of_invariant hstep (fun _ => ThreadInv.safe) (ThreadInv.init t) hok

/-- All the caller's statements of a start of the stream. -/
private def start (pid : Nat) : List Action :=
  .startStreaming pid ⟨1, 1, 1, 1, 1, none, ⟨100, 100⟩⟩ :: List.replicate 3 (.caller true)

/-- All the caller's statements of a stop of the stream, if it waits for nothing. -/
private def stopAll (pid : Nat) : List Action :=
  .stopStreaming pid :: List.replicate 3 (.caller true)

/-- A thread that goes round its loop is stopped and waited for. -/
theorem one_loop_and_stopped_once :
    Run.EveryState step (fun s => AtMostOneLoop s ∧ StoppedStay s) (init (.fresh "1234ABCD-0" 1))
      (start 0x100 ++ List.replicate 5 (.thread 0) ++ [.stopStreaming 0x100] ++
        List.replicate 3 (.caller true) ++ List.replicate 4 (.thread 0) ++ [.caller true]) :=
  one_loop_and_stopped _ _ (by decide)

/-- The first thread begins only after it has been stopped and the stream has been started
    again: then two threads are in the loop, one of them one that had been waited for. -/
theorem late_thread_loops :
    ¬ ∀ t acts, Run.EveryState step (fun s => AtMostOneLoop s ∧ StoppedStay s) (init t) acts := by
  intro hall
  let acts : List Action := start 0x100 ++ stopAll 0x100 ++ start 0x100 ++
    List.replicate 4 (.thread 0) ++ List.replicate 4 (.thread 1)
  let s : TunerThreads := (Run.exec step (init (.fresh "1234ABCD-0" 1)) acts).get (by decide)
  have hrun : Run.exec step (init (.fresh "1234ABCD-0" 1)) acts = some s :=
    (Option.some_get _).symm
  have hthreads : s.threads = [.body, .body] := by decide
  obtain ⟨hone, -⟩ := (hall _ acts).last hrun
  have heq := hone 0 1 .body .body (by rw [hthreads]; rfl) (by rw [hthreads]; rfl) rfl rfl
  exact absurd heq (by decide)

end TunerThreads

end DvbHdhomerun
