import DvbHdhomerun.ForStd.Run
import DvbHdhomerun.User.Tuner

/-!
# A tuner and its streaming threads

`ThreadPthread` and the thread of `HdhomerunTuner::run`, interleaved with a caller of
`StartStreaming`, `StopStreaming` and `ThreadPthread::stop`. Every read or write of
`m_running`, `m_stream` and `m_stop` is a step of its own; a thread that has been created
may be scheduled as late as one likes.
-/

namespace DvbHdhomerun

/-- The next statement of a streaming thread. -/
inductive ThreadPc where
  /-- `thread->m_running = true` -/
  | created
  /-- the data device is opened, at the beginning of `run` -/
  | opening
  /-- `m_stream` in the condition of the loop -/
  | testStream
  /-- `!m_stop` in the condition of the loop -/
  | testStop
  /-- the body of the loop: receive, write, sleep -/
  | body
  /-- `ofs.close()` -/
  | closing
  /-- `run` has returned: `pthread_detach`, then `thread->m_running = false` -/
  | leaving
  | finished
  deriving DecidableEq

namespace ThreadPc

/-- Inside the `while` loop of `run`, its condition included. -/
def inLoop : ThreadPc → Bool
  | testStream | testStop | body => true
  | _ => false

/-- Executing `run`. -/
def inRun : ThreadPc → Bool
  | opening | testStream | testStop | body | closing => true
  | _ => false

end ThreadPc

/-- The next statement of the caller. -/
inductive CallerPc where
  /-- not inside a call -/
  | idle
  /-- `if(!m_stream)` in `StartStreaming` -/
  | startTest (d : DeviceResults)
  /-- `hdhomerun_device_stream_start`, `.._flush`, `m_stream = true` -/
  | startStream (d : DeviceResults)
  /-- `pthread_create`, and the statistics behind it -/
  | createThread
  /-- `if(m_stream)` in `StopStreaming` -/
  | stopTest
  /-- `m_stream = false` -/
  | clearStream
  /-- `while(!this->isFinished())` -/
  | waitFinished
  /-- `m_stop = true` in `ThreadPthread::stop` -/
  | setStop
  /-- `while(m_running)` in `ThreadPthread::stop` -/
  | waitStop

/-- A tuner, the thread that calls its methods, and every streaming thread created so far. -/
structure TunerThreads where
  /-- holds `m_stream` -/
  tuner : HdhomerunTuner
  mStop : Bool
  mRunning : Bool
  /-- every thread created so far -/
  threads : List ThreadPc
  caller : CallerPc
  /-- how many threads there were when the caller last returned from waiting for the end -/
  stopped : Nat

namespace TunerThreads

/-- A tuner fresh from its constructor. -/
def init (tuner : HdhomerunTuner) : TunerThreads :=
  ⟨{ tuner with mStream := false }, false, false, [], .idle, 0⟩

/-- What the caller and the threads do. -/
inductive Action where
  /-- the caller enters `StartStreaming(pid)` -/
  | startStreaming (pid : Nat) (d : DeviceResults)
  /-- the caller enters `StopStreaming(pid)` -/
  | stopStreaming (pid : Nat)
  /-- the caller enters `ThreadPthread::stop` -/
  | stop
  /-- the caller's next statement; `created` is the success of `pthread_create` -/
  | caller (created : Bool)
  /-- the next statement of the thread that was created as number `i` -/
  | thread (i : Nat)

/-- `m_stream = b`. -/
def setStream (s : TunerThreads) (b : Bool) : TunerThreads :=
  { s with tuner := { s.tuner with mStream := b } }

/-- The device calls are recorded. -/
def log (s : TunerThreads) (calls : List DeviceCall) : TunerThreads :=
  { s with tuner := s.tuner.log calls }

/-- The part of `StartStreaming` before the test of `m_stream`. -/
def enterStart (s : TunerThreads) (pid : Nat) (d : DeviceResults) : TunerThreads :=
  let tuner := s.tuner.addPidToFilter pid
  { s with
    tuner := tuner.log [.setTunerFilter tuner.getStrFromPidFilter d.setTunerFilter]
    caller := .startTest d }

/-- The part of `StopStreaming` before the test of `m_stream`. -/
def enterStop (s : TunerThreads) (pid : Nat) : TunerThreads :=
  let tuner := s.tuner.removePidFromFilter pid
  -- the caller returns at once
  if tuner.mPidFilters ≠ [] then { s with tuner := tuner }
  else { s with tuner := tuner, caller := .stopTest }

/-- The caller has seen that the thread is not running. -/
def returnStopped (s : TunerThreads) : TunerThreads :=
  { s with caller := .idle, stopped := s.threads.length }

/-- The caller's next statement inside a method; `created` is the success of `pthread_create`. -/
def callerStep (s : TunerThreads) (created : Bool) : Option TunerThreads :=
  match s.caller with
  | .idle => none
  | .startTest d =>
    if !s.tuner.mStream then some { s with caller := .startStream d }
    else some { s.log [.getVideoStats] with caller := .idle }
  | .startStream d =>
    some { (s.log [.streamStart d.streamStart, .streamFlush]).setStream true with
      caller := .createThread }
  | .createThread =>
    -- the result of `start()` is not looked at: `m_stream` stays set without a thread
    some { s.log [.threadStart, .getVideoStats] with
      threads := if created then s.threads ++ [.created] else s.threads
      caller := .idle }
  | .stopTest =>
    if s.tuner.mStream then some { s with caller := .clearStream }
    else some { s with caller := .idle }
  | .clearStream => some { s.setStream false with caller := .waitFinished }
  | .waitFinished =>
    -- a thread that has not begun yet looks the same as one that has ended
    if s.mRunning then some s
    else some (s.log [.threadFinished, .streamStop, .getVideoStats]).returnStopped
  | .setStop => some { s with mStop := true, caller := .waitStop }
  | .waitStop => if s.mRunning then some s else some s.returnStopped

/-- The thread with number `i` goes on to `pc`. -/
def setThread (s : TunerThreads) (i : Nat) (pc : ThreadPc) : TunerThreads :=
  { s with threads := s.threads.set i pc }

/-- The next statement of the thread with number `i`. -/
def threadStep (s : TunerThreads) (i : Nat) : Option TunerThreads :=
  match s.threads[i]? with
  | none => none
  | some .created => some { s.setThread i .opening with mRunning := true }
  | some .opening => some (s.setThread i .testStream)
  | some .testStream => some (s.setThread i (if s.tuner.mStream then .testStop else .closing))
  | some .testStop => some (s.setThread i (if !s.mStop then .body else .closing))
  | some .body => some (s.setThread i .testStream)
  | some .closing => some (s.setThread i .leaving)
  | some .leaving => some { s.setThread i .finished with mRunning := false }
  | some .finished => none

/-- One step of the caller or of a thread. -/
def step (s : TunerThreads) : Action → Option TunerThreads
  | .startStreaming pid d =>
    match s.caller with
    | .idle => some (s.enterStart pid d)
    | _ => none
  | .stopStreaming pid =>
    match s.caller with
    | .idle => some (s.enterStop pid)
    | _ => none
  | .stop =>
    match s.caller with
    | .idle => some { s with caller := .setStop }
    | _ => none
  | .caller created => s.callerStep created
  | .thread i => s.threadStep i

end TunerThreads

end DvbHdhomerun
