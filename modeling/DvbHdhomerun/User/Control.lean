import DvbHdhomerun.Kernel.ControlMesg
import DvbHdhomerun.User.Tuner

/-!
# The daemon's message handlers

`Control::ProcessMessages` of userhdhomerun: for one message after the other the handler
chosen by `mesg.type` runs a method of the tuner `GetTuner(mesg.id)`, if there is one, and
hands the message back to `WriteToDevice`. A message of any other type gets no reply.
-/

namespace DvbHdhomerun

/-- The method of the addressed tuner that a handler calls. -/
inductive TunerCall where
  | tune (freq : Int32)
  | readStatus
  | readSignalStrength
  | startStreaming (pid : Nat)
  | stopStreaming (pid : Nat)
  deriving DecidableEq

/-- What handling one message comes to. -/
structure Handled where
  tuners : List HdhomerunTuner
  /-- the call made on `GetTuner(mesg.id)`, `none` when there is no such tuner -/
  call : Option TunerCall
  /-- the message given to `WriteToDevice`, `none` when none is -/
  reply : Option ControlMesg

namespace HdhomerunController

/-- The first tuner with this kernel id. -/
def getTuner (tuners : List HdhomerunTuner) (id : Int32) : Option HdhomerunTuner :=
  tuners.find? fun t => t.mKernelId == id

/-- The tuner objects after `GetTuner(id)` has become `t`. -/
def setTuner (tuners : List HdhomerunTuner) (id : Int32) (t : HdhomerunTuner) :
    List HdhomerunTuner :=
  tuners.modify (tuners.findIdx fun t => t.mKernelId == id) fun _ => t

end HdhomerunController

namespace Control

open HdhomerunController

/-- `FE_SET_Frontend`. -/
def feSetFrontend (tuners : List HdhomerunTuner) (mesg : ControlMesg) (d : DeviceResults) :
    Handled :=
  match getTuner tuners mesg.id with
  | some tuner =>
    let freq := mesg.frequency.toInt32
    ⟨setTuner tuners mesg.id (tuner.tune freq d).2, some (.tune freq), some mesg⟩
  | none => ⟨tuners, none, some mesg⟩

/-- `FE_READ_Status`. -/
def feReadStatus (tuners : List HdhomerunTuner) (mesg : ControlMesg) (d : DeviceResults) :
    Handled :=
  match getTuner tuners mesg.id with
  | some tuner =>
    let (status, tuner) := tuner.readStatus d
    ⟨setTuner tuners mesg.id tuner, some .readStatus, some (mesg.setFrontendStatus status)⟩
  | none => ⟨tuners, none, some mesg⟩

/-- `FE_READ_SIGNAL_Strength`. -/
def feReadSignalStrength (tuners : List HdhomerunTuner) (mesg : ControlMesg) (d : DeviceResults) :
    Handled :=
  match getTuner tuners mesg.id with
  | some tuner =>
    let (strength, tuner) := tuner.readSignalStrength d
    ⟨setTuner tuners mesg.id tuner, some .readSignalStrength,
      some (mesg.setSignalStrength strength.toUInt32.toUInt16.toInt16)⟩
  | none => ⟨tuners, none, some mesg⟩

/-- `StartFeed`. -/
def startFeed (tuners : List HdhomerunTuner) (mesg : ControlMesg) (d : DeviceResults) : Handled :=
  match getTuner tuners mesg.id with
  | some tuner =>
    let pid := mesg.feedPid.toNat
    ⟨setTuner tuners mesg.id (tuner.startStreaming pid d), some (.startStreaming pid), some mesg⟩
  | none => ⟨tuners, none, some mesg⟩

/-- `StopFeed`. -/
def stopFeed (tuners : List HdhomerunTuner) (mesg : ControlMesg) : Handled :=
  match getTuner tuners mesg.id with
  | some tuner =>
    let pid := mesg.feedPid.toNat
    ⟨setTuner tuners mesg.id (tuner.stopStreaming pid), some (.stopStreaming pid), some mesg⟩
  | none => ⟨tuners, none, some mesg⟩

/-- The `switch` of `ProcessMessages`. -/
def processMessage (tuners : List HdhomerunTuner) (mesg : ControlMesg) (d : DeviceResults) :
    Handled :=
  match ControlMesgType.ofCode mesg.type with
  | some .feSetFrontend => feSetFrontend tuners mesg d
  | some .feReadStatus => feReadStatus tuners mesg d
  | some .feReadSignalStrength => feReadSignalStrength tuners mesg d
  | some .startFeed => startFeed tuners mesg d
  | some .stopFeed => stopFeed tuners mesg
  -- logged, and nobody writes a reply
  | _ => ⟨tuners, none, none⟩

/-- `m_messages`, the tuner objects, and what has been handed to `WriteToDevice` so far. -/
structure Messages where
  mMessages : List ControlMesg
  tuners : List HdhomerunTuner
  written : List ControlMesg

/-- The body of the loop in `ProcessMessages`: the message at the front is handled and popped. -/
def processFront (s : Messages) (mesg : ControlMesg) (d : DeviceResults) : Messages :=
  let handled := processMessage s.tuners mesg d
  ⟨s.mMessages.tail, handled.tuners, s.written ++ handled.reply.toList⟩

/-- `ProcessMessages`; `results n` is what the device calls made for the message at place `n`
    of the queue return. -/
def processMessages (s : Messages) (results : Nat → DeviceResults) : Messages :=
  match h : s.mMessages with
  | [] => s
  | mesg :: _ => processMessages (processFront s mesg (results 0)) fun n => results (n + 1)
termination_by s.mMessages.length
decreasing_by
  rw [processFront, h, List.tail_cons, List.length_cons]
  exact Nat.lt_succ_self _

/-- With an empty queue there is nothing to do. -/
theorem processMessages_nil {s : Messages} (results : Nat → DeviceResults)
    (h : s.mMessages = []) : processMessages s results = s := by
  rw [processMessages]
  split <;> rename_i heq
  · rfl
  · rw [h] at heq
    exact nomatch heq

/-- The front message is handled, then the rest. -/
theorem processMessages_cons {s : Messages} (results : Nat → DeviceResults) {mesg : ControlMesg}
    {mMessages : List ControlMesg} (h : s.mMessages = mesg :: mMessages) :
    processMessages s results =
      processMessages (processFront s mesg (results 0)) fun n => results (n + 1) := by
  rw [processMessages]
  split <;> rename_i heq
  · rw [h] at heq
    exact nomatch heq
  · rw [h] at heq
    cases heq
    rfl

end Control

end DvbHdhomerun
