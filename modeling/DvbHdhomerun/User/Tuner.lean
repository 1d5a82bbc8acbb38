import DvbHdhomerun.ForStd.Hex

/-!
# The daemon's tuner object

`HdhomerunTuner` of userhdhomerun: the constructor, the PID filter, the stream state, tuning
and the status queries. The calls to libhdhomerun on `m_device` are kept in order in `device`,
together with what they returned; their results are inputs (`DeviceResults`).

The methods are sequential here: in `StopStreaming` the loop that waits for the streaming
thread is one step, taken as returning. The thread itself is the subject of
`DvbHdhomerun.User.Thread`.
-/

namespace DvbHdhomerun

/-- The fields of `struct hdhomerun_tuner_status_t` that the daemon uses. -/
structure TunerStatus where
  signalStrength : UInt32
  symbolErrorQuality : UInt32
  deriving DecidableEq

/-- What the libhdhomerun calls made while one message is handled return. -/
structure DeviceResults where
  setTunerFilter : Int
  streamStart : Int
  setTunerChannel : Int
  waitForLock : Int
  getTunerStatus : Int
  /-- what the status query stored, `none` when it left the caller's struct alone -/
  status : Option TunerStatus
  /-- the caller's struct on the stack before the query -/
  stack : TunerStatus

/-- The caller's `hdhomerun_status` after `hdhomerun_device_get_tuner_status`. -/
def DeviceResults.hdhomerunStatus (d : DeviceResults) : TunerStatus := d.status.getD d.stack

/-- What a tuner object does to the world: the calls on `m_device` and the start and the
    end of the streaming thread. -/
inductive DeviceCall where
  | setTunerFilter (filter : String) (ret : Int)
  | streamStart (ret : Int)
  | streamFlush
  | streamStop
  | getVideoStats
  | setTunerChannel (channel : String) (ret : Int)
  | waitForLock (ret : Int)
  | getTunerStatus (ret : Int)
  | threadStart
  /-- the caller has waited until no thread is running -/
  | threadFinished
  deriving DecidableEq

/-- The PID by which the demux asks for the whole transport stream. -/
def pidAll : Nat := 0x2000

/-- `HdhomerunTuner::Type`. -/
inductive TunerType where
  | notSet
  | dvbc
  | dvbt
  | atsc
  deriving DecidableEq

/-- The enumeration's integer values. -/
def TunerType.code : TunerType → Int32
  | notSet => 0
  | dvbc => 1
  | dvbt => 2
  | atsc => 3

/-- What `GetSecValue` finds in the ini file in the section of a tuner. -/
structure TunerConf where
  tunerType : Option String
  useFullName : Option String
  disable : Option String

/-- The members of `HdhomerunTuner` that its methods and the controller use. PIDs come
    from a `uint16_t`, so the `vector<int>` never holds a negative one. -/
structure HdhomerunTuner where
  mName : String
  mType : TunerType
  mUseFullName : Bool
  mIsDisabled : Bool
  mKernelId : Int32
  mNameDataDevice : String
  mStream : Bool
  mPidFilters : List Nat
  mPrevFreq : Int32
  device : List DeviceCall

namespace HdhomerunTuner

/-- The filter that lets everything pass. -/
def passAll : String := "0x0000-0x1FFF"

/-- A tuner as the constructor leaves it when neither the ini file nor the model says anything
    about it; `ret` is the result of setting the initial filter. -/
def fresh (name : String) (ret : Int) : HdhomerunTuner where
  mName := name
  mType := .notSet
  mUseFullName := false
  mIsDisabled := false
  mKernelId := -1
  mNameDataDevice := ""
  mStream := false
  mPidFilters := []
  mPrevFreq := 0
  device := [.setTunerFilter passAll ret]

/-- The type that the ini file sets. -/
def confType (tunerType : Option String) : TunerType :=
  if tunerType = some "DVB-C" then .dvbc
  else if tunerType = some "DVB-T" then .dvbt
  else if tunerType = some "ATSC" then .atsc
  else .notSet

/-- The type of a model. -/
def modelType (model : String) : TunerType :=
  if model = "hdhomerun_dvbt" then .dvbc
  else if model = "hdhomerun_atsc" then .atsc
  else .notSet

/-- The constructor; there is no tuner when it calls `exit(-1)`. -/
def new (name : String) (conf : TunerConf) (modelStr : Option String) (ret : Int) :
    Option HdhomerunTuner :=
  let t := { fresh name ret with
    mType := confType conf.tunerType
    mUseFullName := conf.useFullName = some "true"
    mIsDisabled := conf.disable = some "true" }
  if t.mType = .notSet then modelStr.map fun model => { t with mType := modelType model }
  else some t

/-- What the constructor leaves in the members that later calls change. -/
theorem new_spec {name : String} {conf : TunerConf} {modelStr : Option String} {ret : Int}
    {t : HdhomerunTuner} (h : new name conf modelStr ret = some t) :
    t.mStream = false ∧ t.mPidFilters = [] ∧ t.mPrevFreq = 0 ∧
      t.device = [.setTunerFilter passAll ret] := by
  unfold new at h
  simp only at h
  split at h
  · obtain ⟨model, -, rfl⟩ := Option.map_eq_some_iff.mp h
    exact ⟨rfl, rfl, rfl, rfl⟩
  · cases h
    exact ⟨rfl, rfl, rfl, rfl⟩

/-- Append to the calls made. -/
def log (t : HdhomerunTuner) (calls : List DeviceCall) : HdhomerunTuner :=
  { t with device := t.device ++ calls }

/-! ## PID filter -/

/-- `AddPidToFilter`; 0x2000 is the request for the whole stream. -/
def addPidToFilter (t : HdhomerunTuner) (pid : Nat) : HdhomerunTuner :=
  if pid = pidAll then
    -- the empty list stands for pass-all
    { t with mPidFilters := [] }
  else if pid ∈ t.mPidFilters then
    t
  else
    { t with mPidFilters := t.mPidFilters ++ [pid] }

/-- Nothing but the list of PIDs changes. -/
theorem addPidToFilter_frame (t : HdhomerunTuner) (pid : Nat) :
    ∃ mPidFilters, t.addPidToFilter pid = { t with mPidFilters } := by
  unfold addPidToFilter
  split
  · exact ⟨_, rfl⟩
  · split
    · exact ⟨t.mPidFilters, rfl⟩
    · exact ⟨_, rfl⟩

/-- The list is all it changes. -/
theorem mStream_addPidToFilter (t : HdhomerunTuner) (pid : Nat) :
    (t.addPidToFilter pid).mStream = t.mStream := by
  obtain ⟨_, h⟩ := t.addPidToFilter_frame pid
  rw [h]

/-- It makes no device call. -/
theorem device_addPidToFilter (t : HdhomerunTuner) (pid : Nat) :
    (t.addPidToFilter pid).device = t.device := by
  obtain ⟨_, h⟩ := t.addPidToFilter_frame pid
  rw [h]

/-- It leaves the id alone. -/
@[simp] theorem mKernelId_addPidToFilter (t : HdhomerunTuner) (pid : Nat) :
    (t.addPidToFilter pid).mKernelId = t.mKernelId := by
  obtain ⟨_, h⟩ := t.addPidToFilter_frame pid
  rw [h]

/-- Erases the first occurrence. -/
def removePidFromFilter (t : HdhomerunTuner) (pid : Nat) : HdhomerunTuner :=
  { t with mPidFilters := t.mPidFilters.erase pid }

/-- One turn of the loop in `GetStrFromPidFilter`. -/
def pidToken (pid : Nat) : List Char := '0' :: 'x' :: Hex.upper pid ++ [' ']

/-- `GetStrFromPidFilter`, with `std::hex` and `std::showbase` set. -/
def getStrFromPidFilter (t : HdhomerunTuner) : String :=
  if t.mPidFilters = [] then
    passAll
  else
    String.ofList (t.mPidFilters.flatMap pidToken)

/-! ## Streaming -/

/-- `StartStreaming`, with the thread's part of it left to `TunerThreads`. -/
def startStreaming (t : HdhomerunTuner) (pid : Nat) (d : DeviceResults) : HdhomerunTuner :=
  let t := t.addPidToFilter pid
  let t := t.log [.setTunerFilter t.getStrFromPidFilter d.setTunerFilter]
  let t :=
    if !t.mStream then
      { t.log [.streamStart d.streamStart, .streamFlush, .threadStart] with mStream := true }
    else t
  t.log [.getVideoStats]

/-- `StopStreaming`. -/
def stopStreaming (t : HdhomerunTuner) (pid : Nat) : HdhomerunTuner :=
  let t := t.removePidFromFilter pid
  if t.mPidFilters ≠ [] then
    -- the filter of the device is left as it is
    t
  else if t.mStream then
    { t.log [.threadFinished, .streamStop, .getVideoStats] with mStream := false }
  else t

/-- `ThreadPthread::stop`: no member that the other methods look at changes, and no thread
    is running when it returns. -/
def stop (t : HdhomerunTuner) : HdhomerunTuner := t.log [.threadFinished]

/-- `~HdhomerunTuner` up to `hdhomerun_device_destroy`. -/
def destroy (t : HdhomerunTuner) : HdhomerunTuner := t.stopStreaming pidAll

/-! ## Tuning and status -/

/-- `FE_HAS_SIGNAL | FE_HAS_CARRIER | FE_HAS_VITERBI | FE_HAS_SYNC | FE_HAS_LOCK`. -/
def feHasAll : UInt32 := 0x1f

/-- The status word, and the tuner after the query. -/
def readStatus (t : HdhomerunTuner) (d : DeviceResults) : UInt32 × HdhomerunTuner :=
  let t := t.log [.getTunerStatus d.getTunerStatus]
  if d.getTunerStatus > 0 then
    if d.hdhomerunStatus.symbolErrorQuality = 100 then (feHasAll, t) else (0, t)
  else (0, t)

/-- The result of the query is not looked at; the product is one of `unsigned int`. -/
def readSignalStrength (t : HdhomerunTuner) (d : DeviceResults) : Int32 × HdhomerunTuner :=
  let t := t.log [.getTunerStatus d.getTunerStatus]
  (((0xffff * d.hdhomerunStatus.signalStrength) / 100).toInt32, t)

/-- `"auto:" << _freq`. -/
def autoChannel (freq : Int32) : String := "auto:" ++ toString freq.toInt

/-- `Tune`. -/
def tune (t : HdhomerunTuner) (freq : Int32) (d : DeviceResults) : Int × HdhomerunTuner :=
  let (status, t) := t.readStatus d
  if t.mPrevFreq = freq ∧ status = feHasAll then
    (0, t)
  else
    -- the frequency is remembered whatever the two calls return
    let t := t.log [.setTunerChannel (autoChannel freq) d.setTunerChannel, .waitForLock d.waitForLock]
    (d.setTunerChannel, { t with mPrevFreq := freq })

end HdhomerunTuner

end DvbHdhomerun
