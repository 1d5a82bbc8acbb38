import DvbHdhomerun.Kernel.ControlMesg

/-!
# The requests the kernel posts

How the frontend operations (`dvb_hdhomerun_fe.c`) and the demux callbacks
(`dvb_hdhomerun_init.c`) build the message they hand to
`hdhomerun_control_post_and_wait`. The message is a local variable that is not
initialised: every builder starts from the previous contents of its memory, `mem`.
-/

namespace DvbHdhomerun

/-- `EINVAL`. -/
def EINVAL : Int := 22

/-- `ERESTARTSYS`. -/
def ERESTARTSYS : Int := 512

/-- What `dvb_hdhomerun_start_feed` and `dvb_hdhomerun_stop_feed` look at in their argument. -/
structure DemuxFeed where
  /-- `demux->priv`, named by its `plat_dev->id`; `none` for NULL -/
  hdhomerun : Option Int32
  /-- `demux->dmx.frontend` is not NULL -/
  frontend : Bool
  pid : UInt16
  index : UInt32
  deriving DecidableEq

/-- A call that posts a request and waits for its reply. -/
inductive Request where
  | feReadStatus (id : Int32)
  | feReadSignalStrength (id : Int32)
  | feSetFrontend (id : Int32) (frequency : UInt32)
  | startFeed (feed : DemuxFeed)
  | stopFeed (feed : DemuxFeed)
  deriving DecidableEq

/-- `mesg.type` and `mesg.id`, which every request sets. -/
def mesgOf (mem : ControlMesg) (type : ControlMesgType) (id : Int32) : ControlMesg :=
  (mem.setType type).setId id

/-- The message has the type it was built for. -/
@[simp] theorem type_mesgOf (mem : ControlMesg) (type : ControlMesgType) (id : Int32) :
    (mesgOf mem type id).type = type.code := by
  rw [mesgOf, ControlMesg.type_setId, ControlMesg.type_setType]

/-- And the tuner's id. -/
@[simp] theorem id_mesgOf (mem : ControlMesg) (type : ControlMesgType) (id : Int32) :
    (mesgOf mem type id).id = id :=
  ControlMesg.id_setId _ id

/-- `dvb_hdhomerun_fe_read_status`, up to its post. -/
def dvbHdhomerunFeReadStatus (id : Int32) (mem : ControlMesg) : ControlMesg :=
  mesgOf mem .feReadStatus id

/-- `dvb_hdhomerun_fe_read_signal_strength`, up to its post. -/
def dvbHdhomerunFeReadSignalStrength (id : Int32) (mem : ControlMesg) : ControlMesg :=
  mesgOf mem .feReadSignalStrength id

/-- `dvb_hdhomerun_fe_set_frontend`, up to its post. -/
def dvbHdhomerunFeSetFrontend (id : Int32) (frequency : UInt32) (mem : ControlMesg) :
    ControlMesg :=
  (mesgOf mem .feSetFrontend id).setFrequency frequency

/-- The tuner whose `feedlock` is taken and the message, or the error returned before that. -/
def dvbHdhomerunStartFeed (feed : DemuxFeed) (mem : ControlMesg) :
    Except Int (Int32 × ControlMesg) :=
  match feed.hdhomerun with
  | none => .error (-EINVAL)
  | some id =>
    if !feed.frontend then .error (-EINVAL)
    else .ok (id, (mesgOf mem .startFeed id).setDemuxFeed feed.pid feed.index)

/-- As `dvbHdhomerunStartFeed`, without the check of the frontend. -/
def dvbHdhomerunStopFeed (feed : DemuxFeed) (mem : ControlMesg) :
    Except Int (Int32 × ControlMesg) :=
  match feed.hdhomerun with
  | none => .error (-EINVAL)
  | some id => .ok (id, (mesgOf mem .stopFeed id).setDemuxFeed feed.pid feed.index)

/-! The two frontend operations that read something do not look at the result of
`hdhomerun_control_post_and_wait`: they return 0 and store what their message holds then. -/

/-- The end of `dvb_hdhomerun_fe_read_status`: the return value and `*status`. -/
def dvbHdhomerunFeReadStatusReturn (mesg : ControlMesg) : Int × UInt32 := (0, mesg.frontendStatus)

/-- The end of `dvb_hdhomerun_fe_read_signal_strength`: the return value and `*strength`, the
    `int16_t` of the message as a `u16`. -/
def dvbHdhomerunFeReadSignalStrengthReturn (mesg : ControlMesg) : Int × UInt16 :=
  (0, mesg.signalStrength.toUInt16)

namespace Request

/-- The message a call posts and, for the demux callbacks, the tuner whose `feedlock` it
    holds meanwhile; or the error it returns without posting. -/
def build : Request → ControlMesg → Except Int (Option Int32 × ControlMesg)
  | feReadStatus id, mem => .ok (none, dvbHdhomerunFeReadStatus id mem)
  | feReadSignalStrength id, mem => .ok (none, dvbHdhomerunFeReadSignalStrength id mem)
  | feSetFrontend id frequency, mem => .ok (none, dvbHdhomerunFeSetFrontend id frequency mem)
  | startFeed feed, mem => (dvbHdhomerunStartFeed feed mem).map fun (id, m) => (some id, m)
  | stopFeed feed, mem => (dvbHdhomerunStopFeed feed mem).map fun (id, m) => (some id, m)

/-- `mesg.type` of a call's message. -/
def mesgType : Request → ControlMesgType
  | feReadStatus _ => .feReadStatus
  | feReadSignalStrength _ => .feReadSignalStrength
  | feSetFrontend _ _ => .feSetFrontend
  | startFeed _ => .startFeed
  | stopFeed _ => .stopFeed

/-- A callback that takes a lock has succeeded before. -/
private theorem ok_of_map {res : Except Int (Int32 × ControlMesg)} {m : ControlMesg}
    {lock : Option Int32}
    (h : (res.map fun (id, m) => (some id, m)) = .ok (lock, m)) :
    ∃ id, res = .ok (id, m) ∧ lock = some id := by
  cases res with
  | error e => cases h
  | ok p =>
    cases h
    exact ⟨p.1, rfl, rfl⟩

/-- What `start_feed` posts when it posts at all. -/
private theorem startFeed_ok {feed : DemuxFeed} {mem m : ControlMesg} {id : Int32}
    (h : dvbHdhomerunStartFeed feed mem = .ok (id, m)) :
    feed.hdhomerun = some id ∧
      m = (mesgOf mem .startFeed id).setDemuxFeed feed.pid feed.index := by
  simp only [dvbHdhomerunStartFeed] at h
  split at h
  · exact nomatch h
  · rename_i id' hid
    split at h
    · exact nomatch h
    · cases h
      exact ⟨hid, rfl⟩

/-- What `stop_feed` posts when it posts at all. -/
private theorem stopFeed_ok {feed : DemuxFeed} {mem m : ControlMesg} {id : Int32}
    (h : dvbHdhomerunStopFeed feed mem = .ok (id, m)) :
    feed.hdhomerun = some id ∧
      m = (mesgOf mem .stopFeed id).setDemuxFeed feed.pid feed.index := by
  simp only [dvbHdhomerunStopFeed] at h
  split at h
  · exact nomatch h
  · rename_i id' hid
    cases h
    exact ⟨hid, rfl⟩

/-- The only error a call returns before it posts. -/
theorem build_error {r : Request} {mem : ControlMesg} {e : Int} (h : r.build mem = .error e) :
    e = -EINVAL := by
  cases r with
  | startFeed feed =>
    simp only [build, dvbHdhomerunStartFeed] at h
    split at h
    · exact (Except.error.inj h).symm
    · split at h
      · exact (Except.error.inj h).symm
      · exact nomatch h
  | stopFeed feed =>
    simp only [build, dvbHdhomerunStopFeed] at h
    split at h
    · exact (Except.error.inj h).symm
    · exact nomatch h
  | _ => exact nomatch h

/-- The message built for a start of feed carries the tuner id and the PID of the feed. -/
theorem build_startFeed {feed : DemuxFeed} {mem m : ControlMesg} {lock : Option Int32}
    (h : (startFeed feed).build mem = .ok (lock, m)) :
    ∃ id, feed.hdhomerun = some id ∧ lock = some id ∧ m.type = ControlMesgType.startFeed.code ∧
      m.id = id ∧ m.feedPid = feed.pid := by
  obtain ⟨id, hb, rfl⟩ := ok_of_map h
  obtain ⟨hid, rfl⟩ := startFeed_ok hb
  exact ⟨id, hid, rfl, by simp, by simp, by simp⟩

/-- The message built for a reading carries the tuner id of the frontend. -/
theorem build_reading {r : Request} {id : Int32} {mem m : ControlMesg} {lock : Option Int32}
    (hr : r = feReadStatus id ∨ r = feReadSignalStrength id) (h : r.build mem = .ok (lock, m)) :
    m.type = r.mesgType.code ∧ m.id = id := by
  rcases hr with rfl | rfl
  · cases h
    exact ⟨type_mesgOf mem .feReadStatus id, id_mesgOf mem _ id⟩
  · cases h
    exact ⟨type_mesgOf mem .feReadSignalStrength id, id_mesgOf mem _ id⟩

/-- Every message built has the type of its call. -/
theorem type_build {r : Request} {mem m : ControlMesg} {lock : Option Int32}
    (h : r.build mem = .ok (lock, m)) : m.type = r.mesgType.code := by
  cases r with
  | feReadStatus id => cases h; simp [dvbHdhomerunFeReadStatus, mesgType]
  | feReadSignalStrength id => cases h; simp [dvbHdhomerunFeReadSignalStrength, mesgType]
  | feSetFrontend id f => cases h; simp [dvbHdhomerunFeSetFrontend, mesgType]
  | startFeed feed =>
    obtain ⟨id, -, -, htype, -, -⟩ := build_startFeed h
    exact htype
  | stopFeed feed =>
    obtain ⟨id, hb, -⟩ := ok_of_map h
    obtain ⟨-, rfl⟩ := stopFeed_ok hb
    simp [mesgType]

/-! Bytes 12 to 31 of a message belong to none of the fields that a caller sets. -/

/-- Building a message leaves the rest of the union as it was. -/
private theorem untouched_mesgOf (mem : ControlMesg) (type : ControlMesgType) (id : Int32) :
    (mesgOf mem type id).bytes.slice 12 20 = mem.bytes.slice 12 20 := by
  rw [mesgOf, ControlMesg.setId, ControlMesg.slice_write_of_le _ _ (by decide),
    ControlMesg.setType, ControlMesg.slice_write_of_ge _ _ (by decide)]

/-- So does filling in the feed. -/
private theorem untouched_setDemuxFeed (m : ControlMesg) (pid : UInt16) (index : UInt32) :
    (m.setDemuxFeed pid index).bytes.slice 12 20 = m.bytes.slice 12 20 := by
  rw [ControlMesg.setDemuxFeed, ControlMesg.slice_write_of_ge _ _ (by decide),
    ControlMesg.slice_write_of_ge _ _ (by decide)]

/-- Whatever the call, bytes 12 to 31 of its message are what its memory held before. -/
theorem untouched_build {r : Request} {mem m : ControlMesg} {lock : Option Int32}
    (h : r.build mem = .ok (lock, m)) : m.bytes.slice 12 20 = mem.bytes.slice 12 20 := by
  cases r with
  | feReadStatus id =>
    cases h
    exact untouched_mesgOf mem _ id
  | feReadSignalStrength id =>
    cases h
    exact untouched_mesgOf mem _ id
  | feSetFrontend id f =>
    cases h
    rw [dvbHdhomerunFeSetFrontend, ControlMesg.setFrequency,
      ControlMesg.slice_write_of_ge _ _ (by decide), untouched_mesgOf]
  | startFeed feed =>
    obtain ⟨id, hb, -⟩ := ok_of_map h
    obtain ⟨-, rfl⟩ := startFeed_ok hb
    rw [untouched_setDemuxFeed, untouched_mesgOf]
  | stopFeed feed =>
    obtain ⟨id, hb, -⟩ := ok_of_map h
    obtain ⟨-, rfl⟩ := stopFeed_ok hb
    rw [untouched_setDemuxFeed, untouched_mesgOf]

end Request

end DvbHdhomerun
