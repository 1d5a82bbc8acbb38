import DvbHdhomerun.Kernel.Channel

/-!
# Initialisation, statement by statement

`dvb_hdhomerun_control_init` (dvb_hdhomerun_control.c) and `dvb_hdhomerun_register`
(dvb_hdhomerun_init.c), one statement a step, interleaved with the calls from user space
that become possible on the way: those on the control device when `misc_register` has
returned, the demux callbacks when `dvb_dmxdev_init` has, the frontend operations when
`dvb_register_frontend` has. Any number of processes call `poll`, `read` and `write` in
any order; the clients of the control channel are those of `DvbHdhomerun.Kernel.Channel`.
-/

namespace DvbHdhomerun

/-- What the two functions initialise and the calls from user space use. -/
inductive SharedObject where
  | controlFifoUser
  | controlFifoKernel
  | controlReadq
  | inq
  | outq
  /-- `hdhomerun->feedlock` of the tuner with this id -/
  | feedlock (id : Int32)
  deriving DecidableEq

/-! ## dvb_hdhomerun_control_init -/

/-- The next statement of `dvb_hdhomerun_control_init`. -/
inductive ControlInitPc where
  | miscRegister
  | allocFifoUser
  | allocFifoKernel
  | initReadq
  | initInq
  | initOutq
  | returned
  deriving DecidableEq

namespace ControlInitPc

/-- The statement behind this one in `dvb_hdhomerun_control_init`. -/
def next : ControlInitPc → Option ControlInitPc
  | miscRegister => some allocFifoUser
  | allocFifoUser => some allocFifoKernel
  | allocFifoKernel => some initReadq
  | initReadq => some initInq
  | initInq => some initOutq
  | initOutq => some returned
  | returned => none

/-- The statement can fail, and the function returns. -/
def canFail : ControlInitPc → Bool
  | miscRegister | allocFifoUser | allocFifoKernel => true
  | _ => false

/-- What the statement initialises. -/
def object : ControlInitPc → Option SharedObject
  | allocFifoUser => some .controlFifoUser
  | allocFifoKernel => some .controlFifoKernel
  | initReadq => some .controlReadq
  | initInq => some .inq
  | initOutq => some .outq
  | miscRegister | returned => none

end ControlInitPc

/-! ## dvb_hdhomerun_register -/

/-- The next statement of `dvb_hdhomerun_register`; the labels come last. -/
inductive RegisterPc where
  /-- not called yet, or at its first statement -/
  | dvbRegisterAdapter
  | dvbDmxInit
  | dvbDmxdevInit
  | addHwFrontend
  | addMemFrontend
  | connectFrontend
  | dvbAttach
  | dvbRegisterFrontend
  | mutexInit
  | dataCreateDevice
  | returned
  | errReleaseFrontend
  | errDisconnectFrontend
  | errRemoveMemFrontend
  | errRemoveHwFrontend
  | errDvbDmxdevRelease
  | errDvbDmxRelease
  | errDvbUnregisterAdapter
  | errOut
  deriving DecidableEq

namespace RegisterPc

/-- The statement behind this one in `dvb_hdhomerun_register`. -/
def next : RegisterPc → Option RegisterPc
  | dvbRegisterAdapter => some dvbDmxInit
  | dvbDmxInit => some dvbDmxdevInit
  | dvbDmxdevInit => some addHwFrontend
  | addHwFrontend => some addMemFrontend
  | addMemFrontend => some connectFrontend
  | connectFrontend => some dvbAttach
  | dvbAttach => some dvbRegisterFrontend
  | dvbRegisterFrontend => some mutexInit
  | mutexInit => some dataCreateDevice
  | dataCreateDevice => some returned
  | errReleaseFrontend => some errDisconnectFrontend
  | errDisconnectFrontend => some errRemoveMemFrontend
  | errRemoveMemFrontend => some errRemoveHwFrontend
  | errRemoveHwFrontend => some errDvbDmxdevRelease
  | errDvbDmxdevRelease => some errDvbDmxRelease
  | errDvbDmxRelease => some errDvbUnregisterAdapter
  | errDvbUnregisterAdapter => some errOut
  | returned | errOut => none

/-- Where a statement goes that fails. -/
def onError : RegisterPc → Option RegisterPc
  | dvbRegisterAdapter => some errOut
  | dvbDmxInit => some errDvbUnregisterAdapter
  | dvbDmxdevInit => some errDvbDmxRelease
  | addHwFrontend => some errDvbDmxdevRelease
  | addMemFrontend => some errRemoveHwFrontend
  | connectFrontend => some errRemoveMemFrontend
  | dvbAttach => some errDisconnectFrontend
  | dvbRegisterFrontend => some errReleaseFrontend
  -- its result is returned, and nothing is undone
  | dataCreateDevice => some returned
  | _ => none

/-- The demux devices exist: `start_feed` and `stop_feed` can be called. -/
def feedsPossible : RegisterPc → Bool
  | dvbRegisterAdapter | dvbDmxInit | dvbDmxdevInit | errDvbDmxRelease
  | errDvbUnregisterAdapter | errOut => false
  | _ => true

/-- `demux->dmx.frontend` is not NULL. -/
def connected : RegisterPc → Bool
  | dvbAttach | dvbRegisterFrontend | mutexInit | dataCreateDevice | returned
  | errReleaseFrontend | errDisconnectFrontend => true
  | _ => false

/-- The frontend device exists. -/
def frontendRegistered : RegisterPc → Bool
  | mutexInit | dataCreateDevice | returned => true
  | _ => false

end RegisterPc

/-! ## Calls on the control device -/

/-- A process that uses the control device. -/
abbrev ProcessId := Nat

/-- The next statement of a process in a call on the control device. -/
inductive DevicePc where
  /-- not inside a call -/
  | idle
  /-- `poll_wait(f, &inq, p)` -/
  | pollInq
  /-- `poll_wait(f, &outq, p)` -/
  | pollOutq
  /-- `if (my_kfifo_len(&control_fifo_user) != 0)` -/
  | pollLen
  /-- `while(my_kfifo_len(&control_fifo_user) <= 0)` -/
  | readLen (count : Nat) (nonblock : Bool)
  /-- `wait_event_interruptible(inq, ..)` -/
  | readWait (count : Nat)
  /-- `my_kfifo_get(&control_fifo_user, ..)` -/
  | readGet (count : Nat)
  /-- `if(wait_for_write)` -/
  | writeTest (data : List TaggedByte) (nonblock : Bool)
  /-- `while(my_kfifo_len(&control_fifo_kernel) == control_bufsize)` -/
  | writeLen (data : List TaggedByte) (nonblock : Bool)
  /-- `wait_event_interruptible(outq, ..)` -/
  | writeWait (data : List TaggedByte)
  /-- `my_kfifo_put(&control_fifo_kernel, ..)` -/
  | writePut (data : List TaggedByte)
  /-- `wake_up_interruptible(&control_readq)` -/
  | writeWake
  deriving DecidableEq

/-- Places where a call can return an error: no memory, a bad address, a signal. -/
def DevicePc.canFail : DevicePc → Bool
  | readWait _ | readGet _ | writeTest .. | writeWait _ => true
  | _ => false

/-! ## States and actions -/

/-- The channel, how far its initialisation has come, and who is inside the control device. -/
structure LoadState where
  controlInit : ControlInitPc
  /-- `dvb_hdhomerun_control_init` has returned an error, at the statement `controlInit` -/
  controlFailed : Bool
  /-- the registration of the tuner with this id -/
  registers : Int32 → RegisterPc
  /-- what has been initialised so far -/
  initialised : List SharedObject
  processes : ProcessId → DevicePc
  channel : State

/-- The module begins to load. -/
def LoadState.init : LoadState where
  controlInit := .miscRegister
  controlFailed := false
  registers := fun _ => .dvbRegisterAdapter
  initialised := []
  processes := fun _ => .idle
  channel := .init

/-- What the module's initialisation, the registrations, the clients and the processes do. -/
inductive LoadAction where
  /-- the next statement of `dvb_hdhomerun_control_init` succeeds, or fails -/
  | controlInit (ok : Bool)
  /-- the next statement of `dvb_hdhomerun_register` for this tuner, in an ioctl on handle `h` -/
  | register (h : HandleId) (id : Int32) (ok : Bool)
  /-- a step of a client, or of an open or a release of the control device -/
  | channel (a : Action)
  /-- process `p` calls `poll` on the open handle `h` -/
  | poll (p : ProcessId) (h : HandleId)
  | read (p : ProcessId) (h : HandleId) (count : Nat) (nonblock : Bool)
  | write (p : ProcessId) (h : HandleId) (data : List TaggedByte) (nonblock : Bool)
  /-- process `p` executes its next statement -/
  | device (p : ProcessId)
  /-- the call of process `p` returns an error -/
  | deviceError (p : ProcessId)

namespace LoadState

/-- Process `p` goes on to `pc`. -/
def setProcess (s : LoadState) (p : ProcessId) (pc : DevicePc) : LoadState :=
  { s with processes := Function.update s.processes p pc }

/-- What a FIFO or a lock holds when it has been initialised. -/
def initObject (ch : State) : SharedObject → State
  | .controlFifoUser => { ch with controlFifoUser := .empty }
  | .controlFifoKernel => { ch with controlFifoKernel := .empty }
  | .feedlock id => { ch with feedlock := Function.update ch.feedlock id false }
  | .controlReadq | .inq | .outq => ch

/-- The objects in `os` have been initialised. -/
def initialise (s : LoadState) (os : List SharedObject) : LoadState :=
  { s with initialised := s.initialised ++ os, channel := os.foldl initObject s.channel }

/-- The next statement of `dvb_hdhomerun_control_init`; `ok` is its success. -/
def controlInitStep (s : LoadState) (ok : Bool) : Option LoadState :=
  if s.controlFailed then none
  else if ok then
    s.controlInit.next.map fun pc =>
      { s.initialise s.controlInit.object.toList with controlInit := pc }
  -- the device stays registered when an allocation fails
  else if s.controlInit.canFail then some { s with controlFailed := true }
  else none

/-- The next statement of the registration of tuner `id`; `ok` is its success. -/
def registerStep (s : LoadState) (id : Int32) (ok : Bool) : Option LoadState :=
  let pc := s.registers id
  (if ok then pc.next else pc.onError).map fun pc' =>
    { s.initialise (if pc = .mutexInit then [.feedlock id] else []) with
      registers := Function.update s.registers id pc' }

/-- The call behind `r` exists already, and finds the demux as the registration left it. -/
def callable (s : LoadState) : Request → Bool
  | .feReadStatus id | .feReadSignalStrength id | .feSetFrontend id _ =>
    (s.registers id).frontendRegistered
  | .startFeed feed | .stopFeed feed =>
    match feed.hdhomerun with
    -- `demux->priv` is set before the demux devices exist, and reset after they are gone
    | none => false
    | some id => (s.registers id).feedsPossible && feed.frontend == (s.registers id).connected

/-- What user space can do in the control channel. -/
def allows (s : LoadState) : Action → Bool
  | .call _ r _ => s.callable r
  | .openHandle _ => s.controlInit ≠ .miscRegister
  | .client _ | .signal _ | .releaseHandle _ => true
  -- the processes stand for the daemon
  | .daemonStart _ | .daemonExit | .daemonRead _ | .daemonHandle _ | .daemonStep => false

/-- A step of the channel, which is a client's only once its tuner is registered. -/
def channelStep (s : LoadState) (a : Action) : Option LoadState :=
  if s.allows a then (s.channel.step a).map fun channel => { s with channel } else none

/-- Entering a call on an open handle. -/
def enter (s : LoadState) (p : ProcessId) (h : HandleId) (pc : DevicePc) : Option LoadState :=
  if s.channel.handles h = .opened ∧ s.processes p = .idle then some (s.setProcess p pc) else none

/-- The next statement of process `p` in the control device. -/
def deviceStep (s : LoadState) (p : ProcessId) : Option LoadState :=
  let ch := s.channel
  match s.processes p with
  | .idle => none
  | .pollInq => some (s.setProcess p .pollOutq)
  | .pollOutq => some (s.setProcess p .pollLen)
  | .pollLen => some (s.setProcess p .idle)
  | .readLen count nonblock =>
    if ch.controlFifoUser.len = 0 then
      some (s.setProcess p (if nonblock then .idle else .readWait count))
    else some (s.setProcess p (.readGet count))
  | .readWait count =>
    -- one round of the wait; without bytes the process stays on `inq`
    if ch.controlFifoUser.len ≠ 0 then some (s.setProcess p (.readLen count false)) else some s
  | .readGet count =>
    some { s.setProcess p .idle with
      channel := { ch with controlFifoUser := (ch.controlFifoUser.get count).2 } }
  | .writeTest data nonblock =>
    some (s.setProcess p (if ch.waitForWrite then .writeLen data nonblock else .writeWake))
  | .writeLen data nonblock =>
    if ch.controlFifoKernel.len = controlBufsize then
      some (s.setProcess p (if nonblock then .idle else .writeWait data))
    else some (s.setProcess p (.writePut data))
  | .writeWait data =>
    if ch.controlFifoKernel.len < controlBufsize then some (s.setProcess p (.writeLen data false))
    else some s
  | .writePut data =>
    some { s.setProcess p .writeWake with
      channel := { ch with controlFifoKernel := (ch.controlFifoKernel.put data).2 } }
  | .writeWake => some { s.setProcess p .idle with channel := ch.wakeReaders }

/-- One step of the initialisation, a registration, the channel or a process. -/
def step (s : LoadState) : LoadAction → Option LoadState
  | .controlInit ok => s.controlInitStep ok
  | .register h id ok =>
    if s.channel.handles h = .opened then s.registerStep id ok else none
  | .channel a => s.channelStep a
  | .poll p h => s.enter p h .pollInq
  | .read p h count nonblock =>
    -- a count of 0 is answered at once
    s.enter p h (if count = 0 then .idle else .readLen count nonblock)
  | .write p h data nonblock => s.enter p h (.writeTest data nonblock)
  | .device p => s.deviceStep p
  | .deviceError p =>
    if (s.processes p).canFail then some (s.setProcess p .idle) else none

/-! ### What a statement operates on -/

/-- The objects the next statement of a client operates on; `lock` names the tuner whose
    `feedlock` its call takes. A wait touches its queue only when its condition is false. -/
def clientUses (ch : State) (lock : Option Int32) : ClientPc → List SharedObject
  | .lockFeed | .unlockFeed _ => lock.toList.map .feedlock
  -- with the wake-up of `inq` behind the put
  | .put => [.controlFifoUser, .inq]
  | .testLen =>
    .controlFifoKernel :: if ch.controlFifoKernel.len > 0 then [] else [.controlReadq]
  | .retestLen | .get => [.controlFifoKernel]
  | .idle | .testReady | .setWait | .asleep | .clearWait => []

/-- What the next statement of a release touches. -/
def releaseUses : HandlePc → List SharedObject
  | .opened => [.controlFifoKernel]
  | .kernelReset => [.controlFifoUser]
  | .closed | .userReset | .waitCleared => []

/-- What the next statement in the control device touches. -/
def deviceUses (ch : State) : DevicePc → List SharedObject
  | .pollInq => [.inq]
  | .pollOutq => [.outq]
  | .pollLen | .readLen .. | .readGet _ => [.controlFifoUser]
  | .readWait _ => .controlFifoUser :: if ch.controlFifoUser.len ≠ 0 then [] else [.inq]
  | .writeLen .. | .writePut _ => [.controlFifoKernel]
  | .writeWait _ =>
    .controlFifoKernel :: if ch.controlFifoKernel.len < controlBufsize then [] else [.outq]
  | .writeWake => [.controlReadq]
  | .idle | .writeTest .. => []

/-- The objects that a call from user space operates on in a step. -/
def uses (s : LoadState) : LoadAction → List SharedObject
  | .channel (.client c) =>
    clientUses s.channel (s.channel.clients c).lock (s.channel.clients c).pc
  | .channel (.releaseHandle h) => releaseUses (s.channel.handles h)
  | .device p => deviceUses s.channel (s.processes p)
  | _ => []

end LoadState

end DvbHdhomerun
