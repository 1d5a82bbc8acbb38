import Mathlib.Logic.Function.Basic
import DvbHdhomerun.ForStd.Fifo
import DvbHdhomerun.ForStd.Run
import DvbHdhomerun.Kernel.Requests
import DvbHdhomerun.User.Control

/-!
# The control channel

The kernel clients (`dvb_hdhomerun_core.c`), the control device (`dvb_hdhomerun_control.c`)
and the daemon's control thread (`hdhomerun_control.cpp`) as one transition system. All
clients share `control_fifo_user`, `control_fifo_kernel`, the two flags and the wait queue;
one step is one statement of one thread, so that the schedule (a list of `Action`s) decides
every interleaving. A kfifo `put` or `get` is one step.

The bytes in the FIFOs carry the ticket of the `put` that brought their request in. The
tickets and `History` only record what happened: no step of the program reads them.
-/

namespace DvbHdhomerun

/-- `control_bufsize`. -/
def controlBufsize : Nat := 32768

/-- A kernel client: whoever calls one of the callbacks. -/
abbrev ClientId := Nat

/-- An opening of the control device. -/
abbrev HandleId := Nat

/-- The position of a request among all attempts to post one. -/
abbrev Ticket := Nat

/-- A byte with the ticket of its request. -/
abbrev TaggedByte := Ticket × UInt8

/-- `control_fifo_user` or `control_fifo_kernel`. -/
abbrev ControlFifo := Fifo TaggedByte controlBufsize

/-- Bytes that belong to the request with ticket `t`. -/
def tagged (t : Ticket) (bs : List UInt8) : List TaggedByte := bs.map fun b => (t, b)

/-- The tags do not change the length. -/
@[simp] theorem length_tagged (t : Ticket) (bs : List UInt8) :
    (tagged t bs).length = bs.length := by
  rw [tagged, List.length_map]

/-- Without the tags the bytes are there again. -/
@[simp] theorem map_snd_tagged (t : Ticket) (bs : List UInt8) :
    (tagged t bs).map Prod.snd = bs := by
  simp [tagged, Function.comp_def]

/-- The memory of a message after `bs` has been copied to its start. -/
def ControlMesg.fill (m : ControlMesg) (bs : List UInt8) : ControlMesg :=
  ⟨m.bytes.overwrite 0 (bs.take 36), by
    rw [List.length_overwrite (by simp)]
    exact m.size⟩

/-! ## The kernel clients -/

/-- The next statement of a client. -/
inductive ClientPc where
  /-- not inside a call -/
  | idle
  /-- `mutex_lock(&hdhomerun->feedlock)` -/
  | lockFeed
  /-- `if(userspace_ready)` -/
  | testReady
  /-- `my_kfifo_put(&control_fifo_user, ..)` -/
  | put
  /-- `wait_for_write = 1` -/
  | setWait
  /-- the condition of `wait_event_interruptible(control_readq, ..)` -/
  | testLen
  /-- on the wait queue `control_readq`, no wake-up pending -/
  | asleep
  /-- `wait_for_write = 0; return -ERESTARTSYS` -/
  | clearWait
  /-- `while(my_kfifo_len(&control_fifo_kernel) == 0)` -/
  | retestLen
  /-- `return my_kfifo_get(&control_fifo_kernel, ..)` -/
  | get
  /-- `mutex_unlock(&hdhomerun->feedlock); return ret` -/
  | unlockFeed (ret : Int)
  deriving DecidableEq

/-- A request has been posted and `hdhomerun_control_post_and_wait` has not returned. -/
def ClientPc.waiting : ClientPc → Bool
  | setWait | testLen | asleep | clearWait | retestLen | get => true
  | _ => false

/-- The client sleeps, or may still come to sleep before its call returns. -/
def ClientPc.maySleep : ClientPc → Bool
  | setWait | testLen | asleep | retestLen => true
  | _ => false

/-- Inside a call, and no request has been posted yet. -/
def ClientPc.before : ClientPc → Bool
  | lockFeed | testReady | put => true
  | _ => false

/-- A client and the call it is in. -/
structure Client where
  pc : ClientPc
  request : Request
  /-- the tuner whose `feedlock` the call takes -/
  lock : Option Int32
  /-- the caller's `struct dvbhdhomerun_control_mesg` -/
  mesg : ControlMesg
  /-- the ticket of the call's request, once it has been put -/
  ticket : Option Ticket
  /-- a signal is pending -/
  signalled : Bool
  deriving DecidableEq

/-- A client that has not called anything yet. -/
def Client.init : Client where
  pc := .idle
  request := .feReadStatus 0
  lock := none
  mesg := .zero
  ticket := none
  signalled := false

/-! ## The control device's handles -/

/-- Where a handle of `/dev/hdhomerun_control` stands; the three states in the middle are
    inside `hdhomerun_control_release`. -/
inductive HandlePc where
  | closed
  | opened
  /-- `kfifo_reset(&control_fifo_kernel)` done -/
  | kernelReset
  /-- `kfifo_reset(&control_fifo_user)` done -/
  | userReset
  /-- `wait_for_write = 0` done -/
  | waitCleared
  deriving DecidableEq

/-! ## The daemon -/

/-- A reply on its way through `hdhomerun_control_write`; `rest` is what the stream still
    has to write, the whole reply at first. -/
structure Writing where
  ticket : Ticket
  reply : ControlMesg
  rest : List UInt8
  deriving DecidableEq

/-- The next statement of the daemon's control thread. -/
inductive DaemonPc where
  /-- no daemon, or one that called `_exit` -/
  | exited
  /-- `select` in `Control::run`, blocked until `control_fifo_user` is readable -/
  | select
  /-- `my_kfifo_get(&control_fifo_user, ..)` in `hdhomerun_control_read` -/
  | readGet
  /-- `while(!m_messages.empty())` in `ProcessMessages` -/
  | process
  /-- `if(wait_for_write)` in `hdhomerun_control_write` -/
  | writeTest (w : Writing)
  /-- `while(my_kfifo_len(&control_fifo_kernel) == control_bufsize)` -/
  | writeFull (w : Writing)
  /-- the condition of `wait_event_interruptible(outq, ..)` -/
  | writeWait (w : Writing)
  /-- on the wait queue `outq`; the daemon blocks all signals -/
  | writeSleep (w : Writing)
  /-- `my_kfifo_put(&control_fifo_kernel, ..)` -/
  | writePut (w : Writing)
  /-- `wake_up_interruptible(&control_readq); return retval` -/
  | writeWake (w : Writing)
  /-- `m_messages.pop()` -/
  | pop
  deriving DecidableEq

/-- The daemon's control thread with `m_messages` and the tuner objects. -/
structure Daemon where
  pc : DaemonPc
  mMessages : List (Ticket × ControlMesg)
  tuners : List HdhomerunTuner

/-! ## What happened -/

/-- One `my_kfifo_put` of a request and what `hdhomerun_control_post_message` returned. -/
structure Attempt where
  client : ClientId
  mesg : ControlMesg
  ret : Int
  deriving DecidableEq

/-- One return of `hdhomerun_control_post_and_wait`, or of a demux callback before it. -/
structure Return where
  client : ClientId
  request : Request
  ticket : Option Ticket
  ret : Int
  /-- the caller's message at that moment -/
  mesg : ControlMesg
  deriving DecidableEq

/-- One call that the daemon made on the tuner with kernel id `id`. -/
structure Executed where
  ticket : Ticket
  id : Int32
  call : TunerCall
  deriving DecidableEq

/-- What a run has done; no statement reads it. -/
structure History where
  /-- every put of a request, in order: the ticket of a request is its position -/
  attempts : List Attempt
  /-- the messages `Control::run` pushed on `m_messages` -/
  pushed : List ControlMesg
  executed : List Executed
  /-- the messages handed to `WriteToDevice` -/
  replies : List (Ticket × ControlMesg)
  /-- the bytes of every get from `control_fifo_kernel` -/
  taken : List (List TaggedByte)
  returned : List Return

/-- Nothing has happened. -/
def History.init : History := ⟨[], [], [], [], [], []⟩

/-! ## States and actions -/

/-- The channel with everybody on it. -/
structure State where
  userspaceReady : Bool
  waitForWrite : Bool
  controlFifoUser : ControlFifo
  controlFifoKernel : ControlFifo
  /-- `feedlock` of the tuner with this id is held -/
  feedlock : Int32 → Bool
  clients : ClientId → Client
  handles : HandleId → HandlePc
  daemon : Daemon
  hist : History

/-- The module is loaded, nobody has opened the control device yet. -/
def State.init : State where
  userspaceReady := false
  waitForWrite := false
  controlFifoUser := .empty
  controlFifoKernel := .empty
  feedlock := fun _ => false
  clients := fun _ => .init
  handles := fun _ => .closed
  daemon := ⟨.exited, [], []⟩
  hist := .init

/-- What the clients, the owners of handles and the daemon do. -/
inductive Action where
  /-- client `c` enters a call; `mem` is what its message's memory held before -/
  | call (c : ClientId) (r : Request) (mem : ControlMesg)
  /-- client `c` executes its next statement -/
  | client (c : ClientId)
  /-- a signal for client `c` -/
  | signal (c : ClientId)
  /-- `hdhomerun_control_open` -/
  | openHandle (h : HandleId)
  /-- the next statement of `hdhomerun_control_release` -/
  | releaseHandle (h : HandleId)
  /-- a daemon with these tuners reaches the loop of `Control::run` -/
  | daemonStart (tuners : List HdhomerunTuner)
  /-- the daemon ends, for whatever reason -/
  | daemonExit
  /-- the daemon reads; `stale` is what its local `mesg` held before -/
  | daemonRead (stale : ControlMesg)
  /-- the daemon runs the handler of the oldest message -/
  | daemonHandle (d : DeviceResults)
  /-- the daemon executes its next statement, when it is none of the above -/
  | daemonStep

namespace State

/-- Client `c` becomes `k`. -/
def setClient (s : State) (c : ClientId) (k : Client) : State :=
  { s with clients := Function.update s.clients c k }

/-- The daemon goes on to `pc`. -/
def setDaemonPc (s : State) (pc : DaemonPc) : State :=
  { s with daemon := { s.daemon with pc := pc } }

/-- `hdhomerun_control_post_and_wait` returns `ret` to its caller: the demux callbacks
    still have to release `feedlock`. -/
def returnCall (s : State) (c : ClientId) (k : Client) (ret : Int) : State :=
  { s.setClient c
      (if k.lock = none then { k with pc := .idle, signalled := false }
       else { k with pc := .unlockFeed ret }) with
    hist := { s.hist with
      returned := s.hist.returned ++ [Return.mk c k.request k.ticket ret k.mesg] } }

/-! ### Clients -/

/-- Entering a call: the message is built, or the call returns an error at once. -/
def startCall (s : State) (c : ClientId) (r : Request) (mem : ControlMesg) : State :=
  match r.build mem with
  | .error e =>
    -- no lock has been taken and nothing posted
    { s with
      hist := { s.hist with returned := s.hist.returned ++ [Return.mk c r none e mem] } }
  | .ok (lock, mesg) =>
    s.setClient c ⟨if lock = none then .testReady else .lockFeed, r, lock, mesg, none, false⟩

/-- `mutex_lock`: only runs when the lock is free. -/
def lockFeedlock (s : State) (c : ClientId) (k : Client) : Option State :=
  match k.lock with
  | none => none
  | some id =>
    if s.feedlock id then none
    else some { s.setClient c { k with pc := .testReady } with
      feedlock := Function.update s.feedlock id true }

/-- `mutex_unlock`, and the return. -/
def unlockFeedlock (s : State) (c : ClientId) (k : Client) : Option State :=
  match k.lock with
  | none => none
  | some id =>
    some { s.setClient c { k with pc := .idle, signalled := false } with
      feedlock := Function.update s.feedlock id false }

/-- `if(userspace_ready)`; otherwise `ret` keeps its initial value -1. -/
def testUserspaceReady (s : State) (c : ClientId) (k : Client) : State :=
  if s.userspaceReady then s.setClient c { k with pc := .put } else s.returnCall c k (-1)

/-- The put of `hdhomerun_control_post_message`: a message of which only a part fits is
    reported as -1, and the part stays in the FIFO. -/
def putRequest (s : State) (c : ClientId) (k : Client) : State :=
  let t := s.hist.attempts.length
  let (copied, fifo) := s.controlFifoUser.put (tagged t k.mesg.bytes)
  let ret : Int := if copied < sizeofControlMesg then -1 else 1
  let s := { s with
    controlFifoUser := fifo
    hist := { s.hist with attempts := s.hist.attempts ++ [Attempt.mk c k.mesg ret] } }
  let k := { k with ticket := some t }
  if ret = 1 then s.setClient c { k with pc := .setWait } else s.returnCall c k ret

/-- `wait_for_write = 1`. -/
def setWaitForWrite (s : State) (c : ClientId) (k : Client) : State :=
  { s.setClient c { k with pc := .testLen } with waitForWrite := true }

/-- One round of `wait_event_interruptible`: the condition comes before the signals. -/
def testKernelLen (s : State) (c : ClientId) (k : Client) : State :=
  if s.controlFifoKernel.len > 0 then s.setClient c { k with pc := .retestLen }
  else if k.signalled then s.setClient c { k with pc := .clearWait }
  else s.setClient c { k with pc := .asleep }

/-- `wait_for_write = 0; return -ERESTARTSYS`. -/
def clearWaitForWrite (s : State) (c : ClientId) (k : Client) : State :=
  { s with waitForWrite := false }.returnCall c k (-ERESTARTSYS)

/-- `while(my_kfifo_len(&control_fifo_kernel) == 0)`. -/
def retestKernelLen (s : State) (c : ClientId) (k : Client) : State :=
  if s.controlFifoKernel.len = 0 then s.setClient c { k with pc := .testLen }
  else s.setClient c { k with pc := .get }

/-- The get of `hdhomerun_control_wait_for_message`, whose result is the call's. The
    wake-up of `outq` behind the `return` is never reached. -/
def getReply (s : State) (c : ClientId) (k : Client) : State :=
  let (items, fifo) := s.controlFifoKernel.get sizeofControlMesg
  let s := { s with
    controlFifoKernel := fifo
    hist := { s.hist with taken := s.hist.taken ++ [items] } }
  s.returnCall c { k with mesg := k.mesg.fill (items.map Prod.snd) } items.length

/-- The next statement of client `c`. -/
def clientStep (s : State) (c : ClientId) : Option State :=
  let k := s.clients c
  match k.pc with
  | .idle => none
  | .lockFeed => s.lockFeedlock c k
  | .testReady => some (s.testUserspaceReady c k)
  | .put => some (s.putRequest c k)
  | .setWait => some (s.setWaitForWrite c k)
  | .testLen => some (s.testKernelLen c k)
  | .asleep => none
  | .clearWait => some (s.clearWaitForWrite c k)
  | .retestLen => some (s.retestKernelLen c k)
  | .get => some (s.getReply c k)
  | .unlockFeed _ => s.unlockFeedlock c k

/-- A signal makes a sleeping client runnable; it is handled when the call returns. -/
def signalClient (s : State) (c : ClientId) : Option State :=
  let k := s.clients c
  match k.pc with
  | .idle => none
  | .asleep => some (s.setClient c { k with pc := .testLen, signalled := true })
  | _ => some (s.setClient c { k with signalled := true })

/-! ### Handles -/

/-- `hdhomerun_control_open`. -/
def openStep (s : State) (h : HandleId) : Option State :=
  match s.handles h with
  | .closed =>
    some { s with handles := Function.update s.handles h .opened, userspaceReady := true }
  | _ => none

/-- The next statement of `hdhomerun_control_release`. -/
def releaseStep (s : State) (h : HandleId) : Option State :=
  -- none of the statements wakes anybody up
  match s.handles h with
  | .closed => none
  | .opened =>
    some { s with
      handles := Function.update s.handles h .kernelReset
      controlFifoKernel := .empty }
  | .kernelReset =>
    some { s with
      handles := Function.update s.handles h .userReset
      controlFifoUser := .empty }
  | .userReset =>
    some { s with handles := Function.update s.handles h .waitCleared, waitForWrite := false }
  | .waitCleared =>
    some { s with handles := Function.update s.handles h .closed, userspaceReady := false }

/-! ### Daemon -/

/-- A daemon with these tuners comes to its first `select`. -/
def startDaemon (s : State) (tuners : List HdhomerunTuner) : Option State :=
  match s.daemon.pc with
  | .exited => some { s with daemon := ⟨.select, [], tuners⟩ }
  | _ => none

/-- The queue and the tuner objects end with the process. -/
def exitDaemon (s : State) : State := { s with daemon := ⟨.exited, [], []⟩ }

/-- `read` with count `sizeof(dvbhdhomerun_control_mesg)`: any positive number of bytes is
    taken for a message, 0 ends the daemon. -/
def readRequest (s : State) (stale : ControlMesg) : State :=
  let (items, fifo) := s.controlFifoUser.get sizeofControlMesg
  let s := { s with controlFifoUser := fifo }
  match items with
  -- a read that returns 0 ends the process like one that fails
  | [] => s.exitDaemon
  | (t, b) :: rest =>
    let mesg := stale.fill (b :: rest.map Prod.snd)
    { s with
      daemon := { s.daemon with pc := .process, mMessages := s.daemon.mMessages ++ [(t, mesg)] }
      hist := { s.hist with pushed := s.hist.pushed ++ [mesg] } }

/-- The handler of the message with ticket `t`, up to its call of `WriteToDevice`. -/
def handleMessage (s : State) (t : Ticket) (mesg : ControlMesg) (d : DeviceResults) : State :=
  let handled := Control.processMessage s.daemon.tuners mesg d
  let executed := (handled.call.map fun call => Executed.mk t mesg.id call).toList
  { s with
    daemon := { s.daemon with
      tuners := handled.tuners
      pc := match handled.reply with
        | some reply => .writeTest ⟨t, reply, reply.bytes⟩
        | none => .pop }
    hist := { s.hist with
      executed := s.hist.executed ++ executed
      replies := s.hist.replies ++ (handled.reply.map fun reply => (t, reply)).toList } }

/-- `wake_up_interruptible(&control_readq)`. -/
def wakeReaders (s : State) : State :=
  { s with
    clients := fun c =>
      if (s.clients c).pc = .asleep then { s.clients c with pc := .testLen } else s.clients c }

/-- The put of `hdhomerun_control_write`; what did not fit is left to the next `write`. -/
def putReply (s : State) (w : Writing) : State :=
  let (copied, fifo) := s.controlFifoKernel.put (tagged w.ticket w.rest)
  { s with
    controlFifoKernel := fifo
    daemon := { s.daemon with pc := .writeWake { w with rest := w.rest.drop copied } } }

/-- The end of `hdhomerun_control_write`; the stream calls it again for what is left. -/
def finishWrite (s : State) (w : Writing) : State :=
  s.wakeReaders.setDaemonPc (if w.rest = [] then .pop else .writeTest w)

/-- The daemon's next statement, but for the read and the handlers. -/
def daemonStep (s : State) : Option State :=
  match s.daemon.pc with
  | .exited => none
  -- one byte in the FIFO is enough for `poll`
  | .select => if s.controlFifoUser.len > 0 then some (s.setDaemonPc .readGet) else none
  | .readGet => none
  | .process => if s.daemon.mMessages = [] then some (s.setDaemonPc .select) else none
  | .writeTest w =>
    if s.waitForWrite then some (s.setDaemonPc (.writeFull w))
    -- ignored, and `count` is returned as if all had been written
    else some (s.setDaemonPc (.writeWake { w with rest := [] }))
  | .writeFull w =>
    if s.controlFifoKernel.len = controlBufsize then some (s.setDaemonPc (.writeWait w))
    else some (s.setDaemonPc (.writePut w))
  | .writeWait w =>
    if s.controlFifoKernel.len < controlBufsize then some (s.setDaemonPc (.writeFull w))
    else some (s.setDaemonPc (.writeSleep w))
  | .writeSleep _ => none
  | .writePut w => some (s.putReply w)
  | .writeWake w => some (s.finishWrite w)
  | .pop =>
    some { s with
      daemon := { s.daemon with pc := .process, mMessages := s.daemon.mMessages.tail } }

/-- One step of a client, of a handle or of the daemon. -/
def step (s : State) : Action → Option State
  | .call c r mem => if (s.clients c).pc = .idle then some (s.startCall c r mem) else none
  | .client c => s.clientStep c
  | .signal c => s.signalClient c
  | .openHandle h => s.openStep h
  | .releaseHandle h => s.releaseStep h
  | .daemonStart tuners => s.startDaemon tuners
  | .daemonExit => if s.daemon.pc = .exited then none else some s.exitDaemon
  | .daemonRead stale => if s.daemon.pc = .readGet then some (s.readRequest stale) else none
  | .daemonHandle d =>
    -- `m_messages.front()`; it is popped only after the reply has been written
    match s.daemon.pc, s.daemon.mMessages with
    | .process, (t, mesg) :: _ => some (s.handleMessage t mesg d)
    | _, _ => none
  | .daemonStep => s.daemonStep

/-- The state a schedule leads to from a freshly loaded module. -/
def run (acts : List Action) : Option State := Run.exec step State.init acts

end State

end DvbHdhomerun
