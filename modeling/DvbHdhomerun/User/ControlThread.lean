import DvbHdhomerun.Kernel.Channel

/-!
# The control thread and its end

`Control::run` with its `select` on the pipe and on the control device, and the main thread,
which starts it in the constructor of `HdhomerunController` and stops it in the destructor:
`ThreadPthread::stop` calls `pre_stop`, which closes the write end of the pipe, and waits for
`m_running`; then `m_control` is deleted.

Every handler ends in `WriteToDevice`, so in `hdhomerun_control_write`, which blocks while
`control_fifo_kernel` is full. The clients are free here: they may post, get and change
`wait_for_write` at any moment, and any opening of the control device may be released.
-/

namespace DvbHdhomerun

/-- The next statement of `hdhomerun_control_write`. -/
inductive WritePc where
  /-- `if(wait_for_write)` -/
  | test
  /-- `while(my_kfifo_len(&control_fifo_kernel) == control_bufsize)` -/
  | full
  /-- the condition of `wait_event_interruptible(outq, ..)` -/
  | wait
  /-- on the wait queue `outq`; the thread blocks all signals -/
  | sleep
  /-- `my_kfifo_put(&control_fifo_kernel, ..)` -/
  | put
  /-- `wake_up_interruptible(&control_readq); return retval` -/
  | wake
  deriving DecidableEq

/-- The next statement of the control thread. -/
inductive ControlPc where
  | notCreated
  /-- `thread->m_running = true` -/
  | created
  /-- the control device is opened, at the beginning of `run` -/
  | opening
  | select
  /-- `FD_ISSET(pfd[0], &fds)`, and the read of the pipe -/
  | testPipe (pipe dev : Bool)
  /-- `FD_ISSET(m_read, &fds)`, and the read of a message -/
  | testDev (dev : Bool)
  /-- the test of `m_messages.empty()`, in `run` and in `ProcessMessages` -/
  | process
  /-- in the write at the end of a handler; `rest` is what the stream still has to write -/
  | write (pc : WritePc) (rest : List UInt8)
  /-- `m_messages.pop()` -/
  | pop
  /-- `close(m_read)` -/
  | closing
  /-- `run` has returned: `pthread_detach`, then `thread->m_running = false` -/
  | leaving
  | finished
  deriving DecidableEq

/-- Where a handler goes on: in the write of its reply, if it has one. -/
def ControlPc.ofReply : Option ControlMesg → ControlPc
  | some reply => .write .test reply.bytes
  | none => .pop

/-- The next statement of the main thread. -/
inductive MainPc where
  /-- `m_control->start()`, at the end of the constructor -/
  | starting
  /-- `sigwait` -/
  | waiting
  /-- `m_stop = true` in `ThreadPthread::stop` -/
  | setStop
  /-- `close(pfd[1])` in `pre_stop` -/
  | preStop
  /-- `while(m_running)` in `ThreadPthread::stop` -/
  | waitStop
  /-- `delete m_control` -/
  | deleting
  /-- the tuners are next -/
  | deleted
  deriving DecidableEq

/-- The two threads, what the control device holds, and what happened. -/
structure ControlRun where
  main : MainPc
  pc : ControlPc
  mStop : Bool
  mRunning : Bool
  /-- the write end of the pipe is open -/
  pipeOpen : Bool
  controlFifoUser : Fifo UInt8 controlBufsize
  controlFifoKernel : Fifo UInt8 controlBufsize
  waitForWrite : Bool
  messages : Control.Messages
  /-- every message read so far -/
  read : List ControlMesg
  /-- every message handled so far, with what the device calls made for it returned -/
  handled : List (ControlMesg × DeviceResults)
  /-- how many messages had been read when the pipe was closed -/
  readAtClose : Option Nat

namespace ControlRun

/-- The controller has been constructed up to the start of the control thread. -/
def init (tuners : List HdhomerunTuner) : ControlRun :=
  ⟨.starting, .notCreated, false, false, true, .empty, .empty, false, ⟨[], tuners, []⟩, [], [],
    none⟩

/-- What the two threads, the clients and other openings of the control device do. -/
inductive Action where
  /-- the main thread's next statement; `created` is the success of `pthread_create` -/
  | main (created : Bool)
  /-- `SIGINT` or `SIGTERM` -/
  | signal
  /-- the control thread's next statement, when it is none of the three below -/
  | thread
  /-- `select` is interrupted -/
  | eintr
  /-- the control thread reads; `stale` is what its local `mesg` held before -/
  | read (stale : ControlMesg)
  /-- the control thread runs the handler of the message at the front of `m_messages` -/
  | handle (d : DeviceResults)
  /-- a client puts its request into `control_fifo_user` -/
  | post (mesg : ControlMesg)
  /-- a client gets from `control_fifo_kernel`; it wakes nobody up -/
  | get
  /-- a client sets `wait_for_write`, or a client or a release clears it -/
  | setWait (value : Bool)
  /-- `kfifo_reset(&control_fifo_kernel)` in the release of another opening -/
  | resetKernel
  /-- `kfifo_reset(&control_fifo_user)` in the release of another opening -/
  | resetUser

/-- The main thread's next statement. -/
def mainStep (s : ControlRun) (created : Bool) : Option ControlRun :=
  match s.main with
  | .starting =>
    -- the result of `start()` is not looked at
    some { s with main := .waiting, pc := if created then .created else .notCreated }
  | .waiting => none
  | .setStop => some { s with main := .preStop, mStop := true }
  | .preStop =>
    some { s with main := .waitStop, pipeOpen := false, readAtClose := some s.read.length }
  | .waitStop => if s.mRunning then some s else some { s with main := .deleting }
  | .deleting => some { s with main := .deleted }
  | .deleted => none

/-- The read of a message, which blocks while the FIFO is empty; any positive number of bytes
    is taken for a message. -/
def readMessage (s : ControlRun) (stale : ControlMesg) : Option ControlRun :=
  if s.controlFifoUser.len = 0 then none
  else
    let (bytes, fifo) := s.controlFifoUser.get sizeofControlMesg
    let mesg := stale.fill bytes
    some { s with
      pc := .process
      controlFifoUser := fifo
      messages := { s.messages with mMessages := s.messages.mMessages ++ [mesg] }
      read := s.read ++ [mesg] }

/-- One turn of the loop in `ProcessMessages`, up to the handler's call of `WriteToDevice`. -/
def handle (s : ControlRun) (d : DeviceResults) : Option ControlRun :=
  match s.pc, s.messages.mMessages with
  | .process, mesg :: _ =>
    let handled := Control.processMessage s.messages.tuners mesg d
    some { s with
      pc := .ofReply handled.reply
      messages := { s.messages with
        tuners := handled.tuners
        written := s.messages.written ++ handled.reply.toList }
      handled := s.handled ++ [(mesg, d)] }
  | _, _ => none

/-- The next statement of `hdhomerun_control_write`. -/
def writeStep (s : ControlRun) (pc : WritePc) (rest : List UInt8) : Option ControlRun :=
  match pc with
  | .test =>
    -- a write that is ignored returns `count` as if all had been written
    some { s with pc := if s.waitForWrite then .write .full rest else .write .wake [] }
  | .full =>
    some { s with
      pc := .write (if s.controlFifoKernel.len = controlBufsize then .wait else .put) rest }
  | .wait =>
    some { s with
      pc := .write (if s.controlFifoKernel.len < controlBufsize then .full else .sleep) rest }
  | .sleep => none
  | .put =>
    let (copied, fifo) := s.controlFifoKernel.put rest
    some { s with controlFifoKernel := fifo, pc := .write .wake (rest.drop copied) }
  | .wake =>
    -- the stream writes again what did not fit
    some { s with pc := if rest = [] then .pop else .write .test rest }

/-- The control thread's next statement, but for the read and the handlers. -/
def threadStep (s : ControlRun) : Option ControlRun :=
  match s.pc with
  | .notCreated => none
  | .created => some { s with pc := .opening, mRunning := true }
  | .opening => some { s with pc := .select }
  | .select =>
    -- nothing is ever written to the pipe: it becomes readable when it is closed
    if s.pipeOpen ∧ s.controlFifoUser.len = 0 then none
    else some { s with pc := .testPipe (!s.pipeOpen) (s.controlFifoUser.len != 0) }
  | .testPipe pipe dev => some { s with pc := if pipe then .closing else .testDev dev }
  | .testDev dev => if dev then none else some { s with pc := .process }
  | .process => if s.messages.mMessages = [] then some { s with pc := .select } else none
  | .write pc rest => s.writeStep pc rest
  | .pop =>
    some { s with
      pc := .process
      messages := { s.messages with mMessages := s.messages.mMessages.tail } }
  | .closing =>
    -- a release like any other
    some { s with
      pc := .leaving
      controlFifoUser := .empty
      controlFifoKernel := .empty
      waitForWrite := false }
  | .leaving => some { s with pc := .finished, mRunning := false }
  | .finished => none

/-- One step of either thread, of a client or of another opening. -/
def step (s : ControlRun) : Action → Option ControlRun
  | .main created => s.mainStep created
  | .signal => if s.main = .waiting then some { s with main := .setStop } else none
  | .thread => s.threadStep
  | .eintr => if s.pc = .select then some s else none
  | .read stale => if s.pc = .testDev true then s.readMessage stale else none
  | .handle d => s.handle d
  | .post mesg => some { s with controlFifoUser := (s.controlFifoUser.put mesg.bytes).2 }
  | .get => some { s with controlFifoKernel := (s.controlFifoKernel.get sizeofControlMesg).2 }
  | .setWait value => some { s with waitForWrite := value }
  | .resetKernel => some { s with controlFifoKernel := .empty }
  | .resetUser => some { s with controlFifoUser := .empty }

end ControlRun

end DvbHdhomerun
