import DvbHdhomerun.Kernel.Channel
import DvbHdhomerun.Kernel.DataWrite

/-!
# Reads and writes of the control device

`hdhomerun_control_read` and `hdhomerun_control_write` (dvb_hdhomerun_control.c), each as one
whole call with its memory allocation and its copies from and to user space. Everybody else
goes on while a call waits: what it finds in a FIFO at each test, and again at its own get or
put, is an input, and so is whether a signal ends a wait.
-/

namespace DvbHdhomerun

/-- The error of a call that would have to wait and must not. -/
def EAGAIN : Int := 11

/-- What the FIFOs of the control channel hold, without the tickets. -/
abbrev ByteFifo := Fifo UInt8 controlBufsize

/-- What a FIFO holds without the tickets. -/
def ControlFifo.bytes (fifo : ControlFifo) : ByteFifo := fifo.map Prod.snd

/-- The two FIFOs of the control device. -/
structure ControlFifos where
  /-- `control_fifo_user` -/
  user : ByteFifo
  /-- `control_fifo_kernel` -/
  kernel : ByteFifo

/-- What happens to the temporary buffer `user_data`. -/
inductive BufferEvent where
  | kmalloc
  | kfree
  deriving DecidableEq

/-- `kfree(user_data)`, which does nothing when the allocation has failed. -/
def kfree (userData : Bool) : List BufferEvent := if userData then [.kfree] else []

/-- What a call of one of the two functions has done when it returns. -/
structure Returned where
  ret : Int
  /-- the FIFOs just after the call's own operation on them -/
  fifos : ControlFifos
  /-- what has happened to `user_data` -/
  userData : List BufferEvent
  /-- what has arrived at `buf` in a read -/
  delivered : List UInt8
  /-- `wake_up_interruptible(&control_readq)` -/
  woken : Bool

/-- A return without an operation on a FIFO. -/
def Returned.early (ret : Int) (fifos : ControlFifos) (userData : List BufferEvent) : Returned :=
  ⟨ret, fifos, userData, [], false⟩

/-! ## The wait loops -/

/-- One turn of a wait loop. -/
structure Round where
  /-- the FIFO when the loop tests it -/
  fifo : ByteFifo
  /-- a signal ends `wait_event_interruptible`, if the turn comes to it -/
  interrupted : Bool

/-- `while(blocked) { .. }` over the turns of a call so far: no result while it still waits,
    an error when it returns from inside the loop. -/
def waitLoop (blocked : ByteFifo → Bool) (nonblock : Bool) :
    List Round → Option (Except Int Unit)
  | [] => none
  | round :: rounds =>
    if blocked round.fifo then
      if nonblock then some (.error (-EAGAIN))
      else if round.interrupted then some (.error (-ERESTARTSYS))
      else waitLoop blocked nonblock rounds
    else some (.ok ())

/-! ## hdhomerun_control_read -/

/-- A call of `hdhomerun_control_read` and what happens around it. -/
structure ReadCall where
  /-- `f->f_flags & O_NONBLOCK` -/
  nonblock : Bool
  /-- `buf`: how many bytes can be written there before one cannot; `none` for NULL -/
  buf : Option Nat
  count : UInt64
  rounds : List Round
  /-- the allocation succeeds -/
  kmalloc : Bool
  /-- the FIFOs just before the call's own operation on them -/
  fifos : ControlFifos

/-- `copy_to_user`: what arrives, and the number of bytes that do not. -/
def copyToUser (writable : Nat) (bytes : List UInt8) : List UInt8 × Nat :=
  (bytes.take writable, bytes.length - writable)

/-- `my_kfifo_len(&control_fifo_user) <= 0`, of an unsigned length. -/
def noRequest (fifo : ByteFifo) : Bool := fifo.len == 0

/-- The get and the copy, when there is a buffer. The get takes an `unsigned int`. -/
def readOut (c : ReadCall) (writable : Nat) : Returned :=
  let (items, user) := c.fifos.user.get c.count.toUInt32.toNat
  let (delivered, left) := copyToUser writable items
  -- what has been taken is not put back
  let retval : Int := if left ≠ 0 then -EFAULT else items.length
  ⟨retval, { c.fifos with user }, .kmalloc :: kfree true, delivered, false⟩

/-- The whole call; no result while it waits. -/
def hdhomerunControlRead (c : ReadCall) : Option Returned :=
  match c.buf with
  | none => some (.early (-EINVAL) c.fifos [])
  | some writable =>
    if c.count = 0 then some (.early 0 c.fifos [])
    else
      match waitLoop noRequest c.nonblock c.rounds with
      | none => none
      | some (.error e) => some (.early e c.fifos [])
      | some (.ok _) =>
        if c.kmalloc then some (readOut c writable)
        else some (.early (-ENOMEM) c.fifos [])

/-! ## hdhomerun_control_write -/

/-- A call of `hdhomerun_control_write` and what happens around it. -/
structure WriteCall where
  /-- `f->f_flags & O_NONBLOCK` -/
  nonblock : Bool
  /-- the byte at an offset from `buf`, `none` where the memory cannot be read -/
  buf : Int → Option UInt8
  count : UInt64
  /-- the allocation succeeds -/
  kmalloc : Bool
  /-- `wait_for_write` when the call tests it -/
  waitForWrite : Bool
  rounds : List Round
  /-- the FIFOs just before the call's own operation on them -/
  fifos : ControlFifos

/-- `my_kfifo_len(&control_fifo_kernel) == control_bufsize`. -/
def noRoom (fifo : ByteFifo) : Bool := fifo.len == controlBufsize

/-- The put of what has been copied in, and the end of the function. -/
def writeIn (c : WriteCall) (userData : List UInt8) : Returned :=
  let (copied, kernel) := c.fifos.kernel.put (userData.take c.count.toUInt32.toNat)
  ⟨copied, { c.fifos with kernel }, .kmalloc :: kfree true, [], true⟩

/-- The whole call; no result while it waits. -/
def hdhomerunControlWrite (c : WriteCall) : Option Returned :=
  if !c.kmalloc then some (.early (-ENOMEM) c.fifos (kfree false))
  else
    match copyFromUser c.buf 0 c.count.toNat with
    | none => some (.early (-EFAULT) c.fifos (.kmalloc :: kfree true))
    | some userData =>
      if c.waitForWrite then
        match waitLoop noRoom c.nonblock c.rounds with
        | none => none
        -- these returns do not pass the label `error`
        | some (.error e) => some (.early e c.fifos [.kmalloc])
        | some (.ok _) => some (writeIn c userData)
      -- ignored: `retval` still is `count`
      else some ⟨c.count.toInt64.toInt, c.fifos, .kmalloc :: kfree true, [], true⟩

/-! ## Either of them -/

/-- A call of one of the two functions. -/
inductive ControlCall where
  | read (c : ReadCall)
  | write (c : WriteCall)

namespace ControlCall

/-- The FIFOs just before the call's own operation on them. -/
def fifos : ControlCall → ControlFifos
  | read c => c.fifos
  | write c => c.fifos

/-- What the call returns; nothing while it waits. -/
def exec : ControlCall → Option Returned
  | read c => hdhomerunControlRead c
  | write c => hdhomerunControlWrite c

end ControlCall

end DvbHdhomerun
