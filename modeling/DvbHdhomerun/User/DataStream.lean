import DvbHdhomerun.ForStd.OFStream
import DvbHdhomerun.Kernel.DataWrite
import DvbHdhomerun.User.Thread

/-!
# The stream of a tuner

`TunerThreads` together with what the threads carry: each receives from the network, writes
to its own `ofstream`, and the stream hands its bytes to `hdhomerun_data_write` of the data
device of the tuner. That function is taken apart at its accesses to `write_buffer`, which
all openings of the device share and no lock protects.
-/

namespace DvbHdhomerun

/-- A call of `hdhomerun_data_write` that has not returned. -/
structure DataWrite where
  /-- what is to be written -/
  bytes : List UInt8
  /-- the VFS cuts a write to `MAX_RW_COUNT` -/
  length_le : bytes.length ≤ CInt.intMax
  copied : Int32
  /-- `to_copy`, between `copy_from_user` and the end of the turn -/
  turn : Option Int32

namespace DataWrite

/-- The caller's memory: the bytes, and nothing around them. -/
def userBuffer (w : DataWrite) : UserBuffer where
  mem i := if 0 ≤ i then w.bytes[i.toNat]? else none
  count := w.bytes.length.toUInt64
  count_le := by
    have hle := w.length_le
    rw [Nat.toUInt64, UInt64.toNat_ofNat']
    exact Nat.le_trans (Nat.mod_le ..) hle

end DataWrite

/-- What belongs to one streaming thread. -/
structure ThreadStream where
  ofs : OFStream UInt8
  /-- the receive of this turn of the loop has returned -/
  received : Bool
  write : Option DataWrite

namespace ThreadStream

/-- A thread that has received nothing yet. -/
def init : ThreadStream := ⟨.init, false, none⟩

/-- The stream takes back what `write` has left, and fails if it was an error. -/
def returned (k : ThreadStream) (w : DataWrite) (ret : Int) : ThreadStream :=
  if ret < 0 then { k with ofs := { k.ofs with fail := true, buffer := [] }, write := none }
  else
    { k with ofs := { k.ofs with buffer := w.bytes.drop ret.toNat ++ k.ofs.buffer }, write := none }

end ThreadStream

/-- The threads and what each has received and written. -/
structure DataStream where
  threads : TunerThreads
  streams : Nat → ThreadStream
  /-- `state->write_buffer` -/
  writeBuffer : List UInt8
  /-- everything received, by whatever thread -/
  received : List UInt8
  /-- everything passed to `dvb_dmx_swfilter` -/
  fed : List UInt8

namespace DataStream

/-- A tuner fresh from its constructor and a data device with the page it was created with. -/
def init (p : PageSize) (tuner : HdhomerunTuner) : DataStream :=
  ⟨.init tuner, fun _ => .init, List.replicate p.size.toNat 0, [], []⟩

/-- A step of the threads, or of what a thread does with its buffer. -/
inductive Action where
  /-- a step of `TunerThreads` -/
  | step (a : TunerThreads.Action)
  /-- thread `i` receives and calls `ofs.write` -/
  | receive (i : Nat) (data : List UInt8)
  /-- the stream of thread `i` hands its oldest `n` bytes to `write` -/
  | handOver (i : Nat) (n : Nat)
  /-- the test of the loop of `hdhomerun_data_write`, and `copy_from_user` or the return -/
  | copy (i : Nat)
  /-- `dvb_dmx_swfilter`, and the end of the turn -/
  | feed (i : Nat)

/-- The stream of thread `i`, changed. -/
def setStream (s : DataStream) (i : Nat) (k : ThreadStream) : DataStream :=
  { s with streams := Function.update s.streams i k }

/-- Thread `i` receives `data`. The call to `ofs.write` goes on until the stream holds no
    more than its buffer does. -/
def receive (s : DataStream) (i : Nat) (data : List UInt8) : Option DataStream :=
  let k := s.streams i
  if s.threads.threads[i]? = some .body ∧ k.received = false then
    some { s.setStream i { k with ofs := k.ofs.write data, received := true } with
      received := s.received ++ data }
  else none

/-- The stream writes, inside `ofs.write` or `ofs.close()`. -/
def handOver (s : DataStream) (i n : Nat) : Option DataStream :=
  let k := s.streams i
  if (s.threads.threads[i]? = some .body ∧ k.received = true ∨
      s.threads.threads[i]? = some .closing) ∧ k.write.isNone ∧ 0 < n ∧ n ≤ k.ofs.buffer.length then
    let (bytes, ofs) := k.ofs.handOver n
    if h : bytes.length ≤ CInt.intMax then
      some (s.setStream i { k with ofs := ofs, write := some ⟨bytes, h, 0, none⟩ })
    else none
  else none

/-- `while (copied < count)`, `to_copy = min(count - copied, PAGE_SIZE)`, `copy_from_user`. -/
def copy (p : PageSize) (s : DataStream) (i : Nat) : Option DataStream :=
  let k := s.streams i
  match k.write with
  | some w =>
    if w.turn.isSome then none
    else if CInt.toSize w.copied < w.userBuffer.count then
      let n := toCopy p w.userBuffer w.copied
      match w.userBuffer.read w.copied.toInt (CInt.toSize n).toNat with
      | none => some (s.setStream i (k.returned w (-EFAULT)))
      | some bytes =>
        some { s.setStream i { k with write := some { w with turn := some n } } with
          writeBuffer := bytes ++ s.writeBuffer.drop bytes.length }
    else some (s.setStream i (k.returned w w.copied.toInt))
  | none => none

/-- `dvb_dmx_swfilter(state->dvb_demux, state->write_buffer, to_copy); copied += to_copy`. -/
def feed (s : DataStream) (i : Nat) : Option DataStream :=
  let k := s.streams i
  match k.write with
  | some w =>
    match w.turn with
    | some n =>
      some { s.setStream i { k with write := some { w with copied := w.copied + n, turn := none } } with
        fed := s.fed ++ s.writeBuffer.take (CInt.toSize n).toNat }
    | none => none
  | none => none

/-- The stream of a thread that goes on from `pc`, `none` while it is not done there. The
    buffer of the stream holds `cap` bytes at most between two calls. -/
def goOn (cap : Nat) (k : ThreadStream) : ThreadPc → Option ThreadStream
  | .opening => some { k with ofs := k.ofs.openFile true }
  | .body =>
    if k.received ∧ k.write.isNone ∧ k.ofs.buffer.length ≤ cap then some { k with received := false }
    else none
  | .closing =>
    if k.write.isNone ∧ k.ofs.buffer = [] then some { k with ofs := k.ofs.close.2 } else none
  | _ => some k

/-- One step; a thread leaves a place in its loop only when its stream is done there. -/
def step (p : PageSize) (cap : Nat) (s : DataStream) : Action → Option DataStream
  | .step (.thread i) =>
    match s.threads.threads[i]? with
    | none => none
    | some pc =>
      match goOn cap (s.streams i) pc, s.threads.step (.thread i) with
      | some k, some threads => some { s.setStream i k with threads := threads }
      | _, _ => none
  | .step a => (s.threads.step a).map fun threads => { s with threads := threads }
  | .receive i data => s.receive i data
  | .handOver i n => s.handOver i n
  | .copy i => copy p s i
  | .feed i => s.feed i

end DataStream

end DvbHdhomerun
