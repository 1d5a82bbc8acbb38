import DvbHdhomerun.ForStd.CInt
import DvbHdhomerun.Kernel.Register

/-!
# Writing to a data device

`hdhomerun_data_write` (dvb_hdhomerun_data.c) as it stands, which copies and feeds one page
at a time, and as it was before patches/klaus-single-page-alloc.patch, which copied and fed
the whole buffer at once. The integers have the widths of the code: `int copied, to_copy`
and `size_t count`.
-/

namespace DvbHdhomerun

/-- The arguments `buf` and `count` of a write, with the caller's memory. -/
structure UserBuffer where
  /-- the byte at an offset from `buf`, `none` where the memory cannot be read -/
  mem : Int → Option UInt8
  count : UInt64
  /-- the VFS cuts a write to `MAX_RW_COUNT`, which is at most `INT_MAX` -/
  count_le : count.toNat ≤ CInt.intMax

/-- `PAGE_SIZE`. -/
structure PageSize where
  size : UInt64
  pos : 0 < size.toNat

/-- `copy_from_user` of `n` bytes: what arrives, or `none` when some byte does not. -/
def copyFromUser (mem : Int → Option UInt8) (off : Int) : Nat → Option (List UInt8)
  | 0 => some []
  | n + 1 => (mem off).bind fun byte => (copyFromUser mem (off + 1) n).map (byte :: ·)

namespace UserBuffer

/-- The `n` bytes at offset `off`. -/
def read (b : UserBuffer) (off : Int) (n : Nat) : Option (List UInt8) := copyFromUser b.mem off n

end UserBuffer

/-! ## Page by page -/

/-- One turn of the loop: the two variables and the bytes given to `dvb_dmx_swfilter`. -/
structure Turn where
  copied : Int32
  toCopy : Int32
  fed : List UInt8

/-- The return value of a write and the turns whose bytes were fed. -/
structure DataWritten where
  ret : Int
  turns : List Turn

/-- Everything passed to `dvb_dmx_swfilter`, in order. -/
def fedOf (turns : List Turn) : List UInt8 := turns.flatMap Turn.fed

/-- `int to_copy = min(count - copied, PAGE_SIZE)`. -/
def toCopy (p : PageSize) (b : UserBuffer) (copied : Int32) : Int32 :=
  let rest := b.count - CInt.toSize copied
  CInt.ofSize (if rest < p.size then rest else p.size)

/-- The loop, for at most `fuel` tests of its condition. -/
def writeLoop (p : PageSize) (b : UserBuffer) : Nat → Int32 → List Turn → Option DataWritten
  | 0, _, _ => none
  | fuel + 1, copied, turns =>
    -- the comparison is one of `size_t`
    if CInt.toSize copied < b.count then
      let toCopy := toCopy p b copied
      match b.read copied.toInt (CInt.toSize toCopy).toNat with
      | none => some ⟨-EFAULT, turns⟩
      | some bytes => writeLoop p b fuel (copied + toCopy) (turns ++ [⟨copied, toCopy, bytes⟩])
    else some ⟨copied.toInt, turns⟩

def hdhomerunDataWrite (p : PageSize) (b : UserBuffer) (fuel : Nat) : Option DataWritten :=
  writeLoop p b fuel 0 []

/-! ## All at once -/

/-- The write before the patch: the return value, the bytes fed, and the new
    `write_buffer_size`, `none` while there is no buffer. -/
def hdhomerunDataWriteAtOnce (writeBuffer : Option UInt64) (b : UserBuffer) (kmalloc : Bool) :
    Int × List UInt8 × Option UInt64 :=
  let grow := match writeBuffer with
    | none => true
    | some size => decide (size < b.count)
  if grow && !kmalloc then (-ENOMEM, [], none)
  else
    let writeBuffer := if grow then some b.count else writeBuffer
    match b.read 0 b.count.toNat with
    | none => (-EFAULT, [], writeBuffer)
    | some bytes => (b.count.toNat, bytes, writeBuffer)

/-- What a sequence of such writes feeds, when no `kmalloc` fails. -/
def fedAtOnce (writeBuffer : Option UInt64) : List UserBuffer → List UInt8
  | [] => []
  | b :: bs =>
    let (_, fed, writeBuffer) := hdhomerunDataWriteAtOnce writeBuffer b true
    fed ++ fedAtOnce writeBuffer bs

end DvbHdhomerun
