import Mathlib.Data.List.Basic

/-!
# Output file streams

The part of `std::ofstream` that decides which bytes reach the file: `open` fails on a
stream that is open already, a stream that has failed takes nothing, and what it takes waits
in a buffer until it is handed over to the file.
-/

/-- An output file stream over items of type `α`. -/
structure OFStream (α : Type u) where
  /-- `is_open()` -/
  isOpen : Bool
  /-- `fail()`, that is `failbit` or `badbit` -/
  fail : Bool
  /-- taken from the program and not handed over to the file -/
  buffer : List α
  deriving DecidableEq

namespace OFStream

variable {α : Type u}

/-- A stream as its default constructor makes it. -/
def init : OFStream α := ⟨false, false, []⟩

/-- `open`, with the success of the opening of the file. A second `open` sets `failbit` and
    leaves the file open, a successful one clears all bits. -/
def openFile (s : OFStream α) (success : Bool) : OFStream α :=
  if s.isOpen then { s with fail := true }
  else if success then { s with isOpen := true, fail := false }
  else { s with fail := true }

/-- `write`, which does nothing to a stream that has failed. -/
def write (s : OFStream α) (xs : List α) : OFStream α :=
  if s.fail then s
  else if s.isOpen then { s with buffer := s.buffer ++ xs }
  else { s with fail := true }

/-- The oldest `n` items, which are handed over to the file, and the stream without them. -/
def handOver (s : OFStream α) (n : Nat) : List α × OFStream α :=
  (s.buffer.take n, { s with buffer := s.buffer.drop n })

/-- `close`, and what it hands over to the file. It clears no bit. -/
def close (s : OFStream α) : List α × OFStream α :=
  if s.isOpen then (s.buffer, { s with isOpen := false, buffer := [] })
  else ([], { s with fail := true })

/-- What is handed over and what stays are what there was. -/
theorem handOver_append (s : OFStream α) (n : Nat) :
    (s.handOver n).1 ++ (s.handOver n).2.buffer = s.buffer :=
  List.take_append_drop n s.buffer

theorem write_eq {s : OFStream α} (hopen : s.isOpen = true) (hfail : s.fail = false)
    (xs : List α) : s.write xs = { s with buffer := s.buffer ++ xs } := by
  rw [write, hfail, hopen]
  rfl

/-- To open a closed stream, write to it and close it puts the text into the file, and what
    the stream held before in front of it. -/
theorem close_write_openFile {s : OFStream α} (hclosed : s.isOpen = false) (xs : List α) :
    ((s.openFile true).write xs).close = (s.buffer ++ xs, ⟨false, false, []⟩) := by
  simp [openFile, hclosed, write, close]

/-- The same on an open stream puts into the file only what the stream held before: the
    second `open` makes it fail, and the text is lost. -/
theorem close_write_openFile_of_open {s : OFStream α} (hopen : s.isOpen = true) (b : Bool)
    (xs : List α) : ((s.openFile b).write xs).close = (s.buffer, ⟨false, true, []⟩) := by
  simp [openFile, hopen, write, close]

end OFStream
