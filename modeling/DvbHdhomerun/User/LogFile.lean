import DvbHdhomerun.ForStd.OFStream
import Mathlib.Logic.Function.Basic

/-!
# The log

`LogFile` (log_file.cpp), the `streambuf` behind `LOG()` and `ERR()`: characters are
collected until a line is complete, which then goes to `cout`, to the log file, or both. The
file is opened and closed for every line, since logrotate may have moved it.
-/

namespace DvbHdhomerun

/-- `LogFile::LogType`, one field for each bit. -/
structure LogType where
  cout : Bool
  file : Bool
  deriving DecidableEq

namespace LogType

/-- Nothing is logged. -/
def NONE : LogType := ⟨false, false⟩
/-- The log goes to standard output. -/
def COUT : LogType := ⟨true, false⟩
/-- The log goes to the file. -/
def FILE : LogType := ⟨false, true⟩

/-- `m_logTo | _type`. -/
def or (a b : LogType) : LogType := ⟨a.cout || b.cout, a.file || b.file⟩

end LogType

/-- A character that is put into the stream, and what it finds there. -/
structure LogPut where
  i : UInt8
  /-- what `ctime` says, with its newline -/
  ctime : List UInt8
  /-- the log file could be opened -/
  canOpen : Bool
  deriving DecidableEq

/-- The stream buffer behind `LOG`. -/
structure LogFile where
  mBuffer : List UInt8
  mLogTo : LogType
  mLogFileName : String
  mLogFile : OFStream UInt8
  mDisabled : Bool
  /-- what has been printed -/
  cout : List UInt8
  /-- the files that could not be opened again -/
  cerr : List String
  /-- what has been appended to each file -/
  files : String → List UInt8

namespace LogFile

/-- The log of a program that has just begun. -/
def init : LogFile := ⟨[], .NONE, "", .init, false, [], [], fun _ => []⟩

/-- Destinations are only ever added. -/
def setLogType (l : LogFile) (type : LogType) : LogFile := { l with mLogTo := l.mLogTo.or type }

/-- `-d`. -/
def disableLogging (l : LogFile) : LogFile := { l with mDisabled := true }

/-- The file is opened, and stays open. -/
def setAndOpenLogFile (l : LogFile) (fileName : String) (success : Bool) : Bool × LogFile :=
  let l := { l with mLogFileName := fileName, mLogFile := l.mLogFile.openFile success }
  (l.mLogFile.isOpen, l)

/-- The line in `m_buffer` goes to the file. -/
def toFile (l : LogFile) (canOpen : Bool) : LogFile :=
  let ofs := l.mLogFile.openFile canOpen
  if ofs.isOpen then
    let (text, ofs) := (ofs.write l.mBuffer).close
    { l with
      mLogFile := ofs
      files := Function.update l.files l.mLogFileName (l.files l.mLogFileName ++ text) }
  else { l with mLogFile := ofs, cerr := l.cerr ++ [l.mLogFileName] }

/-- The line in `m_buffer` goes to every sink that is set. -/
def writeLine (l : LogFile) (canOpen : Bool) : LogFile :=
  let l := if l.mLogTo.cout then { l with cout := l.cout ++ l.mBuffer } else l
  if l.mLogTo.file then l.toFile canOpen else l

/-- `'\n'`. -/
def newline : UInt8 := 10

/-- One character: collected up to the newline, which writes the line to where it goes. -/
def overflow (l : LogFile) (put : LogPut) : Option LogFile :=
  if l.mDisabled then some l
  else
    let buffer := if l.mBuffer = [] then put.ctime.dropLast ++ [32] else l.mBuffer
    let l := { l with mBuffer := buffer ++ [put.i] }
    if put.i = newline then
      -- the assertion that some sink has been set
      if l.mLogTo = .NONE then none
      else some { l.writeLine put.canOpen with mBuffer := [] }
    else some l

/-- `main` without `-d`, `-f` and `-l`. -/
def toStdout : LogFile := init.setLogType .COUT

/-- `main` without `-d` and with `-f` or `-l`, when the file could be opened. -/
def toLogFile (fileName : String) : LogFile :=
  (init.setAndOpenLogFile fileName true).2.setLogType .FILE

end LogFile

end DvbHdhomerun
