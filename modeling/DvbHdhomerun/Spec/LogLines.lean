import DvbHdhomerun.ForStd.Run
import DvbHdhomerun.User.LogFile

/-!
# The lines of the log

What is written to the log, whatever it is, comes out in whole lines, each with the time of
its first character in front. On `cout` all lines come out; in the log file the first one is
missing, since the file is still open from `SetAndOpenLogFile` when `overflow` opens it, and
a stream that is opened twice fails until it is opened again. With `-d` nothing comes out
anywhere.
-/

namespace DvbHdhomerun

namespace LogFile

/-- A line: some characters, and a newline at the end. -/
def IsLine (line : List LogPut) : Prop :=
  ∃ body last, line = body ++ [last] ∧ last.i = newline ∧ ∀ put ∈ body, put.i ≠ newline

/-- The line as it is logged. -/
def text (line : List LogPut) : List UInt8 :=
  (line.head?.map fun put => put.ctime.dropLast ++ [32]).getD [] ++ line.map LogPut.i

/-- The log file could be opened at the end of the line. -/
def canOpen (line : List LogPut) : Bool := (line.getLast?.map LogPut.canOpen).getD false

/-- Every text is lines and the beginning of one more. -/
theorem exists_lines (puts : List LogPut) :
    ∃ (lines : List (List LogPut)) (tail : List LogPut), puts = lines.flatten ++ tail ∧
    (∀ line ∈ lines, IsLine line) ∧ ∀ put ∈ tail, put.i ≠ newline := by
  induction puts with
  | nil => exact ⟨[], [], rfl, by simp, by simp⟩
  | cons put puts ih =>
    obtain ⟨lines, tail, rfl, hlines, htail⟩ := ih
    by_cases hput : put.i = newline
    · refine ⟨[put] :: lines, tail, rfl, fun line hline => ?_, htail⟩
      rcases List.mem_cons.mp hline with rfl | hmem
      · exact ⟨[], put, rfl, hput, by simp⟩
      · exact hlines line hmem
    · cases lines with
      | nil =>
        refine ⟨[], put :: tail, rfl, hlines, fun p hp => ?_⟩
        rcases List.mem_cons.mp hp with rfl | hmem
        · exact hput
        · exact htail p hmem
      | cons line lines =>
        -- the character belongs to the first line
        refine ⟨(put :: line) :: lines, tail, rfl, fun l hl => ?_, htail⟩
        rcases List.mem_cons.mp hl with rfl | hmem
        · obtain ⟨body, last, rfl, hlast, hbody⟩ := hlines line List.mem_cons_self
          refine ⟨put :: body, last, rfl, hlast, fun p hp => ?_⟩
          rcases List.mem_cons.mp hp with rfl | hmem
          · exact hput
          · exact hbody p hmem
        · exact hlines l (List.mem_cons_of_mem _ hmem)

/-! ## One line -/

/-- The log between two lines. -/
structure Between (l : LogFile) : Prop where
  enabled : l.mDisabled = false
  empty : l.mBuffer = []
  noText : l.mLogFile.buffer = []

/-- What has come out between two states of a log: `cout` and `file` hold that much more, and
    `cerr` names the file `n` times more. -/
structure Grown (l l' : LogFile) (cout file : List UInt8) (n : Nat) : Prop where
  sink : l'.mLogTo = l.mLogTo
  name : l'.mLogFileName = l.mLogFileName
  cout_eq : l'.cout = l.cout ++ cout
  file_eq : l'.files l.mLogFileName = l.files l.mLogFileName ++ file
  cerr_eq : l'.cerr = l.cerr ++ List.replicate n l.mLogFileName

variable {l l' l'' : LogFile}

/-- Nothing logged, nothing grown. -/
theorem Grown.refl (l : LogFile) : Grown l l [] [] 0 := by constructor <;> simp

/-- What two texts in a row add. -/
theorem Grown.trans {cout cout' file file' : List UInt8} {n n' : Nat} (h : Grown l l' cout file n)
    (h' : Grown l' l'' cout' file' n') : Grown l l'' (cout ++ cout') (file ++ file') (n + n') where
  sink := h'.sink.trans h.sink
  name := h'.name.trans h.name
  cout_eq := by rw [h'.cout_eq, h.cout_eq, List.append_assoc]
  file_eq := by
    have hfile := h'.file_eq
    rw [h.name, h.file_eq, List.append_assoc] at hfile
    exact hfile
  cerr_eq := by
    rw [h'.cerr_eq, h.cerr_eq, h.name, List.append_assoc, List.replicate_append_replicate]

/-- Characters in the middle of a line are only collected. -/
private theorem exec_body {body : List LogPut} (hbody : ∀ put ∈ body, put.i ≠ newline)
    (hdisabled : l.mDisabled = false) (hbuffer : l.mBuffer ≠ []) :
    Run.exec overflow l body = some { l with mBuffer := l.mBuffer ++ body.map LogPut.i } := by
  induction body generalizing l with
  | nil => rw [List.map_nil, List.append_nil, Run.exec_nil]
  | cons put body ih =>
    have hput := hbody put List.mem_cons_self
    let l₁ : LogFile := { l with mBuffer := l.mBuffer ++ [put.i] }
    have hnext : overflow l put = some l₁ := by simp [overflow, hdisabled, hbuffer, hput, l₁]
    have hrest : Run.exec overflow l₁ body = some { l₁ with mBuffer := l₁.mBuffer ++ body.map LogPut.i } :=
      ih (fun p hp => hbody p (List.mem_cons_of_mem _ hp)) hdisabled (by simp [l₁])
    rw [Run.exec_cons_of_some hnext, hrest]
    simp [l₁]

/-- So is the beginning of a line, with the time in front. -/
private theorem exec_begin {put : LogPut} {body : List LogPut}
    (hbody : ∀ p ∈ put :: body, p.i ≠ newline) (h : l.Between) :
    Run.exec overflow l (put :: body) = some { l with mBuffer := text (put :: body) } := by
  have hput := hbody put List.mem_cons_self
  let l₁ : LogFile := { l with mBuffer := put.ctime.dropLast ++ [32] ++ [put.i] }
  have hnext : overflow l put = some l₁ := by simp [overflow, h.enabled, h.empty, hput, l₁]
  have hrest : Run.exec overflow l₁ body = some { l₁ with mBuffer := l₁.mBuffer ++ body.map LogPut.i } :=
    exec_body (fun p hp => hbody p (List.mem_cons_of_mem _ hp)) h.enabled (by simp [l₁])
  rw [Run.exec_cons_of_some hnext, hrest]
  simp [l₁, text]

/-- A whole line that is put into an empty buffer is written to the sinks. -/
private theorem exec_line {line : List LogPut} (hline : IsLine line) (h : l.Between)
    (hsink : l.mLogTo ≠ .NONE) :
    Run.exec overflow l line =
      some { { l with mBuffer := text line }.writeLine (canOpen line) with mBuffer := [] } := by
  obtain ⟨body, last, rfl, hlast, hbody⟩ := hline
  have hopen : canOpen (body ++ [last]) = last.canOpen := by simp [canOpen]
  cases body with
  | nil =>
    have hnext : overflow l last =
        some { { l with mBuffer := text [last] }.writeLine last.canOpen with mBuffer := [] } := by
      simp [overflow, h.enabled, h.empty, hlast, hsink, text]
    rw [List.nil_append] at hopen ⊢
    rw [hopen, Run.exec_cons_of_some hnext, Run.exec_nil]
  | cons put body =>
    have hnext : overflow { l with mBuffer := text (put :: body) } last =
        some { { l with mBuffer := text (put :: body ++ [last]) }.writeLine last.canOpen with
          mBuffer := [] } := by
      simp [overflow, h.enabled, hlast, hsink, text]
    rw [Run.exec_append_of_some (exec_begin hbody h), hopen, Run.exec_cons_of_some hnext, Run.exec_nil]

/-- What a line does to a log that goes to `cout`. -/
private theorem exec_line_cout {line : List LogPut} (hline : IsLine line) (h : l.Between)
    (hsink : l.mLogTo = .COUT) :
    ∃ l', Run.exec overflow l line = some l' ∧ l'.Between ∧ Grown l l' (text line) [] 0 := by
  refine ⟨_, exec_line hline h (by rw [hsink]; decide), ?_, ?_⟩
  · constructor <;> simp [writeLine, hsink, LogType.COUT, h.enabled, h.noText]
  · constructor <;> simp [writeLine, hsink, LogType.COUT]

/-- The first line after the opening of the file closes it, and is lost. -/
private theorem exec_line_open {line : List LogPut} (hline : IsLine line) (h : l.Between)
    (hsink : l.mLogTo = .FILE) (hopen : l.mLogFile.isOpen = true) :
    ∃ l', Run.exec overflow l line = some l' ∧ l'.Between ∧ l'.mLogFile.isOpen = false ∧
      Grown l l' [] [] 0 := by
  have hofs := OFStream.close_write_openFile_of_open hopen (canOpen line) (text line)
  rw [h.noText] at hofs
  have hisOpen : (l.mLogFile.openFile (canOpen line)).isOpen = true := by
    simp [OFStream.openFile, hopen]
  refine ⟨_, exec_line hline h (by rw [hsink]; decide), ?_, ?_, ?_⟩
  · constructor <;> simp [writeLine, toFile, hsink, LogType.FILE, hisOpen, hofs, h.enabled]
  · simp [writeLine, toFile, hsink, LogType.FILE, hisOpen, hofs]
  · constructor <;> simp [writeLine, toFile, hsink, LogType.FILE, hisOpen, hofs]

/-- Every other line is appended to the file if that can be opened. -/
private theorem exec_line_file {line : List LogPut} (hline : IsLine line) (h : l.Between)
    (hsink : l.mLogTo = .FILE) (hclosed : l.mLogFile.isOpen = false) :
    ∃ l', Run.exec overflow l line = some l' ∧ l'.Between ∧ l'.mLogFile.isOpen = false ∧
      if canOpen line then Grown l l' [] (text line) 0 else Grown l l' [] [] 1 := by
  refine ⟨_, exec_line hline h (by rw [hsink]; decide), ?_⟩
  cases hopen : canOpen line with
  | true =>
    -- opened, written and closed, the file has the line
    have hofs := OFStream.close_write_openFile hclosed (text line)
    rw [h.noText, List.nil_append] at hofs
    have hisOpen : (l.mLogFile.openFile true).isOpen = true := by
      simp [OFStream.openFile, hclosed]
    refine ⟨?_, ?_, ?_⟩
    · constructor <;> simp [writeLine, toFile, hsink, LogType.FILE, hisOpen, hofs, h.enabled]
    · simp [writeLine, toFile, hsink, LogType.FILE, hisOpen, hofs]
    · rw [if_pos rfl]
      constructor <;> simp [writeLine, toFile, hsink, LogType.FILE, hisOpen, hofs]
  | false =>
    -- the line is lost, and the failure is told on `cerr`
    have hofs : l.mLogFile.openFile false = ⟨false, true, []⟩ := by
      simp [OFStream.openFile, hclosed, h.noText]
    refine ⟨?_, ?_, ?_⟩
    · constructor <;> simp [writeLine, toFile, hsink, LogType.FILE, hofs, h.enabled]
    · simp [writeLine, toFile, hsink, LogType.FILE, hofs]
    · rw [if_neg (by decide)]
      constructor <;> simp [writeLine, toFile, hsink, LogType.FILE, hofs]

/-! ## The log -/

/-- The beginning of a line that never ends is not logged. -/
private theorem exec_tail {tail : List LogPut} (htail : ∀ put ∈ tail, put.i ≠ newline)
    (h : l.Between) : ∃ l', Run.exec overflow l tail = some l' ∧ Grown l l' [] [] 0 := by
  cases tail with
  | nil => exact ⟨l, rfl, .refl l⟩
  | cons put tail =>
    refine ⟨_, exec_begin htail h, ?_⟩
    constructor <;> simp

/-- On standard output every line appears. -/
private theorem exec_lines_cout {lines : List (List LogPut)} (hlines : ∀ line ∈ lines, IsLine line)
    (h : l.Between) (hsink : l.mLogTo = .COUT) :
    ∃ l', Run.exec overflow l lines.flatten = some l' ∧ l'.Between ∧
      Grown l l' (lines.flatMap text) [] 0 := by
  induction lines generalizing l with
  | nil => exact ⟨l, rfl, h, .refl l⟩
  | cons line lines ih =>
    obtain ⟨l₁, hfirst, h₁, hgrown⟩ := exec_line_cout (hlines line List.mem_cons_self) h hsink
    obtain ⟨l₂, hrest, h₂, hgrown'⟩ :=
      ih (fun l hl => hlines l (List.mem_cons_of_mem _ hl)) h₁ (hgrown.sink.trans hsink)
    refine ⟨l₂, ?_, h₂, hgrown.trans hgrown'⟩
    rw [List.flatten_cons, Run.exec_append_of_some hfirst, hrest]

/-- In the file every line appears whose open succeeds. -/
private theorem exec_lines_file {lines : List (List LogPut)} (hlines : ∀ line ∈ lines, IsLine line)
    (h : l.Between) (hsink : l.mLogTo = .FILE) (hclosed : l.mLogFile.isOpen = false) :
    ∃ l', Run.exec overflow l lines.flatten = some l' ∧ l'.Between ∧
      Grown l l' [] ((lines.filter canOpen).flatMap text) (lines.countP (!canOpen ·)) := by
  induction lines generalizing l with
  | nil => exact ⟨l, rfl, h, .refl l⟩
  | cons line lines ih =>
    -- every line closes the file it has opened
    obtain ⟨l₁, hfirst, h₁, hclosed₁, hgrown⟩ :=
      exec_line_file (hlines line List.mem_cons_self) h hsink hclosed
    have hsink₁ : l₁.mLogTo = .FILE := by
      split at hgrown <;> exact hgrown.sink.trans hsink
    obtain ⟨l₂, hrest, h₂, hgrown'⟩ :=
      ih (fun l hl => hlines l (List.mem_cons_of_mem _ hl)) h₁ hsink₁ hclosed₁
    refine ⟨l₂, ?_, h₂, ?_⟩
    · rw [List.flatten_cons, Run.exec_append_of_some hfirst, hrest]
    · cases hopen : canOpen line with
      | true =>
        rw [if_pos hopen] at hgrown
        rw [List.filter_cons_of_pos hopen, List.countP_cons_of_neg (by simp [hopen])]
        have htrans := hgrown.trans hgrown'
        rwa [Nat.zero_add] at htrans
      | false =>
        rw [if_neg (by rw [hopen]; decide)] at hgrown
        rw [List.filter_cons_of_neg (by simp [hopen]), List.countP_cons_of_pos (by simp [hopen])]
        have htrans := hgrown.trans hgrown'
        rwa [Nat.add_comm] at htrans

/-- With `-d` nothing is logged, whatever the sinks are, and nothing is collected either. -/
theorem log_disabled (l : LogFile) (puts : List LogPut) :
    Run.exec overflow l.disableLogging puts = some l.disableLogging := by
  induction puts with
  | nil => rfl
  | cons put puts ih =>
    have hput : overflow l.disableLogging put = some l.disableLogging := by
      simp [overflow, disableLogging]
    rw [Run.exec_cons_of_some hput, ih]

end LogFile

end DvbHdhomerun
