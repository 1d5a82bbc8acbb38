import DvbHdhomerun.User.ControlThread

/-!
# The steps of the control thread's end

What every action of `ControlRun` does and when it is possible, one constructor for each
branch of the source. The statements of `hdhomerun_control_write` touch nothing but the next
statement and `control_fifo_kernel`, so they are one constructor of `Move`, told apart by
`WriteMove`.
-/

namespace DvbHdhomerun

namespace ControlRun

variable {s s' : ControlRun} {a : Action}

/-- A statement of `hdhomerun_control_write` with `rest` to write: the next statement and the
    reply FIFO behind it. -/
inductive WriteMove (s : ControlRun) (rest : List UInt8) :
    WritePc → ControlPc → Fifo UInt8 controlBufsize → Prop where
  | awaited (hwait : s.waitForWrite = true) :
      WriteMove s rest .test (.write .full rest) s.controlFifoKernel
  | ignored (hwait : s.waitForWrite = false) :
      WriteMove s rest .test (.write .wake []) s.controlFifoKernel
  | full (hlen : s.controlFifoKernel.len = controlBufsize) :
      WriteMove s rest .full (.write .wait rest) s.controlFifoKernel
  | room (hlen : s.controlFifoKernel.len < controlBufsize) :
      WriteMove s rest .full (.write .put rest) s.controlFifoKernel
  | retested (hlen : s.controlFifoKernel.len < controlBufsize) :
      WriteMove s rest .wait (.write .full rest) s.controlFifoKernel
  | slept (hlen : s.controlFifoKernel.len = controlBufsize) :
      WriteMove s rest .wait (.write .sleep rest) s.controlFifoKernel
  | put : WriteMove s rest .put
      (.write .wake (rest.drop (s.controlFifoKernel.put rest).1)) (s.controlFifoKernel.put rest).2
  | again (hrest : rest ≠ []) : WriteMove s rest .wake (.write .test rest) s.controlFifoKernel
  | done (hrest : rest = []) : WriteMove s rest .wake .pop s.controlFifoKernel

/-- What each action does, and when it is possible. -/
inductive Move (s : ControlRun) : Action → ControlRun → Prop where
  | started (created : Bool) (hmain : s.main = .starting) : Move s (.main created)
      { s with main := .waiting, pc := if created then .created else .notCreated }
  | setStop (created : Bool) (hmain : s.main = .setStop) :
      Move s (.main created) { s with main := .preStop, mStop := true }
  | preStop (created : Bool) (hmain : s.main = .preStop) : Move s (.main created)
      { s with main := .waitStop, pipeOpen := false, readAtClose := some s.read.length }
  | waits (created : Bool) (hmain : s.main = .waitStop) (hrunning : s.mRunning = true) :
      Move s (.main created) s
  | stopped (created : Bool) (hmain : s.main = .waitStop) (hrunning : s.mRunning = false) :
      Move s (.main created) { s with main := .deleting }
  | deleted (created : Bool) (hmain : s.main = .deleting) :
      Move s (.main created) { s with main := .deleted }
  | signal (hmain : s.main = .waiting) : Move s .signal { s with main := .setStop }
  | begun (hpc : s.pc = .created) : Move s .thread { s with pc := .opening, mRunning := true }
  | opened (hpc : s.pc = .opening) : Move s .thread { s with pc := .select }
  | selected (hpc : s.pc = .select) :
      Move s .thread { s with pc := .testPipe (!s.pipeOpen) (s.controlFifoUser.len != 0) }
  | broke (dev : Bool) (hpc : s.pc = .testPipe true dev) : Move s .thread { s with pc := .closing }
  | passed (dev : Bool) (hpc : s.pc = .testPipe false dev) :
      Move s .thread { s with pc := .testDev dev }
  | noMessage (hpc : s.pc = .testDev false) : Move s .thread { s with pc := .process }
  | emptied (hpc : s.pc = .process) (hempty : s.messages.mMessages = []) :
      Move s .thread { s with pc := .select }
  | wrote (w : WritePc) (rest : List UInt8) (pc : ControlPc) (fifo : Fifo UInt8 controlBufsize)
      (hpc : s.pc = .write w rest) (hwrite : WriteMove s rest w pc fifo) :
      Move s .thread { s with pc := pc, controlFifoKernel := fifo }
  | popped (hpc : s.pc = .pop) : Move s .thread { s with
      pc := .process
      messages := { s.messages with mMessages := s.messages.mMessages.tail } }
  | closed (hpc : s.pc = .closing) : Move s .thread { s with
      pc := .leaving
      controlFifoUser := .empty
      controlFifoKernel := .empty
      waitForWrite := false }
  | left (hpc : s.pc = .leaving) : Move s .thread { s with pc := .finished, mRunning := false }
  | eintr (hpc : s.pc = .select) : Move s .eintr s
  | read (stale mesg : ControlMesg) (fifo : Fifo UInt8 controlBufsize)
      (hpc : s.pc = .testDev true) : Move s (.read stale) { s with
        pc := .process
        controlFifoUser := fifo
        messages := { s.messages with mMessages := s.messages.mMessages ++ [mesg] }
        read := s.read ++ [mesg] }
  | handled (d : DeviceResults) (mesg : ControlMesg) (mMessages : List ControlMesg)
      (hpc : s.pc = .process) (hmsgs : s.messages.mMessages = mesg :: mMessages) :
      Move s (.handle d) { s with
        pc := .ofReply (Control.processMessage s.messages.tuners mesg d).reply
        messages := { s.messages with
          tuners := (Control.processMessage s.messages.tuners mesg d).tuners
          written := s.messages.written ++
            (Control.processMessage s.messages.tuners mesg d).reply.toList }
        handled := s.handled ++ [(mesg, d)] }
  | post (mesg : ControlMesg) : Move s (.post mesg)
      { s with controlFifoUser := (s.controlFifoUser.put mesg.bytes).2 }
  | get : Move s .get
      { s with controlFifoKernel := (s.controlFifoKernel.get sizeofControlMesg).2 }
  | setWait (value : Bool) : Move s (.setWait value) { s with waitForWrite := value }
  | resetKernel : Move s .resetKernel { s with controlFifoKernel := .empty }
  | resetUser : Move s .resetUser { s with controlFifoUser := .empty }

/-- Every statement of the write is one of the moves. -/
private theorem writeStep_move {w : WritePc} {rest : List UInt8}
    (h : s.writeStep w rest = some s') :
    ∃ pc fifo, WriteMove s rest w pc fifo ∧
      s' = { s with pc := pc, controlFifoKernel := fifo } := by
  have hle := s.controlFifoKernel.len_le
  cases w with
  | test =>
    cases h
    cases hwait : s.waitForWrite with
    | true => exact ⟨_, _, .awaited hwait, rfl⟩
    | false => exact ⟨_, _, .ignored hwait, rfl⟩
  | full =>
    simp only [writeStep] at h
    split at h <;> rename_i hlen <;> cases h
    · exact ⟨_, _, .full hlen, rfl⟩
    · exact ⟨_, _, .room (by omega), rfl⟩
  | wait =>
    simp only [writeStep] at h
    split at h <;> rename_i hlen <;> cases h
    · exact ⟨_, _, .retested hlen, rfl⟩
    · exact ⟨_, _, .slept (by omega), rfl⟩
  | sleep => cases h
  | put =>
    cases h
    exact ⟨_, _, .put, rfl⟩
  | wake =>
    simp only [writeStep] at h
    split at h <;> rename_i hrest <;> cases h
    · exact ⟨_, _, .done hrest, rfl⟩
    · exact ⟨_, _, .again hrest, rfl⟩

/-- So is every statement of the thread. -/
private theorem threadStep_move (h : s.threadStep = some s') : Move s .thread s' := by
  simp only [threadStep] at h
  split at h <;> rename_i hpc
  · cases h
  · cases h
    exact .begun hpc
  · cases h
    exact .opened hpc
  · split at h <;> cases h
    exact .selected hpc
  · rename_i pipe dev
    cases h
    cases pipe with
    | true => exact .broke dev hpc
    | false => exact .passed dev hpc
  · rename_i dev
    cases dev with
    | true => cases h
    | false =>
      cases h
      exact .noMessage hpc
  · split at h <;> rename_i hempty <;> cases h
    exact .emptied hpc hempty
  · obtain ⟨pc, fifo, hwrite, rfl⟩ := writeStep_move h
    exact .wrote _ _ pc fifo hpc hwrite
  · cases h
    exact .popped hpc
  · cases h
    exact .closed hpc
  · cases h
    exact .left hpc
  · cases h

/-- Every step is a move: the inversion of the step function. -/
theorem step_move (h : s.step a = some s') : Move s a s' := by
  cases a with
  | main created =>
    simp only [step, mainStep] at h
    split at h
    · cases h
      exact .started created ‹_›
    · cases h
    · cases h
      exact .setStop created ‹_›
    · cases h
      exact .preStop created ‹_›
    · split at h <;> cases h
      · exact .waits created ‹_› ‹_›
      · exact .stopped created ‹_› (by simpa using ‹¬ s.mRunning = true›)
    · cases h
      exact .deleted created ‹_›
    · cases h
  | signal =>
    simp only [step] at h
    split at h <;> cases h
    exact .signal ‹_›
  | thread => exact threadStep_move h
  | eintr =>
    simp only [step] at h
    split at h <;> cases h
    exact .eintr ‹_›
  | read stale =>
    simp only [step] at h
    split at h <;> rename_i hpc
    · simp only [readMessage] at h
      split at h <;> cases h
      exact .read stale _ _ hpc
    · cases h
  | handle d =>
    simp only [step, handle] at h
    split at h <;> rename_i hpc hmsgs <;> cases h
    exact .handled d _ _ hpc hmsgs
  | post mesg =>
    cases h
    exact .post mesg
  | get =>
    cases h
    exact .get
  | setWait value =>
    cases h
    exact .setWait value
  | resetKernel =>
    cases h
    exact .resetKernel
  | resetUser =>
    cases h
    exact .resetUser

end ControlRun

end DvbHdhomerun
