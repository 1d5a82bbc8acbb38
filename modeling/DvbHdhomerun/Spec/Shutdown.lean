import DvbHdhomerun.ForStd.Run
import DvbHdhomerun.Spec.Sequential
import DvbHdhomerun.Spec.ControlMoves

/-!
# Stopping the control thread

* `stop_waits`: the main thread returns from `stop` after the end of the control thread
  exactly if it does not look at `m_running` before the thread has set it
* `messages_handled`: whatever happens, no message that has been read is lost or handled
  twice, and at most one is read after `pre_stop`
-/

namespace DvbHdhomerun

namespace ControlRun

variable {s s' : ControlRun} {a : Action}

/-! ## Waiting for the end -/

/-- Between its first and its last statement. -/
def ControlPc.active : ControlPc → Bool
  | .notCreated | .created | .finished => false
  | _ => true

/-- `ThreadPthread::stop` has returned. -/
def MainPc.stopped : MainPc → Bool
  | .deleting | .deleted => true
  | _ => false

/-- From the return of `stop` on the control thread does nothing more with what is deleted. -/
def StopWaits (s : ControlRun) : Prop :=
  MainPc.stopped s.main = true → s.pc = .notCreated ∨ s.pc = .finished

/-- The main thread finds `m_running` unset only when the thread, if there is one, has set it. -/
def LooksAfterStart (s : ControlRun) : Action → Prop
  | .main _ => s.main = .waitStop → s.mRunning = false → s.pc ≠ .created
  | _ => True

instance (s : ControlRun) (a : Action) : Decidable (LooksAfterStart s a) :=
  match a with
  | .main _ =>
    inferInstanceAs (Decidable (s.main = .waitStop → s.mRunning = false → s.pc ≠ .created))
  | .signal | .thread | .eintr | .read _ | .handle _ | .post _ | .get | .setWait _ | .resetKernel
  | .resetUser => inferInstanceAs (Decidable True)

/-- The write at the end of a handler belongs to the thread's activity. -/
private theorem WriteMove.active {rest : List UInt8} {w : WritePc} {pc : ControlPc}
    {fifo : Fifo UInt8 controlBufsize} (h : WriteMove s rest w pc fifo) :
    ControlPc.active pc = true := by
  cases h <;> rfl

/-- On its way back from a message the thread is active. -/
private theorem active_ofReply (reply : Option ControlMesg) :
    ControlPc.active (.ofReply reply) = true := by
  cases reply <;> rfl

/-- `m_running` is set exactly while the thread is active. -/
structure StartInv (s : ControlRun) : Prop where
  starting : s.main = .starting → s.pc = .notCreated
  running : s.mRunning = ControlPc.active s.pc

/-- A step of the control thread from `pc`. -/
private theorem StartInv.thread (h : StartInv s) {pc : ControlPc} (hpc : s.pc = pc)
    (hne : pc ≠ .notCreated) (hmain : s'.main = s.main)
    (hrunning : s'.mRunning = ControlPc.active s'.pc) : StartInv s' where
  starting := fun hstart => absurd (hpc.symm.trans (h.starting (hmain ▸ hstart))) hne
  running := hrunning

/-- Every step keeps `m_running` set exactly while the thread is active. -/
theorem StartInv.step (h : StartInv s) (hs : s.step a = some s') : StartInv s' := by
  have hrunning := h.running
  cases step_move hs with
  | started created hmain =>
    rw [h.starting hmain] at hrunning
    refine ⟨by simp, ?_⟩
    cases created <;> exact hrunning
  | setStop | preStop | stopped | deleted | signal => exact ⟨by simp, hrunning⟩
  | waits | eintr => exact h
  | post | get | setWait | resetKernel | resetUser => exact ⟨h.starting, hrunning⟩
  | begun hpc | left hpc => exact h.thread hpc (by simp) rfl rfl
  | opened hpc | selected hpc | broke dev hpc | passed dev hpc | noMessage hpc | emptied hpc
  | popped hpc | closed hpc | read stale mesg fifo hpc =>
    rw [hpc] at hrunning
    exact h.thread hpc (by simp) rfl hrunning
  | wrote w rest pc fifo hpc hwrite =>
    rw [hpc] at hrunning
    exact h.thread hpc (by simp) rfl (hrunning.trans hwrite.active.symm)
  | handled d mesg mMessages hpc =>
    rw [hpc] at hrunning
    exact h.thread hpc (by simp) rfl (hrunning.trans (active_ofReply _).symm)

/-- One step, when the main thread does not look before the thread has begun. -/
private theorem StopWaits.step (h : StopWaits s) (hstart : StartInv s)
    (hlooks : LooksAfterStart s a) (hs : s.step a = some s') : StopWaits s' := by
  cases step_move hs with
  | started | setStop | preStop | signal => simp [StopWaits, MainPc.stopped]
  | waits | eintr | post | get | setWait | resetKernel | resetUser => exact h
  | stopped created hmain hrunning =>
    -- the thread is not active, and has not been created without having begun
    intro _
    have hcreated : s.pc ≠ .created := hlooks hmain hrunning
    have hactive := hstart.running
    rw [hrunning] at hactive
    cases hpc : s.pc with
    | notCreated => exact .inl rfl
    | finished => exact .inr rfl
    | created => exact absurd hpc hcreated
    | opening | select | testPipe | testDev | process | write | pop | closing | leaving =>
      rw [hpc] at hactive
      exact absurd hactive (by simp [ControlPc.active])
  | deleted created hmain =>
    intro _
    apply h
    rw [hmain]
    rfl
  | begun hpc | opened hpc | selected hpc | broke dev hpc | passed dev hpc | noMessage hpc
  | emptied hpc | wrote w rest pc fifo hpc | popped hpc | closed hpc | left hpc
  | read stale mesg fifo hpc | handled d mesg mMessages hpc =>
    -- the thread has taken a step, so that `stop` has not returned
    intro hstopped
    rcases h hstopped with hnone | hfinished
    · exact absurd (hpc.symm.trans hnone) (by simp)
    · exact absurd (hpc.symm.trans hfinished) (by simp)

/-- The main thread returns from `stop`, and goes on to delete `m_control` and the tuners,
    after the last statement of the control thread, exactly in the runs in which it never
    looks at `m_running` between the creation of that thread and its first statement. -/
theorem stop_waits (tuners : List HdhomerunTuner) (acts : List Action) :
    Run.EveryState step StopWaits (init tuners) acts ↔
      Run.Guarded step LooksAfterStart (init tuners) acts := by
  have h₀ : StartInv (init tuners) ∧ StopWaits (init tuners) :=
    ⟨⟨fun _ => rfl, rfl⟩, fun _ => .inl rfl⟩
  have hstep : ∀ s a s', StartInv s ∧ StopWaits s → LooksAfterStart s a → s.step a = some s' →
      StartInv s' ∧ StopWaits s' := by
    rintro s a s' ⟨hstart, hwaits⟩ hlooks hs
    exact ⟨hstart.step hs, hwaits.step hstart hlooks hs⟩
  refine Run.everyState_iff_guarded hstep (fun _ => And.right) ?_ h₀
  intro s a s' hinv hs hwaits
  cases step_move hs with
  | stopped created hmain hrunning =>
    intro _ _ hcreated
    rcases hwaits rfl with hpc | hpc
    · exact absurd (hcreated.symm.trans hpc) (by decide)
    · exact absurd (hcreated.symm.trans hpc) (by decide)
  | started created hmain | setStop created hmain | preStop created hmain | deleted created hmain =>
    exact fun hwait => absurd (hmain.symm.trans hwait) (by decide)
  | waits created hmain hrunning =>
    exact fun _ hunset => absurd (hrunning.symm.trans hunset) (by decide)
  | _ => trivial

/-- The signal comes before the thread runs: `m_control` is deleted under it. -/
example : ¬ Run.Guarded step LooksAfterStart (init [])
    [.main true, .signal, .main true, .main true, .main true, .main true, .thread] := by decide

/-! ## The messages -/

/-- A message may still be read before the next `select`. -/
def ControlPc.mayRead : ControlPc → Nat
  | .testPipe false _ | .testDev _ => 1
  | _ => 0

/-- The handler of the message at the front of `m_messages` has run. -/
def ControlPc.answering : ControlPc → Bool
  | .write _ _ | .pop => true
  | _ => false

/-- The messages that have been read and whose handler has not run. -/
def unhandled (s : ControlRun) : List ControlMesg :=
  if ControlPc.answering s.pc then s.messages.mMessages.tail else s.messages.mMessages

/-- What has been read has been handled, one message after the other, or is still to be. -/
structure Handled (tuners : List HdhomerunTuner) (s : ControlRun) : Prop where
  order : s.read = s.handled.map Prod.fst ++ s.unhandled
  /-- the queue is empty but in `ProcessMessages` -/
  empty : s.pc ≠ .process → ControlPc.answering s.pc = false → s.messages.mMessages = []
  single : s.messages.mMessages.length ≤ 1
  tuners_eq : s.messages.tuners = (Control.sequential tuners s.handled).1
  written_eq : s.messages.written = (Control.sequential tuners s.handled).2.filterMap id
  late : ∀ n, s.readAtClose = some n → s.read.length + ControlPc.mayRead s.pc ≤ n + 1

/-- Nothing is read, handled or waiting at the start. -/
private theorem Handled.init (tuners : List HdhomerunTuner) : Handled tuners (init tuners) where
  order := rfl
  empty := fun _ _ => rfl
  single := Nat.zero_le 1
  tuners_eq := rfl
  written_eq := rfl
  late := fun _ h => by cases h

/-- The pipe is closed when the main thread is past `pre_stop`. -/
structure PipeInv (s : ControlRun) : Prop where
  closed : s.pipeOpen = s.readAtClose.isNone
  main : s.pipeOpen = false → s.main = .waitStop ∨ MainPc.stopped s.main = true

/-- Only closing the pipe changes what has been read at its close. -/
private theorem PipeInv.step (h : PipeInv s) (hs : s.step a = some s') : PipeInv s' := by
  have hopen : ∀ {m : MainPc}, s.main = m → m ≠ .waitStop → MainPc.stopped m = false →
      s.pipeOpen = true := by
    intro m hmain hwait hstop
    by_contra hclosed
    rcases h.main (by simpa using hclosed) with hm | hm
    · exact hwait (hmain.symm.trans hm)
    · rw [hmain, hstop] at hm
      cases hm
  cases step_move hs with
  | started created hmain | setStop created hmain | signal hmain =>
    have hpipe := hopen hmain (by decide) rfl
    exact ⟨h.closed, fun hclosed => absurd (hpipe.symm.trans hclosed) (by decide)⟩
  | preStop => exact ⟨rfl, fun _ => .inl rfl⟩
  | stopped | deleted => exact ⟨h.closed, fun _ => .inr rfl⟩
  | _ => exact ⟨h.closed, h.main⟩

variable {tuners : List HdhomerunTuner}

/-- A step that reads, handles and pops nothing. -/
private theorem Handled.goes (h : Handled tuners s) (hmessages : s'.messages = s.messages)
    (hread : s'.read = s.read) (hhandled : s'.handled = s.handled)
    (hanswering : ControlPc.answering s'.pc = ControlPc.answering s.pc)
    (hempty : s'.pc ≠ .process → ControlPc.answering s.pc = false → s.messages.mMessages = [])
    (hlate : ∀ n, s'.readAtClose = some n → s.read.length + ControlPc.mayRead s'.pc ≤ n + 1) :
    Handled tuners s' where
  order := by rw [hread, hhandled, unhandled, hanswering, hmessages, h.order, unhandled]
  empty := fun hpc hno => by rw [hmessages, hempty hpc (hanswering ▸ hno)]
  single := by rw [hmessages]; exact h.single
  tuners_eq := by rw [hmessages, hhandled, h.tuners_eq]
  written_eq := by rw [hmessages, hhandled, h.written_eq]
  late := fun n hn => by rw [hread]; exact hlate n hn

/-- A statement of the thread at `pc` that reads, handles and pops nothing. -/
private theorem Handled.thread (h : Handled tuners s) {pc : ControlPc} (hpc : s.pc = pc)
    (hne : pc ≠ .process) (hanswering : ControlPc.answering s'.pc = ControlPc.answering pc)
    (hmay : ControlPc.mayRead s'.pc ≤ ControlPc.mayRead pc) (hmessages : s'.messages = s.messages)
    (hread : s'.read = s.read) (hhandled : s'.handled = s.handled)
    (hclose : s'.readAtClose = s.readAtClose) : Handled tuners s' := by
  refine h.goes hmessages hread hhandled (by rw [hpc, hanswering])
    (fun _ => h.empty (by rw [hpc]; exact hne)) fun n hn => ?_
  have hlate := h.late n (hclose ▸ hn)
  rw [hpc] at hlate
  omega

/-- A write leads to a write or to the pop. -/
private theorem WriteMove.answering {rest : List UInt8} {w : WritePc} {pc : ControlPc}
    {fifo : Fifo UInt8 controlBufsize} (h : WriteMove s rest w pc fifo) :
    ControlPc.answering pc = true ∧ ControlPc.mayRead pc = 0 := by
  cases h <;> exact ⟨rfl, rfl⟩

/-- On its way back from a message the thread answers, and reads no other one before that. -/
private theorem answering_ofReply (reply : Option ControlMesg) :
    ControlPc.answering (.ofReply reply) = true ∧ ControlPc.mayRead (.ofReply reply) = 0 := by
  cases reply <;> exact ⟨rfl, rfl⟩

/-- The thread reads a message. -/
private theorem Handled.read (h : Handled tuners s) (hpc : s.pc = .testDev true)
    (mesg : ControlMesg) (fifo : Fifo UInt8 controlBufsize) : Handled tuners { s with
      pc := .process
      controlFifoUser := fifo
      messages := { s.messages with mMessages := s.messages.mMessages ++ [mesg] }
      read := s.read ++ [mesg] } := by
  have hempty := h.empty (by rw [hpc]; decide) (by rw [hpc]; rfl)
  have horder := h.order
  have hunhandled : s.unhandled = s.messages.mMessages := by rw [unhandled, hpc]; rfl
  rw [hunhandled] at horder
  refine ⟨?_, fun hne => absurd rfl hne, ?_, h.tuners_eq, h.written_eq, fun n hn => ?_⟩
  · show s.read ++ [mesg] = s.handled.map Prod.fst ++ (s.messages.mMessages ++ [mesg])
    rw [horder, List.append_assoc]
  · show (s.messages.mMessages ++ [mesg]).length ≤ 1
    rw [hempty]
    exact Nat.le_refl 1
  · have hlate := h.late n hn
    rw [hpc] at hlate
    show (s.read ++ [mesg]).length + 0 ≤ n + 1
    rw [List.length_append]
    exact hlate

/-- The handler of the front message: what it does to the tuners and what it gives to
    `WriteToDevice` is what the sequential server does with the message. -/
private theorem Handled.handled (h : Handled tuners s) {d : DeviceResults} {mesg : ControlMesg}
    {mMessages : List ControlMesg} (hpc : s.pc = .process)
    (hmsgs : s.messages.mMessages = mesg :: mMessages) : Handled tuners { s with
      pc := .ofReply (Control.processMessage s.messages.tuners mesg d).reply
      messages := { s.messages with
        tuners := (Control.processMessage s.messages.tuners mesg d).tuners
        written := s.messages.written ++
          (Control.processMessage s.messages.tuners mesg d).reply.toList }
      handled := s.handled ++ [(mesg, d)] } := by
  obtain ⟨hanswering, hmay⟩ :=
    answering_ofReply (Control.processMessage s.messages.tuners mesg d).reply
  -- the message leaves those to be handled and joins the handled ones
  have horder := h.order
  have hunhandled : s.unhandled = mesg :: mMessages := by rw [unhandled, hpc, hmsgs]; rfl
  rw [hunhandled] at horder
  refine ⟨?_, fun _ hno => absurd (hanswering.symm.trans hno) (by decide), h.single, ?_, ?_,
    fun n hn => ?_⟩
  · rw [unhandled, if_pos hanswering]
    show s.read = (s.handled ++ [(mesg, d)]).map Prod.fst ++ s.messages.mMessages.tail
    rw [horder, hmsgs, List.map_append, List.append_assoc]
    rfl
  · show (Control.processMessage s.messages.tuners mesg d).tuners = _
    rw [Control.sequential_concat, ← h.tuners_eq]
  · show s.messages.written ++ (Control.processMessage s.messages.tuners mesg d).reply.toList = _
    rw [Control.sequential_concat, ← h.tuners_eq, List.filterMap_append, h.written_eq]
    cases (Control.processMessage s.messages.tuners mesg d).reply <;> rfl
  · have hlate := h.late n hn
    rw [hpc] at hlate
    rw [hmay]
    exact hlate

/-- The thread takes the message from its queue. -/
private theorem Handled.popped (h : Handled tuners s) (hpc : s.pc = .pop) : Handled tuners { s with
      pc := .process
      messages := { s.messages with mMessages := s.messages.mMessages.tail } } := by
  have horder := h.order
  have hunhandled : s.unhandled = s.messages.mMessages.tail := by rw [unhandled, hpc]; rfl
  rw [hunhandled] at horder
  refine ⟨horder, fun hne => absurd rfl hne, ?_, h.tuners_eq, h.written_eq, fun n hn => ?_⟩
  · have hsingle := h.single
    show s.messages.mMessages.tail.length ≤ 1
    rw [List.length_tail]
    omega
  · have hlate := h.late n hn
    rw [hpc] at hlate
    exact hlate

/-- One step of the whole process, by what it does to the queue of messages. -/
private theorem Handled.step (h : Handled tuners s) (hpipe : PipeInv s)
    (hstart : s.main = .starting → s.pc = .notCreated) (hs : s.step a = some s') :
    Handled tuners s' := by
  cases step_move hs with
  | started created hmain =>
    cases created <;> exact h.thread (hstart hmain) (by simp) rfl (Nat.le_refl _) rfl rfl rfl rfl
  | preStop created hmain =>
    refine h.goes rfl rfl rfl rfl h.empty fun n hn => ?_
    cases hn
    have hmay : ControlPc.mayRead s.pc ≤ 1 := by
      unfold ControlPc.mayRead
      split <;> decide
    show s.read.length + ControlPc.mayRead s.pc ≤ s.read.length + 1
    omega
  | setStop | stopped | deleted | signal | post | get | setWait | resetKernel | resetUser =>
    exact h.goes rfl rfl rfl rfl h.empty h.late
  | waits | eintr => exact h
  | begun hpc | opened hpc | broke dev hpc | passed dev hpc | noMessage hpc | closed hpc
  | left hpc =>
    exact h.thread hpc (by simp) rfl (by simp [ControlPc.mayRead]) rfl rfl rfl rfl
  | selected hpc =>
    refine h.goes rfl rfl rfl (by rw [hpc]; rfl) (fun _ => h.empty (by rw [hpc]; decide))
      fun n hn => ?_
    have hlate := h.late n hn
    -- the pipe has been closed, so that it is seen
    have hclosed : s.pipeOpen = false := by
      rw [hpipe.closed]
      have hn' : s.readAtClose = some n := hn
      rw [hn']
      rfl
    rw [hpc] at hlate
    rw [hclosed]
    exact hlate
  | emptied hpc hempty =>
    refine h.goes rfl rfl rfl (by rw [hpc]; rfl) (fun _ _ => hempty) fun n hn => ?_
    have hlate := h.late n hn
    rw [hpc] at hlate
    exact hlate
  | wrote w rest pc fifo hpc hwrite =>
    obtain ⟨hanswering, hmay⟩ := hwrite.answering
    exact h.thread hpc (by simp) hanswering (hmay.symm ▸ Nat.zero_le _) rfl rfl rfl rfl
  | popped hpc => exact h.popped hpc
  | read stale mesg fifo hpc => exact h.read hpc mesg fifo
  | handled d mesg mMessages hpc hmsgs => exact h.handled hpc hmsgs

/-- What holds in every state, whatever the main thread looks at. -/
structure RunInv (tuners : List HdhomerunTuner) (s : ControlRun) : Prop where
  start : StartInv s
  pipe : PipeInv s
  handled : Handled tuners s

/-- A process that has not started its thread. -/
theorem RunInv.init (tuners : List HdhomerunTuner) : RunInv tuners (init tuners) :=
  ⟨⟨fun _ => rfl, rfl⟩, ⟨rfl, fun h => by cases h⟩, .init tuners⟩

/-- The three are kept together. -/
theorem RunInv.step (h : RunInv tuners s) (hs : s.step a = some s') : RunInv tuners s' :=
  ⟨h.start.step hs, h.pipe.step hs, h.handled.step h.pipe h.start.starting hs⟩

/-- They hold after every run from the start. -/
theorem RunInv.of_run {acts : List Action}
    (hrun : Run.exec ControlRun.step (ControlRun.init tuners) acts = some s) : RunInv tuners s :=
  Run.exec_keeps (fun _ _ _ hinv hs => hinv.step hs) (RunInv.init tuners) hrun

/-- Outside `ProcessMessages` and behind a handler nothing is left to be handled. -/
private theorem Handled.unhandled_eq_nil (h : Handled tuners s) (hpc : s.pc ≠ .process) :
    s.unhandled = [] := by
  have hsingle := h.single
  rw [unhandled]
  split
  · apply List.eq_nil_of_length_eq_zero
    rw [List.length_tail]
    omega
  · exact h.empty hpc (by simpa using ‹¬ ControlPc.answering s.pc = true›)

/-- In every run, with interruptions, late messages, blocked writes and reset FIFOs: what has
    been read has been handled, one message after the other and each once, or is still to be,
    and only in `ProcessMessages` is the queue not empty; the tuners and the replies are what
    the sequential server makes of it; and after `pre_stop` has closed the pipe at most one
    more message is read. -/
theorem messages_handled {acts : List Action} (hrun : Run.exec step (init tuners) acts = some s) :
    s.read = s.handled.map Prod.fst ++ s.unhandled ∧
      (s.pc ≠ .process → s.unhandled = []) ∧
      (s.pc ≠ .process → ControlPc.answering s.pc = false → s.messages.mMessages = []) ∧
      s.messages.tuners = (Control.sequential tuners s.handled).1 ∧
      s.messages.written = (Control.sequential tuners s.handled).2.filterMap id ∧
      ∀ n, s.readAtClose = some n → s.read.length ≤ n + 1 := by
  have h := (RunInv.of_run hrun).handled
  refine ⟨h.order, h.unhandled_eq_nil, h.empty, h.tuners_eq, h.written_eq, fun n hn => ?_⟩
  have hlate := h.late n hn
  omega

/-- A message arrives while `select` waits; the pipe is closed before it is read. -/
def lateMessage : List Action :=
  [.main true, .thread, .thread, .post (.setType .zero .feReadStatus), .thread, .signal,
    .main true, .main true]

/-- The message is read and handled, and its reply, which is awaited, has been written. -/
def lateReply : List Action :=
  [.setWait true, .thread, .read .zero, .handle Schedule.deviceOk, .thread, .thread, .thread,
    .thread]

/-- A message that is read after the pipe was closed is still handled, and its reply written. -/
theorem messages_handled_late :
    ∃ s, Run.exec step (init []) (lateMessage ++ lateReply) = some s ∧ s.readAtClose = some 0 ∧
      s.read.length = 1 ∧ s.controlFifoKernel.len = 36 ∧ s.read = s.handled.map Prod.fst := by
  let acts := lateMessage ++ lateReply
  let s := (Run.exec step (init []) acts).get (by decide)
  have hrun : Run.exec step (init []) acts = some s := (Option.some_get _).symm
  obtain ⟨horder, hempty, -, -, -, -⟩ := messages_handled hrun
  have hpc : s.pc ≠ .process := by decide
  rw [hempty hpc, List.append_nil] at horder
  exact ⟨s, hrun, by decide, by decide, by decide, horder⟩

end ControlRun

end DvbHdhomerun
