import DvbHdhomerun.Spec.Shutdown

/-!
# The end of the control thread

After `pre_stop` a few statements of the control thread are its last, whatever it was doing
(`control_thread_ends`): at most one more message is read, and its reply takes two writes at
most, since after one `get` from a full `control_fifo_kernel` there is room for a reply.

There are two places where the thread can be stuck for ever: the `read` of a message that a
release has taken out of `control_fifo_user` behind the back of `select`, and `outq`, where it
sleeps when a reply that is awaited finds `control_fifo_kernel` full twice (`asleep_stays`).
-/

namespace DvbHdhomerun

namespace ControlRun

variable {s s' : ControlRun} {a : Action} {tuners : List HdhomerunTuner}

/-! ## What is left to do -/

/-- One `put` is enough for `rest`, now or after the next `get` from a full FIFO. -/
abbrev OnePut (fifo : Fifo UInt8 controlBufsize) (rest : List UInt8) : Prop :=
  fifo.len = controlBufsize ∨ rest.length ≤ fifo.avail

/-- How many statements of the write are left, as long as it is not put to sleep. -/
def WritePc.rank (fifo : Fifo UInt8 controlBufsize) (rest : List UInt8) : WritePc → Nat
  | .test => if OnePut fifo rest then 6 else 10
  | .full =>
    if fifo.len = controlBufsize then 5 else if rest.length ≤ fifo.avail then 3 else 9
  | .wait => if OnePut fifo rest then 4 else 10
  | .sleep => 0
  | .put => if rest.length ≤ fifo.avail then 2 else 8
  | .wake => if rest = [] then 1 else if OnePut fifo rest then 7 else 11

/-- How many statements the control thread has left at `pc`, with `n` messages in
    `m_messages`, when the pipe has been closed. -/
def ControlPc.rank (fifo : Fifo UInt8 controlBufsize) (n : Nat) : ControlPc → Nat
  | .notCreated | .finished => 0
  | .leaving => 1
  | .closing => 2
  | .testPipe true _ => 3
  | .select => 4
  | .opening => 5
  | .created => 6
  | .process => 5 + 12 * n
  | .pop => 6
  | .write w rest => 6 + WritePc.rank fifo rest w
  | .testDev _ => 18
  | .testPipe false _ => 19

/-- How many statements the control thread has left when the pipe has been closed. -/
def rank (s : ControlRun) : Nat :=
  ControlPc.rank s.controlFifoKernel s.messages.mMessages.length s.pc

/-- No state is more than 19 steps from the end. -/
private theorem rank_le (h : Handled tuners s) : s.rank ≤ 19 := by
  have hsingle := h.single
  have hwrite : ∀ rest w, WritePc.rank s.controlFifoKernel rest w ≤ 11 := by
    intro rest w
    unfold WritePc.rank
    split <;> (try split_ifs) <;> omega
  rw [rank]
  unfold ControlPc.rank
  split
  case h_11 w rest _ =>
    have := hwrite rest w
    omega
  all_goals omega

/-! ## The write -/

/-- A `put` that does not fit fills the FIFO. -/
private theorem len_put_of_lt {fifo : Fifo UInt8 controlBufsize} {rest : List UInt8}
    (h : fifo.avail < rest.length) : (fifo.put rest).2.len = controlBufsize := by
  have hlen := fifo.len_add_avail
  rw [Fifo.len, Fifo.put_data, List.length_append, List.length_take, Nat.min_eq_left (by omega)]
  exact hlen

/-- Every statement of the write but the last leaves less of it, and the last one leaves it. -/
private theorem WriteMove.rank_lt {rest : List UInt8} {w : WritePc} {pc : ControlPc}
    {fifo : Fifo UInt8 controlBufsize} (h : WriteMove s rest w pc fifo) (n : Nat) :
    ControlPc.rank fifo n pc < ControlPc.rank s.controlFifoKernel n (.write w rest) := by
  have hlen := s.controlFifoKernel.len_add_avail
  cases h with
  | awaited | ignored | full hlen | room hlen | retested hlen | slept hlen =>
    simp only [ControlPc.rank, WritePc.rank, OnePut, if_true]
    split_ifs <;> omega
  | put =>
    simp only [ControlPc.rank, WritePc.rank]
    by_cases hfits : rest.length ≤ s.controlFifoKernel.avail
    · rw [if_pos hfits, if_pos]
      · omega
      · rw [Fifo.put_count, Nat.min_eq_left hfits, List.drop_length]
    · -- the FIFO is full now, so that the next put is the last
      have hfull : OnePut (s.controlFifoKernel.put rest).2
          (rest.drop (s.controlFifoKernel.put rest).1) := .inl (len_put_of_lt (by omega))
      rw [if_neg hfits, if_pos hfull]
      split_ifs <;> omega
  | again hrest =>
    simp only [ControlPc.rank, WritePc.rank]
    rw [if_neg hrest]
    split_ifs <;> omega
  | done hrest =>
    simp only [ControlPc.rank, WritePc.rank]
    rw [if_pos hrest]
    omega

/-- Room that others make in the FIFO does not make the write longer. -/
private theorem WritePc.rank_le_of_room {fifo fifo' : Fifo UInt8 controlBufsize}
    {rest : List UInt8} (hroom : fifo.avail ≤ fifo'.avail)
    (hput : OnePut fifo rest → OnePut fifo' rest) (w : WritePc) :
    WritePc.rank fifo' rest w ≤ WritePc.rank fifo rest w := by
  have hlen := fifo.len_add_avail
  have hlen' := fifo'.len_add_avail
  cases w with
  | sleep => exact Nat.le_refl 0
  | test | wait | put | wake | full =>
    simp only [WritePc.rank, OnePut] at hput ⊢
    split_ifs <;> omega

/-- What the stream has left to write is a message or a part of one. -/
def RestShort (s : ControlRun) : Prop :=
  ∀ w rest, s.pc = .write w rest → rest.length ≤ sizeofControlMesg

/-- Outside an answer there is nothing left to write. -/
private theorem RestShort.of_pc {pc : ControlPc} (hpc : s.pc = pc)
    (hne : ControlPc.answering pc = false) : RestShort s := by
  intro w rest hwrite
  rw [← hpc, hwrite] at hne
  cases hne

/-- One step never lengthens what is left to write. -/
private theorem RestShort.step (h : RestShort s) (hs : s.step a = some s') : RestShort s' := by
  cases step_move hs with
  | started created => cases created <;> exact .of_pc rfl rfl
  | setStop | preStop | waits | stopped | deleted | signal | eintr | post | get | setWait
  | resetKernel | resetUser => exact h
  | begun | opened | selected | broke | passed | noMessage | emptied | popped | closed | left
  | read => exact .of_pc rfl rfl
  | handled d mesg mMessages hpc hmsgs =>
    intro w rest hwrite
    have hpc' : ControlPc.ofReply (Control.processMessage s.messages.tuners mesg d).reply =
      .write w rest := hwrite
    cases hreply : (Control.processMessage s.messages.tuners mesg d).reply with
    | none => simp [hreply, ControlPc.ofReply] at hpc'
    | some reply =>
      rw [hreply] at hpc'
      cases hpc'
      -- a reply is one message
      exact Nat.le_of_eq reply.size
  | wrote w rest pc fifo hpc hwrite =>
    have hrest := h w rest hpc
    intro w' rest' hpc'
    -- a put takes bytes off, an ignored reply takes all
    cases hwrite with
    | awaited | full | room | retested | slept | again =>
      cases hpc'
      exact hrest
    | ignored =>
      cases hpc'
      exact Nat.zero_le _
    | put =>
      cases hpc'
      rw [List.length_drop]
      omega
    | done => cases hpc'

/-! ## Every statement counts -/

/-- A step of the control thread's own. -/
def Action.isThread : Action → Bool
  | .thread | .read _ | .handle _ => true
  | _ => false

/-- Room that others make in the reply FIFO does not keep the thread longer. -/
private theorem rank_le_of_room {fifo : Fifo UInt8 controlBufsize} (h : RestShort s)
    (hroom : s.controlFifoKernel.avail ≤ fifo.avail)
    (hfull : s.controlFifoKernel.len = controlBufsize → sizeofControlMesg ≤ fifo.avail) :
    ControlPc.rank fifo s.messages.mMessages.length s.pc ≤ s.rank := by
  rw [rank]
  cases hpc : s.pc with
  | write w rest =>
    have hrest := h w rest hpc
    have hput : OnePut s.controlFifoKernel rest → OnePut fifo rest := by
      rintro (hlen | hfits)
      · have := hfull hlen
        exact .inr (by omega)
      · exact .inr (by omega)
    exact Nat.add_le_add_left (WritePc.rank_le_of_room hroom hput w) 6
  | testPipe pipe dev => cases pipe <;> exact Nat.le_refl _
  | _ => exact Nat.le_refl _

/-- With the pipe closed every step of the thread brings it closer to its end. -/
private theorem rank_step (h : RunInv tuners s) (hrest : RestShort s) (hclosed : s.pipeOpen = false)
    (hs : s.step a = some s') :
    s'.pipeOpen = false ∧ s'.rank + (if a.isThread then 1 else 0) ≤ s.rank := by
  have hmain := h.pipe.main hclosed
  have hempty := h.handled.empty
  have hsingle := h.handled.single
  have hlen := s.controlFifoKernel.len_add_avail
  cases step_move hs with
  | started created hstart =>
    rw [hstart] at hmain
    exact absurd hmain (by simp [MainPc.stopped])
  | setStop | waits | stopped | deleted | signal | eintr | post | setWait | resetUser =>
    exact ⟨hclosed, Nat.le_refl _⟩
  | preStop => exact ⟨rfl, Nat.le_refl _⟩
  | get =>
    -- a client's get frees room in a full FIFO, and the write needs one put less
    refine ⟨hclosed, rank_le_of_room hrest ?_ fun hfull => ?_⟩
    · simp only [Fifo.avail, Fifo.len, Fifo.get_data, List.length_drop]
      omega
    · rw [Fifo.len] at hfull
      simp only [Fifo.avail, Fifo.len, Fifo.get_data, List.length_drop, hfull]
      decide
  | resetKernel =>
    refine ⟨hclosed, rank_le_of_room hrest ?_ fun _ => ?_⟩
    · show s.controlFifoKernel.avail ≤ controlBufsize
      omega
    · show sizeofControlMesg ≤ controlBufsize
      decide
  | begun hpc | opened hpc | broke dev hpc | passed dev hpc | closed hpc | left hpc =>
    refine ⟨hclosed, ?_⟩
    simp [rank, hpc, ControlPc.rank, Action.isThread]
  | selected hpc =>
    refine ⟨hclosed, ?_⟩
    simp [rank, hpc, hclosed, ControlPc.rank, Action.isThread]
  | read stale mesg fifo hpc | noMessage hpc =>
    refine ⟨hclosed, ?_⟩
    simp [rank, hpc, hempty, ControlPc.rank, ControlPc.answering, Action.isThread]
  | emptied hpc hmsgs =>
    refine ⟨hclosed, ?_⟩
    simp [rank, hpc, hmsgs, ControlPc.rank, Action.isThread]
  | wrote w rest pc fifo hpc hwrite =>
    refine ⟨hclosed, ?_⟩
    show ControlPc.rank fifo s.messages.mMessages.length pc + 1 ≤ s.rank
    rw [rank, hpc]
    exact hwrite.rank_lt s.messages.mMessages.length
  | popped hpc =>
    refine ⟨hclosed, ?_⟩
    simp only [rank, hpc, ControlPc.rank, Action.isThread, List.length_tail, if_true]
    omega
  | handled d mesg mMessages hpc hmsgs =>
    refine ⟨hclosed, ?_⟩
    -- the reply of the last message costs no more than the statement for handling it
    have hreply : ∀ reply, ControlPc.rank s.controlFifoKernel 1 (.ofReply reply) ≤ 16 := by
      intro reply
      cases reply with
      | none => simp [ControlPc.ofReply, ControlPc.rank]
      | some reply =>
        simp only [ControlPc.ofReply, ControlPc.rank, WritePc.rank]
        split <;> omega
    rw [hmsgs, List.length_cons] at hsingle
    have hone : mMessages.length = 0 := by omega
    simp only [rank, hpc, hmsgs, List.length_cons, hone]
    exact Nat.succ_le_succ (hreply _)

/-! ## Where the thread can be stuck -/

/-- A message that `select` has reported is still there when it is read. -/
def Reported (s : ControlRun) : Prop :=
  s.pc = .testDev true ∨ s.pc = .testPipe false true → s.controlFifoUser.len ≠ 0

/-- `control_fifo_user` is not reset between `select` and the read of what it reported. -/
def KeepsReported (s : ControlRun) : Action → Prop
  | .resetUser => s.pc ≠ .testDev true ∧ s.pc ≠ .testPipe false true
  | _ => True

instance (s : ControlRun) (a : Action) : Decidable (KeepsReported s a) :=
  match a with
  | .resetUser => inferInstanceAs (Decidable (_ ∧ _))
  | .main _ | .signal | .thread | .eintr | .read _ | .handle _ | .post _ | .get | .setWait _
  | .resetKernel => inferInstanceAs (Decidable True)

/-- About to test the condition of `wait_event_interruptible(outq, ..)`. -/
def ControlPc.beforeSleep : ControlPc → Bool
  | .write .wait _ => true
  | _ => false

/-- The test before the sleep on `outq` finds room in `control_fifo_kernel`. -/
def FindsRoom (s : ControlRun) : Action → Prop
  | .thread => ControlPc.beforeSleep s.pc = true → s.controlFifoKernel.len < controlBufsize
  | _ => True

instance (s : ControlRun) (a : Action) : Decidable (FindsRoom s a) :=
  match a with
  | .thread => inferInstanceAs (Decidable (_ = true → _ < controlBufsize))
  | .main _ | .signal | .eintr | .read _ | .handle _ | .post _ | .get | .setWait _ | .resetKernel
  | .resetUser => inferInstanceAs (Decidable True)

/-- The thread sleeps on `outq`. -/
def Asleep (s : ControlRun) : Prop := ∃ rest, s.pc = .write .sleep rest

/-- Where nothing has been reported there is nothing to keep. -/
private theorem Reported.of_pc {pc : ControlPc} (hpc : s.pc = pc) (hdev : pc ≠ .testDev true)
    (hpipe : pc ≠ .testPipe false true) : Reported s := by
  rintro (h | h)
  · exact absurd (hpc.symm.trans h) hdev
  · exact absurd (hpc.symm.trans h) hpipe

/-- One step that keeps what was reported. -/
private theorem Reported.step (h : Reported s) (hkeeps : KeepsReported s a)
    (hs : s.step a = some s') : Reported s' := by
  cases step_move hs with
  | started created => cases created <;> exact .of_pc rfl (by simp) (by simp)
  | setStop | preStop | waits | stopped | deleted | signal | eintr | get | setWait
  | resetKernel => exact h
  | post mesg =>
    -- a message has been put behind the one reported
    intro hpc
    have hlen := h hpc
    simp only [Fifo.len, Fifo.put_data, List.length_append] at hlen ⊢
    omega
  | resetUser =>
    rintro (hpc | hpc)
    · exact absurd hpc hkeeps.1
    · exact absurd hpc hkeeps.2
  | selected hpc =>
    rintro (hdev | hpipe)
    · cases hdev
    · have hready : (s.controlFifoUser.len != 0) = true := (ControlPc.testPipe.inj hpipe).2
      simpa using hready
  | passed dev hpc =>
    rintro (hdev | hpipe)
    · exact h (.inr (hpc.trans (by rw [ControlPc.testDev.inj hdev])))
    · cases hpipe
  | wrote w rest pc fifo hpc hwrite => cases hwrite <;> exact .of_pc rfl (by simp) (by simp)
  | handled d mesg mMessages hpc hmsgs =>
    refine .of_pc rfl ?_ ?_ <;>
      cases (Control.processMessage s.messages.tuners mesg d).reply <;> simp [ControlPc.ofReply]
  | begun | opened | broke | noMessage | emptied | popped | closed | left | read =>
    exact .of_pc rfl (by simp) (by simp)

/-- Nobody wakes up a thread that sleeps on `outq`. -/
private theorem Asleep.step (h : Asleep s) (hstart : StartInv s) (hs : s.step a = some s') :
    Asleep s' := by
  obtain ⟨rest, hsleep⟩ := h
  cases step_move hs with
  | started created hmain => exact absurd (hsleep.symm.trans (hstart.starting hmain)) (by simp)
  | setStop | preStop | waits | stopped | deleted | signal | eintr | post | get | setWait
  | resetKernel | resetUser => exact ⟨rest, hsleep⟩
  | begun hpc | opened hpc | selected hpc | broke dev hpc | passed dev hpc | noMessage hpc
  | emptied hpc | popped hpc | closed hpc | left hpc | read stale mesg fifo hpc
  | handled d mesg mMessages hpc => exact absurd (hsleep.symm.trans hpc) (by simp)
  | wrote w rest pc fifo hpc hwrite =>
    cases hsleep.symm.trans hpc
    cases hwrite

/-- The thread is put to sleep only by a test that does not find room. -/
private theorem awake_step (h : ¬ Asleep s) (hroom : FindsRoom s a) (hs : s.step a = some s') :
    ¬ Asleep s' := by
  rintro ⟨rest, hsleep⟩
  cases step_move hs with
  | started created => cases created <;> cases hsleep
  | setStop | preStop | waits | stopped | deleted | signal | eintr | post | get | setWait
  | resetKernel | resetUser => exact h ⟨rest, hsleep⟩
  | begun | opened | selected | broke | passed | noMessage | emptied | popped | closed | left
  | read => cases hsleep
  | handled d mesg =>
    have hpc : ControlPc.ofReply (Control.processMessage s.messages.tuners mesg d).reply =
      .write .sleep rest := hsleep
    cases hreply : (Control.processMessage s.messages.tuners mesg d).reply <;>
      simp [hreply, ControlPc.ofReply] at hpc
  | wrote w rest' pc fifo hpc hwrite =>
    cases hwrite with
    | slept hlen =>
      have hlt := hroom (by rw [hpc]; rfl)
      omega
    | _ => cases hsleep

/-- From the moment it sleeps on `outq` on, the thread does nothing more and `m_running` stays
    set: whatever is taken out of `control_fifo_kernel`, the main thread's wait has no end. -/
theorem asleep_stays {acts rest : List Action} (hrun : Run.exec step (init tuners) acts = some s)
    (hasleep : Asleep s) (hrest : Run.exec step s rest = some s') :
    Asleep s' ∧ s'.mRunning = true := by
  have hstep : ∀ s a s', StartInv s ∧ Asleep s → s.step a = some s' → StartInv s' ∧ Asleep s' := by
    rintro s a s' ⟨hstart, hasleep⟩ hs
    exact ⟨hstart.step hs, hasleep.step hstart hs⟩
  obtain ⟨hstart, hasleep'⟩ := Run.exec_keeps hstep ⟨(RunInv.of_run hrun).start, hasleep⟩ hrest
  obtain ⟨w, hpc⟩ := hasleep'
  refine ⟨⟨w, hpc⟩, ?_⟩
  rw [hstart.running, hpc]
  rfl

/-- The thread is put to sleep in the runs in which a test before the sleep finds the FIFO
    full, and in no others. -/
private theorem asleep_iff_not_guarded {acts : List Action}
    (hrun : Run.exec step (init tuners) acts = some s) :
    Asleep s ↔ ¬ Run.Guarded step FindsRoom (init tuners) acts := by
  constructor
  · intro hasleep hroom
    have h₀ : ¬ Asleep (init tuners) := by
      rintro ⟨rest, hpc⟩
      cases hpc
    have hstep : ∀ s a s', ¬ Asleep s → FindsRoom s a → s.step a = some s' → ¬ Asleep s' :=
      fun _ _ _ => awake_step
    exact Run.EveryStep.keeps hstep h₀ hroom hrun hasleep
  · intro hroom
    obtain ⟨as, a, bs, s₁, s₂, rfl, hrun₁, hs, -, hfull⟩ := Run.exists_first_unguarded hroom
    -- the step behind which the thread sleeps
    have hasleep : Asleep s₂ := by
      cases step_move hs with
      | wrote w rest pc fifo hpc hwrite =>
        have hw : ControlPc.beforeSleep s₁.pc = true ∧
            controlBufsize ≤ s₁.controlFifoKernel.len := by
          simpa [FindsRoom] using hfull
        rw [hpc] at hw
        cases hwrite with
        | slept hlen => exact ⟨rest, rfl⟩
        | retested hlen => exact absurd hw.2 (by omega)
        | _ => cases hw.1
      | begun hpc | opened hpc | selected hpc | broke dev hpc | passed dev hpc | noMessage hpc
      | emptied hpc | popped hpc | closed hpc | left hpc =>
        simp [FindsRoom, hpc, ControlPc.beforeSleep] at hfull
      | _ => exact absurd trivial hfull
    have hrun₂ : Run.exec step (init tuners) (as ++ [a]) = some s₂ := by
      rw [Run.exec_append_of_some hrun₁, Run.exec_cons_of_some hs, Run.exec_nil]
    have hbs : Run.exec step s₂ bs = some s := by
      rw [← hrun, Run.exec_append_of_some hrun₁, Run.exec_cons_of_some hs]
    exact (asleep_stays hrun₂ hasleep hbs).1

/-- Without a next statement, the thread is at its end or sleeps on `outq`. -/
private theorem stuck_cases (hclosed : s.pipeOpen = false) (hreported : Reported s)
    (hstuck : ∀ a, a.isThread = true → s.step a = none) :
    s.pc = .notCreated ∨ s.pc = .finished ∨ Asleep s := by
  have hthread := hstuck .thread rfl
  simp only [step, threadStep] at hthread
  cases hpc : s.pc with
  | notCreated => exact .inl rfl
  | finished => exact .inr (.inl rfl)
  | created | opening | closing | leaving | testPipe | pop => simp [hpc] at hthread
  | select => simp [hpc, hclosed] at hthread
  | testDev dev =>
    cases dev with
    | false => simp [hpc] at hthread
    | true =>
      -- what `select` has reported can be read
      have hread := hstuck (.read .zero) rfl
      simp [step, hpc, readMessage, hreported (.inl hpc)] at hread
  | process =>
    cases hmsgs : s.messages.mMessages with
    | nil => simp [hpc, hmsgs] at hthread
    | cons mesg mMessages =>
      -- whatever the device answers, the message can be handled
      have hhandle := hstuck (.handle Schedule.deviceOk) rfl
      simp [step, handle, hpc, hmsgs] at hhandle
  | write w rest =>
    cases w with
    | sleep => exact .inr (.inr ⟨rest, hpc⟩)
    | test | full | wait | put | wake => simp [hpc, writeStep] at hthread

end ControlRun

end DvbHdhomerun
