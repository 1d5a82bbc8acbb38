import DvbHdhomerun.Spec.ChannelClients
import DvbHdhomerun.Spec.ChannelRelay

/-!
# The blocked writer

`hdhomerun_control_write` sleeps on `outq` while `control_fifo_kernel` is full. The only
wake-up of `outq` stands behind the `return` of `hdhomerun_control_wait_for_message`, and
`hdhomerun_control_release` wakes nobody: once the daemon sleeps, nothing but its end makes
it runnable. It sleeps with room to write exactly when bytes are taken out of the FIFO, or
the FIFO is reset, behind its back.
-/

namespace DvbHdhomerun

/-- The daemon sleeps on `outq`, and no wake-up is pending. -/
def State.WriterAsleep (s : State) : Prop := ∃ w, s.daemon.pc = .writeSleep w

/-- The daemon only sleeps while there is no room for it to write. -/
def SleeperFull (s : State) : Prop := s.WriterAsleep → s.controlFifoKernel.len = controlBufsize

/-- A step that takes bytes out of `control_fifo_kernel` makes a sleeping writer runnable. -/
def TakeWakesWriter (s : State) (_ : Action) (s' : State) : Prop :=
  s.WriterAsleep → s'.controlFifoKernel.len < s.controlFifoKernel.len → ¬ s'.WriterAsleep

/-- While the daemon sleeps, nobody gets bytes from `control_fifo_kernel` or resets it. -/
def NoTakeWhileAsleep (s : State) : Action → Prop
  | .client c => s.WriterAsleep → (s.clients c).pc ≠ .get
  | .releaseHandle h => s.WriterAsleep → s.handles h ≠ .opened
  | _ => True

/-! ## What a step does to the writer and its FIFO -/

/-- How a step changes `control_fifo_kernel`, as far as a sleeping writer is concerned. -/
private inductive SleeperChange (s s' : State) : Action → Prop where
  | awake (a : Action) (h : ¬ s'.WriterAsleep) : SleeperChange s s' a
  /-- the daemon has just gone to sleep, or slept before -/
  | same (a : Action) (hk : s'.controlFifoKernel = s.controlFifoKernel)
      (h : s.WriterAsleep ∨ s.controlFifoKernel.len = controlBufsize) : SleeperChange s s' a
  | taken (c : ClientId) (hpc : (s.clients c).pc = .get) (h : s'.daemon = s.daemon)
      (hk : s'.controlFifoKernel = (s.controlFifoKernel.get sizeofControlMesg).2) :
      SleeperChange s s' (.client c)
  | reset (hd : HandleId) (hpc : s.handles hd = .opened) (h : s'.daemon = s.daemon)
      (hk : s'.controlFifoKernel = .empty) : SleeperChange s s' (.releaseHandle hd)

/-- A step that leaves the daemon and its FIFO alone. -/
private theorem SleeperChange.of_daemon {s s' : State} (a : Action) (h : s'.daemon = s.daemon)
    (hk : s'.controlFifoKernel = s.controlFifoKernel) : SleeperChange s s' a := by
  by_cases hsleep : s.WriterAsleep
  · exact .same a hk (.inl hsleep)
  · apply SleeperChange.awake
    rw [State.WriterAsleep, h]
    exact hsleep

/-- No other statement of the daemon is the sleep. -/
private theorem SleeperChange.of_pc {s s' : State} {a : Action} {pc : DaemonPc}
    (h : s'.daemon.pc = pc) (hpc : ∀ w, pc ≠ .writeSleep w) : SleeperChange s s' a := by
  apply SleeperChange.awake
  rintro ⟨w, hw⟩
  exact hpc w (h.symm.trans hw)

/-- A return changes neither the daemon nor the FIFO. -/
private theorem returnCall_frame (s : State) (c : ClientId) (k : Client) (ret : Int) :
    (s.returnCall c k ret).daemon = s.daemon ∧
      (s.returnCall c k ret).controlFifoKernel = s.controlFifoKernel := by
  rw [State.returnCall]
  split <;> exact ⟨rfl, rfl⟩

/-- Every step is one of the changes. -/
private theorem step_sleeper {s s' : State} {a : Action} (h : s.step a = some s') :
    SleeperChange s s' a := by
  cases State.step_move h with
  | notReady c | noRoom c | clearWait c =>
    obtain ⟨hd, hk⟩ := returnCall_frame _ c _ _
    exact .of_daemon _ hd hk
  | get c hpc =>
    obtain ⟨hd, hk⟩ := returnCall_frame s.afterGet c _ _
    exact .taken c hpc hd hk
  | resetKernel hd hpc => exact .reset hd hpc rfl rfl
  | daemonGoes pc hgo =>
    cases hgo with
    -- the test before the sleep found the FIFO full
    | sleep w hpc hlen =>
      have hfull := s.controlFifoKernel.len_le
      exact .same _ rfl (.inr (by omega))
    | readable | served | write | full | room | retest =>
      exact .of_pc rfl (by simp [State.setDaemonPc])
  | daemonStart | daemonExit | readNothing | readRequest | ignoreReply | putReply | pop =>
    exact .of_pc rfl
      (by simp [State.exitDaemon, State.afterRead, State.setDaemonPc, State.putReply])
  | handleMessage d t mesg rest hpc hmsgs =>
    apply SleeperChange.of_pc rfl
    intro w
    simp only [State.handleMessage]
    split <;> simp
  | finishWrite w hpc =>
    apply SleeperChange.of_pc rfl
    intro w'
    simp only [State.finishWrite, State.setDaemonPc]
    split <;> simp
  | _ => exact .of_daemon _ rfl rfl

/-! ## Runs -/

/-- A get takes up to 36 bytes. -/
private theorem len_get (f : ControlFifo) :
    (f.get sizeofControlMesg).2.len = f.len - sizeofControlMesg := by
  rw [Fifo.len, Fifo.get_data, List.length_drop, Fifo.len]

/-- As long as nobody takes bytes while the daemon sleeps, it sleeps beside a full FIFO. -/
private theorem SleeperFull.step {s s' : State} {a : Action} (hinv : SleeperFull s)
    (hok : NoTakeWhileAsleep s a) (hs : s.step a = some s') : SleeperFull s' := by
  intro hsleep
  cases step_sleeper hs with
  | awake _ h => exact absurd hsleep h
  | same _ hk h =>
    rw [hk]
    cases h with
    | inl hbefore => exact hinv hbefore
    | inr hfull => exact hfull
  | taken c hpc h =>
    rw [State.WriterAsleep, h] at hsleep
    exact absurd hpc (hok hsleep)
  | reset hd hpc h =>
    rw [State.WriterAsleep, h] at hsleep
    exact absurd hpc (hok hsleep)

/-- A get or a reset leaves the writer asleep with room to write. -/
private theorem noTake_of_sleeperFull {s s' : State} {a : Action} (hinv : SleeperFull s)
    (hs : s.step a = some s') (hafter : SleeperFull s') : NoTakeWhileAsleep s a := by
  have hbufsize : controlBufsize = 32768 := rfl
  cases a with
  | client c =>
    intro hsleep hpc
    -- of the moves of a client only the get starts at the get
    cases State.step_move hs with
    | get =>
      obtain ⟨hd, hk⟩ := returnCall_frame s.afterGet c
        { s.clients c with mesg := (s.clients c).mesg.fill (s.oldestReply.map Prod.snd) }
        s.oldestReply.length
      have hlen := hafter (by rw [State.WriterAsleep, hd]; exact hsleep)
      rw [hk, State.afterGet, len_get, hinv hsleep, sizeofControlMesg] at hlen
      omega
    | clientGoes _ pc hgo =>
      cases hgo with
      | ready h | found h | interrupted h | sleep h | again h | get h => cases hpc.symm.trans h
    | lockFeed _ _ h | notReady _ h | posted _ h | noRoom _ h | setWait _ h | clearWait _ h
    | unlockFeed _ _ _ h => cases hpc.symm.trans h
  | releaseHandle hd =>
    intro hsleep hpc
    cases State.step_move hs with
    | resetKernel =>
      have hlen : 0 = controlBufsize := hafter hsleep
      omega
    | resetUser _ h | resetWait _ h | released _ h => cases hpc.symm.trans h
  | _ => trivial

/-- And then there is nobody who would have to wake it. -/
private theorem takeWakesWriter_of_noTake {s s' : State} {a : Action} (hok : NoTakeWhileAsleep s a)
    (hs : s.step a = some s') : TakeWakesWriter s a s' := by
  intro hsleep hlen
  cases step_sleeper hs with
  | awake _ h => exact h
  | same _ hk => exact absurd hlen (by rw [hk]; exact Nat.lt_irrefl _)
  | taken c hpc => exact absurd hpc (hok hsleep)
  | reset hd hpc => exact absurd hpc (hok hsleep)

/-- A sleeping writer always faces a full FIFO, and is woken by whoever takes bytes out of
    it, exactly in the runs in which nobody does so while the writer sleeps. -/
theorem sleeper_full_iff (acts : List Action) :
    (Run.EveryState State.step SleeperFull .init acts ∧
        Run.EveryStep State.step TakeWakesWriter .init acts) ↔
      Run.Guarded State.step NoTakeWhileAsleep .init acts := by
  have hinit : SleeperFull .init := fun ⟨_, h⟩ => nomatch h
  have hstep : ∀ s a s', SleeperFull s → NoTakeWhileAsleep s a → s.step a = some s' →
      SleeperFull s' := fun _ _ _ => SleeperFull.step
  have hnoTake : ∀ s a s', SleeperFull s → s.step a = some s' → SleeperFull s' →
      NoTakeWhileAsleep s a := fun _ _ _ => noTake_of_sleeperFull
  have hiff : Run.EveryState State.step SleeperFull .init acts ↔
      Run.Guarded State.step NoTakeWhileAsleep .init acts :=
    Run.everyState_iff_guarded hstep (fun _ h => h) hnoTake hinit
  constructor
  · intro h
    exact hiff.mp h.1
  · intro hok
    have hwakes : Run.EveryStep State.step TakeWakesWriter .init acts :=
      hok.imp fun _ _ _ hs h => takeWakesWriter_of_noTake h hs
    exact ⟨hiff.mpr hok, hwakes⟩

/-! ## The 911th reply

Clients 0, 1, .. ask one after the other, the daemon answers each of them, and nobody takes
an answer: every round leaves 36 bytes in `control_fifo_kernel`. -/

/-- The message every client posts, which is also what a daemon without tuners answers. -/
private def question : ControlMesg := dvbHdhomerunFeReadStatus 0 .zero

/-- A client that finds room for its message comes to `wait_for_write = 1`. -/
private theorem step_put {s : State} {c : ClientId} (hpc : (s.clients c).pc = .put)
    (hroom : sizeofControlMesg ≤ s.controlFifoUser.avail) :
    s.step (.client c) = some ((s.afterPut c).setClient c
      { s.clients c with pc := .setWait, ticket := some s.hist.attempts.length }) := by
  have hret : s.postResult c = 1 := State.postResult_eq_one_iff.mpr hroom
  simp only [State.step, State.clientStep, hpc, State.putRequest_eq, if_pos hret]

/-- The statement `wait_for_write = 1`. -/
private theorem step_setWait {s : State} {c : ClientId} (hpc : (s.clients c).pc = .setWait) :
    s.step (.client c) = some (s.setWaitForWrite c (s.clients c)) := by
  simp only [State.step, State.clientStep, hpc]

/-- The state after the daemon has read and handled the question with ticket `t`. -/
private def served (s : State) (t : Ticket) : State :=
  { s with
    controlFifoUser := (s.controlFifoUser.get sizeofControlMesg).2
    daemon := ⟨.writeTest (.whole (t, question)), [(t, question)], []⟩
    hist := { s.hist with
      pushed := s.hist.pushed ++ [question]
      replies := s.hist.replies ++ [(t, question)] } }

/-- The daemon reads a question and handles it. -/
private theorem exec_serve {s : State} {t : Ticket} (hd : s.daemon = ⟨.select, [], []⟩)
    (huser : s.controlFifoUser.data = frame (t, question)) :
    Run.exec State.step s Schedule.serve = some (served s t) := by
  have hlen : 0 < s.controlFifoUser.len := by
    rw [Fifo.len, huser, length_frame]
    decide
  have hitems : (s.controlFifoUser.get sizeofControlMesg).1 = frame (t, question) := by
    rw [Fifo.get_items, huser, List.take_of_length_le (Nat.le_of_eq (length_frame _))]
  obtain ⟨b, rest, hcons⟩ : ∃ b rest, frame (t, question) = (t, b) :: rest := ⟨_, _, rfl⟩
  have hmesg := readMesg_of_frame .zero hcons
  have hhandled : Control.processMessage [] question Schedule.deviceOk =
      ⟨[], none, some question⟩ := rfl
  simp only [Prod.mk.injEq, true_and] at hmesg
  have hread : (s.setDaemonPc .readGet).readRequest .zero =
      (s.setDaemonPc .readGet).afterRead t question := by
    rw [hcons] at hitems
    simp only [State.readRequest, State.setDaemonPc, hitems, hmesg]
    rfl
  have hselect : s.step .daemonStep = some (s.setDaemonPc .readGet) := by
    simp [State.step, State.daemonStep, hd, hlen]
  have hget : (s.setDaemonPc .readGet).step (.daemonRead .zero) =
      some ((s.setDaemonPc .readGet).afterRead t question) := by
    simp only [State.step, hread]
    rfl
  -- `select`, the read, and the handler, which has no tuner to call
  rw [Schedule.serve, Run.exec_cons_of_some hselect, Run.exec_cons_of_some hget, Run.exec_cons]
  simp [State.step, State.afterRead, State.setDaemonPc, hd, State.handleMessage, hhandled, served,
    Writing.whole]

/-- The state after one `hdhomerun_control_write` that found `wait_for_write` set and room. -/
private def written (s : State) (w : Writing) : State :=
  (s.putReply w).finishWrite
    { w with rest := w.rest.drop (s.controlFifoKernel.put (tagged w.ticket w.rest)).1 }

/-- Behind a write the daemon goes on with what did not fit, or with the pop. -/
private theorem pc_written (s : State) (w : Writing) :
    (written s w).daemon.pc =
      if w.rest.drop (s.controlFifoKernel.put (tagged w.ticket w.rest)).1 = [] then .pop
      else .writeTest
        { w with rest := w.rest.drop (s.controlFifoKernel.put (tagged w.ticket w.rest)).1 } := rfl

/-- A write that is awaited, into a FIFO that is not full. -/
private theorem exec_write {s : State} {w : Writing} (hpc : s.daemon.pc = .writeTest w)
    (hwait : s.waitForWrite = true) (hlen : s.controlFifoKernel.len ≠ controlBufsize) :
    Run.exec State.step s (List.replicate 4 .daemonStep) = some (written s w) := by
  simp [Run.exec, State.step, State.daemonStep, hpc, hwait, hlen, State.setDaemonPc,
    State.putReply, written]

/-- The pop, and the end of `ProcessMessages`. -/
private theorem exec_pop {s : State} {x : Ticket × ControlMesg} (hd : s.daemon = ⟨.pop, [x], []⟩) :
    Run.exec State.step s [.daemonStep, .daemonStep] =
      some { s with daemon := ⟨.select, [], []⟩ } := by
  simp [Run.exec, State.step, State.daemonStep, hd, State.setDaemonPc]

/-- The wake-up of `control_readq` leaves a client alone that does not sleep. -/
private theorem clients_written {s : State} {w : Writing} {c : ClientId}
    (h : (s.clients c).pc ≠ .asleep) : (written s w).clients c = s.clients c := by
  show (if (s.clients c).pc = .asleep then _ else s.clients c) = s.clients c
  rw [if_neg h]

/-- Clients `0` to `n - 1` wait, and `k` replies are in `control_fifo_kernel`. -/
private structure Waiting (n k : Nat) (s : State) : Prop where
  ready : s.userspaceReady = true
  kernel : s.controlFifoKernel.len = 36 * k
  idle : ∀ c, n ≤ c → s.clients c = .init
  first : 0 < n → (s.clients 0).pc = .testLen

/-- The daemon is back at its `select`, with nothing to read. -/
private structure AtSelect (s : State) : Prop where
  user : s.controlFifoUser.data = []
  daemon : s.daemon = ⟨.select, [], []⟩

/-- The daemon is about to write its reply to the last question. -/
private structure AtWrite (w : Writing) (s : State) : Prop where
  wait : s.waitForWrite = true
  user : s.controlFifoUser.data = []
  daemon : ∃ x, s.daemon = ⟨.writeTest w, [x], []⟩
  whole : w.rest.length = 36

/-- Client `n` asks, and the daemon reads and handles the question. -/
private def ask (n : Nat) : List Action :=
  [.call n (.feReadStatus 0) .zero, .client n] ++ (.client n :: .client n :: Schedule.serve)

/-- One more client asks, and the daemon comes to the write of its answer. -/
private theorem exec_ask {n : Nat} {s : State} (h : Waiting n n s) (hselect : AtSelect s) :
    ∃ s' w, Run.exec State.step s (ask n) = some s' ∧ Waiting (n + 1) n s' ∧ AtWrite w s' := by
  have henter := Schedule.exec_enter (h.idle n (Nat.le_refl n)) h.ready
  generalize hs₁ : s.setClient n _ = s₁ at henter
  have hclient : s₁.clients n = ⟨.put, .feReadStatus 0, none, question, none, false⟩ := by
    rw [← hs₁]
    exact Function.update_self ..
  have huser : s₁.controlFifoUser.data = [] := by
    rw [← hs₁]
    exact hselect.user
  have hroom : sizeofControlMesg ≤ s₁.controlFifoUser.avail := by
    rw [Fifo.avail, Fifo.len, huser]
    decide
  have hput := step_put (by rw [hclient]) hroom
  generalize hs₂ : (s₁.afterPut n).setClient n _ = s₂ at hput
  have hwait := step_setWait (s := s₂) (c := n) (by simp [← hs₂, State.setClient])
  generalize hs₃ : s₂.setWaitForWrite n _ = s₃ at hwait
  -- the question is the only message in `control_fifo_user`
  have huser₃ : s₃.controlFifoUser.data = frame (s₁.hist.attempts.length, question) := by
    rw [← hs₃, ← hs₂]
    show (s₁.controlFifoUser.put (s₁.request n)).2.data = _
    rw [Fifo.put_data_of_room (by rw [State.length_request]; exact hroom), huser, List.nil_append,
      State.request, hclient, frame]
  have hwaiting : Waiting (n + 1) n s₃ := by
    have hother : ∀ c, c ≠ n → s₃.clients c = s.clients c := by
      intro c hc
      simp [← hs₃, ← hs₂, ← hs₁, State.setWaitForWrite, State.setClient, State.afterPut,
        Function.update_of_ne hc]
    have hlast : (s₃.clients n).pc = .testLen := by
      simp [← hs₃, State.setWaitForWrite, State.setClient]
    rw [← hs₃, ← hs₂, ← hs₁] at hother hlast ⊢
    refine ⟨h.ready, h.kernel, fun c hc => ?_, fun _ => ?_⟩
    · rw [hother c (by omega)]
      exact h.idle c (by omega)
    · by_cases hn : 0 = n
      · subst hn
        exact hlast
      · rw [hother 0 hn]
        exact h.first (by omega)
  have hdaemon : s₃.daemon = ⟨.select, [], []⟩ := by
    rw [← hs₃, ← hs₂, ← hs₁]
    exact hselect.daemon
  have hwaitFlag : s₃.waitForWrite = true := by rw [← hs₃]; rfl
  refine ⟨served s₃ s₁.hist.attempts.length, .whole (s₁.hist.attempts.length, question), ?_, ?_, ?_⟩
  · rw [ask, Run.exec_append_of_some henter, Run.exec_cons_of_some hput,
      Run.exec_cons_of_some hwait, exec_serve hdaemon huser₃]
  · exact ⟨hwaiting.ready, hwaiting.kernel, hwaiting.idle, hwaiting.first⟩
  · refine ⟨hwaitFlag, ?_, ⟨_, rfl⟩, rfl⟩
    show (s₃.controlFifoUser.get sizeofControlMesg).2.data = []
    rw [Fifo.get_data, huser₃, List.drop_of_length_le (Nat.le_of_eq (length_frame _))]

/-- The daemon writes its reply and goes back to its `select`, as long as there is room. -/
private theorem exec_answer {n : Nat} {w : Writing} {s : State} (hn : n < 910)
    (h : Waiting (n + 1) n s) (hwrite : AtWrite w s) :
    ∃ s', Run.exec State.step s Schedule.write = some s' ∧ Waiting (n + 1) (n + 1) s' ∧
      AtSelect s' := by
  obtain ⟨x, hd⟩ := hwrite.daemon
  have hlen : (tagged w.ticket w.rest).length = 36 := by rw [length_tagged, hwrite.whole]
  have hbufsize : controlBufsize = 32768 := rfl
  have havail := s.controlFifoKernel.len_add_avail
  have hkernel := h.kernel
  have hput := exec_write (by rw [hd]) hwrite.wait (by omega)
  -- the whole reply fits
  have hrest : w.rest.drop (s.controlFifoKernel.put (tagged w.ticket w.rest)).1 = [] := by
    apply List.drop_of_length_le
    rw [Fifo.put_count, hlen, hwrite.whole]
    omega
  have hpop : (written s w).daemon = ⟨.pop, [x], []⟩ := by
    simp only [written, State.finishWrite, hrest, State.setDaemonPc, State.wakeReaders,
      State.putReply, hd, if_pos]
  refine ⟨{ written s w with daemon := ⟨.select, [], []⟩ }, ?_, ?_, ?_⟩
  · rw [show Schedule.write = List.replicate 4 .daemonStep ++ [.daemonStep, .daemonStep] from rfl,
      Run.exec_append_of_some hput, exec_pop hpop]
  · refine ⟨h.ready, ?_, fun c hc => ?_, fun hpos => ?_⟩
    · show (s.controlFifoKernel.put (tagged w.ticket w.rest)).2.data.length = 36 * (n + 1)
      rw [Fifo.put_data_of_room (by omega), List.length_append, hlen, ← Fifo.len]
      omega
    · have hidle := h.idle c hc
      exact (clients_written (by rw [hidle]; decide)).trans hidle
    · have hfirst := h.first hpos
      exact (congrArg Client.pc (clients_written (by rw [hfirst]; decide))).trans hfirst
  · exact ⟨hwrite.user, rfl⟩

/-- The first `n` rounds. -/
private def rounds : Nat → List Action
  | 0 => [.openHandle 0, .daemonStart []]
  | n + 1 => rounds n ++ (ask n ++ Schedule.write)

/-- The first 910 answers find room. -/
private theorem exec_rounds (n : Nat) (hn : n ≤ 910) :
    ∃ s, State.run (rounds n) = some s ∧ Waiting n n s ∧ AtSelect s := by
  induction n with
  | zero =>
    refine ⟨_, rfl, ⟨rfl, rfl, fun _ _ => rfl, fun h => absurd h (Nat.lt_irrefl 0)⟩, ⟨rfl, rfl⟩⟩
  | succ n ih =>
    obtain ⟨s, hrun, hwaiting, hselect⟩ := ih (by omega)
    obtain ⟨s₁, w, hask, hwaiting₁, hwrite⟩ := exec_ask hwaiting hselect
    obtain ⟨s₂, hanswer, hwaiting₂, hselect₂⟩ := exec_answer (by omega) hwaiting₁ hwrite
    refine ⟨s₂, ?_, hwaiting₂, hselect₂⟩
    rw [rounds, State.run, Run.exec_append_of_some hrun, Run.exec_append_of_some hask, hanswer]

/-- A write that is awaited, into a full FIFO: the daemon goes to sleep. -/
private theorem exec_sleep {s : State} {w : Writing} (hpc : s.daemon.pc = .writeTest w)
    (hwait : s.waitForWrite = true) (hfull : s.controlFifoKernel.len = controlBufsize) :
    Run.exec State.step s (List.replicate 3 .daemonStep) =
      some (s.setDaemonPc (.writeSleep w)) := by
  simp [Run.exec, State.step, State.daemonStep, hpc, hwait, hfull, State.setDaemonPc]

/-- With 8 bytes of room the daemon writes the beginning of its reply and falls asleep. -/
private theorem exec_block {w : Writing} {s : State} (h : Waiting 911 910 s)
    (hwrite : AtWrite w s) :
    ∃ s', Run.exec State.step s (List.replicate 4 .daemonStep ++ List.replicate 3 .daemonStep) =
        some s' ∧ s'.WriterAsleep ∧ s'.controlFifoKernel.len = controlBufsize ∧
      (s'.clients 0).pc = .testLen := by
  obtain ⟨x, hd⟩ := hwrite.daemon
  have hlen : (tagged w.ticket w.rest).length = 36 := by rw [length_tagged, hwrite.whole]
  have hbufsize : controlBufsize = 32768 := rfl
  have havail := s.controlFifoKernel.len_add_avail
  have hkernel := h.kernel
  have hput := exec_write (by rw [hd]) hwrite.wait (by omega)
  have hrest : w.rest.drop (s.controlFifoKernel.put (tagged w.ticket w.rest)).1 ≠ [] := by
    rw [Ne, List.drop_eq_nil_iff, Fifo.put_count, hlen, hwrite.whole]
    omega
  -- the rest of the reply is left to the next call of `hdhomerun_control_write`
  obtain ⟨w', hpc⟩ : ∃ w', (written s w).daemon.pc = .writeTest w' :=
    ⟨_, (pc_written s w).trans (if_neg hrest)⟩
  have hfull : (written s w).controlFifoKernel.len = controlBufsize := by
    show (s.controlFifoKernel.put (tagged w.ticket w.rest)).2.data.length = _
    rw [Fifo.put_data, List.length_append, List.length_take, hlen, ← Fifo.len]
    omega
  -- the wake-up behind the write finds no client asleep
  have hfirst := h.first (by decide)
  refine ⟨(written s w).setDaemonPc (.writeSleep w'), ?_, ⟨w', rfl⟩, hfull, ?_⟩
  · rw [Run.exec_append_of_some hput, exec_sleep hpc hwrite.wait hfull]
  · exact (congrArg Client.pc (clients_written (by rw [hfirst]; decide))).trans hfirst

/-- A client that finds replies comes to the get. -/
private theorem exec_find {s : State} {c : ClientId} (hpc : (s.clients c).pc = .testLen)
    (hlen : 0 < s.controlFifoKernel.len) :
    Run.exec State.step s [.client c, .client c] =
      some (s.setClient c { s.clients c with pc := .get }) := by
  simp [Run.exec, State.step, State.clientStep, hpc, State.testKernelLen, hlen,
    State.retestKernelLen, Nat.ne_of_gt hlen, State.setClient]

/-- 911 clients wait, and the reply to the last of them does not fit: the daemon goes to
    sleep, the first client takes its reply, and the daemon sleeps on. -/
theorem sleeper_not_woken :
    ¬ ∀ acts, Run.EveryState State.step SleeperFull .init acts ∧
      Run.EveryStep State.step TakeWakesWriter .init acts := by
  intro hall
  obtain ⟨s, hrun, hwaiting, hselect⟩ := exec_rounds 910 (Nat.le_refl _)
  obtain ⟨s₁, w, hask, hwaiting₁, hwrite⟩ := exec_ask hwaiting hselect
  obtain ⟨s₂, hblock, hsleep, hfull, hpc⟩ := exec_block hwaiting₁ hwrite
  have hfind := exec_find hpc (by rw [hfull]; decide)
  generalize hs₃ : s₂.setClient 0 _ = s₃ at hfind
  have hget : s₃.step (.client 0) = some (s₃.getReply 0 (s₃.clients 0)) := by
    have hpc₃ : (s₃.clients 0).pc = .get := by simp [← hs₃, State.setClient]
    simp only [State.step, State.clientStep, hpc₃]
  obtain ⟨acts, hrun'⟩ : ∃ acts, State.run acts = some (s₃.getReply 0 (s₃.clients 0)) := by
    refine ⟨rounds 910 ++ (ask 910 ++ (List.replicate 4 Action.daemonStep ++
      List.replicate 3 Action.daemonStep ++
      ([Action.client 0, Action.client 0] ++ [Action.client 0]))), ?_⟩
    rw [State.run, Run.exec_append_of_some hrun, Run.exec_append_of_some hask,
      Run.exec_append_of_some hblock, Run.exec_append_of_some hfind, Run.exec_cons_of_some hget,
      Run.exec_nil]
  have hlast := (hall acts).1.last hrun'
  rw [State.getReply_eq] at hlast
  obtain ⟨hd, hk⟩ := returnCall_frame s₃.afterGet 0
    { s₃.clients 0 with mesg := (s₃.clients 0).mesg.fill (s₃.oldestReply.map Prod.snd) }
    s₃.oldestReply.length
  have hsleep₃ : s₃.WriterAsleep := by
    rw [← hs₃]
    exact hsleep
  have hfull₃ : s₃.controlFifoKernel.len = controlBufsize := by
    rw [← hs₃]
    exact hfull
  -- 36 bytes have gone, and the writer sleeps as before
  rw [SleeperFull, State.WriterAsleep, hd, hk, State.afterGet, len_get, hfull₃] at hlast
  exact absurd (hlast hsleep₃) (by decide)

end DvbHdhomerun
