import Mathlib.Tactic.Simps.Basic
import DvbHdhomerun.Kernel.Channel

/-!
# The moves of the control channel

The step function is taken apart once, here: `step_move` says that every step is one of the
listed moves, with the test that led to it and the state it leads to.
-/

namespace DvbHdhomerun

namespace State

/-- The message a client puts. -/
def request (s : State) (c : ClientId) : List TaggedByte :=
  tagged s.hist.attempts.length (s.clients c).mesg.bytes

/-- What `hdhomerun_control_post_message` returns for it. -/
def postResult (s : State) (c : ClientId) : Int :=
  if (s.controlFifoUser.put (s.request c)).1 < sizeofControlMesg then -1 else 1

/-- The state right after the put, before the client goes on. -/
def afterPut (s : State) (c : ClientId) : State :=
  { s with
    controlFifoUser := (s.controlFifoUser.put (s.request c)).2
    hist := { s.hist with
      attempts := s.hist.attempts ++ [⟨c, (s.clients c).mesg, s.postResult c⟩] } }

/-- The put, by what it returns. -/
theorem putRequest_eq (s : State) (c : ClientId) :
    s.putRequest c (s.clients c) =
      if s.postResult c = 1 then
        (s.afterPut c).setClient c
          { s.clients c with pc := .setWait, ticket := some s.hist.attempts.length }
      else
        (s.afterPut c).returnCall c
          { s.clients c with ticket := some s.hist.attempts.length } (s.postResult c) := rfl

/-- The bytes a get of one message takes from `control_fifo_kernel`. -/
def oldestReply (s : State) : List TaggedByte :=
  (s.controlFifoKernel.get sizeofControlMesg).1

/-- The state right after the get, before the client returns. -/
def afterGet (s : State) : State :=
  { s with
    controlFifoKernel := (s.controlFifoKernel.get sizeofControlMesg).2
    hist := { s.hist with taken := s.hist.taken ++ [s.oldestReply] } }

/-- The get, by what it finds. -/
theorem getReply_eq (s : State) (c : ClientId) (k : Client) :
    s.getReply c k = s.afterGet.returnCall c
      { k with mesg := k.mesg.fill (s.oldestReply.map Prod.snd) } s.oldestReply.length := rfl

/-- The state after a read that brought the bytes `(t, b) :: rest`. -/
def afterRead (s : State) (t : Ticket) (mesg : ControlMesg) : State :=
  { s with
    controlFifoUser := (s.controlFifoUser.get sizeofControlMesg).2
    daemon := { s.daemon with pc := .process, mMessages := s.daemon.mMessages ++ [(t, mesg)] }
    hist := { s.hist with pushed := s.hist.pushed ++ [mesg] } }

/-- The tests after which a client only goes on to another statement. -/
inductive ClientGoes (s : State) (c : ClientId) : ClientPc → Prop where
  | ready (hpc : (s.clients c).pc = .testReady) (hready : s.userspaceReady = true) :
    ClientGoes s c .put
  | found (hpc : (s.clients c).pc = .testLen) (hlen : 0 < s.controlFifoKernel.len) :
    ClientGoes s c .retestLen
  | interrupted (hpc : (s.clients c).pc = .testLen) (hlen : s.controlFifoKernel.len = 0)
      (hsignal : (s.clients c).signalled = true) : ClientGoes s c .clearWait
  | sleep (hpc : (s.clients c).pc = .testLen) (hlen : s.controlFifoKernel.len = 0)
      (hsignal : (s.clients c).signalled = false) : ClientGoes s c .asleep
  | again (hpc : (s.clients c).pc = .retestLen) (hlen : s.controlFifoKernel.len = 0) :
    ClientGoes s c .testLen
  | get (hpc : (s.clients c).pc = .retestLen) (hlen : s.controlFifoKernel.len ≠ 0) :
    ClientGoes s c .get

/-- The tests after which the daemon only goes on to another statement. -/
inductive DaemonGoes (s : State) : DaemonPc → Prop where
  | readable (hpc : s.daemon.pc = .select) (hlen : 0 < s.controlFifoUser.len) :
    DaemonGoes s .readGet
  | served (hpc : s.daemon.pc = .process) (hempty : s.daemon.mMessages = []) : DaemonGoes s .select
  | write (w : Writing) (hpc : s.daemon.pc = .writeTest w) (hflag : s.waitForWrite = true) :
    DaemonGoes s (.writeFull w)
  | full (w : Writing) (hpc : s.daemon.pc = .writeFull w)
      (hlen : s.controlFifoKernel.len = controlBufsize) : DaemonGoes s (.writeWait w)
  | room (w : Writing) (hpc : s.daemon.pc = .writeFull w)
      (hlen : s.controlFifoKernel.len ≠ controlBufsize) : DaemonGoes s (.writePut w)
  | retest (w : Writing) (hpc : s.daemon.pc = .writeWait w)
      (hlen : s.controlFifoKernel.len < controlBufsize) : DaemonGoes s (.writeFull w)
  | sleep (w : Writing) (hpc : s.daemon.pc = .writeWait w)
      (hlen : ¬s.controlFifoKernel.len < controlBufsize) : DaemonGoes s (.writeSleep w)

/-- The state after a step, by what the step did. -/
inductive Move (s : State) : Action → State → Prop where
  /-- a demux callback refuses its argument -/
  | refused (c : ClientId) (r : Request) (mem : ControlMesg) (e : Int)
      (hpc : (s.clients c).pc = .idle) (hb : r.build mem = .error e) :
    Move s (.call c r mem)
      { s with hist := { s.hist with returned := s.hist.returned ++ [⟨c, r, none, e, mem⟩] } }
  | entered (c : ClientId) (r : Request) (mem mesg : ControlMesg) (lock : Option Int32)
      (hpc : (s.clients c).pc = .idle) (hb : r.build mem = .ok (lock, mesg)) :
    Move s (.call c r mem)
      (s.setClient c ⟨if lock = none then .testReady else .lockFeed, r, lock, mesg, none, false⟩)
  | lockFeed (c : ClientId) (id : Int32) (hpc : (s.clients c).pc = .lockFeed)
      (hlock : (s.clients c).lock = some id) (hfree : s.feedlock id = false) :
    Move s (.client c)
      { s.setClient c { s.clients c with pc := .testReady } with
        feedlock := Function.update s.feedlock id true }
  | clientGoes (c : ClientId) (pc : ClientPc) (hgo : s.ClientGoes c pc) :
    Move s (.client c) (s.setClient c { s.clients c with pc := pc })
  | notReady (c : ClientId) (hpc : (s.clients c).pc = .testReady)
      (hready : s.userspaceReady = false) :
    Move s (.client c) (s.returnCall c (s.clients c) (-1))
  | posted (c : ClientId) (hpc : (s.clients c).pc = .put) (hret : s.postResult c = 1) :
    Move s (.client c)
      ((s.afterPut c).setClient c
        { s.clients c with pc := .setWait, ticket := some s.hist.attempts.length })
  | noRoom (c : ClientId) (hpc : (s.clients c).pc = .put) (hret : s.postResult c ≠ 1) :
    Move s (.client c)
      ((s.afterPut c).returnCall c
        { s.clients c with ticket := some s.hist.attempts.length } (s.postResult c))
  | setWait (c : ClientId) (hpc : (s.clients c).pc = .setWait) :
    Move s (.client c)
      { s.setClient c { s.clients c with pc := .testLen } with waitForWrite := true }
  | clearWait (c : ClientId) (hpc : (s.clients c).pc = .clearWait) :
    Move s (.client c)
      ({ s with waitForWrite := false }.returnCall c (s.clients c) (-ERESTARTSYS))
  | get (c : ClientId) (hpc : (s.clients c).pc = .get) :
    Move s (.client c)
      (s.afterGet.returnCall c
        { s.clients c with mesg := (s.clients c).mesg.fill (s.oldestReply.map Prod.snd) }
        s.oldestReply.length)
  | unlockFeed (c : ClientId) (id : Int32) (ret : Int) (hpc : (s.clients c).pc = .unlockFeed ret)
      (hlock : (s.clients c).lock = some id) :
    Move s (.client c)
      { s.setClient c { s.clients c with pc := .idle, signalled := false } with
        feedlock := Function.update s.feedlock id false }
  /-- a signal; it wakes a client that sleeps -/
  | signalled (c : ClientId) (hpc : (s.clients c).pc ≠ .idle) :
    Move s (.signal c)
      (s.setClient c
        { s.clients c with
          pc := if (s.clients c).pc = .asleep then .testLen else (s.clients c).pc
          signalled := true })
  | opened (h : HandleId) (hpc : s.handles h = .closed) :
    Move s (.openHandle h)
      { s with handles := Function.update s.handles h .opened, userspaceReady := true }
  | resetKernel (h : HandleId) (hpc : s.handles h = .opened) :
    Move s (.releaseHandle h)
      { s with
        handles := Function.update s.handles h .kernelReset
        controlFifoKernel := .empty }
  | resetUser (h : HandleId) (hpc : s.handles h = .kernelReset) :
    Move s (.releaseHandle h)
      { s with
        handles := Function.update s.handles h .userReset
        controlFifoUser := .empty }
  | resetWait (h : HandleId) (hpc : s.handles h = .userReset) :
    Move s (.releaseHandle h)
      { s with handles := Function.update s.handles h .waitCleared, waitForWrite := false }
  | released (h : HandleId) (hpc : s.handles h = .waitCleared) :
    Move s (.releaseHandle h)
      { s with handles := Function.update s.handles h .closed, userspaceReady := false }
  | daemonStart (tuners : List HdhomerunTuner) (hpc : s.daemon.pc = .exited) :
    Move s (.daemonStart tuners) { s with daemon := ⟨.select, [], tuners⟩ }
  | daemonExit (hpc : s.daemon.pc ≠ .exited) : Move s .daemonExit s.exitDaemon
  | readNothing (stale : ControlMesg) (hpc : s.daemon.pc = .readGet)
      (hget : (s.controlFifoUser.get sizeofControlMesg).1 = []) :
    Move s (.daemonRead stale)
      { s with controlFifoUser := (s.controlFifoUser.get sizeofControlMesg).2 }.exitDaemon
  | readRequest (stale : ControlMesg) (t : Ticket) (b : UInt8) (rest : List TaggedByte)
      (hpc : s.daemon.pc = .readGet)
      (hget : (s.controlFifoUser.get sizeofControlMesg).1 = (t, b) :: rest) :
    Move s (.daemonRead stale) (s.afterRead t (stale.fill (b :: rest.map Prod.snd)))
  | handleMessage (d : DeviceResults) (t : Ticket) (mesg : ControlMesg)
      (rest : List (Ticket × ControlMesg)) (hpc : s.daemon.pc = .process)
      (hmsgs : s.daemon.mMessages = (t, mesg) :: rest) :
    Move s (.daemonHandle d) (s.handleMessage t mesg d)
  | daemonGoes (pc : DaemonPc) (hgo : s.DaemonGoes pc) : Move s .daemonStep (s.setDaemonPc pc)
  | ignoreReply (w : Writing) (hpc : s.daemon.pc = .writeTest w) (hflag : s.waitForWrite = false) :
    Move s .daemonStep (s.setDaemonPc (.writeWake { w with rest := [] }))
  | putReply (w : Writing) (hpc : s.daemon.pc = .writePut w) : Move s .daemonStep (s.putReply w)
  | finishWrite (w : Writing) (hpc : s.daemon.pc = .writeWake w) :
    Move s .daemonStep (s.finishWrite w)
  | pop (hpc : s.daemon.pc = .pop) :
    Move s .daemonStep
      { s with daemon := { s.daemon with pc := .process, mMessages := s.daemon.mMessages.tail } }

/-- The steps of a client. -/
private theorem clientStep_move {s s' : State} {c : ClientId} (h : s.clientStep c = some s') :
    Move s (.client c) s' := by
  simp only [clientStep] at h
  split at h <;> rename_i hpc
  · exact nomatch h
  · -- lockFeed
    simp only [lockFeedlock] at h
    split at h
    · exact nomatch h
    · rename_i id hlock
      split at h
      · exact nomatch h
      · rename_i hfree
        cases h
        exact .lockFeed c id hpc hlock (by simpa using hfree)
  · -- testReady
    cases h
    rw [testUserspaceReady]
    split
    · rename_i hready
      exact .clientGoes c .put (.ready hpc hready)
    · rename_i hready
      exact .notReady c hpc (by simpa using hready)
  · -- put
    cases h
    rw [putRequest_eq]
    split
    · rename_i hret
      exact .posted c hpc hret
    · rename_i hret
      exact .noRoom c hpc hret
  · cases h
    exact .setWait c hpc
  · -- testLen
    cases h
    rw [testKernelLen]
    split
    · rename_i hlen
      exact .clientGoes c .retestLen (.found hpc hlen)
    · rename_i hlen
      have hzero : s.controlFifoKernel.len = 0 := Nat.eq_zero_of_not_pos hlen
      split
      · rename_i hsignal
        exact .clientGoes c .clearWait (.interrupted hpc hzero hsignal)
      · rename_i hsignal
        exact .clientGoes c .asleep (.sleep hpc hzero (by simpa using hsignal))
  · exact nomatch h
  · cases h
    exact .clearWait c hpc
  · -- retestLen
    cases h
    rw [retestKernelLen]
    split
    · rename_i hlen
      exact .clientGoes c .testLen (.again hpc hlen)
    · rename_i hlen
      exact .clientGoes c .get (.get hpc hlen)
  · cases h
    rw [getReply_eq]
    exact .get c hpc
  · -- unlockFeed
    simp only [unlockFeedlock] at h
    split at h
    · exact nomatch h
    · rename_i id hlock
      cases h
      exact .unlockFeed c id _ hpc hlock

/-- The steps of the daemon. -/
private theorem daemonStep_move {s s' : State} (h : s.daemonStep = some s') :
    Move s .daemonStep s' := by
  simp only [daemonStep] at h
  split at h <;> rename_i hpc
  · exact nomatch h
  · -- select
    split at h
    · rename_i hlen
      cases h
      exact .daemonGoes .readGet (.readable hpc hlen)
    · exact nomatch h
  · exact nomatch h
  · -- process
    split at h
    · rename_i hempty
      cases h
      exact .daemonGoes .select (.served hpc hempty)
    · exact nomatch h
  · -- writeTest
    rename_i w
    split at h
    · rename_i hflag
      cases h
      exact .daemonGoes (.writeFull w) (.write w hpc hflag)
    · rename_i hflag
      cases h
      exact .ignoreReply w hpc (by simpa using hflag)
  · -- writeFull
    rename_i w
    split at h
    · rename_i hlen
      cases h
      exact .daemonGoes (.writeWait w) (.full w hpc hlen)
    · rename_i hlen
      cases h
      exact .daemonGoes (.writePut w) (.room w hpc hlen)
  · -- writeWait
    rename_i w
    split at h
    · rename_i hlen
      cases h
      exact .daemonGoes (.writeFull w) (.retest w hpc hlen)
    · rename_i hlen
      cases h
      exact .daemonGoes (.writeSleep w) (.sleep w hpc hlen)
  · exact nomatch h
  · cases h
    exact .putReply _ hpc
  · cases h
    exact .finishWrite _ hpc
  · cases h
    exact .pop hpc

/-- Every step is one of the moves. -/
theorem step_move {s s' : State} {a : Action} (h : s.step a = some s') : Move s a s' := by
  cases a with
  | call c r mem =>
    simp only [step] at h
    split at h
    · rename_i hpc
      cases h
      rw [startCall]
      split
      · rename_i e hb
        exact .refused c r mem e hpc hb
      · rename_i lock mesg hb
        exact .entered c r mem mesg lock hpc hb
    · exact nomatch h
  | client c => exact clientStep_move h
  | signal c =>
    simp only [step, signalClient] at h
    split at h
    · exact nomatch h
    · rename_i hasleep
      cases h
      have hmove := Move.signalled (s := s) c (by rw [hasleep]; exact ClientPc.noConfusion)
      rwa [if_pos hasleep] at hmove
    · rename_i hidle hasleep
      cases h
      have hmove := Move.signalled (s := s) c hidle
      rwa [if_neg hasleep] at hmove
  | openHandle hd =>
    simp only [step, openStep] at h
    split at h <;> rename_i hpc
    · cases h
      exact .opened hd hpc
    · exact nomatch h
  | releaseHandle hd =>
    simp only [step, releaseStep] at h
    split at h <;> rename_i hpc
    · exact nomatch h
    · cases h
      exact .resetKernel hd hpc
    · cases h
      exact .resetUser hd hpc
    · cases h
      exact .resetWait hd hpc
    · cases h
      exact .released hd hpc
  | daemonStart tuners =>
    simp only [step, startDaemon] at h
    split at h <;> rename_i hpc
    · cases h
      exact .daemonStart tuners hpc
    · exact nomatch h
  | daemonExit =>
    simp only [step] at h
    split at h <;> rename_i hpc
    · exact nomatch h
    · cases h
      exact .daemonExit hpc
  | daemonRead stale =>
    simp only [step] at h
    split at h <;> rename_i hpc
    · cases h
      simp only [State.readRequest]
      split <;> rename_i hget
      · exact .readNothing stale hpc hget
      · exact .readRequest stale _ _ _ hpc hget
    · exact nomatch h
  | daemonHandle d =>
    simp only [step] at h
    split at h
    · rename_i t mesg rest hpc hmsgs
      cases h
      exact .handleMessage d t mesg rest hpc hmsgs
    · exact nomatch h
  | daemonStep => exact daemonStep_move h

end State

end DvbHdhomerun
