import DvbHdhomerun.Spec.ChannelMoves

/-!
# What one step of the control channel can do

Four views of `State.step_move`. The part of a state that carries requests and replies is
its `Data`; `step_effect` lists what a step does to it, `step_clients` how it changes a
client, `step_returned` which returns it can record, and `step_waitForWrite` and
`step_handles` what becomes of the flags and the handles. The invariants of the modules
that follow are derived from these and never unfold `State.step`.
-/

namespace DvbHdhomerun

/-! ## The daemon's stages -/

/-- The reply the daemon is handing to `hdhomerun_control_write`. -/
def Daemon.writing (d : Daemon) : Option Writing :=
  match d.pc with
  | .writeTest w | .writeFull w | .writeWait w | .writeSleep w | .writePut w => some w
  | .writeWake w => if w.rest = [] then none else some w
  | _ => none

/-- The messages the daemon has read and not answered yet: while the oldest is being
    written, and until it is popped, it is still at the head of `m_messages`. -/
def Daemon.serving (d : Daemon) : List (Ticket × ControlMesg) :=
  match d.pc with
  | .exited => []
  | .writeTest _ | .writeFull _ | .writeWait _ | .writeSleep _ | .writePut _ | .writeWake _
  | .pop => d.mMessages.tail
  | _ => d.mMessages

/-- A statement of `hdhomerun_control_release`. -/
def Action.isRelease : Action → Bool
  | .releaseHandle _ => true
  | _ => false

/-- The run has no release of the control device. -/
def ReleaseFree (acts : List Action) : Prop := ∀ a ∈ acts, a.isRelease = false

instance (acts : List Action) : Decidable (ReleaseFree acts) :=
  inferInstanceAs (Decidable (∀ a ∈ acts, _))

/-- What carries requests and replies. -/
structure Data where
  user : ControlFifo
  kernel : ControlFifo
  serving : List (Ticket × ControlMesg)
  writing : Option Writing
  /-- the kernel ids of the daemon's tuners -/
  ids : List Int32
  attempts : List Attempt
  pushed : List ControlMesg
  executed : List Executed
  replies : List (Ticket × ControlMesg)
  taken : List (List TaggedByte)

namespace State

/-- The part of the state that carries messages. -/
@[simps]
def data (s : State) : Data where
  user := s.controlFifoUser
  kernel := s.controlFifoKernel
  serving := s.daemon.serving
  writing := s.daemon.writing
  ids := s.daemon.tuners.map (·.mKernelId)
  attempts := s.hist.attempts
  pushed := s.hist.pushed
  executed := s.hist.executed
  replies := s.hist.replies
  taken := s.hist.taken

/-- A call that returns leaves the messages alone. -/
@[simp] theorem data_returnCall (s : State) (c : ClientId) (k : Client) (ret : Int) :
    (s.returnCall c k ret).data = s.data := by
  rw [returnCall]
  split <;> rfl

/-! ## Effects on the data -/

/-- The data after a step, by what the step did. -/
inductive Effect (s : State) : Action → Data → Prop where
  | quiet (a : Action) : Effect s a s.data
  | putRequest (c : ClientId) (hpc : (s.clients c).pc = .put) :
    Effect s (.client c)
      { s.data with
        user := (s.controlFifoUser.put (s.request c)).2
        attempts := s.hist.attempts ++ [⟨c, (s.clients c).mesg, s.postResult c⟩] }
  | getReply (c : ClientId) (hpc : (s.clients c).pc = .get) :
    Effect s (.client c)
      { s.data with
        kernel := (s.controlFifoKernel.get sizeofControlMesg).2
        taken := s.hist.taken ++ [s.oldestReply] }
  | readRequest (stale : ControlMesg) (t : Ticket) (b : UInt8) (rest : List TaggedByte)
      (hpc : s.daemon.pc = .readGet)
      (hget : (s.controlFifoUser.get sizeofControlMesg).1 = (t, b) :: rest) :
    Effect s (.daemonRead stale)
      { s.data with
        user := (s.controlFifoUser.get sizeofControlMesg).2
        serving := s.daemon.serving ++ [(t, stale.fill (b :: rest.map Prod.snd))]
        pushed := s.hist.pushed ++ [stale.fill (b :: rest.map Prod.snd)] }
  | handleMessage (d : DeviceResults) (t : Ticket) (mesg : ControlMesg)
      (rest : List (Ticket × ControlMesg)) (handled : Handled)
      (hserving : s.daemon.serving = (t, mesg) :: rest) (hwriting : s.daemon.writing = none)
      (hhandled : handled = Control.processMessage s.daemon.tuners mesg d) :
    Effect s (.daemonHandle d)
      { s.data with
        serving := rest
        writing := handled.reply.map fun reply => ⟨t, reply, reply.bytes⟩
        ids := handled.tuners.map (·.mKernelId)
        executed := s.hist.executed ++ (handled.call.map fun call => ⟨t, mesg.id, call⟩).toList
        replies := s.hist.replies ++ (handled.reply.map fun reply => (t, reply)).toList }
  | ignoreReply (w : Writing) (hpc : s.daemon.pc = .writeTest w) (hflag : s.waitForWrite = false) :
    Effect s .daemonStep { s.data with writing := none }
  | putReply (w : Writing) (hpc : s.daemon.pc = .writePut w) :
    Effect s .daemonStep
      { s.data with
        kernel := (s.controlFifoKernel.put (tagged w.ticket w.rest)).2
        writing :=
          let rest := w.rest.drop (s.controlFifoKernel.put (tagged w.ticket w.rest)).1
          if rest = [] then none else some { w with rest := rest } }
  | resetKernel (h : HandleId) (hpc : s.handles h = .opened) :
    Effect s (.releaseHandle h) { s.data with kernel := .empty }
  | resetUser (h : HandleId) (hpc : s.handles h = .kernelReset) :
    Effect s (.releaseHandle h) { s.data with user := .empty }
  | readNothing (stale : ControlMesg) (hpc : s.daemon.pc = .readGet)
      (hget : (s.controlFifoUser.get sizeofControlMesg).1 = []) :
    Effect s (.daemonRead stale)
      { s.data with
        user := (s.controlFifoUser.get sizeofControlMesg).2
        serving := []
        writing := none
        ids := [] }
  | daemonExit :
    Effect s .daemonExit { s.data with serving := [], writing := none, ids := [] }
  | daemonStart (tuners : List HdhomerunTuner) (hpc : s.daemon.pc = .exited) :
    Effect s (.daemonStart tuners) { s.data with ids := tuners.map (·.mKernelId) }

/-- So does a client that goes on. -/
private theorem ClientGoes.data_eq {s : State} {c : ClientId} {pc : ClientPc}
    (_ : s.ClientGoes c pc) : (s.setClient c { s.clients c with pc := pc }).data = s.data := rfl

/-- So does the daemon when it goes on. -/
private theorem DaemonGoes.data_eq {s : State} {pc : DaemonPc} (h : s.DaemonGoes pc) :
    (s.setDaemonPc pc).data = s.data := by
  cases h <;> simp [data, setDaemonPc, Daemon.serving, Daemon.writing, *]

/-- Every step has one of the listed effects. -/
theorem step_effect {s s' : State} {a : Action} (h : s.step a = some s') :
    Effect s a s'.data := by
  -- the statements between the puts and the gets move no message
  have hquiet : s'.data = s.data → Effect s a s'.data := fun hd => hd ▸ Effect.quiet a
  cases step_move h with
  | posted c hpc => exact .putRequest c hpc
  | noRoom c hpc =>
    rw [data_returnCall]
    exact .putRequest c hpc
  | get c hpc =>
    rw [data_returnCall]
    exact .getReply c hpc
  | notReady =>
    apply hquiet
    rw [data_returnCall]
  | clearWait =>
    apply hquiet
    rw [data_returnCall]
    rfl
  | resetKernel hd hpc => exact .resetKernel hd hpc
  | resetUser hd hpc => exact .resetUser hd hpc
  | daemonStart tuners hpc =>
    have heff := Effect.daemonStart (s := s) tuners hpc
    simpa [data, Daemon.serving, Daemon.writing, hpc] using heff
  | daemonExit => exact .daemonExit
  | readNothing stale hpc hget => exact .readNothing stale hpc hget
  | readRequest stale t b rest hpc hget =>
    have heff := Effect.readRequest (s := s) stale t b rest hpc hget
    simpa [data, afterRead, Daemon.serving, Daemon.writing, hpc] using heff
  | handleMessage d t mesg rest hpc hmsgs =>
    have heff := Effect.handleMessage (s := s) d t mesg rest _
      (by simp [Daemon.serving, hpc, hmsgs]) (by simp [Daemon.writing, hpc]) rfl
    refine cast ?_ heff
    congr 1
    simp only [data, State.handleMessage]
    cases (Control.processMessage s.daemon.tuners mesg d).reply <;>
      simp [Daemon.serving, Daemon.writing, hmsgs]
  | daemonGoes pc hgo => exact hquiet hgo.data_eq
  | ignoreReply w hpc hflag =>
    have heff := Effect.ignoreReply (s := s) w hpc hflag
    simpa [data, setDaemonPc, Daemon.serving, Daemon.writing, hpc] using heff
  | putReply w hpc =>
    have heff := Effect.putReply (s := s) w hpc
    simpa [data, State.putReply, Daemon.serving, Daemon.writing, hpc] using heff
  | finishWrite w hpc =>
    apply hquiet
    rw [State.finishWrite]
    split <;> simp [data, setDaemonPc, wakeReaders, Daemon.serving, Daemon.writing, *]
  | pop hpc =>
    apply hquiet
    simp [data, Daemon.serving, Daemon.writing, hpc]
  | _ => exact hquiet rfl

/-! ## Clients -/

/-- How the record of client `c` changes in a step. -/
inductive ClientChange (s s' : State) (c : ClientId) : Prop where
  | same (h : s'.clients c = s.clients c)
  | entered (r : Request) (mem mesg : ControlMesg) (lock : Option Int32)
      (hb : r.build mem = .ok (lock, mesg))
      (h : s'.clients c =
        ⟨if lock = none then .testReady else .lockFeed, r, lock, mesg, none, false⟩)
  | moved (pc : ClientPc) (signalled : Bool) (hbefore : pc.before = (s.clients c).pc.before)
      (hwaiting : pc.waiting = (s.clients c).pc.waiting)
      (hsleep : pc.maySleep = true → (s.clients c).pc.maySleep = true)
      (h : s'.clients c = { s.clients c with pc := pc, signalled := signalled })
  | posted (hpc : (s.clients c).pc = .put) (hret : s.postResult c = 1)
      (hatt : s'.hist.attempts = s.hist.attempts ++ [⟨c, (s.clients c).mesg, 1⟩])
      (h : s'.clients c =
        { s.clients c with pc := .setWait, ticket := some s.hist.attempts.length })
  | left (hbefore : (s'.clients c).pc.before = false) (hwaiting : (s'.clients c).pc.waiting = false)

/-- A client that returns is outside a call, and the others are where they were. -/
private theorem returnCall_pc (s : State) (c : ClientId) (k : Client) (ret : Int) :
    (((s.returnCall c k ret).clients c).pc.before = false ∧
      ((s.returnCall c k ret).clients c).pc.waiting = false) ∧
    ∀ c', c' ≠ c → (s.returnCall c k ret).clients c' = s.clients c' := by
  refine ⟨?_, fun c' hc => ?_⟩
  · simp only [returnCall, setClient, Function.update_self]
    split <;> exact ⟨rfl, rfl⟩
  · simp only [returnCall, setClient]
    exact Function.update_of_ne hc ..

/-- The return of a call as a change of the clients. -/
private theorem ClientChange.of_returnCall (s s₁ : State) {c : ClientId} {k : Client}
    {ret : Int} (hs₁ : s₁.clients = s.clients) (c' : ClientId) :
    ClientChange s (s₁.returnCall c k ret) c' := by
  obtain ⟨⟨hbefore, hwaiting⟩, hother⟩ := returnCall_pc s₁ c k ret
  by_cases hc : c' = c
  · subst hc
    exact .left hbefore hwaiting
  · exact .same ((hother c' hc).trans (by rw [hs₁]))

/-- A step that only moves client `c` on. -/
private theorem ClientChange.of_update {s s' : State} {c : ClientId} {pc : ClientPc}
    {signalled : Bool} (hbefore : pc.before = (s.clients c).pc.before)
    (hwaiting : pc.waiting = (s.clients c).pc.waiting)
    (hsleep : pc.maySleep = true → (s.clients c).pc.maySleep = true)
    (h : s'.clients =
      Function.update s.clients c { s.clients c with pc := pc, signalled := signalled })
    (c' : ClientId) : ClientChange s s' c' := by
  by_cases hc : c' = c
  · subst hc
    exact .moved pc signalled hbefore hwaiting hsleep (by rw [h, Function.update_self])
  · exact .same (by rw [h, Function.update_of_ne hc])

/-- A client that only goes on to another statement is no further from its reply. -/
private theorem ClientGoes.stages {s : State} {c : ClientId} {pc : ClientPc}
    (h : s.ClientGoes c pc) : pc.before = (s.clients c).pc.before ∧
      pc.waiting = (s.clients c).pc.waiting ∧
      (pc.maySleep = true → (s.clients c).pc.maySleep = true) := by
  cases h with
  | ready hpc | found hpc | interrupted hpc | sleep hpc | again hpc | get hpc =>
    rw [hpc]
    decide

/-- Every step changes every client in one of the listed ways. -/
theorem step_clients {s s' : State} {a : Action} (h : s.step a = some s') (c : ClientId) :
    ClientChange s s' c := by
  cases step_move h with
  | entered c₀ r mem mesg lock _ hb =>
    by_cases hc : c = c₀
    · subst hc
      exact .entered r mem mesg lock hb (by simp [setClient])
    · exact .same (by simp [setClient, Function.update_of_ne hc])
  | lockFeed c₀ id hpc =>
    exact .of_update (by rw [hpc]; rfl) (by rw [hpc]; rfl) (by rw [hpc]; decide) rfl c
  | clientGoes c₀ pc hgo =>
    obtain ⟨hbefore, hwaiting, hsleep⟩ := hgo.stages
    exact .of_update hbefore hwaiting hsleep rfl c
  | posted c₀ hpc hret =>
    by_cases hc : c = c₀
    · subst hc
      exact .posted hpc hret (by simp [afterPut, setClient, hret]) (by simp [setClient])
    · exact .same (by simp [setClient, afterPut, Function.update_of_ne hc])
  | setWait c₀ hpc =>
    exact .of_update (by rw [hpc]; rfl) (by rw [hpc]; rfl) (by rw [hpc]; decide) rfl c
  | notReady c₀ => exact .of_returnCall s s rfl c
  | noRoom c₀ => exact .of_returnCall s (s.afterPut c₀) rfl c
  | clearWait c₀ => exact .of_returnCall s { s with waitForWrite := false } rfl c
  | get c₀ => exact .of_returnCall s s.afterGet rfl c
  | unlockFeed c₀ =>
    by_cases hc : c = c₀
    · subst hc
      exact .left (by simp [setClient, ClientPc.before]) (by simp [setClient, ClientPc.waiting])
    · exact .same (by simp [setClient, Function.update_of_ne hc])
  | signalled c₀ hidle =>
    -- a sleeping client goes back to the test of the length
    by_cases hpc : (s.clients c₀).pc = .asleep
    · rw [if_pos hpc]
      exact .of_update (by rw [hpc]; rfl) (by rw [hpc]; rfl) (by rw [hpc]; decide) rfl c
    · rw [if_neg hpc]
      exact .of_update rfl rfl id rfl c
  | finishWrite w hpc =>
    -- the wake-up of `control_readq`
    simp only [State.finishWrite, setDaemonPc, wakeReaders]
    by_cases hc : (s.clients c).pc = .asleep
    · exact .moved .testLen (s.clients c).signalled (by rw [hc]; rfl) (by rw [hc]; rfl)
        (by rw [hc]; decide) (by simp [hc])
    · exact .same (by simp [hc])
  | _ => exact .same rfl

/-! ## Returns -/

/-- How the log of returns changes in a step. -/
inductive ReturnChange (s s' : State) : Action → Prop where
  | same (a : Action) (h : s'.hist.returned = s.hist.returned) : ReturnChange s s' a
  /-- a demux callback refuses its argument -/
  | refused (c : ClientId) (r : Request) (mem : ControlMesg) (e : Int)
      (hb : r.build mem = .error e)
      (h : s'.hist.returned = s.hist.returned ++ [⟨c, r, none, e, mem⟩]) :
      ReturnChange s s' (.call c r mem)
  /-- the daemon is not connected -/
  | notReady (c : ClientId) (hpc : (s.clients c).pc = .testReady) (hready : s.userspaceReady = false)
      (h : s'.hist.returned = s.hist.returned ++
        [⟨c, (s.clients c).request, (s.clients c).ticket, -1, (s.clients c).mesg⟩]) :
      ReturnChange s s' (.client c)
  /-- the request did not fit -/
  | noRoom (c : ClientId) (hpc : (s.clients c).pc = .put) (hret : s.postResult c ≠ 1)
      (h : s'.hist.returned = s.hist.returned ++
        [⟨c, (s.clients c).request, some s.hist.attempts.length, s.postResult c,
          (s.clients c).mesg⟩]) :
      ReturnChange s s' (.client c)
  | interrupted (c : ClientId) (hpc : (s.clients c).pc = .clearWait)
      (h : s'.hist.returned = s.hist.returned ++
        [⟨c, (s.clients c).request, (s.clients c).ticket, -ERESTARTSYS, (s.clients c).mesg⟩]) :
      ReturnChange s s' (.client c)
  | got (c : ClientId) (hpc : (s.clients c).pc = .get)
      (h : s'.hist.returned = s.hist.returned ++
        [⟨c, (s.clients c).request, (s.clients c).ticket, s.oldestReply.length,
          (s.clients c).mesg.fill (s.oldestReply.map Prod.snd)⟩]) :
      ReturnChange s s' (.client c)

/-- Every step records at most one return, of one of the listed kinds. -/
theorem step_returned {s s' : State} {a : Action} (h : s.step a = some s') :
    ReturnChange s s' a := by
  cases step_move h with
  | refused c r mem e _ hb => exact .refused c r mem e hb rfl
  | notReady c hpc hready => exact .notReady c hpc hready rfl
  | noRoom c hpc hret => exact .noRoom c hpc hret rfl
  | clearWait c hpc => exact .interrupted c hpc rfl
  | get c hpc => exact .got c hpc rfl
  | _ => exact .same _ rfl

/-! ## Flags and handles -/

/-- The step executes `wait_for_write = 1`. -/
def setsWait (s : State) : Action → Bool
  | .client c => (s.clients c).pc = .setWait
  | _ => false

/-- The step executes `wait_for_write = 0`. -/
def clearsWait (s : State) : Action → Bool
  | .client c => (s.clients c).pc = .clearWait
  | .releaseHandle h => s.handles h = .userReset
  | _ => false

/-- What becomes of `wait_for_write`. -/
def waitAfter (s : State) (a : Action) : Bool :=
  if s.setsWait a then true else if s.clearsWait a then false else s.waitForWrite

/-- The steps that set and clear `wait_for_write` are not of this kind. -/
private theorem ClientGoes.not_flag {s : State} {c : ClientId} {pc : ClientPc}
    (h : s.ClientGoes c pc) : (s.clients c).pc ≠ .setWait ∧ (s.clients c).pc ≠ .clearWait := by
  cases h with
  | ready hpc | found hpc | interrupted hpc | sleep hpc | again hpc | get hpc =>
    rw [hpc]
    decide

/-- `wait_for_write` after any step: it is set by waiting clients and cleared by interrupted
    ones and by releases. -/
theorem step_waitForWrite {s s' : State} {a : Action} (h : s.step a = some s') :
    s'.waitForWrite = s.waitAfter a := by
  unfold waitAfter
  cases step_move h with
  | clientGoes c pc hgo =>
    obtain ⟨hset, hclear⟩ := hgo.not_flag
    simp [setsWait, clearsWait, hset, hclear, setClient]
  | entered | refused | signalled | opened | daemonStart | daemonExit | readNothing | readRequest
  | handleMessage | daemonGoes | ignoreReply | putReply | finishWrite | pop => rfl
  | resetKernel hd hpc | resetUser hd hpc | resetWait hd hpc | released hd hpc =>
    simp [setsWait, clearsWait, hpc]
  | lockFeed c id hpc | posted c hpc | noRoom c hpc | setWait c hpc | clearWait c hpc
  | get c hpc | notReady c hpc | unlockFeed c id ret hpc =>
    simp [setsWait, clearsWait, hpc, setClient, returnCall, afterPut, afterGet]

/-- How the handles and `userspace_ready` change in a step. -/
inductive HandleChange (s s' : State) : Action → Prop where
  | opened (hd : HandleId) (hclosed : s.handles hd = .closed)
      (h : s'.handles = Function.update s.handles hd .opened)
      (hready : s'.userspaceReady = true) : HandleChange s s' (.openHandle hd)
  /-- inside `hdhomerun_control_release` -/
  | releasing (hd : HandleId) (pc : HandlePc) (hold : s.handles hd ≠ .closed)
      (hnew : pc ≠ .closed) (hnew' : pc ≠ .opened)
      (h : s'.handles = Function.update s.handles hd pc)
      (hready : s'.userspaceReady = s.userspaceReady) : HandleChange s s' (.releaseHandle hd)
  | released (hd : HandleId) (hold : s.handles hd = .waitCleared)
      (h : s'.handles = Function.update s.handles hd .closed)
      (hready : s'.userspaceReady = false) : HandleChange s s' (.releaseHandle hd)
  | same (a : Action) (ha : ∀ hd, a ≠ .openHandle hd ∧ a ≠ .releaseHandle hd)
      (h : s'.handles = s.handles) (hready : s'.userspaceReady = s.userspaceReady) :
      HandleChange s s' a

/-- What a step does to the open handles. -/
theorem step_handles {s s' : State} {a : Action} (h : s.step a = some s') :
    HandleChange s s' a := by
  cases step_move h with
  | opened hd hpc => exact .opened hd hpc rfl rfl
  | resetKernel hd hpc =>
    exact .releasing hd .kernelReset (by rw [hpc]; decide) (by decide) (by decide) rfl rfl
  | resetUser hd hpc =>
    exact .releasing hd .userReset (by rw [hpc]; decide) (by decide) (by decide) rfl rfl
  | resetWait hd hpc =>
    exact .releasing hd .waitCleared (by rw [hpc]; decide) (by decide) (by decide) rfl rfl
  | released hd hpc => exact .released hd hpc rfl rfl
  | _ => exact .same _ (by simp) rfl rfl

end State

end DvbHdhomerun
