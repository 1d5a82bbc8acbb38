import DvbHdhomerun.Spec.ChannelClients

/-!
# Ignored writes

`hdhomerun_control_write` throws a reply away, and still reports success, when
`wait_for_write` is not set. The flag is set by a client after its request has become
visible to the daemon, and cleared by any client that is interrupted. A reply to a live
caller is handed on exactly when the last step that touched the flag set it.
-/

namespace DvbHdhomerun

/-- The caller of the request with ticket `t` has posted it and has not returned. -/
def State.Live (s : State) (t : Ticket) : Prop :=
  ∃ c, (s.clients c).pc.waiting = true ∧ (s.clients c).ticket = some t

/-- A write of a reply to a live caller goes on to the FIFO, it is not ignored. -/
def LiveReplyKept (s : State) (a : Action) (s' : State) : Prop :=
  ∀ w, a = .daemonStep → s.daemon.pc = .writeTest w → s.Live w.ticket → s'.daemon.pc = .writeFull w

/-- In the run `acts`, the last step that set or cleared `wait_for_write` was one that set it. -/
def WaiterSetLast (acts : List Action) : Prop :=
  Run.latch State.step State.setsWait State.clearsWait false .init acts = true

/-- The flag is what the schedule has made of it. -/
theorem waiterSetLast_iff {acts : List Action} {s : State} (hrun : State.run acts = some s) :
    WaiterSetLast acts ↔ s.waitForWrite = true := by
  have hlatch : Run.latch State.step State.setsWait State.clearsWait State.init.waitForWrite
      .init acts = s.waitForWrite :=
    Run.latch_eq (fun _ _ _ hs => State.step_waitForWrite hs) hrun
  have hinit : State.init.waitForWrite = false := rfl
  rw [hinit] at hlatch
  rw [WaiterSetLast, hlatch]

/-- The test of `wait_for_write` in `hdhomerun_control_write`. -/
private theorem step_writeTest {s s' : State} {w : Writing} (hpc : s.daemon.pc = .writeTest w)
    (hs : s.step .daemonStep = some s') :
    s'.daemon.pc = .writeFull w ↔ s.waitForWrite = true := by
  cases State.step_move hs with
  | daemonGoes pc hgo =>
    cases hgo with
    | write w' hpc' hflag =>
      cases hpc.symm.trans hpc'
      simp [State.setDaemonPc, hflag]
    | readable h | served h | full _ h | room _ h | retest _ h | sleep _ h =>
      cases hpc.symm.trans h
  | ignoreReply w' hpc' hflag => simp [State.setDaemonPc, hflag]
  | putReply _ h | finishWrite _ h | pop h => cases hpc.symm.trans h

/-- No reply to a live caller is dropped exactly when, each time the daemon is about to
    write one, the last step that set or cleared `wait_for_write` was a set. -/
theorem live_replies_kept_iff (acts : List Action) :
    Run.EveryStep State.step LiveReplyKept .init acts ↔
      ∀ as bs s w, acts = as ++ .daemonStep :: bs → State.run as = some s →
        s.daemon.pc = .writeTest w → s.Live w.ticket → WaiterSetLast as := by
  rw [Run.everyStep_iff]
  constructor
  · intro h as bs s w hacts hrun hpc hlive
    -- the test itself is never blocked
    obtain ⟨s', hs⟩ : ∃ s', s.step .daemonStep = some s' := by
      simp only [State.step, State.daemonStep, hpc]
      split <;> exact ⟨_, rfl⟩
    have hkept := h as .daemonStep bs s s' hacts hrun hs w rfl hpc hlive
    exact (waiterSetLast_iff hrun).mpr ((step_writeTest hpc hs).mp hkept)
  · intro h as a bs s s' hacts hrun hs w ha hpc hlive
    subst ha
    have hset := h as bs s w hacts hrun hpc hlive
    exact (step_writeTest hpc hs).mpr ((waiterSetLast_iff hrun).mp hset)

/-- The daemon answers before the caller has set the flag: nothing is released, the caller
    is still there, and its reply is dropped. -/
theorem live_reply_dropped :
    ¬ ∀ acts, ReleaseFree acts → Run.EveryStep State.step LiveReplyKept .init acts := by
  intro hall
  let as : List Action := [.openHandle 0, .daemonStart []] ++
    Schedule.post 0 (.feReadStatus 0) ++ Schedule.serve
  let s : State := (State.run as).get (by decide)
  have hrun : State.run as = some s := (Option.some_get _).symm
  have hstep : s.step .daemonStep = some ((s.step .daemonStep).get (by decide)) :=
    (Option.some_get _).symm
  let reply := dvbHdhomerunFeReadStatus 0 .zero
  have hpc : s.daemon.pc = .writeTest ⟨0, reply, reply.bytes⟩ := by decide
  have hlive : s.Live 0 := ⟨0, by decide, by decide⟩
  have hkept := Run.everyStep_iff.mp (hall (as ++ [.daemonStep]) (by decide)) as .daemonStep [] s _
    rfl hrun hstep _ rfl hpc hlive
  exact absurd hkept (by decide)

end DvbHdhomerun
