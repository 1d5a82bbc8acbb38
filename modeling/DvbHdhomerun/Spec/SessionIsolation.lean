import DvbHdhomerun.Spec.ChannelClients
import DvbHdhomerun.Spec.ChannelRelay

/-!
# Session isolation

`hdhomerun_control_release` resets `control_fifo_kernel`, then `control_fifo_user`, and
clears the two flags afterwards. A client that has tested `userspace_ready` before may put
its request behind the reset; the request then outlives the session, and the next daemon
reads it first. As long as every put comes before the last reset, no session sees a request
of an earlier one.
-/

namespace DvbHdhomerun

/-- A handle is open, outside `hdhomerun_control_release`. -/
def State.SomeOpen (s : State) : Prop := ∃ h, s.handles h = .opened

/-- No handle is open, and no release is under way. -/
def State.AllClosed (s : State) : Prop := ∀ h, s.handles h = .closed

/-- A reset of `control_fifo_user` is still to come before the last handle is closed. -/
def State.ResetAhead (s : State) : Prop := ∃ h, s.handles h = .opened ∨ s.handles h = .kernelReset

/-- Statements inside a call on the control device. -/
def DaemonPc.onDevice : DaemonPc → Bool
  | .exited | .process | .pop => false
  | _ => true

/-- The daemon works on the device through an open handle: the kernel does not release a
    file that is in use. -/
def UsesOpenDevice (s : State) : Action → Prop
  | .daemonRead _ | .daemonStep => s.daemon.pc.onDevice = true → s.SomeOpen
  | _ => True

/-- Requests are put before the last reset of `control_fifo_user`. -/
def PutsBeforeReset (s : State) : Action → Prop
  | .client c => (s.clients c).pc = .put → s.ResetAhead
  | _ => True

/-- Between sessions there is nothing in the FIFOs. -/
def ClosedEmpty (s : State) : Prop :=
  s.AllClosed → s.controlFifoUser.data = [] ∧ s.controlFifoKernel.data = []

/-- The daemon reads requests with tickets from `t` on only. -/
def ReadsFrom (t : Ticket) (s : State) : Action → Prop
  | .daemonRead _ => ∀ b ∈ (s.controlFifoUser.get sizeofControlMesg).1, t ≤ b.1
  | _ => True

/-- From the open that begins a session on, the daemon reads requests posted after it only. -/
def ReadsOwnSession (acts : List Action) : Prop :=
  ∀ as h bs s s', acts = as ++ .openHandle h :: bs → State.run as = some s → s.AllClosed →
    s.step (.openHandle h) = some s' →
      Run.Guarded State.step (ReadsFrom s.hist.attempts.length) s' bs

/-! ## What is in the FIFOs while handles are in use -/

/-- Whatever is in a FIFO is still to be reset. -/
private structure FifosInUse (s : State) : Prop where
  kernel : s.controlFifoKernel.data ≠ [] → s.SomeOpen
  user : s.controlFifoUser.data ≠ [] → s.ResetAhead

/-- With no handle open the FIFOs are empty. -/
private theorem FifosInUse.closedEmpty {s : State} (h : FifosInUse s) : ClosedEmpty s := by
  intro hclosed
  constructor
  · by_contra hne
    obtain ⟨hd, hopen | hreset⟩ := h.user hne
    · exact nomatch (hclosed hd).symm.trans hopen
    · exact nomatch (hclosed hd).symm.trans hreset
  · by_contra hne
    obtain ⟨hd, hopen⟩ := h.kernel hne
    exact nomatch (hclosed hd).symm.trans hopen

/-- A handle that is not the one in hand stays as it is. -/
private theorem handles_of_ne {s : State} {hd hd' : HandleId} {old pc : HandlePc} (new : HandlePc)
    (hold : s.handles hd = old) (h : s.handles hd' = pc) (hne : old ≠ pc) :
    Function.update s.handles hd new hd' = pc := by
  rw [Function.update_of_ne, h]
  rintro rfl
  exact hne (hold.symm.trans h)

/-- A FIFO that holds something after a get held something before. -/
private theorem drop_ne_nil {f : ControlFifo} (h : (f.get sizeofControlMesg).2.data ≠ []) :
    f.data ≠ [] := by
  intro hnil
  rw [Fifo.get_data, hnil] at h
  exact h List.drop_nil

/-- One step with the device open and the put before the reset. -/
private theorem FifosInUse.step {s s' : State} {a : Action} (hinv : FifosInUse s)
    (hok : UsesOpenDevice s a ∧ PutsBeforeReset s a) (hs : s.step a = some s') :
    FifosInUse s' := by
  cases State.step_move hs with
  -- what is put is put while a handle is open, or before the last reset
  | posted c hpc | noRoom c hpc => exact ⟨hinv.kernel, fun _ => hok.2 hpc⟩
  | get c hpc => exact ⟨fun hne => hinv.kernel (drop_ne_nil hne), hinv.user⟩
  | putReply w hpc => exact ⟨fun _ => hok.1 (by rw [hpc]; rfl), hinv.user⟩
  | readNothing stale hpc hget => exact ⟨hinv.kernel, fun hne => hinv.user (drop_ne_nil hne)⟩
  | readRequest stale t b rest hpc hget =>
    exact ⟨hinv.kernel, fun hne => hinv.user (drop_ne_nil hne)⟩
  | opened hd hpc =>
    have hopen : Function.update s.handles hd .opened hd = .opened := Function.update_self ..
    exact ⟨fun _ => ⟨hd, hopen⟩, fun _ => ⟨hd, .inl hopen⟩⟩
  | resetKernel hd hpc =>
    refine ⟨fun hne => absurd rfl hne, fun hne => ?_⟩
    -- the reset of the other FIFO comes next
    exact ⟨hd, .inr (Function.update_self ..)⟩
  | resetUser hd hpc =>
    refine ⟨fun hne => ?_, fun hne => absurd rfl hne⟩
    obtain ⟨hd', hopen⟩ := hinv.kernel hne
    exact ⟨hd', handles_of_ne _ hpc hopen (by decide)⟩
  | resetWait hd hpc | released hd hpc =>
    -- another handle answers for what is in the FIFOs
    constructor
    · intro hne
      obtain ⟨hd', hopen⟩ := hinv.kernel hne
      exact ⟨hd', handles_of_ne _ hpc hopen (by decide)⟩
    · intro hne
      obtain ⟨hd', hopen | hreset⟩ := hinv.user hne
      · exact ⟨hd', .inl (handles_of_ne _ hpc hopen (by decide))⟩
      · exact ⟨hd', .inr (handles_of_ne _ hpc hreset (by decide))⟩
  | _ => exact ⟨hinv.kernel, hinv.user⟩

/-! ## The tickets in `control_fifo_user` -/

/-- The requests in `control_fifo_user` have tickets from `t` on. -/
private structure UserFrom (t : Ticket) (s : State) : Prop where
  tickets : ∀ b ∈ s.controlFifoUser.data, t ≤ b.1
  next : t ≤ s.hist.attempts.length

/-- New requests have later tickets. -/
private theorem UserFrom.step {t : Ticket} {s s' : State} {a : Action} (hinv : UserFrom t s)
    (hs : s.step a = some s') : UserFrom t s' := by
  have heff := State.step_effect hs
  have hnext : t ≤ s'.hist.attempts.length :=
    Nat.le_trans hinv.next (State.step_logs hs).1.length_le
  refine ⟨?_, hnext⟩
  show ∀ b ∈ s'.data.user.data, t ≤ b.1
  generalize s'.data = d' at heff
  intro b hb
  cases heff with
  | putRequest c hpc =>
    simp only [Fifo.put_data, List.mem_append] at hb
    cases hb with
    | inl hold => exact hinv.tickets b hold
    | inr hnew =>
      -- the new bytes carry the newest ticket
      obtain ⟨x, -, rfl⟩ := List.mem_map.mp (List.mem_of_mem_take hnew)
      exact hinv.next
  | readRequest stale t' b' rest hpc hget => exact hinv.tickets b (List.mem_of_mem_drop hb)
  | readNothing stale hpc hget => exact hinv.tickets b (List.mem_of_mem_drop hb)
  | resetUser hd hpc => exact absurd hb List.not_mem_nil
  | _ => exact hinv.tickets b hb

/-- So the daemon reads no older ones. -/
private theorem UserFrom.readsFrom {t : Ticket} {s : State} (hinv : UserFrom t s) (a : Action) :
    ReadsFrom t s a := by
  cases a with
  | daemonRead stale => exact fun b hb => hinv.tickets b (List.mem_of_mem_take hb)
  | _ => trivial

/-! ## Runs -/

/-- A session that begins with empty FIFOs reads its own requests. -/
private theorem readsOwnSession_of_closedEmpty {acts : List Action}
    (hempty : Run.EveryState State.step ClosedEmpty .init acts) : ReadsOwnSession acts := by
  intro as h bs s s' hacts hrun hclosed hs
  subst hacts
  have huser := ((hempty.rest hrun).head hclosed).1
  have hfrom : UserFrom s.hist.attempts.length s :=
    ⟨fun b hb => absurd hb (by rw [huser]; exact List.not_mem_nil), Nat.le_refl _⟩
  have hstep : ∀ s₁ a s₂, UserFrom s.hist.attempts.length s₁ → True → s₁.step a = some s₂ →
      UserFrom s.hist.attempts.length s₂ := fun _ _ _ hinv _ hs => hinv.step hs
  exact Run.EveryStep.of_invariant hstep (fun _ a _ hinv _ _ => hinv.readsFrom a) (hfrom.step hs)
    (Run.everyStep_true s' bs)

/-- As long as requests are put before the last reset of `control_fifo_user`, nothing is left
    in the FIFOs between two sessions, and every session reads its own requests only. -/
theorem sessions_isolated (acts : List Action)
    (huse : Run.Guarded State.step UsesOpenDevice .init acts)
    (hput : Run.Guarded State.step PutsBeforeReset .init acts) :
    Run.EveryState State.step ClosedEmpty .init acts ∧ ReadsOwnSession acts := by
  have hinit : FifosInUse .init := ⟨fun h => absurd rfl h, fun h => absurd rfl h⟩
  have hstep : ∀ s a s', FifosInUse s → UsesOpenDevice s a ∧ PutsBeforeReset s a →
      s.step a = some s' → FifosInUse s' := fun _ _ _ => FifosInUse.step
  have hempty : Run.EveryState State.step ClosedEmpty .init acts :=
    Run.EveryState.of_invariant hstep (fun _ hinv => hinv.closedEmpty) hinit (huse.and hput)
  exact ⟨hempty, readsOwnSession_of_closedEmpty hempty⟩

/-- A session in which everything between the open and the release happens while handle 0 is
    open meets every condition that asks for an open handle. -/
private theorem guarded_session {ok : State → Action → Prop} {acts : List Action}
    (hopen : ∀ s, State.init.step (.openHandle 0) = some s →
      Run.Guarded State.step (fun s a => s.handles 0 = .opened ∨ a.isRelease = true) s acts)
    (hfirst : ok .init (.openHandle 0))
    (hok : ∀ s a, s.handles 0 = .opened ∨ a.isRelease = true → ok s a) :
    Run.Guarded State.step ok .init (.openHandle 0 :: acts) :=
  fun s hs => ⟨hfirst, (hopen s hs).imp fun s a _ _ h => hok s a h⟩

/-- One session with one call, from the open to the end of the release. -/
theorem sessions_isolated_roundTrip :
    (State.run (Schedule.roundTrip ++ List.replicate 4 (.releaseHandle 0))).isSome ∧
      Run.EveryState State.step ClosedEmpty .init
        (Schedule.roundTrip ++ List.replicate 4 (.releaseHandle 0)) ∧
      ReadsOwnSession (Schedule.roundTrip ++ List.replicate 4 (.releaseHandle 0)) := by
  have hopen : ∀ s, State.init.step (.openHandle 0) = some s →
      Run.Guarded State.step (fun s a => s.handles 0 = .opened ∨ a.isRelease = true) s
        (Schedule.roundTrip.tail ++ List.replicate 4 (.releaseHandle 0)) := by
    intro s hs
    cases hs
    decide
  refine ⟨by decide, sessions_isolated _ ?_ ?_⟩
  · refine guarded_session hopen trivial fun s a h => ?_
    cases a with
    | daemonRead stale | daemonStep =>
      intro _
      exact ⟨0, h.resolve_right Bool.false_ne_true⟩
    | _ => trivial
  · refine guarded_session hopen trivial fun s a h => ?_
    cases a with
    | client c =>
      intro _
      exact ⟨0, .inl (h.resolve_right Bool.false_ne_true)⟩
    | _ => trivial

/-- A client tests `userspace_ready`, the device is released, and the client puts its
    request into a FIFO that has just been reset. -/
theorem request_outlives_session :
    ¬ ∀ acts, Run.Guarded State.step UsesOpenDevice .init acts →
      Run.EveryState State.step ClosedEmpty .init acts ∧ ReadsOwnSession acts := by
  intro hall
  let acts : List Action := [.openHandle 0, .call 0 (.feReadStatus 0) .zero, .client 0,
    .releaseHandle 0, .releaseHandle 0, .client 0, .releaseHandle 0, .releaseHandle 0]
  have huse : Run.Guarded State.step UsesOpenDevice .init acts := by
    refine Run.EveryStep.imp (fun s a s' _ h => h s) (Run.EveryStep.of_forall
      (p := fun a => ∀ s, UsesOpenDevice s a) fun a ha s => ?_)
    -- no step of the daemon
    simp only [acts, List.mem_cons, List.not_mem_nil, or_false] at ha
    rcases ha with rfl | rfl | rfl | rfl | rfl | rfl | rfl | rfl <;> trivial
  have hrun : State.run acts = some ((State.run acts).get (by decide)) :=
    (Option.some_get _).symm
  -- the only handle is closed again
  have hclosed : ((State.run acts).get (by decide)).AllClosed := by
    intro h
    match h with
    | 0 => rfl
    | h + 1 => rfl
  obtain ⟨huser, -⟩ := (hall acts huse).1.last hrun hclosed
  exact absurd huser (by decide)

end DvbHdhomerun
