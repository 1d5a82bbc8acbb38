import DvbHdhomerun.Spec.InFlight

/-!
# Disconnecting the daemon

`hdhomerun_control_release` throws away what is in the FIFOs and wakes nobody. A client
that waits for a reply then sleeps on, with nothing left that would wake it. No client is
stranded as long as nothing throws away the request, or the reply, of a client that may
still fall asleep.
-/

namespace DvbHdhomerun

/-- Client `c` waits for the reply to the request with ticket `t`, or may come to do so. -/
def State.Awaits (s : State) (c : ClientId) (t : Ticket) : Prop :=
  (s.clients c).pc.maySleep = true ∧ (s.clients c).ticket = some t

/-- The request of every sleeping client, or the reply to it, is somewhere. -/
def NoneStranded (s : State) : Prop :=
  ∀ c, (s.clients c).pc = .asleep → ∃ t, (s.clients c).ticket = some t ∧ s.data.Holds t

/-- From the end of a release on, no client is stranded. -/
def ReleaseStrandsNone (acts : List Action) : Prop :=
  ∀ as hd bs s s', acts = as ++ .releaseHandle hd :: bs → State.run as = some s →
    s.handles hd = .waitCleared → s.step (.releaseHandle hd) = some s' →
      Run.EveryState State.step NoneStranded s' bs

/-- Every request that a client may go to sleep for, or the reply to it, is somewhere. -/
def AwaitedHeld (s : State) : Prop := ∀ c t, s.Awaits c t → s.data.Holds t

/-- The step throws nothing away that a client may go to sleep for. -/
def KeepsAwaited (s : State) (a : Action) : Prop := ∀ c t, s.Awaits c t → ¬ Discards s t a

/-- When the first release starts, nothing that a client may go to sleep for is missing, and
    from there on nothing of the kind is thrown away. -/
def KeepsAwaitedFromRelease (acts : List Action) : Prop :=
  ∀ s, State.run (acts.takeWhile fun a => !a.isRelease) = some s →
    acts.dropWhile (fun a => !a.isRelease) ≠ [] →
      AwaitedHeld s ∧
        Run.Guarded State.step KeepsAwaited s (acts.dropWhile fun a => !a.isRelease)

/-- What holds while nothing awaited is thrown away. -/
private structure AwaitedInv (s : State) : Prop where
  clients : ClientsOk s
  data : DataOk s.data
  held : AwaitedHeld s

/-- One step that throws nothing awaited away. -/
private theorem AwaitedInv.step {s s' : State} {a : Action} (hinv : AwaitedInv s)
    (hok : RoomForRequest s a ∧ KeepsAwaited s a) (hs : s.step a = some s') : AwaitedInv s' := by
  refine ⟨hinv.clients.step hs, hinv.data.step hinv.clients hok.1 hs, fun c t hc => ?_⟩
  -- a client that waited before still has its request somewhere
  have hold : s.Awaits c t → s'.data.Holds t := fun h =>
    holds_step hinv.data (hinv.held c t h) (hok.2 c t h) hs
  obtain ⟨hsleep', ht⟩ := hc
  cases State.step_clients hs c with
  | same heq =>
    rw [heq] at hsleep' ht
    exact hold ⟨hsleep', ht⟩
  | entered r mem mesg lock hb heq =>
    rw [heq] at hsleep'
    simp only at hsleep'
    -- a call that has just been entered is far from its wait
    split at hsleep' <;> exact nomatch hsleep'
  | moved pc signalled hbefore hwaiting hsleep heq =>
    rw [heq] at hsleep' ht
    exact hold ⟨hsleep hsleep', ht⟩
  | posted hpc hret hatt heq =>
    -- the ticket is that of the request posted in this very step
    rw [heq] at ht
    cases ht
    exact .inl (unserved_posted hs hatt rfl)
  | left hbefore hwaiting =>
    cases hpc : (s'.clients c).pc <;> simp [hpc, ClientPc.maySleep, ClientPc.waiting] at hsleep' hwaiting

/-- So nobody waits for what is gone. -/
private theorem AwaitedInv.noneStranded {s : State} (hinv : AwaitedInv s) : NoneStranded s := by
  intro c hpc
  obtain ⟨t, ht, -⟩ := (hinv.clients c).posted (by rw [hpc]; rfl)
  exact ⟨t, ht, hinv.held c t ⟨by rw [hpc]; rfl, ht⟩⟩

/-- What a run consists of before and after its first release. -/
private theorem split_at_release (as bs : List Action) (hd : HandleId) :
    ∃ cs, as = (as ++ .releaseHandle hd :: bs).takeWhile (fun a => !a.isRelease) ++ cs ∧
      (as ++ .releaseHandle hd :: bs).dropWhile (fun a => !a.isRelease) =
        cs ++ .releaseHandle hd :: bs := by
  induction as with
  | nil => exact ⟨[], rfl, rfl⟩
  | cons a as ih =>
    obtain ⟨cs, hcs, hrest⟩ := ih
    cases ha : a.isRelease with
    | true => exact ⟨a :: as, by simp [ha], by simp [ha]⟩
    | false => exact ⟨cs, by simp [ha, ← hcs], by simp [ha, hrest]⟩

/-- No release strands a client in a run in which, from the first release on, nothing that
    a client waits for is missing or thrown away. -/
theorem release_strands_none (acts : List Action)
    (hroom : Run.Guarded State.step RoomForRequest .init acts)
    (hkeep : KeepsAwaitedFromRelease acts) : ReleaseStrandsNone acts := by
  intro as hd bs s s' hacts hrun hpc hs
  subst hacts
  obtain ⟨cs, has, hdrop⟩ := split_at_release as bs hd
  unfold KeepsAwaitedFromRelease at hkeep
  rw [hdrop] at hkeep
  -- the run comes to the first release in the state `s₁`
  generalize (as ++ .releaseHandle hd :: bs).takeWhile (fun a => !a.isRelease) = as₁ at *
  rw [has, State.run, Run.exec_append] at hrun
  obtain ⟨s₁, hrun₁, hrun₂⟩ := Option.bind_eq_some_iff.mp hrun
  rw [has, List.append_assoc] at hroom
  obtain ⟨hheld, hkeeps⟩ := hkeep s₁ hrun₁ (by simp)
  obtain ⟨hclients, hdata⟩ := dataOk_of_run hroom.init hrun₁
  have hstep : ∀ s a s', AwaitedInv s → RoomForRequest s a ∧ KeepsAwaited s a →
      s.step a = some s' → AwaitedInv s' := fun _ _ _ => AwaitedInv.step
  have hstranded : Run.EveryState State.step NoneStranded s₁ (cs ++ .releaseHandle hd :: bs) :=
    Run.EveryState.of_invariant hstep (fun _ => AwaitedInv.noneStranded)
      ⟨hclients, hdata, hheld⟩ ((hroom.rest hrun₁).and hkeeps)
  -- the release that ends in `s'` is one of these or comes later
  exact (hstranded.rest hrun₂).2 s' hs

/-- A release while the only waiting client's request is in the daemon. -/
theorem release_strands_none_daemon :
    ReleaseStrandsNone ([.openHandle 0, .daemonStart []] ++ Schedule.post 0 (.feReadStatus 0) ++
      Schedule.sleep 0 ++ [.daemonStep, .daemonRead .zero] ++
      List.replicate 4 (.releaseHandle 0)) := by
  refine release_strands_none _ (by decide) ?_
  intro s hrun _
  let s₁ : State := (State.run ([.openHandle 0, .daemonStart []] ++
    Schedule.post 0 (.feReadStatus 0) ++ Schedule.sleep 0 ++
    [.daemonStep, .daemonRead .zero])).get (by decide)
  obtain rfl : s₁ = s := Option.some.inj hrun
  constructor
  · intro c t hc
    match c, hc with
    | 0, ⟨_, ht⟩ =>
      cases ht
      exact .inl (.inr ⟨(0, dvbHdhomerunFeReadStatus 0 .zero), by decide, rfl⟩)
    | c + 1, ⟨hsleep, _⟩ => exact nomatch hsleep
  · -- both FIFOs are empty
    have hempty : Run.Guarded State.step (fun s a => a.isRelease = true ∧
        s.controlFifoUser.data = [] ∧ s.controlFifoKernel.data = []) s₁
        (List.replicate 4 (.releaseHandle 0)) := by decide
    refine hempty.imp fun s a s' _ h c t _ hdis => ?_
    obtain ⟨hrelease, huser, hkernel⟩ := h
    rcases hdis with hdrop | hdrop
    · cases hdrop with
      | resetUser hd hpc h => simp [huser] at h
      | _ => exact nomatch hrelease
    · cases hdrop with
      | resetKernel hd hpc h => simp [hkernel] at h
      | _ => exact nomatch hrelease

/-- The daemon disconnects while a client waits: the request is gone and the client sleeps. -/
theorem release_strands_waiter : ¬ ∀ acts, ReleaseStrandsNone acts := by
  intro hall
  let as : List Action := .openHandle 0 :: Schedule.post 0 (.feReadStatus 0) ++ Schedule.sleep 0 ++
    List.replicate 3 (.releaseHandle 0)
  let s : State := (State.run as).get (by decide)
  let s' : State := (s.step (.releaseHandle 0)).get (by decide)
  have hrun : State.run as = some s := (Option.some_get _).symm
  have hs : s.step (.releaseHandle 0) = some s' := (Option.some_get _).symm
  have hstrands := (hall (as ++ [.releaseHandle 0]) as 0 [] s s' rfl hrun (by decide) hs).head
  obtain ⟨t, -, hholds⟩ := hstrands 0 (by decide)
  -- both FIFOs are empty and there is no daemon
  have huser : s'.controlFifoUser.data = [] := by decide
  have hkernel : s'.controlFifoKernel.data = [] := by decide
  have hserving : s'.daemon.serving = [] := by decide
  have hwriting : s'.daemon.writing = none := by decide
  simp [Data.Holds, Data.Unserved, Data.Answered, huser, hkernel, hserving, hwriting] at hholds

end DvbHdhomerun
