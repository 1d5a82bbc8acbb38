import DvbHdhomerun.Spec.ChannelClients

/-!
# Waking up the clients

`hdhomerun_control_write` wakes up `control_readq` only after its put, in a statement of its
own, and a client tests the FIFO before it goes to sleep. The gap between the put and the
wake-up is the only time at which a client can sleep beside a reply: whatever the schedule,
no wake-up is lost unless the daemon ends in that gap.
-/

namespace DvbHdhomerun

/-- A client sleeps beside a reply only while the daemon is about to wake it up. -/
def WakeUpPending (s : State) : Prop :=
  ∀ c, (s.clients c).pc = .asleep → 0 < s.controlFifoKernel.len →
    ∃ w, s.daemon.pc = .writeWake w

/-- The daemon does not end between its put and its wake-up, unless nobody sleeps or there
    is nothing to wake up for. -/
def EndsAwake (s : State) (a : Action) : Prop :=
  a = .daemonExit → (∃ w, s.daemon.pc = .writeWake w) → 0 < s.controlFifoKernel.len →
    ∀ c, (s.clients c).pc ≠ .asleep

namespace State

variable {s s' : State} {a : Action}

private theorem awake_returnCall {s₁ : State} {c : ClientId} {k : Client} {ret : Int}
    (hcl : s₁.clients = s.clients) {c' : ClientId}
    (h : ((s₁.returnCall c k ret).clients c').pc = .asleep) : (s.clients c').pc = .asleep := by
  simp only [returnCall, setClient] at h
  by_cases hc : c' = c
  · subst hc
    rw [Function.update_self] at h
    split at h <;> cases h
  · rwa [Function.update_of_ne hc, hcl] at h

/-- A client that sleeps after a step that changed one client. -/
private theorem asleep_update {c : ClientId} {k : Client}
    (hcl : s'.clients = Function.update s.clients c k) (hk : k.pc ≠ .asleep) {c' : ClientId}
    (h : (s'.clients c').pc = .asleep) : (s.clients c').pc = .asleep := by
  rw [hcl] at h
  by_cases hc : c' = c
  · subst hc
    rw [Function.update_self] at h
    exact absurd h hk
  · rwa [Function.update_of_ne hc] at h

/-- A client goes to sleep beside an empty FIFO, which the step leaves empty. -/
theorem asleep_step (h : s.step a = some s') {c : ClientId}
    (hasleep : (s'.clients c).pc = .asleep) :
    (s.clients c).pc = .asleep ∨ s'.controlFifoKernel.len = 0 := by
  cases step_move h with
  | entered c₀ r mem mesg lock hpc hb =>
    refine .inl (asleep_update rfl (k := ⟨_, r, lock, mesg, none, false⟩) ?_ hasleep)
    cases lock <;> simp
  | lockFeed c₀ | posted c₀ | setWait c₀ | unlockFeed c₀ =>
    exact .inl (asleep_update rfl (by simp) hasleep)
  | clientGoes c₀ pc hgo =>
    -- the test before the sleep has found the FIFO empty
    cases hgo with
    | sleep _ hlen => exact .inr hlen
    | ready | found | interrupted | again | get =>
      exact .inl (asleep_update rfl (by simp) hasleep)
  | notReady | noRoom | clearWait | get => exact .inl (awake_returnCall rfl hasleep)
  | signalled c₀ hidle =>
    refine .inl (asleep_update rfl ?_ hasleep)
    by_cases hpc : (s.clients c₀).pc = .asleep
    · simp [hpc]
    · simp [hpc]
  | finishWrite w hpc =>
    simp only [State.finishWrite, setDaemonPc, wakeReaders] at hasleep
    split at hasleep
    · cases hasleep
    · exact .inl hasleep
  | _ => exact .inl hasleep

/-- The FIFO of the replies only grows right before a wake-up. -/
theorem kernel_step (h : s.step a = some s') (hlen : 0 < s'.controlFifoKernel.len) :
    0 < s.controlFifoKernel.len ∨ ∃ w, s'.daemon.pc = .writeWake w := by
  cases step_move h with
  | putReply w hpc => exact .inr ⟨_, rfl⟩
  | get c hpc =>
    -- a get takes bytes away
    have hget : s.afterGet.controlFifoKernel.len ≤ s.controlFifoKernel.len := by
      simp only [afterGet, Fifo.len, Fifo.get_data, List.length_drop]
      omega
    refine .inl (Nat.lt_of_lt_of_le ?_ hget)
    simpa [returnCall, setClient] using hlen
  | resetKernel hd hpc => exact absurd hlen (Nat.lt_irrefl 0)
  | _ => exact .inl hlen

/-- The daemon leaves the statement of the wake-up by waking everybody up, or by ending. -/
theorem writeWake_step (h : s.step a = some s') {w : Writing} (hpc : s.daemon.pc = .writeWake w) :
    (∃ w', s'.daemon.pc = .writeWake w') ∨ a = .daemonExit ∨
      ∀ c, (s'.clients c).pc ≠ .asleep := by
  cases step_move h with
  | finishWrite w' =>
    refine .inr (.inr fun c hasleep => ?_)
    simp only [State.finishWrite, setDaemonPc, wakeReaders] at hasleep
    split at hasleep
    · cases hasleep
    · contradiction
  | daemonExit => exact .inr (.inl rfl)
  | daemonGoes pc hgo =>
    cases hgo with
    | readable hpc' | served hpc' | write w' hpc' | full w' hpc' | room w' hpc' | retest w' hpc'
    | sleep w' hpc' => exact absurd (hpc.symm.trans hpc') (by simp)
  | daemonStart _ hpc' | readNothing _ hpc' | readRequest _ _ _ _ hpc'
  | handleMessage _ _ _ _ hpc' | ignoreReply _ hpc' | putReply _ hpc' | pop hpc' =>
    exact absurd (hpc.symm.trans hpc') (by simp)
  | _ => exact .inl ⟨w, hpc⟩

end State

/-- A step after which the daemon has not ended in the gap leaves nobody asleep for good. -/
theorem WakeUpPending.step {s s' : State} {a : Action} (h : WakeUpPending s) (hok : EndsAwake s a)
    (hs : s.step a = some s') : WakeUpPending s' := by
  intro c hasleep hlen
  have hold : (s.clients c).pc = .asleep := by
    rcases State.asleep_step hs hasleep with hold | hempty
    · exact hold
    · omega
  rcases State.kernel_step hs hlen with hlen' | hwake
  · obtain ⟨w, hpc⟩ := h c hold hlen'
    rcases State.writeWake_step hs hpc with hwake | rfl | hawake
    · exact hwake
    · exact absurd hold (hok rfl ⟨w, hpc⟩ hlen' c)
    · exact absurd hasleep (hawake c)
  · exact hwake

/-- A client sleeps beside a reply with no wake-up to come exactly in the runs in which the
    daemon has ended between a put and the wake-up. -/
theorem no_lost_wake_up (acts : List Action) :
    Run.EveryState State.step WakeUpPending .init acts ↔
      Run.Guarded State.step EndsAwake .init acts := by
  refine Run.everyState_iff_guarded (fun s a s' h hok hs => h.step hok hs) (fun _ h => h) ?_ ?_
  · rintro s a s' - hs hpending rfl ⟨w, hpc⟩ hlen c hasleep
    -- the daemon is gone, and nobody else wakes up the client
    have hs' : s' = s.exitDaemon := by
      simp only [State.step, hpc] at hs
      exact (Option.some.inj hs).symm
    subst hs'
    obtain ⟨w', hpc'⟩ := hpending c hasleep hlen
    cases hpc'
  · intro c hasleep
    cases hasleep

end DvbHdhomerun
