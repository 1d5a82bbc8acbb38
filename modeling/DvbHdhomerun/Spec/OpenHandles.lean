import DvbHdhomerun.Spec.ChannelSteps

/-!
# Open handles and `userspace_ready`

`userspace_ready` is a flag where the number of open handles would be needed: every
`hdhomerun_control_release` clears it, and resets the FIFOs, whether or not other handles
stay open. It agrees with the handles exactly as long as every release is one of the last
open handle and no handle is opened in the middle of it.
-/

namespace DvbHdhomerun

/-- No handle is inside `hdhomerun_control_release`. -/
def State.NoRelease (s : State) : Prop := ∀ hd, s.handles hd = .closed ∨ s.handles hd = .opened

/-- Between releases, `userspace_ready` is set exactly when some handle is open. -/
def ReadyIffOpen (s : State) : Prop :=
  s.NoRelease → (s.userspaceReady = true ↔ ∃ hd, s.handles hd = .opened)

/-- A release leaves the flags and the FIFOs alone while another handle is open. -/
def ReleaseKeepsChannel (s : State) (a : Action) (s' : State) : Prop :=
  ∀ hd hd', a = .releaseHandle hd → hd' ≠ hd → s.handles hd' = .opened →
    s'.userspaceReady = s.userspaceReady ∧ s'.waitForWrite = s.waitForWrite ∧
      s'.controlFifoUser = s.controlFifoUser ∧ s'.controlFifoKernel = s.controlFifoKernel

/-- A release starts when no other handle is in use; no open falls into a release. -/
def LastHandleReleased (s : State) : Action → Prop
  | .openHandle _ => s.NoRelease
  | .releaseHandle hd => s.handles hd = .opened → ∀ hd', hd' ≠ hd → s.handles hd' = .closed
  | _ => True

/-- A handle inside a release is the only one in use. -/
private structure Exclusive (s : State) : Prop where
  alone : ∀ hd, s.handles hd ≠ .closed → s.handles hd ≠ .opened →
    ∀ hd', hd' ≠ hd → s.handles hd' = .closed
  ready : ReadyIffOpen s

/-- No handle is open. -/
private theorem Exclusive.init : Exclusive State.init where
  alone := fun _ h => absurd rfl h
  ready := fun _ => ⟨fun h => (nomatch h), fun ⟨_, h⟩ => (nomatch h)⟩

/-- One step that releases no handle beside another. -/
private theorem Exclusive.step {s s' : State} {a : Action} (hinv : Exclusive s)
    (hok : LastHandleReleased s a) (h : s.step a = some s') : Exclusive s' := by
  cases State.step_handles h with
  | opened hd hclosed hh hready =>
    refine ⟨fun hd₁ h₁ h₂ => ?_, fun _ => ⟨fun _ => ⟨hd, by rw [hh, Function.update_self]⟩,
      fun _ => hready⟩⟩
    -- nothing was inside a release, and the new handle is not either
    rw [hh] at h₁ h₂
    by_cases he : hd₁ = hd
    · subst he
      exact absurd (Function.update_self ..) h₂
    · rw [Function.update_of_ne he] at h₁ h₂
      exact absurd (hok hd₁) (not_or.mpr ⟨h₁, h₂⟩)
  | releasing hd pc hold hnew hnew' hh hready =>
    have hothers : ∀ hd', hd' ≠ hd → s.handles hd' = .closed := by
      by_cases ho : s.handles hd = .opened
      · exact hok ho
      · exact hinv.alone hd hold ho
    refine ⟨fun hd₁ h₁ _ hd₂ hne => ?_, fun hno => ?_⟩
    · rw [hh] at h₁ ⊢
      have he : hd₁ = hd := by
        by_contra he
        rw [Function.update_of_ne he, hothers hd₁ he] at h₁
        exact h₁ rfl
      subst he
      rw [Function.update_of_ne hne, hothers hd₂ hne]
    · -- a release is under way
      have hpc := hno hd
      rw [hh, Function.update_self] at hpc
      rcases hpc with hpc | hpc
      · exact absurd hpc hnew
      · exact absurd hpc hnew'
  | released hd hold hh hready =>
    have hothers := hinv.alone hd (by simp [hold]) (by simp [hold])
    have hclosed : ∀ hd₁, s'.handles hd₁ = .closed := by
      intro hd₁
      rw [hh]
      by_cases he : hd₁ = hd
      · rw [he, Function.update_self]
      · rw [Function.update_of_ne he, hothers hd₁ he]
    refine ⟨fun hd₁ h₁ => absurd (hclosed hd₁) h₁, fun _ => ?_⟩
    rw [hready]
    refine ⟨fun hf => (nomatch hf), fun ⟨hd₁, h₁⟩ => ?_⟩
    rw [hclosed hd₁] at h₁
    exact nomatch h₁
  | same a ha hh hready =>
    refine ⟨fun hd => ?_, fun hno => ?_⟩
    · rw [hh]
      exact hinv.alone hd
    · rw [hready, hh]
      exact hinv.ready fun hd => hh ▸ hno hd

/-- The handle that is released is the only one. -/
private theorem Exclusive.releaseKeeps {s s' : State} {a : Action} (hinv : Exclusive s)
    (hok : LastHandleReleased s a) (hs : s.step a = some s') : ReleaseKeepsChannel s a s' := by
  intro hd hd' ha hne hopen
  subst ha
  -- the release in hand is the only use of the device
  have hothers : s.handles hd' = .closed := by
    cases State.step_handles hs with
    | releasing _ pc hold hnew hnew' hh hready =>
      by_cases ho : s.handles hd = .opened
      · exact hok ho hd' hne
      · exact hinv.alone hd hold ho hd' hne
    | released _ hold hh hready => exact hinv.alone hd (by simp [hold]) (by simp [hold]) hd' hne
    | same _ ha hh hready => exact absurd rfl (ha hd).2
  rw [hothers] at hopen
  exact nomatch hopen

/-- As long as only the last open handle is released, `userspace_ready` follows the open
    handles, and no release disturbs a channel that is still in use. -/
theorem userspaceReady_follows_handles (acts : List Action)
    (hok : Run.Guarded State.step LastHandleReleased .init acts) :
    Run.EveryState State.step ReadyIffOpen .init acts ∧
      Run.EveryStep State.step ReleaseKeepsChannel .init acts := by
  have hstep : ∀ s a s', Exclusive s → LastHandleReleased s a → s.step a = some s' →
      Exclusive s' := fun _ _ _ => Exclusive.step
  constructor
  · exact Run.EveryState.of_invariant hstep (fun _ h => h.ready) Exclusive.init hok
  · exact Run.EveryStep.of_invariant hstep (fun _ _ _ => Exclusive.releaseKeeps) Exclusive.init hok

/-- A handle is opened and released to its end, and another one is opened after it. -/
theorem userspaceReady_follows_handles_reopened :
    let acts : List Action := [.openHandle 0, .releaseHandle 0, .releaseHandle 0, .releaseHandle 0,
      .releaseHandle 0, .openHandle 1]
    ∃ s, State.run acts = some s ∧ s.handles 0 = .closed ∧ s.handles 1 = .opened ∧
      s.userspaceReady = true ∧ Run.EveryState State.step ReadyIffOpen .init acts ∧
      Run.EveryStep State.step ReleaseKeepsChannel .init acts := by
  intro acts
  have hok : Run.Guarded State.step LastHandleReleased .init acts := by
    intro s₁ h₁
    cases h₁
    refine ⟨fun _ => .inl rfl, ?_⟩
    -- the release starts while no other handle is open
    intro s₂ h₂
    cases h₂
    refine ⟨fun _ hd hne => Function.update_of_ne hne .., ?_⟩
    -- and goes on to its end
    intro s₃ h₃
    cases h₃
    refine ⟨fun hopen => absurd hopen (by decide), ?_⟩
    intro s₄ h₄
    cases h₄
    refine ⟨fun hopen => absurd hopen (by decide), ?_⟩
    intro s₅ h₅
    cases h₅
    refine ⟨fun hopen => absurd hopen (by decide), ?_⟩
    -- the other handle is opened behind it
    intro s₆ h₆
    cases h₆
    refine ⟨fun hd => .inl ?_, trivial⟩
    match hd with
    | 0 => rfl
    | hd + 1 => rfl
  let s := (State.run acts).get (by decide)
  exact ⟨s, (Option.some_get _).symm, by decide, by decide, by decide,
    userspaceReady_follows_handles acts hok⟩

/-- Two handles are opened and one of them is released: the other one stays open, but
    `userspace_ready` is cleared. -/
theorem userspaceReady_lost :
    ¬ ∀ acts, Run.EveryState State.step ReadyIffOpen .init acts ∧
      Run.EveryStep State.step ReleaseKeepsChannel .init acts := by
  intro hall
  let acts : List Action := [.openHandle 0, .openHandle 1, .releaseHandle 0, .releaseHandle 0,
    .releaseHandle 0, .releaseHandle 0]
  have hrun : State.run acts = some ((State.run acts).get (by decide)) :=
    (Option.some_get _).symm
  have hready := (hall acts).1.last hrun
  have hno : ((State.run acts).get (by decide)).NoRelease := by
    intro hd
    match hd with
    | 0 => exact .inl rfl
    | 1 => exact .inr rfl
    | hd + 2 => exact .inl rfl
  exact absurd ((hready hno).mpr ⟨1, rfl⟩) (by decide)

end DvbHdhomerun
