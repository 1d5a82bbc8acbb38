import Mathlib.Data.List.Forall2
import Mathlib.Logic.Relation

/-!
# Runs of a partial step function

A system is given by `step : σ → α → Option σ`: in state `s` the action `a` either
leads to a state or is not enabled. A run is the list of its actions, so that a
schedule is data: it can be evaluated, split and quantified over.

* `exec`: the state a run ends in
* `EveryState`, `EveryStep`: a property of all states visited, of all steps taken
* `Guarded`: every step taken meets a condition on the state before it
* `output`: what the steps of a run put out
* `latch`: the value of a flag that some steps switch on and others off
-/

namespace Run

variable {σ : Type u} {α : Type v} {step : σ → α → Option σ}

/-- Take the actions in order; `none` as soon as one of them is not enabled. -/
def exec (step : σ → α → Option σ) (s : σ) : List α → Option σ
  | [] => some s
  | a :: as => (step s a).bind fun s' => exec step s' as

/-- The empty run stays where it is. -/
@[simp] theorem exec_nil (s : σ) : exec step s [] = some s := rfl

/-- A run is its first step and the rest. -/
theorem exec_cons (s : σ) (a : α) (as : List α) :
    exec step s (a :: as) = (step s a).bind fun s' => exec step s' as := rfl

/-- Two runs in a row. -/
theorem exec_append (s : σ) (as bs : List α) :
    exec step s (as ++ bs) = (exec step s as).bind fun s' => exec step s' bs := by
  induction as generalizing s with
  | nil => rfl
  | cons a as ih =>
    simp only [List.cons_append, exec_cons]
    cases step s a with
    | none => rfl
    | some s' => exact ih s'

/-- A run from a step that is known. -/
theorem exec_cons_of_some {s s' : σ} {a : α} (h : step s a = some s') (as : List α) :
    exec step s (a :: as) = exec step s' as := by
  rw [exec_cons, h, Option.bind_some]

/-- A run from a beginning that is known. -/
theorem exec_append_of_some {s s' : σ} {as : List α} (h : exec step s as = some s')
    (bs : List α) : exec step s (as ++ bs) = exec step s' bs := by
  rw [exec_append, h, Option.bind_some]

/-- Every state the run visits, the first and the last included, satisfies `Q`. -/
def EveryState (step : σ → α → Option σ) (Q : σ → Prop) (s : σ) : List α → Prop
  | [] => Q s
  | a :: as => Q s ∧ ∀ s', step s a = some s' → EveryState step Q s' as

/-- Every step the run takes satisfies `P` (state before, action, state after). -/
def EveryStep (step : σ → α → Option σ) (P : σ → α → σ → Prop) (s : σ) : List α → Prop
  | [] => True
  | a :: as => ∀ s', step s a = some s' → P s a s' ∧ EveryStep step P s' as

/-- Every step the run takes starts in a state that meets `ok`. -/
abbrev Guarded (step : σ → α → Option σ) (ok : σ → α → Prop) (s : σ) (as : List α) : Prop :=
  EveryStep step (fun s a _ => ok s a) s as

instance EveryState.decidable (Q : σ → Prop) [DecidablePred Q] :
    ∀ (s : σ) (as : List α), Decidable (EveryState step Q s as)
  | s, [] => inferInstanceAs (Decidable (Q s))
  | s, a :: as =>
    match h : step s a with
    | none => decidable_of_iff (Q s) (by simp [EveryState, h])
    | some s' =>
      have := EveryState.decidable Q s' as
      decidable_of_iff (Q s ∧ EveryState step Q s' as) (by simp [EveryState, h])

instance EveryStep.decidable (P : σ → α → σ → Prop) [∀ s a s', Decidable (P s a s')] :
    ∀ (s : σ) (as : List α), Decidable (EveryStep step P s as)
  | _, [] => inferInstanceAs (Decidable True)
  | s, a :: as =>
    match h : step s a with
    | none => decidable_of_iff True (by simp [EveryStep, h])
    | some s' =>
      have := EveryStep.decidable P s' as
      decidable_of_iff (P s a s' ∧ EveryStep step P s' as) (by simp [EveryStep, h])

/-- The state a run starts in is one of its states. -/
theorem EveryState.head {Q : σ → Prop} {s : σ} {as : List α}
    (h : EveryState step Q s as) : Q s := by
  cases as with
  | nil => exact h
  | cons a as => exact h.1

/-- A property of every state visited holds of the state the run ends in. -/
theorem EveryState.last {Q : σ → Prop} {s s' : σ} {as : List α}
    (h : EveryState step Q s as) (hrun : exec step s as = some s') : Q s' := by
  induction as generalizing s with
  | nil => exact Option.some.inj hrun ▸ h
  | cons a as ih =>
    obtain ⟨s₁, hs, hrest⟩ := Option.bind_eq_some_iff.mp hrun
    exact ih (h.2 s₁ hs) hrest

/-- `EveryStep` in terms of the prefixes of the run: every step that extends one. -/
theorem everyStep_iff {P : σ → α → σ → Prop} {s : σ} {acts : List α} :
    EveryStep step P s acts ↔
      ∀ as a bs s₁ s₂, acts = as ++ a :: bs → exec step s as = some s₁ → step s₁ a = some s₂ →
        P s₁ a s₂ := by
  induction acts generalizing s with
  | nil =>
    constructor
    · intro _ as a bs s₁ s₂ hacts
      exact absurd hacts (by simp)
    · exact fun _ => trivial
  | cons b acts ih =>
    constructor
    · intro h as a bs s₁ s₂ hacts hrun hs
      cases as with
      | nil =>
        cases hacts
        cases hrun
        exact (h s₂ hs).1
      | cons c as =>
        cases hacts
        obtain ⟨s', hs', hrest⟩ := Option.bind_eq_some_iff.mp hrun
        exact ih.mp (h s' hs').2 as a bs s₁ s₂ rfl hrest hs
    · intro h s' hs'
      -- the first step extends the empty prefix
      refine ⟨h [] b acts s s' rfl rfl hs', ih.mpr fun as a bs s₁ s₂ hacts hrun hs => ?_⟩
      refine h (b :: as) a bs s₁ s₂ (by rw [hacts, List.cons_append]) ?_ hs
      rw [exec_cons_of_some hs', hrun]

/-- The rest of a run, from any of its states on. -/
theorem EveryState.rest {Q : σ → Prop} {s s₁ : σ} {as bs : List α}
    (h : EveryState step Q s (as ++ bs)) (hrun : exec step s as = some s₁) :
    EveryState step Q s₁ bs := by
  induction as generalizing s with
  | nil =>
    cases hrun
    exact h
  | cons a as ih =>
    obtain ⟨s', hs', hrest⟩ := Option.bind_eq_some_iff.mp hrun
    exact ih (h.2 s' hs') hrest

/-- What holds of every step holds of those after a beginning. -/
theorem EveryStep.rest {P : σ → α → σ → Prop} {s s₁ : σ} {as bs : List α}
    (h : EveryStep step P s (as ++ bs)) (hrun : exec step s as = some s₁) :
    EveryStep step P s₁ bs := by
  induction as generalizing s with
  | nil =>
    cases hrun
    exact h
  | cons a as ih =>
    obtain ⟨s', hs', hrest⟩ := Option.bind_eq_some_iff.mp hrun
    exact ih (h s' hs').2 hrest

/-- What holds of every step of a run holds of every step of its beginning. -/
theorem EveryStep.init {P : σ → α → σ → Prop} {s : σ} {as bs : List α}
    (h : EveryStep step P s (as ++ bs)) : EveryStep step P s as := by
  induction as generalizing s with
  | nil => trivial
  | cons a as ih => exact fun s' hs => ⟨(h s' hs).1, ih (h s' hs).2⟩

/-- Steps that satisfy more satisfy less. -/
theorem EveryStep.imp {P P' : σ → α → σ → Prop} {s : σ} {as : List α}
    (himp : ∀ s a s', step s a = some s' → P s a s' → P' s a s') (h : EveryStep step P s as) :
    EveryStep step P' s as := by
  induction as generalizing s with
  | nil => trivial
  | cons a as ih => exact fun s' hs => ⟨himp _ _ _ hs (h s' hs).1, ih (h s' hs).2⟩

/-- Two properties of every step are one of both. -/
theorem EveryStep.and {P P' : σ → α → σ → Prop} {s : σ} {as : List α}
    (h : EveryStep step P s as) (h' : EveryStep step P' s as) :
    EveryStep step (fun s a s' => P s a s' ∧ P' s a s') s as := by
  induction as generalizing s with
  | nil => trivial
  | cons a as ih =>
    exact fun s' hs => ⟨⟨(h s' hs).1, (h' s' hs).1⟩, ih (h s' hs).2 (h' s' hs).2⟩

/-- A property of the actions alone holds of every step. -/
theorem EveryStep.of_forall {p : α → Prop} {s : σ} {as : List α} (h : ∀ a ∈ as, p a) :
    EveryStep step (fun _ a _ => p a) s as := by
  induction as generalizing s with
  | nil => trivial
  | cons a as ih =>
    intro s' _
    exact ⟨h a List.mem_cons_self, ih fun b hb => h b (List.mem_cons_of_mem a hb)⟩

/-- Every step satisfies the empty requirement. -/
theorem everyStep_true (s : σ) (as : List α) : EveryStep step (fun _ _ _ => True) s as :=
  EveryStep.of_forall (p := fun _ => True) fun _ _ => trivial

/-! ## Invariants

`Inv` is kept by every step that satisfies `P`. What `Inv` implies of a state then holds of
every state of a run whose steps all satisfy `P`, and what it implies of a step of every
step. With a condition on the state before the step for `P`, these are the guarded runs. -/

section Invariant

variable {Inv : σ → Prop} {P : σ → α → σ → Prop} {ok : σ → α → Prop}

/-- What follows from an invariant holds in every state of a run that keeps it. -/
theorem EveryState.of_invariant {Q : σ → Prop}
    (hstep : ∀ s a s', Inv s → P s a s' → step s a = some s' → Inv s')
    (hQ : ∀ s, Inv s → Q s) {s : σ} {as : List α} (h₀ : Inv s)
    (hP : EveryStep step P s as) : EveryState step Q s as := by
  induction as generalizing s with
  | nil => exact hQ s h₀
  | cons a as ih =>
    exact ⟨hQ s h₀, fun s' hs => ih (hstep s a s' h₀ (hP s' hs).1 hs) (hP s' hs).2⟩

/-- What every step with property `P` keeps holds at the end of a run of such steps. -/
theorem EveryStep.keeps (hstep : ∀ s a s', Inv s → P s a s' → step s a = some s' → Inv s')
    {s s' : σ} {as : List α} (h₀ : Inv s) (hP : EveryStep step P s as)
    (hrun : exec step s as = some s') : Inv s' :=
  (EveryState.of_invariant hstep (fun _ h => h) h₀ hP).last hrun

/-- What every step keeps holds at the end of a run. -/
theorem exec_keeps (hstep : ∀ s a s', Inv s → step s a = some s' → Inv s') {s s' : σ}
    {as : List α} (h₀ : Inv s) (hrun : exec step s as = some s') : Inv s' :=
  EveryStep.keeps (fun s a s' h _ => hstep s a s' h) h₀ (everyStep_true s as) hrun

/-- What follows from an invariant and the step holds of every step. -/
theorem EveryStep.of_invariant {P' : σ → α → σ → Prop}
    (hstep : ∀ s a s', Inv s → P s a s' → step s a = some s' → Inv s')
    (hP' : ∀ s a s', Inv s → P s a s' → step s a = some s' → P' s a s') {s : σ} {as : List α}
    (h₀ : Inv s) (hP : EveryStep step P s as) : EveryStep step P' s as := by
  induction as generalizing s with
  | nil => trivial
  | cons a as ih =>
    intro s' hs
    have hPs := hP s' hs
    exact ⟨hP' s a s' h₀ hPs.1 hs, ih (hstep s a s' h₀ hPs.1 hs) hPs.2⟩

/-- The converse direction: when, under the invariant, a step with property `P` must
    have met `ok`, a run all of whose steps have `P` is guarded. -/
theorem Guarded.of_everyStep
    (hstep : ∀ s a s', Inv s → ok s a → step s a = some s' → Inv s')
    (hP : ∀ s a s', Inv s → step s a = some s' → P s a s' → ok s a) {s : σ} {as : List α}
    (h₀ : Inv s) (h : EveryStep step P s as) : Guarded step ok s as := by
  induction as generalizing s with
  | nil => trivial
  | cons a as ih =>
    intro s' hs
    have hok := hP s a s' h₀ hs (h s' hs).1
    exact ⟨hok, ih (hstep s a s' h₀ hok hs) (h s' hs).2⟩

/-- When, under the invariant, `ok` is exactly what gives a step the property `P`, the runs
    all of whose steps have `P` are exactly the guarded ones. -/
theorem everyStep_iff_guarded
    (hstep : ∀ s a s', Inv s → ok s a → step s a = some s' → Inv s')
    (hiff : ∀ s a s', Inv s → step s a = some s' → (P s a s' ↔ ok s a)) {s : σ} {as : List α}
    (h₀ : Inv s) : EveryStep step P s as ↔ Guarded step ok s as := by
  constructor
  · exact Guarded.of_everyStep hstep (fun s a s' hinv hs => (hiff s a s' hinv hs).mp) h₀
  · exact EveryStep.of_invariant hstep (fun s a s' hinv hok hs => (hiff s a s' hinv hs).mpr hok) h₀

/-- When, under the invariant, `ok` is exactly what makes the next state satisfy `Q`,
    the runs that stay inside `Q` are exactly the guarded ones. -/
theorem everyState_iff_guarded {Q : σ → Prop}
    (hstep : ∀ s a s', Inv s → ok s a → step s a = some s' → Inv s')
    (hQ : ∀ s, Inv s → Q s)
    (hok : ∀ s a s', Inv s → step s a = some s' → Q s' → ok s a) {s : σ} {as : List α}
    (h₀ : Inv s) : EveryState step Q s as ↔ Guarded step ok s as := by
  refine ⟨fun h => ?_, EveryState.of_invariant hstep hQ h₀⟩
  induction as generalizing s with
  | nil => trivial
  | cons a as ih =>
    intro s' hs
    have hoka := hok s a s' h₀ hs (h.2 s' hs).head
    exact ⟨hoka, ih (hstep s a s' h₀ hoka hs) (h.2 s' hs)⟩

/-- When two properties of a step agree under an invariant that every step keeps, they agree
    along every run. -/
theorem everyStep_congr {P' : σ → α → σ → Prop}
    (hstep : ∀ s a s', Inv s → step s a = some s' → Inv s')
    (hiff : ∀ s a s', Inv s → step s a = some s' → (P s a s' ↔ P' s a s')) {s : σ} {as : List α}
    (h₀ : Inv s) : EveryStep step P s as ↔ EveryStep step P' s as := by
  constructor
  · exact EveryStep.of_invariant (fun s a s' hinv _ hs => hstep s a s' hinv hs)
      (fun s a s' hinv hP hs => (hiff s a s' hinv hs).mp hP) h₀
  · exact EveryStep.of_invariant (fun s a s' hinv _ hs => hstep s a s' hinv hs)
      (fun s a s' hinv hP hs => (hiff s a s' hinv hs).mpr hP) h₀

end Invariant

/-- When the invariant makes every action that meets `p` possible and is kept by it, every
    such schedule runs to its end. -/
theorem exec_of_invariant {Inv : σ → Prop} {p : α → Prop}
    (hstep : ∀ s a, Inv s → p a → ∃ s', step s a = some s' ∧ Inv s') {s : σ} {as : List α}
    (h₀ : Inv s) (hp : ∀ a ∈ as, p a) : ∃ s', exec step s as = some s' ∧ Inv s' := by
  induction as generalizing s with
  | nil => exact ⟨s, rfl, h₀⟩
  | cons a as ih =>
    obtain ⟨s₁, hs, hinv⟩ := hstep s a h₀ (hp a List.mem_cons_self)
    obtain ⟨s', hrun, hinv'⟩ := ih hinv fun b hb => hp b (List.mem_cons_of_mem a hb)
    exact ⟨s', by rw [exec_cons_of_some hs, hrun], hinv'⟩

/-- A rank that no step with property `P` raises, and each of those that `p` counts brings
    down, bounds their number by how far it has come down. -/
theorem EveryStep.countP_add_rank_le {Inv : σ → Prop} {P : σ → α → σ → Prop} {rank : σ → Nat}
    {p : α → Bool}
    (hstep : ∀ s a s', Inv s → P s a s' → step s a = some s' →
      Inv s' ∧ rank s' + (if p a then 1 else 0) ≤ rank s)
    {s s' : σ} {as : List α} (h₀ : Inv s) (hP : EveryStep step P s as)
    (hrun : exec step s as = some s') : as.countP p + rank s' ≤ rank s := by
  induction as generalizing s with
  | nil =>
    cases hrun
    simp
  | cons a as ih =>
    obtain ⟨s₁, hs, hrest⟩ := Option.bind_eq_some_iff.mp hrun
    obtain ⟨hinv, hle⟩ := hstep s a s₁ h₀ (hP s₁ hs).1 hs
    have hle' := ih hinv (hP s₁ hs).2 hrest
    rw [List.countP_cons]
    omega

/-- A rank that every step with property `P` brings down bounds the length of a run of such
    steps by how far it has come down. -/
theorem EveryStep.length_add_rank_le {Inv : σ → Prop} {P : σ → α → σ → Prop} {rank : σ → Nat}
    (hstep : ∀ s a s', Inv s → P s a s' → step s a = some s' → Inv s' ∧ rank s' < rank s)
    {s s' : σ} {as : List α} (h₀ : Inv s) (hP : EveryStep step P s as)
    (hrun : exec step s as = some s') : as.length + rank s' ≤ rank s := by
  rw [← List.countP_true]
  exact hP.countP_add_rank_le hstep h₀ hrun

/-- What a log holds at the end of a run, and did not at its beginning, was added by some
    step of the run. -/
theorem exists_step_of_mem {log : σ → List β} {P : σ → α → β → Prop}
    (hlog : ∀ s a s', step s a = some s' → ∀ x ∈ log s', x ∈ log s ∨ P s a x) {s s' : σ}
    {acts : List α} (hrun : exec step s acts = some s') {x : β} (hx : x ∈ log s') :
    x ∈ log s ∨ ∃ as a bs s₁ s₂, acts = as ++ a :: bs ∧ exec step s as = some s₁ ∧
      step s₁ a = some s₂ ∧ exec step s₂ bs = some s' ∧ P s₁ a x := by
  induction acts generalizing s with
  | nil =>
    cases hrun
    exact .inl hx
  | cons b acts ih =>
    obtain ⟨s₁, hs, hrest⟩ := Option.bind_eq_some_iff.mp hrun
    cases ih hrest with
    | inl hmem =>
      cases hlog s b s₁ hs x hmem with
      | inl hold => exact .inl hold
      | inr hP => exact .inr ⟨[], b, acts, s, s₁, rfl, rfl, hs, hrest, hP⟩
    | inr hlater =>
      obtain ⟨as, a, bs, s₂, s₃, rfl, hrun₂, hs₂, hrest₂, hP⟩ := hlater
      refine .inr ⟨b :: as, a, bs, s₂, s₃, rfl, ?_, hs₂, hrest₂, hP⟩
      rw [exec_cons_of_some hs, hrun₂]

/-! ## Forward simulation -/

/-- If every guarded step of the system is matched, along `R`, by some steps of an
    abstract relation, then so is every guarded run. -/
theorem simulates {τ : Type w} {astep : τ → τ → Prop} {R : σ → τ → Prop} {ok : σ → α → Prop}
    (hsim : ∀ s a s' r, R s r → ok s a → step s a = some s' →
      ∃ r', Relation.ReflTransGen astep r r' ∧ R s' r')
    {s s' : σ} {r : τ} {as : List α} (h₀ : R s r) (hok : Guarded step ok s as)
    (hrun : exec step s as = some s') :
    ∃ r', Relation.ReflTransGen astep r r' ∧ R s' r' := by
  induction as generalizing s r with
  | nil => exact ⟨r, .refl, Option.some.inj hrun ▸ h₀⟩
  | cons a as ih =>
    obtain ⟨s₁, hs, hrest⟩ := Option.bind_eq_some_iff.mp hrun
    obtain ⟨r₁, hr₁, hR₁⟩ := hsim s a s₁ r h₀ (hok s₁ hs).1 hs
    obtain ⟨r', hr', hR'⟩ := ih hR₁ (hok s₁ hs).2 hrest
    exact ⟨r', hr₁.trans hr', hR'⟩

/-! ## Two runs side by side

Two runs go in lockstep when related actions take related states to related states, as long
as the steps of the first one meet `ok`. -/

/-- What the steps of a run put out, in order. -/
def output (step : σ → α → Option σ) (out : σ → α → List ω) (s : σ) : List α → List ω
  | [] => []
  | a :: as =>
    match step s a with
    | none => []
    | some s' => out s a ++ output step out s' as

/-- The output of two runs in a row. -/
theorem output_append {out : σ → α → List ω} {s s' : σ} {as : List α} (bs : List α)
    (hrun : exec step s as = some s') :
    output step out s (as ++ bs) = output step out s as ++ output step out s' bs := by
  induction as generalizing s with
  | nil =>
    cases hrun
    rfl
  | cons a as ih =>
    obtain ⟨s₁, hs, hrest⟩ := Option.bind_eq_some_iff.mp hrun
    simp only [List.cons_append, output, hs]
    rw [ih hrest, List.append_assoc]

/-- A run that is not guarded is so up to some step of it. -/
theorem exists_first_unguarded {ok : σ → α → Prop} {s : σ} {acts : List α}
    (h : ¬ Guarded step ok s acts) :
    ∃ as a bs s₁ s₂, acts = as ++ a :: bs ∧ exec step s as = some s₁ ∧ step s₁ a = some s₂ ∧
      Guarded step ok s as ∧ ¬ ok s₁ a := by
  induction acts generalizing s with
  | nil => exact absurd trivial h
  | cons a acts ih =>
    cases hs : step s a with
    | none => exact absurd (fun s' hs' => nomatch hs.symm.trans hs') h
    | some s' =>
      by_cases hok : ok s a
      · have hrest : ¬ Guarded step ok s' acts := by
          intro hrest
          apply h
          intro s'' hs'
          cases hs.symm.trans hs'
          exact ⟨hok, hrest⟩
        obtain ⟨as, b, bs, s₁, s₂, rfl, hrun, hs₂, hguard, hb⟩ := ih hrest
        refine ⟨a :: as, b, bs, s₁, s₂, rfl, by rw [exec_cons_of_some hs, hrun], hs₂,
          fun s'' hs' => ?_, hb⟩
        cases hs.symm.trans hs'
        exact ⟨hok, hguard⟩
      · exact ⟨[], a, acts, s, s', rfl, rfl, hs, trivial, hok⟩

section Lockstep

variable {E : σ → σ → Prop} {R : α → α → Prop} {ok : σ → α → Prop}

/-- Two systems whose steps match go through related states, while the first stays `ok`. -/
theorem exec_lockstep
    (hstep : ∀ s t a b, E s t → R a b → (∀ s', step s a = some s' → ok s a) →
      Option.Rel E (step s a) (step t b))
    {s t : σ} {as bs : List α} (h₀ : E s t) (hR : List.Forall₂ R as bs)
    (hok : Guarded step ok s as) : Option.Rel E (exec step s as) (exec step t bs) := by
  induction hR generalizing s t with
  | nil => exact .some h₀
  | @cons a b as bs hab _ ih =>
    have hrel := hstep s t a b h₀ hab fun s' hs => (hok s' hs).1
    rw [exec_cons, exec_cons]
    generalize hs : step s a = o at hrel
    generalize step t b = o' at hrel
    cases hrel with
    | none => exact .none
    | some hE => exact ih hE (hok _ hs).2

/-- A condition that carries over from a state to a related one carries over to the run. -/
theorem Guarded.lockstep {ok' : σ → α → Prop}
    (hstep : ∀ s t a b, E s t → R a b → (∀ s', step s a = some s' → ok s a) →
      Option.Rel E (step s a) (step t b))
    (hok' : ∀ s t a b, E s t → R a b → ok s a → ok' t b)
    {s t : σ} {as bs : List α} (h₀ : E s t) (hR : List.Forall₂ R as bs)
    (hok : Guarded step ok s as) : Guarded step ok' t bs := by
  induction hR generalizing s t with
  | nil => trivial
  | @cons a b as bs hab _ ih =>
    have hrel := hstep s t a b h₀ hab fun s' hs => (hok s' hs).1
    intro t' ht
    generalize hs : step s a = o at hrel
    rw [ht] at hrel
    cases hrel with
    | some hE => exact ⟨hok' s t a b h₀ hab (hok _ hs).1, ih hE (hok _ hs).2⟩

/-- Runs in lockstep put out the same when related states and actions do. -/
theorem output_lockstep {out : σ → α → List ω}
    (hstep : ∀ s t a b, E s t → R a b → (∀ s', step s a = some s' → ok s a) →
      Option.Rel E (step s a) (step t b))
    (hout : ∀ s t a b, E s t → R a b → ok s a → out s a = out t b)
    {s t : σ} {as bs : List α} (h₀ : E s t) (hR : List.Forall₂ R as bs)
    (hok : Guarded step ok s as) : output step out s as = output step out t bs := by
  induction hR generalizing s t with
  | nil => rfl
  | @cons a b as bs hab _ ih =>
    have hrel := hstep s t a b h₀ hab fun s' hs => (hok s' hs).1
    simp only [output]
    generalize hs : step s a = o at hrel
    generalize step t b = o' at hrel
    cases hrel with
    | none => rfl
    | some hE =>
      have hsame := hout s t a b h₀ hab (hok _ hs).1
      simp only [hsame, ih hE (hok _ hs).2]

end Lockstep

/-! ## Flags -/

/-- The value after a run of a flag that starts as `v`, that the steps `on` set and the
    steps `off` clear: it depends on the schedule alone. -/
def latch (step : σ → α → Option σ) (on off : σ → α → Bool) (v : Bool) (s : σ) :
    List α → Bool
  | [] => v
  | a :: as =>
    match step s a with
    | none => v
    | some s' => latch step on off (if on s a then true else if off s a then false else v) s' as

/-- A component of the state that only `on` steps set and only `off` steps clear is the
    latch of the schedule. -/
theorem latch_eq {on off : σ → α → Bool} {flag : σ → Bool} {s s' : σ} {as : List α}
    (hflag : ∀ s a s', step s a = some s' →
      flag s' = if on s a then true else if off s a then false else flag s)
    (hrun : exec step s as = some s') : latch step on off (flag s) s as = flag s' := by
  induction as generalizing s with
  | nil => rw [← Option.some.inj hrun]; rfl
  | cons a as ih =>
    obtain ⟨s₁, hs, hrest⟩ := Option.bind_eq_some_iff.mp hrun
    simp only [latch, hs, ← hflag s a s₁ hs]
    exact ih hrest

end Run
