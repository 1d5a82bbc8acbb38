import DvbHdhomerun.Spec.ChannelClients

/-!
# The feed locks

The demux callbacks hold the `feedlock` of their tuner from `mutex_lock` to `mutex_unlock`,
with the whole exchange with the daemon in between. `step_locks` lists what a step does to
the locks and to who is inside; from it follows, for every schedule, that a lock is held
exactly while some client is inside, and that no two are.
-/

namespace DvbHdhomerun

/-- Past `mutex_lock`, when the call takes a lock at all. -/
def ClientPc.locked : ClientPc → Bool
  | idle | lockFeed => false
  | _ => true

/-- The next statement of the client is one that needs its lock. -/
def ClientPc.locking : ClientPc → Bool
  | lockFeed | unlockFeed _ => true
  | _ => false

namespace State

/-- Client `c` is between `mutex_lock` and `mutex_unlock` of the `feedlock` of tuner `id`. -/
def Inside (s : State) (id : Int32) (c : ClientId) : Prop :=
  (s.clients c).lock = some id ∧ (s.clients c).pc.locked = true

/-- How the locks, and who is inside, change in a step. -/
inductive LockChange (s s' : State) : Prop where
  | same (hlock : s'.feedlock = s.feedlock) (h : ∀ id c, s'.Inside id c ↔ s.Inside id c)
  | taken (id : Int32) (c : ClientId) (hfree : s.feedlock id = false)
      (hlock : s'.feedlock = Function.update s.feedlock id true)
      (h : ∀ id' c', s'.Inside id' c' ↔ s.Inside id' c' ∨ id' = id ∧ c' = c)
  | freed (id : Int32) (c : ClientId) (hinside : s.Inside id c)
      (hlock : s'.feedlock = Function.update s.feedlock id false)
      (h : ∀ id' c', s'.Inside id' c' ↔ s.Inside id' c' ∧ c' ≠ c)

variable {s s' : State} {a : Action}

/-- A step that changes one client, and not whether it is inside. -/
private theorem inside_of_update {c : ClientId} {k : Client}
    (hcl : s'.clients = Function.update s.clients c k)
    (hk : ∀ id, (k.lock = some id ∧ k.pc.locked = true) ↔ s.Inside id c) (id : Int32)
    (c' : ClientId) : s'.Inside id c' ↔ s.Inside id c' := by
  by_cases hc : c' = c
  · subst hc
    rw [← hk, Inside, hcl, Function.update_self]
  · rw [Inside, hcl, Function.update_of_ne hc, Inside]

/-- A client that returns from the exchange stays inside until it has unlocked. -/
private theorem inside_returnCall (s : State) {s₁ : State} {c : ClientId} {k : Client} {ret : Int}
    (hcl : s₁.clients = s.clients) (hk : k.lock = (s.clients c).lock)
    (hpc : (s.clients c).pc.locked = true) (id : Int32) (c' : ClientId) :
    (s₁.returnCall c k ret).Inside id c' ↔ s.Inside id c' := by
  have hcl' : (s₁.returnCall c k ret).clients = Function.update s.clients c
      (if k.lock = none then { k with pc := .idle, signalled := false }
       else { k with pc := .unlockFeed ret }) := by
    rw [← hcl]
    rfl
  refine inside_of_update hcl' ?_ id c'
  intro id
  rw [Inside, hpc, ← hk]
  by_cases hlock : k.lock = none
  · simp [hlock]
  · simp [hlock, ClientPc.locked]

/-- A client that only goes on holds what it held. -/
private theorem ClientGoes.locked {c : ClientId} {pc : ClientPc} (h : s.ClientGoes c pc) :
    pc.locked = true ∧ (s.clients c).pc.locked = true := by
  cases h with
  | ready hpc | found hpc | interrupted hpc | sleep hpc | again hpc | get hpc =>
    rw [hpc]
    decide

/-- Every step changes the locks in one of the listed ways. -/
theorem step_locks (h : s.step a = some s') : LockChange s s' := by
  cases step_move h with
  | entered c r mem mesg lock hpc hb =>
    -- a call that takes a lock starts before it
    refine .same rfl (inside_of_update rfl fun id => ?_)
    rw [Inside, hpc]
    cases lock <;> simp [ClientPc.locked]
  | lockFeed c id hpc hlock hfree =>
    refine .taken id c hfree rfl fun id' c' => ?_
    by_cases hc : c' = c
    · subst hc
      simp [Inside, setClient, hpc, hlock, ClientPc.locked, eq_comm]
    · simp [Inside, setClient, hc]
  | clientGoes c pc hgo =>
    refine .same rfl (inside_of_update rfl fun id => ?_)
    rw [Inside, hgo.locked.1, hgo.locked.2]
  | posted c hpc hret =>
    refine .same rfl (inside_of_update rfl fun id => ?_)
    rw [Inside, hpc]
    simp [ClientPc.locked]
  | setWait c hpc =>
    refine .same rfl (inside_of_update rfl fun id => ?_)
    rw [Inside, hpc]
    simp [ClientPc.locked]
  | notReady c hpc => exact .same rfl (inside_returnCall s rfl rfl (by rw [hpc]; rfl))
  | noRoom c hpc => exact .same rfl (inside_returnCall s rfl rfl (by rw [hpc]; rfl))
  | clearWait c hpc => exact .same rfl (inside_returnCall s rfl rfl (by rw [hpc]; rfl))
  | get c hpc => exact .same rfl (inside_returnCall s rfl rfl (by rw [hpc]; rfl))
  | unlockFeed c id ret hpc hlock =>
    refine .freed id c ⟨hlock, by rw [hpc]; rfl⟩ rfl fun id' c' => ?_
    by_cases hc : c' = c
    · subst hc
      simp [Inside, setClient, ClientPc.locked]
    · simp [Inside, setClient, hc]
  | signalled c hpc =>
    refine .same rfl (inside_of_update rfl fun id => ?_)
    by_cases hasleep : (s.clients c).pc = .asleep
    · simp [Inside, hasleep, ClientPc.locked]
    · simp [Inside, hasleep]
  | finishWrite w hpc =>
    -- a client that is woken up was inside and stays there
    refine .same rfl fun id c => ?_
    simp only [Inside, State.finishWrite, setDaemonPc, wakeReaders]
    by_cases hasleep : (s.clients c).pc = .asleep
    · simp [hasleep, ClientPc.locked]
    · simp [hasleep]
  | _ => exact .same rfl fun _ _ => Iff.rfl

/-- Whoever is about to lock or to unlock has a lock to do it with. -/
def Owned (s : State) : Prop :=
  ∀ c, (s.clients c).pc.locking = true → ∃ id, (s.clients c).lock = some id

/-- It is kept when one client changes and still has its lock. -/
private theorem Owned.of_update {c : ClientId} {k : Client} (h : s.Owned)
    (hcl : s'.clients = Function.update s.clients c k)
    (hk : k.pc.locking = true → ∃ id, k.lock = some id) : s'.Owned := by
  intro c'
  rw [hcl]
  by_cases hc : c' = c
  · subst hc
    rw [Function.update_self]
    exact hk
  · rw [Function.update_of_ne hc]
    exact h c'

/-- It is kept by a return. -/
private theorem Owned.returnCall {s₁ : State} {c : ClientId} {k : Client} {ret : Int} (h : s.Owned)
    (hcl : s₁.clients = s.clients) : (s₁.returnCall c k ret).Owned := by
  have hcl' : (s₁.returnCall c k ret).clients = Function.update s.clients c
      (if k.lock = none then { k with pc := .idle, signalled := false }
       else { k with pc := .unlockFeed ret }) := by
    rw [← hcl]
    rfl
  refine h.of_update hcl' fun hpc => ?_
  by_cases hlock : k.lock = none
  · simp [hlock, ClientPc.locking] at hpc
  · simp only [hlock, if_false]
    exact Option.ne_none_iff_exists'.mp hlock

/-- Nobody is about to lock or to unlock. -/
theorem Owned.init : State.init.Owned := fun _ h => (nomatch h)

/-- Every step keeps it. -/
theorem Owned.step (h : s.Owned) (hs : s.step a = some s') : s'.Owned := by
  -- only a call that was given a lock goes to `lockFeed`
  cases step_move hs with
  | entered c r mem mesg lock hpc hb =>
    refine h.of_update rfl fun hpc => ?_
    cases lock with
    | none => exact nomatch hpc
    | some id => exact ⟨id, rfl⟩
  | clientGoes c pc hgo =>
    refine h.of_update rfl fun hpc => ?_
    cases hgo <;> exact nomatch hpc
  | lockFeed | posted | setWait | unlockFeed => exact h.of_update rfl fun hpc => (nomatch hpc)
  | notReady | noRoom | clearWait | get => exact h.returnCall rfl
  | signalled c hidle =>
    refine h.of_update rfl fun hpc => ?_
    by_cases hasleep : (s.clients c).pc = .asleep
    · simp [hasleep, ClientPc.locking] at hpc
    · simp only [hasleep, if_false] at hpc
      exact h c hpc
  | finishWrite w hpc =>
    intro c hlocking
    simp only [State.finishWrite, setDaemonPc, wakeReaders] at hlocking ⊢
    by_cases hasleep : (s.clients c).pc = .asleep
    · simp [hasleep, ClientPc.locking] at hlocking
    · simp only [hasleep, if_false] at hlocking ⊢
      exact h c hlocking
  | _ => exact h

end State

/-! ## The invariant -/

/-- A lock is held exactly while a client is inside, and then by that client alone. -/
structure LocksOk (s : State) : Prop where
  held : ∀ id, s.feedlock id = true ↔ ∃ c, s.Inside id c
  alone : ∀ id c c', s.Inside id c → s.Inside id c' → c = c'

/-- No lock is held, and nobody is inside. -/
theorem LocksOk.init : LocksOk State.init where
  held := by simp [State.init, State.Inside, Client.init]
  alone := by simp [State.init, State.Inside, Client.init]

/-- Every step keeps the locks with those inside. -/
theorem LocksOk.step {s s' : State} {a : Action} (h : LocksOk s) (hs : s.step a = some s') :
    LocksOk s' := by
  cases State.step_locks hs with
  | same hlock hin =>
    refine ⟨fun id => ?_, fun id c c' hc hc' => ?_⟩
    · rw [hlock, h.held id]
      exact exists_congr fun c => (hin id c).symm
    · exact h.alone id c c' ((hin id c).mp hc) ((hin id c').mp hc')
  | taken id c hfree hlock hin =>
    -- nobody was inside
    have hnobody : ∀ c', ¬ s.Inside id c' := fun c' hc' => by
      have hheld := (h.held id).mpr ⟨c', hc'⟩
      rw [hfree] at hheld
      exact nomatch hheld
    refine ⟨fun id' => ?_, fun id' c₁ c₂ h₁ h₂ => ?_⟩
    · rw [hlock]
      by_cases hid : id' = id
      · subst hid
        simp only [Function.update_self, true_iff]
        exact ⟨c, (hin id' c).mpr (.inr ⟨rfl, rfl⟩)⟩
      · rw [Function.update_of_ne hid, h.held id']
        refine exists_congr fun c' => ?_
        rw [hin]
        simp [hid]
    · rcases (hin id' c₁).mp h₁ with h₁ | ⟨rfl, rfl⟩ <;> rcases (hin id' c₂).mp h₂ with h₂ | ⟨h₂, rfl⟩
      · exact h.alone id' c₁ c₂ h₁ h₂
      · exact absurd (h₂ ▸ h₁) (hnobody c₁)
      · exact absurd h₂ (hnobody c₂)
      · rfl
  | freed id c hinside hlock hin =>
    refine ⟨fun id' => ?_, fun id' c₁ c₂ h₁ h₂ => ?_⟩
    · rw [hlock]
      by_cases hid : id' = id
      · -- the only client inside has left
        subst hid
        simp only [Function.update_self, Bool.false_eq_true, false_iff, not_exists]
        intro c' hc'
        obtain ⟨hold, hne⟩ := (hin id' c').mp hc'
        exact hne (h.alone id' c' c hold hinside)
      · rw [Function.update_of_ne hid, h.held id']
        refine exists_congr fun c' => ?_
        rw [hin]
        refine ⟨fun hc' => ⟨hc', ?_⟩, fun hc' => hc'.1⟩
        -- a client is inside one lock at most
        rintro rfl
        exact hid (Option.some.inj (hc'.1.symm.trans hinside.1))
    · exact h.alone id' c₁ c₂ ((hin id' c₁).mp h₁).1 ((hin id' c₂).mp h₂).1

/-- Whatever the schedule, at most one client is inside the `feedlock` of a tuner, and the
    lock is held exactly while one is: no call leaves it locked behind it. -/
theorem feedlock_exclusive {acts : List Action} {s : State} (hrun : State.run acts = some s) :
    (∀ id c c', s.Inside id c → s.Inside id c' → c = c') ∧
      ∀ id, s.feedlock id = true ↔ ∃ c, s.Inside id c := by
  have h : LocksOk s := Run.exec_keeps (fun _ _ _ hinv hs => hinv.step hs) LocksOk.init hrun
  exact ⟨h.alone, h.held⟩

/-- Two clients start feeds of one tuner. The first is at the put of its request, and the
    second finds the lock taken: it has no step. -/
theorem feedlock_exclusive_two :
    ∃ s, State.run ([.openHandle 0, .daemonStart []] ++
        Schedule.post 0 (.startFeed ⟨some 1, true, 100, 0⟩) ++
        [.call 1 (.startFeed ⟨some 1, true, 200, 0⟩) .zero]) = some s ∧
      s.feedlock 1 = true ∧ s.Inside 1 0 ∧ ¬ s.Inside 1 1 ∧ s.step (.client 1) = none := by
  let acts : List Action := [.openHandle 0, .daemonStart []] ++
    Schedule.post 0 (.startFeed ⟨some 1, true, 100, 0⟩) ++
    [.call 1 (.startFeed ⟨some 1, true, 200, 0⟩) .zero]
  let s := (State.run acts).get (by decide)
  have hrun : State.run acts = some s := (Option.some_get _).symm
  obtain ⟨halone, hheld⟩ := feedlock_exclusive hrun
  have hinside : s.Inside 1 0 := by
    rw [State.Inside]
    decide
  refine ⟨s, hrun, (hheld 1).mpr ⟨0, hinside⟩, hinside, fun h => ?_, ?_⟩
  · exact absurd (halone 1 0 1 hinside h) (by decide)
  · have hdec : (s.step (.client 1)).isNone = true := by decide
    exact Option.isNone_iff_eq_none.mp hdec

end DvbHdhomerun
