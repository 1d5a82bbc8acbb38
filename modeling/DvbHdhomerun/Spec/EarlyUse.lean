import DvbHdhomerun.Kernel.Init
import DvbHdhomerun.Spec.ChannelSteps

/-!
# Use before initialisation

`misc_register` is the first statement of `dvb_hdhomerun_control_init` and `mutex_init` one of
the last of `dvb_hdhomerun_register`: calls from user space can come to the FIFOs, the wait
queues and `feedlock` before they are initialised. The objects of one function are
initialised in a fixed order, so it is enough to look at the first statements of a call that
operate on any of them, and at the place the function has come to by then.
-/

namespace DvbHdhomerun

/-- The place of a statement in `dvb_hdhomerun_control_init`. -/
def ControlInitPc.place : ControlInitPc → Nat
  | miscRegister => 0
  | allocFifoUser => 1
  | allocFifoKernel => 2
  | initReadq => 3
  | initInq => 4
  | initOutq => 5
  | returned => 6

/-- `mutex_init` has been executed. -/
def RegisterPc.lockReady : RegisterPc → Bool
  | dataCreateDevice | returned => true
  | _ => false

/-- Inside a call, and past the lock that a demux callback takes first. -/
def ClientPc.beyondLock : ClientPc → Bool
  | idle | lockFeed => false
  | _ => true

namespace LoadState

/-- `dvb_hdhomerun_control_init` has executed the statement `stmt`. -/
def Past (s : LoadState) (stmt : ControlInitPc) : Prop := stmt.place < s.controlInit.place

/-- A call from user space only operates on what has been initialised. -/
def UsesInitialised (s : LoadState) (a : LoadAction) (_ : LoadState) : Prop :=
  ∀ o ∈ s.uses a, o ∈ s.initialised

/-- The first statements of a call that operate on something come late enough: a client's
    lock after `mutex_init`, its put after the initialisation of `inq`, the resets after the
    allocations, `poll` and a blocking call after those of the wait queues they use. -/
def ComesLate (s : LoadState) : LoadAction → Prop
  | .channel (.client c) =>
    ((s.channel.clients c).pc = .put → s.Past .initInq) ∧
    ((s.channel.clients c).pc = .lockFeed →
      ∀ id, (s.channel.clients c).lock = some id → (s.registers id).lockReady = true)
  | .channel (.releaseHandle h) => s.channel.handles h = .opened → s.Past .allocFifoKernel
  | .device p =>
    match s.processes p with
    | .pollInq => s.Past .initInq
    | .pollOutq => s.Past .initOutq
    | .readLen .. => s.Past .allocFifoUser
    | .readWait _ => s.channel.controlFifoUser.len = 0 → s.Past .initInq
    | .writeLen .. => s.Past .allocFifoKernel
    | .writeWait _ => s.channel.controlFifoKernel.len = controlBufsize → s.Past .initOutq
    | .writeWake => s.Past .initReadq
    | _ => True
  | _ => True

/-! ## What has been initialised -/

/-- What has been initialised can be read off the places of the two functions. -/
structure Placed (s : LoadState) : Prop where
  control : ∀ stmt o, stmt.object = some o → (o ∈ s.initialised ↔ s.Past stmt)
  feedlock : ∀ id, .feedlock id ∈ s.initialised ↔ (s.registers id).lockReady = true

/-- The next statement is one place further on. -/
private theorem place_next {pc pc' : ControlInitPc} (h : pc.next = some pc') :
    pc'.place = pc.place + 1 := by
  cases pc <;> cases h <;> rfl

/-- No two statements have the same place. -/
private theorem place_injective {pc pc' : ControlInitPc} (h : pc.place = pc'.place) : pc = pc' := by
  cases pc <;> cases pc' <;> first | rfl | exact nomatch h

/-- No object is initialised twice. -/
private theorem object_injective {pc pc' : ControlInitPc} {o : SharedObject}
    (h : pc.object = some o) (h' : pc'.object = some o) : pc = pc' := by
  cases pc <;> cases h <;> cases pc' <;> first | rfl | exact nomatch h'

/-- The FIFOs and the wait queues are no locks. -/
private theorem object_ne_feedlock {pc : ControlInitPc} {id : Int32} :
    pc.object ≠ some (.feedlock id) := by
  cases pc <;> simp [ControlInitPc.object]

/-- `mutex_init` is what makes `feedlock` ready, and it stays so. -/
private theorem lockReady_step {pc pc' : RegisterPc} {ok : Bool}
    (h : (if ok then pc.next else pc.onError) = some pc') :
    pc'.lockReady = true ↔ pc.lockReady = true ∨ pc = .mutexInit := by
  cases ok <;> cases pc <;> cases h <;> simp [RegisterPc.lockReady]

/-- It holds before the module is loaded. -/
theorem Placed.init : Placed .init where
  control := fun _ _ _ =>
    ⟨fun h => absurd h List.not_mem_nil, fun h => absurd h (Nat.not_lt_zero _)⟩
  feedlock := fun _ => ⟨fun h => absurd h List.not_mem_nil, fun h => nomatch h⟩

/-- Every statement of `dvb_hdhomerun_control_init` keeps it. -/
private theorem Placed.controlInit {s s' : LoadState} {ok : Bool} (hinv : Placed s)
    (h : s.controlInitStep ok = some s') : Placed s' := by
  simp only [controlInitStep] at h
  split at h
  · exact nomatch h
  · split at h
    · obtain ⟨pc, hnext, rfl⟩ := Option.map_eq_some_iff.mp h
      constructor
      · intro stmt o ho
        simp only [initialise, List.mem_append, Option.mem_toList, Past, place_next hnext]
        rw [hinv.control stmt o ho, Past]
        -- the statement executed now is the one at the old place
        constructor
        · rintro (hlt | hobj)
          · omega
          · rw [object_injective hobj ho]
            omega
        · intro hle
          by_cases hlt : stmt.place < s.controlInit.place
          · exact .inl hlt
          · rw [← place_injective (by omega : stmt.place = s.controlInit.place)]
            exact .inr ho
      · intro id
        simp only [initialise, List.mem_append, Option.mem_toList]
        rw [hinv.feedlock id]
        exact or_iff_left object_ne_feedlock
    · split at h
      · cases h
        exact ⟨hinv.control, hinv.feedlock⟩
      · exact nomatch h

/-- So does every registration. -/
private theorem Placed.register {s s' : LoadState} {id : Int32} {ok : Bool} (hinv : Placed s)
    (h : s.registerStep id ok = some s') : Placed s' := by
  obtain ⟨pc', hpc', rfl⟩ := Option.map_eq_some_iff.mp h
  constructor
  · intro stmt o ho
    have hne : o ∉ (if s.registers id = .mutexInit then [SharedObject.feedlock id] else []) := by
      split
      · rw [List.mem_singleton]
        rintro rfl
        exact object_ne_feedlock ho
      · exact List.not_mem_nil
    rw [initialise, List.mem_append, or_iff_left hne]
    exact hinv.control stmt o ho
  · intro id'
    show .feedlock id' ∈ s.initialised ++ _ ↔
      (Function.update s.registers id pc' id').lockReady = true
    rw [List.mem_append, hinv.feedlock id']
    by_cases hid : id' = id
    · subst hid
      rw [Function.update_self, lockReady_step hpc']
      split <;> simp_all
    · rw [Function.update_of_ne hid]
      split <;> simp [hid]

/-- Only the two functions initialise anything. -/
private theorem Placed.of_eq {s s' : LoadState} (hinv : Placed s)
    (hinit : s'.initialised = s.initialised) (hcontrol : s'.controlInit = s.controlInit)
    (hregisters : s'.registers = s.registers) : Placed s' where
  control := by
    intro stmt o ho
    rw [hinit, Past, hcontrol]
    exact hinv.control stmt o ho
  feedlock := by
    intro id
    rw [hinit, hregisters]
    exact hinv.feedlock id

/-! ## What is in use has been initialised -/

/-- What a client has operated on in its call, or will after its next test. -/
structure ClientReady (s : LoadState) (k : Client) : Prop where
  waiting : k.pc.waiting = true → s.Past .initInq
  locked : k.pc.beyondLock = true → ∀ id, k.lock = some id → (s.registers id).lockReady = true

/-- The same for a process in a call on the control device. -/
def DeviceReady (s : LoadState) : DevicePc → Prop
  | .pollOutq | .pollLen => s.Past .initInq
  | .readWait _ | .readGet _ => s.Past .allocFifoUser
  | .writeWait _ | .writePut _ => s.Past .allocFifoKernel
  | _ => True

/-- The calls that are going on have only come across what was initialised. -/
structure InUse (s : LoadState) : Prop where
  clients : ∀ c, s.ClientReady (s.channel.clients c)
  released : ∀ h, s.channel.handles h = .kernelReset → s.Past .allocFifoKernel
  processes : ∀ p, s.DeviceReady (s.processes p)

/-- Nothing that has been initialised becomes uninitialised again. -/
structure Progress (s s' : LoadState) : Prop where
  control : s.controlInit.place ≤ s'.controlInit.place
  lock : ∀ id, (s.registers id).lockReady = true → (s'.registers id).lockReady = true

namespace Progress

variable {s s' : LoadState}

/-- What has been executed stays so. -/
theorem past (h : Progress s s') {stmt : ControlInitPc} (hpast : s.Past stmt) : s'.Past stmt :=
  Nat.lt_of_lt_of_le hpast h.control

/-- A client that is ready stays ready. -/
theorem clientReady (h : Progress s s') {k : Client} (hk : s.ClientReady k) :
    s'.ClientReady k where
  waiting := fun hpc => h.past (hk.waiting hpc)
  locked := fun hpc id hlock => h.lock id (hk.locked hpc id hlock)

/-- So does a process in the control device. -/
theorem deviceReady (h : Progress s s') {pc : DevicePc} (hpc : s.DeviceReady pc) :
    s'.DeviceReady pc := by
  cases pc with
  | pollOutq | pollLen | readWait | readGet | writeWait | writePut => exact h.past hpc
  | _ => trivial

/-- The calls that were going on stay as they were. -/
theorem inUse (h : Progress s s') (hinv : InUse s)
    (hclients : s'.channel.clients = s.channel.clients)
    (hhandles : s'.channel.handles = s.channel.handles)
    (hprocesses : s'.processes = s.processes) : InUse s' where
  clients := by
    rw [hclients]
    exact fun c => h.clientReady (hinv.clients c)
  released := by
    rw [hhandles]
    exact fun hd hpc => h.past (hinv.released hd hpc)
  processes := by
    rw [hprocesses]
    exact fun p => h.deviceReady (hinv.processes p)

end Progress

/-- It holds before anything has been used. -/
theorem InUse.init : InUse .init where
  clients := fun _ => ⟨fun h => (by cases h), fun h => (by cases h)⟩
  released := fun _ h => (by cases h)
  processes := fun _ => trivial

/-- The calls go on in the channel, and the two functions stay where they are. -/
private theorem InUse.withChannel {s : LoadState} {ch : State} (hinv : InUse s)
    (hclients : ∀ c, s.ClientReady (ch.clients c))
    (hreleased : ∀ hd, ch.handles hd = .kernelReset → s.Past .allocFifoKernel) :
    InUse { s with channel := ch } := by
  have hprogress : Progress s { s with channel := ch } := ⟨Nat.le_refl _, fun _ hid => hid⟩
  constructor
  · exact fun c => hprogress.clientReady (hclients c)
  · exact fun hd hpc => hprogress.past (hreleased hd hpc)
  · exact fun p => hprogress.deviceReady (hinv.processes p)

/-- Initialising an object changes neither clients nor handles. -/
private theorem initObject_calls (ch : State) (o : SharedObject) :
    (initObject ch o).clients = ch.clients ∧ (initObject ch o).handles = ch.handles := by
  cases o <;> exact ⟨rfl, rfl⟩

/-- Initialising an object changes no call. -/
private theorem initialise_calls (os : List SharedObject) (ch : State) :
    (os.foldl initObject ch).clients = ch.clients ∧
      (os.foldl initObject ch).handles = ch.handles := by
  induction os generalizing ch with
  | nil => exact ⟨rfl, rfl⟩
  | cons o os ih =>
    obtain ⟨hclients, hhandles⟩ := ih (initObject ch o)
    obtain ⟨hclients', hhandles'⟩ := initObject_calls ch o
    exact ⟨hclients.trans hclients', hhandles.trans hhandles'⟩

/-- Every statement of `dvb_hdhomerun_control_init` keeps it. -/
private theorem InUse.controlInit {s s' : LoadState} {ok : Bool} (hinv : InUse s)
    (h : s.controlInitStep ok = some s') : InUse s' := by
  simp only [controlInitStep] at h
  split at h
  · exact nomatch h
  · split at h
    · obtain ⟨pc, hnext, rfl⟩ := Option.map_eq_some_iff.mp h
      obtain ⟨hclients, hhandles⟩ := initialise_calls s.controlInit.object.toList s.channel
      have hprogress : Progress s { s.initialise s.controlInit.object.toList with
          controlInit := pc } :=
        ⟨(place_next hnext).symm ▸ Nat.le_succ _, fun _ hid => hid⟩
      exact hprogress.inUse hinv hclients hhandles rfl
    · split at h
      · cases h
        have hprogress : Progress s { s with controlFailed := true } :=
          ⟨Nat.le_refl _, fun _ hid => hid⟩
        exact hprogress.inUse hinv rfl rfl rfl
      · exact nomatch h

/-- So does every registration. -/
private theorem InUse.register {s s' : LoadState} {id : Int32} {ok : Bool} (hinv : InUse s)
    (h : s.registerStep id ok = some s') : InUse s' := by
  obtain ⟨pc', hpc', rfl⟩ := Option.map_eq_some_iff.mp h
  obtain ⟨hclients, hhandles⟩ :=
    initialise_calls (if s.registers id = .mutexInit then [.feedlock id] else []) s.channel
  have hlock : ∀ id', (s.registers id').lockReady = true →
      (Function.update s.registers id pc' id').lockReady = true :=
    (Function.forall_update_iff s.registers fun id' pc =>
      (s.registers id').lockReady = true → pc.lockReady = true).mpr
      ⟨fun hid => (lockReady_step hpc').mpr (.inl hid), fun _ _ hid => hid⟩
  have hprogress : Progress s
      { s.initialise (if s.registers id = .mutexInit then [.feedlock id] else []) with
        registers := Function.update s.registers id pc' } := ⟨Nat.le_refl _, hlock⟩
  exact hprogress.inUse hinv hclients hhandles rfl

/-! ### Calls in the control channel -/

/-- The clients are ready when one of them is replaced by one that is. -/
private theorem ready_update {s : LoadState} {clients : ClientId → Client} {c : ClientId}
    {k : Client} (hinv : ∀ c, s.ClientReady (clients c)) (hk : s.ClientReady k) :
    ∀ c', s.ClientReady (Function.update clients c k c') :=
  (Function.forall_update_iff clients fun _ k => s.ClientReady k).mpr ⟨hk, fun c' _ => hinv c'⟩

/-- A client that goes on inside its call has passed the lock, and the put if it waits. -/
private theorem ClientReady.goes {s : LoadState} {k : Client} (hk : s.ClientReady k)
    {pc : ClientPc} {ticket : Option Ticket} {mesg : ControlMesg} {signalled : Bool}
    (hwaiting : pc.waiting = true → k.pc.waiting = true)
    (hlocked : pc.beyondLock = true → k.pc.beyondLock = true) :
    s.ClientReady ⟨pc, k.request, k.lock, mesg, ticket, signalled⟩ :=
  ⟨fun hpc => hk.waiting (hwaiting hpc), fun hpc => hk.locked (hlocked hpc)⟩

/-- A client that returns is ready. -/
private theorem ClientReady.returnCall {s : LoadState} (ch : State) {c : ClientId} {k : Client}
    {ret : Int} (hch : ∀ c, s.ClientReady (ch.clients c)) (hk : s.ClientReady k)
    (hpc : k.pc.beyondLock = true) (c' : ClientId) :
    s.ClientReady ((ch.returnCall c k ret).clients c') := by
  simp only [State.returnCall, State.setClient]
  apply ready_update hch
  split
  · exact hk.goes (fun h => (by cases h)) fun _ => hpc
  · exact hk.goes (fun h => (by cases h)) fun _ => hpc

/-- A client that is woken up is as ready as before. -/
private theorem ClientReady.wakeReaders {s : LoadState} {ch : State}
    (hch : ∀ c, s.ClientReady (ch.clients c)) (c : ClientId) :
    s.ClientReady (ch.wakeReaders.clients c) := by
  simp only [State.wakeReaders]
  split
  · rename_i hpc
    exact (hch c).goes (by rw [hpc]; decide) (by rw [hpc]; decide)
  · exact hch c

/-- Every step of the channel that comes late enough keeps the clients ready. -/
private theorem clientReady_step {s : LoadState} {a : Action} {ch' : State}
    (hinv : ∀ c, s.ClientReady (s.channel.clients c)) (hok : s.ComesLate (.channel a))
    (h : s.channel.step a = some ch') (c : ClientId) : s.ClientReady (ch'.clients c) := by
  cases State.step_move h with
  | entered c₀ r mem mesg lock _ hb =>
    apply ready_update hinv
    constructor
    · intro hpc
      split at hpc <;> cases hpc
    · intro hpc id hlock
      -- only a call without a lock starts beyond it
      cases hlock
      cases hpc
  | lockFeed c₀ id hpc hlock =>
    apply ready_update hinv
    exact ⟨fun hpc => (by cases hpc), fun _ => hok.2 hpc⟩
  | clientGoes c₀ pc hgo =>
    apply ready_update hinv
    -- no test takes a client over the lock or the put
    apply (hinv c₀).goes
    · cases hgo with
      | _ hpc => rw [hpc]; decide
    · cases hgo with
      | _ hpc => rw [hpc]; decide
  | notReady c₀ hpc => exact ClientReady.returnCall s.channel hinv (hinv c₀) (by rw [hpc]; rfl) c
  | posted c₀ hpc =>
    apply ready_update hinv
    exact ⟨fun _ => hok.1 hpc, fun _ => (hinv c₀).locked (by rw [hpc]; rfl)⟩
  | noRoom c₀ hpc =>
    exact ClientReady.returnCall (s.channel.afterPut c₀) hinv
      ((hinv c₀).goes id id) (by rw [hpc]; rfl) c
  | setWait c₀ hpc =>
    apply ready_update hinv
    exact (hinv c₀).goes (by rw [hpc]; decide) (by rw [hpc]; decide)
  | clearWait c₀ hpc =>
    exact ClientReady.returnCall { s.channel with waitForWrite := false } hinv (hinv c₀)
      (by rw [hpc]; rfl) c
  | get c₀ hpc =>
    exact ClientReady.returnCall s.channel.afterGet hinv ((hinv c₀).goes id id)
      (by rw [hpc]; rfl) c
  | unlockFeed c₀ =>
    apply ready_update hinv
    exact ⟨fun hpc => (by cases hpc), fun hpc => (by cases hpc)⟩
  | signalled c₀ hidle =>
    apply ready_update hinv
    split
    · rename_i hpc
      exact (hinv c₀).goes (by rw [hpc]; decide) (by rw [hpc]; decide)
    · exact (hinv c₀).goes id id
  | finishWrite => exact ClientReady.wakeReaders hinv c
  | _ => exact hinv c

/-- A release that has begun came after the FIFOs had been allocated. -/
private theorem released_step {s : LoadState} {a : Action} {ch' : State}
    (hinv : ∀ hd, s.channel.handles hd = .kernelReset → s.Past .allocFifoKernel)
    (hok : s.ComesLate (.channel a)) (h : s.channel.step a = some ch') :
    ∀ hd, ch'.handles hd = .kernelReset → s.Past .allocFifoKernel := by
  have hupdate : ∀ hd₀ pc, (pc = .kernelReset → s.Past .allocFifoKernel) →
      ∀ hd, Function.update s.channel.handles hd₀ pc hd = .kernelReset →
        s.Past .allocFifoKernel := fun hd₀ pc hnew =>
    (Function.forall_update_iff s.channel.handles fun _ pc =>
      pc = .kernelReset → s.Past .allocFifoKernel).mpr ⟨hnew, fun hd _ => hinv hd⟩
  cases State.step_move h with
  | resetKernel hd₀ hopened => exact hupdate hd₀ .kernelReset fun _ => hok hopened
  | opened hd₀ => exact hupdate hd₀ .opened fun hpc => absurd hpc (by decide)
  | resetUser hd₀ => exact hupdate hd₀ .userReset fun hpc => absurd hpc (by decide)
  | resetWait hd₀ => exact hupdate hd₀ .waitCleared fun hpc => absurd hpc (by decide)
  | released hd₀ => exact hupdate hd₀ .closed fun hpc => absurd hpc (by decide)
  | _ => exact hinv

/-- Every step of the channel that comes late enough keeps the invariant. -/
private theorem InUse.channel {s s' : LoadState} {a : Action} (hinv : InUse s)
    (hok : s.ComesLate (.channel a)) (h : s.channelStep a = some s') : InUse s' := by
  simp only [channelStep] at h
  split at h
  · obtain ⟨ch', hch', rfl⟩ := Option.map_eq_some_iff.mp h
    apply hinv.withChannel
    · exact clientReady_step hinv.clients hok hch'
    · exact released_step hinv.released hok hch'
  · exact nomatch h

/-! ### Calls on the control device -/

/-- The state after a step of process `p`, by what the step did to the channel. -/
inductive DeviceMove (s : LoadState) (p : ProcessId) : LoadState → Prop where
  /-- one more round of a wait -/
  | waits : DeviceMove s p s
  | goes (pc : DevicePc) (hpc : s.DeviceReady pc) : DeviceMove s p (s.setProcess p pc)
  | fifo (pc : DevicePc) (ch : State) (hpc : s.DeviceReady pc)
      (hclients : ch.clients = s.channel.clients) (hhandles : ch.handles = s.channel.handles) :
      DeviceMove s p { s.setProcess p pc with channel := ch }
  | wakes : DeviceMove s p { s.setProcess p .idle with channel := s.channel.wakeReaders }

/-- A process goes on to a statement that is ready for it. -/
private theorem deviceStep_move {s s' : LoadState} {p : ProcessId}
    (hinv : s.DeviceReady (s.processes p)) (hok : s.ComesLate (.device p))
    (h : s.deviceStep p = some s') : DeviceMove s p s' := by
  simp only [ComesLate] at hok
  simp only [deviceStep] at h
  split at h <;> rename_i hpc <;> rw [hpc] at hok hinv
  · exact nomatch h
  · cases h
    exact .goes .pollOutq hok
  · cases h
    exact .goes .pollLen hinv
  · cases h
    exact .goes .idle trivial
  · -- readLen: what was asked of the length holds of the get or the wait behind it
    split at h
    · split at h
      · cases h
        exact .goes .idle trivial
      · cases h
        exact .goes (.readWait _) hok
    · cases h
      exact .goes (.readGet _) hok
  · -- readWait
    split at h
    · cases h
      exact .goes (.readLen _ false) trivial
    · cases h
      exact .waits
  · -- readGet
    cases h
    exact .fifo .idle _ trivial rfl rfl
  · -- writeTest
    split at h
    · cases h
      exact .goes (.writeLen _ _) trivial
    · cases h
      exact .goes .writeWake trivial
  · -- writeLen
    split at h
    · split at h
      · cases h
        exact .goes .idle trivial
      · cases h
        exact .goes (.writeWait _) hok
    · cases h
      exact .goes (.writePut _) hok
  · -- writeWait
    split at h
    · cases h
      exact .goes (.writeLen _ false) trivial
    · cases h
      exact .waits
  · -- writePut
    cases h
    exact .fifo .writeWake _ trivial rfl rfl
  · -- writeWake
    cases h
    exact .wakes

/-- Only the process that moves has to be looked at. -/
private theorem deviceReady_update {s : LoadState} {p : ProcessId} {pc : DevicePc}
    (hinv : ∀ p, s.DeviceReady (s.processes p)) (hpc : s.DeviceReady pc) :
    ∀ p', s.DeviceReady (Function.update s.processes p pc p') :=
  (Function.forall_update_iff s.processes fun _ pc => s.DeviceReady pc).mpr
    ⟨hpc, fun p' _ => hinv p'⟩

/-- A process goes on to a statement that is ready. -/
private theorem InUse.setProcess {s : LoadState} {p : ProcessId} {pc : DevicePc} (hinv : InUse s)
    (hpc : s.DeviceReady pc) : InUse (s.setProcess p pc) := by
  have hprogress : Progress s (s.setProcess p pc) := ⟨Nat.le_refl _, fun _ hid => hid⟩
  constructor
  · exact fun c => hprogress.clientReady (hinv.clients c)
  · exact fun hd hreset => hprogress.past (hinv.released hd hreset)
  · exact fun p' => hprogress.deviceReady (deviceReady_update hinv.processes hpc p')

/-- Every statement in the control device that comes late enough keeps the invariant. -/
private theorem InUse.device {s s' : LoadState} {p : ProcessId} (hinv : InUse s)
    (hok : s.ComesLate (.device p)) (h : s.deviceStep p = some s') : InUse s' := by
  cases deviceStep_move (hinv.processes p) hok h with
  | waits => exact hinv
  | goes pc hpc => exact hinv.setProcess hpc
  | fifo pc ch hpc hclients hhandles =>
    have hset : InUse (s.setProcess p pc) := hinv.setProcess hpc
    apply hset.withChannel
    · rw [hclients]
      exact hset.clients
    · rw [hhandles]
      exact hset.released
  | wakes =>
    have hset : InUse (s.setProcess p .idle) := hinv.setProcess trivial
    exact hset.withChannel (ClientReady.wakeReaders hset.clients) hset.released

/-- So does a process that enters at a statement that is ready. -/
private theorem InUse.enter {s s' : LoadState} {p : ProcessId} {h : HandleId} {pc : DevicePc}
    (hinv : InUse s) (hpc : s.DeviceReady pc) (hs : s.enter p h pc = some s') : InUse s' := by
  simp only [LoadState.enter] at hs
  split at hs
  · cases hs
    exact hinv.setProcess hpc
  · exact nomatch hs

/-! ## Whole runs -/

/-- What the steps of a run keep. -/
structure LoadInv (s : LoadState) : Prop where
  placed : Placed s
  inUse : InUse s

/-- Both parts hold before the module is loaded. -/
theorem LoadInv.init : LoadInv .init := ⟨.init, .init⟩

/-- Every step keeps the places. -/
theorem Placed.step {s s' : LoadState} {a : LoadAction} (hinv : Placed s)
    (h : s.step a = some s') : Placed s' := by
  cases a with
  | controlInit ok => exact hinv.controlInit h
  | register hd id ok =>
    simp only [LoadState.step] at h
    split at h
    · exact hinv.register h
    · exact nomatch h
  -- the calls initialise nothing
  | channel a =>
    simp only [LoadState.step, channelStep] at h
    split at h
    · obtain ⟨ch', _, rfl⟩ := Option.map_eq_some_iff.mp h
      exact hinv.of_eq rfl rfl rfl
    · exact nomatch h
  | poll p hd | read p hd count nonblock | write p hd data nonblock =>
    simp only [LoadState.step, LoadState.enter] at h
    split at h
    · cases h
      exact hinv.of_eq rfl rfl rfl
    · exact nomatch h
  | device p =>
    simp only [LoadState.step, deviceStep] at h
    split at h <;> (try split at h) <;> cases h <;> exact hinv.of_eq rfl rfl rfl
  | deviceError p =>
    simp only [LoadState.step] at h
    split at h
    · cases h
      exact hinv.of_eq rfl rfl rfl
    · exact nomatch h

/-- Every step that comes late enough keeps everybody ready. -/
theorem InUse.step {s s' : LoadState} {a : LoadAction} (hinv : InUse s) (hok : s.ComesLate a)
    (h : s.step a = some s') : InUse s' := by
  cases a with
  | controlInit ok => exact hinv.controlInit h
  | register hd id ok =>
    simp only [LoadState.step] at h
    split at h
    · exact hinv.register h
    · exact nomatch h
  | channel a => exact hinv.channel hok h
  | poll p hd => exact hinv.enter (show s.DeviceReady .pollInq from trivial) h
  | read p hd count nonblock =>
    apply hinv.enter _ h
    split <;> trivial
  | write p hd data nonblock =>
    exact hinv.enter (show s.DeviceReady (.writeTest data nonblock) from trivial) h
  | device p => exact hinv.device hok h
  | deviceError p =>
    simp only [LoadState.step] at h
    split at h
    · cases h
      exact hinv.setProcess trivial
    · exact nomatch h

/-! ## Uses and places -/

variable {s : LoadState}

/-- `dvb_hdhomerun_control_init` executes its statements in order. -/
private theorem Past.of_place_le {stmt stmt' : ControlInitPc} (h : s.Past stmt')
    (hle : stmt.place ≤ stmt'.place) : s.Past stmt := Nat.lt_of_le_of_lt hle h

/-- What a client operates on has been initialised when the call has come late enough. -/
private theorem clientUses_initialised {c : ClientId} (hinv : LoadInv s)
    (hok : s.ComesLate (.channel (.client c))) :
    ∀ o ∈ clientUses s.channel (s.channel.clients c).lock (s.channel.clients c).pc,
      o ∈ s.initialised := by
  intro o ho
  obtain ⟨hput, hlock⟩ := hok
  obtain ⟨hwaiting, hlocked⟩ := hinv.inUse.clients c
  have hreplies : (s.channel.clients c).pc.waiting = true →
      .controlFifoKernel ∈ s.initialised ∧ .controlReadq ∈ s.initialised := by
    intro hpc
    have hpast := hwaiting hpc
    exact ⟨(hinv.placed.control .allocFifoKernel _ rfl).mpr (hpast.of_place_le (by decide)),
      (hinv.placed.control .initReadq _ rfl).mpr (hpast.of_place_le (by decide))⟩
  have hfeedlock : (∀ id, (s.channel.clients c).lock = some id →
      (s.registers id).lockReady = true) →
      o ∈ (s.channel.clients c).lock.toList.map SharedObject.feedlock → o ∈ s.initialised := by
    intro hready hmem
    obtain ⟨id, hid, rfl⟩ := List.mem_map.mp hmem
    exact (hinv.placed.feedlock id).mpr (hready id (Option.mem_toList.mp hid))
  generalize hpc : (s.channel.clients c).pc = pc at *
  cases pc with
  | lockFeed => exact hfeedlock (hlock rfl) ho
  | unlockFeed ret => exact hfeedlock (hlocked rfl) ho
  | put =>
    -- the put, and the wake-up of `inq` behind it
    have hpast := hput rfl
    cases ho with
    | head =>
      exact (hinv.placed.control .allocFifoUser _ rfl).mpr (hpast.of_place_le (by decide))
    | tail _ ho =>
      rw [List.mem_singleton.mp ho]
      exact (hinv.placed.control .initInq _ rfl).mpr hpast
  | testLen =>
    obtain ⟨hkernel, hreadq⟩ := hreplies rfl
    cases ho with
    | head => exact hkernel
    | tail _ ho =>
      split at ho
      · exact absurd ho List.not_mem_nil
      · rw [List.mem_singleton.mp ho]
        exact hreadq
  | retestLen | get =>
    rw [List.mem_singleton.mp ho]
    exact (hreplies rfl).1
  | _ => exact absurd ho List.not_mem_nil

/-- A release begins with the FIFO that is allocated last. -/
private theorem releaseUses_initialised {hd : HandleId} (hinv : LoadInv s)
    (hok : s.ComesLate (.channel (.releaseHandle hd))) :
    ∀ o ∈ releaseUses (s.channel.handles hd), o ∈ s.initialised := by
  intro o ho
  have hreleased := hinv.inUse.released hd
  have hopened : s.channel.handles hd = .opened → s.Past .allocFifoKernel := hok
  generalize s.channel.handles hd = pc at *
  cases pc with
  | opened =>
    rw [List.mem_singleton.mp ho]
    exact (hinv.placed.control .allocFifoKernel _ rfl).mpr (hopened rfl)
  | kernelReset =>
    rw [List.mem_singleton.mp ho]
    have hpast : s.Past .allocFifoUser := (hreleased rfl).of_place_le (by decide)
    exact (hinv.placed.control .allocFifoUser _ rfl).mpr hpast
  | _ => exact absurd ho List.not_mem_nil

/-- What a statement in the control device touches is initialised. -/
private theorem deviceUses_initialised {p : ProcessId} (hinv : LoadInv s)
    (hok : s.ComesLate (.device p)) :
    ∀ o ∈ deviceUses s.channel (s.processes p), o ∈ s.initialised := by
  intro o ho
  have hready := hinv.inUse.processes p
  have honly : ∀ stmt o', stmt.object = some o' → s.Past stmt → o ∈ [o'] → o ∈ s.initialised := by
    intro stmt o' hobj hpast hmem
    rw [List.mem_singleton.mp hmem]
    exact (hinv.placed.control stmt o' hobj).mpr hpast
  simp only [ComesLate] at hok
  generalize s.processes p = pc at *
  cases pc with
  | pollInq => exact honly .initInq .inq rfl hok ho
  | pollOutq => exact honly .initOutq .outq rfl hok ho
  | pollLen =>
    -- `init_waitqueue_head(&inq)` comes after the allocations
    exact honly .allocFifoUser .controlFifoUser rfl (Past.of_place_le hready (by decide)) ho
  | readLen => exact honly .allocFifoUser .controlFifoUser rfl hok ho
  | readGet => exact honly .allocFifoUser .controlFifoUser rfl hready ho
  | readWait =>
    cases List.mem_cons.mp ho with
    | inl hfifo =>
      exact honly .allocFifoUser .controlFifoUser rfl hready (List.mem_singleton.mpr hfifo)
    | inr hqueue =>
      split at hqueue
      · exact absurd hqueue List.not_mem_nil
      · rename_i hempty
        exact honly .initInq .inq rfl (hok (by omega)) hqueue
  | writeLen => exact honly .allocFifoKernel .controlFifoKernel rfl hok ho
  | writePut => exact honly .allocFifoKernel .controlFifoKernel rfl hready ho
  | writeWait =>
    cases List.mem_cons.mp ho with
    | inl hfifo =>
      exact honly .allocFifoKernel .controlFifoKernel rfl hready (List.mem_singleton.mpr hfifo)
    | inr hqueue =>
      split at hqueue
      · exact absurd hqueue List.not_mem_nil
      · rename_i hfull
        have hle := s.channel.controlFifoKernel.len_le
        exact honly .initOutq .outq rfl (hok (by omega)) hqueue
  | writeWake => exact honly .initReadq .controlReadq rfl hok ho
  | idle | writeTest => exact absurd ho List.not_mem_nil

/-- A call that has come late enough operates on what has been initialised. -/
private theorem usesInitialised_of_comesLate {s' : LoadState} {a : LoadAction}
    (hinv : LoadInv s) (hok : s.ComesLate a) : s.UsesInitialised a s' := by
  intro o ho
  cases a with
  | channel a =>
    cases a with
    | client c => exact clientUses_initialised hinv hok o ho
    | releaseHandle hd => exact releaseUses_initialised hinv hok o ho
    | _ => exact absurd ho List.not_mem_nil
  | device p => exact deviceUses_initialised hinv hok o ho
  | _ => exact absurd ho List.not_mem_nil

/-- A call that operates on what has been initialised has come late enough. -/
private theorem comesLate_of_usesInitialised {s' : LoadState} {a : LoadAction}
    (hinv : Placed s) (h : s.UsesInitialised a s') : s.ComesLate a := by
  -- each statement touches its object first, and that object is there once its statement is past
  cases a with
  | channel a =>
    cases a with
    | client c =>
      constructor
      · intro hpc
        apply (hinv.control .initInq .inq rfl).mp
        apply h
        simp [uses, clientUses, hpc]
      · intro hpc id hid
        apply (hinv.feedlock id).mp
        apply h
        simp [uses, clientUses, hpc, hid]
    | releaseHandle hd =>
      intro hpc
      apply (hinv.control .allocFifoKernel .controlFifoKernel rfl).mp
      apply h
      simp [uses, releaseUses, hpc]
    | _ => trivial
  | device p =>
    have hpast : ∀ stmt o, stmt.object = some o → o ∈ deviceUses s.channel (s.processes p) →
        s.Past stmt := fun stmt o hobj ho => (hinv.control stmt o hobj).mp (h o ho)
    simp only [ComesLate]
    generalize s.processes p = pc at *
    cases pc with
    | pollInq => exact hpast .initInq .inq rfl (by simp [deviceUses])
    | pollOutq => exact hpast .initOutq .outq rfl (by simp [deviceUses])
    | readLen => exact hpast .allocFifoUser .controlFifoUser rfl (by simp [deviceUses])
    | readWait =>
      intro hempty
      exact hpast .initInq .inq rfl (by simp [deviceUses, hempty])
    | writeLen => exact hpast .allocFifoKernel .controlFifoKernel rfl (by simp [deviceUses])
    | writeWait =>
      intro hfull
      exact hpast .initOutq .outq rfl (by simp [deviceUses, hfull])
    | writeWake => exact hpast .initReadq .controlReadq rfl (by simp [deviceUses])
    | _ => trivial
  | _ => trivial

/-- Every step that comes late enough keeps both parts. -/
private theorem LoadInv.step {s s' : LoadState} {a : LoadAction} (hinv : LoadInv s)
    (hok : s.ComesLate a) (h : s.step a = some s') : LoadInv s' :=
  ⟨hinv.placed.step h, hinv.inUse.step hok h⟩

end LoadState

/-- The calls of a run only operate on what has been initialised exactly when those that
    begin to operate on something come after the statement that initialises it. -/
theorem uses_initialised_iff (acts : List LoadAction) :
    Run.EveryStep LoadState.step LoadState.UsesInitialised .init acts ↔
      Run.Guarded LoadState.step LoadState.ComesLate .init acts := by
  apply Run.everyStep_iff_guarded _ _ LoadState.LoadInv.init
  · exact fun s a s' hinv hok h => hinv.step hok h
  · intro s a s' hinv _
    constructor
    · exact LoadState.comesLate_of_usesInitialised hinv.placed
    · exact LoadState.usesInitialised_of_comesLate hinv

/-- A process polls the device as soon as it is registered. -/
theorem inq_used_early :
    ¬ ∀ acts, Run.EveryStep LoadState.step LoadState.UsesInitialised .init acts := by
  intro h
  have hused := h [.controlInit true, .channel (.openHandle 0), .poll 0 0, .device 0]
  have hinq := ((((hused _ rfl).2 _ rfl).2 _ rfl).2 _ rfl).1 .inq List.mem_cons_self
  exact absurd hinq List.not_mem_nil

-- `start_feed` finds a frontend as soon as it is connected, two statements before `mutex_init`.
example :
    let acts := List.replicate 6 (.controlInit true) ++ [.channel (.openHandle 0)] ++
      List.replicate 6 (.register 0 0 true) ++
      [.channel (.call 0 (.startFeed ⟨some 0, true, 100, 0⟩) .zero)]
    ∃ s, Run.exec LoadState.step .init acts = some s ∧ s.controlInit = .returned ∧
      LoadState.uses s (.channel (.client 0)) = [.feedlock 0] ∧ .feedlock 0 ∉ s.initialised :=
  ⟨_, rfl, rfl, by decide, by decide⟩

end DvbHdhomerun
