import DvbHdhomerun.Spec.CallsReturn
import DvbHdhomerun.Spec.ReplyMatching

/-!
# One caller at a time

The waits of `hdhomerun_control_wait_for_message` are only mixed up between calls that
overlap. When a call is entered only while no other is in progress, there is at most one
message in flight, and it belongs to the client that waits: every put finds room, every get
is in turn, and every call that returns bytes returns its own reply (`one_caller`).
-/

namespace DvbHdhomerun

/-- The action delivers a signal to a client. -/
def Action.isSignal : Action → Bool
  | .signal _ => true
  | _ => false

/-- A call is entered only while none of the clients `C` is inside one. -/
def Alone (C : Finset ClientId) (s : State) : Action → Prop
  | .call _ _ _ => ∀ c ∈ C, (s.clients c).pc = .idle
  | _ => True

instance (C : Finset ClientId) (s : State) : (a : Action) → Decidable (Alone C s a)
  | .call .. => inferInstanceAs (Decidable (∀ c ∈ C, (s.clients c).pc = .idle))
  | .client _ | .signal _ | .openHandle _ | .releaseHandle _ | .daemonStart _ | .daemonExit
  | .daemonRead _ | .daemonHandle _ | .daemonStep => instDecidableTrue

/-- One call at a time, no signals, and nothing is thrown away on purpose. -/
structure Solo (C : Finset ClientId) (s : State) (a : Action) : Prop where
  alone : Alone C s a
  unsignalled : a.isSignal = false
  kept : a.isRelease = false
  running : a.isExit = false
  awaited : s.ignoresReply a = false

instance (C : Finset ClientId) (s : State) (a : Action) : Decidable (Solo C s a) :=
  decidable_of_iff
    (Alone C s a ∧ a.isSignal = false ∧ a.isRelease = false ∧ a.isExit = false ∧
      s.ignoresReply a = false)
    ⟨fun ⟨h₁, h₂, h₃, h₄, h₅⟩ => ⟨h₁, h₂, h₃, h₄, h₅⟩,
      fun ⟨h₁, h₂, h₃, h₄, h₅⟩ => ⟨h₁, h₂, h₃, h₄, h₅⟩⟩

variable {C : Finset ClientId} {s s' : State} {a : Action}

/-- With room, a call at a time is undisturbed. -/
theorem Solo.undisturbed (h : Solo C s a) (hroom : Roomy s a) : Undisturbed s a :=
  ⟨⟨hroom, h.kept, h.running⟩, h.awaited⟩

/-! ## What a step does to the messages in flight -/

/-- But for a put, no step brings more into flight. -/
private theorem volume_le (hdata : DataOk s.data) (hrel : Relayed s) (hroom : Roomy s a)
    (hs : s.step a = some s') (hput : ∀ c, a = .client c → (s.clients c).pc ≠ .put) :
    s'.data.volume ≤ s.data.volume := by
  have heff := State.step_effect hs
  generalize s'.data = d' at heff
  cases heff with
  | quiet | daemonStart => exact Nat.le_refl _
  | putRequest c hpc => exact absurd hpc (hput c rfl)
  | getReply c hpc =>
    have hlen : (s.controlFifoKernel.get sizeofControlMesg).2.len ≤ s.controlFifoKernel.len := by
      rw [Fifo.len, Fifo.get_data, List.length_drop, Fifo.len]
      omega
    simp only [Data.volume, State.data]
    omega
  | readRequest stale t b rest hpc hget =>
    -- a whole message goes from the FIFO to the daemon
    obtain ⟨pending, hframed, -⟩ := hdata.framed
    simp only [State.data_user] at hframed
    obtain ⟨pending', rfl, hframed'⟩ := read_framed stale hframed hget
    have huser := hframed.len_eq length_frame
    have huser' := hframed'.len_eq length_frame
    rw [List.length_cons, Nat.mul_succ] at huser
    simp only [Data.volume, State.data, List.length_append, List.length_singleton,
      sizeofControlMesg] at huser huser' ⊢
    omega
  | handleMessage d t mesg rest handled hserving hwriting hhandled =>
    have hone : (handled.reply.map fun reply : ControlMesg =>
        (⟨t, reply, reply.bytes⟩ : Writing)).toList.length ≤ 1 := by
      cases handled.reply <;> simp
    simp only [Data.volume, State.data, hserving, List.length_cons, sizeofControlMesg]
    omega
  | ignoreReply w hpc hflag =>
    simp only [Data.volume, State.data, Option.toList_none, List.length_nil, sizeofControlMesg]
    omega
  | putReply w hpc =>
    -- the reply is still whole, and all of it fits
    obtain ⟨r, href, -⟩ := hrel
    have hwriting : s.daemon.writing = some w := by rw [Daemon.writing, hpc]
    have hw : some w = r.current.map Writing.whole := by
      rw [← hwriting]
      exact href.writing
    obtain ⟨x, -, rfl⟩ := Option.map_eq_some_iff.mp hw.symm
    have hfits : (tagged x.1 x.2.bytes).length ≤ s.controlFifoKernel.avail := by
      simp only [Roomy, hpc] at hroom
      rwa [length_tagged]
    have hlen : (s.controlFifoKernel.put (tagged x.1 x.2.bytes)).2.len =
        s.controlFifoKernel.len + sizeofControlMesg := by
      rw [Fifo.len, Fifo.put_data_of_room hfits, List.length_append, length_tagged, x.2.size, Fifo.len]
    have hrest : x.2.bytes.drop (s.controlFifoKernel.put (tagged x.1 x.2.bytes)).1 = [] := by
      refine List.drop_eq_nil_iff.mpr ?_
      rw [length_tagged] at hfits
      rw [Fifo.put_count, length_tagged]
      omega
    simp only [Data.volume, State.data, hwriting, Writing.whole, hlen, hrest, if_true,
      Option.toList_some, Option.toList_none, List.length_nil, List.length_singleton, sizeofControlMesg]
    omega
  | resetKernel hd hpc | resetUser hd hpc =>
    simp only [Data.volume, State.data, Fifo.len, Fifo.empty, List.length_nil]
    omega
  | readNothing stale hpc hget =>
    have hlen : (s.controlFifoUser.get sizeofControlMesg).2.len ≤ s.controlFifoUser.len := by
      rw [Fifo.len, Fifo.get_data, List.length_drop, Fifo.len]
      omega
    simp only [Data.volume, State.data, Option.toList_none, List.length_nil,
      sizeofControlMesg] at hlen ⊢
    omega
  | daemonExit =>
    simp only [Data.volume, State.data, Option.toList_none, List.length_nil, sizeofControlMesg]
    omega

/-- A get that finds a whole message takes it out. -/
private theorem volume_get {c : ClientId} (hpc : (s.clients c).pc = .get)
    (hlen : sizeofControlMesg ≤ s.controlFifoKernel.len) (hs : s.step (.client c) = some s') :
    s'.data.volume + sizeofControlMesg = s.data.volume := by
  have hget : (s.controlFifoKernel.get sizeofControlMesg).2.len =
      s.controlFifoKernel.len - sizeofControlMesg := by
    rw [Fifo.len, Fifo.get_data, List.length_drop, Fifo.len]
  simp only [State.step, State.clientStep, hpc, Option.some.injEq] at hs
  rw [← hs, State.getReply_eq, State.data_returnCall]
  simp only [Data.volume, State.data, State.afterGet, hget]
  omega

/-- The replies that wait to be taken only get fewer by a get, while nobody resets the FIFO. -/
private theorem kernel_len_le (hkept : a.isRelease = false) (hs : s.step a = some s')
    (hget : ∀ c, a = .client c → (s.clients c).pc ≠ .get) :
    s.controlFifoKernel.len ≤ s'.controlFifoKernel.len := by
  have heff := State.step_effect hs
  have hkernel : s'.controlFifoKernel = s'.data.kernel := rfl
  rw [hkernel]
  generalize s'.data = d' at heff
  cases heff with
  | getReply c hpc => exact absurd hpc (hget c rfl)
  | resetKernel hd => exact Bool.noConfusion hkept
  | putReply w hpc =>
    show s.controlFifoKernel.len ≤ (s.controlFifoKernel.put (tagged w.ticket w.rest)).2.len
    rw [Fifo.len, Fifo.len, Fifo.put_data, List.length_append]
    exact Nat.le_add_right ..
  | _ => exact Nat.le_refl _

/-- A client that waits goes on waiting, for the same reply, until it gets one. -/
private theorem waiting_stays (hs : s.step a = some s') {c : ClientId}
    (hwait : (s.clients c).pc.waiting = true)
    (hleave : a = .client c → (s.clients c).pc ≠ .get ∧ (s.clients c).pc ≠ .clearWait) :
    (s'.clients c).pc.waiting = true ∧ (s'.clients c).ticket = (s.clients c).ticket := by
  -- a step of a client that does not wait is no step of `c`
  have hne : ∀ {c₀ : ClientId}, (s.clients c₀).pc.waiting = false → c ≠ c₀ := by
    rintro c₀ hpc rfl
    exact absurd (hpc.symm.trans hwait) (by decide)
  cases State.step_move hs with
  | entered c₀ r mem mesg lock hpc | lockFeed c₀ id hpc | notReady c₀ hpc | posted c₀ hpc
  | noRoom c₀ hpc | unlockFeed c₀ id ret hpc =>
    have hc : c ≠ c₀ := hne (by rw [hpc]; rfl)
    simp [State.setClient, State.returnCall, State.afterPut, Function.update_of_ne hc, hwait]
  | clearWait c₀ hpc =>
    have hc : c ≠ c₀ := by
      rintro rfl
      exact (hleave rfl).2 hpc
    simp [State.setClient, State.returnCall, Function.update_of_ne hc, hwait]
  | get c₀ hpc =>
    have hc : c ≠ c₀ := by
      rintro rfl
      exact (hleave rfl).1 hpc
    simp [State.setClient, State.returnCall, State.afterGet, Function.update_of_ne hc, hwait]
  | setWait c₀ hpc =>
    by_cases hc : c = c₀
    · subst hc
      simp [State.setClient, ClientPc.waiting]
    · simp [State.setClient, Function.update_of_ne hc, hwait]
  | clientGoes c₀ pc hgo =>
    by_cases hc : c = c₀
    · subst hc
      have hpc : pc.waiting = true := by
        cases hgo with
        | ready hpc => exact absurd hwait (by rw [hpc]; decide)
        | found | interrupted | sleep | again | get => rfl
      simp [State.setClient, hpc]
    · simp [State.setClient, Function.update_of_ne hc, hwait]
  | signalled c₀ hpc =>
    by_cases hc : c = c₀
    · subst hc
      by_cases hasleep : (s.clients c).pc = .asleep
      · simp [State.setClient, hasleep, ClientPc.waiting]
      · simp [State.setClient, hasleep, hwait]
    · simp [State.setClient, Function.update_of_ne hc, hwait]
  | finishWrite w hpc =>
    by_cases hasleep : (s.clients c).pc = .asleep
    · simp [State.finishWrite, State.setDaemonPc, State.wakeReaders, hasleep, ClientPc.waiting]
    · simp [State.finishWrite, State.setDaemonPc, State.wakeReaders, hasleep, hwait]
  | _ => exact ⟨hwait, rfl⟩

/-- No signal reaches the client, and it does not leave its wait without a reply. -/
def Client.Unsignalled (k : Client) : Prop := k.signalled = false ∧ k.pc ≠ .clearWait

/-- Without signals nobody is interrupted. -/
private theorem unsignalled_step (h : ∀ c, (s.clients c).Unsignalled) (hsignal : a.isSignal = false)
    (hs : s.step a = some s') (c : ClientId) : (s'.clients c).Unsignalled := by
  have hc := h c
  -- a changed client record, and one that returns
  have hupdate : ∀ (c₀ : ClientId) (k : Client), k.Unsignalled →
      (Function.update s.clients c₀ k c).Unsignalled := by
    intro c₀ k hk
    by_cases hc₀ : c = c₀
    · rw [hc₀, Function.update_self]
      exact hk
    · rw [Function.update_of_ne hc₀]
      exact hc
  have hreturn : ∀ (s₁ : State) (c₀ : ClientId) (k : Client) (ret : Int), s₁.clients = s.clients →
      k.signalled = false → ((s₁.returnCall c₀ k ret).clients c).Unsignalled := by
    intro s₁ c₀ k ret hcl hk
    simp only [State.returnCall, State.setClient, hcl]
    refine hupdate c₀ _ ?_
    split
    · exact ⟨rfl, by simp⟩
    · exact ⟨hk, by simp⟩
  cases State.step_move hs with
  | entered c₀ r mem mesg lock hpc =>
    refine hupdate c₀ _ ⟨rfl, ?_⟩
    show (if lock = none then ClientPc.testReady else .lockFeed) ≠ .clearWait
    split <;> simp
  | lockFeed c₀ | posted c₀ | setWait c₀ => exact hupdate c₀ _ ⟨(h c₀).1, by simp⟩
  | unlockFeed c₀ => exact hupdate c₀ _ ⟨rfl, by simp⟩
  | clientGoes c₀ pc hgo =>
    refine hupdate c₀ _ ⟨(h c₀).1, ?_⟩
    cases hgo with
    | interrupted hpc hlen hset => exact absurd ((h c₀).1.symm.trans hset) (by decide)
    | ready | found | sleep | again | get => simp
  | notReady c₀ | noRoom c₀ | clearWait c₀ | get c₀ => exact hreturn _ c₀ _ _ rfl (h c₀).1
  | signalled => exact Bool.noConfusion hsignal
  | finishWrite w hpc =>
    simp only [State.finishWrite, State.setDaemonPc, State.wakeReaders]
    split
    · exact ⟨hc.1, by simp⟩
    · exact hc
  | _ => exact hc

/-- A client comes to the get by finding that there is a reply. -/
private theorem get_step (hs : s.step a = some s') {c : ClientId} (hget : (s'.clients c).pc = .get) :
    (s.clients c).pc = .get ∨ 0 < s'.controlFifoKernel.len := by
  -- a changed client record, and one that returns
  have hupdate : ∀ (c₀ : ClientId) (k : Client), k.pc ≠ .get →
      (Function.update s.clients c₀ k c).pc = .get → (s.clients c).pc = .get := by
    intro c₀ k hk hpc
    by_cases hc : c = c₀
    · rw [hc, Function.update_self] at hpc
      exact absurd hpc hk
    · rwa [Function.update_of_ne hc] at hpc
  have hreturn : ∀ (s₁ : State) (c₀ : ClientId) (k : Client) (ret : Int), s₁.clients = s.clients →
      ((s₁.returnCall c₀ k ret).clients c).pc = .get → (s.clients c).pc = .get := by
    intro s₁ c₀ k ret hcl hpc
    simp only [State.returnCall, State.setClient, hcl] at hpc
    refine hupdate c₀ _ ?_ hpc
    split <;> simp
  cases State.step_move hs with
  | entered c₀ r mem mesg lock hpc =>
    refine .inl (hupdate c₀ _ ?_ hget)
    show (if lock = none then ClientPc.testReady else .lockFeed) ≠ .get
    split <;> simp
  | lockFeed c₀ | posted c₀ | setWait c₀ | unlockFeed c₀ => exact .inl (hupdate c₀ _ (by simp) hget)
  | notReady c₀ | noRoom c₀ | clearWait c₀ | get c₀ => exact .inl (hreturn _ c₀ _ _ rfl hget)
  | clientGoes c₀ pc hgo =>
    cases hgo with
    | get hpc hlen => exact .inr (Nat.pos_of_ne_zero hlen)
    | ready | found | interrupted | sleep | again => exact .inl (hupdate c₀ _ (by simp) hget)
  | signalled c₀ hpc =>
    by_cases hc : c = c₀
    · subst hc
      by_cases hasleep : (s.clients c).pc = .asleep
      · simp [State.setClient, hasleep] at hget
      · simp only [State.setClient, Function.update_self, hasleep, if_false] at hget
        exact .inl hget
    · simp only [State.setClient, Function.update_of_ne hc] at hget
      exact .inl hget
  | finishWrite w hpc =>
    simp only [State.finishWrite, State.setDaemonPc, State.wakeReaders] at hget
    split at hget
    · cases hget
    · exact .inl hget
  | _ => exact .inl hget

/-! ## The invariant -/

/-- With one caller at a time: one client at most is inside a call, and there is one message
    in flight exactly while it waits, its own. -/
structure SoloInv (C : Finset ClientId) (s : State) : Prop where
  settling : Settling C s
  single : ∀ c c', (s.clients c).pc ≠ .idle → (s.clients c').pc ≠ .idle → c = c'
  unsignalled : ∀ c, (s.clients c).Unsignalled
  volume : s.data.volume ≤ sizeofControlMesg * (s.waiters C).card
  own : ∀ c t, (s.clients c).pc.waiting = true → (s.clients c).ticket = some t → s.data.Holds t
  found : ∀ c, (s.clients c).pc = .get → 0 < s.controlFifoKernel.len

/-- Nobody is inside a call. -/
theorem SoloInv.init : SoloInv C .init where
  settling := .init
  single := fun _ _ h => absurd rfl h
  unsignalled := fun _ => ⟨rfl, by simp [State.init, Client.init]⟩
  volume := Nat.zero_le _
  own := fun _ _ h => absurd h (by simp [State.init, Client.init, ClientPc.waiting])
  found := fun _ h => absurd h (by simp [State.init, Client.init])

/-- A client that waits is inside a call. -/
private theorem ne_idle_of_waiting {pc : ClientPc} (h : pc.waiting = true) : pc ≠ .idle := by
  rintro rfl
  exact absurd h (by decide)

/-- Nothing is in flight while the client that is inside a call does not wait. -/
theorem SoloInv.volume_zero (h : SoloInv C s) {c : ClientId} (hinside : (s.clients c).pc ≠ .idle)
    (hwait : (s.clients c).pc.waiting = false) : s.data.volume = 0 := by
  have hnone : s.waiters C = ∅ := by
    refine Finset.filter_eq_empty_iff.mpr fun c' _ hwait' => ?_
    obtain rfl := h.single c c' hinside (ne_idle_of_waiting hwait')
    exact absurd (hwait.symm.trans hwait') (by decide)
  have hvolume := h.volume
  rw [hnone, Finset.card_empty, Nat.mul_zero] at hvolume
  exact Nat.le_zero.mp hvolume

/-- Never is there more than one message in flight. -/
theorem SoloInv.volume_le_one (h : SoloInv C s) : s.data.volume ≤ sizeofControlMesg := by
  have hcard : (s.waiters C).card ≤ 1 := by
    refine Finset.card_le_one.mpr fun c hc c' hc' => ?_
    have hwait := (Finset.mem_filter.mp hc).2
    have hwait' := (Finset.mem_filter.mp hc').2
    exact h.single c c' (ne_idle_of_waiting hwait) (ne_idle_of_waiting hwait')
  exact h.volume.trans (Nat.mul_le_mul_left _ hcard)

/-- Every put finds room. -/
theorem SoloInv.roomy (h : SoloInv C s) : Roomy s a := by
  cases a with
  | client c =>
    intro hpc
    have hvolume := h.volume_zero (c := c) (by rw [hpc]; simp) (by rw [hpc]; rfl)
    have havail := s.controlFifoUser.len_add_avail
    simp only [Data.volume, State.data, sizeofControlMesg, controlBufsize] at hvolume havail ⊢
    omega
  | daemonStep =>
    cases hpc : s.daemon.pc with
    | writePut w =>
      -- the reply being written is the only message in flight
      obtain ⟨r, href, -⟩ := h.settling.relayed
      have hwriting : s.daemon.writing = some w := by rw [Daemon.writing, hpc]
      have hw : some w = r.current.map Writing.whole := by
        rw [← hwriting]
        exact href.writing
      obtain ⟨x, -, rfl⟩ := Option.map_eq_some_iff.mp hw.symm
      have hvolume := h.volume_le_one
      have havail := s.controlFifoKernel.len_add_avail
      have hsize := x.2.size
      simp only [Roomy, hpc, Writing.whole]
      simp only [Data.volume, State.data, hwriting, Option.toList_some, List.length_singleton,
        sizeofControlMesg, controlBufsize] at hvolume havail hsize ⊢
      omega
    | _ =>
      simp only [Roomy, hpc]
  | _ => trivial

/-- A FIFO of whole messages that is not empty holds a message. -/
private theorem message_le {f : ControlFifo} {items : List (Ticket × ControlMesg)}
    (hf : Fifo.Framed frame f items) (hlen : 0 < f.len) :
    sizeofControlMesg ≤ f.len ∧ ∃ x rest, items = x :: rest := by
  have hlen' := hf.len_eq length_frame
  cases items with
  | nil =>
    rw [List.length_nil, Nat.mul_zero] at hlen'
    omega
  | cons x rest =>
    rw [List.length_cons, Nat.mul_succ] at hlen'
    exact ⟨by omega, x, rest, rfl⟩

/-- Every get finds the caller's own reply, and no other. -/
theorem SoloInv.inTurn (h : SoloInv C s) : InTurn s a := by
  cases a with
  | client c =>
    intro hpc
    have hwait : (s.clients c).pc.waiting = true := by rw [hpc]; rfl
    obtain ⟨t, ht, -⟩ := h.settling.clients.of_get hpc
    obtain ⟨r, href, -⟩ := h.settling.relayed
    have hkernel : Fifo.Framed frame s.controlFifoKernel r.answered := href.kernel
    obtain ⟨hlen, x, rest, hanswered⟩ := message_le hkernel (h.found c hpc)
    have hvolume := h.volume_le_one
    have hlen' := hkernel.len_eq length_frame
    rw [hanswered, List.length_cons, Nat.mul_succ] at hlen'
    simp only [Data.volume, State.data, sizeofControlMesg] at hvolume hlen hlen'
    -- the reply that has arrived is all there is
    have hrest : rest = [] := List.eq_nil_of_length_eq_zero (by omega)
    have hserving : s.daemon.serving = [] := List.eq_nil_of_length_eq_zero (by omega)
    have hwriting : s.daemon.writing = none := by
      cases hw : s.daemon.writing with
      | none => rfl
      | some w =>
        rw [hw, Option.toList_some, List.length_singleton] at hvolume
        omega
    have huser : s.controlFifoUser.data = [] := by
      refine List.eq_nil_of_length_eq_zero ?_
      have hzero : s.controlFifoUser.len = 0 := by omega
      exact hzero
    rw [hanswered, hrest] at hkernel
    have hall : ∀ b ∈ s.controlFifoKernel.data, b.1 = x.1 := by
      intro b hb
      obtain ⟨y, hy, hby⟩ := hkernel.mem_iff.mp hb
      rw [List.mem_singleton.mp hy] at hby
      exact mem_frame hby
    obtain ⟨b, hb, hbt⟩ : ∃ b ∈ s.controlFifoKernel.data, b.1 = t := by
      rcases h.own c t hwait ht with (⟨b, hb, -⟩ | ⟨y, hy, -⟩) | (⟨w, hw, -⟩ | hkernel')
      · rw [State.data_user, huser] at hb
        cases hb
      · rw [State.data_serving, hserving] at hy
        cases hy
      · rw [State.data_writing, hwriting] at hw
        cases hw
      · exact hkernel'
    refine ⟨t, ht, ⟨b, hb, hbt⟩, fun b' hb' => ?_⟩
    rw [hall b' hb', ← hbt, hall b hb]
  | _ => trivial

/-- Under the rule for calls nobody joins the one that is inside. -/
private theorem SoloInv.single_step (h : SoloInv C s) (halone : Alone C s a)
    (hs : s.step a = some s') (c c' : ClientId) (hc : (s'.clients c).pc ≠ .idle)
    (hc' : (s'.clients c').pc ≠ .idle) : c = c' := by
  have hold : ∀ c, (s'.clients c).pc ≠ .idle → (s.clients c).pc ≠ .idle ∨ a.caller? = some c := by
    intro c hc
    by_contra hnot
    simp only [not_or, not_not] at hnot
    exact hc (idle_step hs hnot.1 hnot.2)
  cases a with
  | call c₀ r mem =>
    -- nobody was inside
    have hidle : ∀ c, (s.clients c).pc = .idle := by
      intro c
      by_contra hne
      exact hne (halone c (h.settling.outside c hne))
    have hcaller : ∀ c, (s'.clients c).pc ≠ .idle → c₀ = c := by
      intro c hc
      rcases hold c hc with hne | hcall
      · exact absurd (hidle c) hne
      · exact Option.some.inj hcall
    rw [← hcaller c hc, hcaller c' hc']
  | client | signal | openHandle | releaseHandle | daemonStart | daemonExit | daemonRead
  | daemonHandle | daemonStep =>
    refine h.single c c' ((hold c hc).resolve_right ?_) ((hold c' hc').resolve_right ?_)
    · exact fun hcall => by cases hcall
    · exact fun hcall => by cases hcall

/-- Nothing is in flight that nobody waits for. -/
private theorem SoloInv.volume_step (h : SoloInv C s) (hsettling : Settling C s')
    (hs : s.step a = some s') :
    s'.data.volume ≤ sizeofControlMesg * (s'.waiters C).card := by
  have hroom : Roomy s a := h.roomy
  -- a client that waits afterwards is one of those counted
  have hcount : ∀ c, (s'.clients c).pc.waiting = true → 1 ≤ (s'.waiters C).card := by
    intro c hwait
    have hmem : c ∈ s'.waiters C :=
      Finset.mem_filter.mpr ⟨hsettling.outside c (ne_idle_of_waiting hwait), hwait⟩
    exact Finset.card_pos.mpr ⟨c, hmem⟩
  by_cases hput : ∃ c, a = .client c ∧ (s.clients c).pc = .put
  · obtain ⟨c, rfl, hpc⟩ := hput
    have hzero := h.volume_zero (c := c) (by rw [hpc]; simp) (by rw [hpc]; rfl)
    have hvolume := volume_put hroom hpc hs
    have hwait : (s'.clients c).pc.waiting = true := by
      rw [step_put_of_room hroom hpc hs]
      simp [State.setClient, ClientPc.waiting]
    have hpos := hcount c hwait
    rw [hvolume, hzero, Nat.zero_add]
    exact Nat.le_mul_of_pos_right _ hpos
  · have hle := volume_le h.settling.data h.settling.relayed hroom hs
      fun c ha hpc => hput ⟨c, ha, hpc⟩
    by_cases hwaits : ∃ c, (s.clients c).pc.waiting = true
    · obtain ⟨c, hwait⟩ := hwaits
      by_cases hget : a = .client c ∧ (s.clients c).pc = .get
      · -- the only message in flight is taken out
        obtain ⟨rfl, hpc⟩ := hget
        obtain ⟨r, href, -⟩ := h.settling.relayed
        have hkernel : Fifo.Framed frame s.controlFifoKernel r.answered := href.kernel
        have hvolume := volume_get hpc (message_le hkernel (h.found c hpc)).1 hs
        have hone := h.volume_le_one
        have hzero : s'.data.volume = 0 := by omega
        rw [hzero]
        exact Nat.zero_le _
      · have hstays := waiting_stays hs hwait fun ha =>
          ⟨fun hpc => hget ⟨ha, hpc⟩, (h.unsignalled c).2⟩
        have hpos := hcount c hstays.1
        calc s'.data.volume ≤ s.data.volume := hle
          _ ≤ sizeofControlMesg := h.volume_le_one
          _ ≤ sizeofControlMesg * (s'.waiters C).card := Nat.le_mul_of_pos_right _ hpos
    · have hnone : s.waiters C = ∅ :=
        Finset.filter_eq_empty_iff.mpr fun c _ hwait => hwaits ⟨c, hwait⟩
      have hvolume := h.volume
      rw [hnone, Finset.card_empty, Nat.mul_zero] at hvolume
      omega

/-- Nothing that a single caller waits for is thrown away. -/
private theorem SoloInv.keeps (h : SoloInv C s) (hok : Solo C s a) (hs : s.step a = some s')
    {c : ClientId} (hwait : (s.clients c).pc.waiting = true)
    (hget : a = .client c → (s.clients c).pc ≠ .get) (t : Ticket) : ¬ Discards s t a := by
  -- the daemon only reads what is there
  have hread : ∀ stale, a = .daemonRead stale → s.controlFifoUser.data ≠ [] := by
    rintro stale rfl hempty
    have hpc : s.daemon.pc = .readGet := by
      cases State.step_move hs with
      | readNothing _ hpc | readRequest _ _ _ _ hpc => exact hpc
    have hlen := h.settling.daemon.readable hpc
    rw [Fifo.len, hempty] at hlen
    cases hlen
  rintro (hdrop | hdrop)
  · cases hdrop with
    | resetUser hd => exact Bool.noConfusion hok.kept
    | readNothing stale hempty => exact hread stale rfl hempty
    | daemonExit => exact Bool.noConfusion hok.running
  · cases hdrop with
    | take c' hpc ht =>
      obtain rfl := h.single c c' (ne_idle_of_waiting hwait) (by rw [hpc]; simp)
      exact hget rfl hpc
    | ignore w hpc hflag =>
      have hawaited := hok.awaited
      simp [State.ignoresReply, hpc, DaemonPc.testsWrite, hflag] at hawaited
    | resetKernel hd => exact Bool.noConfusion hok.kept
    | readNothing stale hempty => exact hread stale rfl hempty
    | daemonExit => exact Bool.noConfusion hok.running

/-- Whoever waits has its own message in flight. -/
private theorem SoloInv.own_step (h : SoloInv C s) (hok : Solo C s a) (hs : s.step a = some s')
    (c : ClientId) (t : Ticket) (hwait' : (s'.clients c).pc.waiting = true)
    (ht : (s'.clients c).ticket = some t) : s'.data.Holds t := by
  by_cases hwait : (s.clients c).pc.waiting = true
  · have hget : a = .client c → (s.clients c).pc ≠ .get := by
      rintro rfl hpc
      exact absurd ((waiting_get hpc hs).symm.trans hwait') (by decide)
    obtain ⟨-, hticket⟩ := waiting_stays hs hwait fun ha => ⟨hget ha, (h.unsignalled c).2⟩
    have hold := h.own c t hwait (hticket ▸ ht)
    exact holds_step h.settling.data hold (h.keeps hok hs hwait hget t) hs
  · -- the request has just been posted
    rcases waiting_step hs hwait' with hold | ⟨rfl, hpc⟩
    · exact absurd hold hwait
    · have hroom : Roomy s (.client c) := h.roomy
      have hstep := step_put_of_room hroom hpc hs
      have hatt : s'.hist.attempts = s.hist.attempts ++ [⟨c, (s.clients c).mesg, s.postResult c⟩] := by
        rw [hstep]
        rfl
      have hticket : s.hist.attempts.length = t := by
        rw [hstep] at ht
        simpa [State.setClient] using ht
      have hposted := unserved_posted hs hatt (State.postResult_eq_one_iff.mpr (hroom hpc))
      rw [hticket] at hposted
      exact .inl hposted

/-- Whoever is about to get finds something there. -/
private theorem SoloInv.found_step (h : SoloInv C s) (hok : Solo C s a) (hs : s.step a = some s')
    (c : ClientId) (hget : (s'.clients c).pc = .get) : 0 < s'.controlFifoKernel.len := by
  rcases get_step hs hget with hpc | hlen
  · -- nobody else takes the reply that the client has found
    refine Nat.lt_of_lt_of_le (h.found c hpc) (kernel_len_le hok.kept hs fun c' ha hpc' => ?_)
    obtain rfl := h.single c c' (by rw [hpc]; simp) (by rw [hpc']; simp)
    subst ha
    have hleft := waiting_get hpc' hs
    rw [hget] at hleft
    exact absurd hleft (by decide)
  · exact hlen

/-- One step. -/
theorem SoloInv.step (h : SoloInv C s) (hok : Solo C s a) (hcall : ∀ c, a.caller? = some c → c ∈ C)
    (hs : s.step a = some s') : SoloInv C s' := by
  have hsettling : Settling C s' := h.settling.step (hok.undisturbed h.roomy) hcall hs
  exact ⟨hsettling, h.single_step hok.alone hs, unsignalled_step h.unsignalled hok.unsignalled hs,
    h.volume_step hsettling hs, h.own_step hok hs, h.found_step hok hs⟩

/-! ## Runs -/

/-- When calls are made one at a time, without signals, and the daemon neither ends nor has
    its reply ignored, no put is refused, no get is out of turn, and every call that returns
    bytes returns the daemon's whole reply to its own request. -/
theorem one_caller {acts : List Action}
    (hok : Run.Guarded State.step (Solo (callers acts)) .init acts) :
    Run.Guarded State.step Undisturbed .init acts ∧ Run.Guarded State.step InTurn .init acts ∧
      Run.EveryState State.step RepliesMatched .init acts := by
  let C := callers acts
  have hcall : ∀ a ∈ acts, ∀ c, a.caller? = some c → c ∈ C := fun a ha c hc =>
    List.mem_toFinset.mpr (List.mem_filterMap.mpr ⟨a, ha, hc⟩)
  have hall := hok.and (Run.EveryStep.of_forall hcall)
  have hstep : ∀ s a s', SoloInv C s → Solo C s a ∧ (∀ c, a.caller? = some c → c ∈ C) →
      s.step a = some s' → SoloInv C s' := fun s a s' h ha hs => h.step ha.1 ha.2 hs
  refine ⟨?_, ?_, ?_⟩
  · exact Run.EveryStep.of_invariant hstep (fun s a s' h ha _ => ha.1.undisturbed h.roomy) .init hall
  · exact Run.EveryStep.of_invariant hstep (fun s a s' h _ _ => h.inTurn) .init hall
  · have h₀ : SoloInv C .init ∧ MatchInv .init := ⟨.init, .init, .init, fun _ h => by cases h⟩
    have hkeeps : ∀ s a s', SoloInv C s ∧ MatchInv s →
        Solo C s a ∧ (∀ c, a.caller? = some c → c ∈ C) → s.step a = some s' →
        SoloInv C s' ∧ MatchInv s' := by
      rintro s a s' ⟨hinv, hmatch⟩ ha hs
      have hturn : TakesInTurn s a := ⟨hinv.roomy, hinv.inTurn⟩
      exact ⟨hstep s a s' hinv ha hs, hmatch.relayed.step hinv.roomy hs, hmatch.clients.step hs,
        matched_step hmatch hturn hs⟩
    exact Run.EveryState.of_invariant hkeeps (fun s h => h.2.matched) h₀ hall

/-- Two clients call one after the other. -/
theorem one_caller_two :
    let acts := Schedule.roundTrip ++ Schedule.post 1 (.feReadSignalStrength 0) ++
      Schedule.sleep 1 ++ Schedule.serve ++ Schedule.write ++ Schedule.take 1
    ∃ s, State.run acts = some s ∧ s.hist.returned.map (·.ticket) = [some 0, some 1] ∧
      RepliesMatched s := by
  intro acts
  let s := (State.run acts).get (by decide)
  have hrun : State.run acts = some s := (Option.some_get _).symm
  have hok : Run.Guarded State.step (Solo (callers acts)) .init acts := by decide
  exact ⟨s, hrun, by decide, (one_caller hok).2.2.last hrun⟩

end DvbHdhomerun
