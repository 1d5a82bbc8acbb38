import DvbHdhomerun.Spec.ChannelClients
import DvbHdhomerun.Spec.ChannelRelay

/-!
# Stack contents that reach user space

Every caller builds its `struct dvbhdhomerun_control_mesg` in a local variable that is not
initialised, and none of them writes the whole of it: bytes 12 to 31 of every message that
is posted are whatever the kernel stack held. `hdhomerun_control_read` copies them out.

Two runs that differ in nothing but these contents go in lockstep until the daemon reads
the first message; from then on the daemon may even act on them, since a put into an almost
full FIFO shifts the messages that follow.
-/

namespace DvbHdhomerun

/-- The same action, up to what a caller's message held before the call. -/
inductive Action.SameCall : Action → Action → Prop where
  | call (c : ClientId) (r : Request) (mem mem' : ControlMesg) :
    SameCall (.call c r mem) (.call c r mem')
  | refl (a : Action) : SameCall a a

/-- The bytes `hdhomerun_control_read` returns in a step. -/
def State.bytesRead (s : State) : Action → List (List UInt8)
  | .daemonRead _ => [(s.controlFifoUser.get sizeofControlMesg).1.map Prod.snd]
  | _ => []

/-- The bytes returned by every read of a run, in order. -/
def bytesRead (acts : List Action) : List (List UInt8) :=
  Run.output State.step State.bytesRead .init acts

/-- What the daemon reads does not depend on what the callers' messages held before. -/
def StackHidden (acts : List Action) : Prop :=
  ∀ acts', List.Forall₂ Action.SameCall acts acts' → bytesRead acts = bytesRead acts'

/-- A read finds no message. -/
def ReadsNothing (s : State) : Action → Prop
  | .daemonRead _ => s.controlFifoUser.data = []
  | _ => True

/-! ## States that differ in the contents of messages only -/

/-- Two client records with the same control flow ahead of them. -/
structure Client.Alike (k l : Client) : Prop where
  pc : k.pc = l.pc
  request : k.request = l.request
  lock : k.lock = l.lock
  signalled : k.signalled = l.signalled

/-- Two states that differ in the messages of the clients, in the bytes of
    `control_fifo_user`, and in the record of what happened. -/
structure State.Alike (s t : State) : Prop where
  ready : s.userspaceReady = t.userspaceReady
  wait : s.waitForWrite = t.waitForWrite
  user : s.controlFifoUser.len = t.controlFifoUser.len
  kernel : s.controlFifoKernel = t.controlFifoKernel
  feedlock : s.feedlock = t.feedlock
  clients : ∀ c, (s.clients c).Alike (t.clients c)
  handles : s.handles = t.handles
  daemon : s.daemon = t.daemon

/-- A client is like itself. -/
theorem Client.Alike.refl (k : Client) : k.Alike k := ⟨rfl, rfl, rfl, rfl⟩

/-- A state is like itself. -/
theorem State.Alike.refl (s : State) : s.Alike s :=
  ⟨rfl, rfl, rfl, rfl, rfl, fun _ => .refl _, rfl, rfl⟩

namespace State.Alike

variable {s t : State} {c : ClientId} {k l : Client}

/-- Clients that are alike stay so after one of them has been replaced by one like it. -/
private theorem update (h : s.Alike t) (hk : k.Alike l) (c' : ClientId) :
    (Function.update s.clients c k c').Alike (Function.update t.clients c l c') := by
  by_cases hc : c' = c
  · subst hc
    rw [Function.update_self, Function.update_self]
    exact hk
  · rw [Function.update_of_ne hc, Function.update_of_ne hc]
    exact h.clients c'

/-- Alike states stay alike when a client is replaced by one like it. -/
private theorem setClient (h : s.Alike t) (hk : k.Alike l) :
    (s.setClient c k).Alike (t.setClient c l) :=
  { h with clients := h.update hk }

/-- Alike states stay alike when alike clients return the same value. -/
private theorem returnCall (h : s.Alike t) (hk : k.Alike l) (ret : Int) :
    (s.returnCall c k ret).Alike (t.returnCall c l ret) := by
  refine { h with clients := h.update ?_ }
  rw [hk.lock]
  split
  · exact ⟨rfl, hk.request, rfl, rfl⟩
  · exact ⟨rfl, hk.request, rfl, hk.signalled⟩

/-- Building a message succeeds or fails whatever its memory held. -/
private theorem build_cases (r : Request) (mem mem' : ControlMesg) :
    (∃ e, r.build mem = .error e ∧ r.build mem' = .error e) ∨
      ∃ lock m m', r.build mem = .ok (lock, m) ∧ r.build mem' = .ok (lock, m') := by
  cases r with
  | startFeed feed =>
    simp only [Request.build, dvbHdhomerunStartFeed]
    split
    · exact .inl ⟨_, rfl, rfl⟩
    · split
      · exact .inl ⟨_, rfl, rfl⟩
      · exact .inr ⟨_, _, _, rfl, rfl⟩
  | stopFeed feed =>
    simp only [Request.build, dvbHdhomerunStopFeed]
    split
    · exact .inl ⟨_, rfl, rfl⟩
    · exact .inr ⟨_, _, _, rfl, rfl⟩
  | _ => exact .inr ⟨_, _, _, rfl, rfl⟩

/-- A call entered with different memory leaves the states alike. -/
private theorem startCall (h : s.Alike t) (r : Request) (mem mem' : ControlMesg) :
    (s.startCall c r mem).Alike (t.startCall c r mem') := by
  simp only [State.startCall]
  rcases build_cases r mem mem' with ⟨e, hb, hb'⟩ | ⟨lock, m, m', hb, hb'⟩
  · rw [hb, hb']
    exact { h with }
  · rw [hb, hb']
    exact h.setClient ⟨rfl, rfl, rfl, rfl⟩

/-- The request FIFOs of alike states are empty together. -/
private theorem user_nil (h : s.Alike t) (hempty : s.controlFifoUser.data = []) :
    t.controlFifoUser.data = [] := by
  have hlen := h.user
  rw [Fifo.len, hempty] at hlen
  exact List.eq_nil_of_length_eq_zero hlen.symm

/-- A post has the same result in alike states. -/
private theorem postResult (h : s.Alike t) : s.postResult c = t.postResult c := by
  have havail : s.controlFifoUser.avail = t.controlFifoUser.avail := by
    rw [Fifo.avail, h.user, Fifo.avail]
  simp only [State.postResult, Fifo.put_count, State.length_request, havail]

/-- The FIFOs and histories behind a put are alike. -/
private theorem afterPut (h : s.Alike t) : (s.afterPut c).Alike (t.afterPut c) := by
  refine { h with user := ?_ }
  have havail : s.controlFifoUser.avail = t.controlFifoUser.avail := by
    rw [Fifo.avail, h.user, Fifo.avail]
  have huser := h.user
  simp only [Fifo.len] at huser
  simp only [State.afterPut, Fifo.len, Fifo.put_data, List.length_append, List.length_take,
    State.length_request, havail, huser]

/-- A post leaves alike states alike. -/
private theorem putRequest (h : s.Alike t) :
    (s.putRequest c (s.clients c)).Alike (t.putRequest c (t.clients c)) := by
  have hc := h.clients c
  rw [putRequest_eq, putRequest_eq, h.postResult]
  split
  · exact h.afterPut.setClient ⟨rfl, hc.request, hc.lock, hc.signalled⟩
  · apply h.afterPut.returnCall
    exact ⟨hc.pc, hc.request, hc.lock, hc.signalled⟩

/-- A get leaves alike states alike: the replies are the same. -/
private theorem getReply (h : s.Alike t) :
    (s.getReply c (s.clients c)).Alike (t.getReply c (t.clients c)) := by
  have hc := h.clients c
  have hoff : s.afterGet.Alike t.afterGet :=
    { h with kernel := by simp only [State.afterGet, h.kernel] }
  have hret : s.oldestReply = t.oldestReply := by
    rw [State.oldestReply, h.kernel, State.oldestReply]
  rw [getReply_eq, getReply_eq, hret]
  apply hoff.returnCall
  exact ⟨hc.pc, hc.request, hc.lock, hc.signalled⟩

/-- Every statement of a client is possible in both states or in none, and leaves them alike. -/
private theorem clientStep (h : s.Alike t) (c : ClientId) :
    Option.Rel State.Alike (s.clientStep c) (t.clientStep c) := by
  have hc := h.clients c
  simp only [State.clientStep, ← hc.pc]
  -- no statement of a client looks at its message, apart from the put
  cases hpc : (s.clients c).pc with
  | idle => exact .none
  | lockFeed =>
    simp only [lockFeedlock, ← hc.lock, ← h.feedlock]
    split
    · exact .none
    · split
      · exact .none
      · exact .some { h with
          feedlock := rfl
          clients := h.update ⟨rfl, hc.request, rfl, hc.signalled⟩ }
  | testReady =>
    simp only [testUserspaceReady, ← h.ready]
    split
    · exact .some (h.setClient ⟨rfl, hc.request, hc.lock, hc.signalled⟩)
    · exact .some (h.returnCall hc _)
  | put => exact .some h.putRequest
  | setWait =>
    exact .some { h with
      wait := rfl
      clients := h.update ⟨rfl, hc.request, hc.lock, hc.signalled⟩ }
  | testLen =>
    simp only [testKernelLen, ← h.kernel, ← hc.signalled]
    split
    · exact .some (h.setClient ⟨rfl, hc.request, hc.lock, rfl⟩)
    · split
      · exact .some (h.setClient ⟨rfl, hc.request, hc.lock, rfl⟩)
      · exact .some (h.setClient ⟨rfl, hc.request, hc.lock, rfl⟩)
  | asleep => exact .none
  | clearWait =>
    have hclear : State.Alike { s with waitForWrite := false } { t with waitForWrite := false } :=
      { h with wait := rfl }
    exact .some (hclear.returnCall hc _)
  | retestLen =>
    simp only [retestKernelLen, ← h.kernel]
    split
    · exact .some (h.setClient ⟨rfl, hc.request, hc.lock, hc.signalled⟩)
    · exact .some (h.setClient ⟨rfl, hc.request, hc.lock, hc.signalled⟩)
  | get => exact .some h.getReply
  | unlockFeed ret =>
    simp only [unlockFeedlock, ← hc.lock, ← h.feedlock]
    split
    · exact .none
    · exact .some { h with
        feedlock := rfl
        clients := h.update ⟨rfl, hc.request, rfl, rfl⟩ }

/-- A signal leaves alike states alike. -/
private theorem signalClient (h : s.Alike t) (c : ClientId) :
    Option.Rel State.Alike (s.signalClient c) (t.signalClient c) := by
  have hc := h.clients c
  simp only [State.signalClient, ← hc.pc]
  split
  · exact .none
  · exact .some (h.setClient ⟨rfl, hc.request, hc.lock, rfl⟩)
  · exact .some (h.setClient ⟨rfl, hc.request, hc.lock, rfl⟩)

/-- Opening a handle leaves alike states alike. -/
private theorem openStep (h : s.Alike t) (hd : HandleId) :
    Option.Rel State.Alike (s.openStep hd) (t.openStep hd) := by
  simp only [State.openStep, ← h.handles]
  split
  · exact .some { h with handles := rfl, ready := rfl }
  · exact .none

/-- Every statement of a release leaves alike states alike. -/
private theorem releaseStep (h : s.Alike t) (hd : HandleId) :
    Option.Rel State.Alike (s.releaseStep hd) (t.releaseStep hd) := by
  simp only [State.releaseStep, ← h.handles]
  split
  · exact .none
  · exact .some { h with handles := rfl, kernel := rfl }
  · exact .some { h with handles := rfl, user := rfl }
  · exact .some { h with handles := rfl, wait := rfl }
  · exact .some { h with handles := rfl, ready := rfl }

/-- Alike states stay alike when the daemon goes on to the same statement. -/
private theorem setDaemonPc (h : s.Alike t) (pc : DaemonPc) :
    (s.setDaemonPc pc).Alike (t.setDaemonPc pc) :=
  { h with daemon := by simp only [State.setDaemonPc, h.daemon] }

/-- The wake-up wakes the same clients. -/
private theorem wakeReaders (h : s.Alike t) : s.wakeReaders.Alike t.wakeReaders := by
  refine { h with clients := fun c => ?_ }
  have hc := h.clients c
  simp only [State.wakeReaders, ← hc.pc]
  split
  · exact ⟨rfl, hc.request, hc.lock, hc.signalled⟩
  · exact hc

/-- Every statement of the daemon leaves alike states alike. -/
private theorem daemonStep (h : s.Alike t) :
    Option.Rel State.Alike s.daemonStep t.daemonStep := by
  simp only [State.daemonStep, ← h.daemon, ← h.user, ← h.kernel, ← h.wait]
  -- of `control_fifo_user` only the length is looked at
  split
  · exact .none
  · split
    · exact .some (h.setDaemonPc _)
    · exact .none
  · exact .none
  · split
    · exact .some (h.setDaemonPc _)
    · exact .none
  · split
    · exact .some (h.setDaemonPc _)
    · exact .some (h.setDaemonPc _)
  · split
    · exact .some (h.setDaemonPc _)
    · exact .some (h.setDaemonPc _)
  · split
    · exact .some (h.setDaemonPc _)
    · exact .some (h.setDaemonPc _)
  · exact .none
  · rename_i w _
    exact .some { h with
      kernel := by simp only [putReply, h.kernel]
      daemon := by simp only [putReply, h.kernel, h.daemon] }
  · exact .some (h.wakeReaders.setDaemonPc _)
  · exact .some { h with daemon := rfl, wait := rfl, kernel := rfl }

/-- A handler that is given the same message leaves alike states alike. -/
private theorem handleMessage (h : s.Alike t) (x : Ticket) (mesg : ControlMesg)
    (d : DeviceResults) : (s.handleMessage x mesg d).Alike (t.handleMessage x mesg d) :=
  { h with daemon := by simp only [State.handleMessage, h.daemon] }

/-- A read that finds nothing ends the daemon. -/
private theorem readRequest_nothing (s : State) (stale : ControlMesg)
    (hempty : s.controlFifoUser.data = []) :
    s.readRequest stale =
      { s with controlFifoUser := (s.controlFifoUser.get sizeofControlMesg).2 }.exitDaemon := by
  have hitems : (s.controlFifoUser.get sizeofControlMesg).1 = [] := by
    rw [Fifo.get_items, hempty, List.take_nil]
  simp only [State.readRequest, hitems]

/-- A read leaves states alike in which the same bytes are read. -/
private theorem readRequest (h : s.Alike t) (stale : ControlMesg)
    (hempty : s.controlFifoUser.data = []) :
    (s.readRequest stale).Alike (t.readRequest stale) := by
  have hempty' := h.user_nil hempty
  rw [readRequest_nothing s stale hempty, readRequest_nothing t stale hempty']
  refine { h with user := ?_, daemon := rfl }
  simp only [State.exitDaemon, Fifo.len, Fifo.get_data, hempty, hempty']

/-- A step takes states that are alike to states that are alike, unless the daemon reads a
    message. -/
private theorem step {a b : Action} (h : s.Alike t) (hab : a.SameCall b)
    (hread : ∀ s', s.step a = some s' → ReadsNothing s a) :
    Option.Rel State.Alike (s.step a) (t.step b) := by
  -- only a call can differ, in what its message held before
  cases hab with
  | call c r mem mem' =>
    simp only [State.step, ← (h.clients c).pc]
    split
    · exact .some (h.startCall r mem mem')
    · exact .none
  | refl =>
    cases a with
    | call c r mem =>
      simp only [State.step, ← (h.clients c).pc]
      split
      · exact .some (h.startCall r mem mem)
      · exact .none
    | client c => exact h.clientStep c
    | signal c => exact h.signalClient c
    | openHandle hd => exact h.openStep hd
    | releaseHandle hd => exact h.releaseStep hd
    | daemonStart tuners =>
      simp only [State.step, startDaemon, ← h.daemon]
      split
      · exact .some { h with daemon := rfl }
      · exact .none
    | daemonExit =>
      simp only [State.step, ← h.daemon]
      split
      · exact .none
      · exact .some { h with daemon := rfl }
    | daemonRead stale =>
      simp only [State.step, ← h.daemon] at hread ⊢
      split
      · rename_i hpc
        exact .some (h.readRequest stale (hread _ (if_pos hpc)))
      · exact .none
    | daemonHandle d =>
      simp only [State.step, ← h.daemon]
      split
      · exact .some (h.handleMessage ..)
      · exact .none
    | daemonStep => exact h.daemonStep

end State.Alike

/-! ## The first message that is read -/

/-- A client that has not posted yet holds the stack contents `p` in its message. -/
private def Client.Carries (p : List UInt8) (k : Client) : Prop :=
  k.pc.before = true → k.mesg.bytes.slice 12 20 = p

/-- The stack contents of every caller are `p`, and the oldest message in
    `control_fifo_user`, if there is one, is whole and carries them. -/
private structure StackInv (p : List UInt8) (s : State) : Prop where
  clients : ∀ c, (s.clients c).Carries p
  user : s.controlFifoUser.data ≠ [] → 36 ≤ s.controlFifoUser.data.length ∧
    (s.controlFifoUser.data.map Prod.snd).slice 12 20 = p

/-- Every call of the action finds the stack contents `p`. -/
private def CallsCarry (p : List UInt8) : Action → Prop
  | .call _ _ mem => mem.bytes.slice 12 20 = p
  | _ => True

/-- The memory of the clients goes on when one of them is replaced by one that carries it. -/
private theorem carries_update {p : List UInt8} {f : ClientId → Client} {c : ClientId} {k : Client}
    (h : ∀ c, (f c).Carries p) (hk : k.Carries p) : ∀ c', (Function.update f c k c').Carries p :=
  (Function.forall_update_iff f fun _ k => k.Carries p).mpr ⟨hk, fun c' _ => h c'⟩

/-- A client that has posted its request need not carry anything any more. -/
private theorem carries_of_not_before {p : List UInt8} {k : Client} (h : k.pc.before = false) :
    k.Carries p := fun hb => nomatch h.symm.trans hb

/-- A client that returns carries nothing any more. -/
private theorem carries_returnCall {p : List UInt8} {s : State} (h : ∀ c, (s.clients c).Carries p)
    (c : ClientId) (k : Client) (ret : Int) (c' : ClientId) :
    ((s.returnCall c k ret).clients c').Carries p := by
  refine carries_update h (carries_of_not_before ?_) c'
  split <;> rfl

/-- A client that goes on to its next statement carries the same message. -/
private theorem carries_goes {p : List UInt8} {s : State} {c : ClientId} {pc : ClientPc}
    (h : (s.clients c).Carries p) (hgo : s.ClientGoes c pc) :
    Client.Carries p { s.clients c with pc := pc } := by
  cases hgo with
  | ready hpc => exact fun _ => h (by rw [hpc]; rfl)
  | found | interrupted | sleep | again | get => exact carries_of_not_before rfl

/-- Until it is posted, a message carries the memory it was built in. -/
private theorem carries_step {p : List UInt8} {s s' : State} {a : Action}
    (h : ∀ c, (s.clients c).Carries p) (hcall : CallsCarry p a) (hs : s.step a = some s') :
    ∀ c, (s'.clients c).Carries p := by
  -- only the bytes that a request writes change
  cases State.step_move hs with
  | entered c r mem mesg lock hpc hb =>
    exact carries_update h fun _ => (Request.untouched_build hb).trans hcall
  | lockFeed c id hpc => exact carries_update h fun _ => h c (by rw [hpc]; rfl)
  | clientGoes c pc hgo => exact carries_update h (carries_goes (h c) hgo)
  | notReady c | noRoom c | clearWait c | get c => exact carries_returnCall h c _ _
  | posted c | setWait c | unlockFeed c =>
    exact carries_update h (carries_of_not_before rfl)
  | signalled c hpc =>
    apply carries_update h
    intro hb
    apply h c
    by_cases hsleep : (s.clients c).pc = .asleep
    · simp only [hsleep] at hb
      exact nomatch hb
    · simp only [if_neg hsleep] at hb
      exact hb
  | finishWrite w hpc =>
    intro c
    show Client.Carries p (if (s.clients c).pc = .asleep then _ else s.clients c)
    split
    · exact carries_of_not_before rfl
    · exact h c
  | _ => exact h

/-- A slice of the first list is one of the two together. -/
private theorem slice_append {l m : List UInt8} {off n : Nat} (h : off + n ≤ l.length) :
    (l ++ m).slice off n = l.slice off n := by
  rw [List.slice, List.drop_append_of_le_length (by omega),
    List.take_append_of_le_length (by rw [List.length_drop]; omega), List.slice]

/-- Until the daemon reads something, every step keeps the stack contents in the messages. -/
private theorem StackInv.step {p : List UInt8} {s s' : State} {a : Action} (hinv : StackInv p s)
    (hok : ReadsNothing s a ∧ CallsCarry p a) (hs : s.step a = some s') : StackInv p s' := by
  refine ⟨carries_step hinv.clients hok.2 hs, ?_⟩
  have heff := State.step_effect hs
  show s'.data.user.data ≠ [] → 36 ≤ s'.data.user.data.length ∧
    (s'.data.user.data.map Prod.snd).slice 12 20 = p
  generalize s'.data = d' at heff
  cases heff with
  | putRequest c hpc =>
    intro _
    by_cases hempty : s.controlFifoUser.data = []
    · -- there is room for the whole of the first message
      have hroom : (s.request c).length ≤ s.controlFifoUser.avail := by
        rw [State.length_request, Fifo.avail, Fifo.len, hempty]
        decide
      rw [Fifo.put_data_of_room hroom, hempty, List.nil_append, State.length_request,
        State.request, map_snd_tagged]
      exact ⟨Nat.le_refl _, hinv.clients c (by rw [hpc]; rfl)⟩
    · -- the oldest message stays where it is
      obtain ⟨hlen, hslice⟩ := hinv.user hempty
      rw [Fifo.put_data, List.length_append, List.map_append, slice_append]
      · exact ⟨by omega, hslice⟩
      · rw [List.length_map]
        omega
  | readRequest stale t b rest hpc hget =>
    have hempty : s.controlFifoUser.data = [] := hok.1
    rw [Fifo.get_items, hempty, List.take_nil] at hget
    cases hget
  | readNothing stale hpc hget =>
    rw [Fifo.get_data, empty_of_readNothing hget, List.drop_nil]
    exact fun h => absurd rfl h
  | resetUser hd hpc => exact fun h => absurd rfl h
  | _ => exact hinv.user

/-! ## Runs -/

/-- Steps with the same calls are possible in both of two alike states or in none. -/
private theorem alike_step (s t : State) (a b : Action) (h : s.Alike t) (hab : a.SameCall b)
    (hread : ∀ s', s.step a = some s' → ReadsNothing s a) :
    Option.Rel State.Alike (s.step a) (t.step b) := h.step hab hread

/-- The daemon reads nothing in both of two alike states or in none. -/
private theorem readsNothing_alike {s t : State} {a b : Action} (h : s.Alike t)
    (hab : a.SameCall b) (hread : ReadsNothing s a) : ReadsNothing t b := by
  cases hab with
  | call => trivial
  | refl =>
    cases a with
    | daemonRead stale => exact h.user_nil hread
    | _ => trivial

/-- Where nothing is read, no bytes go to the daemon in either state. -/
private theorem bytesRead_alike {s t : State} {a b : Action} (h : s.Alike t)
    (hab : a.SameCall b) (hread : ReadsNothing s a) : s.bytesRead a = t.bytesRead b := by
  cases hab with
  | call => rfl
  | refl =>
    cases a with
    | daemonRead stale =>
      have hs : s.controlFifoUser.data = [] := hread
      have ht := h.user_nil hs
      simp only [State.bytesRead, Fifo.get_items, hs, ht]
    | _ => rfl

/-- The same action, with `mem` for what a caller's message held before. -/
private def Action.withMem (mem : ControlMesg) : Action → Action
  | .call c r _ => .call c r mem
  | a => a

/-- Schedules that differ in the memory of their calls have the same calls. -/
private theorem sameCalls_withMem (mem : ControlMesg) (acts : List Action) :
    List.Forall₂ Action.SameCall acts (acts.map (Action.withMem mem)) := by
  rw [List.forall₂_map_right_iff, List.forall₂_same]
  intro a _
  cases a with
  | call c r mem' => exact .call c r mem' mem
  | _ => exact .refl _

/-- In a schedule with one memory for all calls every call carries it. -/
private theorem callsCarry_withMem (mem : ControlMesg) (acts : List Action) :
    ∀ a ∈ acts.map (Action.withMem mem), CallsCarry (mem.bytes.slice 12 20) a := by
  intro a ha
  obtain ⟨b, -, rfl⟩ := List.mem_map.mp ha
  cases b with
  | call => rfl
  | _ => trivial

/-- A run in which every caller's stack contents are `p` and nothing is read keeps the invariant. -/
private theorem stackInv_of_run {p : List UInt8} {acts : List Action} {s : State}
    (hcarry : ∀ a ∈ acts, CallsCarry p a)
    (hguard : Run.Guarded State.step ReadsNothing .init acts)
    (hrun : Run.exec State.step .init acts = some s) : StackInv p s := by
  have hstep : ∀ s a s', StackInv p s → ReadsNothing s a ∧ CallsCarry p a →
      s.step a = some s' → StackInv p s' := fun _ _ _ => StackInv.step
  have hinit : StackInv p .init :=
    ⟨fun _ => carries_of_not_before rfl, fun h => absurd rfl h⟩
  exact (hguard.and (Run.EveryStep.of_forall hcarry)).keeps hstep hinit hrun

/-- The first read that finds a message brings the stack contents of its caller. -/
private theorem first_read {as : List Action} (bs : List Action) {a : Action} {s s' : State}
    (hrun : Run.exec State.step .init as = some s) (hs : s.step a = some s')
    (hguard : Run.Guarded State.step ReadsNothing .init as) (hread : ¬ ReadsNothing s a)
    (mem : ControlMesg) :
    ∃ x rest, bytesRead ((as ++ a :: bs).map (Action.withMem mem)) =
        Run.output State.step State.bytesRead .init as ++ x :: rest ∧
      x.slice 12 20 = mem.bytes.slice 12 20 := by
  have hsame := sameCalls_withMem mem as
  -- the run with the other stack contents comes to the same read
  have hrel := Run.exec_lockstep alike_step (.refl .init) hsame hguard
  rw [hrun] at hrel
  generalize hrun' : Run.exec State.step .init (as.map (Action.withMem mem)) = o at hrel
  cases hrel with
  | @some _ t halike =>
    have hguard' : Run.Guarded State.step ReadsNothing .init (as.map (Action.withMem mem)) :=
      Run.Guarded.lockstep alike_step (fun _ _ _ _ => readsNothing_alike) (.refl .init) hsame hguard
    have hout : Run.output State.step State.bytesRead .init as =
        Run.output State.step State.bytesRead .init (as.map (Action.withMem mem)) :=
      Run.output_lockstep alike_step (fun _ _ _ _ => bytesRead_alike) (.refl .init) hsame hguard
    have hcarries := stackInv_of_run (callsCarry_withMem mem as) hguard' hrun'
    cases a with
    | daemonRead stale =>
      have hne : t.controlFifoUser.data ≠ [] := by
        intro hempty
        have hlen := halike.user
        rw [Fifo.len, Fifo.len, hempty] at hlen
        exact hread (List.eq_nil_of_length_eq_zero hlen)
      obtain ⟨hlen, hslice⟩ := hcarries.user hne
      obtain ⟨t', ht⟩ : ∃ t', t.step (.daemonRead stale) = some t' := by
        simp only [State.step, ← halike.daemon] at hs ⊢
        split at hs
        · rename_i hpc
          exact ⟨_, if_pos hpc⟩
        · cases hs
      refine ⟨(t.controlFifoUser.data.map Prod.snd).take sizeofControlMesg,
        Run.output State.step State.bytesRead t' (bs.map (Action.withMem mem)), ?_, ?_⟩
      · rw [bytesRead, List.map_append, List.map_cons, Run.output_append _ hrun', ← hout]
        simp only [Action.withMem, Run.output, ht, State.bytesRead, Fifo.get_items, List.map_take,
          List.singleton_append]
      · rw [← hslice]
        -- the slice lies in the part that the get takes
        conv_rhs =>
          rw [← List.take_append_drop sizeofControlMesg (t.controlFifoUser.data.map Prod.snd)]
        rw [slice_append]
        rw [List.length_take, List.length_map, sizeofControlMesg]
        omega
    | _ => exact absurd trivial hread

/-- What the daemon reads is the same whatever the callers' messages held before exactly in
    the runs in which no read finds a message. -/
theorem stack_hidden_iff (acts : List Action) :
    StackHidden acts ↔ Run.Guarded State.step ReadsNothing .init acts := by
  constructor
  · intro hhidden
    by_contra hread
    obtain ⟨as, a, bs, s, s', rfl, hrun, hs, hguard, hread⟩ := Run.exists_first_unguarded hread
    let ones : ControlMesg := ⟨List.replicate 36 255, rfl⟩
    obtain ⟨x, rest, hx, hslice⟩ := first_read bs hrun hs hguard hread .zero
    obtain ⟨y, rest', hy, hslice'⟩ := first_read bs hrun hs hguard hread ones
    have hxy := (hhidden _ (sameCalls_withMem .zero _)).symm.trans
      (hhidden _ (sameCalls_withMem ones _))
    rw [hx, hy] at hxy
    cases List.append_cancel_left hxy
    rw [hslice] at hslice'
    exact absurd hslice' (by decide)
  · intro hguard acts' hsame
    exact Run.output_lockstep alike_step (fun _ _ _ _ => bytesRead_alike) (.refl .init) hsame hguard

/-- A question, and a daemon that reads it: 28 bytes of it are the caller's stack. -/
theorem stack_leaks : ¬ ∀ acts, StackHidden acts := by
  intro hall
  let acts : ControlMesg → List Action := fun mem =>
    [.openHandle 0, .daemonStart [], .call 0 (.feReadStatus 0) mem, .client 0, .client 0,
      .daemonStep, .daemonRead .zero]
  let ones : ControlMesg := ⟨List.replicate 36 255, rfl⟩
  have hsame : List.Forall₂ Action.SameCall (acts .zero) (acts ones) :=
    .cons (.refl _) (.cons (.refl _) (.cons (.call ..) (.cons (.refl _) (.cons (.refl _)
      (.cons (.refl _) (.cons (.refl _) .nil))))))
  exact absurd (hall (acts .zero) (acts ones) hsame) (by decide)

end DvbHdhomerun
