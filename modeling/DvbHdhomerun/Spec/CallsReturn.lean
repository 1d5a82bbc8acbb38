import Mathlib.Algebra.BigOperators.Group.Finset.Basic
import Mathlib.Algebra.Order.BigOperators.Group.Finset
import DvbHdhomerun.Spec.FeedLock
import DvbHdhomerun.Spec.InFlightCount
import DvbHdhomerun.Spec.WakeUp

/-!
# Every call returns

Once no new call is entered and nothing is thrown away, the clients and the daemon come to
rest, and at rest every call has returned. A rank bounds the number of statements that are
left: `work` counts the ones that bring a call or a message on, `spin` the turns in the loop
around the wait queue, which start again each time the FIFO of the replies fills or empties.
At rest nobody is left behind: there is a message in flight for every client that waits, no
wake-up is lost and every lock that is held has an owner.
-/

namespace DvbHdhomerun

/-- A statement of a client or of the daemon: no call is entered, and nothing comes from
    outside. -/
def Action.isProgram : Action → Bool
  | .client _ | .daemonRead _ | .daemonHandle _ | .daemonStep => true
  | _ => false

/-- The client that enters a call. -/
def Action.caller? : Action → Option ClientId
  | .call c .. => some c
  | _ => none

/-- The clients that enter a call at some time. -/
def callers (acts : List Action) : Finset ClientId := (acts.filterMap Action.caller?).toFinset

/-! ## The daemon between two requests -/

/-- Between two messages the daemon has none left, it reads only what is there, it is never
    blocked in `hdhomerun_control_write` and writes every reply in one go. -/
structure DaemonOk (s : State) : Prop where
  fetched : s.daemon.pc = .exited ∨ s.daemon.pc = .select ∨ s.daemon.pc = .readGet →
    s.daemon.mMessages = []
  readable : s.daemon.pc = .readGet → 0 < s.controlFifoUser.len
  unblocked : ∀ w, s.daemon.pc ≠ .writeWait w ∧ s.daemon.pc ≠ .writeSleep w
  whole : ∀ w, s.daemon.pc = .writeWake w → w.rest = []

/-- The daemon has not started. -/
theorem DaemonOk.init : DaemonOk .init where
  fetched := fun _ => rfl
  readable := fun h => (nomatch h)
  unblocked := fun _ => by simp [State.init]
  whole := fun _ h => (nomatch h)

section DaemonOk

variable {s s' : State} {a : Action}

/-- Steps that leave the daemon alone and take nothing from its FIFO. -/
private theorem DaemonOk.of_eq (h : DaemonOk s) (hd : s'.daemon = s.daemon)
    (hlen : s.controlFifoUser.len ≤ s'.controlFifoUser.len) : DaemonOk s' := by
  refine ⟨?_, ?_, ?_, ?_⟩
  · rw [hd]
    exact h.fetched
  · rw [hd]
    exact fun hpc => Nat.lt_of_lt_of_le (h.readable hpc) hlen
  · rw [hd]
    exact h.unblocked
  · rw [hd]
    exact h.whole

/-- Steps to a statement between the read of a message and its pop. -/
private theorem DaemonOk.of_busy
    (hbusy : s'.daemon.pc ≠ .exited ∧ s'.daemon.pc ≠ .select ∧ s'.daemon.pc ≠ .readGet)
    (hwrite : ∀ w, s'.daemon.pc ≠ .writeWait w ∧ s'.daemon.pc ≠ .writeSleep w)
    (hwhole : ∀ w, s'.daemon.pc = .writeWake w → w.rest = []) : DaemonOk s' where
  fetched := fun hpc => by simp [hbusy] at hpc
  readable := fun hpc => absurd hpc hbusy.2.2
  unblocked := hwrite
  whole := hwhole

/-- A reply for which there is room is written in one go. -/
private theorem rest_put {w : Writing} (hpc : s.daemon.pc = .writePut w)
    (hroom : Roomy s .daemonStep) :
    w.rest.drop (s.controlFifoKernel.put (tagged w.ticket w.rest)).1 = [] := by
  refine List.drop_of_length_le ?_
  simp only [Roomy, hpc] at hroom
  rw [Fifo.put_count, length_tagged]
  omega

/-- 32768 bytes are no whole number of messages. -/
theorem Relayed.not_full (h : Relayed s) : s.controlFifoKernel.len ≠ controlBufsize := by
  obtain ⟨r, href, -⟩ := h
  have hkernel : Fifo.Framed frame s.controlFifoKernel r.answered := href.kernel
  have havail := hkernel.avail_pos length_frame (by decide)
  have hsum := s.controlFifoKernel.len_add_avail
  omega

/-- One step that leaves the channel intact. -/
theorem DaemonOk.step (h : DaemonOk s) (hrel : Relayed s) (hok : Intact s a)
    (hs : s.step a = some s') : DaemonOk s' := by
  cases State.step_move hs with
  | posted c hpc | noRoom c hpc =>
    -- a put makes the FIFO no shorter
    refine h.of_eq rfl ?_
    show s.controlFifoUser.len ≤ (s.controlFifoUser.put (s.request c)).2.len
    rw [Fifo.len, Fifo.len, Fifo.put_data, List.length_append]
    exact Nat.le_add_right ..
  | resetKernel | resetUser | resetWait | released => exact Bool.noConfusion hok.kept
  | daemonExit => exact Bool.noConfusion hok.running
  | daemonStart tuners hpc => exact ⟨fun _ => rfl, by simp, by simp, by simp⟩
  | readNothing stale hpc hget =>
    have hlen := h.readable hpc
    -- `select` has found something to read
    rw [Fifo.len, empty_of_readNothing hget] at hlen
    cases hlen
  | readRequest | pop =>
    exact .of_busy (by simp [State.afterRead]) (by simp [State.afterRead])
      (by simp [State.afterRead])
  | handleMessage d t mesg rest hpc hmsgs =>
    cases hreply : (Control.processMessage s.daemon.tuners mesg d).reply <;>
      exact .of_busy (by simp [State.handleMessage, hreply]) (by simp [State.handleMessage, hreply])
        (by simp [State.handleMessage, hreply])
  | daemonGoes pc hgo =>
    cases hgo with
    | readable hpc hlen =>
      exact ⟨fun _ => h.fetched (.inr (.inl hpc)), fun _ => hlen, by simp [State.setDaemonPc],
        by simp [State.setDaemonPc]⟩
    | served hpc hempty =>
      exact ⟨fun _ => hempty, by simp [State.setDaemonPc], by simp [State.setDaemonPc],
        by simp [State.setDaemonPc]⟩
    | write | room =>
      exact .of_busy (by simp [State.setDaemonPc]) (by simp [State.setDaemonPc])
        (by simp [State.setDaemonPc])
    | full w hpc hlen => exact absurd hlen hrel.not_full
    | retest w hpc | sleep w hpc => exact absurd hpc (h.unblocked w).1
  | ignoreReply =>
    refine .of_busy (by simp [State.setDaemonPc]) (by simp [State.setDaemonPc]) fun w hw => ?_
    cases hw
    rfl
  | putReply w hpc =>
    refine .of_busy (by simp [State.putReply]) (by simp [State.putReply]) fun w' hw => ?_
    cases hw
    -- there is room for the whole reply
    exact rest_put hpc hok.roomy
  | finishWrite w hpc =>
    have hwhole := h.whole w hpc
    exact .of_busy (by simp [State.finishWrite, State.setDaemonPc, hwhole])
      (by simp [State.finishWrite, State.setDaemonPc, hwhole])
      (by simp [State.finishWrite, State.setDaemonPc, hwhole])
  | _ => exact h.of_eq rfl (Nat.le_refl _)

end DaemonOk

/-! ## The rank -/

/-- The statements that bring a call on and are still to come; a request that is not posted
    yet costs the daemon nine more. The loop around the wait queue counts as one. -/
def ClientPc.work : ClientPc → Nat
  | idle => 0
  | unlockFeed _ => 1
  | testLen | asleep | retestLen | clearWait | get => 2
  | setWait => 3
  | put => 13
  | testReady => 14
  | lockFeed => 15

/-- The statements of the loop around the wait queue before the client sleeps or leaves it,
    as long as the FIFO of the replies stays empty, or stays filled. -/
def ClientPc.spin (empty : Bool) : ClientPc → Nat
  | testLen => if empty then 1 else 2
  | retestLen => if empty then 2 else 1
  | _ => 0

/-- The statements the daemon needs for the messages it has read. -/
def Daemon.work (d : Daemon) : Nat :=
  match d.pc with
  | .exited | .readGet => 0
  | .select => 1
  | .process => 2 + 6 * d.mMessages.length
  | .writeTest _ => 7 + 6 * d.mMessages.tail.length
  | .writeFull _ | .writeWait _ | .writeSleep _ => 6 + 6 * d.mMessages.tail.length
  | .writePut _ => 5 + 6 * d.mMessages.tail.length
  | .writeWake _ => 4 + 6 * d.mMessages.tail.length
  | .pop => 3 + 6 * d.mMessages.tail.length

namespace State

/-- The statements that bring a call or a message on and are still to come. -/
def work (s : State) (C : Finset ClientId) : Nat :=
  ∑ c ∈ C, (s.clients c).pc.work + 9 * (s.controlFifoUser.len / sizeofControlMesg) + s.daemon.work

/-- The turns in the loop around the wait queue. -/
def spin (s : State) (C : Finset ClientId) : Nat :=
  ∑ c ∈ C, (s.clients c).pc.spin (s.controlFifoKernel.len == 0)

/-- Every statement that brings something on can send every client around the loop again. -/
def rank (s : State) (C : Finset ClientId) : Nat :=
  s.work C * (2 * C.card + 1) + s.spin C

variable {s s' : State} {C : Finset ClientId}

/-- Every client tests twice at most before it sleeps. -/
private theorem spin_le (s : State) (C : Finset ClientId) : s.spin C ≤ 2 * C.card := by
  have hle : ∀ c ∈ C, (s.clients c).pc.spin (s.controlFifoKernel.len == 0) ≤ 2 := by
    intro c _
    unfold ClientPc.spin
    split <;> (try split) <;> omega
  calc s.spin C ≤ ∑ _c ∈ C, 2 := Finset.sum_le_sum hle
    _ = 2 * C.card := by rw [Finset.sum_const_nat fun _ _ => rfl, Nat.mul_comm]

/-- Less work outweighs any going round. -/
private theorem rank_lt_of_work (h : s'.work C < s.work C) : s'.rank C < s.rank C := by
  have hspin := spin_le s' C
  have hmul : (s'.work C + 1) * (2 * C.card + 1) ≤ s.work C * (2 * C.card + 1) :=
    Nat.mul_le_mul_right _ h
  rw [Nat.succ_mul] at hmul
  unfold rank
  omega

/-- With the work the same, going round counts. -/
private theorem rank_lt_of_spin (hwork : s'.work C = s.work C) (h : s'.spin C < s.spin C) :
    s'.rank C < s.rank C := by
  unfold rank
  rw [hwork]
  exact Nat.add_lt_add_left h _

/-- A sum over the clients after one of them has changed. -/
private theorem sum_update (f : Client → Nat) (g : ClientId → Client) (k : Client) {c : ClientId}
    (hc : c ∈ C) :
    ∑ x ∈ C, f (Function.update g c k x) + f (g c) = ∑ x ∈ C, f (g x) + f k := by
  have hrest : ∑ x ∈ C.erase c, f (Function.update g c k x) = ∑ x ∈ C.erase c, f (g x) :=
    Finset.sum_congr rfl fun x hx => by rw [Function.update_of_ne (Finset.ne_of_mem_erase hx)]
  have hnew := Finset.add_sum_erase C (fun x => f (Function.update g c k x)) hc
  have hold := Finset.add_sum_erase C (fun x => f (g x)) hc
  simp only [Function.update_self] at hnew
  omega

/-- A client that comes nearer to its return. -/
private theorem rank_lt_of_client {c : ClientId} {k : Client} (hc : c ∈ C)
    (hcl : s'.clients = Function.update s.clients c k) (hk : k.pc.work < (s.clients c).pc.work)
    (huser : s'.controlFifoUser = s.controlFifoUser) (hd : s'.daemon = s.daemon) :
    s'.rank C < s.rank C := by
  have hsum := sum_update (fun k => k.pc.work) s.clients k hc
  refine rank_lt_of_work ?_
  unfold work
  rw [huser, hd, hcl]
  omega

/-- A client that goes on in the loop around the wait queue. -/
private theorem rank_lt_of_loop {c : ClientId} {k : Client} (hc : c ∈ C)
    (hcl : s'.clients = Function.update s.clients c k) (hk : k.pc.work = (s.clients c).pc.work)
    (hspin : k.pc.spin (s.controlFifoKernel.len == 0) <
      (s.clients c).pc.spin (s.controlFifoKernel.len == 0))
    (huser : s'.controlFifoUser = s.controlFifoUser)
    (hkernel : s'.controlFifoKernel = s.controlFifoKernel) (hd : s'.daemon = s.daemon) :
    s'.rank C < s.rank C := by
  have hsum := sum_update (fun k => k.pc.work) s.clients k hc
  have hsum' := sum_update (fun k => k.pc.spin (s.controlFifoKernel.len == 0)) s.clients k hc
  refine rank_lt_of_spin ?_ ?_
  · unfold work
    rw [huser, hd, hcl]
    omega
  · unfold spin
    rw [hkernel, hcl]
    omega

/-- The daemon goes on. -/
private theorem rank_lt_of_daemon (hcl : ∀ c, (s'.clients c).pc.work = (s.clients c).pc.work)
    (hwork : 9 * (s'.controlFifoUser.len / sizeofControlMesg) + s'.daemon.work <
      9 * (s.controlFifoUser.len / sizeofControlMesg) + s.daemon.work) :
    s'.rank C < s.rank C := by
  refine rank_lt_of_work ?_
  unfold work
  rw [Finset.sum_congr rfl fun c _ => hcl c]
  omega

/-- A client that returns has less to do than at any statement before. -/
private theorem rank_lt_of_returnCall {s₁ : State} {c : ClientId} {k : Client} {ret : Int}
    (hc : c ∈ C) (hcl : s₁.clients = s.clients) (hpc : 2 ≤ (s.clients c).pc.work)
    (huser : s₁.controlFifoUser = s.controlFifoUser) (hd : s₁.daemon = s.daemon) :
    (s₁.returnCall c k ret).rank C < s.rank C := by
  refine rank_lt_of_client hc (by rw [← hcl]; rfl) ?_ huser hd
  by_cases hlock : k.lock = none
  · rw [if_pos hlock]
    exact Nat.lt_of_lt_of_le (Nat.zero_lt_succ 1) hpc
  · rw [if_neg hlock]
    exact hpc

/-- A client that posts its request leaves the nine statements it costs to the daemon. -/
private theorem rank_lt_of_put {c : ClientId} {k : Client} (hc : c ∈ C)
    (hcl : s'.clients = Function.update s.clients c k) (hk : k.pc = .setWait)
    (hpc : (s.clients c).pc = .put)
    (hlen : s'.controlFifoUser.len = s.controlFifoUser.len + sizeofControlMesg)
    (hd : s'.daemon = s.daemon) : s'.rank C < s.rank C := by
  have hsum := sum_update (fun k => k.pc.work) s.clients k hc
  have hput : (s.clients c).pc.work = 13 := by rw [hpc]; rfl
  have hset : k.pc.work = 3 := by rw [hk]; rfl
  refine rank_lt_of_work ?_
  unfold work
  rw [hcl, hlen, hd]
  simp only [sizeofControlMesg]
  omega

/-- A client that goes on comes closer to its return. -/
private theorem ClientGoes.rank_lt {c : ClientId} {pc : ClientPc} (hc : c ∈ C)
    (h : s.ClientGoes c pc) :
    (s.setClient c { s.clients c with pc := pc }).rank C < s.rank C := by
  cases h with
  | ready hpc =>
    refine rank_lt_of_client hc rfl ?_ rfl rfl
    simp [hpc, ClientPc.work]
  | found hpc hlen =>
    refine rank_lt_of_loop hc rfl (by rw [hpc]; rfl) ?_ rfl rfl rfl
    have hfull : (s.controlFifoKernel.len == 0) = false := by simp; omega
    simp [hpc, hfull, ClientPc.spin]
  | interrupted hpc hlen | sleep hpc hlen | again hpc hlen =>
    refine rank_lt_of_loop hc rfl (by rw [hpc]; rfl) ?_ rfl rfl rfl
    simp [hpc, hlen, ClientPc.spin]
  | get hpc hlen =>
    refine rank_lt_of_loop hc rfl (by rw [hpc]; rfl) ?_ rfl rfl rfl
    have hfull : (s.controlFifoKernel.len == 0) = false := by simpa using hlen
    simp [hpc, hfull, ClientPc.spin]

/-- Every statement of a client lowers the rank. -/
private theorem rank_lt_client {c : ClientId} (hc : (s.clients c).pc ≠ .idle → c ∈ C)
    (hroom : Roomy s (.client c)) (hs : s.step (.client c) = some s') :
    s'.rank C < s.rank C := by
  cases step_move hs with
  | lockFeed _ id hpc =>
    have hmem := hc (by rw [hpc]; decide)
    exact rank_lt_of_client hmem rfl (by simp [hpc, ClientPc.work]) rfl rfl
  | clientGoes _ pc hgo => exact hgo.rank_lt (hc (by cases hgo <;> simp [*]))
  | notReady _ hpc =>
    have hmem := hc (by rw [hpc]; decide)
    exact rank_lt_of_returnCall hmem rfl (by rw [hpc]; decide) rfl rfl
  | posted _ hpc hret =>
    have hmem := hc (by rw [hpc]; decide)
    -- what the client has less to do the daemon has more
    refine rank_lt_of_put hmem rfl rfl hpc ?_ rfl
    show (s.controlFifoUser.put (s.request c)).2.len = _
    rw [Fifo.len, Fifo.put_data_of_room (by rw [length_request]; exact hroom hpc),
      List.length_append, length_request, Fifo.len]
  | noRoom _ hpc hret => exact absurd (postResult_eq_one_iff.mpr (hroom hpc)) hret
  | setWait _ hpc =>
    have hmem := hc (by rw [hpc]; decide)
    exact rank_lt_of_client hmem rfl (by simp [hpc, ClientPc.work]) rfl rfl
  | clearWait _ hpc =>
    have hmem := hc (by rw [hpc]; decide)
    exact rank_lt_of_returnCall hmem rfl (by rw [hpc]; decide) rfl rfl
  | get _ hpc =>
    have hmem := hc (by rw [hpc]; decide)
    exact rank_lt_of_returnCall hmem rfl (by rw [hpc]; decide) rfl rfl
  | unlockFeed _ id ret hpc =>
    have hmem := hc (by rw [hpc]; exact ClientPc.noConfusion)
    exact rank_lt_of_client hmem rfl (by simp [hpc, ClientPc.work]) rfl rfl

/-- The daemon reads a whole message. -/
private theorem rank_lt_readRequest {t : Ticket} {mesg : ControlMesg} (h : DaemonOk s)
    (hrel : Relayed s) (hpc : s.daemon.pc = .readGet) :
    (s.afterRead t mesg).rank C < s.rank C := by
  obtain ⟨r, href, -⟩ := hrel
  have huser : Fifo.Framed frame s.controlFifoUser r.pending := href.user
  have hlong : sizeofControlMesg ≤ s.controlFifoUser.len := by
    have hlen := huser.len_eq length_frame
    have hpos := h.readable hpc
    cases hpend : r.pending with
    | nil =>
      rw [hpend] at hlen
      exact absurd hlen (Nat.ne_of_gt hpos)
    | cons x pending =>
      rw [hlen, hpend, List.length_cons, Nat.mul_succ]
      exact Nat.le_add_left ..
  refine rank_lt_of_daemon (fun _ => rfl) ?_
  simp only [afterRead, Daemon.work, hpc, h.fetched (.inr (.inr hpc)), Fifo.len, Fifo.get_data,
    List.length_drop, List.nil_append, List.length_singleton, sizeofControlMesg] at hlong ⊢
  omega

/-- Every statement of the daemon lowers the rank. -/
private theorem rank_lt_daemon {a : Action} (h : DaemonOk s) (hrel : Relayed s)
    (hok : Undisturbed s a) (ha : a.isProgram = true) (hc : ∀ c, a ≠ .client c)
    (hs : s.step a = some s') : s'.rank C < s.rank C := by
  cases step_move hs with
  | refused | entered | signalled | opened | resetKernel | resetUser | resetWait | released
  | daemonStart | daemonExit => cases ha
  | lockFeed c | clientGoes c | notReady c | posted c | noRoom c | setWait c | clearWait c | get c
  | unlockFeed c => exact absurd rfl (hc c)
  | readNothing stale hpc hget =>
    have hlen := h.readable hpc
    rw [Fifo.len, empty_of_readNothing hget] at hlen
    cases hlen
  | readRequest stale t b rest hpc hget => exact rank_lt_readRequest h hrel hpc
  | handleMessage d t mesg rest hpc hmsgs =>
    refine rank_lt_of_daemon (fun _ => rfl) ?_
    cases hreply : (Control.processMessage s.daemon.tuners mesg d).reply <;>
      simp only [State.handleMessage, Daemon.work, hpc, hmsgs, hreply, List.length_cons,
        List.tail_cons] <;> omega
  | daemonGoes pc hgo =>
    refine rank_lt_of_daemon (fun _ => rfl) ?_
    cases hgo with
    | readable hpc | write w hpc | room w hpc =>
      simp only [setDaemonPc, Daemon.work, hpc]
      omega
    | served hpc hempty =>
      simp only [setDaemonPc, Daemon.work, hpc, hempty, List.length_nil]
      omega
    | full w hpc hlen => exact absurd hlen hrel.not_full
    | retest w hpc | sleep w hpc => exact absurd hpc (h.unblocked w).1
  | ignoreReply w hpc hflag =>
    have hawaited := hok.awaited
    simp [ignoresReply, hpc, DaemonPc.testsWrite, hflag] at hawaited
  | putReply w hpc =>
    refine rank_lt_of_daemon (fun _ => rfl) ?_
    simp only [State.putReply, Daemon.work, hpc]
    omega
  | finishWrite w hpc =>
    -- a client that is woken up is in the same loop as before
    refine rank_lt_of_daemon (fun c => ?_) ?_
    · simp only [State.finishWrite, setDaemonPc, wakeReaders]
      split
      · rename_i hasleep
        rw [hasleep]
        rfl
      · rfl
    · simp only [State.finishWrite, setDaemonPc, wakeReaders, Daemon.work, hpc, h.whole w hpc,
        if_true]
      omega
  | pop hpc =>
    refine rank_lt_of_daemon (fun _ => rfl) ?_
    simp only [Daemon.work, hpc]
    omega

end State

/-! ## One return for every call -/

/-- Inside a call that has not returned a value yet. -/
def ClientPc.inCall (pc : ClientPc) : Bool := pc.before || pc.waiting

namespace State

/-- The calls client `c` has entered: those that have returned and the one it is in. -/
def calls (s : State) (c : ClientId) : Nat :=
  s.hist.returned.countP (fun ρ => ρ.client == c) + (s.clients c).pc.inCall.toNat

variable {s s' : State} {a : Action}

/-- A step inside a call neither enters nor leaves one. -/
private theorem calls_of_update {c c₀ : ClientId} {k : Client}
    (hcl : s'.clients = Function.update s.clients c₀ k)
    (hret : s'.hist.returned = s.hist.returned)
    (hk : k.pc.inCall = (s.clients c₀).pc.inCall) : s'.calls c = s.calls c := by
  rw [calls, calls, hret, hcl]
  by_cases hc : c = c₀
  · subst hc
    rw [Function.update_self, hk]
  · rw [Function.update_of_ne hc]

/-- A return is recorded for the call that ends. -/
private theorem calls_returnCall {s₁ : State} {c c₀ : ClientId} {k : Client} {ret : Int}
    (hcl : s₁.clients = s.clients) (hret : s₁.hist.returned = s.hist.returned)
    (hpc : (s.clients c₀).pc.inCall = true) :
    (s₁.returnCall c₀ k ret).calls c = s.calls c := by
  simp only [calls, returnCall, setClient, hret, hcl, List.countP_append, List.countP_singleton]
  by_cases hc : c = c₀
  · subst hc
    rw [Function.update_self, hpc]
    by_cases hlock : k.lock = none <;>
      simp [hlock, ClientPc.inCall, ClientPc.before, ClientPc.waiting]
  · simp [Function.update_of_ne hc, Ne.symm hc]

/-- A call is entered by its `call`, and stays one call whatever else happens. -/
theorem calls_step (hs : s.step a = some s') (c : ClientId) :
    s'.calls c = s.calls c + if a.caller? = some c then 1 else 0 := by
  -- only the entry of a call changes the count
  have hquiet : a.caller? = none → s'.calls c = s.calls c →
      s'.calls c = s.calls c + if a.caller? = some c then 1 else 0 := by
    intro ha heq
    simp [ha, heq]
  cases step_move hs with
  | refused c₀ r mem e hpc hb =>
    by_cases hc : c₀ = c
    · simp [calls, Action.caller?, hc, List.countP_append]
      omega
    · simp [calls, Action.caller?, hc, List.countP_append]
  | entered c₀ r mem mesg lock hpc hb =>
    by_cases hc : c₀ = c
    · subst hc
      cases lock <;>
        simp [calls, Action.caller?, setClient, hpc, ClientPc.inCall, ClientPc.before,
          ClientPc.waiting]
    · simp [calls, Action.caller?, setClient, hc, Function.update_of_ne (Ne.symm hc)]
  | lockFeed c₀ id hpc | posted c₀ hpc | setWait c₀ hpc | unlockFeed c₀ id ret hpc =>
    refine hquiet rfl (calls_of_update rfl rfl ?_)
    rw [hpc]
    rfl
  | clientGoes c₀ pc hgo =>
    refine hquiet rfl (calls_of_update rfl rfl ?_)
    cases hgo <;> simp [*, ClientPc.inCall, ClientPc.before, ClientPc.waiting]
  | notReady c₀ hpc | noRoom c₀ hpc | clearWait c₀ hpc | get c₀ hpc =>
    refine hquiet rfl (calls_returnCall rfl rfl ?_)
    rw [hpc]
    rfl
  | signalled c₀ hpc =>
    refine hquiet rfl (calls_of_update rfl rfl ?_)
    by_cases hasleep : (s.clients c₀).pc = .asleep
    · simp [hasleep, ClientPc.inCall, ClientPc.before, ClientPc.waiting]
    · simp [hasleep]
  | finishWrite w hpc =>
    refine hquiet rfl ?_
    simp only [calls, State.finishWrite, setDaemonPc, wakeReaders]
    by_cases hasleep : (s.clients c).pc = .asleep
    · simp [hasleep, ClientPc.inCall, ClientPc.before, ClientPc.waiting]
    · simp [hasleep]
  | _ => exact hquiet rfl rfl

end State

/-- In every run, whatever happens in it, each client has returned from all the calls it has
    entered, once from each, except the one it is in. -/
theorem calls_eq {acts : List Action} {s : State} (hrun : State.run acts = some s) (c : ClientId) :
    s.calls c = acts.countP fun a => a.caller? == some c := by
  have hgen : ∀ (acts : List Action) (s₀ : State), Run.exec State.step s₀ acts = some s →
      s.calls c = s₀.calls c + acts.countP fun a => a.caller? == some c := by
    intro acts
    induction acts with
    | nil =>
      intro s₀ h
      cases h
      rfl
    | cons a acts ih =>
      intro s₀ h
      obtain ⟨s₁, hs, hrest⟩ := Option.bind_eq_some_iff.mp h
      rw [ih s₁ hrest, State.calls_step hs c, List.countP_cons]
      simp only [beq_iff_eq]
      omega
  rw [hgen acts .init hrun]
  simp [State.calls, State.init, History.init, Client.init, ClientPc.inCall, ClientPc.before,
    ClientPc.waiting]

/-! ## Coming to rest -/

/-- A client outside a call is only brought into one by entering it. -/
theorem idle_step {s s' : State} {a : Action} {c : ClientId} (hs : s.step a = some s')
    (hidle : (s.clients c).pc = .idle) (ha : a.caller? ≠ some c) : (s'.clients c).pc = .idle := by
  have hne : ∀ {c₀ : ClientId}, (s.clients c₀).pc ≠ .idle → c ≠ c₀ := by
    rintro c₀ hpc rfl
    exact hpc hidle
  cases State.step_move hs with
  | entered c₀ r mem mesg lock hpc hb =>
    have hc : c ≠ c₀ := fun hc => ha (by rw [hc]; rfl)
    simpa [State.setClient, Function.update_of_ne hc] using hidle
  | lockFeed c₀ id hpc | posted c₀ hpc | setWait c₀ hpc | unlockFeed c₀ id ret hpc
  | notReady c₀ hpc | noRoom c₀ hpc | clearWait c₀ hpc | get c₀ hpc =>
    have hc : c ≠ c₀ := hne (by rw [hpc]; exact ClientPc.noConfusion)
    simpa [State.setClient, State.returnCall, State.afterPut, State.afterGet,
      Function.update_of_ne hc] using hidle
  | clientGoes c₀ pc hgo =>
    have hc : c ≠ c₀ := hne (by cases hgo <;> simp [*])
    simpa [State.setClient, Function.update_of_ne hc] using hidle
  | signalled c₀ hpc => simpa [State.setClient, Function.update_of_ne (hne hpc)] using hidle
  | finishWrite w hpc => simp [State.finishWrite, State.setDaemonPc, State.wakeReaders, hidle]
  | _ => exact hidle

/-- What holds in every run that leaves the messages whole. -/
structure Orderly (s : State) : Prop where
  relayed : Relayed s
  clients : ClientsOk s
  data : DataOk s.data
  daemon : DaemonOk s

/-- What holds in every undisturbed run whose calls are entered by the clients `C`. -/
structure Settling (C : Finset ClientId) (s : State) : Prop extends Orderly s where
  locks : LocksOk s
  owned : s.Owned
  awake : WakeUpPending s
  outside : ∀ c, (s.clients c).pc ≠ .idle → c ∈ C
  accounted : Accounted C s

section Settling

variable {C : Finset ClientId} {s s' : State} {a : Action}

/-- Nothing has happened. -/
theorem Orderly.init : Orderly .init := ⟨.init, .init, .init, .init⟩

/-- One step that leaves the channel intact. -/
theorem Orderly.step (h : Orderly s) (hok : Intact s a) (hs : s.step a = some s') : Orderly s' where
  relayed := h.relayed.step hok.roomy hs
  clients := h.clients.step hs
  data := h.data.step h.clients hok.roomy.roomForRequest hs
  daemon := h.daemon.step h.relayed hok hs

/-- Nobody is inside a call. -/
theorem Settling.init : Settling C .init where
  toOrderly := .init
  locks := .init
  owned := .init
  awake := fun _ h => by cases h
  outside := fun _ h => absurd rfl h
  accounted := .init

/-- One undisturbed step. -/
theorem Settling.step (h : Settling C s) (hok : Undisturbed s a)
    (hcall : ∀ c, a.caller? = some c → c ∈ C) (hs : s.step a = some s') : Settling C s' where
  toOrderly := h.toOrderly.step hok.toIntact hs
  locks := h.locks.step hs
  owned := h.owned.step hs
  awake := h.awake.step (fun hexit => by rw [hexit] at hok; exact Bool.noConfusion hok.running) hs
  outside := by
    intro c hc
    by_cases hidle : (s.clients c).pc = .idle
    · by_cases hcaller : a.caller? = some c
      · exact hcall c hcaller
      · exact absurd (idle_step hs hidle hcaller) hc
    · exact h.outside c hidle
  accounted := h.accounted.step h.outside h.relayed h.data h.daemon.readable hok hs

/-- Every statement of the program lowers the rank. -/
theorem Settling.rank_lt (h : Settling C s) (hok : Undisturbed s a) (ha : a.isProgram = true)
    (hs : s.step a = some s') : s'.rank C < s.rank C := by
  by_cases hc : ∃ c, a = .client c
  · obtain ⟨c, rfl⟩ := hc
    exact State.rank_lt_client (h.outside c) hok.roomy hs
  · exact State.rank_lt_daemon h.daemon h.relayed hok ha (fun c heq => hc ⟨c, heq⟩) hs

/-- No statement of a client or of the daemon can be executed. -/
def AtRest (s : State) : Prop := ∀ a : Action, a.isProgram = true → s.step a = none

/-- A daemon at rest is in `select`, with nothing to read. -/
private theorem AtRest.daemon (h : AtRest s) (hok : DaemonOk s) (hrunning : s.daemon.pc ≠ .exited) :
    s.daemon.pc = .select ∧ s.controlFifoUser.len = 0 := by
  have hstep := h .daemonStep rfl
  have hread := h (.daemonRead .zero) rfl
  have hhandle := h (.daemonHandle Schedule.deviceOk) rfl
  simp only [State.step, State.daemonStep] at hstep hread hhandle
  -- everywhere else the daemon has a statement to execute
  cases hpc : s.daemon.pc with
  | exited => exact absurd hpc hrunning
  | select =>
    rw [hpc] at hstep
    refine ⟨rfl, ?_⟩
    simp only at hstep
    split at hstep
    · cases hstep
    · omega
  | readGet => simp [hpc] at hread
  | process =>
    rw [hpc] at hstep hhandle
    cases hmsgs : s.daemon.mMessages with
    | nil => simp [hmsgs] at hstep
    | cons x rest => simp [hmsgs] at hhandle
  | writeWait w => exact absurd hpc (hok.unblocked w).1
  | writeSleep w => exact absurd hpc (hok.unblocked w).2
  | writeTest w | writeFull w =>
    simp only [hpc] at hstep
    split at hstep <;> cases hstep
  | writePut w | writeWake w | pop => simp [hpc] at hstep

/-- At rest nobody waits: there would be a reply for him, and he would be awake. -/
private theorem AtRest.not_waiting (h : AtRest s) (hinv : Settling C s)
    (hrunning : s.daemon.pc ≠ .exited) (c : ClientId) : (s.clients c).pc.waiting = false := by
  obtain ⟨hselect, huser⟩ := h.daemon hinv.daemon hrunning
  have hstep := h (.client c) rfl
  simp only [State.step, State.clientStep] at hstep
  cases hpc : (s.clients c).pc with
  | asleep =>
    -- nothing is in flight, so nobody can be waiting
    have hkernel : s.controlFifoKernel.len = 0 := by
      by_contra hne
      obtain ⟨w, hwake⟩ := hinv.awake c hpc (Nat.pos_of_ne_zero hne)
      exact absurd (hselect.symm.trans hwake) (by simp)
    have hmsgs := hinv.daemon.fetched (.inr (.inl hselect))
    have hvolume : s.data.volume = 0 := by
      simp [Data.volume, State.data, huser, hkernel, Daemon.serving, Daemon.writing, hselect, hmsgs]
    have hmem : c ∈ s.waiters C :=
      Finset.mem_filter.mpr ⟨hinv.outside c (by rw [hpc]; decide), by rw [hpc]; rfl⟩
    have hcount := hinv.accounted
    rw [Accounted, hvolume] at hcount
    have hpos := Finset.card_pos.mpr ⟨c, hmem⟩
    simp only [sizeofControlMesg] at hcount
    omega
  | idle | lockFeed | testReady | put | unlockFeed => rfl
  | setWait | testLen | clearWait | retestLen | get => simp [hpc] at hstep

/-- At rest every call has returned. -/
theorem AtRest.idle (h : AtRest s) (hinv : Settling C s) (hrunning : s.daemon.pc ≠ .exited)
    (c : ClientId) : (s.clients c).pc = .idle := by
  -- whoever is inside a lock could go on, or is one of those that wait
  have hlock : ∀ c', (s.clients c').pc = .idle ∨ (s.clients c').pc = .lockFeed := by
    intro c'
    have hwait := h.not_waiting hinv hrunning c'
    have hstep := h (.client c') rfl
    simp only [State.step, State.clientStep] at hstep
    cases hpc : (s.clients c').pc with
    | idle => exact .inl rfl
    | lockFeed => exact .inr rfl
    | unlockFeed ret =>
      obtain ⟨id, hid⟩ := hinv.owned c' (by rw [hpc]; rfl)
      simp [hpc, State.unlockFeedlock, hid] at hstep
    | testReady | put => simp [hpc] at hstep
    | setWait | testLen | asleep | clearWait | retestLen | get =>
      rw [hpc] at hwait
      cases hwait
  rcases hlock c with hidle | hpc
  · exact hidle
  · obtain ⟨id, hid⟩ := hinv.owned c (by rw [hpc]; rfl)
    have hstep := h (.client c) rfl
    simp only [State.step, State.clientStep, hpc, State.lockFeedlock, hid] at hstep
    split at hstep
    · -- the lock is held, so somebody is inside
      rename_i hheld
      obtain ⟨c', -, hlocked⟩ := (hinv.locks.held id).mp hheld
      rcases hlock c' with hpc' | hpc' <;> simp [hpc', ClientPc.locked] at hlocked
    · cases hstep

/-- A client outside a call and a daemon with nothing to read have nothing to do. -/
theorem AtRest.of_idle (hidle : ∀ c, (s.clients c).pc = .idle) (hpc : s.daemon.pc = .select)
    (huser : s.controlFifoUser.len = 0) : AtRest s := by
  intro a ha
  cases a with
  | client c => simp [State.step, State.clientStep, hidle c]
  | daemonRead stale => simp [State.step, hpc]
  | daemonHandle d => simp [State.step, hpc]
  | daemonStep => simp [State.step, State.daemonStep, hpc, huser]
  | call | signal | openHandle | releaseHandle | daemonStart | daemonExit => cases ha

/-- A daemon that runs goes on running. -/
theorem DaemonOk.running_step (h : DaemonOk s) (hok : Intact s a) (hs : s.step a = some s')
    (hrunning : s.daemon.pc ≠ .exited) : s'.daemon.pc ≠ .exited := by
  cases State.step_move hs with
  | daemonExit => exact Bool.noConfusion hok.running
  | readNothing stale hpc hget =>
    have hlen := h.readable hpc
    rw [Fifo.len, empty_of_readNothing hget] at hlen
    cases hlen
  | daemonGoes pc hgo => cases hgo <;> exact DaemonPc.noConfusion
  | handleMessage d t mesg =>
    cases hreply : (Control.processMessage s.daemon.tuners mesg d).reply <;>
      simp [State.handleMessage, hreply]
  | finishWrite w hpc =>
    simp only [State.finishWrite, State.setDaemonPc]
    split <;> exact DaemonPc.noConfusion
  | daemonStart | readRequest | ignoreReply | putReply | pop => exact DaemonPc.noConfusion
  | _ => exact hrunning

/-- Every undisturbed run settles, wherever it has come to. -/
theorem settling_of_run {acts : List Action} (hok : Run.Guarded State.step Undisturbed .init acts)
    (hrun : State.run acts = some s) : Settling (callers acts) s := by
  have hcall : ∀ a ∈ acts, ∀ c, a.caller? = some c → c ∈ callers acts := fun a ha c hc =>
    List.mem_toFinset.mpr (List.mem_filterMap.mpr ⟨a, ha, hc⟩)
  exact (hok.and (.of_forall hcall)).keeps (fun _ _ _ hinv h hs => hinv.step h.1 h.2 hs)
    Settling.init hrun

end Settling

/-- From any state of an undisturbed run with a daemon, the statements of the clients and of
    the daemon that can follow without a new call are bounded in number, in whatever order
    they are taken, and where they end every client has returned once from each of its calls. -/
theorem calls_return {acts rest : List Action} {s s' : State}
    (hok : Run.Guarded State.step Undisturbed .init (acts ++ rest))
    (hrun : State.run acts = some s) (hrunning : s.daemon.pc ≠ .exited)
    (hprog : ∀ a ∈ rest, a.isProgram = true) (hrest : Run.exec State.step s rest = some s') :
    rest.length ≤ s.rank (callers acts) ∧
      (AtRest s' → ∀ c, (s'.clients c).pc = .idle ∧
        s'.hist.returned.countP (fun ρ => ρ.client == c) =
          acts.countP fun a => a.caller? == some c) := by
  have hinv := settling_of_run hok.init hrun
  -- the programs run on by themselves and enter no further call
  have hcall : ∀ a ∈ rest, a.isProgram = true ∧ a.caller? = none := by
    intro a ha
    have hp := hprog a ha
    cases a <;> simp_all [Action.isProgram, Action.caller?]
  have hstep : ∀ s a s', (Settling (callers acts) s ∧ s.daemon.pc ≠ .exited) →
      (Undisturbed s a ∧ a.isProgram = true ∧ a.caller? = none) → s.step a = some s' →
      (Settling (callers acts) s' ∧ s'.daemon.pc ≠ .exited) ∧
        s'.rank (callers acts) < s.rank (callers acts) := by
    rintro s a s' ⟨hinv, hrunning⟩ ⟨hok, hp, hc⟩ hs
    exact ⟨⟨hinv.step hok (by simp [hc]) hs, hinv.daemon.running_step hok.toIntact hs hrunning⟩,
      hinv.rank_lt hok hp hs⟩
  have hall := (hok.rest hrun).and (.of_forall hcall)
  -- each of their steps lowers the rank, which bounds their number
  have hbound := hall.length_add_rank_le hstep ⟨hinv, hrunning⟩ hrest
  obtain ⟨hinv', hrunning'⟩ :=
    hall.keeps (fun s a s' h hP hs => (hstep s a s' h hP hs).1) ⟨hinv, hrunning⟩ hrest
  refine ⟨by omega, fun hstop c => ?_⟩
  have hidle := hstop.idle hinv' hrunning' c
  refine ⟨hidle, ?_⟩
  have hwhole : State.run (acts ++ rest) = some s' := by
    rw [State.run, Run.exec_append_of_some hrun, hrest]
  -- nobody is inside a call any more, so all that were entered have returned
  have hcalls := calls_eq hwhole c
  have hnone : rest.countP (fun a => a.caller? == some c) = 0 := by
    refine List.countP_eq_zero.mpr fun a ha => ?_
    simp [(hcall a ha).2]
  rw [List.countP_append, hnone, State.calls, hidle] at hcalls
  exact hcalls

/-- A client goes to sleep before the daemon has seen its request. -/
theorem calls_return_roundTrip :
    ∃ s s', State.run (Schedule.roundTrip.take 7) = some s ∧
      Run.exec State.step s (Schedule.roundTrip.drop 7) = some s' ∧ (s.clients 0).pc = .asleep ∧
      (Schedule.roundTrip.drop 7).length ≤ s.rank (callers (Schedule.roundTrip.take 7)) ∧
      AtRest s' ∧ s'.hist.returned.countP (fun ρ => ρ.client == 0) = 1 := by
  let acts := Schedule.roundTrip.take 7
  let rest := Schedule.roundTrip.drop 7
  let s := (State.run acts).get (by decide)
  let s' := (Run.exec State.step s rest).get (by decide)
  have hok : Run.Guarded State.step Undisturbed .init (acts ++ rest) := by decide
  have hrun : State.run acts = some s := (Option.some_get _).symm
  have hrest : Run.exec State.step s rest = some s' := (Option.some_get _).symm
  have hinv : Settling (callers (acts ++ rest)) s' :=
    settling_of_run hok (by rw [State.run, Run.exec_append_of_some hrun, hrest])
  have hcallers : callers (acts ++ rest) = {0} := by decide
  have hidle : ∀ c, (s'.clients c).pc = .idle := by
    intro c
    by_contra hne
    have hc := hinv.outside c hne
    rw [hcallers, Finset.mem_singleton] at hc
    subst hc
    exact hne (by decide)
  have hstop : AtRest s' := .of_idle hidle (by decide) (by decide)
  obtain ⟨hbound, hdone⟩ := calls_return hok hrun (by decide) (by decide) hrest
  exact ⟨s, s', hrun, hrest, by decide, hbound, hstop, (hdone hstop 0).2⟩

end DvbHdhomerun
