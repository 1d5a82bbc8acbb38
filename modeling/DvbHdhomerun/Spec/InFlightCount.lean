import Mathlib.Data.Finset.Card
import DvbHdhomerun.Spec.InFlight

/-!
# Every waiting client has a reply coming

A client that waits takes the first reply it finds, its own or another's. What keeps it from
waiting in vain is a count: as long as nothing is thrown away (`Undisturbed`), there are at
least as many requests and replies in flight as there are clients waiting, and a get takes
one of them for one client.
-/

namespace DvbHdhomerun

/-- In `hdhomerun_control_write`, at the test of `wait_for_write`. -/
def DaemonPc.testsWrite : DaemonPc → Bool
  | writeTest _ => true
  | _ => false

/-- The end of the daemon. -/
def Action.isExit : Action → Bool
  | .daemonExit => true
  | _ => false

/-- `hdhomerun_control_write` is about to throw a reply away. -/
def State.ignoresReply (s : State) : Action → Bool
  | .daemonStep => s.daemon.pc.testsWrite && !s.waitForWrite
  | _ => false

/-- The step leaves every message whole: every put, of a request or of a reply, finds room,
    nobody closes the control device and the daemon does not end. A reply may be ignored. -/
structure Intact (s : State) (a : Action) : Prop where
  roomy : Roomy s a
  kept : a.isRelease = false
  running : a.isExit = false

instance (s : State) (a : Action) : Decidable (Intact s a) :=
  decidable_of_iff (Roomy s a ∧ a.isRelease = false ∧ a.isExit = false)
    ⟨fun ⟨h₁, h₂, h₃⟩ => ⟨h₁, h₂, h₃⟩, fun ⟨h₁, h₂, h₃⟩ => ⟨h₁, h₂, h₃⟩⟩

/-- The step throws nothing away: it leaves every message whole and ignores no reply. -/
structure Undisturbed (s : State) (a : Action) : Prop extends Intact s a where
  awaited : s.ignoresReply a = false

instance (s : State) (a : Action) : Decidable (Undisturbed s a) :=
  decidable_of_iff (Intact s a ∧ s.ignoresReply a = false)
    ⟨fun ⟨h₁, h₂⟩ => ⟨h₁, h₂⟩, fun ⟨h₁, h₂⟩ => ⟨h₁, h₂⟩⟩

/-! ## What is in flight -/

/-- Bytes of requests and replies in flight; what the daemon has taken in counts as whole
    messages. -/
def Data.volume (d : Data) : Nat :=
  d.user.len + d.kernel.len +
    sizeofControlMesg * (d.serving.length + d.writing.toList.length)

section Volume

variable {s s' : State} {a : Action}

/-- A put that fits adds all its bytes. -/
private theorem len_put_of_room {f : ControlFifo} {bs : List TaggedByte} (h : bs.length ≤ f.avail) :
    (f.put bs).2.len = f.len + bs.length := by
  rw [Fifo.len, Fifo.put_data_of_room h, List.length_append, Fifo.len]

/-- A get takes a message off. -/
private theorem len_get_message (f : ControlFifo) :
    (f.get sizeofControlMesg).2.len = f.len - sizeofControlMesg := by
  rw [Fifo.len, Fifo.get_data, List.length_drop, Fifo.len]

/-- The put of a request for which there is room. -/
theorem step_put_of_room {c : ClientId} (hroom : Roomy s (.client c)) (hpc : (s.clients c).pc = .put)
    (hs : s.step (.client c) = some s') :
    s' = (s.afterPut c).setClient c
      { s.clients c with pc := .setWait, ticket := some s.hist.attempts.length } := by
  simp only [State.step, State.clientStep, hpc, Option.some.injEq] at hs
  rw [← hs, State.putRequest_eq, if_pos (State.postResult_eq_one_iff.mpr (hroom hpc))]

/-- A request that has been posted is one more message in flight. -/
theorem volume_put {c : ClientId} (hroom : Roomy s (.client c)) (hpc : (s.clients c).pc = .put)
    (hs : s.step (.client c) = some s') :
    s'.data.volume = s.data.volume + sizeofControlMesg := by
  have havail : (s.request c).length ≤ s.controlFifoUser.avail := by
    rw [State.length_request]
    exact hroom hpc
  have hlen := len_put_of_room havail
  rw [State.length_request] at hlen
  rw [step_put_of_room hroom hpc hs]
  simp only [Data.volume, State.data, State.setClient, State.afterPut]
  omega

/-- Only a get takes anything out of flight, and it takes one message at most. -/
theorem volume_step (hrel : Relayed s) (hdata : DataOk s.data)
    (hread : s.daemon.pc = .readGet → 0 < s.controlFifoUser.len) (hok : Undisturbed s a)
    (hs : s.step a = some s') :
    s.data.volume ≤ s'.data.volume ∨
      ∃ c, a = .client c ∧ (s.clients c).pc = .get ∧
        s.data.volume ≤ s'.data.volume + sizeofControlMesg := by
  obtain ⟨r, href, -⟩ := hrel
  have heff := State.step_effect hs
  generalize s'.data = d' at heff
  cases heff with
  | quiet => exact .inl (Nat.le_refl _)
  | putRequest c hpc =>
    have havail : (s.request c).length ≤ s.controlFifoUser.avail := by
      rw [State.length_request]
      exact hok.roomy hpc
    have hlen := len_put_of_room havail
    refine .inl ?_
    simp only [Data.volume, State.data]
    omega
  | getReply c hpc =>
    have hlen := len_get_message s.controlFifoKernel
    refine .inr ⟨c, rfl, hpc, ?_⟩
    simp only [Data.volume, State.data]
    omega
  | readRequest stale t b rest hpc hget =>
    -- a whole message goes from the FIFO to the daemon
    obtain ⟨pending, hpending, -⟩ := read_framed stale href.user hget
    have hlong : sizeofControlMesg ≤ s.controlFifoUser.len := by
      have huser : Fifo.Framed frame s.controlFifoUser r.pending := href.user
      rw [huser.len_eq length_frame, hpending, List.length_cons, Nat.mul_succ]
      exact Nat.le_add_left ..
    have hlen := len_get_message s.controlFifoUser
    refine .inl ?_
    simp only [Data.volume, State.data, List.length_append, List.length_singleton,
      sizeofControlMesg] at hlen hlong ⊢
    omega
  | handleMessage d t mesg rest handled hserving hwriting hhandled =>
    -- the daemon answers every message that a call has built
    have hbuilt : Built mesg := hdata.built_serving (x := (t, mesg)) (by
      rw [State.data_serving, hserving]
      exact List.mem_cons_self)
    obtain ⟨reply, hreply⟩ := Control.processMessage_reply hbuilt s.daemon.tuners d
    refine .inl ?_
    simp only [Data.volume, State.data, hserving, hwriting, hhandled, hreply, Option.map_some,
      Option.toList_some, Option.toList_none, List.length_cons, List.length_nil,
      sizeofControlMesg]
    omega
  | ignoreReply w hpc hflag =>
    have hawaited := hok.awaited
    simp [State.ignoresReply, hpc, DaemonPc.testsWrite, hflag] at hawaited
  | putReply w hpc =>
    -- the reply is still whole, and all of it fits
    have hw : some w = r.current.map Writing.whole := by
      have hwriting : s.daemon.writing = r.current.map Writing.whole := href.writing
      rwa [Daemon.writing, hpc] at hwriting
    obtain ⟨x, -, rfl⟩ := Option.map_eq_some_iff.mp hw.symm
    have hfits : (tagged x.1 x.2.bytes).length ≤ s.controlFifoKernel.avail := by
      have hroom := hok.roomy
      simp only [Roomy, hpc] at hroom
      rwa [length_tagged]
    have hlen := len_put_of_room hfits
    rw [length_tagged, x.2.size] at hlen
    have hwriting : s.daemon.writing = some (Writing.whole x) := by rw [Daemon.writing, hpc]
    refine .inl ?_
    simp only [Data.volume, State.data, hwriting, Writing.whole, Option.toList_some,
      List.length_singleton, sizeofControlMesg] at hlen ⊢
    omega
  | resetKernel | resetUser => exact Bool.noConfusion hok.kept
  | readNothing stale hpc hget =>
    have hempty := empty_of_readNothing hget
    have hlen := hread hpc
    rw [Fifo.len, hempty] at hlen
    cases hlen
  | daemonExit => exact Bool.noConfusion hok.running
  | daemonStart tuners hpc => exact .inl (Nat.le_refl _)

end Volume

/-! ## Who waits -/

/-- Those of the clients `C` that have posted a request and wait for a reply. -/
def State.waiters (s : State) (C : Finset ClientId) : Finset ClientId :=
  C.filter fun c => (s.clients c).pc.waiting = true

section Waiters

variable {s s' : State} {a : Action} {C : Finset ClientId}

/-- A client only comes to wait by posting a request. -/
theorem waiting_step (hs : s.step a = some s') {c : ClientId}
    (h : (s'.clients c).pc.waiting = true) :
    (s.clients c).pc.waiting = true ∨ a = .client c ∧ (s.clients c).pc = .put := by
  cases State.step_clients hs c with
  | same heq =>
    rw [heq] at h
    exact .inl h
  | entered r mem mesg lock hb heq =>
    rw [heq] at h
    cases lock <;> cases h
  | moved pc signalled hbefore hwaiting _ heq =>
    rw [heq] at h
    exact .inl (hwaiting ▸ h)
  | posted hpc hret hatt heq =>
    -- only the put of the client itself records an attempt of the client
    have heff := State.step_effect hs
    have hatt' : s'.data.attempts = s.hist.attempts ++ [⟨c, (s.clients c).mesg, 1⟩] := hatt
    generalize s'.data = d' at heff hatt'
    cases heff with
    | putRequest c' =>
      have hx := List.singleton_inj.mp (List.append_cancel_left hatt')
      obtain rfl : c' = c := congrArg Attempt.client hx
      exact .inr ⟨rfl, hpc⟩
    | _ => exact absurd (congrArg List.length hatt') (by simp)
  | left hbefore hwaiting => exact nomatch hwaiting.symm.trans h

/-- A get ends the wait of the client. -/
theorem waiting_get {c : ClientId} (hpc : (s.clients c).pc = .get)
    (hs : s.step (.client c) = some s') : (s'.clients c).pc.waiting = false := by
  simp only [State.step, State.clientStep, hpc, Option.some.injEq] at hs
  rw [← hs, State.getReply_eq]
  simp only [State.returnCall, State.setClient, Function.update_self]
  split <;> rfl

/-- A step that posts nothing adds nobody to those who wait. -/
private theorem waiters_subset (hs : s.step a = some s')
    (hput : ∀ c, a = .client c → (s.clients c).pc ≠ .put) : s'.waiters C ⊆ s.waiters C := by
  intro c hc
  obtain ⟨hmem, hwait⟩ := Finset.mem_filter.mp hc
  rcases waiting_step hs hwait with hold | ⟨rfl, hpc⟩
  · exact Finset.mem_filter.mpr ⟨hmem, hold⟩
  · exact absurd hpc (hput c rfl)

/-- A put makes its caller a waiter. -/
private theorem waiters_put {c : ClientId} (hs : s.step (.client c) = some s') :
    s'.waiters C ⊆ insert c (s.waiters C) := by
  intro c' hc
  obtain ⟨hmem, hwait⟩ := Finset.mem_filter.mp hc
  rcases waiting_step hs hwait with hold | ⟨ha, -⟩
  · exact Finset.mem_insert_of_mem (Finset.mem_filter.mpr ⟨hmem, hold⟩)
  · cases ha
    exact Finset.mem_insert_self c _

/-- A get makes its caller stop waiting. -/
private theorem waiters_get {c : ClientId} (hpc : (s.clients c).pc = .get)
    (hs : s.step (.client c) = some s') : s'.waiters C ⊆ (s.waiters C).erase c := by
  intro c' hc
  obtain ⟨-, hwait⟩ := Finset.mem_filter.mp hc
  refine Finset.mem_erase.mpr ⟨?_, ?_⟩
  · rintro rfl
    rw [waiting_get hpc hs] at hwait
    cases hwait
  · refine waiters_subset hs (fun c'' ha hput => ?_) hc
    cases ha
    exact absurd (hpc.symm.trans hput) (by simp)

/-- There are at least as many requests and replies in flight as clients waiting. -/
def Accounted (C : Finset ClientId) (s : State) : Prop :=
  sizeofControlMesg * (s.waiters C).card ≤ s.data.volume

/-- Nobody waits, and nothing is in flight. -/
theorem Accounted.init : Accounted C .init := by
  have hnone : State.init.waiters C = ∅ :=
    Finset.filter_eq_empty_iff.mpr fun _ _ => by simp [State.init, Client.init, ClientPc.waiting]
  rw [Accounted, hnone]
  exact Nat.zero_le _

/-- What throws nothing away leaves a message in flight for everybody who waits. -/
theorem Accounted.step (h : Accounted C s) (hC : ∀ c, (s.clients c).pc ≠ .idle → c ∈ C)
    (hrel : Relayed s) (hdata : DataOk s.data)
    (hread : s.daemon.pc = .readGet → 0 < s.controlFifoUser.len) (hok : Undisturbed s a)
    (hs : s.step a = some s') : Accounted C s' := by
  unfold Accounted at h ⊢
  by_cases hput : ∃ c, a = .client c ∧ (s.clients c).pc = .put
  · obtain ⟨c, rfl, hpc⟩ := hput
    have hcard := (Finset.card_le_card (waiters_put (C := C) hs)).trans (Finset.card_insert_le c _)
    rw [volume_put hok.roomy hpc hs]
    calc sizeofControlMesg * (s'.waiters C).card
        ≤ sizeofControlMesg * ((s.waiters C).card + 1) := Nat.mul_le_mul_left _ hcard
      _ ≤ s.data.volume + sizeofControlMesg := Nat.add_le_add_right h _
  · have hcard := Finset.card_le_card (waiters_subset (C := C) hs
      fun c ha hpc => hput ⟨c, ha, hpc⟩)
    rcases volume_step hrel hdata hread hok hs with hle | ⟨c, rfl, hpc, hle⟩
    · exact (Nat.mul_le_mul_left _ hcard).trans (h.trans hle)
    · -- the get takes one message at most, for one client
      have hmem : c ∈ s.waiters C :=
        Finset.mem_filter.mpr ⟨hC c (by rw [hpc]; decide), by rw [hpc]; rfl⟩
      have hcard' := Finset.card_le_card (waiters_get (C := C) hpc hs)
      have hpos := Finset.card_pos.mpr ⟨c, hmem⟩
      rw [Finset.card_erase_of_mem hmem] at hcard'
      simp only [sizeofControlMesg] at h hle ⊢
      omega

end Waiters

end DvbHdhomerun
