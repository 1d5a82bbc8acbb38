import DvbHdhomerun.Spec.ChannelClients
import DvbHdhomerun.Spec.ChannelRelay
import DvbHdhomerun.Spec.Handlers

/-!
# Where a request is

A posted request, or the reply to it, is in `control_fifo_user`, in the daemon, or in
`control_fifo_kernel`, until it is taken or thrown away. `holds_step` lists what can throw
it away; it needs that requests are posted whole (`RoomForRequest`), and then every request
that the daemon reads is one of those posted (`DataOk`).
-/

namespace DvbHdhomerun

/-- A put of a request finds room for the whole message. -/
def RoomForRequest (s : State) : Action → Prop
  | .client c => (s.clients c).pc = .put → sizeofControlMesg ≤ s.controlFifoUser.avail
  | _ => True

instance (s : State) : (a : Action) → Decidable (RoomForRequest s a)
  | .client c => inferInstanceAs (Decidable ((s.clients c).pc = .put → _))
  | .call .. | .signal _ | .openHandle _ | .releaseHandle _ | .daemonStart _ | .daemonExit
  | .daemonRead _ | .daemonHandle _ | .daemonStep => instDecidableTrue

/-- Room for both kinds of message is room for a request. -/
theorem Roomy.roomForRequest {s : State} {a : Action} (h : Roomy s a) : RoomForRequest s a := by
  cases a with
  | client c => exact h
  | _ => trivial

/-! ## What the daemon reads -/

/-- `x` is the request posted with the ticket it carries. -/
def PostedAs (attempts : List Attempt) (x : Ticket × ControlMesg) : Prop :=
  ∃ a, attempts[x.1]? = some a ∧ a.mesg = x.2

/-- A request that was posted stays posted. -/
theorem PostedAs.snoc {attempts : List Attempt} {x : Ticket × ControlMesg} {a : Attempt}
    (h : PostedAs attempts x) : PostedAs (attempts ++ [a]) x := by
  obtain ⟨b, hb, hx⟩ := h
  have hlt : x.1 < attempts.length := (List.getElem?_eq_some_iff.mp hb).1
  exact ⟨b, by rw [List.getElem?_append_left hlt, hb], hx⟩

/-- Requests are built by calls and travel whole, under their own tickets. -/
structure DataOk (d : Data) : Prop where
  built : ∀ a ∈ d.attempts, Built a.mesg
  framed : ∃ pending, Fifo.Framed frame d.user pending ∧ ∀ x ∈ pending, PostedAs d.attempts x
  serving : ∀ x ∈ d.serving, PostedAs d.attempts x
  unwritten : ∀ w, d.writing = some w → w.rest ≠ []

/-- There is no message yet. -/
theorem DataOk.init : DataOk State.init.data where
  built := fun _ h => (nomatch h)
  framed := ⟨[], rfl, fun _ h => (nomatch h)⟩
  serving := fun _ h => (nomatch h)
  unwritten := fun _ h => (nomatch h)

/-- Every message the daemon serves was built by a call. -/
theorem DataOk.built_serving {d : Data} (h : DataOk d) {x : Ticket × ControlMesg}
    (hx : x ∈ d.serving) : Built x.2 := by
  obtain ⟨a, ha, hmesg⟩ := h.serving x hx
  rw [← hmesg]
  exact h.built a (List.mem_of_getElem? ha)

/-- A put adds the message of the caller behind the others. -/
private theorem dataOk_put {s : State} {c : ClientId} (h : DataOk s.data) (hcl : ClientsOk s)
    (hpc : (s.clients c).pc = .put) (hroom : sizeofControlMesg ≤ s.controlFifoUser.avail) :
    DataOk { s.data with
      user := (s.controlFifoUser.put (s.request c)).2
      attempts := s.hist.attempts ++ [⟨c, (s.clients c).mesg, s.postResult c⟩] } := by
  obtain ⟨pending, hframed, hposted⟩ := h.framed
  refine ⟨fun a ha => ?_, ?_, fun x hx => (h.serving x hx).snoc, h.unwritten⟩
  · rcases List.mem_append.mp ha with hold | hnew
    · exact h.built a hold
    · obtain ⟨mem, hbuilt⟩ := (hcl c).built (.inl (by rw [hpc]; rfl))
      rw [List.mem_singleton.mp hnew]
      exact ⟨_, mem, _, hbuilt⟩
  · -- the new message is whole and the last of the queue
    let x : Ticket × ControlMesg := (s.hist.attempts.length, (s.clients c).mesg)
    have hfits : (frame x).length ≤ s.controlFifoUser.avail := by
      rw [length_frame]
      exact hroom
    refine ⟨pending ++ [x], Fifo.Framed.put hframed hfits, fun y hy => ?_⟩
    rcases List.mem_append.mp hy with hold | hnew
    · exact (hposted y hold).snoc
    · rw [List.mem_singleton.mp hnew]
      exact ⟨⟨c, (s.clients c).mesg, s.postResult c⟩, by simp [x], rfl⟩

/-- A read takes the oldest request whole. -/
private theorem dataOk_read {s : State} {stale : ControlMesg} {t : Ticket} {b : UInt8}
    {rest : List TaggedByte} (h : DataOk s.data)
    (hget : (s.controlFifoUser.get sizeofControlMesg).1 = (t, b) :: rest) :
    DataOk { s.data with
      user := (s.controlFifoUser.get sizeofControlMesg).2
      serving := s.daemon.serving ++ [(t, stale.fill (b :: rest.map Prod.snd))]
      pushed := s.hist.pushed ++ [stale.fill (b :: rest.map Prod.snd)] } := by
  obtain ⟨pending, hframed, hposted⟩ := h.framed
  obtain ⟨pending', rfl, hframed'⟩ := read_framed stale hframed hget
  refine ⟨h.built, ⟨pending', hframed', fun y hy => ?_⟩, fun y hy => ?_, h.unwritten⟩
  · exact hposted y (List.mem_cons_of_mem _ hy)
  · rcases List.mem_append.mp hy with hold | hnew
    · exact h.serving y hold
    · rw [List.mem_singleton.mp hnew]
      exact hposted _ List.mem_cons_self

/-- One step that finds room for a request. -/
theorem DataOk.step {s s' : State} {a : Action} (h : DataOk s.data) (hcl : ClientsOk s)
    (hroom : RoomForRequest s a) (hs : s.step a = some s') : DataOk s'.data := by
  have heff := State.step_effect hs
  generalize s'.data = d' at heff
  cases heff with
  | putRequest c hpc => exact dataOk_put h hcl hpc (hroom hpc)
  | readRequest stale t b rest hpc hget => exact dataOk_read h hget
  | handleMessage d t mesg rest handled hserving hwriting hhandled =>
    have hsub : ∀ x ∈ rest, x ∈ s.daemon.serving := fun x hx => by
      rw [hserving]
      exact List.mem_cons_of_mem _ hx
    refine ⟨h.built, h.framed, fun x hx => h.serving x (hsub x hx), fun w hw => ?_⟩
    -- a reply is 36 bytes long
    obtain ⟨reply, -, rfl⟩ := Option.map_eq_some_iff.mp hw
    exact List.ne_nil_of_length_eq_add_one reply.size
  | ignoreReply w hpc hflag => exact { h with unwritten := fun _ hw => by cases hw }
  | putReply w hpc =>
    refine { h with unwritten := fun w' hw' => ?_ }
    simp only at hw'
    split at hw'
    · cases hw'
    · rename_i hrest
      cases hw'
      exact hrest
  | resetUser hd hpc => exact { h with framed := ⟨[], rfl, fun _ hx => absurd hx List.not_mem_nil⟩ }
  | readNothing stale hpc hget =>
    have hempty := empty_of_readNothing hget
    refine ⟨h.built, ⟨[], ?_, fun _ hx => absurd hx List.not_mem_nil⟩,
      fun _ hx => absurd hx List.not_mem_nil,
      fun _ hw => by cases hw⟩
    rw [Fifo.Framed, Fifo.get_data, hempty, List.drop_nil, List.flatMap_nil]
  | daemonExit =>
    exact { h with
      serving := fun _ hx => absurd hx List.not_mem_nil
      unwritten := fun _ hw => by cases hw }
  | _ => exact { h with }

/-- In a run whose posts all find room, requests travel whole. -/
theorem dataOk_of_run {acts : List Action} {s : State}
    (hroom : Run.Guarded State.step RoomForRequest .init acts) (hrun : State.run acts = some s) :
    ClientsOk s ∧ DataOk s.data := by
  have hstep : ∀ s a s', ClientsOk s ∧ DataOk s.data → RoomForRequest s a → s.step a = some s' →
      ClientsOk s' ∧ DataOk s'.data :=
    fun _ _ _ hinv hok hs => ⟨hinv.1.step hs, hinv.2.step hinv.1 hok hs⟩
  exact hroom.keeps hstep ⟨.init, .init⟩ hrun

/-! ## Where a request is -/

/-- The daemon has not answered the request with ticket `t` yet. -/
def Data.Unserved (d : Data) (t : Ticket) : Prop :=
  (∃ b ∈ d.user.data, b.1 = t) ∨ ∃ x ∈ d.serving, x.1 = t

/-- The reply to the request with ticket `t` is being written or waits to be taken. -/
def Data.Answered (d : Data) (t : Ticket) : Prop :=
  (∃ w, d.writing = some w ∧ w.ticket = t) ∨ ∃ b ∈ d.kernel.data, b.1 = t

/-- The request with ticket `t`, or the reply to it, is somewhere. -/
def Data.Holds (d : Data) (t : Ticket) : Prop := d.Unserved t ∨ d.Answered t

/-- The ways in which the request with ticket `t` can be thrown away. -/
inductive DropsRequest (s : State) (t : Ticket) : Action → Prop where
  /-- a release resets `control_fifo_user` -/
  | resetUser (hd : HandleId) (hpc : s.handles hd = .kernelReset)
      (h : ∃ b ∈ s.controlFifoUser.data, b.1 = t) : DropsRequest s t (.releaseHandle hd)
  /-- the daemon ends, for want of anything to read -/
  | readNothing (stale : ControlMesg) (hempty : s.controlFifoUser.data = [])
      (h : ∃ x ∈ s.daemon.serving, x.1 = t) : DropsRequest s t (.daemonRead stale)
  /-- the daemon ends -/
  | daemonExit (h : ∃ x ∈ s.daemon.serving, x.1 = t) : DropsRequest s t .daemonExit

/-- The ways in which the reply to the request with ticket `t` can be thrown away. -/
inductive DropsReply (s : State) (t : Ticket) : Action → Prop where
  /-- a client takes the reply, or a part of it -/
  | take (c : ClientId) (hpc : (s.clients c).pc = .get) (h : ∃ b ∈ s.oldestReply, b.1 = t) :
      DropsReply s t (.client c)
  /-- the daemon's write is ignored -/
  | ignore (w : Writing) (hpc : s.daemon.pc = .writeTest w) (hflag : s.waitForWrite = false)
      (h : w.ticket = t) : DropsReply s t .daemonStep
  /-- a release resets `control_fifo_kernel` -/
  | resetKernel (hd : HandleId) (hpc : s.handles hd = .opened)
      (h : ∃ b ∈ s.controlFifoKernel.data, b.1 = t) : DropsReply s t (.releaseHandle hd)
  /-- the daemon ends, for want of anything to read -/
  | readNothing (stale : ControlMesg) (hempty : s.controlFifoUser.data = [])
      (h : ∃ w, s.daemon.writing = some w ∧ w.ticket = t) : DropsReply s t (.daemonRead stale)
  /-- the daemon ends -/
  | daemonExit (h : ∃ w, s.daemon.writing = some w ∧ w.ticket = t) : DropsReply s t .daemonExit

/-- The step throws away the request with ticket `t`, or the reply to it. -/
def Discards (s : State) (t : Ticket) (a : Action) : Prop :=
  DropsRequest s t a ∨ DropsReply s t a

/-- In this step the daemon handles the request with ticket `t`. -/
def Handles (s : State) (t : Ticket) (a : Action) (d' : Data) : Prop :=
  ∃ d mesg, a = .daemonHandle d ∧ (t, mesg) ∈ s.daemon.serving ∧
    d'.writing = (Control.processMessage s.daemon.tuners mesg d).reply.map
      (fun reply => ⟨t, reply, reply.bytes⟩) ∧
    d'.executed = s.hist.executed ++
      ((Control.processMessage s.daemon.tuners mesg d).call.map
        fun call => ⟨t, mesg.id, call⟩).toList

/-- A request that has just been posted is in `control_fifo_user`. -/
theorem unserved_posted {s s' : State} {a : Action} {x : Attempt} (hs : s.step a = some s')
    (hatt : s'.hist.attempts = s.hist.attempts ++ [x]) (hret : x.ret = 1) :
    s'.data.Unserved s.hist.attempts.length := by
  have heff := State.step_effect hs
  have hatt' : s'.data.attempts = s.hist.attempts ++ [x] := hatt
  generalize s'.data = d' at heff hatt'
  cases heff with
  | putRequest c hpc =>
    have hx := List.singleton_inj.mp (List.append_cancel_left hatt')
    rw [← hx] at hret
    have hroom : (s.request c).length ≤ s.controlFifoUser.avail := by
      rw [State.length_request]
      exact State.postResult_eq_one_iff.mp hret
    obtain ⟨b, hb, hbt⟩ := exists_mem_frame (s.hist.attempts.length, (s.clients c).mesg)
    refine .inl ⟨b, ?_, hbt⟩
    show b ∈ (s.controlFifoUser.put (s.request c)).2.data
    rw [Fifo.put_data_of_room hroom]
    exact List.mem_append_right _ hb
  | _ => exact absurd (congrArg List.length hatt') (by simp)

/-- A request that is neither answered nor thrown away stays unanswered. -/
theorem unserved_step {s s' : State} {a : Action} {t : Ticket} (hok : DataOk s.data)
    (h : s.data.Unserved t) (hdrop : ¬ DropsRequest s t a) (hs : s.step a = some s') :
    s'.data.Unserved t ∨ Handles s t a s'.data := by
  have heff := State.step_effect hs
  generalize s'.data = d' at heff
  cases heff with
  | putRequest c hpc =>
    rcases h with ⟨b, hb, hbt⟩ | hserving
    · exact .inl (.inl ⟨b, List.mem_append_left _ hb, hbt⟩)
    · exact .inl (.inr hserving)
  | readRequest stale t₀ b rest hpc hget =>
    rcases h with ⟨b', hb', hbt⟩ | ⟨x, hx, hxt⟩
    · obtain ⟨pending, hframed, -⟩ := hok.framed
      simp only [State.data_user] at hframed hb'
      -- the bytes of `t` are in the message read, or behind it
      rw [← List.take_append_drop sizeofControlMesg s.controlFifoUser.data] at hb'
      rcases List.mem_append.mp hb' with hread | hleft
      · cases pending with
        | nil =>
          rw [hframed.nil_data, List.take_nil] at hread
          exact nomatch hread
        | cons x pending =>
          have hitems := hframed.get_items length_frame
          rw [hitems] at hget
          have hx : (t₀, _) = x := readMesg_of_frame stale hget
          have hmem : b' ∈ frame x := hitems ▸ hread
          refine .inl (.inr ⟨_, List.mem_append_right _ List.mem_cons_self, ?_⟩)
          rw [← hbt, mem_frame hmem, ← hx]
      · exact .inl (.inl ⟨b', hleft, hbt⟩)
    · exact .inl (.inr ⟨x, List.mem_append_left _ hx, hxt⟩)
  | handleMessage d t₀ mesg rest handled hserving hwriting hhandled =>
    rcases h with huser | ⟨x, hx, hxt⟩
    · exact .inl (.inl huser)
    · simp only [State.data_serving, hserving] at hx
      rcases List.mem_cons.mp hx with rfl | hrest
      -- it is the message handled now, or one behind it
      · refine .inr ⟨d, mesg, rfl, ?_, ?_, ?_⟩
        · rw [hserving, ← hxt]
          exact List.mem_cons_self
        · rw [← hhandled, ← hxt]
        · rw [← hhandled, ← hxt]
      · exact .inl (.inr ⟨x, hrest, hxt⟩)
  | resetUser hd hpc =>
    rcases h with huser | hserving
    · exact absurd (DropsRequest.resetUser hd hpc huser) hdrop
    · exact .inl (.inr hserving)
  | readNothing stale hpc hget =>
    have hempty := empty_of_readNothing hget
    rcases h with ⟨b, hb, -⟩ | hserving
    · simp only [State.data_user, hempty] at hb
      exact nomatch hb
    · exact absurd (DropsRequest.readNothing stale hempty hserving) hdrop
  | daemonExit =>
    rcases h with huser | hserving
    · exact .inl (.inl huser)
    · exact absurd (DropsRequest.daemonExit hserving) hdrop
  | _ => exact .inl h

/-- A reply that is not thrown away stays on its way. -/
theorem answered_step {s s' : State} {a : Action} {t : Ticket} (hok : DataOk s.data)
    (h : s.data.Answered t) (hdrop : ¬ DropsReply s t a) (hs : s.step a = some s') :
    s'.data.Answered t := by
  have heff := State.step_effect hs
  generalize s'.data = d' at heff
  cases heff with
  | getReply c hpc =>
    rcases h with hwriting | ⟨b, hb, hbt⟩
    · exact .inl hwriting
    · simp only [State.data_kernel] at hb
      rw [← List.take_append_drop sizeofControlMesg s.controlFifoKernel.data] at hb
      -- a byte of the reply is taken, or stays behind the ones taken
      rcases List.mem_append.mp hb with htaken | hleft
      · exact absurd (DropsReply.take c hpc ⟨b, htaken, hbt⟩) hdrop
      · exact .inr ⟨b, hleft, hbt⟩
  | handleMessage d t₀ mesg rest handled hserving hwriting hhandled =>
    rcases h with ⟨w, hw, hwt⟩ | hkernel
    · exact absurd (hwriting.symm.trans hw) (by simp)
    · exact .inr hkernel
  | ignoreReply w hpc hflag =>
    rcases h with ⟨w', hw', hwt⟩ | hkernel
    · simp only [State.data_writing, Daemon.writing, hpc, Option.some.injEq] at hw'
      exact absurd (DropsReply.ignore w hpc hflag (hw' ▸ hwt)) hdrop
    · exact .inr hkernel
  | putReply w hpc =>
    rcases h with ⟨w', hw', hwt⟩ | ⟨b, hb, hbt⟩
    · -- what does not fit is still to be written
      have hne := hok.unwritten w' hw'
      simp only [State.data_writing, Daemon.writing, hpc, Option.some.injEq] at hw'
      subst hw'
      -- the last byte of the reply is put now, or some are left
      by_cases hdone : w.rest.drop (s.controlFifoKernel.put (tagged w.ticket w.rest)).1 = []
      · obtain ⟨b, hb⟩ := List.exists_mem_of_ne_nil _ hne
        have hroom : (tagged w.ticket w.rest).length ≤ s.controlFifoKernel.avail := by
          have hle := List.drop_eq_nil_iff.mp hdone
          rw [Fifo.put_count, length_tagged] at hle
          rw [length_tagged]
          omega
        refine .inr ⟨(w.ticket, b), ?_, hwt⟩
        show _ ∈ (s.controlFifoKernel.put (tagged w.ticket w.rest)).2.data
        rw [Fifo.put_data_of_room hroom]
        exact List.mem_append_right _ (List.mem_map_of_mem hb)
      · exact .inl ⟨_, if_neg hdone, hwt⟩
    · exact .inr ⟨b, List.mem_append_left _ hb, hbt⟩
  | resetKernel hd hpc =>
    rcases h with hwriting | hkernel
    · exact .inl hwriting
    · exact absurd (DropsReply.resetKernel hd hpc hkernel) hdrop
  | readNothing stale hpc hget =>
    rcases h with hwriting | hkernel
    · exact absurd (DropsReply.readNothing stale (empty_of_readNothing hget) hwriting) hdrop
    · exact .inr hkernel
  | daemonExit =>
    rcases h with hwriting | hkernel
    · exact absurd (DropsReply.daemonExit hwriting) hdrop
    · exact .inr hkernel
  | _ => exact h

/-- A request stays somewhere until it, or the reply to it, is thrown away. -/
theorem holds_step {s s' : State} {a : Action} {t : Ticket} (hok : DataOk s.data)
    (h : s.data.Holds t) (hdis : ¬ Discards s t a) (hs : s.step a = some s') :
    s'.data.Holds t := by
  rcases h with hun | hans
  · rcases unserved_step hok hun (fun h => hdis (.inl h)) hs with hun' | ⟨d, mesg, -, hmem, hwriting, -⟩
    · exact .inl hun'
    · obtain ⟨reply, hreply⟩ := Control.processMessage_reply (hok.built_serving hmem) s.daemon.tuners d
      rw [hreply] at hwriting
      exact .inr (.inl ⟨_, hwriting, rfl⟩)
  · exact .inr (answered_step hok hans (fun h => hdis (.inr h)) hs)

end DvbHdhomerun
