import DvbHdhomerun.ForStd.Relay
import DvbHdhomerun.Spec.ChannelSteps

/-!
# The control channel as a relay

What the control channel is for: a relay of whole requests to the daemon and of whole
replies back, in order. The byte FIFOs implement it as long as every put finds room for
the whole message (`Roomy`): 32768 is not a multiple of 36, so a put into an almost full
FIFO copies a part of the message, and the framing is lost.

`Refines` relates the bytes to the relay's queues and `refines_step` shows that every
roomy step of the channel is a move of the relay, or none.
-/

namespace DvbHdhomerun

/-- A message in a FIFO: its bytes under its ticket. -/
def frame (x : Ticket × ControlMesg) : List TaggedByte := tagged x.1 x.2.bytes

/-- A framed message is 36 bytes long. -/
theorem length_frame (x : Ticket × ControlMesg) : (frame x).length = sizeofControlMesg := by
  rw [frame, length_tagged, ControlMesg.size]

/-- All its bytes carry its ticket. -/
theorem mem_frame {x : Ticket × ControlMesg} {b : TaggedByte} (h : b ∈ frame x) : b.1 = x.1 := by
  obtain ⟨_, _, rfl⟩ := List.mem_map.mp h
  rfl

/-- Some byte of every message carries its ticket. -/
theorem exists_mem_frame (x : Ticket × ControlMesg) : ∃ b ∈ frame x, b.1 = x.1 := by
  have hpos : 0 < (frame x).length := by
    rw [length_frame]
    decide
  obtain ⟨b, hb⟩ := List.exists_mem_of_length_pos hpos
  exact ⟨b, hb, mem_frame hb⟩

/-- Copying a whole message into memory makes it that message, whatever was there. -/
theorem fill_bytes (m x : ControlMesg) : m.fill x.bytes = x := by
  have hdrop : m.bytes.drop 36 = [] := List.drop_of_length_le (by simp)
  have htake : x.bytes.take 36 = x.bytes := List.take_of_length_le (by simp)
  cases x with
  | mk bytes size =>
    simp only [ControlMesg.fill, List.overwrite, ControlMesg.mk.injEq] at htake ⊢
    simp [htake, size, sizeofControlMesg, hdrop]

/-- The message read when the bytes read are a whole one. -/
theorem readMesg_of_frame {x : Ticket × ControlMesg} {t : Ticket} {b : UInt8}
    {rest : List TaggedByte} (stale : ControlMesg) (h : frame x = (t, b) :: rest) :
    (t, stale.fill (b :: rest.map Prod.snd)) = x := by
  have ht : t = x.1 := mem_frame (b := (t, b)) (by simp [h])
  have hbytes : b :: rest.map Prod.snd = x.2.bytes := by
    rw [← map_snd_tagged x.1 x.2.bytes, ← frame, h]
    rfl
  rw [hbytes, fill_bytes, ht]

/-- A read from a FIFO of whole messages brings the oldest one. -/
theorem read_framed {f : ControlFifo} {pending : List (Ticket × ControlMesg)} {t : Ticket}
    {b : UInt8} {rest : List TaggedByte} (stale : ControlMesg) (hf : Fifo.Framed frame f pending)
    (hget : (f.get sizeofControlMesg).1 = (t, b) :: rest) :
    ∃ pending', pending = (t, stale.fill (b :: rest.map Prod.snd)) :: pending' ∧
      Fifo.Framed frame (f.get sizeofControlMesg).2 pending' := by
  obtain ⟨x, pending', rfl, hx, hrest⟩ := hf.of_get length_frame hget
  exact ⟨pending', by rw [readMesg_of_frame stale hx], hrest⟩

/-- A read that brings nothing met an empty FIFO. -/
theorem empty_of_readNothing {f : ControlFifo} (hget : (f.get sizeofControlMesg).1 = []) :
    f.data = [] :=
  (Fifo.get_items_eq_nil_iff (by decide)).mp hget

/-! ## The relation -/

/-- The requests for which `hdhomerun_control_post_message` returned 1, with their tickets. -/
def postedRequests (attempts : List Attempt) : List (Ticket × ControlMesg) :=
  attempts.zipIdx.filterMap fun (a, t) => if a.ret = 1 then some (t, a.mesg) else none

/-- A successful post adds its message under the next ticket. -/
theorem postedRequests_append (attempts : List Attempt) (a : Attempt) :
    postedRequests (attempts ++ [a]) =
      postedRequests attempts ++ if a.ret = 1 then [(attempts.length, a.mesg)] else [] := by
  simp only [postedRequests, List.zipIdx_append, List.filterMap_append, Nat.zero_add,
    List.zipIdx_singleton, List.filterMap_cons, List.filterMap_nil]
  split <;> simp_all

/-- The posted requests are the attempts that succeeded. -/
theorem mem_postedRequests {attempts : List Attempt} {t : Ticket} {m : ControlMesg} :
    (t, m) ∈ postedRequests attempts ↔
      ∃ a, attempts[t]? = some a ∧ a.ret = 1 ∧ a.mesg = m := by
  simp only [postedRequests, List.mem_filterMap]
  constructor
  · rintro ⟨⟨a, t'⟩, ha, h⟩
    split at h
    · rename_i hret
      cases h
      exact ⟨a, List.mk_mem_zipIdx_iff_getElem?.mp ha, hret, rfl⟩
    · exact nomatch h
  · rintro ⟨a, ha, hret, rfl⟩
    exact ⟨(a, t), List.mk_mem_zipIdx_iff_getElem?.mpr ha, by simp [hret]⟩

/-- The daemon answers `m` by `r`, in some state of its tuners and of the devices. -/
def DaemonAnswers (m r : ControlMesg) : Prop :=
  ∃ tuners d, (Control.processMessage tuners m d).reply = some r

/-- A reply none of which has been written yet. -/
def Writing.whole (x : Ticket × ControlMesg) : Writing := ⟨x.1, x.2, x.2.bytes⟩

/-- The data of a channel state is the given state of the relay. -/
structure Refines (d : Data) (r : Relay ControlMesg ControlMesg) : Prop where
  user : Fifo.Framed frame d.user r.pending
  kernel : Fifo.Framed frame d.kernel r.answered
  serving : d.serving = r.serving
  writing : d.writing = r.current.map Writing.whole
  next : d.attempts.length = r.next
  requests : postedRequests d.attempts = r.requests
  served : d.replies = r.served
  taken : d.taken.filter (fun bs => bs.length = sizeofControlMesg) = r.taken.map frame

/-- The empty relay describes the fresh channel. -/
theorem Refines.init : Refines State.init.data {} where
  user := rfl
  kernel := rfl
  serving := rfl
  writing := rfl
  next := rfl
  requests := rfl
  served := rfl
  taken := rfl

/-- Every put finds room for the whole message. -/
def Roomy (s : State) : Action → Prop
  | .client c => (s.clients c).pc = .put → sizeofControlMesg ≤ s.controlFifoUser.avail
  | .daemonStep =>
    match s.daemon.pc with
    | .writePut w => w.rest.length ≤ s.controlFifoKernel.avail
    | _ => True
  | _ => True

/-- Deciding a condition on the daemon's put of a reply. -/
@[reducible] def DaemonPc.decideWritePut (f : Writing → Prop) [∀ w, Decidable (f w)] :
    (pc : DaemonPc) → Decidable (match pc with | .writePut w => f w | _ => True)
  | .writePut w => inferInstanceAs (Decidable (f w))
  | .exited | .select | .readGet | .process | .writeTest _ | .writeFull _ | .writeWait _
  | .writeSleep _ | .writeWake _ | .pop => instDecidableTrue

instance (s : State) : (a : Action) → Decidable (Roomy s a)
  | .client c => inferInstanceAs (Decidable ((s.clients c).pc = .put → _))
  | .daemonStep => s.daemon.pc.decideWritePut _
  | .call .. | .signal _ | .openHandle _ | .releaseHandle _ | .daemonStart _ | .daemonExit
  | .daemonRead _ | .daemonHandle _ => instDecidableTrue

namespace State

/-- A request is 36 bytes long. -/
@[simp] theorem length_request (s : State) (c : ClientId) :
    (s.request c).length = sizeofControlMesg := by
  rw [request, length_tagged, ControlMesg.size]

/-- A post returns 1 exactly when there is room for the message. -/
theorem postResult_eq_one_iff {s : State} {c : ClientId} :
    s.postResult c = 1 ↔ sizeofControlMesg ≤ s.controlFifoUser.avail := by
  rw [postResult]
  have hiff : (s.controlFifoUser.put (s.request c)).1 < (s.request c).length ↔ _ :=
    Fifo.put_count_lt_iff
  rw [length_request] at hiff
  split <;> omega

end State

/-! ## The simulation -/

variable {s s' : State} {a : Action} {r : Relay ControlMesg ControlMesg}

/-- Any number of steps of the relay. -/
private abbrev Reach := Relation.ReflTransGen (Relay.Step DaemonAnswers)

/-- A post with room is a request to the relay. -/
private theorem refines_put {c : ClientId} (h : Refines s.data r)
    (hroom : sizeofControlMesg ≤ s.controlFifoUser.avail) :
    ∃ r', Reach r r' ∧ Refines { s.data with
      user := (s.controlFifoUser.put (s.request c)).2
      attempts := s.hist.attempts ++ [⟨c, (s.clients c).mesg, s.postResult c⟩] } r' := by
  have hret := State.postResult_eq_one_iff (c := c).mpr hroom
  have hnext : s.hist.attempts.length = r.next := h.next
  have hreq : s.request c = frame (r.next, (s.clients c).mesg) := by
    rw [State.request, frame, hnext]
  refine ⟨_, .single (.post r (s.clients c).mesg), ?_⟩
  refine { h with user := ?_, next := ?_, requests := ?_ }
  · rw [hreq]
    exact Fifo.Framed.put h.user (by rw [length_frame]; exact hroom)
  · simp [hnext]
  · have hrequests : postedRequests s.hist.attempts = r.requests := h.requests
    simp [postedRequests_append, hret, hrequests, hnext]

/-- A get takes the oldest answer of the relay, if there is one. -/
private theorem refines_get (h : Refines s.data r) :
    ∃ r', Reach r r' ∧ Refines { s.data with
      kernel := (s.controlFifoKernel.get sizeofControlMesg).2
      taken := s.hist.taken ++ [s.oldestReply] } r' := by
  have hkernel : Fifo.Framed frame s.controlFifoKernel r.answered := h.kernel
  have htaken : s.hist.taken.filter (fun bs => bs.length = sizeofControlMesg) =
      r.taken.map frame := h.taken
  cases hans : r.answered with
  | nil =>
    -- an empty FIFO yields no bytes and stays empty
    rw [hans] at hkernel
    have hitems : s.oldestReply = [] := by
      rw [State.oldestReply, Fifo.get_items, hkernel.nil_data, List.take_nil]
    refine ⟨r, .refl, { h with kernel := ?_, taken := ?_ }⟩
    · simp [Fifo.Framed, hans, hkernel.nil_data]
    · simpa [hitems, sizeofControlMesg] using htaken
  | cons x rest =>
    rw [hans] at hkernel
    have hitems : s.oldestReply = frame x := hkernel.get_items length_frame
    refine ⟨_, .single (.take r x rest hans), { h with kernel := ?_, taken := ?_ }⟩
    · exact hkernel.get_rest length_frame
    · simp [hitems, htaken, length_frame]

/-- A read takes the oldest pending request. -/
private theorem refines_read {stale : ControlMesg} {t : Ticket} {b : UInt8}
    {rest : List TaggedByte} (h : Refines s.data r)
    (hget : (s.controlFifoUser.get sizeofControlMesg).1 = (t, b) :: rest) :
    ∃ r', Reach r r' ∧ Refines { s.data with
      user := (s.controlFifoUser.get sizeofControlMesg).2
      serving := s.daemon.serving ++ [(t, stale.fill (b :: rest.map Prod.snd))]
      pushed := s.hist.pushed ++ [stale.fill (b :: rest.map Prod.snd)] } r' := by
  have huser : Fifo.Framed frame s.controlFifoUser r.pending := h.user
  have hserving : s.daemon.serving = r.serving := h.serving
  obtain ⟨xs, hpend, hrest⟩ := read_framed stale huser hget
  refine ⟨_, .single (.fetch r _ xs hpend), { h with user := hrest, serving := ?_ }⟩
  simp only [hserving]

/-- A handler answers the request in service. -/
private theorem refines_handle {d : DeviceResults} {t : Ticket} {mesg : ControlMesg}
    {rest : List (Ticket × ControlMesg)} {handled : Handled} (h : Refines s.data r)
    (hserving : s.daemon.serving = (t, mesg) :: rest) (hwriting : s.daemon.writing = none)
    (hhandled : handled = Control.processMessage s.daemon.tuners mesg d) :
    ∃ r', Reach r r' ∧ Refines { s.data with
      serving := rest
      writing := handled.reply.map fun reply => ⟨t, reply, reply.bytes⟩
      ids := handled.tuners.map (·.mKernelId)
      executed := s.hist.executed ++ (handled.call.map fun call => ⟨t, mesg.id, call⟩).toList
      replies := s.hist.replies ++ (handled.reply.map fun reply => (t, reply)).toList } r' := by
  have hsv : r.serving = (t, mesg) :: rest := h.serving.symm.trans hserving
  have hcur : r.current = none := by
    have hw : s.daemon.writing = r.current.map Writing.whole := h.writing
    rw [hwriting] at hw
    simpa using hw.symm
  have hserved : s.hist.replies = r.served := h.served
  cases hreply : handled.reply with
  | none =>
    -- a message of unknown type: the request is lost
    refine ⟨_, .single (.discard r (t, mesg) rest hsv), { h with
      serving := rfl, writing := ?_, served := ?_ }⟩
    · simp [hcur]
    · simp [hserved]
  | some reply =>
    have hans : DaemonAnswers mesg reply := ⟨s.daemon.tuners, d, hhandled ▸ hreply⟩
    refine ⟨_, .single (.serve r t mesg reply rest hsv hcur hans), { h with
      serving := rfl, writing := rfl, served := ?_ }⟩
    simp [hserved]

/-- A put of a reply with room brings the answer back. -/
private theorem refines_putReply {w : Writing} (h : Refines s.data r)
    (hpc : s.daemon.pc = .writePut w) (hroom : w.rest.length ≤ s.controlFifoKernel.avail) :
    ∃ r', Reach r r' ∧ Refines { s.data with
      kernel := (s.controlFifoKernel.put (tagged w.ticket w.rest)).2
      writing :=
        let rest := w.rest.drop (s.controlFifoKernel.put (tagged w.ticket w.rest)).1
        if rest = [] then none else some { w with rest := rest } } r' := by
  have hw : some w = r.current.map Writing.whole := by
    have hwriting : s.daemon.writing = r.current.map Writing.whole := h.writing
    rwa [Daemon.writing, hpc] at hwriting
  obtain ⟨x, hx, rfl⟩ := Option.map_eq_some_iff.mp hw.symm
  refine ⟨_, .single (.accept r x hx), { h with kernel := ?_, writing := ?_ }⟩
  · exact Fifo.Framed.put h.kernel (by rw [length_frame, ← x.2.size]; exact hroom)
  · -- all of it fits, nothing is left to write
    have hdone : x.2.bytes.drop
        (s.controlFifoKernel.put (tagged x.1 x.2.bytes)).1 = [] := by
      refine List.drop_of_length_le ?_
      rw [Fifo.put_count, length_tagged]
      have hroom' : x.2.bytes.length ≤ s.controlFifoKernel.avail := hroom
      omega
    exact if_pos hdone

/-- Every step with room for what it puts is a move of the relay, or leaves it alone. -/
theorem refines_step (h : Refines s.data r) (hroom : Roomy s a) (hs : s.step a = some s') :
    ∃ r', Relation.ReflTransGen (Relay.Step DaemonAnswers) r r' ∧ Refines s'.data r' := by
  have heff := State.step_effect hs
  generalize s'.data = d' at heff
  -- every effect on the messages is a move of the relay
  cases heff with
  | quiet => exact ⟨r, .refl, h⟩
  | putRequest c hpc => exact refines_put h (hroom hpc)
  | getReply c hpc => exact refines_get h
  | readRequest stale t b rest hpc hget => exact refines_read h hget
  | handleMessage d t mesg rest handled hserving hwriting hhandled =>
    exact refines_handle h hserving hwriting hhandled
  | ignoreReply w hpc hflag => exact ⟨_, .single (.ignore r), { h with writing := rfl }⟩
  | putReply w hpc =>
    simp only [Roomy, hpc] at hroom
    exact refines_putReply h hpc hroom
  | resetKernel hd hpc => exact ⟨_, .single (.flushAnswered r), { h with kernel := rfl }⟩
  | resetUser hd hpc => exact ⟨_, .single (.flushPending r), { h with user := rfl }⟩
  | readNothing stale hpc hget =>
    have hempty := empty_of_readNothing hget
    have hpend : r.pending.flatMap frame = [] := h.user.symm.trans hempty
    refine ⟨_, .single (.crash r), { h with user := ?_, serving := rfl, writing := rfl }⟩
    simp [Fifo.Framed, hempty, hpend]
  | daemonExit => exact ⟨_, .single (.crash r), { h with serving := rfl, writing := rfl }⟩
  | daemonStart tuners hpc => exact ⟨r, .refl, { h with }⟩

/-- The states of the relay a channel state can stand for. -/
def Relayed (s : State) : Prop := ∃ r, Refines s.data r ∧ Relay.Inv DaemonAnswers r

/-- The fresh channel is described by the empty relay. -/
theorem Relayed.init : Relayed State.init := ⟨{}, Refines.init, Relay.Inv.init⟩

/-- Roomy steps keep the channel a relay. -/
theorem Relayed.step (h : Relayed s) (hroom : Roomy s a) (hs : s.step a = some s') :
    Relayed s' := by
  obtain ⟨r, href, hinv⟩ := h
  obtain ⟨r', hreach, href'⟩ := refines_step href hroom hs
  exact ⟨r', href', hinv.mono hreach⟩

/-- The channel refines the relay: every run whose puts all find room is matched by a run
    of the relay. -/
theorem channel_refines_relay {acts : List Action} (hok : Run.Guarded State.step Roomy .init acts)
    (hrun : State.run acts = some s) :
    ∃ r, Relation.ReflTransGen (Relay.Step DaemonAnswers) {} r ∧ Refines s.data r :=
  Run.simulates (R := fun s r => Refines s.data r)
    (fun _ _ _ _ href hroom hs => refines_step href hroom hs) Refines.init hok hrun

end DvbHdhomerun
