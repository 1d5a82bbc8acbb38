import DvbHdhomerun.Spec.ChannelClients
import DvbHdhomerun.Spec.ChannelRelay

/-!
# Replies keep their order

The control channel neither makes up nor repeats nor reorders replies. What the clients
have taken from `control_fifo_kernel` and what still waits there is a subsequence of the
daemon's replies, and the daemon answers every posted request at most once, in the order
of posting. This holds through signals, ignored writes, releases and restarts of the
daemon, as long as no FIFO is asked to hold more than 910 messages.
-/

namespace DvbHdhomerun

/-- No put brings a FIFO above 910 whole messages, the most that fit into 32768 bytes. -/
def AtMost910 (s : State) : Action → Prop
  | .client c =>
    (s.clients c).pc = .put → s.controlFifoUser.len + sizeofControlMesg ≤ 910 * sizeofControlMesg
  | .daemonStep =>
    match s.daemon.pc with
    | .writePut w => s.controlFifoKernel.len + w.rest.length ≤ 910 * sizeofControlMesg
    | _ => True
  | _ => True

instance (s : State) : (a : Action) → Decidable (AtMost910 s a)
  | .client c => inferInstanceAs (Decidable ((s.clients c).pc = .put → _))
  | .daemonStep => s.daemon.pc.decideWritePut _
  | .call .. | .signal _ | .openHandle _ | .releaseHandle _ | .daemonStart _ | .daemonExit
  | .daemonRead _ | .daemonHandle _ => instDecidableTrue

/-- 910 whole messages fit. -/
theorem AtMost910.roomy {s : State} {a : Action} (h : AtMost910 s a) : Roomy s a := by
  have huser := s.controlFifoUser.len_add_avail
  have hkernel := s.controlFifoKernel.len_add_avail
  have hbufsize : controlBufsize = 32768 := rfl
  have hsizeof : sizeofControlMesg = 36 := rfl
  cases a with
  | client c =>
    intro hpc
    have hle := h hpc
    omega
  | daemonStep =>
    unfold AtMost910 at h
    unfold Roomy
    cases hpc : s.daemon.pc with
    | writePut w =>
      rw [hpc] at h
      show w.rest.length ≤ s.controlFifoKernel.avail
      have hle : s.controlFifoKernel.len + w.rest.length ≤ 910 * sizeofControlMesg := h
      omega
    | _ => trivial
  | _ => trivial

/-- The replies taken and queued are replies of the daemon in the daemon's order, and each
    of those answers a posted request that no other reply answers. -/
structure RepliesInOrder (s : State) : Prop where
  order : ∃ taken queued : List (Ticket × ControlMesg),
    s.hist.taken.filter (fun bs => bs.length = sizeofControlMesg) = taken.map frame ∧
      s.controlFifoKernel.data = queued.flatMap frame ∧
      (taken ++ queued).Sublist s.hist.replies
  once : (s.hist.replies.map Prod.fst).Pairwise (· < ·)
  posted : ∀ x ∈ s.hist.replies,
    ∃ m, (x.1, m) ∈ postedRequests s.hist.attempts ∧ DaemonAnswers m x.2

/-- The relay's invariant, read off the channel. -/
theorem Relayed.repliesInOrder {s : State} (h : Relayed s) : RepliesInOrder s := by
  obtain ⟨r, href, hinv⟩ := h
  have hserved : s.hist.replies = r.served := href.served
  have hrequests : postedRequests s.hist.attempts = r.requests := href.requests
  refine ⟨⟨r.taken, r.answered, href.taken, href.kernel, ?_⟩, ?_, ?_⟩
  · rw [hserved]
    exact (List.sublist_append_left _ _).trans hinv.inOrder
  · rw [hserved]
    exact hinv.served_increasing
  · rw [hserved, hrequests]
    exact hinv.answers

/-- As long as no FIFO is asked to hold more than 910 messages, the replies taken and
    queued are an in-order subsequence of the daemon's replies to the posted requests. -/
theorem replies_in_order (acts : List Action)
    (hok : Run.Guarded State.step AtMost910 .init acts) :
    Run.EveryState State.step RepliesInOrder .init acts := by
  have hstep : ∀ s a s', Relayed s → AtMost910 s a → s.step a = some s' → Relayed s' :=
    fun _ _ _ hinv hok hs => hinv.step hok.roomy hs
  exact Run.EveryState.of_invariant hstep (fun _ hinv => hinv.repliesInOrder) Relayed.init hok

/-- One call that is answered. -/
theorem replies_in_order_roundTrip : (State.run Schedule.roundTrip).isSome ∧
    Run.EveryState State.step RepliesInOrder .init Schedule.roundTrip :=
  ⟨by decide, replies_in_order Schedule.roundTrip (by decide)⟩

end DvbHdhomerun
