import DvbHdhomerun.Spec.ChannelClients
import DvbHdhomerun.Spec.ChannelRelay

/-!
# Whose reply a call returns

Nothing in `hdhomerun_control_wait_for_message` connects the bytes it takes with the
request of its caller: whoever runs first takes the oldest reply, and a caller that comes
too late takes none. A call returns its own reply exactly if, when it takes one, its own
has arrived and every older one is gone.
-/

namespace DvbHdhomerun

/-- A client takes a reply only when its own has arrived and all older ones are gone. -/
def InTurn (s : State) : Action → Prop
  | .client c =>
    (s.clients c).pc = .get → ∃ t ∈ (s.clients c).ticket,
      (∃ b ∈ s.controlFifoKernel.data, b.1 = t) ∧ ∀ b ∈ s.controlFifoKernel.data, t ≤ b.1
  | _ => True

/-- Every put finds room for the whole message, every get is in turn. -/
def TakesInTurn (s : State) (a : Action) : Prop := Roomy s a ∧ InTurn s a

instance (s : State) : (a : Action) → Decidable (InTurn s a)
  | .client c => inferInstanceAs (Decidable ((s.clients c).pc = .get → _))
  | .call .. | .signal _ | .openHandle _ | .releaseHandle _ | .daemonStart _ | .daemonExit
  | .daemonRead _ | .daemonHandle _ | .daemonStep => instDecidableTrue

instance (s : State) (a : Action) : Decidable (TakesInTurn s a) :=
  inferInstanceAs (Decidable (_ ∧ _))

/-- The call behind `ρ` posted a request, and its message now holds the daemon's whole
    reply to that very request. -/
def OwnReply (s : State) (ρ : Return) : Prop :=
  ρ.ret = sizeofControlMesg ∧
    ∃ t m mem lock, ρ.ticket = some t ∧ ρ.request.build mem = .ok (lock, m) ∧
      s.hist.attempts[t]? = some ⟨ρ.client, m, 1⟩ ∧
      (t, ρ.mesg) ∈ s.hist.replies ∧ DaemonAnswers m ρ.mesg

/-- Every call that has returned a value `≥ 0` holds its own reply. -/
def RepliesMatched (s : State) : Prop := ∀ ρ ∈ s.hist.returned, 0 ≤ ρ.ret → OwnReply s ρ

/-! ## The get -/

/-- In a queue of whole replies with increasing tickets, the reply with the least ticket
    is the one that a get takes. -/
private theorem take_oldest {f : ControlFifo} {answered : List (Ticket × ControlMesg)} {t : Ticket}
    (hf : Fifo.Framed frame f answered) (hinc : (answered.map Prod.fst).Pairwise (· < ·))
    (hin : ∃ b ∈ f.data, b.1 = t) (hmin : ∀ b ∈ f.data, t ≤ b.1) :
    ∃ m, (t, m) ∈ answered ∧ (f.get sizeofControlMesg).1 = frame (t, m) := by
  obtain ⟨b, hb, rfl⟩ := hin
  obtain ⟨x, hx, hbx⟩ := hf.mem_iff.mp hb
  cases answered with
  | nil => exact nomatch hx
  | cons y rest =>
    have hle : b.1 ≤ y.1 := by
      obtain ⟨b', hb', hby⟩ := exists_mem_frame y
      rw [← hby]
      exact hmin b' (hf.mem_iff.mpr ⟨y, List.mem_cons_self, hb'⟩)
    -- the least ticket is at the head
    have hyx : y = x := by
      rcases List.mem_cons.mp hx with rfl | hrest
      · rfl
      · have hlt := (List.pairwise_cons.mp hinc).1 x.1 (List.mem_map_of_mem hrest)
        rw [mem_frame hbx] at hle
        exact absurd hlt (Nat.not_lt.mpr hle)
    subst hyx
    rw [mem_frame hbx]
    exact ⟨y.2, List.mem_cons_self, hf.get_items length_frame⟩

/-- What a client takes in turn is the daemon's whole reply to its request. -/
theorem own_reply {s : State} {c : ClientId} (hrel : Relayed s) (hcl : ClientsOk s)
    (hpc : (s.clients c).pc = .get) (hturn : TakesInTurn s (.client c)) :
    OwnReply s ⟨c, (s.clients c).request, (s.clients c).ticket, s.oldestReply.length,
      (s.clients c).mesg.fill (s.oldestReply.map Prod.snd)⟩ := by
  obtain ⟨r, href, hinv⟩ := hrel
  obtain ⟨t, ht, hin, hmin⟩ := hturn.2 hpc
  obtain ⟨reply, hmem, htake⟩ := take_oldest href.kernel hinv.answered_increasing hin hmin
  have hitems : s.oldestReply = frame (t, reply) := htake
  obtain ⟨mem, hbuilt⟩ := (hcl c).built (.inr (by rw [hpc]; rfl))
  obtain ⟨t', ht', hatt⟩ := hcl.of_get hpc
  cases ht.symm.trans ht'
  have hserved : (t, reply) ∈ s.hist.replies := by
    rw [show s.hist.replies = r.served from href.served]
    exact hinv.answered_sublist.subset hmem
  -- the daemon answered the request with this ticket, which is the client's
  obtain ⟨m, hm, hans⟩ := hinv.answers (t, reply) (hinv.answered_sublist.subset hmem)
  rw [← href.requests] at hm
  obtain ⟨a, ha, -, rfl⟩ := mem_postedRequests.mp hm
  cases hatt.symm.trans ha
  -- a whole reply overwrites the whole message
  have hfill : (s.clients c).mesg.fill (s.oldestReply.map Prod.snd) = reply := by
    rw [hitems, frame, map_snd_tagged, fill_bytes]
  rw [hfill]
  refine ⟨?_, t, (s.clients c).mesg, mem, (s.clients c).lock, ht, hbuilt, hatt, hserved, hans⟩
  rw [hitems, length_frame]

/-! ## Runs -/

/-- The channel is described by the relay, and the replies returned so far match. -/
structure MatchInv (s : State) : Prop where
  relayed : Relayed s
  clients : ClientsOk s
  matched : RepliesMatched s

/-- An own reply stays one. -/
private theorem OwnReply.mono {s s' : State} {a : Action} {ρ : Return} (h : OwnReply s ρ)
    (hs : s.step a = some s') : OwnReply s' ρ := by
  obtain ⟨hret, t, m, mem, lock, ht, hbuilt, hatt, hmem, hans⟩ := h
  obtain ⟨-, hreplies, -⟩ := State.step_logs hs
  exact ⟨hret, t, m, mem, lock, ht, hbuilt, State.step_attempts_getElem? hs hatt,
    hreplies.subset hmem, hans⟩

/-- One more return that matches. -/
private theorem RepliesMatched.snoc {s s' : State} {a : Action} {ρ : Return}
    (hm : RepliesMatched s) (hs : s.step a = some s')
    (h : s'.hist.returned = s.hist.returned ++ [ρ]) (hρ : 0 ≤ ρ.ret → OwnReply s ρ) :
    RepliesMatched s' := by
  intro ρ' hmem hret
  rw [h] at hmem
  rcases List.mem_append.mp hmem with hold | hnew
  · exact (hm ρ' hold hret).mono hs
  · rw [List.mem_singleton.mp hnew] at hret ⊢
    exact (hρ hret).mono hs

/-- Every step that takes its reply in turn keeps the replies matched. -/
theorem matched_step {s s' : State} {a : Action} (hinv : MatchInv s)
    (hturn : TakesInTurn s a) (hs : s.step a = some s') : RepliesMatched s' := by
  have hm := hinv.matched
  cases State.step_returned hs with
  | same _ h =>
    intro ρ hmem hret
    rw [h] at hmem
    exact (hm ρ hmem hret).mono hs
  | refused c r mem e hb h =>
    refine hm.snoc hs h fun hret => ?_
    have := Request.build_error hb
    simp only [this, EINVAL] at hret
    omega
  | notReady c hpc hready h => exact hm.snoc hs h fun hret => (by simp at hret)
  | noRoom c hpc hpost h =>
    refine hm.snoc hs h fun hret => ?_
    simp only [State.postResult] at hpost hret
    split at hret <;> simp_all
  | interrupted c hpc h => exact hm.snoc hs h fun hret => (by simp [ERESTARTSYS] at hret)
  | got c hpc h => exact hm.snoc hs h fun _ => own_reply hinv.relayed hinv.clients hpc hturn

/-- In a run in which every client takes its reply in turn, every call that returns a value
    `≥ 0` returns the daemon's whole reply to its own request. -/
theorem replies_matched (acts : List Action)
    (hok : Run.Guarded State.step TakesInTurn .init acts) :
    Run.EveryState State.step RepliesMatched .init acts := by
  have h₀ : MatchInv .init := ⟨.init, .init, fun _ h => (nomatch h)⟩
  have hstep : ∀ s a s', MatchInv s → TakesInTurn s a → s.step a = some s' → MatchInv s' :=
    fun _ _ _ hinv hturn hs =>
      ⟨hinv.relayed.step hturn.1 hs, hinv.clients.step hs, matched_step hinv hturn hs⟩
  exact Run.EveryState.of_invariant hstep (fun _ h => h.matched) h₀ hok

/-- One call from its entry to its return. -/
theorem replies_matched_roundTrip :
    (∃ s, State.run Schedule.roundTrip = some s ∧ s.hist.returned.map Return.ret = [36]) ∧
      Run.EveryState State.step RepliesMatched .init Schedule.roundTrip :=
  ⟨⟨_, (Option.some_get (by decide)).symm, by decide⟩, replies_matched Schedule.roundTrip (by decide)⟩

/-- Two calls wait, the daemon answers the first one, and the second one wakes up first:
    it returns the reply to a question that it did not ask. -/
theorem replies_swapped : ¬ ∀ acts, Run.EveryState State.step RepliesMatched .init acts := by
  intro hall
  let acts : List Action := [.openHandle 0, .daemonStart []] ++
    Schedule.post 0 (.feReadStatus 0) ++ Schedule.sleep 0 ++
    Schedule.post 1 (.feReadSignalStrength 0) ++ Schedule.sleep 1 ++
    Schedule.serve ++ Schedule.write ++ Schedule.take 1
  have hrun : State.run acts = some ((State.run acts).get (by decide)) :=
    (Option.some_get _).symm
  have hreturned : ((State.run acts).get (by decide)).hist.returned =
      [⟨1, .feReadSignalStrength 0, some 1, 36, dvbHdhomerunFeReadStatus 0 .zero⟩] := by decide
  have hreplies : ((State.run acts).get (by decide)).hist.replies =
      [(0, dvbHdhomerunFeReadStatus 0 .zero)] := by decide
  obtain ⟨-, t, m, mem, lock, ht, -, -, hmem, -⟩ :=
    (hall acts).last hrun _ (by rw [hreturned]; exact List.mem_singleton_self _) (by decide)
  rw [hreplies] at hmem
  cases ht
  simp at hmem

end DvbHdhomerun
