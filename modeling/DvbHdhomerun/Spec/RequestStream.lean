import DvbHdhomerun.Spec.InFlight

/-!
# The stream of requests

The daemon reads the requests off `control_fifo_user` in pieces of 36 bytes. The pieces are
the messages that were posted, in order, exactly as long as every post finds 36 bytes of
room: 32768 is not a multiple of 36, so a post into a full FIFO still copies 8 bytes, and
from then on the reader is out of step.
-/

namespace DvbHdhomerun

/-- The messages for which `hdhomerun_control_post_message` returned 1, in order. -/
def postedMesgs (attempts : List Attempt) : List ControlMesg :=
  (attempts.filter fun a => a.ret = 1).map Attempt.mesg

/-- A successful post adds its message. -/
@[simp] theorem postedMesgs_append (attempts : List Attempt) (a : Attempt) :
    postedMesgs (attempts ++ [a]) =
      postedMesgs attempts ++ if a.ret = 1 then [a.mesg] else [] := by
  simp only [postedMesgs, List.filter_append, List.map_append, List.filter_singleton]
  split <;> simp_all

/-- The messages pushed on `m_messages` are the first of the messages posted. -/
def PushedInOrder (s : State) : Prop := s.hist.pushed <+: postedMesgs s.hist.attempts

/-- A call that returns -1 has left `control_fifo_user` as it was. -/
def FailedPostKeepsFifo (s : State) (_ : Action) (s' : State) : Prop :=
  ∀ ρ, s'.hist.returned = s.hist.returned ++ [ρ] → ρ.ret = -1 →
    s'.controlFifoUser = s.controlFifoUser

/-- The FIFO holds exactly the messages posted and not yet read, each of them whole. -/
private def StreamInv (d : Data) : Prop :=
  ∃ pending : List (Ticket × ControlMesg), Fifo.Framed frame d.user pending ∧
    postedMesgs d.attempts = d.pushed ++ pending.map Prod.snd

/-- It holds of the fresh channel. -/
private theorem StreamInv.init : StreamInv State.init.data := ⟨[], rfl, rfl⟩

/-- Every step with room for its request keeps it, as long as nothing is released. -/
private theorem StreamInv.step {s s' : State} {a : Action} (hinv : StreamInv s.data)
    (hroom : RoomForRequest s a) (hfree : a.isRelease = false) (hs : s.step a = some s') :
    StreamInv s'.data := by
  have heff := State.step_effect hs
  obtain ⟨pending, hframed, hposted⟩ := hinv
  simp only [State.data_user, State.data_attempts, State.data_pushed] at hframed hposted
  generalize s'.data = d' at heff
  cases heff with
  | putRequest c hpc =>
    have hret : s.postResult c = 1 := State.postResult_eq_one_iff.mpr (hroom hpc)
    refine ⟨pending ++ [(s.hist.attempts.length, (s.clients c).mesg)], ?_, ?_⟩
    · have hfits : (frame (s.hist.attempts.length, (s.clients c).mesg)).length ≤
          s.controlFifoUser.avail := by
        rw [length_frame]
        exact hroom hpc
      exact Fifo.Framed.put hframed hfits
    · simp [hret, hposted]
  | readRequest stale t b rest hpc hget =>
    obtain ⟨pending', rfl, hframed'⟩ := read_framed stale hframed hget
    exact ⟨pending', hframed', by simp [hposted]⟩
  | readNothing stale hpc hget =>
    -- nothing to read: the FIFO was empty and stays so
    have hempty := empty_of_readNothing hget
    refine ⟨pending, ?_, hposted⟩
    show (s.controlFifoUser.get sizeofControlMesg).2.data = pending.flatMap frame
    rw [← hframed, Fifo.get_data, hempty, List.drop_nil]
  | resetUser hd hpc => exact nomatch hfree
  | _ => exact ⟨pending, hframed, hposted⟩

/-! ## Failed posts -/

/-- Client steps other than the put do not touch `control_fifo_user`. -/
private theorem user_of_client {s s' : State} {c : ClientId} (hs : s.step (.client c) = some s')
    (hpc : (s.clients c).pc ≠ .put) : s'.controlFifoUser = s.controlFifoUser := by
  have heff := State.step_effect hs
  have hd : s'.controlFifoUser = s'.data.user := rfl
  rw [hd]
  generalize s'.data = d' at heff
  cases heff with
  | quiet => rfl
  | putRequest _ hput => exact absurd hput hpc
  | getReply => rfl

/-- With room for its request no post fails. -/
private theorem failedPost_of_room {s s' : State} {a : Action} (hroom : RoomForRequest s a)
    (hs : s.step a = some s') : FailedPostKeepsFifo s a s' := by
  intro ρ hρ hret
  have hlast : ∀ ρ', s'.hist.returned = s.hist.returned ++ [ρ'] → ρ' = ρ := fun ρ' h =>
    List.singleton_inj.mp (List.append_cancel_left (h.symm.trans hρ))
  cases State.step_returned hs with
  | same _ h => exact absurd (h.symm.trans hρ) (by simp)
  | refused c r mem e hb h =>
    -- a refused call does not come to the post
    have heinval := Request.build_error hb
    rw [← hlast _ h] at hret
    simp only [heinval, EINVAL] at hret
    omega
  | notReady c hpc hready h => exact user_of_client hs (by rw [hpc]; decide)
  | noRoom c hpc hpost h => exact absurd (State.postResult_eq_one_iff.mpr (hroom hpc)) hpost
  | interrupted c hpc h => exact user_of_client hs (by rw [hpc]; decide)
  | got c hpc h => exact user_of_client hs (by rw [hpc]; decide)

/-- A put without room returns -1 and yet copies what fits. -/
private theorem step_put_full {s s' : State} {c : ClientId} (hpc : (s.clients c).pc = .put)
    (hret : s.postResult c ≠ 1) (hs : s.step (.client c) = some s') :
    (∃ ρ, s'.hist.returned = s.hist.returned ++ [ρ] ∧ ρ.ret = -1) ∧
      s'.controlFifoUser = (s.controlFifoUser.put (s.request c)).2 := by
  have hminus : s.postResult c = -1 := by
    unfold State.postResult at hret ⊢
    split
    · rfl
    · rename_i hlt
      exact absurd (if_neg hlt) hret
  cases State.step_move hs with
  | noRoom => exact ⟨⟨_, rfl, hminus⟩, rfl⟩
  | posted _ _ hone => exact absurd hone hret
  | clientGoes _ pc hgo =>
    cases hgo with
    | ready h | found h | interrupted h | sleep h | again h | get h => cases hpc.symm.trans h
  | lockFeed _ _ h | notReady _ h | setWait _ h | clearWait _ h | get _ h | unlockFeed _ _ _ h =>
    cases hpc.symm.trans h

/-- A post that fails leaves a part of its message. -/
private theorem room_of_failedPost {s s' : State} {a : Action} (hinv : StreamInv s.data)
    (hs : s.step a = some s') (hkeep : FailedPostKeepsFifo s a s') : RoomForRequest s a := by
  cases a with
  | client c =>
    intro hpc
    by_contra hfull
    have hret : s.postResult c ≠ 1 := fun h => hfull (State.postResult_eq_one_iff.mp h)
    obtain ⟨⟨ρ, hρ, hρret⟩, huser⟩ := step_put_full hpc hret hs
    rw [hkeep ρ hρ hρret] at huser
    -- 8 bytes at least are free, whatever the number of messages
    obtain ⟨pending, hframed, -⟩ := hinv
    have hpos : 0 < s.controlFifoUser.avail := hframed.avail_pos length_frame (by decide)
    have hdata := congrArg (fun f => f.data.length) huser
    simp only [Fifo.put_data, List.length_append, List.length_take, State.length_request] at hdata
    have hsizeof : sizeofControlMesg = 36 := rfl
    omega
  | _ => trivial

/-- In a run without a release, the daemon's messages are the posted ones, in order and byte
    for byte, and failed posts leave no trace, exactly when every post finds room for the
    whole message. -/
theorem request_stream_iff (acts : List Action) (hfree : ReleaseFree acts) :
    (Run.EveryState State.step PushedInOrder .init acts ∧
        Run.EveryStep State.step FailedPostKeepsFifo .init acts) ↔
      Run.Guarded State.step RoomForRequest .init acts := by
  have hfree' : Run.EveryStep State.step (fun _ a _ => a.isRelease = false) .init acts :=
    Run.EveryStep.of_forall hfree
  have hstep : ∀ s a s', StreamInv s.data → RoomForRequest s a ∧ a.isRelease = false →
      s.step a = some s' → StreamInv s'.data :=
    fun _ _ _ hinv hok hs => hinv.step hok.1 hok.2 hs
  constructor
  · rintro ⟨-, hkeep⟩
    -- a post without room would fail and leave a part of its message
    have hroom : ∀ s a s', StreamInv s.data → s.step a = some s' →
        FailedPostKeepsFifo s a s' ∧ a.isRelease = false →
        RoomForRequest s a ∧ a.isRelease = false :=
      fun _ _ _ hinv hs h => ⟨room_of_failedPost hinv hs h.1, h.2⟩
    have hok := Run.Guarded.of_everyStep hstep hroom StreamInv.init (hkeep.and hfree')
    exact hok.imp fun _ _ _ _ h => h.1
  · intro hroom
    have hprefix : ∀ s : State, StreamInv s.data → PushedInOrder s := by
      rintro s ⟨pending, -, hposted⟩
      exact ⟨pending.map Prod.snd, hposted.symm⟩
    constructor
    · exact Run.EveryState.of_invariant hstep hprefix StreamInv.init (hroom.and hfree')
    · exact hroom.imp fun _ _ _ hs hok => failedPost_of_room hok hs

/-- One call from its entry to its return: its post finds room, and the daemon has its message. -/
theorem request_stream_iff_roundTrip :
    Run.Guarded State.step RoomForRequest .init Schedule.roundTrip ∧
      Run.EveryStep State.step FailedPostKeepsFifo .init Schedule.roundTrip ∧
      ∃ s, State.run Schedule.roundTrip = some s ∧ PushedInOrder s ∧
        s.hist.pushed = postedMesgs s.hist.attempts ∧ s.hist.pushed.length = 1 := by
  have hroom : Run.Guarded State.step RoomForRequest .init Schedule.roundTrip := by decide
  obtain ⟨horder, hkeeps⟩ := (request_stream_iff Schedule.roundTrip (by decide)).mpr hroom
  let s := (State.run Schedule.roundTrip).get (by decide)
  have hrun : State.run Schedule.roundTrip = some s := (Option.some_get _).symm
  exact ⟨hroom, hkeeps, s, hrun, horder.last hrun, by decide, by decide⟩

/-! ## The 911th post -/

/-- Clients `0` to `n - 1` post a request each, and nobody reads. -/
private def posts (n : Nat) : List Action :=
  (List.range n).flatMap fun c => Schedule.post c (.feReadStatus 0)

/-- Posts release nothing. -/
private theorem releaseFree_posts (n : Nat) : ReleaseFree (posts n) := by
  intro a ha
  obtain ⟨c, -, hc⟩ := List.mem_flatMap.mp ha
  have hpost : Schedule.post c (.feReadStatus 0) =
      [.call c (.feReadStatus 0) .zero, .client c, .client c] := rfl
  simp only [hpost, List.mem_cons, List.not_mem_nil, or_false] at hc
  rcases hc with rfl | rfl | rfl <;> rfl

/-- The first 910 posts find room. -/
private theorem exec_posts (n : Nat) (hn : n ≤ 910) :
    ∃ s, State.run (.openHandle 0 :: posts n) = some s ∧ s.userspaceReady = true ∧
      s.controlFifoUser.len = 36 * n ∧ ∀ c, n ≤ c → s.clients c = .init := by
  induction n with
  | zero => exact ⟨_, rfl, rfl, rfl, fun _ _ => rfl⟩
  | succ n ih =>
    obtain ⟨s, hrun, hready, hlen, hidle⟩ := ih (by omega)
    have havail := s.controlFifoUser.len_add_avail
    have hbufsize : controlBufsize = 32768 := rfl
    have hsizeof : sizeofControlMesg = 36 := rfl
    have hroom : sizeofControlMesg ≤ s.controlFifoUser.avail := by omega
    -- one more client enters and finds room for its request
    have henter := Schedule.exec_enter (hidle n (Nat.le_refl n)) hready
    generalize hs₁ : s.setClient n _ = s₁ at henter
    have hpc : (s₁.clients n).pc = .put := by simp [← hs₁, State.setClient]
    have huser : s₁.controlFifoUser = s.controlFifoUser := by rw [← hs₁]; rfl
    have hret : s₁.postResult n = 1 := State.postResult_eq_one_iff.mpr (by rw [huser]; exact hroom)
    refine ⟨s₁.putRequest n (s₁.clients n), ?_, ?_, ?_, ?_⟩
    · have hposts : Action.openHandle 0 :: posts (n + 1) = (.openHandle 0 :: posts n) ++
          ([.call n (.feReadStatus 0) .zero, .client n] ++ [.client n]) := by
        simp [posts, List.range_succ]
        rfl
      rw [hposts, State.run, Run.exec_append_of_some hrun, Run.exec_append_of_some henter]
      simp [Run.exec, State.step, State.clientStep, hpc]
    all_goals rw [State.putRequest_eq, if_pos hret]
    · rw [← hs₁]
      exact hready
    · show (s₁.controlFifoUser.put (s₁.request n)).2.data.length = 36 * (n + 1)
      rw [Fifo.put_data_of_room (by rw [huser, State.length_request]; exact hroom),
        List.length_append, State.length_request, huser, ← Fifo.len, hlen, hsizeof, Nat.mul_succ]
    · intro c hc
      have hne : c ≠ n := by omega
      simp only [State.setClient, Function.update_of_ne hne, State.afterPut, ← hs₁]
      exact hidle c (by omega)

/-- 911 clients post: the last one is told that there is no room, and still leaves 8 bytes
    behind. -/
theorem failed_post_leaves_bytes :
    ¬ ∀ acts, ReleaseFree acts →
      Run.EveryState State.step PushedInOrder .init acts ∧
        Run.EveryStep State.step FailedPostKeepsFifo .init acts := by
  intro hall
  obtain ⟨s, hrun, hready, hlen, hidle⟩ := exec_posts 910 (Nat.le_refl _)
  have henter := Schedule.exec_enter (hidle 910 (Nat.le_refl _)) hready
  generalize hs₁ : s.setClient 910 _ = s₁ at henter
  have hpc : (s₁.clients 910).pc = .put := by simp [← hs₁, State.setClient]
  have huser : s₁.controlFifoUser = s.controlFifoUser := by rw [← hs₁]; rfl
  -- 32768 - 36 * 910 bytes are free
  have havail := s.controlFifoUser.len_add_avail
  have hbufsize : controlBufsize = 32768 := rfl
  have hfree : s₁.controlFifoUser.avail = 8 := by
    rw [huser]
    omega
  have hret : s₁.postResult 910 ≠ 1 := by
    rw [Ne, State.postResult_eq_one_iff, hfree]
    decide
  have hstep : s₁.step (.client 910) = some (s₁.putRequest 910 (s₁.clients 910)) := by
    simp [State.step, State.clientStep, hpc]
  let as : List Action :=
    (.openHandle 0 :: posts 910) ++ [.call 910 (.feReadStatus 0) .zero, .client 910]
  have hrun₁ : Run.exec State.step .init as = some s₁ := by
    rw [Run.exec_append_of_some hrun, henter]
  have hrelease : ReleaseFree (as ++ [.client 910]) := by
    intro a ha
    simp only [as, List.cons_append, List.mem_cons, List.mem_append, List.not_mem_nil, or_false]
      at ha
    rcases ha with rfl | (ha | rfl | rfl) | rfl
    · rfl
    · exact releaseFree_posts 910 a ha
    all_goals rfl
  have hkeep := Run.everyStep_iff.mp (hall _ hrelease).2 as (.client 910) [] s₁ _ rfl hrun₁ hstep
  obtain ⟨⟨ρ, hρ, hρret⟩, hput⟩ := step_put_full hpc hret hstep
  have hdata := congrArg Fifo.len ((hkeep ρ hρ hρret).symm.trans hput)
  simp only [Fifo.len, Fifo.put_data, List.length_append, List.length_take, hfree,
    State.length_request, sizeofControlMesg] at hdata
  omega

end DvbHdhomerun
