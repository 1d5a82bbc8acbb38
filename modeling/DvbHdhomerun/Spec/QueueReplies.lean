import DvbHdhomerun.Spec.Handlers

/-!
# One reply for each message of the queue

`ProcessMessages` empties the queue, and for messages of the types that the kernel posts it
gives `WriteToDevice` one reply each, in the order of the queue (`processMessages_replies`).
A tuner that no message of the queue addresses stays as it is.
-/

namespace DvbHdhomerun

namespace Control

open HdhomerunController

/-- `ProcessMessages` ends with an empty queue and has handed one reply for each message to
    `WriteToDevice`, in order. A tuner that no message of the queue addresses is unchanged. -/
theorem processMessages_replies (s : Messages) (results : Nat → DeviceResults)
    (hposted : ∀ mesg ∈ s.mMessages, Posted mesg) :
    (processMessages s results).mMessages = [] ∧
      (∃ replies, (processMessages s results).written = s.written ++ replies ∧
        List.Forall₂ (Answers s.tuners) s.mMessages replies) ∧
      (processMessages s results).tuners.length = s.tuners.length ∧
      ∀ i, (∀ mesg ∈ s.mMessages, tunerIdx s.tuners mesg.id ≠ i) →
        (processMessages s results).tuners[i]? = s.tuners[i]? := by
  -- induction on the queue; the kernel ids, and so the addressed tuners, stay the same
  generalize hq : s.mMessages = queue
  rw [hq] at hposted
  induction queue generalizing s results with
  | nil =>
    rw [processMessages_nil results hq]
    exact ⟨hq, ⟨[], (List.append_nil _).symm, .nil⟩, rfl, fun _ _ => rfl⟩
  | cons mesg mMessages ih =>
    have hids : (processFront s mesg (results 0)).tuners.map (·.mKernelId) =
        s.tuners.map (·.mKernelId) := processMessage_ids s.tuners mesg (results 0)
    obtain ⟨reply, hreply, hanswers⟩ := processMessage_answers
      (hposted mesg List.mem_cons_self) s.tuners (results 0)
    have hwritten : (processFront s mesg (results 0)).written = s.written ++ [reply] := by
      rw [processFront, hreply]
      rfl
    have htail : (processFront s mesg (results 0)).mMessages = mMessages := by
      rw [processFront, hq]
      rfl
    obtain ⟨hempty, ⟨replies, hrest, hall⟩, hlength, hframe⟩ :=
      ih (processFront s mesg (results 0)) (fun n => results (n + 1))
        (fun m hm => hposted m (List.mem_cons_of_mem mesg hm)) htail
    rw [processMessages_cons results hq]
    refine ⟨hempty, ⟨reply :: replies, ?_, .cons hanswers ?_⟩, ?_, fun i hi => ?_⟩
    · rw [hrest, hwritten, List.append_assoc]
      rfl
    · exact hall.imp fun _ _ h => h.congr hids
    · rw [hlength]
      simpa using congrArg List.length hids
    · rw [hframe i fun m hm => ?_]
      · exact processMessage_frame (hi mesg List.mem_cons_self) (results 0)
      · rw [tunerIdx_congr m.id hids]
        exact hi m (List.mem_cons_of_mem mesg hm)

/-- A status request for the only tuner, and the start of a feed on one that is not there. -/
private def twoMessages : Messages where
  mMessages := [ControlMesg.zero.setType .feReadStatus, (ControlMesg.zero.setId 7).setType .startFeed]
  tuners := [{ HdhomerunTuner.fresh "1234ABCD-0" 1 with mKernelId := 0 }]
  written := []

/-- A device that answers every call in the same way. -/
private def sameResults : Nat → DeviceResults := fun _ => ⟨1, 1, 1, 1, 1, none, ⟨100, 100⟩⟩

/-- A queue of two messages. -/
theorem processMessages_replies_two :
    (processMessages twoMessages sameResults).mMessages = [] ∧
      (∃ replies, (processMessages twoMessages sameResults).written = [] ++ replies ∧
        List.Forall₂ (Answers twoMessages.tuners) twoMessages.mMessages replies) ∧
      (processMessages twoMessages sameResults).tuners.length = twoMessages.tuners.length ∧
      ∀ i, (∀ mesg ∈ twoMessages.mMessages, tunerIdx twoMessages.tuners mesg.id ≠ i) →
        (processMessages twoMessages sameResults).tuners[i]? = twoMessages.tuners[i]? := by
  apply processMessages_replies
  intro mesg hmesg
  rcases List.mem_cons.mp hmesg with rfl | hmesg
  · exact ⟨.feReadStatus, by decide, ControlMesg.type_setType _ _⟩
  · rw [List.mem_singleton.mp hmesg]
    exact ⟨.startFeed, by decide, ControlMesg.type_setType _ _⟩

end Control

end DvbHdhomerun
