import DvbHdhomerun.Spec.ChannelSteps

/-!
# Clients and their requests

What holds of every client in every reachable state, whatever the schedule: until it has
posted, a call has no ticket; from the post to the return it owns the ticket of a request
that was posted whole, and its message is still the one it built. The logs only grow.
-/

namespace DvbHdhomerun

namespace State

variable {s s' : State} {a : Action}

/-- The logs of attempts, replies and executed calls only grow. -/
theorem step_logs (h : s.step a = some s') :
    s.hist.attempts <+: s'.hist.attempts ∧ s.hist.replies <+: s'.hist.replies ∧
      s.hist.executed <+: s'.hist.executed := by
  have heff := step_effect h
  have hd : s'.hist.attempts = s'.data.attempts ∧ s'.hist.replies = s'.data.replies ∧
      s'.hist.executed = s'.data.executed := ⟨rfl, rfl, rfl⟩
  rw [hd.1, hd.2.1, hd.2.2]
  generalize s'.data = d' at heff
  cases heff with
  | putRequest c hpc => exact ⟨List.prefix_append .., List.prefix_rfl, List.prefix_rfl⟩
  | handleMessage => exact ⟨List.prefix_rfl, List.prefix_append .., List.prefix_append ..⟩
  | _ => exact ⟨List.prefix_rfl, List.prefix_rfl, List.prefix_rfl⟩

/-- Attempts are only ever added. -/
theorem step_attempts_getElem? (h : s.step a = some s') {t : Ticket} {x : Attempt}
    (hx : s.hist.attempts[t]? = some x) : s'.hist.attempts[t]? = some x := by
  obtain ⟨⟨added, hadded⟩, -, -⟩ := step_logs h
  have hlt : t < s.hist.attempts.length := (List.getElem?_eq_some_iff.mp hx).1
  rw [← hadded, List.getElem?_append_left hlt, hx]

end State

/-- What a client record says about the client's request. -/
structure ClientOk (attempts : List Attempt) (c : ClientId) (k : Client) : Prop where
  built : k.pc.before = true ∨ k.pc.waiting = true →
    ∃ mem, k.request.build mem = .ok (k.lock, k.mesg)
  unposted : k.pc.before = true → k.ticket = none
  posted : k.pc.waiting = true →
    ∃ t, k.ticket = some t ∧ attempts[t]? = some ⟨c, k.mesg, 1⟩

/-- All client records are right about their requests. -/
def ClientsOk (s : State) : Prop := ∀ c, ClientOk s.hist.attempts c (s.clients c)

/-- No client is inside a call. -/
theorem ClientsOk.init : ClientsOk State.init := fun _ =>
  ⟨fun h => by simp [State.init, Client.init, ClientPc.before, ClientPc.waiting] at h,
    fun h => (nomatch h), fun h => (nomatch h)⟩

/-- One step of anybody. -/
theorem ClientsOk.step {s s' : State} {a : Action} (hinv : ClientsOk s)
    (h : s.step a = some s') : ClientsOk s' := by
  intro c
  have hc := hinv c
  -- what a step can do to one client
  cases State.step_clients h c with
  | same heq =>
    rw [heq]
    refine ⟨hc.built, hc.unposted, fun hw => ?_⟩
    obtain ⟨t, ht, hatt⟩ := hc.posted hw
    exact ⟨t, ht, State.step_attempts_getElem? h hatt⟩
  | entered r mem mesg lock hb heq =>
    rw [heq]
    refine ⟨fun _ => ⟨mem, hb⟩, fun _ => rfl, fun hw => ?_⟩
    simp only at hw
    split at hw <;> exact nomatch hw
  | moved pc signalled hbefore hwaiting _ heq =>
    rw [heq]
    refine ⟨fun hbw => hc.built ?_, fun hb => hc.unposted ?_, fun hw => ?_⟩
    · rw [← hbefore, ← hwaiting]
      exact hbw
    · rw [← hbefore]
      exact hb
    · obtain ⟨t, ht, hatt⟩ := hc.posted (by rw [← hwaiting]; exact hw)
      exact ⟨t, ht, State.step_attempts_getElem? h hatt⟩
  | posted hpc hret hatt heq =>
    rw [heq, hatt]
    refine ⟨fun _ => hc.built (.inl (by rw [hpc]; rfl)), fun hb => (nomatch hb), fun _ => ?_⟩
    exact ⟨_, rfl, by simp⟩
  | left hbefore hwaiting =>
    refine ⟨fun hbw => ?_, fun hb => ?_, fun hw => ?_⟩
    · simp [hbefore, hwaiting] at hbw
    · simp [hbefore] at hb
    · simp [hwaiting] at hw

/-- A client at the get owns a posted request. -/
theorem ClientsOk.of_get {s : State} {c : ClientId} (h : ClientsOk s)
    (hpc : (s.clients c).pc = .get) :
    ∃ t, (s.clients c).ticket = some t ∧
      s.hist.attempts[t]? = some ⟨c, (s.clients c).mesg, 1⟩ :=
  (h c).posted (by rw [hpc]; rfl)

/-! ## Pieces of schedules -/

namespace Schedule

/-- Client `c` enters a call and posts its message. -/
def post (c : ClientId) (r : Request) : List Action :=
  .call c r .zero :: List.replicate (if r.mesgType = .startFeed ∨ r.mesgType = .stopFeed then 3 else 2)
    (.client c)

/-- It sets `wait_for_write` and, finding no reply, goes to sleep. -/
def sleep (c : ClientId) : List Action := List.replicate 2 (.client c)

/-- Every call on the device succeeds. -/
def deviceOk : DeviceResults := ⟨1, 1, 1, 1, 1, none, ⟨100, 100⟩⟩

/-- The daemon reads a message and handles it. -/
def serve : List Action := [.daemonStep, .daemonRead .zero, .daemonHandle deviceOk]

/-- It writes the reply and goes back to `select`. -/
def write : List Action := List.replicate 6 .daemonStep

/-- A client that has been woken up gets a reply. -/
def take (c : ClientId) : List Action := List.replicate 3 (.client c)

/-- A call with all its steps, from the opening of the control device on. -/
def roundTrip : List Action :=
  [.openHandle 0, .daemonStart []] ++ post 0 (.feReadStatus 0) ++ sleep 0 ++ serve ++ write ++
    take 0

/-- A client comes to the put of its request. -/
theorem exec_enter {s : State} {c : ClientId} (hidle : s.clients c = .init)
    (hready : s.userspaceReady = true) :
    Run.exec State.step s [.call c (.feReadStatus 0) .zero, .client c] =
      some (s.setClient c
        ⟨.put, .feReadStatus 0, none, dvbHdhomerunFeReadStatus 0 .zero, none, false⟩) := by
  simp [Run.exec, State.step, hidle, Client.init, State.startCall, Request.build, State.clientStep,
    State.setClient, State.testUserspaceReady, hready]

end Schedule

end DvbHdhomerun
