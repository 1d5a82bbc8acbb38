import DvbHdhomerun.ForStd.List
import DvbHdhomerun.Spec.CallsReturn
import DvbHdhomerun.Spec.ReplyMatching

/-!
# The control channel as a sequential server

What all the FIFOs, flags and wake-ups are for: a client's call is a call of a handler of the
daemon. `Control.sequential` is a server that handles one message after the other, with no
channel. A run of the channel that leaves the messages whole does what this server does with
the requests in the order in which they were posted, whatever else was going on meanwhile.
-/

namespace DvbHdhomerun

namespace Control

/-- Handling one message after the other: the tuners at the end and the replies. -/
def sequential (tuners : List HdhomerunTuner) :
    List (ControlMesg × DeviceResults) → List HdhomerunTuner × List (Option ControlMesg)
  | [] => (tuners, [])
  | (mesg, d) :: rest =>
    let handled := processMessage tuners mesg d
    let (tuners, replies) := sequential handled.tuners rest
    (tuners, handled.reply :: replies)

/-- No request, no reply. -/
@[simp] theorem sequential_nil (tuners : List HdhomerunTuner) :
    sequential tuners [] = (tuners, []) := rfl

/-- One more request is handled on the tuners the others have left. -/
theorem sequential_concat (tuners : List HdhomerunTuner) (mesgs : List (ControlMesg × DeviceResults))
    (mesg : ControlMesg) (d : DeviceResults) :
    sequential tuners (mesgs ++ [(mesg, d)]) =
      ((processMessage (sequential tuners mesgs).1 mesg d).tuners,
        (sequential tuners mesgs).2 ++ [(processMessage (sequential tuners mesgs).1 mesg d).reply]) := by
  induction mesgs generalizing tuners with
  | nil => rfl
  | cons x mesgs ih =>
    obtain ⟨m, d'⟩ := x
    simp only [List.cons_append, sequential, ih]

/-- Every request has one reply. -/
theorem length_sequential (tuners : List HdhomerunTuner)
    (mesgs : List (ControlMesg × DeviceResults)) :
    (sequential tuners mesgs).2.length = mesgs.length := by
  induction mesgs generalizing tuners with
  | nil => rfl
  | cons x mesgs ih =>
    obtain ⟨m, d⟩ := x
    simp only [sequential, List.length_cons, ih]

end Control

/-! ## What a schedule says -/

/-- What a step adds to the results of the device calls. -/
def Action.deviceResult : Action → List DeviceResults
  | .daemonHandle d => [d]
  | _ => []

/-- The results of the device calls that the daemon made, in order. -/
def deviceResults (acts : List Action) : List DeviceResults := acts.flatMap Action.deviceResult

/-- The tuners of the daemon after a step, when it can only have been started. -/
def Action.startTuners (tuners : List HdhomerunTuner) : Action → List HdhomerunTuner
  | .daemonStart tuners' => tuners'
  | _ => tuners

/-- The tuners that the daemon was started with. -/
def startTuners (acts : List Action) : List HdhomerunTuner := acts.foldl Action.startTuners []

/-- The requests, in the order in which they were posted. -/
def State.requests (s : State) : List ControlMesg := s.hist.attempts.map (·.mesg)

/-! ## The invariant -/

/-- The daemon, started with `tuners`, has handled the first requests, with these results of
    the device calls, and has done to them what the sequential server does; the others are
    on their way to it. -/
structure Sequenced (tuners : List HdhomerunTuner) (ds : List DeviceResults) (s : State) :
    Prop where
  handled : ds.length ≤ s.requests.length
  order : ∃ pending, Fifo.Framed frame s.controlFifoUser pending ∧
    s.requests.numbered.drop ds.length = s.daemon.serving ++ pending
  unstarted : s.daemon.pc = .exited → ds = []
  served : s.daemon.pc ≠ .exited →
    s.daemon.tuners = (Control.sequential tuners (s.requests.zip ds)).1
  replies : s.hist.replies.map (fun x => (x.1, some x.2)) =
    (Control.sequential tuners (s.requests.zip ds)).2.numbered

/-- Nothing has been served. -/
theorem Sequenced.init : Sequenced [] [] .init where
  handled := Nat.le_refl 0
  order := ⟨[], rfl, rfl⟩
  unstarted := fun _ => rfl
  served := fun h => absurd rfl h
  replies := rfl

section Step

variable {s s' : State} {a : Action} {tuners : List HdhomerunTuner} {ds : List DeviceResults}

/-- The message that the daemon handles is the first one not handled yet. -/
theorem Sequenced.handle {d : DeviceResults} (h : Sequenced tuners ds s) (hdata : DataOk s.data)
    (hs : s.step (.daemonHandle d) = some s') : Sequenced tuners (ds ++ [d]) s' := by
  cases State.step_move hs with
  | handleMessage _ t mesg rest hpc hmsgs =>
    obtain ⟨pending, hframed, horder⟩ := h.order
    have hserving : s.daemon.serving = (t, mesg) :: rest := by rw [Daemon.serving, hpc, hmsgs]
    rw [hserving, List.cons_append] at horder
    -- the message handled is the oldest request that is not handled yet
    have hhead : s.requests.numbered[ds.length]? = some (t, mesg) := by
      rw [← List.head?_drop, horder, List.head?_cons]
    obtain ⟨rfl, hmesg⟩ := List.getElem?_numbered.mp hhead
    have htail : s.requests.numbered.drop (ds.length + 1) = rest ++ pending := by
      rw [← List.tail_drop, horder, List.tail_cons]
    have hlt : ds.length < s.requests.length := (List.getElem?_eq_some_iff.mp hmesg).1
    have hzip := List.zip_concat_right d hmesg
    have hbuilt : Built mesg := hdata.built_serving (x := (ds.length, mesg)) (by
      rw [State.data_serving, hserving]
      exact List.mem_cons_self)
    obtain ⟨reply, hreply⟩ := Control.processMessage_reply hbuilt s.daemon.tuners d
    have htuners := h.served (by rw [hpc]; exact DaemonPc.noConfusion)
    refine ⟨?_, ⟨pending, hframed, ?_⟩, ?_, ?_, ?_⟩
    · rw [List.length_append]
      exact hlt
    · rw [List.length_append, List.length_singleton]
      show s.requests.numbered.drop (ds.length + 1) = _
      rw [htail]
      simp [Daemon.serving, State.handleMessage, hreply, hmsgs]
    · simp [State.handleMessage, hreply]
    · intro _
      show (Control.processMessage s.daemon.tuners mesg d).tuners =
        (Control.sequential tuners (s.requests.zip (ds ++ [d]))).1
      rw [hzip, Control.sequential_concat, ← htuners]
    · show (s.hist.replies ++ _).map _ =
        (Control.sequential tuners (s.requests.zip (ds ++ [d]))).2.numbered
      rw [hzip, Control.sequential_concat, ← htuners, hreply, List.numbered_concat,
        Control.length_sequential, List.length_zip, ← h.replies]
      simp [Nat.min_eq_right h.handled]

/-- The tuners only change when the daemon starts and when it handles a message. -/
theorem tuners_step (hd : DaemonOk s) (hok : Intact s a) (hs : s.step a = some s')
    (ha : ∀ d, a ≠ .daemonHandle d) : s'.daemon.tuners = a.startTuners s.daemon.tuners := by
  cases State.step_move hs with
  | handleMessage d => exact absurd rfl (ha d)
  | daemonExit => exact nomatch hok.running
  | readNothing stale hpc hget =>
    have hlen := hd.readable hpc
    rw [Fifo.len, empty_of_readNothing hget] at hlen
    exact nomatch hlen
  | _ => rfl

/-- A start of the daemon brings the tuners to begin with. -/
theorem Sequenced.start {tuners' : List HdhomerunTuner} (h : Sequenced tuners ds s)
    (hs : s.step (.daemonStart tuners') = some s') : Sequenced tuners' ds s' := by
  cases State.step_move hs with
  | daemonStart _ hpc =>
    -- there has been nothing to handle a message
    obtain rfl := h.unstarted hpc
    obtain ⟨pending, hframed, horder⟩ := h.order
    have hreplies := h.replies
    rw [List.zip_nil_right] at hreplies
    refine ⟨h.handled, ⟨pending, hframed, ?_⟩, fun _ => rfl, fun _ => ?_, ?_⟩
    · rw [Daemon.serving, hpc] at horder
      exact horder
    · rw [List.zip_nil_right]
      rfl
    · rw [List.zip_nil_right]
      exact hreplies

/-- Only its start brings a daemon into being, and it does not end. -/
theorem exited_step (hd : DaemonOk s) (hok : Intact s a) (hs : s.step a = some s')
    (ha : ∀ tuners, a ≠ .daemonStart tuners) :
    s'.daemon.pc = .exited ↔ s.daemon.pc = .exited := by
  refine ⟨fun h => ?_, fun h => ?_⟩
  · by_contra hrunning
    exact hd.running_step hok hs hrunning h
  · cases State.step_move hs with
    | daemonStart tuners => exact absurd rfl (ha tuners)
    | daemonGoes pc hgo =>
      cases hgo with
      | readable hpc | served hpc | write w hpc | full w hpc | room w hpc | retest w hpc
      | sleep w hpc => exact nomatch h.symm.trans hpc
    | daemonExit => exact nomatch hok.running
    | readNothing _ hpc | readRequest _ _ _ _ hpc | handleMessage _ _ _ _ hpc
    | ignoreReply _ hpc | putReply _ hpc | finishWrite _ hpc | pop hpc =>
      exact nomatch h.symm.trans hpc
    | _ => exact h

/-- Steps that neither post nor handle a request may still move one. -/
private theorem Sequenced.of_eq (h : Sequenced tuners ds s)
    (hpc : s'.daemon.pc = .exited ↔ s.daemon.pc = .exited)
    (htuners : s'.daemon.tuners = s.daemon.tuners) (hattempts : s'.data.attempts = s.data.attempts)
    (hreplies : s'.data.replies = s.data.replies)
    (horder : ∃ pending, Fifo.Framed frame s'.controlFifoUser pending ∧
      s.requests.numbered.drop ds.length = s'.daemon.serving ++ pending) :
    Sequenced tuners ds s' := by
  simp only [State.data] at hattempts hreplies
  have hreq : s'.requests = s.requests := by rw [State.requests, hattempts, State.requests]
  refine ⟨?_, ?_, ?_, ?_, ?_⟩
  · rw [hreq]
    exact h.handled
  · rw [hreq]
    exact horder
  · rw [hpc]
    exact h.unstarted
  · rw [Ne, hpc, hreq, htuners]
    exact h.served
  · rw [hreq, hreplies]
    exact h.replies

/-- A request that is posted is the last one, and waits for the daemon. -/
private theorem Sequenced.post (h : Sequenced tuners ds s) {c : ClientId}
    (hroom : Roomy s (.client c)) (hpc : (s.clients c).pc = .put)
    (hs : s.step (.client c) = some s') : Sequenced tuners ds s' := by
  obtain ⟨pending, hframed, horder⟩ := h.order
  rw [step_put_of_room hroom hpc hs]
  -- the new request comes behind all others
  have hreq : ((s.afterPut c).setClient c
      { s.clients c with pc := .setWait, ticket := some s.hist.attempts.length }).requests =
      s.requests ++ [(s.clients c).mesg] := by
    simp [State.requests, State.afterPut, State.setClient]
  have hlen : s.requests.length = s.hist.attempts.length := List.length_map _
  have hzip := List.zip_concat_left (s.clients c).mesg h.handled
  refine ⟨?_, ⟨pending ++ [(s.hist.attempts.length, (s.clients c).mesg)], ?_, ?_⟩, h.unstarted, ?_,
    ?_⟩
  · rw [hreq, List.length_append]
    exact Nat.le_add_right_of_le h.handled
  · have hput := Fifo.Framed.put hframed (b := (s.hist.attempts.length, (s.clients c).mesg)) (by
      rw [length_frame]
      exact hroom hpc)
    exact hput
  · rw [hreq, List.numbered_concat, List.drop_append_of_le_length (by
      rw [List.length_numbered]
      exact h.handled), horder, hlen, List.append_assoc]
    rfl
  · rw [hreq, hzip]
    exact h.served
  · rw [hreq, hzip]
    exact h.replies

/-- Every other step leaves the requests in their order. -/
private theorem Sequenced.other (h : Sequenced tuners ds s) (hinv : Orderly s)
    (hok : Intact s a) (hs : s.step a = some s') (hstart : ∀ tuners, a ≠ .daemonStart tuners)
    (hhandle : ∀ d, a ≠ .daemonHandle d) (hput : ∀ c, a = .client c → (s.clients c).pc ≠ .put) :
    Sequenced tuners ds s' := by
  have hexited := exited_step hinv.daemon hok hs hstart
  have htuners : s'.daemon.tuners = s.daemon.tuners := by
    rw [tuners_step hinv.daemon hok hs hhandle]
    cases a <;> first | rfl | exact absurd rfl (hstart _)
  have heff := State.step_effect hs
  obtain ⟨d', hd⟩ : ∃ d', s'.data = d' := ⟨_, rfl⟩
  rw [hd] at heff
  have huser : s'.controlFifoUser = d'.user := by rw [← hd, State.data_user]
  have hserving : s'.daemon.serving = d'.serving := by rw [← hd, State.data_serving]
  cases heff with
  | putRequest c hpc => exact absurd hpc (hput c rfl)
  | handleMessage d => exact absurd rfl (hhandle d)
  | daemonStart tuners' => exact absurd rfl (hstart tuners')
  | daemonExit => exact nomatch hok.running
  | resetKernel | resetUser => exact nomatch hok.kept
  | readNothing stale hpc hget =>
    have hlen := hinv.daemon.readable hpc
    rw [Fifo.len, empty_of_readNothing hget] at hlen
    exact nomatch hlen
  | readRequest stale t b rest hpc hget =>
    -- the oldest request goes from the FIFO to the daemon
    obtain ⟨pending, hframed, horder⟩ := h.order
    obtain ⟨pending', rfl, hframed'⟩ := read_framed stale hframed hget
    refine h.of_eq hexited htuners (by rw [hd]) (by rw [hd]) ⟨pending', ?_, ?_⟩
    · rw [huser]
      exact hframed'
    · rw [hserving, horder, List.append_assoc]
      rfl
  | quiet | getReply | ignoreReply | putReply =>
    refine h.of_eq hexited htuners (by rw [hd]) (by rw [hd]) ?_
    rw [huser, hserving]
    exact h.order

/-- One step that leaves the channel intact. -/
theorem Sequenced.step (h : Sequenced tuners ds s) (hinv : Orderly s) (hok : Intact s a)
    (hs : s.step a = some s') :
    Sequenced (a.startTuners tuners) (ds ++ a.deviceResult) s' := by
  cases a with
  | daemonHandle d => exact h.handle hinv.data hs
  | daemonStart tuners' =>
    show Sequenced tuners' (ds ++ []) s'
    rw [List.append_nil]
    exact h.start hs
  | client c =>
    show Sequenced tuners (ds ++ []) s'
    rw [List.append_nil]
    by_cases hput : (s.clients c).pc = .put
    · exact h.post hok.roomy hput hs
    · refine h.other hinv hok hs (by simp) (by simp) fun c' hc => ?_
      cases hc
      exact hput
  | call | signal | openHandle | releaseHandle | daemonExit | daemonRead | daemonStep =>
    show Sequenced tuners (ds ++ []) s'
    rw [List.append_nil]
    exact h.other hinv hok hs (by simp) (by simp) (by simp)

end Step

/-- A run that leaves the messages whole does what the sequential server does. -/
theorem Sequenced.exec {acts : List Action} {tuners : List HdhomerunTuner} {ds : List DeviceResults}
    {s s' : State} (h : Sequenced tuners ds s) (hinv : Orderly s)
    (hok : Run.Guarded State.step Intact s acts) (hrun : Run.exec State.step s acts = some s') :
    Sequenced (acts.foldl Action.startTuners tuners) (ds ++ deviceResults acts) s' := by
  induction acts generalizing s tuners ds with
  | nil =>
    cases hrun
    rw [deviceResults, List.flatMap_nil, List.append_nil]
    exact h
  | cons a acts ih =>
    obtain ⟨s₁, hs, hrest⟩ := Option.bind_eq_some_iff.mp hrun
    obtain ⟨hok₁, hoks⟩ := hok s₁ hs
    have hinv₁ := hinv.step hok₁ hs
    rw [deviceResults, List.flatMap_cons, ← List.append_assoc, List.foldl_cons]
    exact ih (h.step hinv hok₁ hs) hinv₁ hoks hrest

/-! ## Real time -/

/-- The order of the calls is that of their requests: by the time a call starts, the requests
    of all calls that have returned are posted, and its own comes after them. -/
def RealTime (s₁ s : State) : Prop :=
  (∀ ρ ∈ s₁.hist.returned, ∀ t, ρ.ticket = some t → t < s₁.requests.length) ∧
    ∀ ρ ∈ s.hist.returned.drop s₁.hist.returned.length, (s₁.clients ρ.client).pc = .idle →
      ∀ t, ρ.ticket = some t → s₁.requests.length ≤ t

section RealTime

variable {s s' : State} {a : Action}

/-- The request behind a return: there is none, it has just been posted, or the client has
    been waiting for the reply to it. -/
private theorem ticket_of_return (hcl : ClientsOk s) (hs : s.step a = some s') :
    s'.hist.returned = s.hist.returned ∨ ∃ ρ, s'.hist.returned = s.hist.returned ++ [ρ] ∧
      (ρ.ticket = none ∨
        ρ.ticket = some s.requests.length ∧ s.requests.length < s'.requests.length ∨
        (s.clients ρ.client).pc.waiting = true ∧ ρ.ticket = (s.clients ρ.client).ticket) := by
  cases State.step_move hs with
  | refused c r mem e => exact .inr ⟨_, rfl, .inl rfl⟩
  | notReady c hpc =>
    exact .inr ⟨_, rfl, .inl ((hcl c).unposted (by rw [hpc]; rfl))⟩
  | noRoom c hpc =>
    refine .inr ⟨_, rfl, .inr (.inl ⟨?_, ?_⟩)⟩
    · simp [State.requests]
    · simp [State.requests, State.returnCall, State.afterPut, State.setClient]
  | clearWait c hpc => exact .inr ⟨_, rfl, .inr (.inr ⟨by rw [hpc]; rfl, rfl⟩)⟩
  | get c hpc => exact .inr ⟨_, rfl, .inr (.inr ⟨by rw [hpc]; rfl, rfl⟩)⟩
  | _ => exact .inl rfl

/-- Requests are only ever added. -/
private theorem requests_le (hs : s.step a = some s') : s.requests.length ≤ s'.requests.length := by
  obtain ⟨hlog, -, -⟩ := State.step_logs hs
  rw [State.requests, State.requests, List.length_map, List.length_map]
  exact hlog.length_le

/-- The ticket of a client that waits is one of those given out. -/
private theorem ticket_lt (hcl : ClientsOk s) {c : ClientId} (hwait : (s.clients c).pc.waiting = true)
    {t : Ticket} (ht : (s.clients c).ticket = some t) : t < s.requests.length := by
  obtain ⟨t', ht', hatt⟩ := (hcl c).posted hwait
  cases ht.symm.trans ht'
  rw [State.requests, List.length_map]
  exact (List.getElem?_eq_some_iff.mp hatt).1

/-- Whoever has returned has posted its request before. -/
private theorem returned_lt {acts : List Action} (hrun : State.run acts = some s) :
    ∀ ρ ∈ s.hist.returned, ∀ t, ρ.ticket = some t → t < s.requests.length := by
  have hstep : ∀ s a s', (ClientsOk s ∧
      ∀ ρ ∈ s.hist.returned, ∀ t, ρ.ticket = some t → t < s.requests.length) →
      s.step a = some s' → ClientsOk s' ∧
      ∀ ρ ∈ s'.hist.returned, ∀ t, ρ.ticket = some t → t < s'.requests.length := by
    rintro s a s' ⟨hcl, hold⟩ hs
    have hle := requests_le hs
    refine ⟨hcl.step hs, fun ρ hρ t ht => ?_⟩
    rcases ticket_of_return hcl hs with heq | ⟨ρ', heq, hticket⟩
    · rw [heq] at hρ
      exact Nat.lt_of_lt_of_le (hold ρ hρ t ht) hle
    · rw [heq] at hρ
      rcases List.mem_append.mp hρ with hρ | hρ
      · exact Nat.lt_of_lt_of_le (hold ρ hρ t ht) hle
      · obtain rfl := List.mem_singleton.mp hρ
        rcases hticket with hnone | ⟨hsome, hlt⟩ | ⟨hwait, hown⟩
        · exact nomatch hnone.symm.trans ht
        · cases hsome.symm.trans ht
          exact hlt
        · exact Nat.lt_of_lt_of_le (ticket_lt hcl hwait (hown.symm.trans ht)) hle
  exact (Run.exec_keeps hstep ⟨ClientsOk.init, fun _ h => (nomatch h)⟩ hrun).2

/-- What holds after a state `s₁` with `n` requests of the clients that were idle in it. -/
private structure Later (s₁ s : State) : Prop where
  clients : ClientsOk s
  requests : s₁.requests.length ≤ s.requests.length
  returned : s₁.hist.returned.length ≤ s.hist.returned.length
  waiting : ∀ c, (s₁.clients c).pc = .idle → (s.clients c).pc.waiting = true →
    ∀ t, (s.clients c).ticket = some t → s₁.requests.length ≤ t
  after : ∀ ρ ∈ s.hist.returned.drop s₁.hist.returned.length,
    (s₁.clients ρ.client).pc = .idle → ∀ t, ρ.ticket = some t → s₁.requests.length ≤ t

/-- One more step after `s₁`. -/
private theorem Later.step {s₁ : State} (h : Later s₁ s) (hs : s.step a = some s') :
    Later s₁ s' := by
  have hle := requests_le hs
  refine ⟨h.clients.step hs, h.requests.trans hle, ?_, fun c hidle hwait t ht => ?_, ?_⟩
  · rcases ticket_of_return h.clients hs with heq | ⟨ρ', heq, -⟩
    · rw [heq]
      exact h.returned
    · rw [heq, List.length_append]
      exact Nat.le_add_right_of_le h.returned
  · cases State.step_clients hs c with
    | same heq =>
      rw [heq] at hwait ht
      exact h.waiting c hidle hwait t ht
    | entered r mem mesg lock hb heq =>
      rw [heq] at ht
      exact nomatch ht
    | moved pc signalled hbefore hwaiting _ heq =>
      rw [heq] at hwait ht
      exact h.waiting c hidle (hwaiting ▸ hwait) t ht
    | posted hpc hret hatt heq =>
      rw [heq] at ht
      cases ht
      have hlen : s.requests.length = s.hist.attempts.length := List.length_map _
      rw [← hlen]
      exact h.requests
    | left hbefore hwaiting => exact nomatch hwaiting.symm.trans hwait
  · rcases ticket_of_return h.clients hs with heq | ⟨ρ', heq, hticket⟩
    · rw [heq]
      exact h.after
    · rw [heq, List.drop_append_of_le_length h.returned]
      intro ρ hρ hidle t ht
      rcases List.mem_append.mp hρ with hρ | hρ
      · exact h.after ρ hρ hidle t ht
      · obtain rfl := List.mem_singleton.mp hρ
        -- a return without a ticket, of a request just posted, or of one that waited
        rcases hticket with hnone | ⟨hsome, -⟩ | ⟨hwait, hown⟩
        · exact nomatch hnone.symm.trans ht
        · cases hsome.symm.trans ht
          exact h.requests
        · exact h.waiting _ hidle hwait t (hown.symm.trans ht)

/-- Every run keeps to real time. -/
theorem realTime_of_run {as bs : List Action} {s₁ : State} (hrun₁ : State.run as = some s₁)
    (hrun : Run.exec State.step s₁ bs = some s) : RealTime s₁ s := by
  have hcl : ClientsOk s₁ := Run.exec_keeps (fun _ _ _ h hs => h.step hs) ClientsOk.init hrun₁
  have h₀ : Later s₁ s₁ := by
    refine ⟨hcl, Nat.le_refl _, Nat.le_refl _, fun c hidle hwait => ?_, ?_⟩
    · rw [hidle] at hwait
      exact nomatch hwait
    · rw [List.drop_length]
      exact fun _ h => (nomatch h)
  have hlater : Later s₁ s := Run.exec_keeps (fun _ _ _ h hs => h.step hs) h₀ hrun
  exact ⟨returned_lt hrun₁, hlater.after⟩

end RealTime

/-! ## Linearizability -/

/-- What the sequential server does with the requests posted, as far as the daemon has come. -/
def State.outcome (s : State) (acts : List Action) :
    List HdhomerunTuner × List (Option ControlMesg) :=
  Control.sequential (startTuners acts) (s.requests.zip (deviceResults acts))

/-- Every run that leaves the channel intact handles its requests in sequence. -/
theorem sequenced_of_run {acts : List Action} {s : State}
    (hok : Run.Guarded State.step Intact .init acts) (hrun : State.run acts = some s) :
    Sequenced (startTuners acts) (deviceResults acts) s := by
  have hseq := Sequenced.init.exec Orderly.init hok hrun
  rw [List.nil_append] at hseq
  exact hseq

/-- A call that returned bytes has the answer to its own request. -/
theorem answered_of_run {acts : List Action} {s : State}
    (hok : Run.Guarded State.step Intact .init acts)
    (hturn : Run.Guarded State.step InTurn .init acts) (hrun : State.run acts = some s)
    {ρ : Return} (hρ : ρ ∈ s.hist.returned) (hret : 0 ≤ ρ.ret) :
    ∃ t mesg mem lock, ρ.ticket = some t ∧ ρ.request.build mem = .ok (lock, mesg) ∧
      s.requests[t]? = some mesg ∧ (s.outcome acts).2[t]? = some (some ρ.mesg) := by
  have hmatch : MatchInv s := by
    have h₀ : MatchInv .init := ⟨.init, .init, fun _ h => (nomatch h)⟩
    refine (hok.and hturn).keeps (fun s a s' hinv h hs => ?_) h₀ hrun
    have hturn : TakesInTurn s a := ⟨h.1.roomy, h.2⟩
    exact ⟨hinv.relayed.step h.1.roomy hs, hinv.clients.step hs, matched_step hinv hturn hs⟩
  obtain ⟨-, t, m, mem, lock, ht, hbuilt, hatt, hmem, -⟩ := hmatch.matched ρ hρ hret
  refine ⟨t, m, mem, lock, ht, hbuilt, ?_, ?_⟩
  · rw [State.requests, List.getElem?_map, hatt]
    rfl
  · rw [State.outcome, ← List.mem_numbered, ← (sequenced_of_run hok hrun).replies]
    exact List.mem_map.mpr ⟨(t, ρ.mesg), hmem, rfl⟩

/-- The control channel is linearizable: as long as every message stays whole and every client
    takes its reply in turn, the daemon's tuners and the replies that the calls return are
    those of a server that handles the requests one after the other, in the order in which
    they were posted, and a call that returns before another one starts comes before it.
    Clients may be interrupted, and replies ignored. -/
theorem channel_linearizable {acts : List Action} {s : State}
    (hok : Run.Guarded State.step Intact .init acts)
    (hturn : Run.Guarded State.step InTurn .init acts) (hrun : State.run acts = some s) :
    (s.daemon.pc ≠ .exited → s.daemon.tuners = (s.outcome acts).1) ∧
      (∀ ρ ∈ s.hist.returned, 0 ≤ ρ.ret → ∃ t mesg mem lock, ρ.ticket = some t ∧
        ρ.request.build mem = .ok (lock, mesg) ∧ s.requests[t]? = some mesg ∧
        (s.outcome acts).2[t]? = some (some ρ.mesg)) ∧
      ∀ as bs s₁, acts = as ++ bs → State.run as = some s₁ → RealTime s₁ s := by
  refine ⟨(sequenced_of_run hok hrun).served,
    fun ρ hρ hret => answered_of_run hok hturn hrun hρ hret, ?_⟩
  rintro as bs s₁ rfl hrun₁
  have hrest : Run.exec State.step s₁ bs = some s := by
    rw [← Run.exec_append_of_some hrun₁]
    exact hrun
  exact realTime_of_run hrun₁ hrest

/-- Two calls at a time: the reply to the first one wakes up both clients. -/
theorem channel_linearizable_two :
    ∃ acts s, State.run acts = some s ∧ s.hist.returned.map (·.ticket) = [some 0, some 1] ∧
      s.daemon.tuners = (s.outcome acts).1 ∧
      ∀ ρ ∈ s.hist.returned, 0 ≤ ρ.ret → ∃ t, ρ.ticket = some t ∧
        (s.outcome acts).2[t]? = some (some ρ.mesg) := by
  let acts : List Action := [.openHandle 0, .daemonStart []] ++
    Schedule.post 0 (.feReadStatus 0) ++ Schedule.sleep 0 ++
    Schedule.post 1 (.feReadSignalStrength 0) ++ Schedule.sleep 1 ++ Schedule.serve ++
    Schedule.write ++ Schedule.take 0 ++ [.client 1] ++ Schedule.serve ++ Schedule.write ++
    Schedule.take 1
  let s := (State.run acts).get (by decide)
  have hrun : State.run acts = some s := (Option.some_get _).symm
  have hok : Run.Guarded State.step Intact .init acts := by decide
  have hturn : Run.Guarded State.step InTurn .init acts := by decide
  obtain ⟨htuners, hreplies, -⟩ := channel_linearizable hok hturn hrun
  refine ⟨acts, s, hrun, by decide, htuners (by decide), fun ρ hρ hret => ?_⟩
  obtain ⟨t, -, -, -, ht, -, -, hreply⟩ := hreplies ρ hρ hret
  exact ⟨t, ht, hreply⟩

end DvbHdhomerun
