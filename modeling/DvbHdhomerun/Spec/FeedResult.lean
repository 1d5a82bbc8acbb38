import DvbHdhomerun.Spec.InFlight

/-!
# What `start_feed` returns and what the daemon does

`dvb_hdhomerun_start_feed` posts its request before it waits, interruptibly, for any reply
at all. Its result agrees with what the daemon does as long as no start of a feed is
interrupted after its request has been posted, and none takes a reply while the daemon has
not come to its request.
-/

namespace DvbHdhomerun

/-- The daemon has registered `tuners`, holds the control device open and waits in `select`. -/
def State.connected (tuners : List HdhomerunTuner) : State :=
  { State.init with
    userspaceReady := true
    handles := Function.update State.init.handles 0 .opened
    daemon := ⟨.select, [], tuners⟩ }

/-- A daemon that has been started and has opened the device. -/
theorem connected_reached (tuners : List HdhomerunTuner) :
    State.run [.daemonStart tuners, .openHandle 0] = some (.connected tuners) := rfl

/-- The kernel ids of the daemon's tuners. -/
def State.ids (s : State) : List Int32 := s.daemon.tuners.map (·.mKernelId)

/-- The step neither releases the control device nor ends the daemon. -/
def StaysConnected (_ : State) (a : Action) (s' : State) : Prop :=
  a.isRelease = false ∧ s'.daemon.pc ≠ .exited

instance (s : State) (a : Action) (s' : State) : Decidable (StaysConnected s a s') :=
  inferInstanceAs (Decidable (_ ∧ _))

/-- The daemon has called `StartStreaming(pid)` on the tuner with this id for the request with
    ticket `t`. -/
def Streamed (s : State) (t : Ticket) (id : Int32) (pid : UInt16) : Prop :=
  ∃ e ∈ s.hist.executed, e.ticket = t ∧ e.id = id ∧ e.call = .startStreaming pid.toNat

/-- The result of a `dvb_hdhomerun_start_feed` agrees with what the daemon has done for it. -/
def FeedAgrees (s : State) (ρ : Return) : Prop :=
  ∀ feed id, ρ.request = .startFeed feed → feed.hdhomerun = some id →
    (ρ.ret < 0 → ∀ t, ρ.ticket = some t → ∀ e ∈ s.hist.executed, e.ticket = t →
      e.call ≠ .startStreaming feed.pid.toNat) ∧
    (0 ≤ ρ.ret → id ∈ s.ids → ∃ t, ρ.ticket = some t ∧ Streamed s t id feed.pid)

/-- Every return so far agrees with what the tuner does. -/
def FeedsAgree (s : State) : Prop := ∀ ρ ∈ s.hist.returned, FeedAgrees s ρ

/-- The tuner on which a call starts a feed. -/
def Request.startsOn : Request → Option Int32
  | .startFeed feed => feed.hdhomerun
  | _ => none

/-- A start of a feed on a tuner that the daemon has is not interrupted once its request is
    posted, and takes a reply only when the daemon has handled the request. -/
def FeedWaits (s : State) : Action → Prop
  | .client c =>
    ∀ id ∈ (s.clients c).request.startsOn, id ∈ s.ids → (s.clients c).pc ≠ .clearWait ∧
      ((s.clients c).pc = .get → ∀ t ∈ (s.clients c).ticket, ¬ s.data.Unserved t)
  | _ => True

/-- And every post finds room for the whole message. -/
def FeedInOrder (s : State) (a : Action) : Prop := RoomForRequest s a ∧ FeedWaits s a

instance (d : Data) (t : Ticket) : Decidable (d.Unserved t) :=
  inferInstanceAs (Decidable (_ ∨ _))

instance (s : State) : (a : Action) → Decidable (FeedWaits s a)
  | .client c => Option.decidableForallMem (s.clients c).request.startsOn
  | .call .. | .signal _ | .openHandle _ | .releaseHandle _ | .daemonStart _ | .daemonExit
  | .daemonRead _ | .daemonHandle _ | .daemonStep => instDecidableTrue

instance (s : State) (a : Action) : Decidable (FeedInOrder s a) :=
  inferInstanceAs (Decidable (_ ∧ _))

/-! ## The daemon's side -/

/-- What the daemon has done for the request `x` with ticket `t`. -/
def Done (s : State) (t : Ticket) (x : Attempt) : Prop :=
  x.mesg.type = ControlMesgType.startFeed.code → x.mesg.id ∈ s.ids →
    Streamed s t x.mesg.id x.mesg.feedPid

/-- What holds while the daemon stays connected: every request posted waits or has been handled,
    and every call was made for one. -/
private structure DaemonInv (s : State) : Prop where
  clients : ClientsOk s
  data : DataOk s.data
  running : s.daemon.pc ≠ .exited
  /-- calls are made for posted requests, on tuners that are there -/
  executed : ∀ e ∈ s.hist.executed, e.id ∈ s.ids ∧
    ∃ x, s.hist.attempts[e.ticket]? = some x ∧ x.mesg.id = e.id
  /-- a posted request waits or has been handled -/
  served : ∀ t x, s.hist.attempts[t]? = some x → x.ret = 1 → s.data.Unserved t ∨ Done s t x

/-- It holds when the daemon has connected. -/
private theorem DaemonInv.init (tuners : List HdhomerunTuner) :
    DaemonInv (.connected tuners) where
  clients := fun c => ClientsOk.init c
  data := ⟨DataOk.init.built, DataOk.init.framed, DataOk.init.serving, DataOk.init.unwritten⟩
  running := by simp [State.connected]
  executed := fun _ h => (nomatch h)
  served := fun _ _ h => (nomatch h)

/-- A daemon that reads and does not end finds something to read. -/
private theorem user_ne_nil {s s' : State} {stale : ControlMesg} (hpc' : s'.daemon.pc ≠ .exited)
    (hs : s.step (.daemonRead stale) = some s') : s.controlFifoUser.data ≠ [] := by
  intro hempty
  cases State.step_move hs with
  | readNothing => exact hpc' rfl
  | readRequest _ t b rest _ hget =>
    rw [Fifo.get_items, hempty, List.take_nil] at hget
    cases hget

/-- The daemon does not exit in a step behind which it runs. -/
private theorem no_exit {s s' : State} (hpc' : s'.daemon.pc ≠ .exited)
    (hs : s.step .daemonExit = some s') : False := by
  cases State.step_move hs with
  | daemonExit => exact hpc' rfl

/-- While the daemon stays connected no request is dropped. -/
private theorem not_dropsRequest {s s' : State} {a : Action} {t : Ticket}
    (hconn : StaysConnected s a s') (hs : s.step a = some s') : ¬ DropsRequest s t a := by
  intro hdrop
  cases hdrop with
  | resetUser => exact nomatch hconn.1
  | readNothing stale hempty => exact user_ne_nil hconn.2 hs hempty
  | daemonExit => exact no_exit hconn.2 hs

/-- Steps that stay connected keep the daemon's tuners. -/
private theorem step_ids {s s' : State} {a : Action} (hrun : s.daemon.pc ≠ .exited)
    (hconn : StaysConnected s a s') (hs : s.step a = some s') : s'.ids = s.ids := by
  have heff := State.step_effect hs
  have hids : s'.ids = s'.data.ids := rfl
  rw [hids]
  generalize s'.data = d' at heff
  cases heff with
  | handleMessage d t mesg rest handled hserving hwriting hhandled =>
    rw [hhandled]
    exact Control.processMessage_ids ..
  | readNothing stale hpc hget =>
    exact absurd (empty_of_readNothing hget) (user_ne_nil hconn.2 hs)
  | daemonExit => exact (no_exit hconn.2 hs).elim
  | daemonStart tuners hpc => exact absurd hpc hrun
  | _ => rfl

/-- Every call recorded in a step is for a message the daemon had read, on a tuner it has. -/
private theorem step_executed {s s' : State} {a : Action} (hs : s.step a = some s') :
    ∀ e ∈ s'.hist.executed, e ∈ s.hist.executed ∨
      ∃ mesg, (e.ticket, mesg) ∈ s.daemon.serving ∧ e.id = mesg.id ∧ mesg.id ∈ s.ids := by
  have heff := State.step_effect hs
  have hexec : s'.hist.executed = s'.data.executed := rfl
  rw [hexec]
  generalize s'.data = d' at heff
  cases heff with
  | handleMessage d t mesg rest handled hserving hwriting hhandled =>
    intro e he
    rcases List.mem_append.mp he with hold | hnew
    · exact .inl hold
    · rw [Option.mem_toList, Option.map_eq_some_iff] at hnew
      obtain ⟨call, hcall, rfl⟩ := hnew
      rw [hhandled] at hcall
      refine .inr ⟨mesg, ?_, rfl, Control.processMessage_call_mem hcall⟩
      rw [hserving]
      exact List.mem_cons_self
  | _ => exact fun e he => .inl he

/-- What the tuner has been told is not taken back. -/
private theorem Streamed.mono {s s' : State} {a : Action} {t : Ticket} {id : Int32} {pid : UInt16}
    (h : Streamed s t id pid) (hs : s.step a = some s') : Streamed s' t id pid := by
  obtain ⟨e, he, hrest⟩ := h
  obtain ⟨-, -, hexec⟩ := State.step_logs hs
  exact ⟨e, hexec.subset he, hrest⟩

/-- A request is handled by the call that it asks for. -/
private theorem done_of_handles {s s' : State} {a : Action} {t : Ticket} {x : Attempt}
    (hdata : DataOk s.data) (hatt : s.hist.attempts[t]? = some x) (hids : s'.ids = s.ids)
    (h : Handles s t a s'.data) : Done s' t x := by
  obtain ⟨d, mesg, -, hmem, -, hexec⟩ := h
  obtain ⟨y, hy, hmesg⟩ := hdata.serving _ hmem
  cases hatt.symm.trans hy
  subst hmesg
  intro htype hid
  rw [hids] at hid
  rw [Control.processMessage_startFeed d htype hid] at hexec
  refine ⟨⟨t, x.mesg.id, .startStreaming x.mesg.feedPid.toNat⟩, ?_, rfl, rfl, rfl⟩
  show _ ∈ s'.data.executed
  rw [hexec]
  exact List.mem_append_right _ List.mem_cons_self

/-- A step posts at most one request. -/
private theorem step_attempts {s s' : State} {a : Action} (hs : s.step a = some s') :
    s'.hist.attempts = s.hist.attempts ∨
      ∃ x, s'.hist.attempts = s.hist.attempts ++ [x] := by
  have heff := State.step_effect hs
  have hatt : s'.hist.attempts = s'.data.attempts := rfl
  rw [hatt]
  generalize s'.data = d' at heff
  cases heff with
  | putRequest c hpc => exact .inr ⟨_, rfl⟩
  | _ => exact .inl rfl

/-- Every connected step with room for its request keeps the invariant. -/
private theorem DaemonInv.step {s s' : State} {a : Action} (hinv : DaemonInv s)
    (hroom : RoomForRequest s a) (hconn : StaysConnected s a s') (hs : s.step a = some s') :
    DaemonInv s' := by
  have hids := step_ids hinv.running hconn hs
  refine ⟨hinv.clients.step hs, hinv.data.step hinv.clients hroom hs, hconn.2, ?_, ?_⟩
  · intro e he
    rw [hids]
    rcases step_executed hs e he with hold | ⟨mesg, hmem, heid, hid⟩
    -- a call made before, or one for the message at the head of the queue
    · obtain ⟨hid, x, hx, hxid⟩ := hinv.executed e hold
      exact ⟨hid, x, State.step_attempts_getElem? hs hx, hxid⟩
    · obtain ⟨x, hx, hmesg⟩ := hinv.data.serving _ hmem
      refine ⟨by rw [heid]; exact hid, x, State.step_attempts_getElem? hs hx, ?_⟩
      rw [heid, hmesg]
  · -- requests posted before, and the one posted now
    have hbefore : ∀ t x, s.hist.attempts[t]? = some x → x.ret = 1 →
        s'.data.Unserved t ∨ Done s' t x := by
      intro t x hx hret
      rcases hinv.served t x hx hret with hun | hdone
      · rcases unserved_step hinv.data hun (not_dropsRequest hconn hs) hs with hun' | hhandles
        · exact .inl hun'
        · exact .inr (done_of_handles hinv.data hx hids hhandles)
      · refine .inr fun htype hid => (hdone htype ?_).mono hs
        rw [← hids]
        exact hid
    intro t x hx hret
    rcases step_attempts hs with hsame | ⟨y, hy⟩
    · rw [hsame] at hx
      exact hbefore t x hx hret
    · rw [hy] at hx
      by_cases hlt : t < s.hist.attempts.length
      · rw [List.getElem?_append_left hlt] at hx
        exact hbefore t x hx hret
      · obtain ⟨rfl, rfl⟩ : t = s.hist.attempts.length ∧ y = x := by
          have hbound := (List.getElem?_eq_some_iff.mp hx).1
          rw [List.length_append, List.length_singleton] at hbound
          have ht : t = s.hist.attempts.length := Nat.eq_of_lt_succ_of_not_lt hbound hlt
          subst ht
          simpa using hx
        exact .inl (unserved_posted hs hy hret)

/-! ## The callers' side -/

/-- What has been recorded of a start of a feed when it returned. -/
private def ReturnOk (s : State) (ρ : Return) : Prop :=
  ∀ feed id, ρ.request = .startFeed feed → feed.hdhomerun = some id →
    (ρ.ret < 0 → ρ.ticket = none ∨ id ∉ s.ids ∧
      ∃ t x, ρ.ticket = some t ∧ s.hist.attempts[t]? = some x ∧ x.mesg.id = id) ∧
    (0 ≤ ρ.ret → id ∈ s.ids → ∃ t, ρ.ticket = some t ∧ Streamed s t id feed.pid)

/-- A return that is in order agrees with what the tuner does. -/
private theorem ReturnOk.agrees {s : State} {ρ : Return} (hinv : DaemonInv s) (h : ReturnOk s ρ) :
    FeedAgrees s ρ := by
  intro feed id hreq hid
  obtain ⟨hneg, hpos⟩ := h feed id hreq hid
  refine ⟨fun hret t ht e he het _ => ?_, hpos⟩
  -- a call for this request would have been made on a tuner that is there
  rcases hneg hret with hnone | ⟨hnotin, t', x, ht', hx, hxid⟩
  · rw [hnone] at ht
    exact nomatch ht
  · obtain ⟨hin, y, hy, hyid⟩ := hinv.executed e he
    cases ht.symm.trans ht'
    rw [het] at hy
    cases hx.symm.trans hy
    exact hnotin (by rw [← hxid, hyid]; exact hin)

/-- A return in order stays so while the daemon keeps its tuners. -/
private theorem ReturnOk.mono {s s' : State} {a : Action} {ρ : Return} (h : ReturnOk s ρ)
    (hids : s'.ids = s.ids) (hs : s.step a = some s') : ReturnOk s' ρ := by
  intro feed id hreq hid
  obtain ⟨hneg, hpos⟩ := h feed id hreq hid
  rw [hids]
  constructor
  · intro hret
    rcases hneg hret with hnone | ⟨hnotin, t, x, ht, hx, hxid⟩
    · exact .inl hnone
    · exact .inr ⟨hnotin, t, x, ht, State.step_attempts_getElem? hs hx, hxid⟩
  · intro hret hin
    obtain ⟨t, ht, hstreamed⟩ := hpos hret hin
    exact ⟨t, ht, hstreamed.mono hs⟩

/-- The posted request of a start of a feed. -/
private theorem feed_request {s : State} {c : ClientId} {feed : DemuxFeed} {id : Int32}
    (hcl : ClientsOk s) (hwaiting : (s.clients c).pc.waiting = true)
    (hreq : (s.clients c).request = .startFeed feed) (hid : feed.hdhomerun = some id) :
    ∃ t x, (s.clients c).ticket = some t ∧ s.hist.attempts[t]? = some x ∧ x.ret = 1 ∧
      x.mesg.type = ControlMesgType.startFeed.code ∧ x.mesg.id = id ∧
      x.mesg.feedPid = feed.pid := by
  obtain ⟨mem, hbuilt⟩ := (hcl c).built (.inr hwaiting)
  obtain ⟨t, ht, hatt⟩ := (hcl c).posted hwaiting
  rw [hreq] at hbuilt
  obtain ⟨id', hid', -, htype, hmid, hpid⟩ := Request.build_startFeed hbuilt
  cases hid.symm.trans hid'
  exact ⟨t, _, ht, hatt, rfl, htype, hmid, hpid⟩

/-- A return from a step in order is in order. -/
private theorem returned_ok {s s' : State} {a : Action} {ρ : Return} (hinv : DaemonInv s)
    (hok : FeedInOrder s a) (hs : s.step a = some s')
    (hρ : s'.hist.returned = s.hist.returned ++ [ρ]) : ReturnOk s ρ := by
  have hlast : ∀ ρ', s'.hist.returned = s.hist.returned ++ [ρ'] → ρ' = ρ := fun ρ' h =>
    List.singleton_inj.mp (List.append_cancel_left (h.symm.trans hρ))
  intro feed id hreq hid
  cases State.step_returned hs with
  | same _ h => exact absurd (h.symm.trans hρ) (by simp)
  | refused c r mem e hb h =>
    obtain rfl := hlast _ h
    refine ⟨fun _ => .inl rfl, fun hret => ?_⟩
    simp only [Request.build_error hb, EINVAL] at hret
    omega
  | notReady c hpc hready h =>
    obtain rfl := hlast _ h
    refine ⟨fun _ => .inl ?_, fun hret => by simp at hret⟩
    exact (hinv.clients c).unposted (by rw [hpc]; rfl)
  | noRoom c hpc hpost h =>
    -- there was room
    exact absurd (State.postResult_eq_one_iff.mpr (hok.1 hpc)) hpost
  | interrupted c hpc h =>
    obtain rfl := hlast _ h
    simp only at hreq
    have hfeed := hok.2 id (by rw [hreq]; exact hid)
    refine ⟨fun _ => .inr ?_, fun hret => by simp [ERESTARTSYS] at hret⟩
    obtain ⟨t, x, ht, hx, -, -, hxid, -⟩ :=
      feed_request hinv.clients (by rw [hpc]; rfl) hreq hid
    refine ⟨fun hin => ?_, t, x, ht, hx, hxid⟩
    exact (hfeed hin).1 hpc
  | got c hpc h =>
    obtain rfl := hlast _ h
    simp only at hreq
    have hfeed := hok.2 id (by rw [hreq]; exact hid)
    refine ⟨fun hret => absurd hret (by simp), fun _ hin => ?_⟩
    obtain ⟨t, x, ht, hx, hxret, htype, hxid, hxpid⟩ :=
      feed_request hinv.clients (by rw [hpc]; rfl) hreq hid
    -- the daemon has come to the request, whosever reply this is
    have hserved := (hfeed hin).2 hpc t ht
    rcases hinv.served t x hx hxret with hun | hdone
    · exact absurd hun hserved
    · rw [← hxid] at hin ⊢
      rw [← hxpid]
      exact ⟨t, ht, hdone htype hin⟩

/-! ## Runs -/

/-- The daemon's invariant, and every return so far in order. -/
private structure FeedInv (s : State) : Prop where
  daemon : DaemonInv s
  returned : ∀ ρ ∈ s.hist.returned, ReturnOk s ρ

/-- Every connected step in order keeps both. -/
private theorem FeedInv.step {s s' : State} {a : Action} (hinv : FeedInv s)
    (hok : FeedInOrder s a ∧ StaysConnected s a s') (hs : s.step a = some s') : FeedInv s' := by
  have hids := step_ids hinv.daemon.running hok.2 hs
  refine ⟨hinv.daemon.step hok.1.1 hok.2 hs, fun ρ hmem => ?_⟩
  have hold : ∀ ρ ∈ s.hist.returned, ReturnOk s' ρ := fun ρ h => (hinv.returned ρ h).mono hids hs
  have hnew : ∀ ρ', s'.hist.returned = s.hist.returned ++ [ρ'] → ReturnOk s' ρ := by
    intro ρ' h
    rw [h] at hmem
    rcases List.mem_append.mp hmem with hbefore | hnow
    · exact hold ρ hbefore
    · rw [List.mem_singleton.mp hnow]
      exact (returned_ok hinv.daemon hok.1 hs h).mono hids hs
  cases State.step_returned hs with
  | same _ h =>
    rw [h] at hmem
    exact hold ρ hmem
  | refused _ _ _ _ _ h => exact hnew _ h
  | notReady _ _ _ h => exact hnew _ h
  | noRoom _ _ _ h => exact hnew _ h
  | interrupted _ _ h => exact hnew _ h
  | got _ _ h => exact hnew _ h

/-- While the daemon stays connected, and starts of feeds wait for their own request to be
    handled, the results of `dvb_hdhomerun_start_feed` agree with what the daemon does. -/
theorem feeds_agree (tuners : List HdhomerunTuner) (acts : List Action)
    (hconn : Run.EveryStep State.step StaysConnected (.connected tuners) acts)
    (hok : Run.Guarded State.step FeedInOrder (.connected tuners) acts) :
    Run.EveryState State.step FeedsAgree (.connected tuners) acts := by
  have h₀ : FeedInv (.connected tuners) := ⟨.init tuners, fun _ h => (nomatch h)⟩
  have hstep : ∀ s a s', FeedInv s → FeedInOrder s a ∧ StaysConnected s a s' →
      s.step a = some s' → FeedInv s' := fun _ _ _ => FeedInv.step
  have hagree : ∀ s, FeedInv s → FeedsAgree s := fun _ hinv ρ hρ =>
    (hinv.returned ρ hρ).agrees hinv.daemon
  exact Run.EveryState.of_invariant hstep hagree h₀ (hok.and hconn)

/-- The tuner and the feed of the schedules below. -/
private def tuner0 : HdhomerunTuner := { HdhomerunTuner.fresh "1234ABCD-0" 1 with mKernelId := 0 }

/-- A feed for PID 0x100 on tuner 0. -/
private def feed0 : DemuxFeed := ⟨some 0, true, 0x100, 0⟩

/-- A start of a feed that is answered. -/
private def feedRoundTrip : List Action :=
  Schedule.post 0 (.startFeed feed0) ++ Schedule.sleep 0 ++ Schedule.serve ++ Schedule.write ++
    Schedule.take 0

/-- One `start_feed`, from its entry to its return. -/
theorem feeds_agree_roundTrip :
    (∃ s, Run.exec State.step (.connected [tuner0]) feedRoundTrip = some s ∧
      s.hist.returned.map Return.ret = [36]) ∧
    Run.EveryState State.step FeedsAgree (.connected [tuner0]) feedRoundTrip :=
  ⟨⟨_, (Option.some_get (by decide)).symm, by decide⟩,
    feeds_agree [tuner0] feedRoundTrip (by decide) (by decide)⟩

/-- A start of a feed is interrupted while it waits. It returns an error, and the daemon
    starts the stream. -/
theorem interrupted_feed_streams :
    ¬ ∀ tuners acts, Run.EveryStep State.step StaysConnected (.connected tuners) acts →
      Run.EveryState State.step FeedsAgree (.connected tuners) acts := by
  intro hall
  let acts : List Action := Schedule.post 0 (.startFeed feed0) ++ Schedule.sleep 0 ++
    [.signal 0, .client 0, .client 0] ++ Schedule.serve
  let s : State := (Run.exec State.step (.connected [tuner0]) acts).get (by decide)
  have hrun : Run.exec State.step (.connected [tuner0]) acts = some s := (Option.some_get _).symm
  have hreturned : s.hist.returned.map (fun ρ => (ρ.request, ρ.ticket, ρ.ret)) =
      [(.startFeed feed0, some 0, -512)] := by decide
  have hexecuted : s.hist.executed = [⟨0, 0, .startStreaming 0x100⟩] := by decide
  obtain ⟨ρ, hmem, hρ⟩ := List.mem_map.mp (hreturned ▸ List.mem_singleton_self _)
  obtain ⟨hreq, hticket, hret⟩ : ρ.request = .startFeed feed0 ∧ ρ.ticket = some 0 ∧ ρ.ret = -512 := by
    simpa using hρ
  have hagrees := (hall [tuner0] acts (by decide)).last hrun ρ hmem
  have hmem' : ⟨0, 0, .startStreaming 0x100⟩ ∈ s.hist.executed := by
    rw [hexecuted]
    exact List.mem_singleton_self _
  exact (hagrees feed0 0 hreq rfl).1 (by omega) 0 hticket _ hmem' rfl rfl

end DvbHdhomerun
