import DvbHdhomerun.Spec.InFlight
import DvbHdhomerun.Spec.ReplyMatching

/-!
# Frontend readings

`dvb_hdhomerun_fe_read_status` and `dvb_hdhomerun_fe_read_signal_strength` return 0 and
store what is in their message, whatever became of the request: not connected, no room,
interrupted, tuner unknown, query failed. The value comes from the device when nothing of
the kind happened, and the client took the reply to its own request.
-/

namespace DvbHdhomerun

/-- The frontend status for a tuner status. -/
def statusOf (st : TunerStatus) : UInt32 :=
  if st.symbolErrorQuality = 100 then HdhomerunTuner.feHasAll else 0

/-- The signal strength of a tuner status, scaled from per cent to 16 bits. -/
def strengthOf (st : TunerStatus) : UInt16 := (0xffff * st.signalStrength / 100).toUInt16

/-- In the run `acts`, the daemon handled the request with ticket `t` by calling `call` on the
    tuner with kernel id `id`, and libhdhomerun returned `d`. -/
def Queried (acts : List Action) (t : Ticket) (id : Int32) (call : TunerCall)
    (d : DeviceResults) : Prop :=
  ∃ as bs s mesg rest, acts = as ++ .daemonHandle d :: bs ∧ State.run as = some s ∧
    s.daemon.pc = .process ∧ s.daemon.mMessages = (t, mesg) :: rest ∧ mesg.id = id ∧
    (Control.processMessage s.daemon.tuners mesg d).call = some call

/-- What the reading behind `ρ` stores was computed for its own request, from a tuner status
    that libhdhomerun reported; a status may be 0 when the query failed. -/
def FromDevice (acts : List Action) (ρ : Return) : Prop :=
  match ρ.request with
  | .feReadStatus id =>
    ∃ t d, ρ.ticket = some t ∧ Queried acts t id .readStatus d ∧
      ((0 < d.getTunerStatus ∧
          ∃ st, d.status = some st ∧ dvbHdhomerunFeReadStatusReturn ρ.mesg = (0, statusOf st)) ∨
        (d.getTunerStatus ≤ 0 ∧ dvbHdhomerunFeReadStatusReturn ρ.mesg = (0, 0)))
  | .feReadSignalStrength id =>
    ∃ t d st, ρ.ticket = some t ∧ Queried acts t id .readSignalStrength d ∧
      0 < d.getTunerStatus ∧ d.status = some st ∧
      dvbHdhomerunFeReadSignalStrengthReturn ρ.mesg = (0, strengthOf st)
  | _ => True

/-- Every reading that returns has stored a value from the device. -/
def ReadingsFromDevice (acts : List Action) : Prop :=
  ∀ as a bs s s' ρ, acts = as ++ a :: bs → State.run as = some s → s.step a = some s' →
    s'.hist.returned = s.hist.returned ++ [ρ] → FromDevice as ρ

/-- `hdhomerun_device_get_tuner_status` fills the caller's struct when it succeeds. -/
def StoresStatus (acts : List Action) : Prop :=
  ∀ d, .daemonHandle d ∈ acts → 0 < d.getTunerStatus → d.status ≠ none

/-- All calls are made by one client. -/
def SingleClient (acts : List Action) : Prop :=
  ∃ c, ∀ a ∈ acts,
    match a with
    | .call c' _ _ | .client c' | .signal c' => c' = c
    | _ => True

/-- The request reads the status or the signal strength. -/
def Request.isReading : Request → Bool
  | feReadStatus _ | feReadSignalStrength _ => true
  | _ => false

/-- A reading finds the daemon connected, and is not interrupted. -/
def CompletesReading (s : State) : Action → Prop
  | .client c => (s.clients c).request.isReading = true →
    ((s.clients c).pc = .testReady → s.userspaceReady = true) ∧ (s.clients c).pc ≠ .clearWait
  | _ => True

/-- The daemon has the tuner it is asked about, and a query for the signal strength succeeds. -/
def AnswersReading (s : State) : Action → Prop
  | .daemonHandle d => ∀ x ∈ s.daemon.mMessages.head?,
    (x.2.type = ControlMesgType.feReadStatus.code →
      (HdhomerunController.getTuner s.daemon.tuners x.2.id).isSome) ∧
    (x.2.type = ControlMesgType.feReadSignalStrength.code →
      (HdhomerunController.getTuner s.daemon.tuners x.2.id).isSome ∧ 0 < d.getTunerStatus)
  | _ => True

/-- Nothing gets in the way of a reading. -/
def ReadsDevice (s : State) (a : Action) : Prop :=
  TakesInTurn s a ∧ CompletesReading s a ∧ AnswersReading s a

instance (s : State) : (a : Action) → Decidable (CompletesReading s a)
  | .client c => inferInstanceAs (Decidable ((s.clients c).request.isReading = true → _))
  | .call .. | .signal _ | .openHandle _ | .releaseHandle _ | .daemonStart _ | .daemonExit
  | .daemonRead _ | .daemonHandle _ | .daemonStep => instDecidableTrue

instance (s : State) : (a : Action) → Decidable (AnswersReading s a)
  | .daemonHandle _ => inferInstanceAs (Decidable (∀ x ∈ s.daemon.mMessages.head?, _))
  | .call .. | .client _ | .signal _ | .openHandle _ | .releaseHandle _ | .daemonStart _
  | .daemonExit | .daemonRead _ | .daemonStep => instDecidableTrue

instance (s : State) (a : Action) : Decidable (ReadsDevice s a) :=
  inferInstanceAs (Decidable (_ ∧ _))

/-! ## Which step made a reply -/

/-- Every reply of the daemon was made by a step of the run that handled its request. -/
private theorem handled_of_reply {acts : List Action} {s : State} {t : Ticket} {reply : ControlMesg}
    (hrun : State.run acts = some s) (hx : (t, reply) ∈ s.hist.replies) :
    ∃ as d bs s₁ s₂ mesg rest, acts = as ++ .daemonHandle d :: bs ∧ State.run as = some s₁ ∧
      s₁.step (.daemonHandle d) = some s₂ ∧ Run.exec State.step s₂ bs = some s ∧
      s₁.daemon.pc = .process ∧ s₁.daemon.mMessages = (t, mesg) :: rest ∧
      (Control.processMessage s₁.daemon.tuners mesg d).reply = some reply := by
  have hlog : ∀ (s : State) (a : Action) (s' : State), s.step a = some s' →
      ∀ x ∈ s'.hist.replies, x ∈ s.hist.replies ∨
        ∃ d mesg rest, a = .daemonHandle d ∧ s.daemon.pc = .process ∧
        s.daemon.mMessages = (x.1, mesg) :: rest ∧
        (Control.processMessage s.daemon.tuners mesg d).reply = some x.2 := by
    intro s a s' hs x hx
    -- no other step adds to `replies`
    cases State.step_move hs with
    | handleMessage d t mesg rest hpc hmsgs =>
      cases List.mem_append.mp hx with
      | inl hold => exact .inl hold
      | inr hnew =>
        obtain ⟨reply, hreply, rfl⟩ := Option.map_eq_some_iff.mp (Option.mem_toList.mp hnew)
        exact .inr ⟨d, mesg, rest, rfl, hpc, hmsgs, hreply⟩
    | _ => exact .inl hx
  cases Run.exists_step_of_mem hlog hrun hx with
  | inl hinit => exact nomatch hinit
  | inr hstep =>
    obtain ⟨as, a, bs, s₁, s₂, hacts, hrun₁, hs, hrest, hhandled⟩ := hstep
    obtain ⟨d, mesg, rest, rfl, hpc, hmsgs, hreply⟩ := hhandled
    exact ⟨as, d, bs, s₁, s₂, mesg, rest, hacts, hrun₁, hs, hrest, hpc, hmsgs, hreply⟩

/-- What has been put keeps its ticket. -/
private theorem attempts_of_exec {acts : List Action} {s s' : State} {t : Ticket} {x : Attempt}
    (hrun : Run.exec State.step s acts = some s') (hx : s.hist.attempts[t]? = some x) :
    s'.hist.attempts[t]? = some x := by
  have hstep : ∀ (s : State) (a : Action) (s' : State), s.hist.attempts[t]? = some x →
      s.step a = some s' → s'.hist.attempts[t]? = some x :=
    fun _ _ _ hx hs => State.step_attempts_getElem? hs hx
  exact Run.exec_keeps hstep hx hrun

/-! ## Runs -/

/-- What is known of the channel after a run of readings. -/
private theorem relayed_of_run {acts : List Action} {s : State}
    (hok : Run.Guarded State.step ReadsDevice .init acts) (hrun : State.run acts = some s) :
    Relayed s ∧ ClientsOk s ∧ DataOk s.data := by
  have hroom : Run.Guarded State.step RoomForRequest .init acts :=
    hok.imp fun s a _ _ h => h.1.1.roomForRequest
  have hstep : ∀ s a s', Relayed s → ReadsDevice s a → s.step a = some s' → Relayed s' :=
    fun _ _ _ hinv h hs => hinv.step h.1.1 hs
  exact ⟨hok.keeps hstep Relayed.init hrun, dataOk_of_run hroom hrun⟩

/-- The reply to a posted message was made from that very message, in a step that met the
    condition on the daemon. -/
private theorem query_of_reply {acts : List Action} {s : State} {t : Ticket} {c : ClientId}
    {m reply : ControlMesg} (hok : Run.Guarded State.step ReadsDevice .init acts)
    (hrun : State.run acts = some s) (hatt : s.hist.attempts[t]? = some ⟨c, m, 1⟩)
    (hreply : (t, reply) ∈ s.hist.replies) :
    ∃ as d bs s₁ rest, acts = as ++ .daemonHandle d :: bs ∧ State.run as = some s₁ ∧
      s₁.daemon.pc = .process ∧ s₁.daemon.mMessages = (t, m) :: rest ∧
      (Control.processMessage s₁.daemon.tuners m d).reply = some reply ∧
      AnswersReading s₁ (.daemonHandle d) := by
  obtain ⟨as, d, bs, s₁, s₂, mesg, rest, rfl, hrun₁, hs, hrest, hpc, hmsgs, hhandled⟩ :=
    handled_of_reply hrun hreply
  have hanswers := (Run.everyStep_iff.mp hok as (.daemonHandle d) bs s₁ s₂ rfl hrun₁ hs).2.2
  obtain ⟨-, -, hdata⟩ := relayed_of_run hok.init hrun₁
  have hserving : (t, mesg) ∈ s₁.data.serving := by
    simp [State.data, Daemon.serving, hpc, hmsgs]
  obtain ⟨x, hx, hmesg⟩ := hdata.serving _ hserving
  -- the message that was posted with this ticket has not changed since
  have hx₂ := attempts_of_exec hrest (State.step_attempts_getElem? hs hx)
  cases hx₂.symm.trans hatt
  cases hmesg
  exact ⟨as, d, bs, s₁, rest, rfl, hrun₁, hpc, hmsgs, hhandled, hanswers⟩

/-- The status that is read from the device. -/
private theorem readStatus_stored (t : HdhomerunTuner) {d : DeviceResults} {st : TunerStatus}
    (hpos : 0 < d.getTunerStatus) (hst : d.status = some st) :
    (t.readStatus d).1 = statusOf st := by
  simp only [HdhomerunTuner.readStatus, DeviceResults.hdhomerunStatus, hst, Option.getD_some,
    gt_iff_lt, if_pos hpos, statusOf]
  split <;> rfl

/-- A device that does not answer reads as no status. -/
private theorem readStatus_failed (t : HdhomerunTuner) {d : DeviceResults}
    (hle : d.getTunerStatus ≤ 0) : (t.readStatus d).1 = 0 := by
  have hpos : ¬ 0 < d.getTunerStatus := by omega
  simp only [HdhomerunTuner.readStatus, gt_iff_lt, if_neg hpos]

/-- The strength that is read from the device. -/
private theorem readSignalStrength_stored (t : HdhomerunTuner) {d : DeviceResults}
    {st : TunerStatus} (hst : d.status = some st) :
    (t.readSignalStrength d).1.toUInt32.toUInt16 = strengthOf st := by
  simp only [HdhomerunTuner.readSignalStrength, DeviceResults.hdhomerunStatus, hst,
    Option.getD_some, strengthOf, UInt32.toUInt32_toInt32]

/-- A call that takes its own reply in such a run stores a value from the device. -/
private theorem fromDevice_of_ownReply {acts : List Action} {s : State} {ρ : Return}
    (hok : Run.Guarded State.step ReadsDevice .init acts) (hrun : State.run acts = some s)
    (hstore : StoresStatus acts) (hown : OwnReply s ρ) : FromDevice acts ρ := by
  obtain ⟨-, t, m, mem, lock, ht, hbuilt, hatt, hreply, -⟩ := hown
  obtain ⟨as, d, bs, s₁, rest, rfl, hrun₁, hpc, hmsgs, hhandled, hanswers⟩ :=
    query_of_reply hok hrun hatt hreply
  have hstored : 0 < d.getTunerStatus → ∃ st, d.status = some st := fun hpos =>
    Option.ne_none_iff_exists'.mp (hstore d (by simp) hpos)
  have hasked := hanswers (t, m) (by rw [hmsgs]; rfl)
  -- the kind of the call decides the handler, and the union member it is read from
  cases hr : ρ.request with
  | feReadStatus id =>
    rw [hr] at hbuilt
    obtain ⟨htype, rfl⟩ := Request.build_reading (.inl rfl) hbuilt
    obtain ⟨tuner, hget⟩ := Option.isSome_iff_exists.mp (hasked.1 htype)
    obtain ⟨hcall, hset⟩ := Control.processMessage_feReadStatus d htype hget
    have hmesg : ρ.mesg = m.setFrontendStatus (tuner.readStatus d).1 :=
      Option.some.inj (hhandled.symm.trans hset)
    have hqueried : Queried (as ++ .daemonHandle d :: bs) t m.id .readStatus d :=
      ⟨as, bs, s₁, m, rest, rfl, hrun₁, hpc, hmsgs, rfl, hcall⟩
    simp only [FromDevice, hr]
    refine ⟨t, d, ht, hqueried, ?_⟩
    rw [dvbHdhomerunFeReadStatusReturn, hmesg, ControlMesg.frontendStatus_setFrontendStatus]
    -- the handler of this call looks at the result of the query
    by_cases hpos : 0 < d.getTunerStatus
    · obtain ⟨st, hst⟩ := hstored hpos
      exact .inl ⟨hpos, st, hst, by rw [readStatus_stored tuner hpos hst]⟩
    · exact .inr ⟨by omega, by rw [readStatus_failed tuner (by omega)]⟩
  | feReadSignalStrength id =>
    -- this one does not, and the run promises that the query succeeds
    rw [hr] at hbuilt
    obtain ⟨htype, rfl⟩ := Request.build_reading (.inr rfl) hbuilt
    obtain ⟨hsome, hpos⟩ := hasked.2 htype
    obtain ⟨tuner, hget⟩ := Option.isSome_iff_exists.mp hsome
    obtain ⟨hcall, hset⟩ := Control.processMessage_feReadSignalStrength d htype hget
    obtain ⟨st, hst⟩ := hstored hpos
    have hmesg := Option.some.inj (hhandled.symm.trans hset)
    have hqueried : Queried (as ++ .daemonHandle d :: bs) t m.id .readSignalStrength d :=
      ⟨as, bs, s₁, m, rest, rfl, hrun₁, hpc, hmsgs, rfl, hcall⟩
    simp only [FromDevice, hr]
    refine ⟨t, d, st, ht, hqueried, hpos, hst, ?_⟩
    rw [dvbHdhomerunFeReadSignalStrengthReturn, hmesg,
      ControlMesg.signalStrength_setSignalStrength, readSignalStrength_stored tuner hst,
      UInt16.toUInt16_toInt16]
  | _ => simp only [FromDevice, hr]

/-- When the daemon is connected, there is room, no reading is interrupted, every client takes
    its reply in turn, and the daemon knows the tuner and gets its signal strength, every
    reading stores a value from the device. -/
theorem readings_from_device (acts : List Action) (hstore : StoresStatus acts)
    (hok : Run.Guarded State.step ReadsDevice .init acts) : ReadingsFromDevice acts := by
  intro as a bs s s' ρ hacts hrun hs hρ
  subst hacts
  have hstep := Run.everyStep_iff.mp hok as a bs s s' rfl hrun hs
  obtain ⟨hrelayed, hclients, -⟩ := relayed_of_run hok.init hrun
  have hlast : ∀ ρ', s'.hist.returned = s.hist.returned ++ [ρ'] → ρ' = ρ := fun ρ' h =>
    List.singleton_inj.mp (List.append_cancel_left (h.symm.trans hρ))
  have hother : ρ.request.isReading = false → FromDevice as ρ := by
    intro hr
    unfold FromDevice
    split
    · rename_i id hreq
      exact nomatch (congrArg Request.isReading hreq).symm.trans hr
    · rename_i id hreq
      exact nomatch (congrArg Request.isReading hreq).symm.trans hr
    · trivial
  have hstore' : StoresStatus as := fun d hd => hstore d (List.mem_append_left _ hd)
  cases State.step_returned hs with
  | same _ h => exact absurd (h.symm.trans hρ) (by simp)
  | refused c r mem e hb h =>
    -- only the demux callbacks refuse anything
    rw [← hlast _ h] at hother ⊢
    apply hother
    cases r with
    | startFeed | stopFeed => rfl
    | feReadStatus | feReadSignalStrength | feSetFrontend => exact nomatch hb
  | notReady c hpc hready h =>
    rw [← hlast _ h] at hother ⊢
    apply hother
    rw [Bool.eq_false_iff]
    intro hreading
    exact nomatch hready.symm.trans ((hstep.2.1 hreading).1 hpc)
  -- the put of a reading, as of any other call, has room
  | noRoom c hpc hpost h => exact absurd (State.postResult_eq_one_iff.mpr (hstep.1.1 hpc)) hpost
  | interrupted c hpc h =>
    rw [← hlast _ h] at hother ⊢
    apply hother
    rw [Bool.eq_false_iff]
    intro hreading
    exact (hstep.2.1 hreading).2 hpc
  | got c hpc h =>
    rw [← hlast _ h]
    exact fromDevice_of_ownReply hok.init hrun hstore' (own_reply hrelayed hclients hpc hstep.1)

/-- Both readings of a tuner that is locked and has 80 per cent of signal. -/
theorem readings_from_device_locked :
    let locked : DeviceResults := ⟨1, 1, 1, 1, 1, some ⟨80, 100⟩, ⟨0, 0⟩⟩
    let answer : List Action := [.daemonStep, .daemonRead .zero, .daemonHandle locked]
    let acts := [.openHandle 0,
        .daemonStart [{ HdhomerunTuner.fresh "10000001-0" 1 with mKernelId := 0 }]] ++
      Schedule.post 0 (.feReadStatus 0) ++ Schedule.sleep 0 ++ answer ++ Schedule.write ++
      Schedule.take 0 ++ Schedule.post 0 (.feReadSignalStrength 0) ++ Schedule.sleep 0 ++ answer ++
      Schedule.write ++ Schedule.take 0
    (State.run acts).isSome ∧ ReadingsFromDevice acts := by
  intro locked answer acts
  refine ⟨by decide, readings_from_device acts (fun d hd _ => ?_) (by decide)⟩
  have hlocked : d = locked := by
    simpa [acts, answer, Schedule.post, Schedule.sleep, Schedule.write, Schedule.take] using hd
  rw [hlocked]
  exact Option.some_ne_none _

/-- Nobody has opened the control device: the reading returns 0 all the same, and stores what
    was on the stack. -/
theorem reading_without_daemon :
    ¬ ∀ acts, SingleClient acts → StoresStatus acts → ReadingsFromDevice acts := by
  intro hall
  let as : List Action := [.call 0 (.feReadStatus 0) .zero]
  let s : State := (State.run as).get (by decide)
  let s' : State := (s.step (.client 0)).get (by decide)
  have hrun : State.run as = some s := (Option.some_get _).symm
  have hs : s.step (.client 0) = some s' := (Option.some_get _).symm
  have hsingle : SingleClient (as ++ [.client 0]) := by
    refine ⟨0, fun a ha => ?_⟩
    simp only [as, List.cons_append, List.nil_append, List.mem_cons, List.not_mem_nil,
      or_false] at ha
    rcases ha with rfl | rfl <;> rfl
  have hstore : StoresStatus (as ++ [.client 0]) := fun d hd => by simp [as] at hd
  -- no put has given the call a ticket
  obtain ⟨t, d, ht, -⟩ := hall (as ++ [.client 0]) hsingle hstore as (.client 0) [] s s'
    ⟨0, .feReadStatus 0, none, -1, dvbHdhomerunFeReadStatus 0 .zero⟩ rfl hrun hs (by decide)
  exact nomatch ht

end DvbHdhomerun
