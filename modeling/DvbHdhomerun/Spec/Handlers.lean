import DvbHdhomerun.Kernel.Requests
import DvbHdhomerun.User.Control

/-!
# What the daemon's handlers do

Every message of a type that the kernel posts is answered. No handler changes the kernel
id of a tuner or calls a tuner that is not there, and a START_FEED for a tuner that is there
comes to a `StartStreaming` of the PID in the message.
-/

namespace DvbHdhomerun

/-- The message was built by a call. -/
def Built (mesg : ControlMesg) : Prop :=
  ∃ (r : Request) (mem : ControlMesg) (lock : Option Int32), r.build mem = .ok (lock, mesg)

/-! ## Tuners -/

namespace HdhomerunTuner

/-- A device call does not change the kernel id. -/
@[simp] theorem mKernelId_log (t : HdhomerunTuner) (calls : List DeviceCall) :
    (t.log calls).mKernelId = t.mKernelId := rfl

/-- Starting to stream does not change the kernel id. -/
@[simp] theorem mKernelId_startStreaming (t : HdhomerunTuner) (pid : Nat) (d : DeviceResults) :
    (t.startStreaming pid d).mKernelId = t.mKernelId := by
  unfold startStreaming
  simp only [mKernelId_log]
  split <;> exact mKernelId_addPidToFilter t pid

/-- Nor does stopping. -/
@[simp] theorem mKernelId_stopStreaming (t : HdhomerunTuner) (pid : Nat) :
    (t.stopStreaming pid).mKernelId = t.mKernelId := by
  unfold stopStreaming
  simp only
  split
  · rfl
  · split <;> rfl

/-- Reading the status does not change the kernel id. -/
@[simp] theorem mKernelId_readStatus (t : HdhomerunTuner) (d : DeviceResults) :
    (t.readStatus d).2.mKernelId = t.mKernelId := by
  unfold readStatus
  simp only
  split
  · split <;> rfl
  · rfl

/-- Nor does reading the signal strength. -/
@[simp] theorem mKernelId_readSignalStrength (t : HdhomerunTuner) (d : DeviceResults) :
    (t.readSignalStrength d).2.mKernelId = t.mKernelId := rfl

/-- Nor does tuning. -/
@[simp] theorem mKernelId_tune (t : HdhomerunTuner) (freq : Int32) (d : DeviceResults) :
    (t.tune freq d).2.mKernelId = t.mKernelId := by
  unfold tune
  simp only
  split <;> exact mKernelId_readStatus t d

end HdhomerunTuner

namespace HdhomerunController

/-- The tuner found under an id has it. -/
theorem getTuner_id {tuners : List HdhomerunTuner} {id : Int32} {t : HdhomerunTuner}
    (h : getTuner tuners id = some t) : t.mKernelId = id := by
  have := List.find?_some h
  simpa using this

/-- And its id is among those of the tuners. -/
theorem getTuner_mem {tuners : List HdhomerunTuner} {id : Int32} {t : HdhomerunTuner}
    (h : getTuner tuners id = some t) : id ∈ tuners.map (·.mKernelId) := by
  rw [← getTuner_id h]
  exact List.mem_map_of_mem (List.mem_of_find?_eq_some h)

/-- Every id of a tuner is found. -/
theorem exists_getTuner {tuners : List HdhomerunTuner} {id : Int32}
    (h : id ∈ tuners.map (·.mKernelId)) : ∃ t, getTuner tuners id = some t := by
  obtain ⟨t, ht, rfl⟩ := List.mem_map.mp h
  exact Option.isSome_iff_exists.mp (List.find?_isSome.mpr ⟨t, ht, by simp⟩)

/-- A tuner is replaced by one with the same kernel id. -/
theorem map_mKernelId_setTuner {tuners : List HdhomerunTuner} {id : Int32} {t : HdhomerunTuner}
    (h : t.mKernelId = id) :
    (setTuner tuners id t).map (·.mKernelId) = tuners.map (·.mKernelId) := by
  induction tuners with
  | nil => rfl
  | cons t₀ tuners ih =>
    unfold setTuner at ih ⊢
    rw [List.findIdx_cons]
    cases h₀ : t₀.mKernelId == id with
    | true =>
      have hid : t₀.mKernelId = id := by simpa using h₀
      simp [h, hid]
    | false => simp [ih]

/-- The index of `GetTuner(id)`, the number of tuners when there is none. -/
def tunerIdx (tuners : List HdhomerunTuner) (id : Int32) : Nat :=
  tuners.findIdx fun t => t.mKernelId == id

/-- Only the kernel ids decide which tuner a message addresses. -/
theorem tunerIdx_congr {tuners tuners' : List HdhomerunTuner} (id : Int32)
    (h : tuners'.map (·.mKernelId) = tuners.map (·.mKernelId)) :
    tunerIdx tuners' id = tunerIdx tuners id := by
  have hmap : ∀ l : List HdhomerunTuner,
      tunerIdx l id = (l.map (·.mKernelId)).findIdx (· == id) := by
    intro l
    rw [tunerIdx, List.findIdx_map]
    rfl
  rw [hmap, hmap, h]

/-- A tuner is found exactly under the ids there are. -/
theorem getTuner_ne_none_iff {tuners : List HdhomerunTuner} {id : Int32} :
    getTuner tuners id ≠ none ↔ id ∈ tuners.map (·.mKernelId) := by
  constructor
  · intro h
    obtain ⟨t, ht⟩ := Option.ne_none_iff_exists'.mp h
    exact getTuner_mem ht
  · intro h
    obtain ⟨t, ht⟩ := exists_getTuner h
    rw [ht]
    exact Option.some_ne_none t

/-- No other tuner changes. -/
theorem getElem?_setTuner_of_ne {tuners : List HdhomerunTuner} {id : Int32} {t : HdhomerunTuner}
    {i : Nat} (h : tunerIdx tuners id ≠ i) : (setTuner tuners id t)[i]? = tuners[i]? := by
  unfold setTuner
  exact List.getElem?_modify_ne _ _ h

end HdhomerunController

/-! ## Handlers -/

namespace Control

open HdhomerunController

/-- No handler changes the kernel ids of the tuners. -/
theorem processMessage_ids (tuners : List HdhomerunTuner) (mesg : ControlMesg)
    (d : DeviceResults) :
    (processMessage tuners mesg d).tuners.map (·.mKernelId) = tuners.map (·.mKernelId) := by
  unfold processMessage feSetFrontend feReadStatus feReadSignalStrength startFeed stopFeed
  cases hget : getTuner tuners mesg.id with
  | none =>
    simp only
    split <;> rfl
  | some t =>
    have hset : ∀ t' : HdhomerunTuner, t'.mKernelId = t.mKernelId →
        (setTuner tuners mesg.id t').map (·.mKernelId) = tuners.map (·.mKernelId) := by
      intro t' ht'
      apply map_mKernelId_setTuner
      rw [ht', getTuner_id hget]
    simp only
    -- one case for each message type that has a handler
    split
    · exact hset _ (t.mKernelId_tune _ d)
    · exact hset _ (t.mKernelId_readStatus d)
    · exact hset _ (t.mKernelId_readSignalStrength d)
    · exact hset _ (t.mKernelId_startStreaming _ d)
    · exact hset _ (t.mKernelId_stopStreaming _)
    · rfl

/-- Whatever the message is, only the tuner that it addresses may change. -/
theorem processMessage_frame {tuners : List HdhomerunTuner} {mesg : ControlMesg} {i : Nat}
    (h : tunerIdx tuners mesg.id ≠ i) (d : DeviceResults) :
    (processMessage tuners mesg d).tuners[i]? = tuners[i]? := by
  unfold processMessage feSetFrontend feReadStatus feReadSignalStrength startFeed stopFeed
  cases getTuner tuners mesg.id with
  | none =>
    simp only
    split <;> rfl
  | some t =>
    simp only
    split
    case h_6 => rfl
    all_goals exact getElem?_setTuner_of_ne h

/-- Only a tuner that is there is called. -/
theorem processMessage_call_mem {tuners : List HdhomerunTuner} {mesg : ControlMesg}
    {d : DeviceResults} {call : TunerCall} (h : (processMessage tuners mesg d).call = some call) :
    mesg.id ∈ tuners.map (·.mKernelId) := by
  cases hget : getTuner tuners mesg.id with
  | some t => exact getTuner_mem hget
  | none =>
    unfold processMessage feSetFrontend feReadStatus feReadSignalStrength startFeed stopFeed at h
    simp only [hget] at h
    split at h <;> exact nomatch h

/-- A START_FEED for a tuner that is there starts the stream of the PID in the message. -/
theorem processMessage_startFeed {tuners : List HdhomerunTuner} {mesg : ControlMesg}
    (d : DeviceResults) (htype : mesg.type = ControlMesgType.startFeed.code)
    (hid : mesg.id ∈ tuners.map (·.mKernelId)) :
    (processMessage tuners mesg d).call = some (.startStreaming mesg.feedPid.toNat) := by
  obtain ⟨t, ht⟩ := exists_getTuner hid
  unfold processMessage
  rw [htype, ControlMesgType.ofCode_code]
  simp only [startFeed, ht]

/-- A FE_READ_STATUS for a tuner that is there is answered by what its `ReadStatus` returns. -/
theorem processMessage_feReadStatus {tuners : List HdhomerunTuner} {mesg : ControlMesg}
    (d : DeviceResults) {t : HdhomerunTuner} (htype : mesg.type = ControlMesgType.feReadStatus.code)
    (hget : getTuner tuners mesg.id = some t) :
    (processMessage tuners mesg d).call = some .readStatus ∧
      (processMessage tuners mesg d).reply = some (mesg.setFrontendStatus (t.readStatus d).1) := by
  unfold processMessage
  rw [htype, ControlMesgType.ofCode_code]
  simp only [feReadStatus, hget, and_self]

/-- A question for the signal strength is answered with what the tuner reads. -/
theorem processMessage_feReadSignalStrength {tuners : List HdhomerunTuner} {mesg : ControlMesg}
    (d : DeviceResults) {t : HdhomerunTuner}
    (htype : mesg.type = ControlMesgType.feReadSignalStrength.code)
    (hget : getTuner tuners mesg.id = some t) :
    (processMessage tuners mesg d).call = some .readSignalStrength ∧
      (processMessage tuners mesg d).reply =
        some (mesg.setSignalStrength (t.readSignalStrength d).1.toUInt32.toUInt16.toInt16) := by
  unfold processMessage
  rw [htype, ControlMesgType.ofCode_code]
  simp only [feReadSignalStrength, hget, and_self]

/-! ## Replies -/

/-- The types of the messages that the kernel posts. -/
def postedTypes : List ControlMesgType :=
  [.feSetFrontend, .feReadStatus, .feReadSignalStrength, .startFeed, .stopFeed]

/-- The message has a type that the kernel module posts. -/
def Posted (mesg : ControlMesg) : Prop := ∃ t ∈ postedTypes, mesg.type = t.code

/-- The messages that the callbacks build have such a type. -/
theorem posted_of_built {mesg : ControlMesg} (h : Built mesg) : Posted mesg := by
  obtain ⟨r, mem, lock, hb⟩ := h
  refine ⟨r.mesgType, ?_, Request.type_build hb⟩
  cases r <;> simp [Request.mesgType, postedTypes]

/-- The reply is the request, except for the field of the reading when the message asks for
    one and its tuner is there: `u.frontend_status`, the 4 bytes at offset 4, or
    `u.signal_strength`, the 2 bytes at offset 4. -/
structure Answers (tuners : List HdhomerunTuner) (mesg reply : ControlMesg) : Prop where
  type : reply.type = mesg.type
  id : reply.id = mesg.id
  fields : reply = mesg ∨ getTuner tuners mesg.id ≠ none ∧
    (mesg.type = ControlMesgType.feReadStatus.code ∧ mesg.SameOutside 4 4 reply ∨
      mesg.type = ControlMesgType.feReadSignalStrength.code ∧ mesg.SameOutside 4 2 reply)

/-- A message that is handed back as it came is an answer. -/
theorem Answers.refl (tuners : List HdhomerunTuner) (mesg : ControlMesg) :
    Answers tuners mesg mesg := ⟨rfl, rfl, .inl rfl⟩

/-- Whether a message is an answer depends on the ids of the tuners alone. -/
theorem Answers.congr {tuners tuners' : List HdhomerunTuner} {mesg reply : ControlMesg}
    (h : Answers tuners' mesg reply)
    (hids : tuners'.map (·.mKernelId) = tuners.map (·.mKernelId)) : Answers tuners mesg reply := by
  refine ⟨h.type, h.id, ?_⟩
  rw [getTuner_ne_none_iff, ← hids, ← getTuner_ne_none_iff]
  exact h.fields

/-- A message that the kernel posts gets one reply. -/
theorem processMessage_answers {mesg : ControlMesg} (h : Posted mesg)
    (tuners : List HdhomerunTuner) (d : DeviceResults) :
    ∃ reply, (processMessage tuners mesg d).reply = some reply ∧ Answers tuners mesg reply := by
  obtain ⟨t, ht, htype⟩ := h
  have hsame := Answers.refl tuners mesg
  unfold processMessage
  rw [htype, ControlMesgType.ofCode_code]
  simp only [postedTypes, List.mem_cons, List.not_mem_nil, or_false] at ht
  -- one case for each handler
  rcases ht with rfl | rfl | rfl | rfl | rfl
  · show ∃ reply, (feSetFrontend tuners mesg d).reply = some reply ∧ _
    unfold feSetFrontend
    split <;> exact ⟨mesg, rfl, hsame⟩
  · show ∃ reply, (feReadStatus tuners mesg d).reply = some reply ∧ _
    unfold feReadStatus
    split <;> rename_i hget
    · refine ⟨_, rfl, mesg.type_setFrontendStatus _, mesg.id_setFrontendStatus _, .inr ⟨?_, .inl ?_⟩⟩
      · rw [hget]
        exact Option.some_ne_none _
      · exact ⟨htype, mesg.sameOutside_write _⟩
    · exact ⟨mesg, rfl, hsame⟩
  · show ∃ reply, (feReadSignalStrength tuners mesg d).reply = some reply ∧ _
    unfold feReadSignalStrength
    split <;> rename_i hget
    · refine ⟨_, rfl, mesg.type_setSignalStrength _, mesg.id_setSignalStrength _,
        .inr ⟨?_, .inr ?_⟩⟩
      · rw [hget]
        exact Option.some_ne_none _
      · exact ⟨htype, mesg.sameOutside_write _⟩
    · exact ⟨mesg, rfl, hsame⟩
  · show ∃ reply, (startFeed tuners mesg d).reply = some reply ∧ _
    unfold startFeed
    split <;> exact ⟨mesg, rfl, hsame⟩
  · show ∃ reply, (stopFeed tuners mesg).reply = some reply ∧ _
    unfold stopFeed
    split <;> exact ⟨mesg, rfl, hsame⟩

/-- Every message that a call builds is answered. -/
theorem processMessage_reply {mesg : ControlMesg} (h : Built mesg) (tuners : List HdhomerunTuner)
    (d : DeviceResults) : ∃ reply, (processMessage tuners mesg d).reply = some reply := by
  obtain ⟨reply, hreply, -⟩ := processMessage_answers (posted_of_built h) tuners d
  exact ⟨reply, hreply⟩

end Control

end DvbHdhomerun
