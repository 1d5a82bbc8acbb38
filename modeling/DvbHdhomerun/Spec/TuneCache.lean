import DvbHdhomerun.ForStd.Run
import DvbHdhomerun.User.Tuner

/-!
# The early exit of `Tune`

`Tune` skips a set call when the frequency is the one of the call before and the device
reports a lock. The frequency is remembered even when the set call failed, and then the lock
is that of another channel: `tune_sound_iff`.
-/

namespace DvbHdhomerun

/-- The status query succeeded and found a full symbol quality. -/
def DeviceResults.Locked (d : DeviceResults) : Prop :=
  d.getTunerStatus > 0 ∧ d.hdhomerunStatus.symbolErrorQuality = 100

namespace HdhomerunTuner

/-- One call of `Tune`: the frequency, and what the device answers. -/
abbrev TuneCall := Int32 × DeviceResults

/-- One call of `Tune`. -/
def tuneStep (t : HdhomerunTuner) (call : TuneCall) : Option HdhomerunTuner :=
  some (t.tune call.1 call.2).2

/-- The channels that were set so far, with the results. -/
def setCalls (t : HdhomerunTuner) : List (String × Int) :=
  t.device.filterMap fun
    | .setTunerChannel channel ret => some (channel, ret)
    | _ => none

/-- The channel that the device accepted last; a set call that fails leaves it tuned. -/
def acceptedChannel (t : HdhomerunTuner) : Option String :=
  ((t.setCalls.filter fun c => 0 < c.2).getLast?).map Prod.fst

/-- A call that sets no channel finds the device on the one it asks for. -/
def FastPathSound (t : HdhomerunTuner) (call : TuneCall) (t' : HdhomerunTuner) : Prop :=
  t'.setCalls = t.setCalls → t.acceptedChannel = some (autoChannel call.1)

/-- The calls that are sound: when the latest set call failed and the device is on another
    channel, a call for the channel that was not set finds no lock. -/
def NoStaleLock (t : HdhomerunTuner) (call : TuneCall) : Prop :=
  ∀ channel ret, t.setCalls.getLast? = some (channel, ret) → ret ≤ 0 →
    t.acceptedChannel ≠ some channel → channel = autoChannel call.1 → ¬ call.2.Locked

/-! ## Channels -/

/-- The value of a numeral is the number it was made from. -/
private theorem natRepr_injective {m n : Nat} (h : m.repr = n.repr) : m = n := by
  have hdigits := congrArg (fun s => Nat.ofDigitChars 10 s.toList 0) h
  simpa [Nat.toList_repr] using hdigits

/-- No numeral of a natural number begins with the sign. -/
private theorem natRepr_ne_minus {m n : Nat} : m.repr ≠ "-" ++ n.repr := by
  intro h
  have hminus : '-' ∈ Nat.toDigits 10 m := by
    rw [← Nat.toList_repr, h, String.toList_append]
    exact List.mem_append_left _ (List.mem_singleton.mpr rfl)
  exact absurd (Nat.isDigit_of_mem_toDigits (by decide) (by decide) hminus) (by decide)

/-- Two integers with the same decimal text are equal. -/
private theorem intRepr_injective {a b : Int} (h : a.repr = b.repr) : a = b := by
  rw [Int.repr_eq_if, Int.repr_eq_if] at h
  split at h <;> split at h
  · have hnat := natRepr_injective h
    omega
  · exact absurd h natRepr_ne_minus
  · exact absurd h.symm natRepr_ne_minus
  · have hnat : (-a).toNat = (-b).toNat := natRepr_injective (by simpa using h)
    omega

/-- Two frequencies with the same channel text are equal. -/
theorem autoChannel_injective {f g : Int32} (h : autoChannel f = autoChannel g) : f = g := by
  unfold autoChannel at h
  have hnum : toString f.toInt = toString g.toInt := by
    have hlist := congrArg String.toList h
    rw [String.toList_append, String.toList_append] at hlist
    exact String.toList_inj.mp (List.append_cancel_left hlist)
  exact Int32.toInt_inj.mp (intRepr_injective hnum)

/-- A set call that succeeds is the one accepted last. -/
theorem acceptedChannel_of_getLast? {t : HdhomerunTuner} {channel : String} {ret : Int}
    (h : t.setCalls.getLast? = some (channel, ret)) (hret : 0 < ret) :
    t.acceptedChannel = some channel := by
  obtain ⟨before, hcalls⟩ := List.getLast?_eq_some_iff.mp h
  simp [acceptedChannel, hcalls, List.filter_append, hret]

/-! ## One call -/

/-- The status reads as locked exactly when the device says so. -/
theorem readStatus_fst (t : HdhomerunTuner) (d : DeviceResults) :
    (t.readStatus d).1 = feHasAll ↔ d.Locked := by
  have hne : (0 : UInt32) ≠ feHasAll := by decide
  unfold readStatus DeviceResults.Locked
  simp only
  split
  · rename_i hret
    split
    · rename_i hquality
      exact iff_of_true rfl ⟨hret, hquality⟩
    · rename_i hquality
      exact iff_of_false hne fun h => hquality h.2
  · rename_i hret
    exact iff_of_false hne fun h => hret h.1

/-- Reading the status changes nothing but the record of device calls. -/
theorem readStatus_snd (t : HdhomerunTuner) (d : DeviceResults) :
    (t.readStatus d).2 = t.log [.getTunerStatus d.getTunerStatus] := by
  unfold readStatus
  simp only
  split
  · split <;> rfl
  · rfl

/-- The test of the early exit, in terms of what the device answers. -/
private theorem tune_test {t : HdhomerunTuner} {freq : Int32} {d : DeviceResults} :
    ((t.readStatus d).2.mPrevFreq = freq ∧ (t.readStatus d).1 = feHasAll) ↔
      (t.mPrevFreq = freq ∧ d.Locked) := by
  rw [readStatus_fst, readStatus_snd]
  exact Iff.rfl

/-- The early exit is taken for the remembered frequency when the device reports a lock. -/
theorem tune_fast {t : HdhomerunTuner} {freq : Int32} {d : DeviceResults}
    (h : t.mPrevFreq = freq ∧ d.Locked) :
    (t.tune freq d).2.mPrevFreq = freq ∧ (t.tune freq d).2.setCalls = t.setCalls := by
  unfold tune
  simp only
  rw [if_pos (tune_test.mpr h), readStatus_snd]
  refine ⟨h.1, ?_⟩
  simp [setCalls, log, List.filterMap_append]

/-- What is not answered from the cache is sent to the device and remembered. -/
theorem tune_slow {t : HdhomerunTuner} {freq : Int32} {d : DeviceResults}
    (h : ¬ (t.mPrevFreq = freq ∧ d.Locked)) :
    (t.tune freq d).2.mPrevFreq = freq ∧
      (t.tune freq d).2.setCalls = t.setCalls ++ [(autoChannel freq, d.setTunerChannel)] := by
  unfold tune
  simp only
  rw [if_neg (mt tune_test.mp h), readStatus_snd]
  refine ⟨rfl, ?_⟩
  simp [setCalls, log, List.filterMap_append]

/-- Whether the early exit is sound depends on the channel the device is on. -/
theorem fastPathSound_iff {t : HdhomerunTuner} {freq : Int32} {d : DeviceResults} :
    FastPathSound t (freq, d) (t.tune freq d).2 ↔
      (t.mPrevFreq = freq → d.Locked → t.acceptedChannel = some (autoChannel freq)) := by
  unfold FastPathSound
  by_cases hfast : t.mPrevFreq = freq ∧ d.Locked
  · -- the early exit leaves the set calls as they were
    constructor
    · exact fun h _ _ => h (tune_fast hfast).2
    · exact fun h _ => h hfast.1 hfast.2
  · constructor
    · exact fun _ hprev hlock => absurd ⟨hprev, hlock⟩ hfast
    · intro _ heq
      -- there is one set call more
      have hlength := congrArg List.length ((tune_slow hfast).2.symm.trans heq)
      rw [List.length_append, List.length_singleton] at hlength
      omega

/-! ## Runs -/

/-- After a call the remembered frequency is the one of the latest set call. -/
def Remembers (t : HdhomerunTuner) : Prop :=
  ∃ ret, t.setCalls.getLast? = some (autoChannel t.mPrevFreq, ret)

/-- Any call that sets a channel remembers it. -/
private theorem remembers_of_slow {t : HdhomerunTuner} {freq : Int32} {d : DeviceResults}
    (h : ¬ (t.mPrevFreq = freq ∧ d.Locked)) : Remembers (t.tune freq d).2 := by
  obtain ⟨hprev, hcalls⟩ := tune_slow h
  exact ⟨d.setTunerChannel, by rw [hcalls, hprev, List.getLast?_concat]⟩

/-- A call leaves the last frequency sent in `m_prevFreq`, whichever way it takes. -/
private theorem Remembers.tune {t : HdhomerunTuner} (h : Remembers t) (freq : Int32)
    (d : DeviceResults) : Remembers (t.tune freq d).2 := by
  by_cases hfast : t.mPrevFreq = freq ∧ d.Locked
  · obtain ⟨hprev, hcalls⟩ := tune_fast hfast
    obtain ⟨ret, hlast⟩ := h
    exact ⟨ret, by rw [hcalls, hprev, hlast, hfast.1]⟩
  · exact remembers_of_slow hfast

/-- A lock is stale exactly when the remembered channel was not accepted. -/
private theorem Remembers.sound_iff {t : HdhomerunTuner} (h : Remembers t) (freq : Int32)
    (d : DeviceResults) :
    FastPathSound t (freq, d) (t.tune freq d).2 ↔ NoStaleLock t (freq, d) := by
  obtain ⟨ret, hlast⟩ := h
  rw [fastPathSound_iff]
  constructor
  · intro hsound channel ret' hlast' _ hother hchannel hlock
    cases hlast.symm.trans hlast'
    -- the latest set call was for the remembered frequency
    have hprev : t.mPrevFreq = freq := autoChannel_injective hchannel
    exact hother (by rw [hsound hprev hlock, hprev])
  · intro hstale hprev hlock
    subst hprev
    by_contra hother
    have hret : ret ≤ 0 := by
      by_contra hret
      exact hother (acceptedChannel_of_getLast? hlast (by omega))
    exact hstale _ ret hlast hret hother rfl hlock

/-- On a new tuner, with a first call for a frequency other than 0: every call that sets no
    channel finds the device on the one it asks for, exactly if no call for a channel that
    could not be set finds the lock of another one. -/
theorem tune_sound_iff {name : String} {conf : TunerConf} {modelStr : Option String} {ret : Int}
    {t : HdhomerunTuner} (hnew : new name conf modelStr ret = some t) (freq : Int32)
    (d : DeviceResults) (calls : List TuneCall) (hfreq : freq ≠ 0) :
    Run.EveryStep tuneStep FastPathSound t ((freq, d) :: calls) ↔
      Run.Guarded tuneStep NoStaleLock t ((freq, d) :: calls) := by
  obtain ⟨-, -, hprev, hdevice⟩ := new_spec hnew
  have hcalls : t.setCalls = [] := by
    rw [setCalls, hdevice]
    rfl
  have hslow : ¬ (t.mPrevFreq = freq ∧ d.Locked) := fun h => hfreq (h.1.symm.trans hprev)
  -- the first call sets its channel, and from then on the tuner remembers
  have hrest : Run.EveryStep tuneStep FastPathSound (t.tune freq d).2 calls ↔
      Run.Guarded tuneStep NoStaleLock (t.tune freq d).2 calls := by
    have hstep : ∀ t call t', Remembers t → tuneStep t call = some t' → Remembers t' := by
      intro t call t' hinv hs
      cases hs
      exact hinv.tune call.1 call.2
    apply Run.everyStep_congr hstep _ (remembers_of_slow hslow)
    intro t call t' hinv hs
    cases hs
    exact hinv.sound_iff call.1 call.2
  constructor
  · intro h t' hs
    cases hs
    refine ⟨fun channel ret' hlast => ?_, hrest.mp (h _ rfl).2⟩
    rw [hcalls] at hlast
    exact nomatch hlast
  · intro h t' hs
    cases hs
    refine ⟨fastPathSound_iff.mpr fun hprev hlock => absurd ⟨hprev, hlock⟩ hslow, ?_⟩
    exact hrest.mpr (h _ rfl).2

/-- A device that reports a lock, and what it answers to a set call. -/
private def lockedDevice (setTunerChannel : Int) : DeviceResults :=
  ⟨1, 1, setTunerChannel, 1, 1, some ⟨100, 100⟩, ⟨0, 0⟩⟩

/-- A device that reports its lock, whatever it answers to the setting of a channel. -/
private theorem locked_lockedDevice (ret : Int) : (lockedDevice ret).Locked :=
  ⟨(by decide : (1 : Int) > 0), rfl⟩

/-- A section that sets the type to DVB-C. -/
private def dvbcConf : TunerConf := ⟨some "DVB-C", none, none⟩

/-- The tuner the constructor builds from it. -/
private def dvbcTuner : HdhomerunTuner :=
  { fresh "1234ABCD-0" 1 with mType := .dvbc }

/-- The constructor takes the type from the section. -/
private theorem new_dvbcTuner : new "1234ABCD-0" dvbcConf none 1 = some dvbcTuner := rfl

/-- Two calls for one frequency, the second of which sets nothing. -/
theorem tune_sound_twice :
    Run.EveryStep tuneStep FastPathSound dvbcTuner
      [(500000000, lockedDevice 1), (500000000, lockedDevice 1)] := by
  refine (tune_sound_iff new_dvbcTuner _ _ _ (by decide)).mpr fun t hs => ?_
  cases hs
  have hslow : ¬ (dvbcTuner.mPrevFreq = 500000000 ∧ (lockedDevice 1).Locked) :=
    fun h => absurd h.1 (by decide)
  refine ⟨fun channel ret hlast => ?_, fun t' _ => ⟨fun channel ret hlast hret => ?_, trivial⟩⟩
  · cases hlast
  · -- the first call succeeded
    rw [(tune_slow hslow).2, List.getLast?_concat] at hlast
    cases hlast
    exact absurd hret (by decide)

/-- Tuned to 500 MHz, then a set call for 600 MHz fails, then 600 MHz again: the lock of the
    first channel ends the last call. -/
theorem tune_stale_lock :
    ¬ ∀ name conf modelStr ret t freq d calls, new name conf modelStr ret = some t → freq ≠ 0 →
      Run.EveryStep tuneStep FastPathSound t ((freq, d) :: calls) := by
  intro hall
  have hsound := hall _ _ _ _ _ 500000000 (lockedDevice 1)
    [(600000000, lockedDevice 0), (600000000, lockedDevice 1)] new_dvbcTuner (by decide)
  have hslow : ¬ (dvbcTuner.mPrevFreq = 500000000 ∧ (lockedDevice 1).Locked) :=
    fun h => absurd h.1 (by decide)
  obtain ⟨hprev₁, hcalls₁⟩ := tune_slow hslow
  have hslow₁ : ¬ ((dvbcTuner.tune 500000000 (lockedDevice 1)).2.mPrevFreq = 600000000 ∧
      (lockedDevice 0).Locked) := by
    rw [hprev₁]
    exact fun h => absurd h.1 (by decide)
  obtain ⟨hprev₂, hcalls₂⟩ := tune_slow hslow₁
  have hlast := ((hsound _ rfl).2 _ rfl).2 _ rfl
  have haccepted := fastPathSound_iff.mp hlast.1 hprev₂ (locked_lockedDevice 1)
  -- the only set call that succeeded is the first
  rw [acceptedChannel, hcalls₂, hcalls₁] at haccepted
  have hcalls : dvbcTuner.setCalls = [] := rfl
  simp only [hcalls, List.nil_append, List.cons_append] at haccepted
  have hfreq := autoChannel_injective (Option.some.inj haccepted)
  exact absurd hfreq (by decide)

end HdhomerunTuner

end DvbHdhomerun
