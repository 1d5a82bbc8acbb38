import DvbHdhomerun.Spec.Readings

/-!
# The scale of the signal strength

libhdhomerun reports the signal strength in per cent, as an `unsigned int`. On its way to the
caller of `dvb_hdhomerun_fe_read_signal_strength` it is multiplied by 0xffff, divided by 100,
and goes through `int`, `uint16_t`, `int16_t` and `u16`; nothing on the way looks at its range.
Stronger signals give higher readings up to 100 and not beyond: `strength_monotone_iff`.
-/

namespace DvbHdhomerun

open HdhomerunController

/-! ## The scale -/

/-- Up to 100 the product, the quotient and all the types have room. -/
theorem toNat_strengthOf {st : TunerStatus} (h : st.signalStrength ≤ 100) :
    (strengthOf st).toNat = 0xffff * st.signalStrength.toNat / 100 := by
  have hle : st.signalStrength.toNat ≤ 100 := UInt32.le_iff_toNat_le.mp h
  have hprod : (0xffff * st.signalStrength).toNat = 0xffff * st.signalStrength.toNat := by
    rw [UInt32.toNat_mul]
    show 0xffff * st.signalStrength.toNat % 2 ^ 32 = _
    omega
  rw [strengthOf, UInt32.toNat_toUInt16, UInt32.toNat_div, hprod]
  show 0xffff * st.signalStrength.toNat / 100 % 2 ^ 16 = _
  omega

theorem strengthOf_mono {st st' : TunerStatus} (hle : st.signalStrength ≤ st'.signalStrength)
    (h : st'.signalStrength ≤ 100) : strengthOf st ≤ strengthOf st' := by
  have hle' : st.signalStrength.toNat ≤ st'.signalStrength.toNat := UInt32.le_iff_toNat_le.mp hle
  have hst : st.signalStrength ≤ 100 := UInt32.le_trans hle h
  rw [UInt16.le_iff_toNat_le, toNat_strengthOf hst, toNat_strengthOf h]
  omega

/-! ## Readings -/

/-- A request for the signal strength that reaches the daemon and finds its tuner. -/
structure StrengthReading where
  tuners : List HdhomerunTuner
  mesg : ControlMesg
  /-- what libhdhomerun returns while the request is handled -/
  d : DeviceResults
  found : getTuner tuners mesg.id ≠ none

namespace StrengthReading

/-- `hdhomerun_status.signal_strength`. -/
def reported (x : StrengthReading) : UInt32 := x.d.hdhomerunStatus.signalStrength

/-- The caller's message when it has the reply. -/
def reply (x : StrengthReading) : ControlMesg :=
  (Control.feReadSignalStrength x.tuners x.mesg x.d).reply.getD x.mesg

/-- The value that `dvb_hdhomerun_fe_read_signal_strength` stores for its caller. -/
def delivered (x : StrengthReading) : UInt16 := (dvbHdhomerunFeReadSignalStrengthReturn x.reply).2

/-- The five conversions come to the scale and a cut to 16 bits. -/
theorem delivered_eq (x : StrengthReading) : x.delivered = strengthOf x.d.hdhomerunStatus := by
  obtain ⟨tuner, hget⟩ := Option.ne_none_iff_exists'.mp x.found
  have hreply : x.reply = x.mesg.setSignalStrength
      (tuner.readSignalStrength x.d).1.toUInt32.toUInt16.toInt16 := by
    rw [reply, Control.feReadSignalStrength, hget]
    rfl
  rw [delivered, dvbHdhomerunFeReadSignalStrengthReturn, hreply,
    ControlMesg.signalStrength_setSignalStrength, UInt16.toUInt16_toInt16]
  show (0xffff * x.d.hdhomerunStatus.signalStrength / 100).toInt32.toUInt32.toUInt16 = _
  rw [UInt32.toUInt32_toInt32, strengthOf]

/-- One tuner, and libhdhomerun reports `signalStrength` for it. -/
private def reading (signalStrength : UInt32) : StrengthReading where
  tuners := [{ HdhomerunTuner.fresh "1234ABCD-0" 1 with mKernelId := 0 }]
  mesg := .zero
  d := ⟨1, 1, 1, 1, 1, some ⟨signalStrength, 100⟩, ⟨0, 0⟩⟩
  found := by decide

/-- 101 gives a lower reading than 100. -/
private theorem not_delivered_le : ¬ (reading 100).delivered ≤ (reading 101).delivered := by
  rw [delivered_eq, delivered_eq]
  decide

/-- As long as libhdhomerun reports at most `m`, stronger signals give readings that are not
    lower, exactly if `m` is at most 100. -/
theorem strength_monotone_iff (m : UInt32) :
    (∀ x y : StrengthReading, x.reported ≤ y.reported → y.reported ≤ m →
      x.delivered ≤ y.delivered) ↔ m ≤ 100 := by
  constructor
  · intro hmono
    by_contra hm
    have hlt : 101 ≤ m := by
      rw [UInt32.le_iff_toNat_le] at hm ⊢
      have h100 : (100 : UInt32).toNat = 100 := rfl
      have h101 : (101 : UInt32).toNat = 101 := rfl
      omega
    exact not_delivered_le (hmono (reading 100) (reading 101) (by decide) hlt)
  · intro hm x y hle hy
    rw [x.delivered_eq, y.delivered_eq]
    exact strengthOf_mono hle (UInt32.le_trans hy hm)

/-- 100 is read as 65535, and 101 as 654. -/
theorem strength_wraps :
    ¬ ∀ x y : StrengthReading, x.reported ≤ y.reported → x.delivered ≤ y.delivered := by
  intro hall
  exact not_delivered_le (hall (reading 100) (reading 101) (by decide))

end StrengthReading

end DvbHdhomerun
