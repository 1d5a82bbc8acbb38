import DvbHdhomerun.Kernel.NameAccess
import DvbHdhomerun.Spec.RequestOutcome

/-!
# The name fields during a registration

`strncmp` looks at ten bytes of two names of twelve, and all that is written to the name of
the frontend lies inside it. The bound of the `strncpy` that appends the tuner's name is what
is left of the destination: the source is read up to its NUL, which the twelve bytes of a
request need not have. `controlIoctl_namesInside_iff` says when a request stays inside.
-/

namespace DvbHdhomerun

/-- The byte belongs to the array. -/
def NameAccess.Inside : NameAccess → Prop
  | .readName i => i < 12
  | .readInfoName i => i < 128
  | .writeInfoName i => i < 128

namespace RegisterTunerData

/-- The string at the name is that of the name when it has a NUL. -/
theorem chars_memFromName {d : RegisterTunerData} (h : 0 ∈ d.name.toList) :
    CString.chars d.memFromName = CString.chars d.name.toList := by
  unfold memFromName
  simp only [List.append_assoc]
  exact CString.chars_append_of_mem h _

/-- A request's name that ends inside its field is shorter than the field. -/
theorem strlen_memFromName_lt {d : RegisterTunerData} (h : 0 ∈ d.name.toList) :
    CString.strlen d.memFromName < 12 := by
  have hlt := CString.strlen_lt_of_mem h
  rw [Vector.length_toList] at hlt
  rwa [CString.strlen, chars_memFromName h]

/-- Otherwise the string goes on behind the name. -/
theorem le_strlen_memFromName {d : RegisterTunerData} (h : 0 ∉ d.name.toList) :
    12 ≤ CString.strlen d.memFromName := by
  have hne : ∀ b ∈ d.name.toList, b ≠ 0 := fun b hb h0 => h (h0 ▸ hb)
  unfold memFromName
  simp only [List.append_assoc]
  rw [CString.strlen, CString.chars_append_of_ne hne, List.length_append, Vector.length_toList]
  exact Nat.le_add_right 12 _

/-- The id of a tuner has a NUL among its bytes, so the string ends inside the struct. -/
theorem strlen_memFromName_lt_of_id {d : RegisterTunerData} {n : Nat} (hn : n < hdhomerunMaxTuners)
    (hid : d.id = Int32.ofNat n) : CString.strlen d.memFromName < 24 := by
  have hbytes : ∀ n < 8, 0 ∈ Bytes.ofNat 4 (Int32.ofNat n).toUInt32.toNat := by decide
  have hlen : d.memFromName.length = 24 := by
    simp only [memFromName, List.length_append, Vector.length_toList, Bytes.length_ofNat,
      List.length_singleton]
  have hzero : 0 ∈ d.memFromName := by
    unfold memFromName
    rw [hid]
    simp only [List.mem_append]
    exact .inl (.inl (.inr (hbytes n hn)))
  rw [← hlen]
  exact CString.strlen_lt_of_mem hzero

end RegisterTunerData

namespace Hdhomerun

/-- Bytes that have all been tested are not NUL. -/
private theorem ne_zero_of_all {s : List UInt8} (h : s.all (· != 0) = true) :
    ∀ b ∈ s, b ≠ 0 := by
  intro b hb
  have hne := List.all_eq_true.mp h b hb
  simpa using hne

/-- The names of the frontends hold no NUL. -/
theorem ne_zero_of_mem_attachName (type : Int32) : ∀ b ∈ attachName type, b ≠ 0 := by
  apply ne_zero_of_all
  unfold attachName
  split
  · decide
  · split
    · decide
    · split
      · decide
      · decide

/-- And are short. -/
theorem length_attachName_le (type : Int32) : (attachName type).length ≤ 15 := by
  unfold attachName
  split
  · decide
  · split
    · decide
    · split
      · decide
      · decide

/-! ## The full name -/

/-- The blank makes a name one longer. -/
private theorem length_append_space (base : List UInt8) :
    (base ++ [32]).length = base.length + 1 := by
  rw [List.length_append, List.length_singleton]

section FullName

variable {base : List UInt8} (hbase : ∀ b ∈ base, b ≠ 0) (hlen : base.length ≤ 126)
include hbase hlen

/-- A name in a field of 128 bytes is filled up with NULs. -/
private theorem toList_charArray :
    (charArray 128 base).toList = base ++ List.replicate (128 - base.length) 0 := by
  have hlist : (charArray 128 base).toList = CString.strncpy base 128 := rfl
  rw [hlist, CString.strncpy, CString.strlen, CString.chars_eq_self hbase,
    List.take_of_length_le (by omega)]

/-- And its length is the name's. -/
private theorem strlen_charArray : CString.strlen (charArray 128 base).toList = base.length := by
  rw [toList_charArray hbase hlen, CString.strlen, CString.chars_append_replicate hbase]

/-- The space takes the place of the NUL. -/
private theorem toList_charArray_set :
    ((charArray 128 base).setIfInBounds base.length 32).toList =
      (base ++ [32]) ++ List.replicate (127 - base.length) 0 := by
  have hpad : 128 - base.length = 127 - base.length + 1 := by omega
  rw [Vector.toList_setIfInBounds, toList_charArray hbase hlen, hpad, List.replicate_succ,
    List.set_append_right _ _ (Nat.le_refl _), Nat.sub_self, List.set_cons_zero,
    List.append_assoc, List.singleton_append]

/-- The name in memory: the one of the frontend, the space, and what `strncpy` has copied, with
    its last byte made NUL. -/
private theorem toList_fullName (tunerData : RegisterTunerData) :
    (fullName (charArray 128 base) tunerData).toList =
      (base ++ [32]) ++ (CString.strncpy tunerData.memFromName (126 - base.length + 1)).set
        (126 - base.length) 0 := by
  have hroom : 128 - base.length - 1 = 126 - base.length + 1 := by omega
  have hstart := length_append_space base
  unfold fullName
  simp only [strlen_charArray hbase hlen, hroom, Vector.toList_set, Vector.toList_ofFn]
  generalize hsuffix : CString.strncpy tunerData.memFromName (126 - base.length + 1) = suffix
  have hsize : suffix.length = 126 - base.length + 1 := by rw [← hsuffix, CString.length_strncpy]
  have hcopied : List.ofFn (fun i : Fin 128 => if i.val < base.length + 1 then
      ((charArray 128 base).setIfInBounds base.length 32)[i] else
        suffix.getD (i.val - (base.length + 1)) 0) = (base ++ [32]) ++ suffix := by
    apply List.ext_getElem
    · rw [List.length_ofFn, List.length_append, hstart, hsize]
      omega
    · -- up to the space the old name, and from there on the copied bytes
      intro i h1 h2
      rw [List.getElem_ofFn]
      simp only
      split
      · rename_i hi
        have hi' : i < (base ++ [32]).length := by omega
        rw [List.getElem_append_left hi', Fin.getElem_fin, ← Vector.getElem_toList
          (by rw [Vector.length_toList]; omega)]
        simp only [toList_charArray_set hbase hlen, List.getElem_append_left hi']
      · rename_i hi
        have hi' : (base ++ [32]).length ≤ i := by omega
        have hlt : i - (base.length + 1) < suffix.length := by
          rw [List.length_append] at h2
          omega
        rw [List.getElem_append_right hi', List.getD_eq_getElem?_getD,
          List.getElem?_eq_getElem hlt, Option.getD_some]
        simp only [hstart]
  have hlast : 127 - (base ++ [32]).length = 126 - base.length := by omega
  rw [hcopied, List.set_append_right _ _ (by omega), hlast]

/-- The full name as a string: what fits of the name of the frontend, a space, and the string
    at the tuner's name. -/
private theorem chars_fullName_charArray (tunerData : RegisterTunerData) :
    CString.chars (fullName (charArray 128 base) tunerData).toList =
      (base ++ 32 :: CString.chars tunerData.memFromName).take 127 := by
  have hstart := length_append_space base
  have hne : ∀ b ∈ base ++ [32], b ≠ 0 := by
    intro b hb
    rcases List.mem_append.mp hb with hb | hb
    · exact hbase b hb
    · rw [List.mem_singleton.mp hb]
      decide
  have hsplit : base ++ 32 :: CString.chars tunerData.memFromName =
      (base ++ [32]) ++ CString.chars tunerData.memFromName := by
    rw [List.append_assoc, List.singleton_append]
  have hroom : 127 - (base ++ [32]).length = 126 - base.length := by omega
  have hfit : (base ++ [32]).length ≤ 127 := by omega
  rw [toList_fullName hbase hlen, CString.chars_append_of_ne hne, CString.chars_strncpy_set,
    hsplit, List.take_append, List.take_of_length_le hfit, hroom]

/-- The full name ends inside its array. -/
private theorem zero_mem_fullName_charArray (tunerData : RegisterTunerData) :
    0 ∈ (fullName (charArray 128 base) tunerData).toList := by
  rw [toList_fullName hbase hlen]
  apply List.mem_append_right
  apply List.mem_set
  rw [CString.length_strncpy]
  omega

/-- `strncpy` reads the tuner's name, and what follows it in memory, up to a NUL. -/
private theorem readName_mem_fullNameTraced {tunerData : RegisterTunerData} {i : Nat} :
    .readName i ∈ (fullNameTraced (charArray 128 base) tunerData).1 ↔
      i + base.length < 127 ∧ i ≤ CString.strlen tunerData.memFromName := by
  unfold fullNameTraced
  rw [CString.strlenLoop_eq, strlen_charArray hbase hlen, Nat.zero_add]
  simp only
  generalize hloop : CString.strncpyLoop 0 tunerData.memFromName (128 - base.length - 1) = loop
  have hcopied : i ∈ loop.2 ↔ i + base.length < 127 ∧ i ≤ CString.strlen tunerData.memFromName := by
    rw [← hloop, CString.mem_strncpyLoop]
    omega
  have hzip : i ∈ loop.2 ↔ ∃ p ∈ loop.2.zipIdx, i = p.1 := by
    conv => lhs; rw [← List.zipIdx_map_fst 0 loop.2, List.mem_map]
    simp only [eq_comm]
  rw [← hcopied, hzip]
  simp only [List.mem_append, List.mem_map, List.mem_flatMap, List.mem_cons, List.not_mem_nil,
    reduceCtorEq, and_false, exists_false, or_false, false_or, NameAccess.readName.injEq]

/-- What else is accessed lies inside the name of the frontend. -/
private theorem inside_of_mem_fullNameTraced {tunerData : RegisterTunerData} {a : NameAccess}
    (h : a ∈ (fullNameTraced (charArray 128 base) tunerData).1) :
    a.Inside ∨ ∃ i, a = .readName i := by
  unfold fullNameTraced at h
  rw [CString.strlenLoop_eq, strlen_charArray hbase hlen, Nat.zero_add] at h
  simp only at h
  -- the accesses of the four statements, in order
  rcases List.mem_append.mp h with h | h
  · rcases List.mem_append.mp h with h | h
    · rcases List.mem_append.mp h with h | h
      · -- `strlen`
        obtain ⟨i, hi, rfl⟩ := List.mem_map.mp h
        rw [List.mem_range'_1] at hi
        left
        show i < 128
        omega
      · -- the space
        rw [List.mem_singleton] at h
        subst h
        left
        show base.length < 128
        omega
    · -- `strncpy`, one byte read and one written at each turn
      obtain ⟨⟨i, j⟩, hp, ha⟩ := List.mem_flatMap.mp h
      have hj := (List.mem_zipIdx' hp).1
      rw [CString.length_strncpyLoop_snd] at hj
      rcases List.mem_cons.mp ha with rfl | ha
      · exact .inr ⟨i, rfl⟩
      · rw [List.mem_singleton] at ha
        subst ha
        left
        show base.length + 1 + j < 128
        omega
  · -- the final NUL
    rw [List.mem_singleton] at h
    subst h
    left
    show 127 < 128
    omega

end FullName

/-- The full name is the frontend's, a blank and the tuner's, cut to 127 characters. -/
theorem chars_frontendName {tunerData : RegisterTunerData} (h : tunerData.useFullName = true) :
    CString.chars (frontendName tunerData).toList =
      (attachName tunerData.type ++ 32 :: CString.chars tunerData.memFromName).take 127 := by
  have hlen := length_attachName_le tunerData.type
  simp only [frontendName, h, if_true]
  exact chars_fullName_charArray (ne_zero_of_mem_attachName _) (by omega) _

/-- It ends inside its field. -/
theorem zero_mem_frontendName {tunerData : RegisterTunerData} (h : tunerData.useFullName = true) :
    0 ∈ (frontendName tunerData).toList := by
  have hlen := length_attachName_le tunerData.type
  simp only [frontendName, h, if_true]
  exact zero_mem_fullName_charArray (ne_zero_of_mem_attachName _) (by omega) _

/-- The accesses of a registration are those of the building of the full name, if it comes to
    that. -/
theorem mem_registerAccesses {tunerData : RegisterTunerData} {r : KernelResults}
    {a : NameAccess} :
    a ∈ registerAccesses tunerData r ↔
      (¬ EndsBeforeName r ∧ tunerData.useFullName = true) ∧
        a ∈ (fullNameTraced (charArray 128 (attachName tunerData.type)) tunerData).1 := by
  unfold registerAccesses
  split
  · rename_i hends
    exact iff_of_false List.not_mem_nil fun h => h.1.1 hends
  · rename_i hends
    split
    · rename_i hfull
      exact (and_iff_right ⟨hends, hfull⟩).symm
    · rename_i hfull
      exact iff_of_false List.not_mem_nil fun h => hfull h.1.2

/-- Which bytes of the request's name are read. -/
theorem readName_mem_registerAccesses {tunerData : RegisterTunerData} {r : KernelResults}
    {i : Nat} :
    .readName i ∈ registerAccesses tunerData r ↔
      (¬ EndsBeforeName r ∧ tunerData.useFullName = true) ∧
        i + (attachName tunerData.type).length < 127 ∧
        i ≤ CString.strlen tunerData.memFromName := by
  have hlen := length_attachName_le tunerData.type
  rw [mem_registerAccesses,
    readName_mem_fullNameTraced (ne_zero_of_mem_attachName _) (by omega)]

/-- All other accesses stay inside. -/
theorem inside_of_mem_registerAccesses {tunerData : RegisterTunerData} {r : KernelResults}
    {a : NameAccess} (h : a ∈ registerAccesses tunerData r) : a.Inside ∨ ∃ i, a = .readName i := by
  have hlen := length_attachName_le tunerData.type
  rw [mem_registerAccesses] at h
  exact inside_of_mem_fullNameTraced (ne_zero_of_mem_attachName _) (by omega) h.2

/-- A test of a result before there is a frontend. -/
private theorem fe_of_test {ret : Int} {events : List ResourceEvent} {id : Int32}
    {tunerData : RegisterTunerData} {data : DataDevices} {rest : Registered}
    (hrest : ¬ ret < 0 → rest.hdhomerun.fe = none) :
    (if ret < 0 then ⟨ret, events, ⟨id, tunerData, none⟩, data⟩ else rest).hdhomerun.fe =
      none := by
  split
  · rfl
  · exact hrest ‹_›

/-- The frontend is there, with its name, when every function up to `dvb_attach` succeeds. -/
theorem dvbHdhomerunRegister_fe (id : Int32) (tunerData : RegisterTunerData) (data : DataDevices)
    (r : KernelResults) :
    (dvbHdhomerunRegister ⟨id, tunerData, none⟩ data r).hdhomerun.fe =
      if EndsBeforeName r then none else some (frontendName tunerData) := by
  by_cases hends : EndsBeforeName r
  · rw [if_pos hends]
    unfold EndsBeforeName at hends
    -- one test of the function after the other, and none of them has gone well up to the last
    unfold dvbHdhomerunRegister
    apply fe_of_test
    intro hadapter
    apply fe_of_test
    intro hdmx
    apply fe_of_test
    intro hdmxdev
    apply fe_of_test
    intro hhw
    apply fe_of_test
    intro hmem
    apply fe_of_test
    intro hconnect
    simp only [hadapter, hdmx, hdmxdev, hhw, hmem, hconnect, false_or] at hends
    rw [hends]
    rfl
  · rw [if_neg hends]
    unfold EndsBeforeName at hends
    simp only [not_or, Bool.not_eq_false] at hends
    obtain ⟨hadapter, hdmx, hdmxdev, hhw, hmem, hconnect, hattach⟩ := hends
    simp only [dvbHdhomerunRegister, hadapter, hdmx, hdmxdev, hhw, hmem, hconnect, hattach,
      Bool.not_true, Bool.false_eq_true, if_false]
    split
    · rfl
    · rfl

end Hdhomerun

namespace TunerTable

/-- What the driver keeps of a request for a new tuner. -/
def newTunerData (t : TunerTable) (arg : RegisterTunerData) : RegisterTunerData :=
  { arg with id := Int32.ofNat t.numOfDevices }

/-- The comparisons with the names in the table stay inside. -/
theorem findTunerTraced_inside {arg : RegisterTunerData} {devs : List PlatformDevice}
    {a : NameAccess} (h : a ∈ (findTunerTraced arg devs).1) : a.Inside := by
  induction devs with
  | nil => exact absurd h List.not_mem_nil
  | cons dev devs ih =>
    cases hdrvdata : dev.drvdata with
    | none =>
      simp only [findTunerTraced, hdrvdata] at h
      exact absurd h List.not_mem_nil
    | some hdhomerun =>
      have hread : ∀ s2, a ∈ (CString.strncmpLoop 0 arg.name.toList s2 10).2.map
          NameAccess.readName → a.Inside := by
        intro s2 ha
        obtain ⟨i, hi, rfl⟩ := List.mem_map.mp ha
        have hlt := (CString.mem_strncmpLoop hi).2
        show i < 12
        omega
      simp only [findTunerTraced, hdrvdata] at h
      split at h
      · exact hread _ h
      · rcases List.mem_append.mp h with h | h
        · exact hread _ h
        · exact ih h

/-- A request that does not come to a new tuner only compares names. -/
private theorem registerHdhomerunAccesses_of_not_registers {t : TunerTable}
    {arg : RegisterTunerData} {r : KernelResults} (hpass : t.Passes arg r)
    (hreg : ¬ t.Registers arg r) :
    t.registerHdhomerunAccesses arg r = (findTunerTraced arg t.platformDevice).1 := by
  have hfound := findTunerTraced_snd arg t.platformDevice
  unfold registerHdhomerunAccesses
  generalize findTunerTraced arg t.platformDevice = traced at hfound ⊢
  obtain ⟨accesses, found⟩ := traced
  simp only
  split
  · split
    · rename_i hroom
      split
      · rfl
      rename_i hplatform
      split
      · rfl
      rename_i hprobe
      exact absurd ⟨hpass, hfound.symm, hroom, Int.not_lt.mp hplatform, by simpa using hprobe⟩ hreg
    · rfl
  · rfl

/-- What a request accesses: the names that it compares, and those of a new frontend. -/
theorem mem_controlIoctlAccesses {t : TunerTable} {arg : RegisterTunerData} {r : KernelResults}
    {a : NameAccess} :
    a ∈ t.controlIoctlAccesses arg r ↔
      t.Passes arg r ∧ (a ∈ (findTunerTraced arg t.platformDevice).1 ∨
        t.Registers arg r ∧ a ∈ Hdhomerun.registerAccesses (t.newTunerData arg) r) := by
  by_cases hpass : t.Passes arg r
  case neg =>
    -- a request that is turned away touches no name
    have hnil : t.controlIoctlAccesses arg r = [] := by
      unfold controlIoctlAccesses
      split
      · rfl
      rename_i haccess
      split
      · rfl
      rename_i hcopy
      split
      · rfl
      rename_i hinit
      exact absurd ⟨by simpa using haccess, not_not.mp hcopy, not_not.mp hinit⟩ hpass
    rw [hnil]
    exact iff_of_false List.not_mem_nil fun h => hpass h.1
  have hioctl : t.controlIoctlAccesses arg r = t.registerHdhomerunAccesses arg r := by
    simp only [controlIoctlAccesses, hpass.accessOk, hpass.copyFromUser, hpass.dataInit,
      Bool.not_true, Bool.false_eq_true, ne_eq, not_true_eq_false, if_false]
  rw [hioctl]
  by_cases hreg : t.Registers arg r
  · have hfound := (findTunerTraced_snd arg t.platformDevice).trans hreg.unknown
    simp only [registerHdhomerunAccesses, hfound, hreg.room,
      Int.not_lt.mpr hreg.platformDeviceRegisterSimple, hreg.probeKzalloc, Bool.not_true,
      Bool.false_eq_true, if_true, if_false, List.mem_append, hpass, hreg, true_and,
      newTunerData]
  · rw [registerHdhomerunAccesses_of_not_registers hpass hreg]
    simp only [hpass, hreg, true_and, false_and, or_false]

/-- The request comes to the building of a full name. -/
structure BuildsFullName (t : TunerTable) (arg : RegisterTunerData) (r : KernelResults) : Prop
    extends Registers t arg r where
  frontend : ¬ Hdhomerun.EndsBeforeName r
  useFullName : arg.useFullName = true

/-- A name ends inside its array and is that of the frontend, a space and the twelve bytes of
    the request up to a NUL, cut to fit. -/
def IsFullName (name : Vector UInt8 128) (arg : RegisterTunerData) : Prop :=
  0 ∈ name.toList ∧
    CString.chars name.toList =
      (Hdhomerun.attachName arg.type ++ 32 :: CString.chars arg.name.toList).take 127

/-- The request stays inside the name fields, and the full name is what it should be. -/
structure NamesInside (t : TunerTable) (arg : RegisterTunerData) (r : KernelResults) : Prop where
  inside : ∀ a ∈ t.controlIoctlAccesses arg r, a.Inside
  fullName : t.Registers arg r → arg.useFullName = true →
    ∀ name, (t.newRegistration arg r).hdhomerun.fe = some name → IsFullName name arg

/-- A name of twelve bytes without a NUL is read on behind its end. -/
private theorem readName_of_unterminated {t : TunerTable} {arg : RegisterTunerData}
    {r : KernelResults} (hbuild : t.BuildsFullName arg r) (hname : 0 ∉ arg.name.toList) :
    .readName 12 ∈ t.controlIoctlAccesses arg r := by
  have hlen := Hdhomerun.length_attachName_le arg.type
  have hstrlen : 12 ≤ CString.strlen (t.newTunerData arg).memFromName :=
    RegisterTunerData.le_strlen_memFromName hname
  have hroom : 12 + (Hdhomerun.attachName arg.type).length < 127 := by omega
  rw [mem_controlIoctlAccesses, Hdhomerun.readName_mem_registerAccesses]
  exact ⟨hbuild.toPasses, .inr ⟨hbuild.toRegisters,
    ⟨hbuild.frontend, hbuild.useFullName⟩, hroom, hstrlen⟩⟩

/-- A name with a NUL is read up to it. -/
private theorem inside_of_terminated {t : TunerTable} {arg : RegisterTunerData}
    {r : KernelResults} (h : t.BuildsFullName arg r → 0 ∈ arg.name.toList) {a : NameAccess}
    (ha : a ∈ t.controlIoctlAccesses arg r) : a.Inside := by
  obtain ⟨-, ha | ⟨hreg, ha⟩⟩ := mem_controlIoctlAccesses.mp ha
  · exact findTunerTraced_inside ha
  · cases Hdhomerun.inside_of_mem_registerAccesses ha with
    | inl hinside => exact hinside
    | inr hread =>
      obtain ⟨i, rfl⟩ := hread
      obtain ⟨⟨hends, hfull⟩, -, hi⟩ := Hdhomerun.readName_mem_registerAccesses.mp ha
      have hstrlen : CString.strlen (t.newTunerData arg).memFromName < 12 :=
        RegisterTunerData.strlen_memFromName_lt (h ⟨hreg, hends, hfull⟩)
      exact Nat.lt_of_le_of_lt hi hstrlen

/-- With a name that ends inside its field the registered one is the full name. -/
private theorem isFullName_of_terminated {t : TunerTable} {arg : RegisterTunerData}
    {r : KernelResults} (h : t.BuildsFullName arg r → 0 ∈ arg.name.toList)
    (hreg : t.Registers arg r) (hfull : arg.useFullName = true) {name : Vector UInt8 128}
    (hname : (t.newRegistration arg r).hdhomerun.fe = some name) : IsFullName name arg := by
  have hfe : (t.newRegistration arg r).hdhomerun.fe =
      if Hdhomerun.EndsBeforeName r then none
      else some (Hdhomerun.frontendName (t.newTunerData arg)) :=
    Hdhomerun.dvbHdhomerunRegister_fe _ _ _ _
  rw [hname] at hfe
  split at hfe
  · exact nomatch hfe
  · rename_i hends
    have hfull' : (t.newTunerData arg).useFullName = true := hfull
    have hchars : CString.chars (t.newTunerData arg).memFromName =
        CString.chars arg.name.toList :=
      RegisterTunerData.chars_memFromName (h ⟨hreg, hends, hfull⟩)
    have hfrontend := Hdhomerun.chars_frontendName hfull'
    rw [hchars] at hfrontend
    rw [Option.some.inj hfe]
    exact ⟨Hdhomerun.zero_mem_frontendName hfull', hfrontend⟩

/-- A request stays inside the name fields unless it comes to the building of a full name with
    twelve bytes none of which is NUL. -/
theorem controlIoctl_namesInside_iff (t : TunerTable) (arg : RegisterTunerData)
    (r : KernelResults) :
    t.NamesInside arg r ↔ ¬ (t.BuildsFullName arg r ∧ 0 ∉ arg.name.toList) := by
  constructor
  · rintro hinside ⟨hbuild, hname⟩
    exact absurd (hinside.inside _ (readName_of_unterminated hbuild hname)) (Nat.lt_irrefl 12)
  · intro h
    have hname : t.BuildsFullName arg r → 0 ∈ arg.name.toList := by
      intro hbuild
      by_contra hname
      exact h ⟨hbuild, hname⟩
    exact ⟨fun a ha => inside_of_terminated hname ha,
      fun hreg hfull name hfe => isFullName_of_terminated hname hreg hfull hfe⟩

/-- Whatever the name, no byte behind the struct is read. -/
theorem readName_lt_of_mem_controlIoctlAccesses {t : TunerTable} {arg : RegisterTunerData}
    {r : KernelResults} {i : Nat} (h : .readName i ∈ t.controlIoctlAccesses arg r) : i < 24 := by
  obtain ⟨-, h | ⟨hreg, h⟩⟩ := mem_controlIoctlAccesses.mp h
  · have hinside : i < 12 := findTunerTraced_inside h
    omega
  · obtain ⟨-, -, hi⟩ := Hdhomerun.readName_mem_registerAccesses.mp h
    have hid : (t.newTunerData arg).id = Int32.ofNat t.numOfDevices := rfl
    exact Nat.lt_of_le_of_lt hi (RegisterTunerData.strlen_memFromName_lt_of_id hreg.room hid)

/-- Twelve bytes that are all part of the name. -/
def unterminatedName : RegisterTunerData where
  numOfDevices := 1
  name := Vector.replicate 12 65
  padding := Vector.replicate 3 66
  id := 0
  type := 1
  useFullName := true

/-- A request with a name that does not end, on a fresh table. -/
private theorem buildsFullName_unterminatedName :
    loaded.BuildsFullName unterminatedName .allSucceed where
  accessOk := rfl
  copyFromUser := rfl
  dataInit := rfl
  unknown := rfl
  room := by decide
  platformDeviceRegisterSimple := by decide
  probeKzalloc := rfl
  frontend := by decide
  useFullName := rfl

/-- What follows the name in the struct is read, and shows in the name of the frontend. -/
theorem unterminatedName_shows_padding :
    ¬ loaded.NamesInside unterminatedName .allSucceed ∧
      .readName 12 ∈ loaded.controlIoctlAccesses unterminatedName .allSucceed ∧
      ∃ name, (loaded.newRegistration unterminatedName .allSucceed).hdhomerun.fe = some name ∧
        CString.chars name.toList = CString.ofString "HDHomeRun DVB-C AAAAAAAAAAAABBB" := by
  have hbuild := buildsFullName_unterminatedName
  have hread := readName_of_unterminated hbuild (by decide)
  have hfull : (loaded.newTunerData unterminatedName).useFullName = true := rfl
  have hchars := Hdhomerun.chars_frontendName hfull
  refine ⟨fun h => Nat.lt_irrefl 12 (h.inside _ hread), hread, _,
    (Hdhomerun.dvbHdhomerunRegister_fe _ _ _ _).trans (if_neg hbuild.frontend), ?_⟩
  exact hchars.trans (by decide)

end TunerTable

end DvbHdhomerun
