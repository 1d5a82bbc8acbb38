import DvbHdhomerun.ForStd.Bytes

/-!
# The messages of the control device

`struct dvbhdhomerun_control_mesg` as the kernel and the daemon exchange it: a block of
`sizeof` = 36 bytes (`unsigned int type`, a union of 28 bytes, `int id`, little-endian).
A message is kept as its bytes, so that whatever a sender leaves unwritten, padding and
unused union bytes included, is the previous contents of that memory.
-/

namespace DvbHdhomerun

/-- `sizeof(struct dvbhdhomerun_control_mesg)`. -/
def sizeofControlMesg : Nat := 36

/-- `hdhomerun_control_mesg_type_t`. -/
inductive ControlMesgType where
  | feReadStatus
  | feReadBer
  | feReadUncorrectedBlocks
  | feSetFrontend
  | feReadSignalStrength
  | startFeed
  | stopFeed
  | dmxSetPesFilter
  | intRegisterDevice
  deriving DecidableEq, Repr

namespace ControlMesgType

/-- The enumeration's integer values. -/
def code : ControlMesgType → Nat
  | feReadStatus => 0
  | feReadBer => 1
  | feReadUncorrectedBlocks => 2
  | feSetFrontend => 3
  | feReadSignalStrength => 4
  | startFeed => 5
  | stopFeed => 6
  | dmxSetPesFilter => 7
  | intRegisterDevice => 8

/-- The enumerator with a given value; `mesg.type` is an `unsigned int` and can hold others. -/
def ofCode : Nat → Option ControlMesgType
  | 0 => some feReadStatus
  | 1 => some feReadBer
  | 2 => some feReadUncorrectedBlocks
  | 3 => some feSetFrontend
  | 4 => some feReadSignalStrength
  | 5 => some startFeed
  | 6 => some stopFeed
  | 7 => some dmxSetPesFilter
  | 8 => some intRegisterDevice
  | _ => none

/-- Every enumerator is found by its value. -/
theorem ofCode_code (t : ControlMesgType) : ofCode t.code = some t := by
  cases t <;> rfl

/-- The values fit the four bytes of `type`. -/
theorem code_lt (t : ControlMesgType) : t.code < 256 ^ 4 := by
  cases t <;> decide

end ControlMesgType

/-- `struct dvbhdhomerun_control_mesg`, as 36 bytes of memory. -/
structure ControlMesg where
  bytes : List UInt8
  size : bytes.length = sizeofControlMesg
  deriving DecidableEq

namespace ControlMesg

/-- A message is 36 bytes long. -/
@[simp] theorem length_bytes (m : ControlMesg) : m.bytes.length = 36 := m.size

/-- A message whose memory is all zero. -/
def zero : ControlMesg := ⟨List.replicate 36 0, rfl⟩

/-- The `n` bytes at offset `off` as an unsigned number. -/
def read (m : ControlMesg) (off n : Nat) : Nat := Bytes.toNat (m.bytes.slice off n)

/-- Store the `n` low bytes of `v` at offset `off`. -/
def write (m : ControlMesg) (off n v : Nat) (h : off + n ≤ 36) : ControlMesg :=
  ⟨m.bytes.overwrite off (Bytes.ofNat n v), by
    rw [List.length_overwrite (by simpa using h)]
    exact m.size⟩

/-- What has been stored is read back, modulo the width of the field. -/
theorem read_write_self (m : ControlMesg) (off n v : Nat) (h : off + n ≤ 36) :
    (m.write off n v h).read off n = v % 256 ^ n := by
  have hlen : off + (Bytes.ofNat n v).length ≤ m.bytes.length := by
    rw [Bytes.length_ofNat, length_bytes]
    exact h
  have hself := List.slice_overwrite_self hlen
  rw [Bytes.length_ofNat] at hself
  rw [read, write, hself, Bytes.toNat_ofNat]

/-- A write does not change the bytes before the field. -/
theorem slice_write_of_le (m : ControlMesg) {off n v off' n' : Nat} (h : off + n ≤ 36)
    (hle : off' + n' ≤ off) : (m.write off n v h).bytes.slice off' n' = m.bytes.slice off' n' := by
  rw [write, List.slice_overwrite_before hle (by simp; omega)]

/-- A write does not change the bytes behind the field. -/
theorem slice_write_of_ge (m : ControlMesg) {off n v off' n' : Nat} (h : off + n ≤ 36)
    (hge : off + n ≤ off') : (m.write off n v h).bytes.slice off' n' = m.bytes.slice off' n' := by
  rw [write, List.slice_overwrite_after (by simpa using hge) (by simp; omega)]

/-- A write does not change the fields before the one written. -/
theorem read_write_of_le (m : ControlMesg) {off n v off' n' : Nat} (h : off + n ≤ 36)
    (hle : off' + n' ≤ off) : (m.write off n v h).read off' n' = m.read off' n' := by
  rw [read, slice_write_of_le m h hle, read]

/-- A write does not change the fields behind the one written. -/
theorem read_write_of_ge (m : ControlMesg) {off n v off' n' : Nat} (h : off + n ≤ 36)
    (hge : off + n ≤ off') : (m.write off n v h).read off' n' = m.read off' n' := by
  rw [read, slice_write_of_ge m h hge, read]

/-- The messages agree in all bytes but the `n` at offset `off`. -/
def SameOutside (off n : Nat) (m m' : ControlMesg) : Prop :=
  m.bytes.slice 0 off = m'.bytes.slice 0 off ∧
    m.bytes.slice (off + n) (36 - (off + n)) = m'.bytes.slice (off + n) (36 - (off + n))

/-- A write changes nothing outside its field. -/
theorem sameOutside_write (m : ControlMesg) {off n v : Nat} (h : off + n ≤ 36) :
    m.SameOutside off n (m.write off n v h) :=
  ⟨(slice_write_of_le m h (by omega)).symm, (slice_write_of_ge m h (Nat.le_refl _)).symm⟩

/-! ## The fields

`type` at offset 0, the union `u` at offset 4, `id` at offset 32. Inside the union:
`frequency` and `frontend_status` (4 bytes), `signal_strength` (2 bytes), and
`demux_feed` with `uint16_t pid` and, after two bytes of padding, `unsigned int index`. -/

/-- `mesg.type`. -/
def type (m : ControlMesg) : Nat := m.read 0 4

/-- `mesg.type = t`. -/
def setType (m : ControlMesg) (t : ControlMesgType) : ControlMesg := m.write 0 4 t.code (by decide)

/-- `mesg.id`. -/
def id (m : ControlMesg) : Int32 := (UInt32.ofNat (m.read 32 4)).toInt32

/-- `mesg.id = i`. -/
def setId (m : ControlMesg) (i : Int32) : ControlMesg :=
  m.write 32 4 i.toUInt32.toNat (by decide)

/-- `mesg.u.frequency`. -/
def frequency (m : ControlMesg) : UInt32 := UInt32.ofNat (m.read 4 4)

/-- `mesg.u.frequency = f`. -/
def setFrequency (m : ControlMesg) (f : UInt32) : ControlMesg :=
  m.write 4 4 f.toNat (by decide)

/-- `mesg.u.frontend_status`. -/
def frontendStatus (m : ControlMesg) : UInt32 := UInt32.ofNat (m.read 4 4)

/-- `mesg.u.frontend_status = s`. -/
def setFrontendStatus (m : ControlMesg) (s : UInt32) : ControlMesg :=
  m.write 4 4 s.toNat (by decide)

/-- `mesg.u.signal_strength`. -/
def signalStrength (m : ControlMesg) : Int16 := (UInt16.ofNat (m.read 4 2)).toInt16

/-- `mesg.u.signal_strength = s`. -/
def setSignalStrength (m : ControlMesg) (s : Int16) : ControlMesg :=
  m.write 4 2 s.toUInt16.toNat (by decide)

/-- `mesg.u.demux_feed.pid`. -/
def feedPid (m : ControlMesg) : UInt16 := UInt16.ofNat (m.read 4 2)

/-- `mesg.u.demux_feed = my_feed`; the two bytes of padding keep their contents. -/
def setDemuxFeed (m : ControlMesg) (pid : UInt16) (index : UInt32) : ControlMesg :=
  (m.write 4 2 pid.toNat (by decide)).write 8 4 index.toNat (by decide)

/-- The type that has been set is read back. -/
theorem type_setType (m : ControlMesg) (t : ControlMesgType) : (m.setType t).type = t.code := by
  rw [type, setType, read_write_self, Nat.mod_eq_of_lt t.code_lt]

/-- Setting the id does not change the type. -/
@[simp] theorem type_setId (m : ControlMesg) (i : Int32) : (m.setId i).type = m.type :=
  read_write_of_le m _ (by decide)

/-- Setting the frequency does not change the type. -/
@[simp] theorem type_setFrequency (m : ControlMesg) (f : UInt32) :
    (m.setFrequency f).type = m.type :=
  read_write_of_le m _ (by decide)

/-- Setting the status does not change the type. -/
@[simp] theorem type_setFrontendStatus (m : ControlMesg) (s : UInt32) :
    (m.setFrontendStatus s).type = m.type :=
  read_write_of_le m _ (by decide)

/-- Setting the signal strength does not change the type. -/
@[simp] theorem type_setSignalStrength (m : ControlMesg) (s : Int16) :
    (m.setSignalStrength s).type = m.type :=
  read_write_of_le m _ (by decide)

/-- Setting the feed does not change the type. -/
@[simp] theorem type_setDemuxFeed (m : ControlMesg) (pid : UInt16) (index : UInt32) :
    (m.setDemuxFeed pid index).type = m.type :=
  (read_write_of_le _ _ (by decide)).trans (read_write_of_le m _ (by decide))

/-- The id that has been set is read back, whatever its sign. -/
@[simp] theorem id_setId (m : ControlMesg) (i : Int32) : (m.setId i).id = i := by
  have hlt : i.toUInt32.toNat < 256 ^ 4 := Nat.lt_of_lt_of_le (UInt32.toNat_lt _) (by decide)
  rw [id, setId, read_write_self, Nat.mod_eq_of_lt hlt, UInt32.ofNat_toNat,
    Int32.toInt32_toUInt32]

/-- Setting the frequency does not change the id. -/
@[simp] theorem id_setFrequency (m : ControlMesg) (f : UInt32) : (m.setFrequency f).id = m.id := by
  rw [id, setFrequency, read_write_of_ge _ _ (by decide), id]

/-- Setting the status does not change the id. -/
@[simp] theorem id_setFrontendStatus (m : ControlMesg) (s : UInt32) :
    (m.setFrontendStatus s).id = m.id := by
  rw [id, setFrontendStatus, read_write_of_ge _ _ (by decide), id]

/-- Setting the signal strength does not change the id. -/
@[simp] theorem id_setSignalStrength (m : ControlMesg) (s : Int16) :
    (m.setSignalStrength s).id = m.id := by
  rw [id, setSignalStrength, read_write_of_ge _ _ (by decide), id]

/-- Setting the feed does not change the id. -/
@[simp] theorem id_setDemuxFeed (m : ControlMesg) (pid : UInt16) (index : UInt32) :
    (m.setDemuxFeed pid index).id = m.id := by
  rw [id, setDemuxFeed, read_write_of_ge _ _ (by decide), read_write_of_ge _ _ (by decide), id]

/-- The PID of the feed that has been set is read back. -/
@[simp] theorem feedPid_setDemuxFeed (m : ControlMesg) (pid : UInt16) (index : UInt32) :
    (m.setDemuxFeed pid index).feedPid = pid := by
  have hlt : pid.toNat < 256 ^ 2 := Nat.lt_of_lt_of_le (UInt16.toNat_lt _) (by decide)
  rw [feedPid, setDemuxFeed, read_write_of_le _ _ (by decide), read_write_self,
    Nat.mod_eq_of_lt hlt, UInt16.ofNat_toNat]

/-- The status that has been set is read back. -/
@[simp] theorem frontendStatus_setFrontendStatus (m : ControlMesg) (s : UInt32) :
    (m.setFrontendStatus s).frontendStatus = s := by
  have hlt : s.toNat < 256 ^ 4 := Nat.lt_of_lt_of_le (UInt32.toNat_lt _) (by decide)
  rw [frontendStatus, setFrontendStatus, read_write_self, Nat.mod_eq_of_lt hlt, UInt32.ofNat_toNat]

/-- The signal strength that has been set is read back. -/
@[simp] theorem signalStrength_setSignalStrength (m : ControlMesg) (s : Int16) :
    (m.setSignalStrength s).signalStrength = s := by
  have hlt : s.toUInt16.toNat < 256 ^ 2 := Nat.lt_of_lt_of_le (UInt16.toNat_lt _) (by decide)
  rw [signalStrength, setSignalStrength, read_write_self, Nat.mod_eq_of_lt hlt, UInt16.ofNat_toNat,
    Int16.toInt16_toUInt16]

end ControlMesg

end DvbHdhomerun
