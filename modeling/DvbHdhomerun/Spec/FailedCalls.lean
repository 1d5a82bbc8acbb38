import DvbHdhomerun.ForStd.List
import DvbHdhomerun.Kernel.ControlDevice
import DvbHdhomerun.Spec.PagedWrite

/-!
# Failed reads and writes of the control device

A call that returns an error should not have changed a FIFO, and no call should keep its
temporary buffer. A read whose copy to user space fails has taken its bytes for good, and a
write that leaves its wait loop with an error keeps the buffer:
`controlCall_leavesNothing_iff`. The calls that do not fail: `controlRead_delivers` and
`controlWrite_appends`. Their get and put are those of the control channel:
`readRequest_readOut` and `putReply_writeIn`.
-/

namespace DvbHdhomerun

/-! ## The wait loops -/

namespace Round

/-- The turn ends with a wake-up, and the loop goes on. -/
def Waits (blocked : ByteFifo → Bool) (nonblock : Bool) (round : Round) : Prop :=
  blocked round.fifo = true ∧ nonblock = false ∧ round.interrupted = false

/-- The FIFO lets the call pass. -/
def Passes (blocked : ByteFifo → Bool) (round : Round) : Prop := blocked round.fifo = false

/-- The call may not wait for the FIFO, or a signal ends the wait. -/
def GivesUp (blocked : ByteFifo → Bool) (nonblock : Bool) (round : Round) : Prop :=
  blocked round.fifo = true ∧ (nonblock = true ∨ round.interrupted = true)

end Round

section WaitLoop

variable {blocked : ByteFifo → Bool} {nonblock : Bool} {rounds : List Round}

/-- The loop is left when a round passes after rounds that wait. -/
theorem waitLoop_eq_ok_iff {u : Unit} :
    waitLoop blocked nonblock rounds = some (.ok u) ↔
      rounds.Until (Round.Waits blocked nonblock) (Round.Passes blocked) := by
  induction rounds with
  | nil => exact iff_of_false (fun h => nomatch h) List.not_until_nil
  | cons round rounds ih =>
    rw [List.until_cons, ← ih, waitLoop]
    unfold Round.Waits Round.Passes
    cases blocked round.fifo <;> cases nonblock <;> cases round.interrupted <;> simp

/-- The loop fails when a round gives up after rounds that wait. -/
theorem exists_waitLoop_error_iff :
    (∃ e, waitLoop blocked nonblock rounds = some (.error e)) ↔
      rounds.Until (Round.Waits blocked nonblock) (Round.GivesUp blocked nonblock) := by
  induction rounds with
  | nil => exact iff_of_false (fun ⟨_, h⟩ => nomatch h) List.not_until_nil
  | cons round rounds ih =>
    rw [List.until_cons, ← ih, waitLoop]
    unfold Round.Waits Round.GivesUp
    cases blocked round.fifo <;> cases nonblock <;> cases round.interrupted <;> simp

/-- What a call returns from inside a loop is an error. -/
theorem waitLoop_error_neg {e : Int} (h : waitLoop blocked nonblock rounds = some (.error e)) :
    e < 0 := by
  induction rounds with
  | nil => exact nomatch h
  | cons round rounds ih =>
    rw [waitLoop] at h
    split at h
    · split at h
      · cases h
        decide
      · split at h
        · cases h
          decide
        · exact ih h
    · exact nomatch h

end WaitLoop

/-! ## Reads -/

/-- A failed call has not changed the FIFOs, and no call keeps its buffer or frees it twice. -/
structure LeavesNothing (before : ControlFifos) (r : Returned) : Prop where
  fifos_eq : r.ret < 0 → r.fifos = before
  freed : r.userData = [] ∨ r.userData = [.kmalloc, .kfree]

/-- A return before the buffer is allocated. -/
theorem leavesNothing_early (ret : Int) (fifos : ControlFifos) :
    LeavesNothing fifos (.early ret fifos []) := ⟨fun _ => rfl, .inl rfl⟩

/-- The read comes to its get. -/
structure ReachesGet (c : ReadCall) : Prop where
  buf_ne : c.buf ≠ none
  count_ne : c.count ≠ 0
  passes : c.rounds.Until (Round.Waits noRequest c.nonblock) (Round.Passes noRequest)
  kmalloc : c.kmalloc = true

/-- The read comes to its get, and not all the bytes it takes can be written to `buf`. -/
structure LosesRequest (c : ReadCall) : Prop extends ReachesGet c where
  faults : ∃ writable, c.buf = some writable ∧
    writable < min c.count.toUInt32.toNat c.fifos.user.len

/-- A read that does not come to its get returns 0 or an error. -/
theorem controlRead_cases {c : ReadCall} {r : Returned} (h : hdhomerunControlRead c = some r) :
    (¬ ReachesGet c ∧ ∃ ret, ret ≤ 0 ∧ r = .early ret c.fifos []) ∨
      (ReachesGet c ∧ ∃ writable, c.buf = some writable ∧ r = readOut c writable) := by
  unfold hdhomerunControlRead at h
  split at h
  · rename_i hbuf
    cases h
    exact .inl ⟨fun hget => hget.buf_ne hbuf, -EINVAL, by decide, rfl⟩
  · rename_i writable hbuf
    split at h
    · rename_i hcount
      cases h
      exact .inl ⟨fun hget => hget.count_ne hcount, 0, Int.le_refl 0, rfl⟩
    · rename_i hcount
      split at h
      · exact nomatch h
      · -- it leaves the loop with an error
        rename_i e hloop
        cases h
        refine .inl ⟨fun hget => ?_, e, Int.le_of_lt (waitLoop_error_neg hloop), rfl⟩
        -- it would have to pass the loop to reach the get
        have hok := waitLoop_eq_ok_iff (u := ()).mpr hget.passes
        rw [hloop] at hok
        exact nomatch hok
      · rename_i u hloop
        split at h
        · rename_i hkmalloc
          cases h
          have hne : c.buf ≠ none := by
            rw [hbuf]
            exact Option.some_ne_none writable
          exact .inr ⟨⟨hne, hcount, waitLoop_eq_ok_iff.mp hloop, hkmalloc⟩, writable, hbuf, rfl⟩
        · rename_i hkmalloc
          cases h
          exact .inl ⟨fun hget => hkmalloc hget.kmalloc, -ENOMEM, by decide, rfl⟩

/-- A get that changes nothing takes nothing. -/
private theorem get_eq_self_iff {fifo : ByteFifo} {n : Nat} :
    (fifo.get n).2 = fifo ↔ min n fifo.len = 0 := by
  constructor
  · intro h
    have hlen := congrArg Fifo.len h
    simp only [Fifo.len, Fifo.get_data, List.length_drop] at hlen
    simp only [Fifo.len]
    omega
  · intro h
    apply Fifo.ext
    rw [Fifo.get_data]
    simp only [Fifo.len] at h
    rcases Nat.min_eq_zero_iff.mp h with hn | hlen
    · rw [hn, List.drop_zero]
    · rw [List.length_eq_zero_iff.mp hlen, List.drop_nil]

/-- A get returns what is asked for or what is there. -/
private theorem length_items (c : ReadCall) :
    (c.fifos.user.get c.count.toUInt32.toNat).1.length =
      min c.count.toUInt32.toNat c.fifos.user.len := by
  rw [Fifo.get_items, List.length_take, Fifo.len]

/-- What `copy_to_user` could not write makes the read fail. -/
private theorem readOut_ret (c : ReadCall) (writable : Nat) :
    (readOut c writable).ret =
      if (c.fifos.user.get c.count.toUInt32.toNat).1.length - writable ≠ 0 then -EFAULT
      else ((c.fifos.user.get c.count.toUInt32.toNat).1.length : Int) := rfl

/-- The call past its get fails exactly if it cannot write all it has taken. -/
private theorem readOut_ret_neg_iff (c : ReadCall) (writable : Nat) :
    (readOut c writable).ret < 0 ↔ writable < min c.count.toUInt32.toNat c.fifos.user.len := by
  rw [readOut_ret, length_items]
  split
  · exact iff_of_true (by decide) (by omega)
  · exact iff_of_false (by omega) (by omega)

/-- A read that fails has taken bytes that are lost. -/
private theorem readOut_leavesNothing_iff (c : ReadCall) (writable : Nat) :
    LeavesNothing c.fifos (readOut c writable) ↔
      ¬ writable < min c.count.toUInt32.toNat c.fifos.user.len := by
  constructor
  · intro h hlt
    -- the failed call has taken at least one byte
    have heq := congrArg ControlFifos.user (h.fifos_eq ((readOut_ret_neg_iff c writable).mpr hlt))
    have hzero := get_eq_self_iff.mp heq
    omega
  · intro h
    exact ⟨fun hneg => absurd ((readOut_ret_neg_iff c writable).mp hneg) h, .inr rfl⟩

/-- All that is taken arrives when all of it can be written. -/
private theorem readOut_delivers {c : ReadCall} {writable : Nat}
    (h : ¬ writable < min c.count.toUInt32.toNat c.fifos.user.len) :
    (readOut c writable).delivered = (c.fifos.user.get c.count.toUInt32.toNat).1 ∧
      (readOut c writable).ret = (c.fifos.user.get c.count.toUInt32.toNat).1.length := by
  rw [← length_items] at h
  constructor
  · exact List.take_of_length_le (Nat.not_lt.mp h)
  · rw [readOut_ret, if_neg]
    omega

/-- A read leaves nothing behind unless its copy to user space fails. -/
theorem controlRead_leavesNothing_iff {c : ReadCall} {r : Returned}
    (h : hdhomerunControlRead c = some r) : LeavesNothing c.fifos r ↔ ¬ LosesRequest c := by
  -- only a read that comes to its get can lose anything
  rcases controlRead_cases h with ⟨hearly, ret, -, rfl⟩ | ⟨hget, writable, hbuf, rfl⟩
  · exact iff_of_true (leavesNothing_early ret c.fifos) fun hloses => hearly hloses.toReachesGet
  · rw [readOut_leavesNothing_iff, not_iff_not]
    constructor
    · intro hlt
      exact ⟨hget, writable, hbuf, hlt⟩
    · intro hloses
      obtain ⟨writable', hsome, hlt⟩ := hloses.faults
      rw [hbuf] at hsome
      cases hsome
      exact hlt

/-- A read that returns no error has handed over what it took, as many bytes as it says. -/
theorem controlRead_delivers {c : ReadCall} {r : Returned} (h : hdhomerunControlRead c = some r)
    (hret : 0 ≤ r.ret) :
    c.fifos.user.data = r.delivered ++ r.fifos.user.data ∧ r.ret = r.delivered.length ∧
      r.fifos.kernel = c.fifos.kernel := by
  rcases controlRead_cases h with ⟨-, ret, hle, rfl⟩ | ⟨-, writable, -, rfl⟩
  · -- only the read of 0 bytes
    have hzero : ret = 0 := Int.le_antisymm hle hret
    rw [hzero]
    exact ⟨rfl, rfl, rfl⟩
  · have hall := mt (readOut_ret_neg_iff c writable).mpr (Int.not_lt.mpr hret)
    obtain ⟨hdelivered, hlen⟩ := readOut_delivers hall
    refine ⟨?_, by rw [hlen, hdelivered], rfl⟩
    rw [hdelivered]
    exact (List.take_append_drop _ _).symm

/-! ## Writes -/

/-- The write has its bytes in a buffer when it gives up waiting for room. -/
structure LeaksBuffer (c : WriteCall) : Prop where
  kmalloc : c.kmalloc = true
  readable : ∀ i : Nat, i < c.count.toNat → c.buf i ≠ none
  waitForWrite : c.waitForWrite = true
  givesUp : c.rounds.Until (Round.Waits noRoom c.nonblock) (Round.GivesUp noRoom c.nonblock)

/-- A write that gives up keeps its buffer. Every other has freed it if there was one, and
    ends with an error, or behind its put, or is ignored. -/
theorem controlWrite_cases {c : WriteCall} {r : Returned} (h : hdhomerunControlWrite c = some r) :
    (LeaksBuffer c ∧ ∃ e, e < 0 ∧ r = .early e c.fifos [.kmalloc]) ∨
      (¬ LeaksBuffer c ∧ (r.userData = [] ∨ r.userData = [.kmalloc, .kfree]) ∧
        ((r.ret < 0 ∧ r.fifos = c.fifos) ∨
          (∃ bytes, copyFromUser c.buf 0 c.count.toNat = some bytes ∧ r = writeIn c bytes) ∨
          (c.waitForWrite = false ∧ r.fifos = c.fifos))) := by
  unfold hdhomerunControlWrite at h
  split at h
  · -- no memory: `kfree(NULL)`
    rename_i hkmalloc
    cases h
    refine .inr ⟨fun hleaks => ?_, .inl rfl, .inl ⟨?_, rfl⟩⟩
    · rw [hleaks.kmalloc] at hkmalloc
      exact absurd hkmalloc (by decide)
    · show -ENOMEM < 0
      decide
  · rename_i hkmalloc
    split at h
    · -- a bad address: by `goto error` to the `kfree`
      rename_i hcopy
      cases h
      refine .inr ⟨fun hleaks => ?_, .inr rfl, .inl ⟨?_, rfl⟩⟩
      · obtain ⟨i, hi, hnone⟩ := copyFromUser_eq_none_iff.mp hcopy
        rw [Int.zero_add] at hnone
        exact hleaks.readable i hi hnone
      · show -EFAULT < 0
        decide
    · rename_i userData hcopy
      split at h
      · rename_i hwait
        split at h
        · exact nomatch h
        · -- the return from inside the loop
          rename_i e hloop
          cases h
          refine .inl ⟨⟨by simpa using hkmalloc, fun i hi hnone => ?_, hwait, ?_⟩, e,
            waitLoop_error_neg hloop, rfl⟩
          · have hfault : copyFromUser c.buf 0 c.count.toNat = none := by
              refine copyFromUser_eq_none_iff.mpr ⟨i, hi, ?_⟩
              rw [Int.zero_add, hnone]
            rw [hcopy] at hfault
            exact nomatch hfault
          · exact exists_waitLoop_error_iff.mp ⟨e, hloop⟩
        · rename_i u hloop
          cases h
          refine .inr ⟨fun hleaks => ?_, .inr rfl, .inr (.inl ⟨userData, hcopy, rfl⟩)⟩
          -- a write that gives up does not leave the loop by its test
          obtain ⟨e, herror⟩ := exists_waitLoop_error_iff.mpr hleaks.givesUp
          rw [hloop] at herror
          exact nomatch herror
      · rename_i hwait
        cases h
        exact .inr ⟨fun hleaks => hwait hleaks.waitForWrite, .inr rfl,
          .inr (.inr ⟨Bool.eq_false_of_not_eq_true hwait, rfl⟩)⟩

/-- A put returns no error. -/
private theorem writeIn_ret_nonneg (c : WriteCall) (bytes : List UInt8) :
    0 ≤ (writeIn c bytes).ret := Int.natCast_nonneg _

/-- A write leaves nothing behind unless it gives up waiting. -/
theorem controlWrite_leavesNothing_iff {c : WriteCall} {r : Returned}
    (h : hdhomerunControlWrite c = some r) : LeavesNothing c.fifos r ↔ ¬ LeaksBuffer c := by
  rcases controlWrite_cases h with ⟨hleaks, e, -, rfl⟩ | ⟨hleaks, hfreed, hends⟩
  · -- the buffer was allocated and has not been freed
    refine iff_of_false (fun hleaves => ?_) fun hnot => hnot hleaks
    rcases hleaves.freed with hnil | hboth
    · exact nomatch hnil
    · exact nomatch hboth
  · refine iff_of_true ⟨fun hneg => ?_, hfreed⟩ hleaks
    rcases hends with ⟨-, hfifos⟩ | ⟨bytes, -, rfl⟩ | ⟨-, hfifos⟩
    · exact hfifos
    · exact absurd hneg (Int.not_lt.mpr (writeIn_ret_nonneg c bytes))
    · exact hfifos

/-- A write that passes its wait loop appends as many of its bytes as it says. -/
theorem controlWrite_appends {c : WriteCall} {r : Returned}
    (h : hdhomerunControlWrite c = some r) (hwait : c.waitForWrite = true) (hret : 0 ≤ r.ret) :
    ∃ bytes, copyFromUser c.buf 0 c.count.toNat = some bytes ∧
      r.fifos.kernel.data = c.fifos.kernel.data ++ bytes.take r.ret.toNat ∧
      r.fifos.user = c.fifos.user := by
  rcases controlWrite_cases h with ⟨-, e, hneg, rfl⟩ | ⟨-, -, hends⟩
  · exact absurd hneg (Int.not_lt.mpr hret)
  · rcases hends with ⟨hneg, -⟩ | ⟨bytes, hcopy, rfl⟩ | ⟨hignored, -⟩
    · exact absurd hneg (Int.not_lt.mpr hret)
    · refine ⟨bytes, hcopy, ?_, rfl⟩
      simp only [writeIn, Fifo.put_count, Fifo.put_data, Int.toNat_natCast]
      -- the put takes a prefix of the prefix that an `unsigned int` can count
      rw [List.take_eq_take_min, List.take_take, Nat.min_comm, List.length_take]
      congr 2
      omega
    · rw [hwait] at hignored
      exact nomatch hignored

/-! ## The calls in the channel -/

/-- The daemon's read in the channel does to the FIFO what a call of `hdhomerun_control_read`
    for one message does. -/
theorem readRequest_readOut (s : State) (stale : ControlMesg) {c : ReadCall} (writable : Nat)
    (hcount : c.count = 36) (hfifo : c.fifos.user = ControlFifo.bytes s.controlFifoUser) :
    ControlFifo.bytes (s.readRequest stale).controlFifoUser = (readOut c writable).fifos.user := by
  have hget : (s.readRequest stale).controlFifoUser =
      (s.controlFifoUser.get sizeofControlMesg).2 := by
    unfold State.readRequest
    simp only
    split <;> rfl
  have hcount' : c.count.toUInt32.toNat = sizeofControlMesg := by
    rw [hcount]
    rfl
  show _ = (c.fifos.user.get c.count.toUInt32.toNat).2
  rw [hget, hfifo, hcount']
  exact (s.controlFifoUser.map_get Prod.snd sizeofControlMesg).2

/-- The put of a reply in the channel is the one of a call of `hdhomerun_control_write` with
    what is left of the reply, and the return value is how much of it has gone. -/
theorem putReply_writeIn (s : State) (w : Writing) {c : WriteCall}
    (hcount : c.count.toUInt32.toNat = w.rest.length)
    (hfifo : c.fifos.kernel = ControlFifo.bytes s.controlFifoKernel) :
    ControlFifo.bytes (s.putReply w).controlFifoKernel = (writeIn c w.rest).fifos.kernel ∧
      (s.putReply w).daemon.pc =
        .writeWake { w with rest := w.rest.drop (writeIn c w.rest).ret.toNat } := by
  obtain ⟨hcopied, hkernel⟩ :=
    s.controlFifoKernel.map_put Prod.snd (tagged w.ticket w.rest)
  rw [map_snd_tagged] at hcopied hkernel
  have hwrite : writeIn c w.rest =
      ⟨((ControlFifo.bytes s.controlFifoKernel).put w.rest).1,
        { c.fifos with kernel := ((ControlFifo.bytes s.controlFifoKernel).put w.rest).2 },
        .kmalloc :: kfree true, [], true⟩ := by
    simp only [writeIn, hcount, List.take_length, hfifo]
  have hrest : w.rest.drop (s.controlFifoKernel.put (tagged w.ticket w.rest)).1 =
      w.rest.drop (writeIn c w.rest).ret.toNat := by
    rw [hcopied, hwrite]
    rfl
  constructor
  · rw [hwrite]
    exact hkernel
  · exact congrArg (fun rest => DaemonPc.writeWake { w with rest }) hrest

/-! ## Both -/

/-- The call neither loses a request nor leaks its buffer. -/
def ControlCall.Harmless : ControlCall → Prop
  | read c => ¬ LosesRequest c
  | write c => ¬ LeaksBuffer c

/-- A call leaves the FIFOs as they were when it fails, and its buffer freed exactly once,
    if and only if it is neither a read that takes more than can be written to `buf` nor a
    write that gives up waiting with its bytes in the buffer. -/
theorem controlCall_leavesNothing_iff {c : ControlCall} {r : Returned} (h : c.exec = some r) :
    LeavesNothing c.fifos r ↔ c.Harmless := by
  cases c with
  | read c => exact controlRead_leavesNothing_iff h
  | write c => exact controlWrite_leavesNothing_iff h

/-- One request, and no reply. -/
private def requestFifos : ControlFifos := ⟨⟨ControlMesg.zero.bytes, by decide⟩, .empty⟩

/-- A read of one request into a good buffer. -/
theorem controlCall_leavesNothing_request :
    LeavesNothing requestFifos
      ⟨36, ⟨.empty, .empty⟩, [.kmalloc, .kfree], ControlMesg.zero.bytes, false⟩ := by
  let c : ReadCall := ⟨true, some 36, 36, [⟨requestFifos.user, false⟩], true, requestFifos⟩
  have hexec : (ControlCall.read c).exec =
      some ⟨36, ⟨.empty, .empty⟩, [.kmalloc, .kfree], ControlMesg.zero.bytes, false⟩ := by
    rfl
  refine (controlCall_leavesNothing_iff hexec).mpr fun hloses => ?_
  obtain ⟨writable, hsome, hlt⟩ := hloses.faults
  cases hsome
  exact absurd hlt (by decide)

/-- A read of one request to an address that cannot be written returns `-EFAULT` and empties
    the FIFO; a non-blocking write of one reply into a full FIFO returns `-EAGAIN` and does
    not free its buffer. -/
theorem read_loses_write_leaks :
    (¬ ∀ c r, hdhomerunControlRead c = some r → r.ret < 0 → r.fifos = c.fifos) ∧
      ¬ ∀ c r, hdhomerunControlWrite c = some r →
        r.userData = [] ∨ r.userData = [.kmalloc, .kfree] := by
  constructor
  · intro hall
    let c : ReadCall := ⟨true, some 0, 36, [⟨requestFifos.user, false⟩], true, requestFifos⟩
    have hexec : hdhomerunControlRead c =
        some ⟨-14, ⟨.empty, .empty⟩, [.kmalloc, .kfree], [], false⟩ := by
      rfl
    have hsame := congrArg (fun fifos => fifos.user.data.length) (hall c _ hexec (by decide))
    exact absurd hsame (by decide)
  · intro hall
    let full : ByteFifo := ⟨List.replicate controlBufsize 0, by rw [List.length_replicate]⟩
    have hfull : noRoom full = true := by
      rw [noRoom, Fifo.len, List.length_replicate, beq_self_eq_true]
    let c : WriteCall :=
      ⟨true, fun _ => some 0, 36, true, true, [⟨full, false⟩], ⟨.empty, full⟩⟩
    have hloop : waitLoop noRoom c.nonblock c.rounds = some (.error (-EAGAIN)) := by
      show waitLoop noRoom true [⟨full, false⟩] = _
      rw [waitLoop, if_pos hfull, if_pos rfl]
    have hexec : hdhomerunControlWrite c = some (.early (-EAGAIN) ⟨.empty, full⟩ [.kmalloc]) := by
      unfold hdhomerunControlWrite
      rw [hloop]
      rfl
    exact absurd (hall c _ hexec) (by decide)

end DvbHdhomerun
