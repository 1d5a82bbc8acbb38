import DvbHdhomerun.Spec.PagedWrite
import DvbHdhomerun.Spec.StreamThread
import DvbHdhomerun.User.DataStream

/-!
# From the network to the demux

The bytes a tuner receives pass the buffer of an `ofstream`, the `write` calls it makes of
them and the page of the data device. `stream_in_order`: as long as the caller never takes a
thread that has not begun for one that has ended, they reach the demux in the order in which
they were received, each once. `late_thread_mixes`: otherwise two threads share the page.
-/

namespace DvbHdhomerun

/-! ## One write -/

namespace DataWrite

variable {p : PageSize} {w : DataWrite} {k : Nat}

/-- The count of the call is the number of the bytes. -/
theorem count_userBuffer (w : DataWrite) : w.userBuffer.count.toNat = w.bytes.length := by
  have hle : w.bytes.length ≤ 0x7fffffff := w.length_le
  show w.bytes.length.toUInt64.toNat = w.bytes.length
  rw [Nat.toUInt64, UInt64.toNat_ofNat', Nat.mod_eq_of_lt (by omega)]

/-- A copy from inside the bytes is the bytes there. -/
theorem read_userBuffer (w : DataWrite) {n : Nat} (h : k + n ≤ w.bytes.length) :
    w.userBuffer.read k n = some ((w.bytes.drop k).take n) := by
  rw [UserBuffer.read]
  induction n generalizing k with
  | zero => rw [copyFromUser, List.take_zero]
  | succ n ih =>
    have hk : k < w.bytes.length := by omega
    have hmem : w.userBuffer.mem k = some w.bytes[k] := by
      simp [userBuffer, hk]
    have hnext : ((k : Int) + 1) = (k + 1 : Nat) := by omega
    rw [copyFromUser, hmem, Option.bind_some, hnext, ih (by omega), Option.map_some,
      List.drop_eq_getElem_cons hk, List.take_succ_cons]

/-- What has not been fed. -/
def rest (w : DataWrite) : List UInt8 := w.bytes.drop w.copied.toInt.toNat

/-- `k` bytes have been fed, and a turn that has begun copies what the code says. -/
structure At (p : PageSize) (w : DataWrite) (k : Nat) : Prop where
  copied : w.copied.toInt = k
  le : k ≤ w.bytes.length
  turn : ∀ n, w.turn = some n → k < w.bytes.length ∧ n = toCopy p w.userBuffer w.copied

/-- What is left to feed of a write that is at `k`. -/
theorem At.rest_eq (h : w.At p k) : w.rest = w.bytes.drop k := by
  rw [rest, h.copied, Int.toNat_natCast]

/-- The test of the loop. -/
theorem At.lt_iff (h : w.At p k) :
    CInt.toSize w.copied < w.userBuffer.count ↔ k < w.bytes.length := by
  have hcopied := h.copied
  have hcast := CInt.toNat_toSize (i := w.copied) (by omega)
  rw [UInt64.lt_iff_toNat_lt, count_userBuffer]
  omega

/-- The length of the piece, and where it ends. -/
theorem At.piece (h : w.At p k) (hlt : k < w.bytes.length) :
    ∃ m : Nat, (CInt.toSize (toCopy p w.userBuffer w.copied)).toNat = m ∧
      (w.copied + toCopy p w.userBuffer w.copied).toInt = (k + m : Nat) ∧
      k + m ≤ w.bytes.length := by
  have hcount := w.count_userBuffer
  have hlt' : k < w.userBuffer.count.toNat := by omega
  obtain ⟨-, hsize, hsum⟩ := toCopy_spec p h.copied hlt'
  exact ⟨_, hsize, hsum, by omega⟩

end DataWrite

/-! ## One stream -/

namespace ThreadStream

/-- What the stream has taken from its thread and the device has not fed. -/
def unfed (k : ThreadStream) : List UInt8 :=
  (k.write.map DataWrite.rest).getD [] ++ k.ofs.buffer

end ThreadStream

/-- Between the opening of the data device and the end of `ofs.close()`. -/
def ThreadPc.streaming : ThreadPc → Bool
  | testStream | testStop | body | closing => true
  | _ => false

/-- The ways of a thread from one statement to the next. -/
inductive ThreadPc.Next : ThreadPc → ThreadPc → Prop where
  | begun : Next .created .opening
  | opened : Next .opening .testStream
  | streaming : Next .testStream .testStop
  | stopped : Next .testStream .closing
  | goesOn : Next .testStop .body
  | halted : Next .testStop .closing
  | turned : Next .body .testStream
  | closed : Next .closing .leaving
  | ended : Next .leaving .finished

/-- A thread's step is one of `ThreadPc.Next` and moves no other thread. -/
theorem TunerThreads.threadStep_next {s s' : TunerThreads} {i : Nat}
    (hs : s.threadStep i = some s') : ∃ pc pc', s.threads[i]? = some pc ∧ pc.Next pc' ∧
      s'.threads = s.threads.set i pc' := by
  unfold TunerThreads.threadStep at hs
  split at hs <;> rename_i hi <;> cases hs
  · exact ⟨_, _, hi, .begun, rfl⟩
  · exact ⟨_, _, hi, .opened, rfl⟩
  · refine ⟨_, _, hi, ?_, rfl⟩
    split
    · exact .streaming
    · exact .stopped
  · refine ⟨_, _, hi, ?_, rfl⟩
    split
    · exact .goesOn
    · exact .halted
  · exact ⟨_, _, hi, .turned, rfl⟩
  · exact ⟨_, _, hi, .closed, rfl⟩
  · exact ⟨_, _, hi, .ended, rfl⟩

/-- Any other step leaves the threads alone or creates one. -/
theorem TunerThreads.step_threads {s s' : TunerThreads} {a : TunerThreads.Action}
    (hs : s.step a = some s') (ha : ∀ i, a ≠ .thread i) :
    s'.threads = s.threads ∨ s'.threads = s.threads ++ [.created] := by
  -- only `createThread` of the caller adds a thread
  cases a with
  | startStreaming pid d =>
    simp only [TunerThreads.step] at hs
    split at hs <;> cases hs
    exact .inl rfl
  | stopStreaming pid =>
    simp only [TunerThreads.step] at hs
    split at hs <;> cases hs
    unfold TunerThreads.enterStop
    simp only
    split <;> exact .inl rfl
  | stop =>
    simp only [TunerThreads.step] at hs
    split at hs <;> cases hs
    exact .inl rfl
  | caller created =>
    simp only [TunerThreads.step, TunerThreads.callerStep] at hs
    split at hs
    · cases hs
    · split at hs <;> cases hs <;> exact .inl rfl
    · cases hs
      exact .inl rfl
    · cases hs
      cases created with
      | true => exact .inr rfl
      | false => exact .inl rfl
    · split at hs <;> cases hs <;> exact .inl rfl
    · cases hs
      exact .inl rfl
    · split at hs <;> cases hs <;> exact .inl rfl
    · cases hs
      exact .inl rfl
    · split at hs <;> cases hs <;> exact .inl rfl
  | thread i => exact absurd rfl (ha i)

/-- The stream of a thread at `pc`. -/
structure StreamOk (p : PageSize) (cap : Nat) (pc : ThreadPc) (k : ThreadStream) : Prop where
  fresh : pc = .created ∨ pc = .opening → k = .init
  opened : pc.streaming = true → k.ofs.isOpen = true ∧ k.ofs.fail = false
  /-- only inside `ofs.write` and `ofs.close()` is there more than the buffer holds -/
  quiet : pc ≠ .closing → (pc = .body → k.received = false) →
    k.write = none ∧ k.ofs.buffer.length ≤ cap
  unread : pc ≠ .body → k.received = false
  emptied : pc = .leaving ∨ pc = .finished → k.ofs.buffer = []
  write : ∀ w, k.write = some w → ∃ n, w.At p n

namespace StreamOk

variable {p : PageSize} {cap : Nat} {pc pc' : ThreadPc} {k k' : ThreadStream}

/-- A thread that has only been created. -/
theorem init : StreamOk p cap .created .init where
  fresh := fun _ => rfl
  opened := fun h => absurd h (by decide)
  quiet := fun _ _ => ⟨rfl, Nat.zero_le cap⟩
  unread := fun _ => rfl
  emptied := fun _ => rfl
  write := fun _ h => absurd h (by simp [ThreadStream.init])

/-- A write is in progress only where the stream makes one. -/
theorem writing (h : StreamOk p cap pc k) {w : DataWrite} (hw : k.write = some w) :
    pc = .body ∧ k.received = true ∨ pc = .closing := by
  by_contra hnot
  have hquiet := h.quiet (fun hpc => hnot (.inr hpc)) fun hpc => by
    by_contra hreceived
    exact hnot (.inl ⟨hpc, by simpa using hreceived⟩)
  rw [hw] at hquiet
  exact absurd hquiet.1 (by simp)

/-- A change inside `ofs.write` or `ofs.close()`. -/
theorem inside (h : StreamOk p cap pc k) (hpc : pc = .body ∧ k'.received = true ∨ pc = .closing)
    (hopen : k'.ofs.isOpen = k.ofs.isOpen) (hfail : k'.ofs.fail = k.ofs.fail)
    (hreceived : pc = .closing → k'.received = k.received)
    (hwrite : ∀ w, k'.write = some w → ∃ n, w.At p n) : StreamOk p cap pc k' := by
  rcases hpc with ⟨rfl, hgot⟩ | rfl
  · refine ⟨by simp, fun hs => ?_, fun _ hnot => ?_, by simp, by simp, hwrite⟩
    · rw [hopen, hfail]
      exact h.opened hs
    · rw [hnot rfl] at hgot
      exact absurd hgot (by decide)
  · refine ⟨by simp, fun hs => ?_, by simp, fun _ => ?_, by simp, hwrite⟩
    · rw [hopen, hfail]
      exact h.opened hs
    · rw [hreceived rfl]
      exact h.unread (by decide)

/-- The stream of a thread on its way round the loop, outside `ofs.write`. -/
theorem of_open (hopen : k.ofs.isOpen = true) (hfail : k.ofs.fail = false)
    (hreceived : k.received = false) (hwrite : k.write = none) (hcap : k.ofs.buffer.length ≤ cap)
    (hpc : pc.streaming = true) : StreamOk p cap pc k where
  fresh := fun h => by rcases h with rfl | rfl <;> exact absurd hpc (by decide)
  opened := fun _ => ⟨hopen, hfail⟩
  quiet := fun _ _ => ⟨hwrite, hcap⟩
  unread := fun _ => hreceived
  emptied := fun h => by rcases h with rfl | rfl <;> exact absurd hpc (by decide)
  write := fun w hw => absurd (hwrite.symm.trans hw) (by simp)

/-- The stream of a thread that has closed it. -/
theorem of_closed (hreceived : k.received = false) (hwrite : k.write = none)
    (hbuffer : k.ofs.buffer = []) (hpc : pc = .leaving ∨ pc = .finished) : StreamOk p cap pc k where
  fresh := fun h => by rcases h with rfl | rfl <;> exact absurd hpc (by simp)
  opened := fun h => by rcases hpc with rfl | rfl <;> exact absurd h (by decide)
  quiet := fun _ _ => ⟨hwrite, by rw [hbuffer]; exact Nat.zero_le cap⟩
  unread := fun _ => hreceived
  emptied := fun _ => hbuffer
  write := fun w hw => absurd (hwrite.symm.trans hw) (by simp)

/-- A thread that has finished has fed everything. -/
theorem unfed_finished (h : StreamOk p cap .finished k) : k.unfed = [] := by
  rw [ThreadStream.unfed, (h.quiet (by decide) (by simp)).1, h.emptied (.inr rfl)]
  rfl

/-- The thread goes on, and what its stream has to hand over stays as it was. -/
theorem goOn (h : StreamOk p cap pc k) (hnext : pc.Next pc')
    (hk : DataStream.goOn cap k pc = some k') : StreamOk p cap pc' k' ∧ k'.unfed = k.unfed := by
  cases hnext with
  | begun =>
    cases hk
    rw [h.fresh (.inl rfl)]
    refine ⟨⟨fun _ => rfl, by simp [ThreadPc.streaming], fun _ _ => ?_, fun _ => rfl, by simp, ?_⟩, rfl⟩
    · exact ⟨rfl, Nat.zero_le cap⟩
    · simp [ThreadStream.init]
  | opened =>
    cases hk
    rw [h.fresh (.inr rfl)]
    exact ⟨.of_open rfl rfl rfl rfl (Nat.zero_le cap) rfl, rfl⟩
  | streaming | stopped | goesOn | halted =>
    cases hk
    obtain ⟨hopen, hfail⟩ := h.opened rfl
    obtain ⟨hwrite, hcap⟩ := h.quiet (by decide) (by simp)
    exact ⟨.of_open hopen hfail (h.unread (by decide)) hwrite hcap rfl, rfl⟩
  | turned =>
    simp only [DataStream.goOn] at hk
    split at hk
    · rename_i hdone
      obtain ⟨-, hwrite, hcap⟩ := hdone
      cases hk
      obtain ⟨hopen, hfail⟩ := h.opened rfl
      exact ⟨.of_open hopen hfail rfl (by simpa using hwrite) hcap rfl, rfl⟩
    · cases hk
  | closed =>
    simp only [DataStream.goOn] at hk
    split at hk
    · rename_i hdone
      obtain ⟨hwrite, hbuffer⟩ := hdone
      have hwrite' : k.write = none := by simpa using hwrite
      -- `close()` has nothing left to write
      have hclose : k.ofs.close.2.buffer = [] := by
        rw [OFStream.close]
        split
        · rfl
        · exact hbuffer
      cases hk
      refine ⟨.of_closed (h.unread (by decide)) hwrite' hclose (.inl rfl), ?_⟩
      rw [ThreadStream.unfed, ThreadStream.unfed, hclose, hbuffer]
    · cases hk
  | ended =>
    cases hk
    have hbuffer := h.emptied (.inl rfl)
    obtain ⟨hwrite, -⟩ := h.quiet (by decide) (by simp)
    exact ⟨.of_closed (h.unread (by decide)) hwrite hbuffer (.inr rfl), rfl⟩

end StreamOk

namespace DataStream

/-- What has been received and not been fed, thread by thread. -/
def unfed (s : DataStream) : List UInt8 :=
  (List.range s.threads.threads.length).flatMap fun i => (s.streams i).unfed

/-- The caller finds `m_running` unset only when every thread created so far has set it. -/
def CallerLooks (s : DataStream) : Action → Prop
  | .step a => s.threads.LooksAfterStart a
  | _ => True

instance (s : DataStream) (a : Action) : Decidable (CallerLooks s a) :=
  match a with
  | .step a => inferInstanceAs (Decidable (s.threads.LooksAfterStart a))
  | .receive .. | .handOver .. | .copy .. | .feed .. => inferInstanceAs (Decidable True)

/-- What every reachable state satisfies: nothing received is lost, doubled or overtaken. -/
structure PathInv (p : PageSize) (cap : Nat) (s : DataStream) : Prop where
  threads : s.threads.ThreadInv
  unborn : ∀ i, s.threads.threads[i]? = none → s.streams i = .init
  stream : ∀ i pc, s.threads.threads[i]? = some pc → StreamOk p cap pc (s.streams i)
  inOrder : s.received = s.fed ++ s.unfed
  /-- between a copy and the end of its turn the page holds what was copied -/
  page : ∀ i w n, (s.streams i).write = some w → w.turn = some n →
    s.writeBuffer.take (CInt.toSize n).toNat = w.rest.take (CInt.toSize n).toNat

variable {p : PageSize} {cap : Nat} {s s' : DataStream}

/-- A sum of streams of which one only is not empty. -/
private theorem flatMap_range_of_single {α : Type} {f : Nat → List α} {n i : Nat} (hi : i < n)
    (h : ∀ j, j < n → j ≠ i → f j = []) : (List.range n).flatMap f = f i := by
  have hsplit : List.range n = List.range i ++ i :: (List.range (n - i - 1)).map (i + 1 + ·) := by
    have hn : n = i + (1 + (n - i - 1)) := by omega
    rw [hn, List.range_add, List.range_add]
    simp [Function.comp_def, Nat.add_assoc]
  have hbefore : (List.range i).flatMap f = [] := by
    refine List.flatMap_eq_nil_iff.mpr fun j hj => ?_
    have hj' := List.mem_range.mp hj
    exact h j (by omega) (by omega)
  have hafter : ((List.range (n - i - 1)).map (i + 1 + ·)).flatMap f = [] := by
    refine List.flatMap_eq_nil_iff.mpr fun j hj => ?_
    obtain ⟨d, hd, rfl⟩ := List.mem_map.mp hj
    have hd' := List.mem_range.mp hd
    exact h _ (by omega) (by omega)
  rw [hsplit, List.flatMap_append, List.flatMap_cons, hbefore, hafter, List.nil_append,
    List.append_nil]

/-- A thread beside one that has not finished has nothing left to feed. -/
private theorem PathInv.others (h : PathInv p cap s) {i j : Nat} {pc : ThreadPc}
    (hi : s.threads.threads[i]? = some pc) (hpc : pc ≠ .finished)
    (hj : j < s.threads.threads.length) (hne : j ≠ i) : (s.streams j).unfed = [] := by
  have hget : s.threads.threads[j]? = some s.threads.threads[j] := List.getElem?_eq_getElem hj
  have hfinished : s.threads.threads[j] = .finished := by
    by_contra hrun
    exact hne (h.threads.single j i _ pc hget hi hrun hpc)
  rw [hfinished] at hget
  exact (h.stream j _ hget).unfed_finished

/-- Only the thread that has not finished has anything left to feed. -/
theorem PathInv.unfed_eq (h : PathInv p cap s) {i : Nat} {pc : ThreadPc}
    (hi : s.threads.threads[i]? = some pc) (hpc : pc ≠ .finished) :
    s.unfed = (s.streams i).unfed :=
  flatMap_range_of_single (List.getElem?_eq_some_iff.mp hi).1 fun _ hj hne =>
    h.others hi hpc hj hne

/-! ## The steps -/

/-- A thread takes `data` from the network or passes `fed` on to the demux, and its stream
    keeps the rest. -/
private theorem PathInv.carry (h : PathInv p cap s) {i : Nat} {pc : ThreadPc} {k : ThreadStream}
    (data fed : List UInt8) (hi : s.threads.threads[i]? = some pc) (hpc : pc ≠ .finished)
    (hk : StreamOk p cap pc k) (hunfed : (s.streams i).unfed ++ data = fed ++ k.unfed)
    (hthreads : s'.threads = s.threads) (hstreams : s'.streams = Function.update s.streams i k)
    (hreceived : s'.received = s.received ++ data) (hfed : s'.fed = s.fed ++ fed)
    (hpage : ∀ w n, k.write = some w → w.turn = some n →
      s'.writeBuffer.take (CInt.toSize n).toNat = w.rest.take (CInt.toSize n).toNat) :
    PathInv p cap s' := by
  -- the other threads have nothing left to feed
  have hunfed' : s'.unfed = k.unfed := by
    have hsingle := flatMap_range_of_single (f := fun j => (s'.streams j).unfed)
      (List.getElem?_eq_some_iff.mp hi).1 fun j hj hne => by
        rw [hstreams, Function.update_of_ne hne]
        exact h.others hi hpc hj hne
    rw [unfed, hthreads, hsingle, hstreams, Function.update_self]
  refine ⟨hthreads ▸ h.threads, fun j hj => ?_, fun j pc' hj => ?_, ?_, fun j w n hw hn => ?_⟩
  · rw [hthreads] at hj
    rw [hstreams, Function.update_of_ne, h.unborn j hj]
    rintro rfl
    rw [hi] at hj
    cases hj
  · rw [hthreads] at hj
    rw [hstreams]
    by_cases hne : j = i
    · subst hne
      rw [Function.update_self]
      rw [hi] at hj
      cases hj
      exact hk
    · rw [Function.update_of_ne hne]
      exact h.stream j pc' hj
  · rw [hreceived, hfed, hunfed', h.inOrder, h.unfed_eq hi hpc, List.append_assoc, List.append_assoc,
      hunfed]
  · rw [hstreams] at hw
    by_cases hne : j = i
    · subst hne
      rw [Function.update_self] at hw
      exact hpage w n hw hn
    · -- no other thread is inside a write
      rw [Function.update_of_ne hne] at hw
      exfalso
      cases hj : s.threads.threads[j]? with
      | none =>
        rw [h.unborn j hj] at hw
        exact absurd hw (by simp [ThreadStream.init])
      | some pc' =>
        refine hne (h.threads.single j i pc' pc hj hi ?_ hpc)
        rcases (h.stream j pc' hj).writing hw with ⟨rfl, -⟩ | rfl <;> simp

/-- The thread that is inside a write. -/
private theorem PathInv.writing (h : PathInv p cap s) {i : Nat} {w : DataWrite}
    (hw : (s.streams i).write = some w) : ∃ pc, s.threads.threads[i]? = some pc ∧
      (pc = .body ∧ (s.streams i).received = true ∨ pc = .closing) := by
  cases hi : s.threads.threads[i]? with
  | none =>
    rw [h.unborn i hi] at hw
    exact absurd hw (by simp [ThreadStream.init])
  | some pc => exact ⟨pc, rfl, (h.stream i pc hi).writing hw⟩

/-- Received bytes come behind everything that is not fed yet. -/
private theorem PathInv.receive (h : PathInv p cap s) {i : Nat} {data : List UInt8}
    (hs : s.receive i data = some s') : PathInv p cap s' := by
  unfold DataStream.receive at hs
  simp only at hs
  split at hs
  · rename_i hbody
    obtain ⟨hi, hreceived⟩ := hbody
    have hok := h.stream i _ hi
    obtain ⟨hopen, hfail⟩ := hok.opened rfl
    obtain ⟨hwrite, -⟩ := hok.quiet (by decide) fun _ => hreceived
    have hofs := OFStream.write_eq hopen hfail data
    cases hs
    refine h.carry data [] hi (by decide) ?_ ?_ rfl rfl rfl (List.append_nil _).symm ?_
    · refine hok.inside (.inl ⟨rfl, rfl⟩) ?_ ?_ (by simp) hok.write
      · rw [hofs]
      · rw [hofs]
    · rw [ThreadStream.unfed, ThreadStream.unfed, hofs, List.append_assoc]
      rfl
    · intro w n hw
      exact absurd (hwrite.symm.trans hw) (by simp)
  · cases hs

/-- Bytes move from the stream to its write. -/
private theorem PathInv.handOver (h : PathInv p cap s) {i n : Nat}
    (hs : s.handOver i n = some s') : PathInv p cap s' := by
  unfold DataStream.handOver at hs
  simp only at hs
  split at hs
  · rename_i hready
    obtain ⟨hwhere, hnone, -, -⟩ := hready
    have hwrite : (s.streams i).write = none := by simpa using hnone
    split at hs
    · rename_i hlen
      obtain ⟨pc, hi, hpc⟩ : ∃ pc, s.threads.threads[i]? = some pc ∧
          (pc = .body ∧ (s.streams i).received = true ∨ pc = .closing) := by
        rcases hwhere with ⟨hi, hreceived⟩ | hi
        · exact ⟨_, hi, .inl ⟨rfl, hreceived⟩⟩
        · exact ⟨_, hi, .inr rfl⟩
      cases hs
      refine h.carry [] [] hi (by rcases hpc with ⟨rfl, -⟩ | rfl <;> decide) ?_ ?_ rfl rfl
        (List.append_nil _).symm (List.append_nil _).symm ?_
      · refine (h.stream i pc hi).inside hpc rfl rfl (fun _ => rfl) fun w hw => ?_
        cases hw
        exact ⟨0, rfl, Nat.zero_le _, fun n hn => by cases hn⟩
      · -- what has been handed over is what there was
        rw [ThreadStream.unfed, ThreadStream.unfed, hwrite, List.append_nil]
        exact ((s.streams i).ofs.handOver_append n).symm
      · intro w m hw hm
        cases hw
        cases hm
    · cases hs
  · cases hs

/-- A copy puts what it takes into the page. -/
private theorem PathInv.copy (h : PathInv p cap s) {i : Nat} (hs : copy p s i = some s') :
    PathInv p cap s' := by
  unfold DataStream.copy at hs
  simp only at hs
  split at hs
  · rename_i w hw
    obtain ⟨pc, hi, hpc⟩ := h.writing hw
    have hrun : pc ≠ .finished := by rcases hpc with ⟨rfl, -⟩ | rfl <;> decide
    have hok := h.stream i pc hi
    obtain ⟨m, hat⟩ := hok.write w hw
    split at hs
    · cases hs
    · rename_i hturn
      split at hs
      · -- a page is copied
        rename_i htest
        have hlt := hat.lt_iff.mp htest
        obtain ⟨n, hn, hsum, hle⟩ := hat.piece hlt
        rw [hn, hat.copied, w.read_userBuffer hle] at hs
        cases hs
        refine h.carry [] [] hi hrun ?_ ?_ rfl rfl (List.append_nil _).symm (List.append_nil _).symm ?_
        · refine hok.inside hpc rfl rfl (fun _ => rfl) fun w' hw' => ?_
          cases hw'
          exact ⟨m, hat.copied, hat.le, fun n' hn' => ⟨hlt, (Option.some.inj hn').symm⟩⟩
        · rw [ThreadStream.unfed, ThreadStream.unfed, hw, List.append_nil]
          rfl
        · intro w' n' hw' hn'
          cases hw'
          cases hn'
          have hrest : DataWrite.rest { w with turn := some (toCopy p w.userBuffer w.copied) } =
              w.bytes.drop m := by
            rw [← hat.rest_eq]
            rfl
          have hlen : ((w.bytes.drop m).take n).length = n := by
            rw [List.length_take, List.length_drop]
            omega
          rw [hn, hrest]
          exact (List.take_append_of_le_length (by omega)).trans (by rw [List.take_take, Nat.min_self])
      · -- the write returns what it has written
        rename_i htest
        have hend : m = w.bytes.length := by
          have := hat.le
          have := mt hat.lt_iff.mpr htest
          omega
        have hret : ¬ w.copied.toInt < 0 := by
          have := hat.copied
          omega
        have hreturned :
            (s.streams i).returned w w.copied.toInt = { s.streams i with write := none } := by
          rw [ThreadStream.returned, if_neg hret, hat.copied, Int.toNat_natCast, hend, List.drop_length]
          rfl
        rw [hreturned] at hs
        cases hs
        refine h.carry [] [] hi hrun ?_ ?_ rfl rfl (List.append_nil _).symm (List.append_nil _).symm ?_
        · exact hok.inside hpc rfl rfl (fun _ => rfl) fun w' hw' => by cases hw'
        · rw [ThreadStream.unfed, ThreadStream.unfed, hw, List.append_nil, Option.map_some,
            Option.getD_some, hat.rest_eq, hend, List.drop_length]
          rfl
        · intro w' n' hw'
          cases hw'
  · cases hs

/-- The demux is fed the next bytes, which the page still holds. -/
private theorem PathInv.feed (h : PathInv p cap s) {i : Nat} (hs : s.feed i = some s') :
    PathInv p cap s' := by
  unfold DataStream.feed at hs
  simp only at hs
  split at hs
  · rename_i w hw
    obtain ⟨pc, hi, hpc⟩ := h.writing hw
    have hrun : pc ≠ .finished := by rcases hpc with ⟨rfl, -⟩ | rfl <;> decide
    have hok := h.stream i pc hi
    obtain ⟨m, hat⟩ := hok.write w hw
    split at hs
    · rename_i n hn
      obtain ⟨hlt, rfl⟩ := hat.turn n hn
      obtain ⟨n, hsize, hsum, hle⟩ := hat.piece hlt
      have hpage := h.page i w _ hw hn
      rw [hsize, hat.rest_eq] at hpage
      have hat' : DataWrite.At p
          { w with copied := w.copied + toCopy p w.userBuffer w.copied, turn := none } (m + n) :=
        ⟨hsum, hle, fun n' hn' => by cases hn'⟩
      cases hs
      -- what is fed is what the page holds, the next bytes of the write
      refine h.carry [] _ hi hrun ?_ ?_ rfl rfl (List.append_nil _).symm rfl ?_
      · refine hok.inside hpc rfl rfl (fun _ => rfl) fun w' hw' => ?_
        cases hw'
        exact ⟨m + n, hat'⟩
      · -- the page is the next piece of the bytes
        rw [ThreadStream.unfed, ThreadStream.unfed, hw, List.append_nil, hsize, hpage]
        simp only [Option.map_some, Option.getD_some]
        rw [hat.rest_eq, hat'.rest_eq, ← List.append_assoc, ← List.drop_drop,
          List.take_append_drop]
      · intro w' n' hw' hn'
        cases hw'
        cases hn'
    · cases hs
  · cases hs

/-- The streams after a step in which no byte moves. -/
private theorem PathInv.stay (h : PathInv p cap s) (hthreads : s'.threads.ThreadInv)
    (hunborn : ∀ i, s'.threads.threads[i]? = none → s'.streams i = .init)
    (hstream : ∀ i pc, s'.threads.threads[i]? = some pc → StreamOk p cap pc (s'.streams i))
    (hunfed : s'.unfed = s.unfed) (hreceived : s'.received = s.received) (hfed : s'.fed = s.fed)
    (hbuffer : s'.writeBuffer = s.writeBuffer)
    (hwrite : ∀ i, (s'.streams i).write = (s.streams i).write) : PathInv p cap s' where
  threads := hthreads
  unborn := hunborn
  stream := hstream
  inOrder := by rw [hreceived, hfed, hunfed, h.inOrder]
  page := by
    intro i w n hw hn
    rw [hwrite] at hw
    rw [hbuffer]
    exact h.page i w n hw hn

/-- A step of a thread. -/
private theorem PathInv.thread (h : PathInv p cap s) {i : Nat}
    (hs : step p cap s (.step (.thread i)) = some s') : PathInv p cap s' := by
  simp only [DataStream.step] at hs
  split at hs
  · cases hs
  · rename_i pc hi
    split at hs
    · rename_i k threads hk hthread
      obtain ⟨pc₀, pc', hi₀, hnext, hset⟩ := TunerThreads.threadStep_next hthread
      rw [hi] at hi₀
      cases hi₀
      -- the thread goes on in its loop with its stream, the others stay as they are
      obtain ⟨hok, hunfed⟩ := (h.stream i pc hi).goOn hnext hk
      -- no thread leaves a place inside a write
      have hkwrite : k.write = (s.streams i).write := by
        cases hnext <;> simp only [goOn] at hk <;>
          first | (split at hk <;> cases hk <;> rfl) | (cases hk; rfl)
      have hlen : i < s.threads.threads.length := (List.getElem?_eq_some_iff.mp hi).1
      have hlooks : s.threads.LooksAfterStart (.thread i) := trivial
      cases hs
      refine h.stay (h.threads.step hlooks hthread) (fun j hj => ?_) (fun j pc₁ hj => ?_) ?_ rfl rfl rfl
        fun j => ?_
      · have hj' : threads.threads[j]? = none := hj
        rw [hset, List.getElem?_eq_none_iff, List.length_set] at hj'
        have hne : j ≠ i := by omega
        show Function.update s.streams i k j = .init
        rw [Function.update_of_ne hne]
        exact h.unborn j (List.getElem?_eq_none hj')
      · have hj' : threads.threads[j]? = some pc₁ := hj
        rw [hset] at hj'
        show StreamOk p cap pc₁ (Function.update s.streams i k j)
        by_cases hne : j = i
        · subst hne
          rw [List.getElem?_set_self hlen] at hj'
          cases hj'
          rw [Function.update_self]
          exact hok
        · rw [List.getElem?_set_ne (Ne.symm hne)] at hj'
          rw [Function.update_of_ne hne]
          exact h.stream j pc₁ hj'
      · show (List.range threads.threads.length).flatMap
            (fun j => (Function.update s.streams i k j).unfed) = s.unfed
        rw [hset, List.length_set, unfed]
        refine List.flatMap_congr fun j _ => ?_
        by_cases hne : j = i
        · subst hne
          rw [Function.update_self, hunfed]
        · rw [Function.update_of_ne hne]
      · show (Function.update s.streams i k j).write = (s.streams j).write
        by_cases hne : j = i
        · subst hne
          rw [Function.update_self, hkwrite]
        · rw [Function.update_of_ne hne]
    · cases hs

/-- A step of the caller. -/
private theorem PathInv.caller (h : PathInv p cap s) {a : TunerThreads.Action}
    {threads : TunerThreads} (hs : s.threads.step a = some threads) (ha : ∀ i, a ≠ .thread i)
    (hlooks : s.threads.LooksAfterStart a) : PathInv p cap { s with threads := threads } := by
  have hthreads := h.threads.step hlooks hs
  rcases TunerThreads.step_threads hs ha with heq | hcreated
  · refine h.stay hthreads (fun i hi => h.unborn i ?_) (fun i pc hi => h.stream i pc ?_) ?_ rfl rfl rfl
      fun _ => rfl
    · rw [← heq]
      exact hi
    · rw [← heq]
      exact hi
    · show (List.range threads.threads.length).flatMap _ = s.unfed
      rw [heq]
      rfl
  · -- the stream of the new thread has never been used
    have hnew := h.unborn s.threads.threads.length (List.getElem?_eq_none (Nat.le_refl _))
    refine h.stay hthreads (fun i hi => h.unborn i ?_) (fun i pc hi => ?_) ?_ rfl rfl rfl fun _ => rfl
    · have hi' : threads.threads[i]? = none := hi
      rw [hcreated, List.getElem?_eq_none_iff, List.length_append] at hi'
      exact List.getElem?_eq_none (by omega)
    · have hi' : threads.threads[i]? = some pc := hi
      rw [hcreated] at hi'
      by_cases hlt : i < s.threads.threads.length
      · rw [List.getElem?_append_left hlt] at hi'
        exact h.stream i pc hi'
      · rw [List.getElem?_append_right (by omega), List.getElem?_singleton] at hi'
        split at hi'
        · have hlast : i = s.threads.threads.length := by omega
          cases hi'
          show StreamOk p cap .created (s.streams i)
          rw [hlast, hnew]
          exact .init
        · cases hi'
    · show (List.range threads.threads.length).flatMap _ = s.unfed
      rw [hcreated, List.length_append, List.length_singleton, List.range_succ, List.flatMap_append,
        List.flatMap_singleton, hnew]
      exact List.append_nil _

/-- One step of any kind. -/
theorem PathInv.step {a : Action} (h : PathInv p cap s) (hlooks : s.CallerLooks a)
    (hs : step p cap s a = some s') : PathInv p cap s' := by
  cases a with
  | receive i data => exact h.receive hs
  | handOver i n => exact h.handOver hs
  | copy i => exact h.copy hs
  | feed i => exact h.feed hs
  | step a =>
    cases a with
    | thread i => exact h.thread hs
    | startStreaming | stopStreaming | stop | caller =>
      obtain ⟨threads, hthreads, rfl⟩ := Option.map_eq_some_iff.mp hs
      exact h.caller hthreads (by simp) hlooks

/-- Nothing has been received. -/
theorem PathInv.init (p : PageSize) (cap : Nat) (t : HdhomerunTuner) : PathInv p cap (init p t) where
  threads := .init t
  unborn := fun _ _ => rfl
  stream := fun _ _ h => absurd h (by simp [DataStream.init, TunerThreads.init])
  inOrder := rfl
  page := fun _ _ _ h => absurd h (by simp [DataStream.init, ThreadStream.init])

/-! ## A write that is not interrupted -/

/-- The turns of `hdhomerun_data_write` as a run of copies and feeds. -/
private theorem exec_writeLoop {i : Nat} {fuel : Nat} {turns : List Turn} {r : DataWritten}
    {w : DataWrite} (hw : (s.streams i).write = some w) (hturn : w.turn = none)
    (hr : writeLoop p w.userBuffer fuel w.copied turns = some r) :
    ∃ more s', r.turns = turns ++ more ∧
      Run.exec (step p cap) s (more.flatMap (fun _ => [.copy i, .feed i]) ++ [.copy i]) = some s' ∧
      s'.fed = s.fed ++ fedOf more ∧ s'.streams i = (s.streams i).returned w r.ret := by
  induction fuel generalizing s w turns with
  | zero => cases hr
  | succ fuel ih =>
    rw [writeLoop] at hr
    split at hr
    · rename_i htest
      simp only at hr
      split at hr
      · -- the page cannot be copied
        rename_i hread
        cases hr
        refine ⟨[], s.setStream i ((s.streams i).returned w (-EFAULT)), (List.append_nil _).symm,
          ?_, (List.append_nil _).symm, by simp [setStream]⟩
        simp [Run.exec, DataStream.step, copy, hw, hturn, htest, hread]
      · rename_i bytes hread
        have hlen := length_copyFromUser hread
        let w' : DataWrite :=
          { w with copied := w.copied + toCopy p w.userBuffer w.copied, turn := none }
        let s₀ : DataStream := { s.setStream i { s.streams i with
            write := some { w with turn := some (toCopy p w.userBuffer w.copied) } } with
          writeBuffer := bytes ++ s.writeBuffer.drop bytes.length }
        let s₁ : DataStream := { s.setStream i { s.streams i with write := some w' } with
          writeBuffer := bytes ++ s.writeBuffer.drop bytes.length
          fed := s.fed ++ bytes }
        have hw' : (s₁.streams i).write = some w' := by simp [s₁, setStream]
        obtain ⟨more, s', hturns, hexec, hfed, hstream⟩ := ih hw' rfl hr
        refine ⟨⟨w.copied, toCopy p w.userBuffer w.copied, bytes⟩ :: more, s', ?_, ?_, ?_, ?_⟩
        · rw [hturns, List.append_assoc, List.singleton_append]
        · -- one turn of the loop is a copy and a feed
          have hcopy : step p cap s (.copy i) = some s₀ := by
            simp [DataStream.step, copy, hw, hturn, htest, hread, s₀]
          have hfeed : step p cap s₀ (.feed i) = some s₁ := by
            simp [DataStream.step, feed, setStream, s₀, s₁, w', ← hlen]
          rw [List.flatMap_cons, List.append_assoc, List.cons_append, List.singleton_append,
            Run.exec_cons_of_some hcopy, Run.exec_cons_of_some hfeed, hexec]
        · rw [hfed, fedOf, fedOf, List.flatMap_cons, List.append_assoc]
        · rw [hstream]
          simp [s₁, setStream, ThreadStream.returned, w']
    · rename_i htest
      cases hr
      refine ⟨[], s.setStream i ((s.streams i).returned w w.copied.toInt),
        (List.append_nil _).symm, ?_, (List.append_nil _).symm, by simp [setStream]⟩
      simp [Run.exec, DataStream.step, copy, hw, hturn, htest]

/-- The steps of a write that nothing comes between are `hdhomerunDataWrite`. -/
theorem exec_write {i : Nat} {fuel : Nat} {r : DataWritten} {w : DataWrite}
    (hw : (s.streams i).write = some w) (hcopied : w.copied = 0) (hturn : w.turn = none)
    (hr : hdhomerunDataWrite p w.userBuffer fuel = some r) :
    ∃ s', Run.exec (step p cap) s
        (r.turns.flatMap (fun _ => [.copy i, .feed i]) ++ [.copy i]) = some s' ∧
      s'.fed = s.fed ++ fedOf r.turns ∧ s'.streams i = (s.streams i).returned w r.ret := by
  rw [hdhomerunDataWrite, ← hcopied] at hr
  obtain ⟨more, s', hturns, hexec, hfed, hstream⟩ := exec_writeLoop hw hturn hr
  rw [List.nil_append] at hturns
  rw [hturns]
  exact ⟨s', hexec, hfed, hstream⟩

/-! ## The stream -/

/-- Everything received has been fed, in order and once, but for the tail that is still on
    its way; that is at most a buffer of the stream while no thread writes, and nothing when
    all threads have finished or the caller has waited for the last one. -/
structure Delivered (cap : Nat) (s : DataStream) : Prop where
  inOrder : s.received = s.fed ++ s.unfed
  short : (∀ pc ∈ s.threads.threads, pc ≠ .body ∧ pc ≠ .closing) → s.unfed.length ≤ cap
  finished : (∀ pc ∈ s.threads.threads, pc = .finished) → s.fed = s.received
  stopped : s.threads.stopped = s.threads.threads.length → s.fed = s.received

/-- What the invariant says about the tail that is not fed yet. -/
theorem PathInv.delivered (h : PathInv p cap s) : Delivered cap s := by
  have hnone : (∀ pc ∈ s.threads.threads, pc = .finished) → s.unfed = [] := by
    intro hall
    refine List.flatMap_eq_nil_iff.mpr fun i hi => ?_
    have hget := List.getElem?_eq_getElem (List.mem_range.mp hi)
    rw [hall _ (List.mem_of_getElem? hget)] at hget
    exact (h.stream i _ hget).unfed_finished
  have hfinished : (∀ pc ∈ s.threads.threads, pc = .finished) → s.fed = s.received := by
    intro hall
    rw [h.inOrder, hnone hall, List.append_nil]
  refine ⟨h.inOrder, fun hout => ?_, hfinished, fun hstopped => hfinished fun pc hmem => ?_⟩
  · by_cases hall : ∀ pc ∈ s.threads.threads, pc = .finished
    · rw [hnone hall]
      exact Nat.zero_le cap
    · simp only [not_forall] at hall
      obtain ⟨pc, hmem, hrun⟩ := hall
      obtain ⟨i, hi⟩ := List.mem_iff_getElem?.mp hmem
      obtain ⟨hbody, hclosing⟩ := hout pc hmem
      -- outside the loop and `close()` only the buffer of the stream is left
      obtain ⟨hwrite, hcap⟩ := (h.stream i pc hi).quiet hclosing fun h => absurd h hbody
      rw [h.unfed_eq hi hrun, ThreadStream.unfed, hwrite]
      exact hcap
  · obtain ⟨i, hi⟩ := List.mem_iff_getElem?.mp hmem
    have hlt := (List.getElem?_eq_some_iff.mp hi).1
    exact h.threads.stopped i pc (by omega) hi

/-- In every run in which the caller never takes a thread that has not begun for one that has
    ended, whatever the network brings, however the streams cut it and the writes interleave,
    the bytes received reach the demux in order, and each once. -/
theorem stream_in_order (p : PageSize) (cap : Nat) (t : HdhomerunTuner) (acts : List Action)
    (hok : Run.Guarded (step p cap) CallerLooks (init p t) acts) :
    Run.EveryState (step p cap) (Delivered cap) (init p t) acts := by
  have hstep : ∀ s a s', PathInv p cap s → CallerLooks s a → step p cap s a = some s' →
      PathInv p cap s' := fun _ _ _ => PathInv.step
  exact Run.EveryState.of_invariant hstep (fun _ => PathInv.delivered) (PathInv.init p cap t) hok

/-- The caller starts a stream, and does not look whether its thread runs. -/
private def start (pid : Nat) : List Action :=
  (.startStreaming pid ⟨1, 1, 1, 1, 1, none, ⟨100, 100⟩⟩ ::
    List.replicate 3 (.caller true)).map .step

/-- The steps of thread `i` to the body of its loop. -/
private def toBody (i : Nat) : List Action := List.replicate 4 (.step (.thread i))

/-- Six bytes go to the demux in two writes, the first of them in two pages and the second
    from `ofs.close()`. -/
theorem stream_in_order_once :
    let acts := start 0x100 ++ toBody 0 ++ [.receive 0 [1, 2, 3, 4, 5, 6], .handOver 0 5] ++
      [.copy 0, .feed 0, .copy 0, .feed 0, .copy 0, .step (.thread 0)] ++
      [.step (.stopStreaming 0x100), .step (.caller true), .step (.caller true)] ++
      [.step (.thread 0), .handOver 0 1, .copy 0, .feed 0, .copy 0, .step (.thread 0)] ++
      [.step (.thread 0), .step (.caller true)]
    ∃ s, Run.exec (step ⟨4, by decide⟩ 1) (init ⟨4, by decide⟩ (.fresh "1234ABCD-0" 1)) acts = some s ∧
      s.fed = [1, 2, 3, 4, 5, 6] ∧ Delivered 1 s := by
  intro acts
  let s₀ := init ⟨4, by decide⟩ (.fresh "1234ABCD-0" 1)
  let s := (Run.exec (step ⟨4, by decide⟩ 1) s₀ acts).get (by decide)
  have hrun : Run.exec (step ⟨4, by decide⟩ 1) s₀ acts = some s := (Option.some_get _).symm
  have hfed : s.fed = [1, 2, 3, 4, 5, 6] := by decide
  have hall := stream_in_order ⟨4, by decide⟩ 1 (.fresh "1234ABCD-0" 1) acts (by decide)
  exact ⟨s, hrun, hfed, hall.last hrun⟩

/-- The first thread begins after the stream has been stopped and started again, and both copy
    into the page before either feeds it: one byte reaches the demux twice, one never. -/
theorem late_thread_mixes :
    ¬ ∀ p cap t acts, Run.EveryState (step p cap) (Delivered cap) (init p t) acts := by
  intro hall
  let acts : List Action := start 0x100 ++
    (.stopStreaming 0x100 :: List.replicate 3 (.caller true)).map .step ++ start 0x100 ++
    toBody 0 ++ toBody 1 ++ [.receive 0 [1], .handOver 0 1, .receive 1 [2], .handOver 1 1] ++
    [.copy 0, .copy 1, .feed 0, .feed 1]
  let s₀ := init ⟨4, by decide⟩ (.fresh "1234ABCD-0" 1)
  let s := (Run.exec (step ⟨4, by decide⟩ 1) s₀ acts).get (by decide)
  have hrun : Run.exec (step ⟨4, by decide⟩ 1) s₀ acts = some s := (Option.some_get _).symm
  have hreceived : s.received = [1, 2] := by decide
  have hfed : s.fed = [2, 2] := by decide
  have horder := ((hall _ _ _ acts).last hrun).inOrder
  rw [hreceived, hfed] at horder
  exact absurd horder (by simp)

end DataStream

end DvbHdhomerun
