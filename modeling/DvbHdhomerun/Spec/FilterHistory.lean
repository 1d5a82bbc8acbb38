import Mathlib.Data.List.Induction
import DvbHdhomerun.Spec.PidFilter

/-!
# The PID filter as a function of the calls

What the tuner's PID list and its stream flag are after any starts and stops, in terms of the
calls alone. Unmatched stops, repeated starts and PID 0x2000 are all allowed:
`feedCalls_filterHistory`.
-/

namespace DvbHdhomerun

namespace FeedCall

/-- The call is a start or stop of `pid`, or asks for the whole stream. -/
def concerns (pid : Nat) : FeedCall → Bool
  | .start q _ => q = pid || q = pidAll
  | .stop q => q = pid

/-- The call takes `pid` off the list. -/
def clears (pid : Nat) : FeedCall → Bool
  | .start q _ => q = pidAll
  | .stop q => q = pid

/-- Among the calls that concern `pid` the latest one starts it. -/
def LatestStarts (calls : List FeedCall) (pid : Nat) : Prop :=
  ∃ d, (calls.filter (concerns pid)).getLast? = some (.start pid d)

/-- The call after `before` is the start that added `pid`: the latest call before it did not
    start `pid`, and nothing has cleared `pid` since. -/
def Added (calls : List FeedCall) (pid : Nat) (before : List FeedCall) : Prop :=
  ∃ d after, calls = before ++ .start pid d :: after ∧ ¬ LatestStarts before pid ∧
    ∀ call ∈ after, clears pid call = false

/-- Without calls nothing has been started. -/
theorem not_latestStarts_nil (pid : Nat) : ¬ LatestStarts [] pid := by
  rintro ⟨d, h⟩
  cases h

/-- A call that concerns `pid` is the latest one that does. -/
theorem latestStarts_of_concerns {calls : List FeedCall} {call : FeedCall} {pid : Nat}
    (h : concerns pid call = true) :
    LatestStarts (calls ++ [call]) pid ↔ ∃ d, call = .start pid d := by
  have hfilter : (calls ++ [call]).filter (concerns pid) =
      calls.filter (concerns pid) ++ [call] := by
    rw [List.filter_append, List.filter_cons_of_pos h, List.filter_nil]
  unfold LatestStarts
  rw [hfilter, List.getLast?_concat]
  simp only [Option.some.injEq]

/-- A call that does not concern `pid` changes nothing. -/
theorem latestStarts_of_not_concerns {calls : List FeedCall} {call : FeedCall} {pid : Nat}
    (h : concerns pid call = false) :
    LatestStarts (calls ++ [call]) pid ↔ LatestStarts calls pid := by
  have hfilter : (calls ++ [call]).filter (concerns pid) = calls.filter (concerns pid) := by
    rw [List.filter_append, List.filter_cons_of_neg (by simp [h]), List.filter_nil,
      List.append_nil]
  unfold LatestStarts
  rw [hfilter]

/-- Whether a start of `q` or something earlier is the latest start of `pid`. -/
theorem latestStarts_start {calls : List FeedCall} {pid q : Nat} {d : DeviceResults}
    (hpid : pid ≠ pidAll) :
    LatestStarts (calls ++ [.start q d]) pid ↔
      q = pid ∨ (q ≠ pidAll ∧ LatestStarts calls pid) := by
  by_cases hq : q = pid
  · rw [latestStarts_of_concerns (by simp [concerns, hq])]
    simp [hq]
  · by_cases hall : q = pidAll
    · -- the request for the whole stream is the latest call, and it is no start of `pid`
      rw [latestStarts_of_concerns (by simp [concerns, hall])]
      simp [hall, hpid.symm]
    · rw [latestStarts_of_not_concerns (by simp [concerns, hq, hall])]
      simp [hq, hall]

/-- A stop of `pid` is the latest call, any other stop changes nothing. -/
theorem latestStarts_stop {calls : List FeedCall} {pid q : Nat} :
    LatestStarts (calls ++ [.stop q]) pid ↔ q ≠ pid ∧ LatestStarts calls pid := by
  by_cases hq : q = pid
  · rw [latestStarts_of_concerns (by simp [concerns, hq])]
    simp [hq]
  · rw [latestStarts_of_not_concerns (by simp [concerns, hq])]
    simp [hq]

/-- A call that does not clear `pid` leaves the latest start in place. -/
theorem LatestStarts.snoc {calls : List FeedCall} {call : FeedCall} {pid : Nat}
    (hpid : pid ≠ pidAll) (h : LatestStarts calls pid) (hclear : clears pid call = false) :
    LatestStarts (calls ++ [call]) pid := by
  cases call with
  | start q d =>
    have hall : q ≠ pidAll := by simpa [clears] using hclear
    exact (latestStarts_start hpid).mpr (.inr ⟨hall, h⟩)
  | stop q =>
    have hq : q ≠ pid := by simpa [clears] using hclear
    exact latestStarts_stop.mpr ⟨hq, h⟩

/-- The start that added a PID is one of the calls. -/
theorem Added.length_lt {calls before : List FeedCall} {pid : Nat} (h : Added calls pid before) :
    before.length < calls.length := by
  obtain ⟨d, after, rfl, -, -⟩ := h
  rw [List.length_append, List.length_cons]
  omega

/-- What one more call does to the start that added a PID. -/
theorem added_snoc {calls before : List FeedCall} {call : FeedCall} {pid : Nat} :
    Added (calls ++ [call]) pid before ↔
      (before = calls ∧ ¬ LatestStarts calls pid ∧ ∃ d, call = .start pid d) ∨
        (Added calls pid before ∧ clears pid call = false) := by
  constructor
  · rintro ⟨d, after, heq, hnew, hkept⟩
    -- either the last call is the start itself, or it comes behind it and clears nothing
    cases List.eq_nil_or_concat' after with
    | inl hnil =>
      subst hnil
      obtain ⟨rfl, hcall⟩ := List.append_inj' heq rfl
      cases hcall
      exact .inl ⟨rfl, hnew, d, rfl⟩
    | inr hsnoc =>
      obtain ⟨after', last, rfl⟩ := hsnoc
      rw [← List.cons_append, ← List.append_assoc] at heq
      obtain ⟨rfl, hcall⟩ := List.append_inj' heq rfl
      cases hcall
      refine .inr ⟨⟨d, after', rfl, hnew, fun c hc => ?_⟩, ?_⟩
      · exact hkept c (List.mem_append_left _ hc)
      · exact hkept call (List.mem_append_right _ List.mem_cons_self)
  · rintro (⟨rfl, hnew, d, rfl⟩ | ⟨⟨d, after, rfl, hnew, hkept⟩, hclear⟩)
    · exact ⟨d, [], rfl, hnew, fun c hc => absurd hc List.not_mem_nil⟩
    · refine ⟨d, after ++ [call], by simp, hnew, fun c hc => ?_⟩
      rcases List.mem_append.mp hc with hc | hc
      · exact hkept c hc
      · rwa [List.mem_singleton.mp hc]

/-- A PID that a start added and nothing cleared is started by the latest call about it. -/
theorem Added.latestStarts {calls before : List FeedCall} {pid : Nat} (hpid : pid ≠ pidAll)
    (h : Added calls pid before) : LatestStarts calls pid := by
  induction calls using List.reverseRecOn with
  | nil => exact absurd h.length_lt (Nat.not_lt_zero _)
  | append_singleton calls call ih =>
    rcases added_snoc.mp h with ⟨-, -, d, rfl⟩ | ⟨hold, hclear⟩
    · exact (latestStarts_start hpid).mpr (.inl rfl)
    · exact (ih hold).snoc hpid hclear

end FeedCall

open FeedCall

namespace HdhomerunTuner

/-- The method that a call of the demux ends in. -/
def feedCall (t : HdhomerunTuner) : FeedCall → HdhomerunTuner
  | .start pid d => t.startStreaming pid d
  | .stop pid => t.stopStreaming pid

/-- The tuner after some calls. -/
def feedCalls (t : HdhomerunTuner) (calls : List FeedCall) : HdhomerunTuner :=
  calls.foldl feedCall t

/-- One more call is made on what the calls before have left. -/
theorem feedCalls_snoc (t : HdhomerunTuner) (calls : List FeedCall) (call : FeedCall) :
    t.feedCalls (calls ++ [call]) = (t.feedCalls calls).feedCall call := by
  simp [feedCalls, List.foldl_append]

/-- What the PID list and the stream flag say about the calls so far. -/
structure FilterHistory (t : HdhomerunTuner) (calls : List FeedCall) : Prop where
  nodup : t.mPidFilters.Nodup
  /-- listed are the PIDs that the latest call about them started -/
  listed : ∀ pid, pid ∈ t.mPidFilters ↔ pid ≠ pidAll ∧ LatestStarts calls pid
  added : ∀ pid ∈ t.mPidFilters, ∃ before, Added calls pid before
  /-- the list is in the order of the starts that added its PIDs -/
  ordered : t.mPidFilters.Pairwise fun p q => ∀ b b', Added calls p b → Added calls q b' →
    b.length < b'.length
  /-- the stream is on for a listed PID and right after a request for the whole stream -/
  stream : t.mStream = true ↔
    t.mPidFilters ≠ [] ∨ ∃ d, calls.getLast? = some (.start pidAll d)

/-- The starts that added two PIDs come in the same order after a call that adds neither. -/
private theorem ordered_mono {l l' : List Nat} {calls : List FeedCall} {call : FeedCall}
    (hsub : l'.Sublist l) (hlatest : ∀ pid ∈ l', LatestStarts calls pid)
    (h : l.Pairwise fun p q => ∀ b b', Added calls p b → Added calls q b' → b.length < b'.length) :
    l'.Pairwise fun p q => ∀ b b', Added (calls ++ [call]) p b → Added (calls ++ [call]) q b' →
      b.length < b'.length := by
  have hold : ∀ pid ∈ l', ∀ b, Added (calls ++ [call]) pid b → Added calls pid b := by
    intro pid hpid b hb
    rcases added_snoc.mp hb with ⟨-, hnew, -⟩ | ⟨hb, -⟩
    · exact absurd (hlatest pid hpid) hnew
    · exact hb
  refine (h.sublist hsub).imp_of_mem fun {p q} hp hq hlt b b' hb hb' => ?_
  exact hlt b b' (hold p hp b hb) (hold q hq b' hb')

/-- One more start. -/
private theorem FilterHistory.start {t : HdhomerunTuner} {calls : List FeedCall}
    (h : FilterHistory t calls) (pid : Nat) (d : DeviceResults) :
    FilterHistory (t.startStreaming pid d) (calls ++ [.start pid d]) := by
  obtain ⟨hlist, hstream, -⟩ := t.startStreaming_spec pid d
  have hmem : ∀ q, q ∈ (t.startStreaming pid d).mPidFilters ↔
      pid ≠ pidAll ∧ (q ∈ t.mPidFilters ∨ q = pid) := by
    intro q
    rw [hlist]
    exact mem_addPidToFilter
  have hlatest : ∀ q ∈ t.mPidFilters, LatestStarts calls q := fun q hq => ((h.listed q).mp hq).2
  -- a start of `pidAll` empties the list, so every field distinguishes it
  constructor
  case nodup =>
    rw [hlist]
    exact nodup_addPidToFilter pid h.nodup
  case listed =>
    intro q
    rw [hmem, h.listed]
    constructor
    · rintro ⟨hpid, ⟨hq, hold⟩ | rfl⟩
      · exact ⟨hq, (latestStarts_start hq).mpr (.inr ⟨hpid, hold⟩)⟩
      · exact ⟨hpid, (latestStarts_start hpid).mpr (.inl rfl)⟩
    · rintro ⟨hq, hnew⟩
      rcases (latestStarts_start hq).mp hnew with rfl | ⟨hpid, hold⟩
      · exact ⟨hq, .inr rfl⟩
      · exact ⟨hpid, .inl ⟨hq, hold⟩⟩
  case added =>
    intro q hq
    obtain ⟨hpid, hq⟩ := (hmem q).mp hq
    by_cases hold : q ∈ t.mPidFilters
    · obtain ⟨before, hadded⟩ := h.added q hold
      exact ⟨before, added_snoc.mpr (.inr ⟨hadded, by simpa [clears] using hpid⟩)⟩
    · -- this start adds the PID
      cases hq.resolve_left hold
      have hnew : ¬ LatestStarts calls pid := fun hs => hold ((h.listed pid).mpr ⟨hpid, hs⟩)
      exact ⟨calls, added_snoc.mpr (.inl ⟨rfl, hnew, d, rfl⟩)⟩
  case ordered =>
    rw [hlist]
    unfold addPidToFilter
    split
    · exact List.Pairwise.nil
    · rename_i hpid
      split
      · exact ordered_mono (List.Sublist.refl _) hlatest h.ordered
      · -- the new PID is last, and so is the start that added it
        rename_i hnot
        have hnew : ¬ LatestStarts calls pid := fun hs => hnot ((h.listed pid).mpr ⟨hpid, hs⟩)
        refine List.pairwise_append.mpr ⟨ordered_mono (List.Sublist.refl _) hlatest h.ordered,
          List.pairwise_singleton _ _, fun p hp q hq b b' hb hb' => ?_⟩
        rw [List.mem_singleton.mp hq] at hb'
        have hlt : b.length < calls.length := by
          rcases added_snoc.mp hb with ⟨-, hp', -⟩ | ⟨hb, -⟩
          · exact absurd (hlatest p hp) hp'
          · exact hb.length_lt
        rcases added_snoc.mp hb' with ⟨rfl, -⟩ | ⟨hb', -⟩
        · exact hlt
        · -- an earlier start that added it would still be the latest one
          exact absurd (hb'.latestStarts hpid) hnew
  case stream =>
    refine iff_of_true hstream ?_
    by_cases hpid : pid = pidAll
    · exact .inr ⟨d, by simp [hpid]⟩
    · exact .inl (List.ne_nil_of_mem ((hmem pid).mpr ⟨hpid, .inr rfl⟩))

/-- One more stop. -/
private theorem FilterHistory.stop {t : HdhomerunTuner} {calls : List FeedCall}
    (h : FilterHistory t calls) (pid : Nat) :
    FilterHistory (t.stopStreaming pid) (calls ++ [.stop pid]) := by
  obtain ⟨hlist, hstream, -⟩ := t.stopStreaming_spec pid
  have hmem : ∀ q, q ∈ (t.stopStreaming pid).mPidFilters ↔ q ≠ pid ∧ q ∈ t.mPidFilters := by
    intro q
    rw [hlist]
    exact h.nodup.mem_erase_iff
  constructor
  case nodup =>
    rw [hlist]
    exact h.nodup.erase pid
  case listed =>
    intro q
    rw [hmem, h.listed, latestStarts_stop]
    constructor
    · rintro ⟨hne, hq, hold⟩
      exact ⟨hq, hne.symm, hold⟩
    · rintro ⟨hq, hne, hold⟩
      exact ⟨hne.symm, hq, hold⟩
  case added =>
    intro q hq
    obtain ⟨hne, hq⟩ := (hmem q).mp hq
    obtain ⟨before, hadded⟩ := h.added q hq
    exact ⟨before, added_snoc.mpr (.inr ⟨hadded, by simpa [clears] using hne.symm⟩)⟩
  case ordered =>
    -- the order of the PIDs that stay does not change
    rw [hlist]
    refine ordered_mono List.erase_sublist (fun q hq => ?_) h.ordered
    exact ((h.listed q).mp (List.mem_of_mem_erase hq)).2
  case stream =>
    -- the latest call is a stop, so only a listed PID can keep the stream on
    have hlast : ¬ ∃ d, (calls ++ [FeedCall.stop pid]).getLast? = some (.start pidAll d) := by
      rintro ⟨d, hd⟩
      rw [List.getLast?_concat] at hd
      cases hd
    rw [hstream, hlist, or_iff_left hlast, Bool.and_eq_true, decide_eq_true_eq, h.stream]
    constructor
    · exact fun hs => hs.2
    · -- a PID that is left was there before, so the stream was on
      intro hleft
      refine ⟨.inl fun hnil => hleft ?_, hleft⟩
      rw [hnil, List.erase_nil]

/-- On a tuner that has no PIDs and no stream, any calls give the list and the flag that
    their history gives. -/
theorem FilterHistory.of_new {t : HdhomerunTuner} (hstream : t.mStream = false)
    (hlist : t.mPidFilters = []) (calls : List FeedCall) :
    FilterHistory (t.feedCalls calls) calls := by
  induction calls using List.reverseRecOn with
  | nil =>
    have hnot : ∀ pid, pid ∉ (t.feedCalls []).mPidFilters := by simp [feedCalls, hlist]
    refine ⟨?_, fun pid => ?_, fun pid hpid => absurd hpid (hnot pid), ?_, ?_⟩
    · simp [feedCalls, hlist]
    · exact iff_of_false (hnot pid) fun h => not_latestStarts_nil pid h.2
    · simp [feedCalls, hlist]
    · simp [feedCalls, hlist, hstream]
  | append_singleton calls call ih =>
    rw [feedCalls_snoc]
    cases call with
    | start pid d => exact ih.start pid d
    | stop pid => exact ih.stop pid

/-- After any calls on a fresh tuner the list and the stream flag are those that the
    history of the calls gives. -/
theorem feedCalls_filterHistory (name : String) (ret : Int) (calls : List FeedCall) :
    FilterHistory ((fresh name ret).feedCalls calls) calls :=
  FilterHistory.of_new rfl rfl calls

/-- The calls as the steps of a run: each of them returns. -/
def feedStep (t : HdhomerunTuner) (call : FeedCall) : Option HdhomerunTuner :=
  some (t.feedCall call)

/-- Every sequence of calls is a run. -/
theorem exec_feedStep (t : HdhomerunTuner) (calls : List FeedCall) :
    Run.exec feedStep t calls = some (t.feedCalls calls) := by
  induction calls generalizing t with
  | nil => rfl
  | cons call calls ih => exact ih (t.feedCall call)

end HdhomerunTuner

end DvbHdhomerun
