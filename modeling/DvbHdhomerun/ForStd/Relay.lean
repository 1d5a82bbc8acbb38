import Mathlib.Data.List.Basic
import Mathlib.Logic.Relation

/-!
# A relay of requests to a server and of its replies back

Requests get increasing tickets when they are posted. They wait in a queue (`pending`),
are fetched by the server (`serving`), answered one at a time (`current` is the reply
being handed over), and a reply that is accepted waits in a second queue (`answered`)
until somebody takes it (`taken`). At every stage requests and replies may be lost, all
of a stage at once or one by one, but nothing overtakes.

The result of the module is `Inv.mono`: whatever is lost, the replies taken and the
replies still queued are a subsequence of the replies served, the replies served carry
strictly increasing tickets, and each answers the request with its ticket.
-/

/-- The stages of a relay with requests `ρ` and replies `μ`. -/
structure Relay (ρ : Type u) (μ : Type v) where
  /-- the ticket of the next request -/
  next : Nat := 0
  /-- all requests posted so far -/
  requests : List (Nat × ρ) := []
  pending : List (Nat × ρ) := []
  serving : List (Nat × ρ) := []
  current : Option (Nat × μ) := none
  /-- all replies the server has produced so far -/
  served : List (Nat × μ) := []
  answered : List (Nat × μ) := []
  taken : List (Nat × μ) := []

namespace Relay

variable {ρ : Type u} {μ : Type v} {Answers : ρ → μ → Prop}

/-- The moves of a relay whose server answers the request `m` with some `r` such that
    `Answers m r`. -/
inductive Step (Answers : ρ → μ → Prop) : Relay ρ μ → Relay ρ μ → Prop
  /-- a request is posted -/
  | post (s : Relay ρ μ) (m : ρ) : Step Answers s
      { s with
        next := s.next + 1
        requests := s.requests ++ [(s.next, m)]
        pending := s.pending ++ [(s.next, m)] }
  /-- a request is refused, its ticket is not used again -/
  | refuse (s : Relay ρ μ) : Step Answers s { s with next := s.next + 1 }
  /-- the server fetches the oldest request -/
  | fetch (s : Relay ρ μ) (x : Nat × ρ) (rest : List (Nat × ρ)) (h : s.pending = x :: rest) :
      Step Answers s { s with pending := rest, serving := s.serving ++ [x] }
  /-- the server answers the oldest request it has fetched -/
  | serve (s : Relay ρ μ) (t : Nat) (m : ρ) (r : μ) (rest : List (Nat × ρ))
      (h : s.serving = (t, m) :: rest) (hcur : s.current = none) (hr : Answers m r) :
      Step Answers s
        { s with serving := rest, current := some (t, r), served := s.served ++ [(t, r)] }
  /-- the server passes over the oldest request it has fetched -/
  | discard (s : Relay ρ μ) (x : Nat × ρ) (rest : List (Nat × ρ)) (h : s.serving = x :: rest) :
      Step Answers s { s with serving := rest }
  /-- the reply being handed over is queued -/
  | accept (s : Relay ρ μ) (x : Nat × μ) (h : s.current = some x) :
      Step Answers s { s with current := none, answered := s.answered ++ [x] }
  /-- the reply being handed over is lost -/
  | ignore (s : Relay ρ μ) : Step Answers s { s with current := none }
  /-- somebody takes the oldest queued reply -/
  | take (s : Relay ρ μ) (x : Nat × μ) (rest : List (Nat × μ)) (h : s.answered = x :: rest) :
      Step Answers s { s with answered := rest, taken := s.taken ++ [x] }
  | flushPending (s : Relay ρ μ) : Step Answers s { s with pending := [] }
  | flushAnswered (s : Relay ρ μ) : Step Answers s { s with answered := [] }
  /-- the server is lost together with all it has fetched -/
  | crash (s : Relay ρ μ) : Step Answers s { s with serving := [], current := none }

/-- The tickets of everything served and of everything still to be served. -/
def tickets (s : Relay ρ μ) : List Nat :=
  s.served.map Prod.fst ++ s.serving.map Prod.fst ++ s.pending.map Prod.fst

/-- What every reachable relay satisfies. -/
structure Inv (Answers : ρ → μ → Prop) (s : Relay ρ μ) : Prop where
  /-- replies are handed on in the order they were served -/
  inOrder : (s.taken ++ s.answered ++ s.current.toList).Sublist s.served
  /-- nothing is served twice and nothing overtakes -/
  increasing : s.tickets.Pairwise (· < ·)
  bounded : ∀ t ∈ s.tickets, t < s.next
  /-- what waits to be served was posted -/
  posted : ∀ x ∈ s.serving ++ s.pending, x ∈ s.requests
  /-- what was served answers the request with its ticket -/
  answers : ∀ x ∈ s.served, ∃ m, (x.1, m) ∈ s.requests ∧ Answers m x.2

/-- Nothing has been posted. -/
theorem Inv.init : Inv Answers ({} : Relay ρ μ) where
  inOrder := List.nil_sublist _
  increasing := List.Pairwise.nil
  bounded := by simp [tickets]
  posted := by simp
  answers := by simp

/-- Losing tickets keeps what the invariant says about them. -/
private theorem tickets_of_sublist {s : Relay ρ μ} (h : Inv Answers s) (ts : List Nat)
    (hsub : ts.Sublist s.tickets) : ts.Pairwise (· < ·) ∧ ∀ t ∈ ts, t < s.next :=
  ⟨h.increasing.sublist hsub, fun t ht => h.bounded t (hsub.subset ht)⟩

/-- What is still to be served was posted. -/
private theorem posted_mono {s : Relay ρ μ} (h : Inv Answers s) {xs : List (Nat × ρ)}
    (hsub : xs ⊆ s.serving ++ s.pending) : ∀ x ∈ xs, x ∈ s.requests :=
  fun x hx => h.posted x (hsub hx)

/-- Every move keeps the invariant. -/
theorem Inv.step {s s' : Relay ρ μ} (h : Inv Answers s) (hs : Step Answers s s') :
    Inv Answers s' := by
  cases hs with
  | post m =>
    -- the new ticket is above all others
    refine ⟨h.inOrder, ?_, ?_, ?_, ?_⟩
    · simp only [tickets, List.map_append, List.map_cons, List.map_nil, ← List.append_assoc]
      refine List.pairwise_append.mpr ⟨h.increasing, List.pairwise_singleton _ _, ?_⟩
      intro t ht u hu
      rw [List.mem_singleton.mp hu]
      exact h.bounded t ht
    · intro t ht
      simp only [tickets, List.map_append, List.map_cons, List.map_nil, ← List.append_assoc] at ht
      rcases List.mem_append.mp ht with ht | ht
      · exact Nat.lt_succ_of_lt (h.bounded t ht)
      · rw [List.mem_singleton.mp ht]
        exact Nat.lt_succ_self _
    · intro x hx
      rw [← List.append_assoc] at hx
      rcases List.mem_append.mp hx with hx | hx
      · exact List.mem_append_left _ (h.posted x hx)
      · exact List.mem_append_right _ hx
    · intro x hx
      obtain ⟨m', hm', hans⟩ := h.answers x hx
      exact ⟨m', List.mem_append_left _ hm', hans⟩
  | refuse =>
    exact ⟨h.inOrder, h.increasing, fun t ht => Nat.lt_succ_of_lt (h.bounded t ht), h.posted,
      h.answers⟩
  | fetch x rest hp =>
    -- the request only moves from one queue to the next
    have htickets : tickets { s with pending := rest, serving := s.serving ++ [x] } = s.tickets := by
      simp [tickets, hp]
    refine ⟨h.inOrder, ?_, ?_, ?_, h.answers⟩
    · rw [htickets]
      exact h.increasing
    · rw [htickets]
      exact h.bounded
    · refine posted_mono h ?_
      simp [hp]
  | serve t m r rest hsv hcur hr =>
    -- nothing is being handed over, so the new reply is the last one everywhere
    have htickets : tickets { s with
        serving := rest, current := some (t, r), served := s.served ++ [(t, r)] } = s.tickets := by
      simp [tickets, hsv]
    refine ⟨?_, ?_, ?_, ?_, ?_⟩
    · have hin := h.inOrder
      simp only [hcur, Option.toList_none, List.append_nil] at hin
      exact hin.append (List.Sublist.refl _)
    · rw [htickets]
      exact h.increasing
    · rw [htickets]
      exact h.bounded
    · refine posted_mono h ?_
      simp [hsv]
    · intro x hx
      rcases List.mem_append.mp hx with hx | hx
      · exact h.answers x hx
      · rw [List.mem_singleton.mp hx]
        exact ⟨m, h.posted (t, m) (by simp [hsv]), hr⟩
  | discard x rest hsv =>
    have ⟨hinc, hbd⟩ := tickets_of_sublist h (tickets { s with serving := rest }) (by
      simp only [tickets, hsv, List.map_cons]
      exact ((List.Sublist.refl _).append (List.sublist_cons_self _ _)).append (List.Sublist.refl _))
    refine ⟨h.inOrder, hinc, hbd, posted_mono h ?_, h.answers⟩
    simp [hsv]
  | accept x hx =>
    refine ⟨?_, h.increasing, h.bounded, h.posted, h.answers⟩
    have hin := h.inOrder
    rw [hx] at hin
    simpa using hin
  | ignore =>
    refine ⟨?_, h.increasing, h.bounded, h.posted, h.answers⟩
    exact ((List.Sublist.refl _).append (List.nil_sublist _)).trans h.inOrder
  | take x rest hx =>
    refine ⟨?_, h.increasing, h.bounded, h.posted, h.answers⟩
    have hin := h.inOrder
    rw [hx] at hin
    simpa using hin
  | flushPending =>
    have ⟨hinc, hbd⟩ := tickets_of_sublist h (tickets { s with pending := [] })
      ((List.Sublist.refl _).append (List.nil_sublist _))
    refine ⟨h.inOrder, hinc, hbd, posted_mono h ?_, h.answers⟩
    simp
  | flushAnswered =>
    refine ⟨?_, h.increasing, h.bounded, h.posted, h.answers⟩
    exact (((List.Sublist.refl _).append (List.nil_sublist _)).append
      (List.Sublist.refl _)).trans h.inOrder
  | crash =>
    have ⟨hinc, hbd⟩ := tickets_of_sublist h (tickets { s with serving := [], current := none })
      (((List.Sublist.refl _).append (List.nil_sublist _)).append (List.Sublist.refl _))
    refine ⟨?_, hinc, hbd, posted_mono h ?_, h.answers⟩
    · exact ((List.Sublist.refl _).append (List.nil_sublist _)).trans h.inOrder
    · simp

/-- Any number of moves keeps the invariant. -/
theorem Inv.mono {s s' : Relay ρ μ} (h : Inv Answers s)
    (hreach : Relation.ReflTransGen (Step Answers) s s') : Inv Answers s' := by
  induction hreach with
  | refl => exact h
  | tail _ hs ih => exact ih.step hs

/-- The replies served carry increasing tickets. -/
theorem Inv.served_increasing {s : Relay ρ μ} (h : Inv Answers s) :
    (s.served.map Prod.fst).Pairwise (· < ·) :=
  h.increasing.sublist ((List.sublist_append_left _ _).trans (List.sublist_append_left _ _))

/-- Answers come in the order the requests were served. -/
theorem Inv.answered_sublist {s : Relay ρ μ} (h : Inv Answers s) : s.answered.Sublist s.served :=
  ((List.sublist_append_right _ _).trans (List.sublist_append_left _ _)).trans h.inOrder

/-- The queued replies carry increasing tickets. -/
theorem Inv.answered_increasing {s : Relay ρ μ} (h : Inv Answers s) :
    (s.answered.map Prod.fst).Pairwise (· < ·) :=
  h.served_increasing.sublist (h.answered_sublist.map _)

end Relay
