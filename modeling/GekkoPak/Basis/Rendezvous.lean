import GekkoPak.Basis.Steps
import Mathlib.Order.Nat

/-!
# `Basis.Rendezvous` — a caller and a server that meet a fixed number of times

Two parties act on one state in any order. The caller raises a request and spins until it is answered; the server
looks at the state and answers a raised request, or does nothing. A run of such a system passes through a chain of
meeting points: at point `k` the caller spins with request `k` raised (after the last one it rests). Between the
points the server has nothing to do, so nothing the schedule does can disturb the caller there.

`Meetings` is what has to be shown about the two parties. From it:

* `Meetings.between` — whatever the schedule, the state is on its way to some meeting point, and the server acted at
  least once for each point passed (the invariant over all interleavings);
* `Meetings.completes` — under every schedule in which both parties keep acting, the last point is reached and kept;
* `Meetings.rounds` — when the caller always acts long enough before the server does, every act of the server is an
  answer.
-/

namespace Basis

variable {σ : Type}

/-- Who acts. -/
inductive Party
  | caller
  | server
deriving DecidableEq, Repr

/-- One act. -/
def act (g h : σ → σ) : Party → σ → σ
  | .caller => g
  | .server => h

/-- The state after a schedule. -/
def play (g h : σ → σ) (s : σ) : List Party → σ
  | []      => s
  | p :: ps => play g h (act g h p s) ps

theorem play_append (g h : σ → σ) (ps qs : List Party) :
    ∀ s, play g h s (ps ++ qs) = play g h (play g h s ps) qs := by
  induction ps with
  | nil => intro s; rfl
  | cons p ps ih => intro s; exact ih _

theorem play_replicate_caller (g h : σ → σ) (m : Nat) :
    ∀ s, play g h s (List.replicate m .caller) = g^[m] s := by
  induction m with
  | zero => intro s; rfl
  | succ m ih => intro s; exact ih (g s)

/-- The caller is `n` steps before point `k`, and the server has nothing to do until then. -/
def Before (g h : σ → σ) (P : Nat → σ → Prop) (k n : Nat) (s : σ) : Prop :=
  ∃ t, Runs g (fun s => h s = s) n s t ∧ P k t

/-- The two parties meet at the points `P 0`, .. , `P last`, at most `bound` steps of the caller apart. -/
structure Meetings (g h : σ → σ) (P : Nat → σ → Prop) (last bound : Nat) : Prop where
  spin   : ∀ {k s}, P k s → P k (g s)
  answer : ∀ {k s}, k < last → P k s → ∃ n ≤ bound, Before g h P (k + 1) n (h s)
  rest   : ∀ {s}, P last s → P last (h s)

namespace Meetings

variable {g h : σ → σ} {P : Nat → σ → Prop} {last bound : Nat} {k n : Nat} {s : σ}

/-! ## One act -/

theorem before_of_point (hP : P k s) : Before g h P k 0 s := ⟨s, .refl s, hP⟩

/-- The caller comes nearer, or spins. -/
theorem caller (M : Meetings g h P last bound) (hs : Before g h P k n s) : Before g h P k (n - 1) (g s) := by
  obtain ⟨t, hrun, ht⟩ := hs
  cases n with
  | zero =>
    cases hrun
    exact before_of_point (M.spin ht)
  | succ n => exact ⟨t, hrun.tail.2, ht⟩

/-- The server answers at a point, and changes nothing between two points. -/
theorem server (M : Meetings g h P last bound) (hs : Before g h P k n s) (hk : k < last) :
    (0 < n ∧ Before g h P k n (h s)) ∨ (n = 0 ∧ ∃ n' ≤ bound, Before g h P (k + 1) n' (h s)) := by
  obtain ⟨t, hrun, ht⟩ := hs
  cases n with
  | zero =>
    cases hrun
    exact .inr ⟨rfl, M.answer hk ht⟩
  | succ n =>
    have hquiet : h s = s := hrun.tail.1
    refine .inl ⟨n.succ_pos, ?_⟩
    rw [hquiet]
    exact ⟨t, hrun, ht⟩

/-- On the way to the last point the server changes nothing that matters. -/
theorem server_last (M : Meetings g h P last bound) (hs : Before g h P last n s) : Before g h P last n (h s) := by
  obtain ⟨t, hrun, ht⟩ := hs
  cases n with
  | zero =>
    cases hrun
    exact before_of_point (M.rest ht)
  | succ n =>
    have hquiet : h s = s := hrun.tail.1
    rw [hquiet]
    exact ⟨t, hrun, ht⟩

/-! ## Any schedule -/

/-- One act leads to the same point or to the next one, and only the server's lead to the next one. -/
theorem act_between (M : Meetings g h P last bound) (p : Party) (hs : Before g h P k n s) (hk : k ≤ last) :
    ∃ k' n', k ≤ k' ∧ k' ≤ last ∧ k' ≤ k + [p].count .server ∧ Before g h P k' n' (act g h p s) := by
  cases p with
  | caller => exact ⟨k, n - 1, le_refl k, hk, Nat.le_add_right _ _, M.caller hs⟩
  | server =>
    rcases Nat.lt_or_eq_of_le hk with hlt | rfl
    · rcases M.server hs hlt with ⟨_, hsame⟩ | ⟨_, n', _, hnext⟩
      · exact ⟨k, n, le_refl k, hk, Nat.le_add_right _ _, hsame⟩
      · exact ⟨k + 1, n', Nat.le_succ k, hlt, by simp, hnext⟩
    · exact ⟨k, n, le_refl k, le_refl k, Nat.le_add_right _ _, M.server_last hs⟩

/-- **Every interleaving.** Whoever acts when, the state stays on its way to a meeting point, and the points passed
    are at most as many as the server's acts. -/
theorem between (M : Meetings g h P last bound) (ps : List Party) :
    ∀ {k n s}, k ≤ last → Before g h P k n s →
      ∃ k' n', k ≤ k' ∧ k' ≤ last ∧ k' ≤ k + ps.count .server ∧ Before g h P k' n' (play g h s ps) := by
  induction ps with
  | nil => intro k n s hk hs; exact ⟨k, n, le_refl k, hk, Nat.le_add_right _ _, hs⟩
  | cons p ps ih =>
    intro k n s hk hs
    obtain ⟨k₁, n₁, hle₁, hlast₁, hcount₁, hs₁⟩ := M.act_between p hs hk
    obtain ⟨k₂, n₂, hle₂, hlast₂, hcount₂, hs₂⟩ := ih hlast₁ hs₁
    refine ⟨k₂, n₂, hle₁.trans hle₂, hlast₂, ?_, hs₂⟩
    have hsplit : (p :: ps).count Party.server = [p].count .server + ps.count .server := by
      rw [← List.count_append, List.singleton_append]
    omega

/-! ## Fair schedules -/

/-- The state after the first `m` acts of an infinite schedule. -/
def stateAt (g h : σ → σ) (sched : Nat → Party) (s : σ) : Nat → σ
  | 0     => s
  | m + 1 => act g h (sched m) (stateAt g h sched s m)

/-- Both parties keep acting. -/
def Fair (sched : Nat → Party) : Prop := ∀ p m, ∃ m' ≥ m, sched m' = p

/-- Until the caller's next act the server may act or not; then the caller is one step nearer, or further on. -/
theorem caller_acts (M : Meetings g h P last bound) {sched : Nat → Party} (d : Nat) :
    ∀ {m k n}, k < last → Before g h P k (n + 1) (stateAt g h sched s m) → sched (m + d) = .caller →
      ∃ m', Before g h P k n (stateAt g h sched s m') := by
  induction d with
  | zero =>
    intro m k n _ hs hact
    rw [Nat.add_zero] at hact
    refine ⟨m + 1, ?_⟩
    have hnear := M.caller hs
    rw [stateAt, hact]
    exact hnear
  | succ d ih =>
    intro m k n hk hs hact
    have hact' : sched (m + 1 + d) = .caller := by rwa [Nat.add_right_comm]
    cases hp : sched m with
    | caller =>
      refine ⟨m + 1, ?_⟩
      rw [stateAt, hp]
      exact M.caller hs
    | server =>
      rcases M.server hs hk with ⟨_, hsame⟩ | ⟨hzero, _⟩
      · refine ih (m := m + 1) hk ?_ hact'
        rw [stateAt, hp]
        exact hsame
      · omega

/-- At a point the caller spins until the server's next act, which is the answer. -/
theorem server_acts (M : Meetings g h P last bound) {sched : Nat → Party} (d : Nat) :
    ∀ {m k}, k < last → Before g h P k 0 (stateAt g h sched s m) → sched (m + d) = .server →
      ∃ m' n', Before g h P (k + 1) n' (stateAt g h sched s m') := by
  induction d with
  | zero =>
    intro m k hk hs hact
    rw [Nat.add_zero] at hact
    rcases M.server hs hk with ⟨hpos, _⟩ | ⟨_, n', _, hnext⟩
    · omega
    · refine ⟨m + 1, n', ?_⟩
      rw [stateAt, hact]
      exact hnext
  | succ d ih =>
    intro m k hk hs hact
    have hact' : sched (m + 1 + d) = .server := by rwa [Nat.add_right_comm]
    cases hp : sched m with
    | caller =>
      refine ih (m := m + 1) hk ?_ hact'
      rw [stateAt, hp]
      exact M.caller hs
    | server =>
      rcases M.server hs hk with ⟨hpos, _⟩ | ⟨_, n', _, hnext⟩
      · omega
      · refine ⟨m + 1, n', ?_⟩
        rw [stateAt, hp]
        exact hnext

/-- Under a fair schedule the caller gets to the point it is on its way to. -/
theorem arrives (M : Meetings g h P last bound) {sched : Nat → Party} (hfair : Fair sched) (hk : k < last) :
    ∀ {n m}, Before g h P k n (stateAt g h sched s m) → ∃ m', Before g h P k 0 (stateAt g h sched s m') := by
  intro n
  induction n with
  | zero => intro m hs; exact ⟨m, hs⟩
  | succ n ih =>
    intro m hs
    obtain ⟨m', hm', hact⟩ := hfair .caller m
    obtain ⟨m'', hs'⟩ := M.caller_acts (m' - m) hk hs (by rwa [Nat.add_sub_cancel' hm'])
    exact ih hs'

/-- From the last point's approach on, the approach is kept. -/
theorem keeps_last (M : Meetings g h P last bound) {sched : Nat → Party} {m : Nat}
    (hs : Before g h P last n (stateAt g h sched s m)) :
    ∀ d, ∃ n', Before g h P last n' (stateAt g h sched s (m + d)) := by
  intro d
  induction d with
  | zero => exact ⟨n, hs⟩
  | succ d ih =>
    obtain ⟨n', hn'⟩ := ih
    show ∃ n'', Before g h P last n'' (act g h (sched (m + d)) (stateAt g h sched s (m + d)))
    cases sched (m + d) with
    | caller => exact ⟨n' - 1, M.caller hn'⟩
    | server => exact ⟨n', M.server_last hn'⟩

/-- **Every fair schedule completes.** The server has answered every request from some moment on. -/
theorem completes (M : Meetings g h P last bound) {sched : Nat → Party} (hfair : Fair sched)
    (hs : Before g h P 0 n s) : ∃ m, ∀ d, ∃ n', Before g h P last n' (stateAt g h sched s (m + d)) := by
  have hreach : ∀ k ≤ last, ∃ m n', Before g h P k n' (stateAt g h sched s m) := by
    intro k
    induction k with
    | zero => intro _; exact ⟨0, n, hs⟩
    | succ k ih =>
      intro hk
      obtain ⟨m, n', hm⟩ := ih (by omega)
      obtain ⟨m', hm'⟩ := M.arrives hfair (by omega) hm
      obtain ⟨m'', hle, hact⟩ := hfair .server m'
      exact M.server_acts (m'' - m') (by omega) hm' (by rwa [Nat.add_sub_cancel' hle])
  obtain ⟨m, n', hm⟩ := hreach last (le_refl last)
  exact ⟨m, M.keeps_last hm⟩

/-! ## Rounds -/

/-- The caller gets there if it acts long enough. -/
theorem caller_iterate (M : Meetings g h P last bound) :
    ∀ (m : Nat) {n s}, Before g h P k n s → Before g h P k (n - m) (g^[m] s) := by
  intro m
  induction m with
  | zero => intro n s hs; exact hs
  | succ m ih =>
    intro n s hs
    have hrest := ih (M.caller hs)
    rw [Function.iterate_succ_apply, Nat.sub_add_eq, Nat.sub_right_comm]
    exact hrest

/-- **A round** in which the caller acts at least `bound` times before the server does ends in an answer. -/
theorem round (M : Meetings g h P last bound) {m : Nat} (hm : n ≤ m) (hk : k < last) (hs : Before g h P k n s) :
    ∃ n' ≤ bound, Before g h P (k + 1) n' (h (g^[m] s)) := by
  have hpoint := M.caller_iterate m hs
  rw [Nat.sub_eq_zero_of_le hm] at hpoint
  rcases M.server hpoint hk with ⟨hpos, _⟩ | ⟨_, hnext⟩
  · omega
  · exact hnext

end Meetings

end Basis
