import Mathlib.Logic.Function.Iterate

/-!
# `Basis.Steps` — finite runs of a deterministic step, with a condition on the way

`Runs next Q n s t`: from `s`, `n` applications of `next` end in `t`, and `Q` holds of every state that is stepped
from. With `Q` true everywhere this is plain execution; with `Q` "the other party would do nothing here" it is
execution that nobody can disturb, which is what `Basis.Rendezvous` needs.
-/

namespace Basis

variable {σ : Type} {next : σ → σ} {Q : σ → Prop}

/-- `n` steps lead from `s` to `t`, through states of which `Q` holds. -/
inductive Runs (next : σ → σ) (Q : σ → Prop) : Nat → σ → σ → Prop
  | refl (s : σ) : Runs next Q 0 s s
  | head {n : Nat} {s t : σ} (hq : Q s) (h : Runs next Q n (next s) t) : Runs next Q (n + 1) s t

namespace Runs

theorem single {s t : σ} (hq : Q s) (h : next s = t) : Runs next Q 1 s t := by
  subst h
  exact .head hq (.refl _)

theorem trans {m n : Nat} {s t u : σ} (h : Runs next Q m s t) (h' : Runs next Q n t u) :
    Runs next Q (m + n) s u := by
  induction h with
  | refl => rwa [Nat.zero_add]
  | head hq _ ih =>
    rw [Nat.add_right_comm]
    exact .head hq (ih h')

/-- A run seen in a larger state, of which `next` moves only a part. -/
theorem map {τ : Type} {next' : τ → τ} {Q' : τ → Prop} {f : σ → τ} (hnext : ∀ s, next' (f s) = f (next s))
    (hQ : ∀ s, Q s → Q' (f s)) {n : Nat} {s t : σ} (h : Runs next Q n s t) : Runs next' Q' n (f s) (f t) := by
  induction h with
  | refl s => exact .refl (f s)
  | head hq _ ih =>
    refine .head (hQ _ hq) ?_
    rw [hnext]
    exact ih

/-- What is left of a run after its first step. -/
theorem tail {n : Nat} {s t : σ} (h : Runs next Q (n + 1) s t) : Q s ∧ Runs next Q n (next s) t := by
  cases h with
  | head hq h => exact ⟨hq, h⟩

theorem iterate {n : Nat} {s t : σ} (h : Runs next Q n s t) : next^[n] s = t := by
  induction h with
  | refl => rfl
  | head _ _ ih => exact ih

end Runs

/-- Some number of steps leads from `s` to `t`. -/
def Reaches (next : σ → σ) (s t : σ) : Prop := ∃ n, Runs next (fun _ => True) n s t

namespace Reaches

theorem refl (s : σ) : Reaches next s s := ⟨0, .refl s⟩

theorem trans {s t u : σ} (h : Reaches next s t) (h' : Reaches next t u) : Reaches next s u := by
  obtain ⟨m, hm⟩ := h
  obtain ⟨n, hn⟩ := h'
  exact ⟨m + n, hm.trans hn⟩

theorem step {s t : σ} (h : next s = t) : Reaches next s t := ⟨1, .single trivial h⟩

end Reaches

end Basis
