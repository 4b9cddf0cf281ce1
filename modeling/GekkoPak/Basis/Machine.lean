import Mathlib.Data.List.Induction

/-!
# `Basis.Machine` — deterministic reactive machines

A machine reads one input at a time, moves to a next state and answers with an output. Everything the
development says "for every run" is said over `Machine.run`, and every such statement goes through one of
the rules of this file:

* `Machine.invariant` — what holds initially and is kept by every step holds in every reachable state;
* `Machine.invariant_along` — what is kept by the steps of one kind holds along the runs made of them;
* `Machine.simulation` — a relation kept by every step, with equal outputs, gives equal outputs on every run;
* `Machine.simulation_along` — the same along the runs made of steps of one kind.

Nothing here knows what the states, inputs or outputs are.
-/

namespace Basis

/-- A deterministic machine with inputs `ι`, outputs `ο` and states `σ`. -/
structure Machine (ι ο σ : Type) where
  init : σ
  step : σ → ι → σ × ο

namespace Machine

variable {ι ο σ τ : Type}

/-- The state after one input. -/
def next (M : Machine ι ο σ) (s : σ) (i : ι) : σ := (M.step s i).1

/-- The answer to one input. -/
def out (M : Machine ι ο σ) (s : σ) (i : ι) : ο := (M.step s i).2

/-- The state after a list of inputs, from `s`. -/
def runFrom (M : Machine ι ο σ) (s : σ) : List ι → σ
  | []      => s
  | i :: is => M.runFrom (M.next s i) is

/-- The answers to a list of inputs, from `s`. -/
def outsFrom (M : Machine ι ο σ) (s : σ) : List ι → List ο
  | []      => []
  | i :: is => M.out s i :: M.outsFrom (M.next s i) is

/-- The state after a whole run. -/
def run (M : Machine ι ο σ) (is : List ι) : σ := M.runFrom M.init is

/-- The answers of a whole run. -/
def outs (M : Machine ι ο σ) (is : List ι) : List ο := M.outsFrom M.init is

/-- The states some run ends in. -/
def Reachable (M : Machine ι ο σ) (s : σ) : Prop := ∃ is, M.run is = s

/-! ## Runs, cut and extended -/

theorem runFrom_append (M : Machine ι ο σ) (is js : List ι) :
    ∀ s, M.runFrom s (is ++ js) = M.runFrom (M.runFrom s is) js := by
  induction is with
  | nil => intro s; rfl
  | cons i is ih => intro s; exact ih (M.next s i)

theorem outsFrom_append (M : Machine ι ο σ) (is js : List ι) :
    ∀ s, M.outsFrom s (is ++ js) = M.outsFrom s is ++ M.outsFrom (M.runFrom s is) js := by
  induction is with
  | nil => intro s; rfl
  | cons i is ih =>
    intro s
    show M.out s i :: M.outsFrom (M.next s i) (is ++ js) = _
    rw [ih]; rfl

theorem run_append (M : Machine ι ο σ) (is js : List ι) :
    M.run (is ++ js) = M.runFrom (M.run is) js := M.runFrom_append is js M.init

theorem run_concat (M : Machine ι ο σ) (is : List ι) (i : ι) :
    M.run (is ++ [i]) = M.next (M.run is) i := M.run_append is [i]

theorem outs_concat (M : Machine ι ο σ) (is : List ι) (i : ι) :
    M.outs (is ++ [i]) = M.outs is ++ [M.out (M.run is) i] := M.outsFrom_append is [i] M.init

theorem reachable_run (M : Machine ι ο σ) (is : List ι) : M.Reachable (M.run is) := ⟨is, rfl⟩

/-! ## Partial views of the answers -/

/-- `M` with each answer seen through `f`. -/
def view {ρ : Type} (M : Machine ι ο σ) (f : ι → ο → ρ) : Machine ι ρ σ where
  init := M.init
  step s i := (M.next s i, f i (M.out s i))

/-- A view moves through the same states. -/
theorem run_view {ρ : Type} (M : Machine ι ο σ) (f : ι → ο → ρ) (is : List ι) :
    (M.view f).run is = M.run is := by
  induction is using List.reverseRecOn with
  | nil => rfl
  | append_singleton is i ih => rw [run_concat, run_concat, ih]; rfl

/-! ## The invariant rule -/

/-- **Invariant rule, with history.** A property of the inputs so far and the state they lead to that holds
    of the empty run and survives one more input holds of every run. -/
theorem invariant_run {M : Machine ι ο σ} {I : List ι → σ → Prop} (h0 : I [] M.init)
    (hstep : ∀ is i, I is (M.run is) → I (is ++ [i]) (M.next (M.run is) i)) (is : List ι) :
    I is (M.run is) := by
  induction is using List.reverseRecOn with
  | nil => exact h0
  | append_singleton is i ih => rw [run_concat]; exact hstep is i ih

/-- **Invariant rule.** What holds initially and is kept by every step holds in every reachable state. -/
theorem invariant {M : Machine ι ο σ} {I : σ → Prop} (h0 : I M.init)
    (hstep : ∀ s i, I s → I (M.next s i)) {s : σ} (hs : M.Reachable s) : I s := by
  obtain ⟨is, rfl⟩ := hs
  exact invariant_run (I := fun _ s => I s) h0 (fun is i h => hstep (M.run is) i h) is

/-- **Invariant rule, along a run.** What holds initially and is kept by the steps of kind `C` holds in every state of
    a run all of whose steps are of that kind. -/
theorem invariant_along {M : Machine ι ο σ} {I : σ → Prop} {C : σ → ι → Prop} (h0 : I M.init)
    (hstep : ∀ s i, I s → C s i → I (M.next s i)) {is : List ι}
    (hC : ∀ done i, done ++ [i] <+: is → C (M.run done) i) : ∀ done, done <+: is → I (M.run done) := by
  intro done
  induction done using List.reverseRecOn with
  | nil => intro _; exact h0
  | append_singleton done i ih =>
    intro hpre
    rw [run_concat]
    exact hstep _ i (ih ((List.prefix_append done [i]).trans hpre)) (hC done i hpre)

/-- `C` holds of every step of a run, in the state the step is taken from. -/
def Along (M : Machine ι ο σ) (C : σ → ι → Prop) (is : List ι) : Prop :=
  ∀ done i, done ++ [i] <+: is → C (M.run done) i

theorem along_nil (M : Machine ι ο σ) (C : σ → ι → Prop) : M.Along C [] := by
  intro done i h
  simp at h

theorem along_concat {M : Machine ι ο σ} {C : σ → ι → Prop} {is : List ι} {i : ι} (h : M.Along C is)
    (hi : C (M.run is) i) : M.Along C (is ++ [i]) := by
  intro done j hpre
  rcases List.prefix_concat_iff.mp hpre with heq | hshort
  · obtain ⟨rfl, hij⟩ := List.append_inj' heq rfl
    cases hij
    exact hi
  · exact h done j hshort

/-! ## The simulation rule -/

/-- **Simulation rule, from related states.** If `R` survives every input of the kind `P` and related states
    answer such an input alike, then runs over inputs of that kind stay related and answer alike. -/
theorem simulation_from {M : Machine ι ο σ} {N : Machine ι ο τ} {R : σ → τ → Prop} {P : ι → Prop}
    (hstep : ∀ s t i, P i → R s t → R (M.next s i) (N.next t i) ∧ M.out s i = N.out t i) :
    ∀ (is : List ι) (s : σ) (t : τ), (∀ i ∈ is, P i) → R s t →
      R (M.runFrom s is) (N.runFrom t is) ∧ M.outsFrom s is = N.outsFrom t is := by
  intro is
  induction is with
  | nil => intro s t _ h; exact ⟨h, rfl⟩
  | cons i is ih =>
    intro s t hP h
    obtain ⟨hR, ho⟩ := hstep s t i (hP i (by simp)) h
    obtain ⟨hR', hos⟩ := ih _ _ (fun j hj => hP j (by simp [hj])) hR
    refine ⟨hR', ?_⟩
    show M.out s i :: _ = N.out t i :: _
    rw [ho, hos]

/-- **Simulation rule.** The same, over whole runs. -/
theorem simulation {M : Machine ι ο σ} {N : Machine ι ο τ} {R : σ → τ → Prop} {P : ι → Prop}
    (h0 : R M.init N.init)
    (hstep : ∀ s t i, P i → R s t → R (M.next s i) (N.next t i) ∧ M.out s i = N.out t i)
    {is : List ι} (hP : ∀ i ∈ is, P i) :
    R (M.run is) (N.run is) ∧ M.outs is = N.outs is :=
  simulation_from hstep is M.init N.init hP h0

/-- **Simulation rule, along a run.** The same for a relation that only the steps of kind `C` keep, along the runs made of
    them. -/
theorem simulation_along {M : Machine ι ο σ} {N : Machine ι ο τ} {R : σ → τ → Prop} {C : σ → ι → Prop}
    (h0 : R M.init N.init)
    (hstep : ∀ s t i, C s i → R s t → R (M.next s i) (N.next t i) ∧ M.out s i = N.out t i) {is : List ι}
    (hC : M.Along C is) : R (M.run is) (N.run is) ∧ M.outs is = N.outs is := by
  induction is using List.reverseRecOn with
  | nil => exact ⟨h0, rfl⟩
  | append_singleton is i ih =>
    obtain ⟨hR, ho⟩ := ih fun done j hpre => hC done j (hpre.trans (List.prefix_append is [i]))
    obtain ⟨hR', ho'⟩ := hstep _ _ i (hC is i (List.prefix_refl _)) hR
    rw [run_concat, run_concat, outs_concat, outs_concat, ho, ho']
    exact ⟨hR', rfl⟩

end Machine

end Basis
