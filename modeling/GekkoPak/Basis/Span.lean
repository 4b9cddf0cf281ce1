import Mathlib.Data.List.Basic

/-!
# `Basis.Span` — half-open intervals and first fit

A `Span` is `[start, stop)`. `Clear occ c len` says that `[c, c + len)` meets no span of `occ`. First fit looks
for the least clear position by skipping: where something overlaps, jump to the furthest end of what overlaps
(`skip`). `not_clear_below_skip` is why that loses nothing: every position jumped over was occupied too.
`Visited` are the positions this leads through.
-/

namespace Basis

/-- The half-open interval `[start, stop)`. -/
structure Span where
  start : Nat
  stop  : Nat
deriving DecidableEq, Repr

namespace Span

/-- Two spans that do not overlap. -/
def Apart (a b : Span) : Prop := a.stop ≤ b.start ∨ b.stop ≤ a.start

instance (a b : Span) : Decidable (a.Apart b) := inferInstanceAs (Decidable (_ ∨ _))

theorem Apart.symm {a b : Span} (h : a.Apart b) : b.Apart a := Or.symm h

/-- One span lies inside another. -/
def Inside (a b : Span) : Prop := b.start ≤ a.start ∧ a.stop ≤ b.stop

end Span

/-- `[c, c + len)` meets no span of `occ`. -/
def Clear (occ : List Span) (c len : Nat) : Prop := ∀ x ∈ occ, (Span.mk c (c + len)).Apart x

/-- The furthest end of a span of `occ` that overlaps `[c, c + len)`, and at least `far`. -/
def skipFrom (c len : Nat) : List Span → Nat → Nat
  | [],       far => far
  | x :: occ, far => skipFrom c len occ (if (Span.mk c (c + len)).Apart x then far else max far x.stop)

/-- Where first fit goes on after `c` turned out not to be clear. -/
def skip (occ : List Span) (c len : Nat) : Nat := skipFrom c len occ c

section Skip

variable {c len : Nat}

theorem skipFrom_apart {x : Span} (hx : (Span.mk c (c + len)).Apart x) (occ : List Span) (far : Nat) :
    skipFrom c len (x :: occ) far = skipFrom c len occ far := by
  rw [skipFrom, if_pos hx]

theorem skipFrom_overlap {x : Span} (hx : ¬ (Span.mk c (c + len)).Apart x) (occ : List Span) (far : Nat) :
    skipFrom c len (x :: occ) far = skipFrom c len occ (max far x.stop) := by
  rw [skipFrom, if_neg hx]

/-- The skip ends where it began, or at the end of a span that overlaps. -/
theorem skipFrom_cases (occ : List Span) :
    ∀ far, skipFrom c len occ far = far ∨
      ∃ x ∈ occ, ¬ (Span.mk c (c + len)).Apart x ∧ skipFrom c len occ far = x.stop := by
  induction occ with
  | nil => intro far; exact Or.inl rfl
  | cons x occ ih =>
    intro far
    by_cases hx : (Span.mk c (c + len)).Apart x
    · rw [skipFrom_apart hx]
      rcases ih far with h | ⟨y, hy, hno, h⟩
      · exact Or.inl h
      · exact Or.inr ⟨y, List.mem_cons_of_mem x hy, hno, h⟩
    · rw [skipFrom_overlap hx]
      rcases ih (max far x.stop) with h | ⟨y, hy, hno, h⟩
      · rcases Nat.le_total x.stop far with hle | hle
        · exact Or.inl (by rw [h, Nat.max_eq_left hle])
        · exact Or.inr ⟨x, by simp, hx, by rw [h, Nat.max_eq_right hle]⟩
      · exact Or.inr ⟨y, List.mem_cons_of_mem x hy, hno, h⟩

/-- **Nothing is lost.** Every position between `c` and the skip is occupied: what overlaps `[c, c + len)` and
    reaches to the skip overlaps there too. -/
theorem not_clear_below_skip {occ : List Span} {d : Nat} (hd : c ≤ d) (hlt : d < skip occ c len) :
    ¬ Clear occ d len := by
  intro hclear
  have hcases : skip occ c len = c ∨
      ∃ x ∈ occ, ¬ (Span.mk c (c + len)).Apart x ∧ skip occ c len = x.stop := skipFrom_cases occ c
  rcases hcases with h | ⟨x, hx, hno, h⟩
  · omega
  · have hstart : x.start < c + len := Nat.lt_of_not_le (fun hle => hno (Or.inl hle))
    have hreach : d < x.stop := h ▸ hlt
    rcases hclear x hx with hapart | hapart
    · exact absurd hapart (by show ¬ d + len ≤ x.start; omega)
    · exact absurd hapart (Nat.not_le.mpr hreach)

end Skip

/-- The positions first fit looks at for `len` units below `limit`: it starts at zero, and where something
    overlaps a position from which it would still fit, it goes on at the skip. -/
inductive Visited (occ : List Span) (len limit : Nat) : Nat → Prop
  | start : Visited occ len limit 0
  | next {c : Nat} (h : Visited occ len limit c) (hfit : c + len ≤ limit) (hno : ¬ Clear occ c len) :
      Visited occ len limit (skip occ c len)

/-- A visited position is zero or the end of a span. -/
theorem Visited.cases {occ : List Span} {len limit c : Nat} (h : Visited occ len limit c) :
    c = 0 ∨ ∃ x ∈ occ, c = x.stop := by
  induction h with
  | start => exact Or.inl rfl
  | @next c _ _ _ ih =>
    have hcases : skip occ c len = c ∨
        ∃ x ∈ occ, ¬ (Span.mk c (c + len)).Apart x ∧ skip occ c len = x.stop := skipFrom_cases occ c
    rcases hcases with hstay | ⟨x, hx, -, hstop⟩
    · rw [hstay]
      exact ih
    · exact Or.inr ⟨x, hx, hstop⟩

end Basis
