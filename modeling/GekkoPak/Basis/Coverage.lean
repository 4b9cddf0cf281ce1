import GekkoPak.Basis.Buffers
import Mathlib.Data.List.Induction

/-!
# `Basis.Coverage` — when a mark stands for what was written

A buffer's mark is one number in place of a set of written bytes. It is an honest one exactly as long as every write
starts at or below it (`InOrder`): then every byte below the mark was written since the buffer was created, and what
lies below the mark is what the writes, laid over one another, leave (`Stands`). The first write that starts above the
mark leaves a gap, and the mark passes over it (`inOrder_iff_covered`).
-/

namespace Basis

/-! ## Writes -/

/-- Writes to one buffer, in order: where, and what. -/
abbrev Writes : Type := List (Nat × List UInt8)

/-- What some writes leave, each laid over those before it. -/
def assemble (ws : Writes) : List UInt8 := ws.foldl (fun l w => splice l w.1 w.2) []

theorem assemble_concat (ws : Writes) (off : Nat) (bs : List UInt8) :
    assemble (ws ++ [(off, bs)]) = splice (assemble ws) off bs := List.foldl_concat _ _ _ _

/-- One of the writes holds byte `a`. -/
def Covered (ws : Writes) (a : Nat) : Prop := ∃ w ∈ ws, w.1 ≤ a ∧ a < w.1 + w.2.length

theorem Covered.concat {ws : Writes} {a : Nat} (h : Covered ws a) (w : Nat × List UInt8) : Covered (ws ++ [w]) a := by
  obtain ⟨v, hv, hin⟩ := h
  exact ⟨v, List.mem_append_left _ hv, hin⟩

/-- What is written at or below `n`, seen up to where it reaches. -/
theorem take_splice {α : Type} {l bs : List α} {off n : Nat} (hoff : off ≤ n) (hn : n ≤ l.length) :
    (splice l off bs).take (max n (off + bs.length)) = splice (l.take n) off bs := by
  have htake : (l.take n).take off = l.take off := by rw [List.take_take, Nat.min_eq_left hoff]
  have hlen : (l.take off ++ bs).length = off + bs.length := by
    rw [List.length_append, List.length_take, Nat.min_eq_left (by omega)]
  have hleft : (l.take off ++ bs).take (max n (off + bs.length)) = l.take off ++ bs :=
    List.take_of_length_le (by omega)
  rw [splice, splice, htake, List.drop_take, List.take_append, hleft, hlen]
  congr 2
  omega

/-- **Buffer `b` is what the writes `ws` made it**: up to the mark it holds what they leave, and nothing below the mark
    was left out. -/
structure Stands (b : Buffer) (ws : Writes) : Prop where
  bytes   : b.bytes.take b.mark = assemble ws
  length  : (assemble ws).length = b.mark
  covered : ∀ a, a < b.mark → Covered ws a

/-- A buffer with nothing marked. -/
theorem Stands.fresh {b : Buffer} (h : b.mark = 0) : Stands b [] where
  bytes := by rw [h]; rfl
  length := h.symm
  covered := by
    intro a ha
    omega

theorem Stands.mark_le {b : Buffer} {ws : Writes} (h : Stands b ws) : b.mark ≤ b.bytes.length := by
  have hlen := h.length
  rw [← h.bytes, List.length_take] at hlen
  omega

/-- **A write that starts at or below the mark** keeps it honest. -/
theorem Stands.overlay {b : Buffer} {ws : Writes} (h : Stands b ws) {off : Nat} (hoff : off ≤ b.mark)
    (bs : List UInt8) : Stands (b.overlay off bs) (ws ++ [(off, bs)]) where
  bytes := by
    rw [assemble_concat, ← h.bytes]
    exact take_splice hoff h.mark_le
  length := by
    rw [assemble_concat, splice_length (by rw [h.length]; exact hoff), h.length]
    rfl
  covered := by
    intro a ha
    have hmark : a < max b.mark (off + bs.length) := ha
    by_cases hold : a < b.mark
    · exact (h.covered a hold).concat _
    · -- above the old mark only the new write can reach
      exact ⟨(off, bs), List.mem_append_right _ (List.mem_singleton.mpr rfl), by show off ≤ a; omega,
        by show a < off + bs.length; omega⟩

/-! ## Effects -/

namespace Store

variable {κ : Type} [DecidableEq κ]

/-- The buffers some effects make, from nothing. -/
def build (es : List (Effect κ)) : Store κ := es.foldl apply (fun _ => none)

theorem build_append (es es' : List (Effect κ)) : build (es ++ es') = es'.foldl apply (build es) := List.foldl_append

theorem build_concat (es : List (Effect κ)) (e : Effect κ) : build (es ++ [e]) = apply (build es) e :=
  build_append es [e]

/-- The writes to every key since its buffer was created. -/
def record (hist : κ → Writes) : Effect κ → κ → Writes
  | .create k _     => Function.update hist k []
  | .write k off bs => Function.update hist k (hist k ++ [(off, bs)])
  | .drop k         => Function.update hist k []

/-- The same after some effects. -/
def history (es : List (Effect κ)) : κ → Writes := es.foldl record (fun _ => [])

theorem history_concat (es : List (Effect κ)) (e : Effect κ) : history (es ++ [e]) = record (history es) e :=
  List.foldl_concat _ _ _ _

/-- An effect on one key leaves the histories of the others alone. -/
theorem record_of_ne {hist : κ → Writes} {e : Effect κ} {k : κ} (h : e.key ≠ k) : record hist e k = hist k := by
  cases e <;> exact Function.update_of_ne (Ne.symm h) _ _

/-- **Rule for buffers and their histories.** A relation that holds between what is created and no writes, and survives
    a write, holds between every buffer and its history. -/
theorem build_history {R : Buffer → Writes → Prop} {es : List (Effect κ)}
    (hcreate : ∀ k b, .create k b ∈ es → R b [])
    (hwrite : ∀ pre k off bs b, pre ++ [.write k off bs] <+: es → build pre k = some b → R b (history pre k) →
      R (b.overlay off bs) (history pre k ++ [(off, bs)])) :
    ∀ {k : κ} {b : Buffer}, build es k = some b → R b (history es k) := by
  induction es using List.reverseRecOn with
  | nil => intro k b h; cases h
  | append_singleton es e ih =>
    intro k b h
    have ih' : ∀ {k : κ} {b : Buffer}, build es k = some b → R b (history es k) :=
      ih (fun k b hmem => hcreate k b (List.mem_append_left _ hmem))
        (fun pre k off bs b hpre => hwrite pre k off bs b (hpre.trans (List.prefix_append _ _)))
    rw [build_concat] at h
    rw [history_concat]
    by_cases hk : e.key = k
    · subst hk
      cases e with
      | create k c =>
        simp only [apply, Effect.key, Function.update_self] at h
        simp only [record, Effect.key, Function.update_self]
        obtain rfl := Option.some.inj h
        exact hcreate k c (List.mem_append_right _ (List.mem_singleton.mpr rfl))
      | drop k =>
        simp only [apply, Effect.key, Function.update_self] at h
        cases h
      | write k off bs =>
        simp only [apply, Effect.key, Function.update_self] at h
        simp only [record, Effect.key, Function.update_self]
        obtain ⟨c, hc, rfl⟩ := Option.map_eq_some_iff.mp h
        exact hwrite es k off bs c (List.prefix_refl _) hc (ih' hc)
    · rw [apply_of_ne hk] at h
      rw [record_of_ne hk]
      exact ih' h

/-- The mark is never below the end of a write. -/
theorem write_le_mark {es : List (Effect κ)} {k : κ} {b : Buffer} (h : build es k = some b) :
    ∀ w ∈ history es k, w.1 + w.2.length ≤ b.mark := by
  refine build_history (R := fun b ws => ∀ w ∈ ws, w.1 + w.2.length ≤ b.mark) ?_ ?_ h
  · intro k b _ w hw
    cases hw
  · intro pre k off bs b _ _ hb w hw
    rw [List.mem_append, List.mem_singleton] at hw
    rcases hw with hw | rfl
    · exact Nat.le_trans (hb w hw) (Nat.le_max_left _ _)
    · exact Nat.le_max_right _ _

/-! ## In order -/

/-- A write starts at or below the mark of the buffer it goes to. -/
def Joins (m : Store κ) : Effect κ → Prop
  | .write k off _ => ∀ b ∈ m k, off ≤ b.mark
  | _              => True

instance (m : Store κ) (e : Effect κ) : Decidable (Joins m e) :=
  match e with
  | .create _ _    => inferInstanceAs (Decidable True)
  | .write k off _ => inferInstanceAs (Decidable (∀ b ∈ m k, off ≤ b.mark))
  | .drop _        => inferInstanceAs (Decidable True)

/-- Every write does, at its time. -/
def InOrderFrom (m : Store κ) : List (Effect κ) → Prop
  | []      => True
  | e :: es => Joins m e ∧ InOrderFrom (apply m e) es

instance decidableInOrderFrom : (m : Store κ) → (es : List (Effect κ)) → Decidable (InOrderFrom m es)
  | _, []      => inferInstanceAs (Decidable True)
  | m, e :: es => @instDecidableAnd _ _ _ (decidableInOrderFrom (apply m e) es)

/-- The same from nothing. -/
def InOrder (es : List (Effect κ)) : Prop := InOrderFrom (fun _ => none) es

instance (es : List (Effect κ)) : Decidable (InOrder es) := decidableInOrderFrom _ es

theorem inOrderFrom_append (es es' : List (Effect κ)) :
    ∀ m : Store κ, InOrderFrom m (es ++ es') ↔ InOrderFrom m es ∧ InOrderFrom (es.foldl apply m) es' := by
  induction es with
  | nil => intro m; exact ⟨fun h => ⟨trivial, h⟩, fun h => h.2⟩
  | cons e es ih =>
    intro m
    show Joins m e ∧ InOrderFrom (apply m e) (es ++ es') ↔ (Joins m e ∧ InOrderFrom (apply m e) es) ∧ _
    rw [ih, and_assoc]
    rfl

theorem inOrder_concat {es : List (Effect κ)} {e : Effect κ} : InOrder (es ++ [e]) ↔ InOrder es ∧ Joins (build es) e := by
  rw [InOrder, inOrderFrom_append]
  exact and_congr_right (fun _ => ⟨fun h => h.1, fun h => ⟨h, trivial⟩⟩)

theorem InOrder.of_prefix {es es' : List (Effect κ)} (h : InOrder es) (hpre : es' <+: es) : InOrder es' := by
  obtain ⟨rest, rfl⟩ := hpre
  exact ((inOrderFrom_append es' rest _).mp h).1

/-- **In order, every buffer is what its writes made it.** -/
theorem InOrder.stands {es : List (Effect κ)} (h : InOrder es) (hfresh : ∀ k b, .create k b ∈ es → b.mark = 0)
    {k : κ} {b : Buffer} (hb : build es k = some b) : Stands b (history es k) := by
  refine build_history (fun k b hmem => Stands.fresh (hfresh k b hmem)) ?_ hb
  intro pre k off bs b hpre hb hstands
  have hjoins := (inOrder_concat.mp (h.of_prefix hpre)).2
  exact hstands.overlay (hjoins b hb) bs

/-- **The writes are in order iff no mark ever passes over a byte that was not written.** -/
theorem inOrder_iff_covered {es : List (Effect κ)} (hfresh : ∀ k b, .create k b ∈ es → b.mark = 0) :
    InOrder es ↔ ∀ pre, pre <+: es → ∀ k b, build pre k = some b → ∀ a, a < b.mark → Covered (history pre k) a := by
  constructor
  · intro h pre hpre k b hb
    exact ((h.of_prefix hpre).stands (fun k b hmem => hfresh k b (hpre.subset hmem)) hb).covered
  · induction es using List.reverseRecOn with
    | nil => intro _; trivial
    | append_singleton es e ih =>
      intro hcov
      have hbefore : InOrder es := ih (fun k b hmem => hfresh k b (List.mem_append_left _ hmem))
        (fun pre hpre => hcov pre (hpre.trans (List.prefix_append _ _)))
      refine inOrder_concat.mpr ⟨hbefore, ?_⟩
      cases e with
      | create | drop => trivial
      | write k off bs =>
        intro b hb
        by_contra hgap
        -- the byte at the old mark is below the new one, and no write holds it
        have hnow : build (es ++ [.write k off bs]) k = some (b.overlay off bs) := by
          rw [build_concat, apply, Function.update_self, Option.mem_def.mp hb]
          rfl
        have hmark : b.mark < (b.overlay off bs).mark := by
          show b.mark < max b.mark (off + bs.length)
          omega
        obtain ⟨w, hw, hle, hlt⟩ := hcov _ (List.prefix_refl _) k _ hnow b.mark hmark
        rw [history_concat, record, Function.update_self, List.mem_append, List.mem_singleton] at hw
        rcases hw with hw | rfl
        · have hend := write_le_mark hb w hw
          omega
        · exact hgap hle

end Store

end Basis
