import GekkoPak.Basis.Bytes
import Mathlib.Logic.Function.Basic

/-!
# `Basis.Buffers` — independent byte buffers under named keys

The abstract memory: a partial map from keys to buffers, each a byte array with a high-water mark. An effect
creates, overwrites part of, or drops the buffer of one key. The rule clients use is `foldl_apply_resident`: a
buffer that is neither created nor dropped along a list of effects holds the in-order overlay of the writes to
its own key, whatever happens to the others.
-/

namespace Basis

/-- A byte array and how far it has been written. -/
structure Buffer where
  bytes : List UInt8
  mark  : Nat
deriving DecidableEq, Repr

/-- `b` with `bs` written at `off`. -/
def Buffer.overlay (b : Buffer) (off : Nat) (bs : List UInt8) : Buffer :=
  ⟨splice b.bytes off bs, max b.mark (off + bs.length)⟩

/-- What can happen to the buffer of a key. -/
inductive Effect (κ : Type)
  | create (k : κ) (b : Buffer)
  | write (k : κ) (off : Nat) (bs : List UInt8)
  | drop (k : κ)
deriving DecidableEq, Repr

/-- The key an effect is about. -/
def Effect.key {κ : Type} : Effect κ → κ
  | .create k _  => k
  | .write k _ _ => k
  | .drop k      => k

/-- Buffers by key. -/
abbrev Store (κ : Type) : Type := κ → Option Buffer

namespace Store

variable {κ : Type} [DecidableEq κ]

/-- One effect. -/
def apply (m : Store κ) : Effect κ → Store κ
  | .create k b     => Function.update m k (some b)
  | .write k off bs => Function.update m k ((m k).map (fun b => b.overlay off bs))
  | .drop k         => Function.update m k none

/-- An effect on one key leaves the others alone. -/
theorem apply_of_ne {m : Store κ} {e : Effect κ} {k : κ} (h : e.key ≠ k) : apply m e k = m k := by
  cases e <;> exact Function.update_of_ne (Ne.symm h) _ _

/-- The writes to `k` among some effects, in order. -/
def writesTo (k : κ) (es : List (Effect κ)) : List (Nat × List UInt8) :=
  es.filterMap (fun e =>
    match e with
    | .write k' off bs => if k' = k then some (off, bs) else none
    | _ => none)

/-- `b` overlaid with some writes, in order. -/
def overlayAll (b : Buffer) (ws : List (Nat × List UInt8)) : Buffer :=
  ws.foldl (fun b w => b.overlay w.1 w.2) b

theorem writesTo_append (k : κ) (es es' : List (Effect κ)) :
    writesTo k (es ++ es') = writesTo k es ++ writesTo k es' := List.filterMap_append

theorem overlayAll_append (b : Buffer) (ws ws' : List (Nat × List UInt8)) :
    overlayAll b (ws ++ ws') = overlayAll (overlayAll b ws) ws' := List.foldl_append

/-- **A resident buffer is the overlay of its own writes.** -/
theorem foldl_apply_resident {k : κ} {es : List (Effect κ)}
    (hcreate : ∀ b, Effect.create k b ∉ es) (hdrop : Effect.drop k ∉ es) :
    ∀ {m : Store κ} {b : Buffer}, m k = some b → es.foldl apply m k = some (overlayAll b (writesTo k es)) := by
  induction es with
  | nil => intro m b h; exact h
  | cons e es ih =>
    intro m b h
    have ih' : ∀ {m' : Store κ} {c : Buffer}, m' k = some c →
        es.foldl apply m' k = some (overlayAll c (writesTo k es)) :=
      ih (fun b' hb' => hcreate b' (List.mem_cons_of_mem e hb')) (fun hd => hdrop (List.mem_cons_of_mem e hd))
    rw [List.foldl_cons]
    cases e with
    | create k' b' =>
      have hne : (Effect.create k' b').key ≠ k := fun he => hcreate b' (by rw [← he]; exact List.mem_cons_self)
      exact ih' ((apply_of_ne hne).trans h)
    | drop k' =>
      have hne : (Effect.drop k').key ≠ k := fun he => hdrop (by rw [← he]; exact List.mem_cons_self)
      exact ih' ((apply_of_ne hne).trans h)
    | write k' off bs =>
      by_cases hk : k' = k
      · subst hk
        have hnow : apply m (.write k' off bs) k' = some (b.overlay off bs) := by
          rw [apply, Function.update_self, h]; rfl
        have hhead : writesTo k' (.write k' off bs :: es) = (off, bs) :: writesTo k' es := by simp [writesTo]
        rw [ih' hnow, hhead]
        rfl
      · -- a write to another key is not among the writes to this one
        have hhead : writesTo k (.write k' off bs :: es) = writesTo k es := by simp [writesTo, hk]
        have hne : (Effect.write k' off bs).key ≠ k := hk
        rw [hhead]
        exact ih' ((apply_of_ne hne).trans h)

end Store

end Basis
