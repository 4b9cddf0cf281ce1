import GekkoPak.Device.BlockSteps

/-!
# `Device.Invariant` — the invariant rule of the device

`step_keeps` reduces "every wire operation keeps `I`" to four obligations: what touches only registers keeps
`I`; every `ExecStep` does; every settled descriptor, with its record pushed, does; and taking records off the
front of the queue does. With `Machine.invariant` this gives `I` in every reachable state.
-/

namespace GekkoPak

open Basis

namespace Device

/-- `t` differs from `s` at most in the registers, the payload window and the two flags. -/
structure Quiet (s t : Device) : Prop where
  config      : t.config = s.config
  pool        : t.pool = s.pool
  allocations : t.allocations = s.allocations
  jobs        : t.jobs = s.jobs
  completions : t.completions = s.completions
  nextJob     : t.nextJob = s.nextJob
  trace       : t.trace = s.trace

theorem quiet_setResult (s : Device) (st : Status) : Quiet s (s.setResult st) := ⟨rfl, rfl, rfl, rfl, rfl, rfl, rfl⟩

theorem quiet_writeReg (s : Device) (index : UInt8) (value : UInt32) : Quiet s (s.writeReg index value) := by
  unfold writeReg
  split <;> exact ⟨rfl, rfl, rfl, rfl, rfl, rfl, rfl⟩

theorem quiet_writePayloadWord (s : Device) (index : UInt8) (value : UInt32) :
    Quiet s (s.writePayloadWord index value) := by
  unfold writePayloadWord
  simp only
  split <;> exact ⟨rfl, rfl, rfl, rfl, rfl, rfl, rfl⟩

/-- **Invariant rule of the device**, with the F1 case left to be settled in the state at hand. -/
theorem step_keeps_at {I : Device → Prop}
    (quiet : ∀ s t, Quiet s t → I s → I t)
    (descriptor : ∀ s batchSize share p t r, DescriptorStep s batchSize share p t r → I s →
      I (t.pushCompletion r).1)
    (drained : ∀ s q k, s.completions.contents = s.completions.contents.take k ++ q.contents → I s →
      I { s with completions := q })
    {s : Device} (op : WireOp) (exec : ∀ command sequence, op = .exec command sequence → I (s.exec command sequence))
    (hs : I s) : I (s.step op).1 := by
  cases op with
  | writeReg index value => exact quiet _ _ (quiet_writeReg s index value) hs
  | exec command sequence => exact exec command sequence rfl
  | readReg index => exact hs
  | writePayloadWord index value => exact quiet _ _ (quiet_writePayloadWord s index value) hs
  | writeBlock selector word data =>
    show I (s.writeBlock selector word data).1
    rcases writeBlock_cases s selector word data with
      ⟨heq, -⟩ | ⟨bytes, -, -, ⟨st, -, heq⟩ | ⟨parsed, -, heq⟩⟩
    · rw [heq]; exact quiet _ _ (quiet_setResult s .badBlock) hs
    · rw [heq]; exact quiet _ _ (quiet_setResult s st) hs
    · rw [heq]
      refine quiet _ _ (quiet_setResult _ _) ?_
      exact processDescriptors_invariant (fun p _ s t r hI hd => descriptor s _ _ p t r hd hI) hs
  | readBlock selector word out =>
    show I (s.readBlock selector word out).1
    rcases readBlock_cases s selector word out with ⟨heq, -⟩ | ⟨outBytes, q, -, -, hcont, heq⟩
    · rw [heq]; exact quiet _ _ (quiet_setResult s .badBlock) hs
    · rw [heq]
      exact quiet _ _ (quiet_setResult _ _) (drained s q _ hcont hs)

/-- **Invariant rule of the device.** -/
theorem step_keeps {I : Device → Prop}
    (quiet : ∀ s t, Quiet s t → I s → I t)
    (exec : ∀ s c t, ExecStep s c t → I s → I t)
    (descriptor : ∀ s batchSize share p t r, DescriptorStep s batchSize share p t r → I s →
      I (t.pushCompletion r).1)
    (drained : ∀ s q k, s.completions.contents = s.completions.contents.take k ++ q.contents → I s →
      I { s with completions := q })
    {s : Device} (op : WireOp) (hs : I s) : I (s.step op).1 :=
  step_keeps_at quiet descriptor drained op
    (fun command sequence _ => exec s _ _ (exec_step s command sequence) hs) hs

/-! ## What never changes -/

theorem pushCompletion_config (s : Device) (r : CompletionRecordV1) : (s.pushCompletion r).1.config = s.config := rfl

theorem staged_config (s : Device) (i : Fin kMaxAllocations) (p : ParsedDescriptor) :
    (s.staged i p).config = s.config := by
  unfold staged
  cases p.input <;> rfl

theorem descriptor_config {s t : Device} {batchSize share : UInt32} {p : ParsedDescriptor} {r : CompletionRecordV1}
    (hd : DescriptorStep s batchSize share p t r) : t.config = s.config := by
  cases hd with
  | badInput | notUploaded => rfl
  | badOutput i | noSlot i | accepted i => exact staged_config s i p

/-- No operation touches the configuration. -/
theorem step_config (s : Device) (op : WireOp) : (s.step op).1.config = s.config := by
  refine step_keeps (I := fun t => t.config = s.config) ?_ ?_ ?_ ?_ op rfl
  · intro u t hq hu
    rw [hq.config]; exact hu
  · intro u c t hstep hu
    cases hstep <;> exact hu
  · intro u b share p t r hd hu
    rw [pushCompletion_config, descriptor_config hd]
    exact hu
  · intro u q k _ hu
    exact hu

/-- A run works under the configuration it was given, with the reported size filled in by `Reset`. -/
theorem after_config (config : Config) (ops : List WireOp) :
    (after config ops).config = { config with
      reportedLocalBytes := if config.reportedLocalBytes = 0 then config.poolBytes else config.reportedLocalBytes } := by
  refine Machine.invariant (M := machine config) (I := fun s => s.config = { config with
    reportedLocalBytes := if config.reportedLocalBytes = 0 then config.poolBytes else config.reportedLocalBytes })
    ?_ ?_ (Machine.reachable_run _ ops)
  · show (reset config).config = _
    unfold reset
    simp only
    split <;> rfl
  · intro s op hs
    exact (step_config s op).trans hs

/-- A run works on the pool it was configured with. -/
theorem after_poolBytes (config : Config) (ops : List WireOp) :
    (after config ops).config.poolBytes = config.poolBytes := by
  rw [after_config]

end Device

end GekkoPak
