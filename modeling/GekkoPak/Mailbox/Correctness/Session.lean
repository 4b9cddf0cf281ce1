import GekkoPak.Mailbox.Session
import Mathlib.Tactic.IntervalCases

/-!
# `Mailbox.Correctness.Session` — guest and frontend under every schedule

The guest's program is run on what is known of it (`Known.run`), once from each of its ten requests to the next; the
frontend's ten answers are computed. Together that is what `Basis.Meetings` asks for (`session_meetings`), and the
three theorems at the end are its three rules: safety under every interleaving, completion under every fair one, and
the frame count of the frontend's own loop.
-/

namespace GekkoPak

open Basis Arm

namespace Mailbox

variable {modelJobUs : UInt32 → UInt32 → UInt32 → UInt32} {calloc : UInt32 → Bool} {state : UInt32}
  {descs : List MemoryDescriptor}

/-! ## The guest's paths, evaluated -/

/-- While it waits, the guest stays in its loop. -/
def staysWaiting (k : Nat) : Bool :=
  (spins k).all (fun e =>
    ((e.1.step Guest.program (fun _ => true)).map (fun K => (spins k).any (fun e' => K.implies e'.1))).getD false)

/-- While it waits, the request stands in the mailbox. -/
def keepsAsking (k : Nat) (r : Request) : Bool := (spins k).all (fun e => asks e.1 k r)

/-- From the answer it goes back to the beginning of the loop, and on to the next request. -/
def movesOn (k : Nat) (outs : List Val) : Bool :=
  (spins k).all (fun e =>
    ((onwards (answered e.1 outs) e.2).map (fun K => K.implies (answered (knownAt k) outs))).getD false)
  && ((onwards (answered (knownAt k) outs) (stretch.getD (k + 1) 0)).map (fun K => K.implies (knownAt (k + 1)))).getD
    false

theorem staysWaiting_all : ∀ k < 11, staysWaiting k = true := by decide +kernel

theorem keepsAsking_all : ∀ k < 10, ((script[k]?.map (fun e => keepsAsking k e.1)).getD false) = true := by
  decide +kernel

theorem movesOn_all : ∀ k < 10, ((script[k]?.map (fun e => movesOn k e.2)).getD false) = true := by decide +kernel

theorem starts : ((onwards knownAtStart 25).map (fun K => K.implies (knownAt 0))).getD false = true := by
  decide +kernel

/-! ## The frontend's answers -/

/-- The request stands in the mailbox. -/
structure Asks (box : GkMailbox) (k : Nat) (r : Request) : Prop where
  seq        : box.seq = UInt32.ofNat (k + 1)
  command    : box.command = r.command.code
  arg0       : box.arg0 = r.arg0
  arg1       : box.arg1 = r.arg1
  arg2       : box.arg2 = r.arg2
  arg3       : box.arg3 = r.arg3
  payloadLen : box.payloadLen = r.payloadLen

/-- The mailbox with an answer in it. -/
def answerBox (box : GkMailbox) (outs : List UInt32) : GkMailbox :=
  { box with
    result := gkOk, out0 := outs.getD 0 0, out1 := outs.getD 1 0, out2 := outs.getD 2 0, out3 := outs.getD 3 0
    state := gkStateResponse }

theorem fnv1a_sessionData : fnv1a (sessionData.take 16) = 0xF269B734 := by decide +kernel

/-- An UPLOAD that is let through. -/
theorem answer_upload {f : Frontend} {box : GkMailbox} {data bytes : List UInt8} {uploaded checksum : UInt32}
    (hdata : f.alloc.data = some data) (hcommand : box.command = GkCommand.upload.code)
    (hargs : ¬(box.arg0 ≠ f.alloc.handle ∨ box.arg1 > f.alloc.size ∨ box.payloadLen > f.alloc.size - box.arg1))
    (huploaded : (if box.arg1 + box.payloadLen > f.alloc.uploaded then box.arg1 + box.payloadLen
      else f.alloc.uploaded) = uploaded)
    (hsum : fnv1a ((splice data box.arg1.toNat bytes).take uploaded.toNat) = checksum) :
    f.answer modelJobUs calloc box (some bytes) =
      ({ f with
          alloc   := { f.alloc with data := some (splice data box.arg1.toNat bytes), uploaded := uploaded }
          lastSeq := box.seq }.traceCmd (answerBox box [box.payloadLen, checksum]),
        answerBox box [box.payloadLen, checksum]) := by
  subst huploaded hsum
  have hcode : GkCommand.ofCode box.command = some .upload := by rw [hcommand]; rfl
  simp only [Frontend.answer, Frontend.command, hcode, Frontend.cmdUpload, hdata, if_neg hargs]
  rfl

/-- An ALLOC that is let through. -/
theorem answer_alloc {f : Frontend} {box : GkMailbox} {payload : Option (List UInt8)}
    (hcommand : box.command = GkCommand.alloc.code)
    (hargs : ¬(box.arg0 = 0 ∨ box.arg0 > gkLocalMemoryBytes ∨ f.alloc.data.isSome)) (hcalloc : calloc box.arg0 = true) :
    f.answer modelJobUs calloc box payload =
      ({ f with
          alloc           := ⟨f.nextAllocHandle, some (List.replicate box.arg0.toNat 0), box.arg0, 0⟩
          lastSeq         := box.seq
          nextAllocHandle := f.nextAllocHandle + 1 }.traceCmd (answerBox box [f.nextAllocHandle, box.arg0]),
        answerBox box [f.nextAllocHandle, box.arg0]) := by
  have hcode : GkCommand.ofCode box.command = some .alloc := by rw [hcommand]; rfl
  simp only [Frontend.answer, Frontend.command, hcode, Frontend.cmdAlloc, if_neg hargs, hcalloc, Bool.not_true,
    Bool.false_eq_true, if_false]
  rfl

/-- **Every request of the session** gets the script's answer, and leaves the frontend as the table says, but for the
    summary to be printed. -/
theorem answer_frontendAt (hcalloc : calloc 4096 = true) {k : Nat} {e : Request × List Val} (he : script[k]? = some e)
    {box : GkMailbox} (hbox : Asks box k e.1) {payload : Option (List UInt8)} (hpay : k = 3 → payload = some payloadBytes) :
    (frontendAt modelJobUs descs k).answer modelJobUs calloc box payload
      = ({ frontendAt modelJobUs descs (k + 1) with summaries := [] },
          answerBox box (e.2.map (meant modelJobUs state))) := by
  have hk : k < 10 := (List.getElem?_eq_some_iff.mp he).1
  obtain ⟨magic, version, seq, command, st, result, arg0, arg1, arg2, arg3, out0, out1, out2, out3, plen, reserved⟩ :=
    box
  obtain ⟨hseq, hcommand, h0, h1, h2, h3, hplen⟩ := hbox
  dsimp only at hseq hcommand h0 h1 h2 h3 hplen
  subst hseq hcommand h0 h1 h2 h3 hplen
  interval_cases k
  · cases he; rfl
  · cases he; rfl
  · -- ALLOC: the heap has the bytes
    cases he
    refine (@answer_alloc modelJobUs calloc (frontendAt modelJobUs descs 2)
      ⟨magic, version, 3, 3, st, result, 4096, 0, 0, 0, out0, out1, out2, out3, 0, reserved⟩ payload rfl ?_
      hcalloc).trans rfl
    exact (by decide : ¬((4096 : UInt32) = 0 ∨ (4096 : UInt32) > gkLocalMemoryBytes ∨ (none : Option (List UInt8)).isSome))
  · -- UPLOAD: the checksum is computed apart
    cases he
    rw [hpay rfl]
    refine (@answer_upload modelJobUs calloc (frontendAt modelJobUs descs 3)
      ⟨magic, version, 4, 4, st, result, 1, 0, 0, 0, out0, out1, out2, out3, 16, reserved⟩
      (List.replicate 4096 0) payloadBytes 16 _ rfl rfl ?_ rfl fnv1a_sessionData).trans rfl
    exact (by decide : ¬((1 : UInt32) ≠ 1 ∨ (0 : UInt32) > 4096 ∨ (16 : UInt32) > 4096 - 0))
  · cases he; rfl
  · cases he; rfl
  · cases he; rfl
  · cases he; rfl
  · cases he; rfl
  · cases he; rfl

/-! ## The parties in the system -/

/-- The mailbox, the payload area and the summary area are mapped. -/
structure Mapped (descs : List MemoryDescriptor) : Prop where
  mailbox : (guestPtr descs gkMailbox gkMailboxBytes).isSome = true
  payload : (guestPtr descs (gkMailbox + gkPayloadOff) 16).isSome = true
  summary : (guestPtr descs (gkMailbox + gkSummaryOff) 36).isSome = true

/-- Without a request in the mailbox the frontend does nothing. -/
theorem service_unasked {s : System} (h : s.cpu.mem.word 0x0FFFC010 ≠ gkStateRequest) : s.service modelJobUs calloc = s := by
  have hbox : (GkMailbox.load s.cpu.mem).state ≠ gkStateRequest := h
  have hreq : s.frontend.requested (GkMailbox.load s.cpu.mem) = false := by
    simp only [Frontend.requested, hbox, false_and, and_false, decide_false]
  simp only [System.service, Frontend.serviceGekkopak, hreq, Bool.false_eq_true, if_false]

/-- A run of the guest with nothing asked is a run nobody disturbs. -/
theorem runs_guest {n : Nat} {cpu cpu' : State Mem} {f : Frontend}
    (h : Runs (Arm.step Guest.program ram) (fun c => c.mem.word 0x0FFFC010 ≠ gkStateRequest) n cpu cpu') :
    Runs System.guest (fun s => s.service modelJobUs calloc = s) n ⟨cpu, f⟩ ⟨cpu', f⟩ :=
  h.map (f := fun cpu => System.mk cpu f) (fun _ => rfl) (fun _ hq => service_unasked hq)

/-- What is known of the guest holds. -/
abbrev GuestHolds (modelJobUs : UInt32 → UInt32 → UInt32 → UInt32) (state : UInt32) (K : Known) (cpu : State Mem) :
    Prop :=
  Known.Holds Window.ram Guest.program (params modelJobUs state) () K cpu

theorem unasked_sound (hstate : state ≠ gkStateRequest) {K : Known} {cpu : State Mem} (hK : unasked K = true)
    (h : GuestHolds modelJobUs state K cpu) : cpu.mem.word 0x0FFFC010 ≠ gkStateRequest := by
  have hcases : K.word 0x0FFFC010 = some (.const gkStateResponse) ∨ K.word 0x0FFFC010 = some (.param 2) := by
    simpa [unasked] using hK
  rcases hcases with hresp | hparam
  · have hword : cpu.mem.word 0x0FFFC010 = gkStateResponse := h.word hresp
    rw [hword]
    decide
  · have hword : cpu.mem.word 0x0FFFC010 = state := h.word hparam
    rw [hword]
    exact hstate

/-- An evaluated stretch is executed, undisturbed. -/
theorem GuestHolds.onwards (hstate : state ≠ gkStateRequest) {K K' : Known} {n : Nat} {cpu : State Mem}
    (h : GuestHolds modelJobUs state K cpu)
    (hrun : ((onwards K n).map (fun K₁ => K₁.implies K')).getD false = true) (f : Frontend) :
    ∃ cpu', Runs System.guest (fun s => s.service modelJobUs calloc = s) n ⟨cpu, f⟩ ⟨cpu', f⟩ ∧
      GuestHolds modelJobUs state K' cpu' := by
  cases hK : Mailbox.onwards K n with
  | none =>
    rw [hK] at hrun
    cases hrun
  | some K₁ =>
    rw [hK] at hrun
    obtain ⟨K₂, hK₂, rfl⟩ := Option.map_eq_some_iff.mp hK
    obtain ⟨cpu', hruns, hcpu'⟩ := h.run (fun K s hok hs => unasked_sound hstate hok hs) n hK₂
    have hforget : GuestHolds modelJobUs state { K₂ with z := none } cpu' :=
      { hcpu' with z := fun b hb => by cases hb }
    exact ⟨cpu', runs_guest hruns, hforget.weaken hrun⟩

/-! ## The meeting points -/

/-- The guest waits for answer `k` (or rests), and the frontend has given `k` answers. -/
structure Waits (modelJobUs : UInt32 → UInt32 → UInt32 → UInt32) (state : UInt32) (descs : List MemoryDescriptor)
    (k : Nat) (s : System) : Prop where
  bound    : k < 11
  frontend : s.frontend = frontendAt modelJobUs descs k
  cpu      : ∃ e ∈ spins k, GuestHolds modelJobUs state e.1 s.cpu

theorem mem_spins (k : Nat) : (knownAt k, 0) ∈ spins k := by
  unfold spins
  split <;> exact List.mem_cons_self

theorem spins_behind {k : Nat} {e : Known × Nat} (he : e ∈ spins k) : e.2 ≤ 2 := by
  unfold spins at he
  split at he
  · simp only [List.mem_cons, List.not_mem_nil, or_false] at he
    rcases he with rfl | rfl | rfl
    · exact Nat.zero_le 2
    · exact Nat.le_refl 2
    · exact Nat.le_succ 1
  · rw [List.mem_singleton] at he
    rw [he]
    exact Nat.zero_le 2

theorem stretch_le (k : Nat) : stretch.getD k 0 ≤ 36 := by
  have hall : ∀ n ∈ stretch, n ≤ 36 := by decide
  by_cases hk : k < stretch.length
  · rw [List.getD_eq_getElem _ _ hk]
    exact hall _ (List.getElem_mem hk)
  · rw [List.getD_eq_default _ _ (by omega)]
    exact Nat.zero_le 36

theorem Waits.spin {k : Nat} {s : System} (h : Waits modelJobUs state descs k s) :
    Waits modelJobUs state descs k s.guest where
  bound := h.bound
  frontend := h.frontend
  cpu := by
    obtain ⟨e, he, hcpu⟩ := h.cpu
    have hstays := List.all_eq_true.mp (staysWaiting_all k h.bound) e he
    cases hK : e.1.step Guest.program (fun _ => true) with
    | none =>
      rw [hK] at hstays
      cases hstays
    | some K =>
      rw [hK] at hstays
      obtain ⟨e', he', himp⟩ := List.any_eq_true.mp hstays
      have hstep : GuestHolds modelJobUs state K (Arm.step Guest.program ram s.cpu) := hcpu.step hK
      exact ⟨e', he', hstep.weaken himp⟩

/-- What `asks` is worth. -/
theorem asks_sound {K : Known} {k : Nat} {r : Request} {cpu : State Mem} (hK : asks K k r = true)
    (h : GuestHolds modelJobUs state K cpu) :
    (GkMailbox.load cpu.mem).magic = gkMagic ∧ (GkMailbox.load cpu.mem).state = gkStateRequest ∧
      Asks (GkMailbox.load cpu.mem) k r := by
  have hword : ∀ {a v : UInt32}, K.word a = some (.const v) → cpu.mem.word a = v := fun hw => h.word hw
  simp only [asks, List.all_cons, List.all_nil, Bool.and_true, Bool.and_eq_true, decide_eq_true_eq] at hK
  obtain ⟨hmagic, hseq, hcommand, hreq, h0, h1, h2, h3, hplen⟩ := hK
  exact ⟨hword hmagic, hword hreq, hword hseq, hword hcommand, hword h0, hword h1, hword h2, hword h3, hword hplen⟩

/-- The answer as the guest finds it. -/
theorem GuestHolds.answered {K : Known} {cpu : State Mem} (h : GuestHolds modelJobUs state K cpu) (box : GkMailbox)
    {outs : List Val} (hlen : outs.length = 4) :
    GuestHolds modelJobUs state (answered K outs)
      { cpu with mem := (answerBox box (outs.map (meant modelJobUs state))).storeAnswer cpu.mem } := by
  obtain ⟨o0, o1, o2, o3, rfl⟩ : ∃ o0 o1 o2 o3, outs = [o0, o1, o2, o3] := by
    match outs, hlen with
    | [o0, o1, o2, o3], _ => exact ⟨o0, o1, o2, o3, rfl⟩
  have put : ∀ {K : Known} {cpu : State Mem} (a : UInt32) (v : Val), GuestHolds modelJobUs state K cpu →
      GuestHolds modelJobUs state (K.setWord a (some v))
        { cpu with mem := cpu.mem.setWord a (meant modelJobUs state v) } := by
    intro K cpu a v hK
    exact hK.store rfl (fun w hw => by cases hw; rfl)
  have hres := put 0x0FFFC014 (.const 0) h
  have hout0 := put 0x0FFFC028 o0 hres
  have hout1 := put 0x0FFFC02C o1 hout0
  have hout2 := put 0x0FFFC030 o2 hout1
  have hout3 := put 0x0FFFC034 o3 hout2
  have hall := put 0x0FFFC010 (.const gkStateResponse) hout3
  have hK : Mailbox.answered K [o0, o1, o2, o3] =
      (((((K.setWord 0x0FFFC014 (some (.const 0))).setWord 0x0FFFC028 (some o0)).setWord 0x0FFFC02C (some o1)).setWord
        0x0FFFC030 (some o2)).setWord 0x0FFFC034 (some o3)).setWord 0x0FFFC010 (some (.const gkStateResponse)) := rfl
  have hmem : (answerBox box ([o0, o1, o2, o3].map (meant modelJobUs state))).storeAnswer cpu.mem =
      (((((cpu.mem.setWord 0x0FFFC014 0).setWord 0x0FFFC028 (meant modelJobUs state o0)).setWord
        0x0FFFC02C (meant modelJobUs state o1)).setWord 0x0FFFC030 (meant modelJobUs state o2)).setWord
        0x0FFFC034 (meant modelJobUs state o3)).setWord 0x0FFFC010 gkStateResponse := rfl
  rw [hK, hmem]
  exact hall

/-- The four payload words are known to be in place. -/
def holdsPayload (K : Known) : Bool :=
  [(0x0FFFC040, 0x11223344), (0x0FFFC044, 0x55667788), (0x0FFFC048, 0xAABBCCDD), (0x0FFFC04C, 0x0BADF00D)].all
    (fun e => K.word e.1 = some (.const e.2))

theorem holdsPayload_spins : ∀ e ∈ spins 3, holdsPayload e.1 = true := by decide +kernel

/-- The bytes of a word. -/
theorem read_word (m : Mem) (a : UInt32) : m.read a.toNat 4 = le32 (m.word a) :=
  (le32_ofLe32 (Mem.read_length m a.toNat 4)).symm

theorem payload_read {K : Known} {cpu : State Mem} (hK : holdsPayload K = true)
    (h : GuestHolds modelJobUs state K cpu) : cpu.mem.read 0x0FFFC040 16 = payloadBytes := by
  have hword : ∀ {a v : UInt32}, K.word a = some (.const v) → cpu.mem.read a.toNat 4 = le32 v := by
    intro a v hw
    rw [read_word, show cpu.mem.word a = v from h.word hw]
  simp only [holdsPayload, List.all_cons, List.all_nil, Bool.and_true, Bool.and_eq_true, decide_eq_true_eq] at hK
  obtain ⟨h0, h1, h2, h3⟩ := hK
  rw [show (16 : Nat) = 4 + 4 + 4 + 4 from rfl, Mem.read_add, Mem.read_add, Mem.read_add]
  exact congrArg₂ _ (congrArg₂ _ (congrArg₂ _ (hword h0) (hword h1)) (hword h2)) (hword h3)

/-- The summary is known to be in place. -/
def holdsSummary (K : Known) : Bool :=
  [(0x0FFFC100, .const Guest.passMagic), (0x0FFFC104, .const gkVersion), (0x0FFFC108, .const gkCaps),
    (0x0FFFC10C, .const gkLocalMemoryBytes), (0x0FFFC110, .const 1), (0x0FFFC114, .const 1), (0x0FFFC118, .param 0),
    (0x0FFFC11C, .param 1), (0x0FFFC120, .const 0xF269B734)].all (fun e => K.word e.1 = some e.2)

theorem holdsSummary_spins : ∀ e ∈ spins 9,
    holdsSummary (answered e.1 [.const 0x53534150, .const 0, .const 0, .const 0]) = true := by decide +kernel

theorem summary_read {K : Known} {cpu : State Mem} (hK : holdsSummary K = true)
    (h : GuestHolds modelJobUs state K cpu) : summaryWords cpu.mem = sessionSummary modelJobUs := by
  have hword : ∀ {a : UInt32} {v : Val}, K.word a = some v → cpu.mem.word a = meant modelJobUs state v :=
    fun hw => h.word hw
  simp only [holdsSummary, List.all_cons, List.all_nil, Bool.and_true, Bool.and_eq_true, decide_eq_true_eq] at hK
  obtain ⟨h0, h1, h2, h3, h4, h5, h6, h7, h8⟩ := hK
  rw [summaryWords, hword h0, hword h1, hword h2, hword h3, hword h4, hword h5, hword h6, hword h7, hword h8]
  rfl

/-- The summary is printed after COMPLETE, and only then. -/
theorem prints_frontendAt (hmapped : Mapped descs) {k : Nat} {entry : Request × List Val}
    (hentry : script[k]? = some entry) {m : Mem} (hm : k = 9 → summaryWords m = sessionSummary modelJobUs) :
    (if entry.1.command.code = GkCommand.complete.code then
        { frontendAt modelJobUs descs (k + 1) with summaries := [] }.printSummary m
      else { frontendAt modelJobUs descs (k + 1) with summaries := [] }) = frontendAt modelJobUs descs (k + 1) := by
  have hk : k < 10 := (List.getElem?_eq_some_iff.mp hentry).1
  by_cases hlast : k = 9
  · subst hlast
    cases hentry
    rw [if_pos rfl, Frontend.printSummary, hm rfl]
    exact if_pos hmapped.summary
  · have hearlier : ∀ k < 9, script[k]?.map (fun e => e.1.command.code) ≠ some GkCommand.complete.code := by decide
    rw [if_neg]
    · have hnone : (if k + 1 < 10 then [] else [sessionSummary modelJobUs]) = [] := if_pos (by omega)
      rw [frontendAt, hnone]
    · intro hcode
      refine hearlier k (by omega) ?_
      rw [hentry, Option.map_some, hcode]

/-- The frontend's look, while the guest waits. -/
theorem Waits.service (hcalloc : calloc 4096 = true) (hmapped : Mapped descs) {k : Nat} {entry : Request × List Val}
    (hentry : script[k]? = some entry) {s : System} (h : Waits modelJobUs state descs k s) {e : Known × Nat}
    (he : e ∈ spins k) (hcpu : GuestHolds modelJobUs state e.1 s.cpu) :
    s.service modelJobUs calloc =
      { cpu := { s.cpu with
          mem := (answerBox (GkMailbox.load s.cpu.mem) (entry.2.map (meant modelJobUs state))).storeAnswer s.cpu.mem }
        frontend := frontendAt modelJobUs descs (k + 1) } := by
  have hk : k < 10 := (List.getElem?_eq_some_iff.mp hentry).1
  have hasks := keepsAsking_all k hk
  rw [hentry] at hasks
  obtain ⟨hmagic, hreq, hbox⟩ := asks_sound (List.all_eq_true.mp hasks e he) hcpu
  have hseq : (GkMailbox.load s.cpu.mem).seq ≠ s.frontend.lastSeq := by
    rw [hbox.seq, h.frontend]
    show UInt32.ofNat (k + 1) ≠ UInt32.ofNat k
    interval_cases k <;> decide
  have hrequested : s.frontend.requested (GkMailbox.load s.cpu.mem) = true := by
    have hmap : (guestPtr s.frontend.descs gkMailbox gkMailboxBytes).isSome = true := by
      rw [h.frontend]
      exact hmapped.mailbox
    simp only [Frontend.requested, hmap, hmagic, hreq, hseq, ne_eq, not_false_eq_true, and_self, decide_true]
  have hpay : k = 3 →
      payloadOf s.frontend.descs s.cpu.mem (GkMailbox.load s.cpu.mem).payloadLen = some payloadBytes := by
    rintro rfl
    cases hentry
    have hmap : (guestPtr s.frontend.descs (gkMailbox + gkPayloadOff) (16 : UInt32).toUInt64).isSome = true := by
      rw [h.frontend]
      exact hmapped.payload
    obtain ⟨p, hp⟩ := Option.isSome_iff_exists.mp hmap
    rw [payloadOf, hbox.payloadLen, hp, Option.map_some]
    exact congrArg some (payload_read (holdsPayload_spins e he) hcpu)
  have hanswer := @answer_frontendAt modelJobUs calloc state descs hcalloc _ _ hentry _ hbox _ hpay
  rw [System.service, Frontend.serviceGekkopak]
  simp only [hrequested, if_true]
  rw [h.frontend] at hanswer ⊢
  rw [hanswer]
  have hcommand : (answerBox (GkMailbox.load s.cpu.mem) (entry.2.map (meant modelJobUs state))).command
      = entry.1.command.code := hbox.command
  have hsummary : k = 9 →
      summaryWords ((answerBox (GkMailbox.load s.cpu.mem) (entry.2.map (meant modelJobUs state))).storeAnswer s.cpu.mem)
        = sessionSummary modelJobUs := by
    rintro rfl
    cases hentry
    have hlen : [Val.const 0x53534150, .const 0, .const 0, .const 0].length = 4 := rfl
    have hafter := hcpu.answered (GkMailbox.load s.cpu.mem) hlen
    have hread := summary_read (holdsSummary_spins e he) hafter
    exact hread
  simp only [hcommand, prints_frontendAt hmapped hentry hsummary]

/-- From an answer on, the guest goes to its next request, or to its rest. -/
theorem GuestHolds.moves (hstate : state ≠ gkStateRequest) {k : Nat} {entry : Request × List Val}
    (hentry : script[k]? = some entry) {e : Known × Nat} (he : e ∈ spins k) {cpu : State Mem}
    (hcpu : GuestHolds modelJobUs state (Mailbox.answered e.1 entry.2) cpu) (f : Frontend) :
    ∃ n ≤ 38, ∃ cpu', Runs System.guest (fun s => s.service modelJobUs calloc = s) n ⟨cpu, f⟩ ⟨cpu', f⟩ ∧
      GuestHolds modelJobUs state (knownAt (k + 1)) cpu' := by
  have hk : k < 10 := (List.getElem?_eq_some_iff.mp hentry).1
  have hmoves := movesOn_all k hk
  rw [hentry] at hmoves
  obtain ⟨hback, hnext⟩ := Bool.and_eq_true_iff.mp hmoves
  -- back to the beginning of the loop, then on to the next request
  obtain ⟨cpu₁, hruns₁, hcpu₁⟩ := hcpu.onwards hstate (List.all_eq_true.mp hback e he) f
  obtain ⟨cpu₂, hruns₂, hcpu₂⟩ := hcpu₁.onwards hstate hnext f
  have hbehind : e.2 ≤ 2 := spins_behind he
  have hstretch : stretch.getD (k + 1) 0 ≤ 36 := stretch_le (k + 1)
  exact ⟨_, by omega, cpu₂, hruns₁.trans hruns₂, hcpu₂⟩

/-- **An answer.** The frontend answers the request the guest waits for, and the guest goes on to the next one with
    nobody in its way. -/
theorem Waits.answer (hcalloc : calloc 4096 = true) (hmapped : Mapped descs) (hstate : state ≠ gkStateRequest) {k : Nat}
    (hk : k < 10) {s : System} (h : Waits modelJobUs state descs k s) :
    ∃ n ≤ 38, Before System.guest (System.service modelJobUs calloc) (Waits modelJobUs state descs) (k + 1) n
      (s.service modelJobUs calloc) := by
  obtain ⟨e, he, hcpu⟩ := h.cpu
  obtain ⟨entry, hentry⟩ : ∃ entry, script[k]? = some entry :=
    ⟨_, List.getElem?_eq_getElem (show k < script.length from hk)⟩
  have hlen : entry.2.length = 4 := by
    have hall : ∀ e ∈ script, e.2.length = 4 := by decide
    exact hall entry (List.mem_of_getElem? hentry)
  rw [h.service hcalloc hmapped hentry he hcpu]
  obtain ⟨n, hn, cpu', hruns, hcpu'⟩ := (hcpu.answered (GkMailbox.load s.cpu.mem) hlen).moves hstate hentry he
    (frontendAt modelJobUs descs (k + 1))
  exact ⟨n, hn, ⟨cpu', _⟩, hruns, by omega, rfl, _, mem_spins _, hcpu'⟩

/-- The frontend has nothing to say to a guest that rests. -/
theorem Waits.rest (hstate : state ≠ gkStateRequest) {s : System} (h : Waits modelJobUs state descs 10 s) :
    Waits modelJobUs state descs 10 (s.service modelJobUs calloc) := by
  obtain ⟨e, he, hcpu⟩ := h.cpu
  have hquiet : ∀ e ∈ spins 10, unasked e.1 = true := by decide +kernel
  rw [service_unasked (unasked_sound hstate (hquiet e he) hcpu)]
  exact h

variable (modelJobUs) in
/-- **Guest and frontend meet ten times.** -/
theorem session_meetings (hcalloc : calloc 4096 = true) (hmapped : Mapped descs) (hstate : state ≠ gkStateRequest) :
    Meetings System.guest (System.service modelJobUs calloc) (Waits modelJobUs state descs) 10 38 where
  spin h := h.spin
  answer hk h := h.answer hcalloc hmapped hstate hk
  rest h := h.rest hstate

/-! ## The session -/

/-- The guest loaded, the frontend ready with its trace file open: whatever is in the memory, the state word does not say
    REQUEST. -/
structure Ready (descriptors : List MemoryDescriptor) (s : System) : Prop where
  pc       : s.cpu.pc = 0
  state    : s.cpu.mem.word 0x0FFFC010 ≠ gkStateRequest
  frontend : s.frontend = .init descriptors true
  mapped   : Mapped (copyMemoryMap descriptors)

/-- A memory map with one descriptor, for the guest's heap. -/
def heapMap : List MemoryDescriptor := [⟨0x10000000, 0, 0x08000000, 0, 0x08000000⟩]

theorem ready_boot : Ready heapMap (.boot heapMap) where
  pc := rfl
  state := by decide +kernel
  frontend := rfl
  mapped := ⟨by decide +kernel, by decide +kernel, by decide +kernel⟩

theorem Ready.before {descriptors : List MemoryDescriptor} {s : System} (h : Ready descriptors s) :
    Before System.guest (System.service modelJobUs calloc)
      (Waits modelJobUs (s.cpu.mem.word 0x0FFFC010) (copyMemoryMap descriptors)) 0 25 s := by
  have hcpu : GuestHolds modelJobUs (s.cpu.mem.word 0x0FFFC010) knownAtStart s.cpu := {
    pc := h.pc
    regs := by intro r v hv; cases hv
    words := by
      intro a v hv
      simp only [knownAtStart, List.mem_cons, Prod.mk.injEq, List.not_mem_nil, or_false] at hv
      obtain ⟨rfl, rfl⟩ := hv
      rfl
    z := by intro b hb; cases hb
    rest := rfl }
  obtain ⟨cpu', hruns, hcpu'⟩ := hcpu.onwards h.state starts (.init descriptors true)
  have hs : s = ⟨s.cpu, .init descriptors true⟩ := by rw [← h.frontend]
  rw [hs]
  exact ⟨⟨cpu', _⟩, hruns, by decide, rfl, _, mem_spins 0, hcpu'⟩

/-! ### What the guest never does -/

/-- The branch the guest takes when an answer is not OK. -/
def System.failed (s : System) : Prop := Guest.program.target .failed ≤ s.cpu.pc

theorem target_failed : Guest.program.target .failed = 114 := by decide +kernel

/-- The failure branch has no way out. -/
theorem System.failed.guest {s : System} (h : s.failed) : s.guest.failed := by
  have hcode : Guest.program.code.drop 114 =
      [.op (.lit r0 Guest.failMagic), .op (.str r0 r10 Guest.oSummary), .b .al .failSpin] := by decide +kernel
  have hspin : Guest.program.target .failSpin = 116 := by decide +kernel
  rw [System.failed, target_failed] at h ⊢
  have hget : ∀ i, Guest.program.code[114 + i]? = (Guest.program.code.drop 114)[i]? := fun i => by
    rw [List.getElem?_drop]
  obtain ⟨i, hi⟩ : ∃ i, s.cpu.pc = 114 + i := ⟨s.cpu.pc - 114, by omega⟩
  have hat : Guest.program.code[s.cpu.pc]? = (Guest.program.code.drop 114)[i]? := by rw [hi, hget]
  rw [hcode] at hat
  show 114 ≤ (Arm.step Guest.program ram s.cpu).pc
  match i, hat with
  | 0, hat => rw [step_of_code hat]; exact Nat.le_succ_of_le h
  | 1, hat => rw [step_of_code hat]; exact Nat.le_succ_of_le h
  | 2, hat =>
    rw [step_b hat, hspin]
    exact Nat.le_add_right 114 2
  | i + 3, hat =>
    rw [Arm.step, hat]
    exact h

/-- A guest on its way to a meeting point has not failed. -/
theorem Before.not_failed {k n : Nat} {s : System}
    (h : Before System.guest (System.service modelJobUs calloc) (Waits modelJobUs state descs) k n s) : ¬s.failed := by
  obtain ⟨t, hruns, ht⟩ := h
  have hend : ¬t.failed := by
    obtain ⟨e, he, hcpu⟩ := ht.cpu
    have hpc : ∀ k < 11, ∀ e ∈ spins k, e.1.pc < 114 := by decide +kernel
    rw [System.failed, target_failed, hcpu.pc]
    exact Nat.not_le.mpr (hpc k ht.bound e he)
  clear ht
  induction hruns with
  | refl => exact hend
  | head _ _ ih => exact fun hs => ih hend hs.guest

/-- The frontend is left alone by the guest. -/
theorem Before.frontend {k n : Nat} {s : System}
    (h : Before System.guest (System.service modelJobUs calloc) (Waits modelJobUs state descs) k n s) :
    s.frontend = frontendAt modelJobUs descs k ∧ k < 11 := by
  obtain ⟨t, hruns, ht⟩ := h
  refine ⟨?_, ht.bound⟩
  rw [← ht.frontend]
  clear ht
  induction hruns with
  | refl => rfl
  | head _ _ ih => exact ih

/-! ### Every interleaving -/

theorem sessionTrace_length : (sessionTrace modelJobUs).length = 10 := rfl

theorem validateTrace_sessionTrace : validateTrace (sessionTrace modelJobUs) = true := rfl

variable (modelJobUs) in
/-- What a schedule leaves: the frontend after some number of answers, and a guest that has not failed. -/
theorem Ready.after (hcalloc : calloc 4096 = true) {descriptors : List MemoryDescriptor} {s : System}
    (h : Ready descriptors s) (ps : List Party) :
    ∃ k ≤ 10, k ≤ ps.count .server ∧
      (s.after modelJobUs calloc ps).frontend = frontendAt modelJobUs (copyMemoryMap descriptors) k ∧
      ¬(s.after modelJobUs calloc ps).failed := by
  obtain ⟨k, n, _, hlast, hcount, hbefore⟩ :=
    (session_meetings modelJobUs hcalloc h.mapped h.state).between ps (Nat.zero_le 10) h.before
  rw [Nat.zero_add] at hcount
  exact ⟨k, hlast, hcount, (Before.frontend hbefore).1, Before.not_failed hbefore⟩

/-- **Safety.** The heap has the 4096 bytes the guest asks for. Whatever the memory held, as long as it was no request, and
    however the guest's instructions and the frontend's looks interleave, the trace is a beginning of the session's, with
    at most one line for each look; the guest never gets to its failure branch; and once the frontend has seen COMPLETE,
    the trace passes the validator and the summary printed is the session's. -/
theorem session_safe (hcalloc : calloc 4096 = true) {descriptors : List MemoryDescriptor} {s : System}
    (h : Ready descriptors s) (ps : List Party) :
    (s.after modelJobUs calloc ps).frontend.trace <+: sessionTrace modelJobUs ∧
    (s.after modelJobUs calloc ps).frontend.trace.length ≤ ps.count .server ∧
    ¬(s.after modelJobUs calloc ps).failed ∧
    ((s.after modelJobUs calloc ps).frontend.guestDone = true →
      validateTrace (s.after modelJobUs calloc ps).frontend.trace = true ∧
      (s.after modelJobUs calloc ps).frontend.summaries = [sessionSummary modelJobUs]) := by
  obtain ⟨k, hlast, hcount, hfrontend, hfailed⟩ := h.after modelJobUs hcalloc ps
  rw [hfrontend]
  refine ⟨List.take_prefix k _, ?_, hfailed, ?_⟩
  · show ((sessionTrace modelJobUs).take k).length ≤ _
    rw [List.length_take, sessionTrace_length]
    omega
  · intro hdone
    have hle : 10 ≤ k := of_decide_eq_true hdone
    have hk : k = 10 := by omega
    subst hk
    exact ⟨validateTrace_sessionTrace, rfl⟩

/-- A machine that starts out zero, and a frontend that looks once in 40 instructions. -/
theorem session_safe_boot :
    ¬((System.boot heapMap).after (fun _ _ _ => 2530) (fun _ => true) (List.replicate 40 .caller ++ [.server])).failed :=
  (@session_safe _ (fun _ => true) rfl _ _ ready_boot _).2.2.1

/-- The validator wants all ten lines. -/
theorem validateTrace_frontendAt {k : Nat} (hk : k ≤ 10) :
    validateTrace (frontendAt modelJobUs descs k).trace = true ↔ k = 10 := by
  refine ⟨?_, ?_⟩
  · intro hvalid
    have hnames : ((sessionTrace modelJobUs).take k).map TraceLine.cmd = expectedCommands := by
      simp only [validateTrace, decide_eq_true_eq] at hvalid
      exact hvalid.1
    have hlen := congrArg List.length hnames
    rw [List.length_map, List.length_take, sessionTrace_length] at hlen
    have hten : expectedCommands.length = 10 := rfl
    omega
  · rintro rfl
    exact validateTrace_sessionTrace

/-! ### Fair schedules -/

theorem Before.done {n : Nat} {s : System}
    (h : Before System.guest (System.service modelJobUs calloc) (Waits modelJobUs state descs) 10 n s) :
    s.frontend.guestDone = true ∧ s.frontend.trace = sessionTrace modelJobUs := by
  obtain ⟨hfrontend, _⟩ := Before.frontend h
  rw [hfrontend]
  exact ⟨rfl, rfl⟩

/-- **Progress.** If neither the core nor the frontend stops for good, and the heap has the 4096 bytes, COMPLETE is answered,
    and the trace is whole from then on. -/
theorem session_completes (hcalloc : calloc 4096 = true) {descriptors : List MemoryDescriptor} {s : System}
    (h : Ready descriptors s) {sched : Nat → Party} (hfair : Meetings.Fair sched) :
    ∃ m, ∀ d, (Meetings.stateAt System.guest (System.service modelJobUs calloc) sched s (m + d)).frontend.guestDone = true ∧
      (Meetings.stateAt System.guest (System.service modelJobUs calloc) sched s (m + d)).frontend.trace
        = sessionTrace modelJobUs := by
  obtain ⟨m, hm⟩ := (session_meetings modelJobUs hcalloc h.mapped h.state).completes hfair h.before
  refine ⟨m, fun d => ?_⟩
  obtain ⟨n, hn⟩ := hm d
  exact Before.done hn

/-- Guest and frontend in turn. -/
def inTurn (m : Nat) : Party := if m % 2 = 0 then .caller else .server

theorem fair_inTurn : Meetings.Fair inTurn := by
  intro p m
  cases p with
  | caller => exact ⟨2 * m, by omega, by simp [inTurn]⟩
  | server => exact ⟨2 * m + 1, by omega, by simp [inTurn]⟩

theorem session_completes_inTurn :
    ∃ m, ∀ d, (Meetings.stateAt System.guest (System.service (fun _ _ _ => 2530) (fun _ => true)) inTurn (.boot heapMap)
          (m + d)).frontend.guestDone = true ∧
      (Meetings.stateAt System.guest (System.service (fun _ _ _ => 2530) (fun _ => true)) inTurn (.boot heapMap)
          (m + d)).frontend.trace = sessionTrace (fun _ _ _ => 2530) :=
  session_completes rfl ready_boot fair_inTurn

/-! ### The frontend's loop -/

variable (modelJobUs calloc) in
/-- The loop of `main` is a schedule, with at most one look a frame. -/
theorem frameLoop_schedule (steps : Nat → Nat) (n : Nat) : ∀ f (s : System),
    ∃ ps : List Party, System.frameLoop modelJobUs calloc steps n f s = s.after modelJobUs calloc ps ∧
      ps.count .server ≤ n := by
  induction n with
  | zero => intro f s; exact ⟨[], rfl, Nat.le_refl 0⟩
  | succ n ih =>
    intro f s
    rw [System.frameLoop]
    split
    · exact ⟨[], rfl, Nat.zero_le _⟩
    · obtain ⟨ps, hps, hcount⟩ := ih (f + 1) ((System.guest^[steps f] s).service modelJobUs calloc)
      refine ⟨List.replicate (steps f) .caller ++ .server :: ps, ?_, ?_⟩
      · rw [hps, System.after, System.after, play_append, play_replicate_caller]
        rfl
      · rw [List.count_append, List.count_replicate, List.count_cons]
        simp only [beq_iff_eq, reduceCtorEq, if_false, if_true, Nat.zero_add]
        omega

/-- With enough frames left, and long enough ones, the loop ends with the guest done. -/
theorem frameLoop_done (hcalloc : calloc 4096 = true) (hmapped : Mapped descs) (hstate : state ≠ gkStateRequest)
    {steps : Nat → Nat} (hsteps : ∀ f, 38 ≤ steps f) (fuel : Nat) : ∀ {k n f : Nat} {s : System}, k ≤ 10 → 10 ≤ k + fuel → n ≤ 38 →
      Before System.guest (System.service modelJobUs calloc) (Waits modelJobUs state descs) k n s →
      (System.frameLoop modelJobUs calloc steps fuel f s).frontend.guestDone = true := by
  induction fuel with
  | zero =>
    intro k n f s hk hfuel _ hs
    have hlast : k = 10 := by omega
    subst hlast
    exact (Before.done hs).1
  | succ fuel ih =>
    intro k n f s hk hfuel hn hs
    rw [System.frameLoop]
    split
    · next hdone => exact hdone
    · next hdone =>
      have hlt : k < 10 := by
        refine Nat.lt_of_le_of_ne hk ?_
        rintro rfl
        exact hdone (Before.done hs).1
      have hmeetings := session_meetings modelJobUs hcalloc hmapped hstate
      obtain ⟨n', hn', hnext⟩ := hmeetings.round (Nat.le_trans hn (hsteps f)) hlt hs
      exact ih hlt (by omega) hn' hnext

/-- **The frontend's verdict.** With its trace file open and the 4096 bytes to be had, however long its 90 frames are, the
    frontend exits with 0 exactly when the trace it leaves passes the validator; and it does exit with 0 if no frame is
    shorter than 38 instructions. -/
theorem main_verdict (hcalloc : calloc 4096 = true) {descriptors : List MemoryDescriptor} {s : System}
    (h : Ready descriptors s) (steps : Nat → Nat) :
    ((System.frameLoop modelJobUs calloc steps 90 0 s).exitCode = 0 ↔
      validateTrace (System.frameLoop modelJobUs calloc steps 90 0 s).frontend.trace = true) ∧
    ((∀ f, 38 ≤ steps f) → (System.frameLoop modelJobUs calloc steps 90 0 s).exitCode = 0) := by
  constructor
  · obtain ⟨ps, hps, _⟩ := frameLoop_schedule modelJobUs calloc steps 90 0 s
    obtain ⟨k, hk, _, hfrontend, _⟩ := h.after modelJobUs hcalloc ps
    have hdone : (frontendAt modelJobUs (copyMemoryMap descriptors) k).guestDone = decide (10 ≤ k) := rfl
    rw [System.exitCode, hps, hfrontend, validateTrace_frontendAt hk, hdone]
    simp only [decide_eq_true_eq, ite_eq_left_iff, one_ne_zero, imp_false, Decidable.not_not]
    omega
  · intro hsteps
    have hdone := @frameLoop_done modelJobUs calloc _ _ hcalloc h.mapped h.state steps hsteps 90 0 _ 0 s (Nat.zero_le 10)
      (by decide) (by decide) h.before
    rw [System.exitCode, if_pos hdone]

theorem main_verdict_boot :
    (System.frameLoop (fun _ _ _ => 2530) (fun _ => true) (fun _ => 40) 90 0 (.boot heapMap)).exitCode = 0 :=
  (main_verdict rfl ready_boot (fun _ => 40)).2 (fun _ => by decide)

end Mailbox

end GekkoPak
